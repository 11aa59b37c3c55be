import Dockstack.Auth.Passkeys
import Dockstack.Auth.SessionRuns
import Dockstack.Base.Utf8

/-!
# The two counters of a passkey

A passkey's sign count is stored twice: in its `counter` column, and in the JSON credential that
is handed to the validator. A registration writes both, a login only the column. So the two stay
in step exactly as long as every login carries the count that was stored at registration.
-/

namespace Dockstack.Auth

open Dockstack.Base

/-- The passkey calls. -/
inductive PasskeyCall (D : Type) where
  | beginRegistration (fails : PasskeyFailures) (userID : String) (session : Option D)
      (id : String) (now now' : Int)
  | beginAuthentication (fails : PasskeyFailures) (session : Option D) (id : String)
      (now now' : Int)
  | finishRegistration (fails : PasskeyFailures) (userID challengeID : String) (response : Bytes)
      (id : String) (now now' : Int)
  | finishAuthentication (fails : PasskeyFailures) (challengeID : String) (response : Bytes)
      (now : Int)
  | deletePasskey (userID id : String)
  | deleteExpiredChallenges (now : Int)

variable {D C A : Type}

/-- The tables after a call; one that returns an error may still have deleted its challenge. -/
def runPasskeyCall (w : WebAuthn D C A) (db : PasskeyDB) : PasskeyCall D → PasskeyDB
  | .beginRegistration fails userID session id now now' =>
    (beginRegistration w db fails userID session id now now').getD db
  | .beginAuthentication fails session id now now' =>
    (beginAuthentication w db fails session id now now').getD db
  | .finishRegistration fails userID challengeID response id now now' =>
    (finishRegistration w db fails userID challengeID response id now now').2
  | .finishAuthentication fails challengeID response now =>
    (finishAuthentication w db fails challengeID response now).2
  | .deletePasskey userID id => deletePasskey db userID id
  | .deleteExpiredChallenges now => deleteExpiredChallenges db now

/-- One call is one step. -/
def passkeyStep (w : WebAuthn D C A) (db : PasskeyDB) (call : PasskeyCall D) : Option PasskeyDB :=
  some (runPasskeyCall w db call)

/-- The sign count in every credential that is handed to the validator is the `counter` of its
passkey. -/
def InStep (w : WebAuthn D C A) (db : PasskeyDB) : Prop :=
  ∀ row ∈ db.passkeys.rows, ∀ c ∈ w.unmarshalCredential row.publicKey,
    (c.signCount.toNat : Int) = row.counter

instance (w : WebAuthn D C A) (db : PasskeyDB) : Decidable (InStep w db) :=
  inferInstanceAs (Decidable (∀ row ∈ db.passkeys.rows, ∀ c ∈ w.unmarshalCredential row.publicKey,
    (c.signCount.toNat : Int) = row.counter))

/-- The user and the credential of a login that reaches `UpdatePasskeyCounter`. -/
def acceptedLogin (w : WebAuthn D C A) (db : PasskeyDB) (fails : PasskeyFailures)
    (challengeID : String) (response : Bytes) (now : Int) : Option (PasskeyUser × Credential) :=
  match loadChallenge w db fails challengeID "authentication" "" now with
  | .error _ => none
  | .ok session =>
    match passkeyLogin w db fails response session with
    | .error _ => none
    | .ok r => if fails .updatePasskeyCounter then none else some r

/-- An assertion that is accepted carries the sign count in the stored credential. -/
def KeepsCount (w : WebAuthn D C A) (db : PasskeyDB) : PasskeyCall D → Prop
  | .finishAuthentication fails challengeID response now =>
    ∀ r ∈ acceptedLogin w db fails challengeID response now,
      ∀ assertion ∈ w.parseAssertion response, ∀ c ∈ userCredentials w db r.1.id,
        c.id = r.2.id → c.signCount = w.signCount assertion
  | _ => True

instance (w : WebAuthn D C A) (db : PasskeyDB) :
    ∀ call : PasskeyCall D, Decidable (KeepsCount w db call)
  | .finishAuthentication fails challengeID response now =>
    inferInstanceAs (Decidable (∀ r ∈ acceptedLogin w db fails challengeID response now,
      ∀ assertion ∈ w.parseAssertion response, ∀ c ∈ userCredentials w db r.1.id,
        c.id = r.2.id → c.signCount = w.signCount assertion))
  | .beginRegistration .. => .isTrue trivial
  | .beginAuthentication .. => .isTrue trivial
  | .finishRegistration .. => .isTrue trivial
  | .deletePasskey .. => .isTrue trivial
  | .deleteExpiredChallenges .. => .isTrue trivial

/-- Every stored credential is that of its row. -/
def Coded (w : WebAuthn D C A) (db : PasskeyDB) : Prop :=
  ∀ row ∈ db.passkeys.rows, ∃ c, w.unmarshalCredential row.publicKey = some c ∧
    c.id = row.credentialID

variable {w : WebAuthn D C A} {db : PasskeyDB} {fails : PasskeyFailures}

/-- The credentials of a user are those in the user's rows. -/
theorem mem_userCredentials {userID : String} {c : Credential} :
    c ∈ userCredentials w db userID ↔ ∃ row ∈ db.passkeys.rows, row.userID = userID ∧
      w.unmarshalCredential row.publicKey = some c := by
  simp [userCredentials, List.mem_filterMap, and_assoc]

/-- The user that is handed to the validator has the stored credentials. -/
theorem userFor_eq_some {userID : String} {user : PasskeyUser}
    (h : userFor w db fails userID = some user) :
    user.id = userID ∧ user.creds = userCredentials w db userID := by
  unfold userFor at h
  split at h
  · contradiction
  · split at h
    · contradiction
    · split at h
      · contradiction
      · obtain rfl := Option.some.inj h
        exact ⟨rfl, rfl⟩

/-- A registered row holds its credential and its count. -/
theorem registrationRow_eq_ok
    (hcodec : ∀ c raw, w.marshalCredential c = some raw → w.unmarshalCredential raw = some c)
    {userID id : String} {response : Bytes} {session : D} {now : Int} {row : PasskeyRow}
    (h : registrationRow w db fails userID response session id now = .ok row) :
    ∃ c, w.unmarshalCredential row.publicKey = some c ∧ c.id = row.credentialID ∧
      (c.signCount.toNat : Int) = row.counter := by
  unfold registrationRow at h
  split at h
  · contradiction
  · split at h
    · contradiction
    · split at h
      · contradiction
      · next cred _ =>
        split at h
        · contradiction
        · next raw hraw =>
          obtain rfl := Except.ok.inj h
          exact ⟨cred, hcodec cred raw hraw, rfl, rfl⟩

/-- A finished registration adds its row to the passkeys, or nothing. -/
theorem finishRegistration_passkeys (w : WebAuthn D C A) (db : PasskeyDB)
    (fails : PasskeyFailures) (userID challengeID : String) (response : Bytes) (id : String)
    (now now' : Int) :
    (finishRegistration w db fails userID challengeID response id now now').2.passkeys =
        db.passkeys ∨
      ∃ session row, registrationRow w db fails userID response session id now' = .ok row ∧
        ∀ a, a ∈ (finishRegistration w db fails userID challengeID response id now
          now').2.passkeys.rows ↔ a = row ∨ a ∈ db.passkeys.rows := by
  unfold finishRegistration
  split
  · exact .inl rfl
  · next session _ =>
    split
    · exact .inl (deleteChallenge_passkeys _ _ _)
    · next row hrow =>
      split
      · exact .inl (deleteChallenge_passkeys _ _ _)
      · next db' hinsert =>
        rw [deleteChallenge_passkeys]
        exact .inr ⟨session, row, hrow, (insertPasskey_eq_some hinsert).2⟩

/-- A login sets the `counter` of the passkey of an accepted assertion. -/
theorem finishAuthentication_passkeys (w : WebAuthn D C A) (db : PasskeyDB)
    (fails : PasskeyFailures) (challengeID : String) (response : Bytes) (now : Int)
    (a : PasskeyRow) :
    a ∈ (finishAuthentication w db fails challengeID response now).2.passkeys.rows ↔
      match acceptedLogin w db fails challengeID response now with
      | none => a ∈ db.passkeys.rows
      | some (user, cred) => ∃ row ∈ db.passkeys.rows,
        (if row.userID = user.id ∧ row.credentialID = cred.id then
          { row with counter := cred.signCount.toNat } else row) = a := by
  unfold finishAuthentication acceptedLogin
  cases loadChallenge w db fails challengeID "authentication" "" now with
  | error e => rfl
  | ok session =>
    dsimp only
    cases passkeyLogin w db fails response session with
    | error e => rw [deleteChallenge_passkeys]
    | ok r =>
      obtain ⟨user, cred⟩ := r
      dsimp only
      cases hupdate : updatePasskeyCounter db fails cred.signCount.toNat user.id cred.id with
      | none =>
        have hfails : fails .updatePasskeyCounter = true := by
          by_contra hf
          simp [updatePasskeyCounter, hf] at hupdate
        rw [if_pos hfails, deleteChallenge_passkeys]
      | some db' =>
        have hfails : ¬ fails .updatePasskeyCounter = true := fun hf ↦ by
          simp [updatePasskeyCounter, hf] at hupdate
        rw [if_neg hfails, deleteChallenge_passkeys]
        exact (updatePasskeyCounter_eq_some hupdate).2 a

/-- The call is `FinishRegistration` or `FinishAuthentication`. -/
def PasskeyCall.Finishes : PasskeyCall D → Prop
  | .finishRegistration _ _ _ _ _ _ _ => True
  | .finishAuthentication _ _ _ _ => True
  | _ => False

/-- Only the finishing calls add or change a passkey. -/
theorem mem_of_mem_run {call : PasskeyCall D} {a : PasskeyRow}
    (ha : a ∈ (runPasskeyCall w db call).passkeys.rows) (hcall : ¬ call.Finishes) :
    a ∈ db.passkeys.rows := by
  cases call with
  | beginRegistration fails userID session id now now' =>
    rwa [runPasskeyCall, (beginRegistration_getD _ _ _ _ _ _ _ _).1] at ha
  | beginAuthentication fails session id now now' =>
    rwa [runPasskeyCall, (beginAuthentication_getD _ _ _ _ _ _ _).1] at ha
  | finishRegistration fails userID challengeID response id now now' =>
    exact absurd trivial hcall
  | finishAuthentication fails challengeID response now => exact absurd trivial hcall
  | deletePasskey userID id => exact ((Table.mem_delete _ _ a).mp ha).1
  | deleteExpiredChallenges now => exact ha

/-- What the library is relied on for: `json.Unmarshal` reads back what `json.Marshal` wrote of a
credential. -/
def CodecSound (w : WebAuthn D C A) : Prop :=
  ∀ c raw, w.marshalCredential c = some raw → w.unmarshalCredential raw = some c

/-- `ValidatePasskeyLogin` returns the user that the handler answers for the assertion, and one of
the user's credentials with its sign count updated to the assertion's. -/
def LoginSound (w : WebAuthn D C A) : Prop :=
  ∀ handler session assertion user cred,
    w.validatePasskeyLogin handler session assertion = some (user, cred) →
      handler (w.rawID assertion) (w.userHandle assertion) = some user ∧
        ∃ c ∈ user.creds, cred = { c with signCount := w.signCount assertion }

/-- An accepted login is of a stored credential of the user, with the assertion's sign count. -/
theorem acceptedLogin_eq_some (hlib : LoginSound w) {challengeID : String} {response : Bytes}
    {now : Int} {user : PasskeyUser} {cred : Credential}
    (h : acceptedLogin w db fails challengeID response now = some (user, cred)) :
    ∃ assertion, w.parseAssertion response = some assertion ∧
      ∃ c ∈ userCredentials w db user.id,
        cred = { c with signCount := w.signCount assertion } := by
  unfold acceptedLogin passkeyLogin at h
  cases hsession : loadChallenge w db fails challengeID "authentication" "" now with
  | error e =>
    rw [hsession] at h
    contradiction
  | ok session =>
    rw [hsession] at h
    dsimp only at h
    cases hparse : w.parseAssertion response with
    | none =>
      rw [hparse] at h
      contradiction
    | some assertion =>
      rw [hparse] at h
      dsimp only at h
      cases hvalid : w.validatePasskeyLogin (fun _ uid ↦ userFor w db fails uid) session
          assertion with
      | none =>
        rw [hvalid] at h
        contradiction
      | some r =>
        rw [hvalid] at h
        obtain ⟨-, heq⟩ := Option.ite_none_left_eq_some.mp h
        obtain rfl := Option.some.inj heq
        obtain ⟨huser, c, hc, hcred⟩ := hlib _ _ _ _ _ hvalid
        obtain ⟨hid, hcreds⟩ := userFor_eq_some huser
        rw [hcreds, ← hid] at hc
        exact ⟨assertion, rfl, c, hc, hcred⟩

/-- Every call keeps the credentials those of their rows. -/
theorem Coded.run (hcodec : CodecSound w) (h : Coded w db) (call : PasskeyCall D) :
    Coded w (runPasskeyCall w db call) := by
  intro row hrow
  cases call with
  | finishRegistration fails userID challengeID response id now now' =>
    rcases finishRegistration_passkeys w db fails userID challengeID response id now now' with
      heq | ⟨session, new, hnew, hrows⟩
    · exact h row (heq ▸ hrow)
    · rcases (hrows row).mp hrow with rfl | hrow
      · obtain ⟨c, hc, hid, -⟩ := registrationRow_eq_ok hcodec hnew
        exact ⟨c, hc, hid⟩
      · exact h row hrow
  | finishAuthentication fails challengeID response now =>
    have hrows := (finishAuthentication_passkeys w db fails challengeID response now row).mp hrow
    split at hrows
    · exact h row hrows
    · obtain ⟨r, hr, rfl⟩ := hrows
      split <;> exact h r hr
  | _ => exact h row (mem_of_mem_run hrow not_false)

private theorem passkeyClash_symm (a b : PasskeyRow) : a.clash b = b.clash a := by
  rw [Bool.eq_iff_iff, PasskeyRow.clash_iff, PasskeyRow.clash_iff]
  exact or_congr eq_comm eq_comm

/-- Credentials of one id are one credential. -/
theorem Coded.eq_of_id (h : Coded w db) {userID userID' : String} {c c' : Credential}
    (hc : c ∈ userCredentials w db userID) (hc' : c' ∈ userCredentials w db userID')
    (hid : c.id = c'.id) : c = c' := by
  obtain ⟨row, hrow, -, hraw⟩ := mem_userCredentials.mp hc
  obtain ⟨row', hrow', -, hraw'⟩ := mem_userCredentials.mp hc'
  obtain ⟨c₀, hraw₀, hid₀⟩ := h row hrow
  obtain ⟨c₁, hraw₁, hid₁⟩ := h row' hrow'
  obtain rfl := Option.some.inj (hraw.symm.trans hraw₀)
  obtain rfl := Option.some.inj (hraw'.symm.trans hraw₁)
  obtain rfl : row = row' := db.passkeys.eq_of_clash passkeyClash_symm hrow hrow'
    (PasskeyRow.clash_iff.mpr (.inr (by rw [← hid₀, ← hid₁, hid])))
  exact Option.some.inj (hraw.symm.trans hraw')

/-- A login keeps the counters in step exactly when its assertion carries the stored count. -/
theorem inStep_login_iff (hlib : LoginSound w) (hcoded : Coded w db) (h : InStep w db)
    (fails : PasskeyFailures) (challengeID : String) (response : Bytes) (now : Int) :
    InStep w (finishAuthentication w db fails challengeID response now).2 ↔
      KeepsCount w db (.finishAuthentication fails challengeID response now : PasskeyCall D) := by
  have hrows := finishAuthentication_passkeys w db fails challengeID response now
  cases haccepted : acceptedLogin w db fails challengeID response now with
  | none =>
    simp only [haccepted] at hrows
    refine iff_of_true (fun row hrow ↦ h row ((hrows row).mp hrow)) ?_
    rintro r heq
    rw [haccepted] at heq
    contradiction
  | some r =>
    obtain ⟨user, cred⟩ := r
    simp only [haccepted] at hrows
    obtain ⟨assertion, hparse, c, hc, rfl⟩ := acceptedLogin_eq_some hlib haccepted
    constructor
    · rintro hstep r heq assertion' hparse' c' hc' hid
      obtain rfl := Option.some.inj (haccepted.symm.trans heq)
      obtain rfl := Option.some.inj (hparse.symm.trans hparse')
      obtain rfl := hcoded.eq_of_id hc' hc hid
      obtain ⟨row, hrow, huser, hraw⟩ := mem_userCredentials.mp hc
      obtain ⟨c₀, hraw₀, hid₀⟩ := hcoded row hrow
      obtain rfl := Option.some.inj (hraw.symm.trans hraw₀)
      have hcount := hstep _ ((hrows _).mpr ⟨row, hrow, if_pos ⟨huser, hid₀.symm⟩⟩) c' hraw
      exact UInt32.toNat_inj.mp (Int.ofNat_inj.mp hcount)
    · intro hkeeps row hrow c' hraw
      obtain ⟨r, hr, rfl⟩ := (hrows row).mp hrow
      by_cases hmatch : r.userID = user.id ∧ r.credentialID = c.id
      · rw [if_pos hmatch] at hraw ⊢
        obtain ⟨c₀, hraw₀, hid₀⟩ := hcoded r hr
        obtain rfl := Option.some.inj (hraw.symm.trans hraw₀)
        have hmem := mem_userCredentials.mpr ⟨r, hr, hmatch.1, hraw⟩
        rw [hkeeps _ haccepted assertion hparse c' hmem (hid₀.trans hmatch.2)]
      · rw [if_neg hmatch] at hraw ⊢
        exact h r hr c' hraw

/-- A call keeps the counters in step exactly when it is no login with another count. -/
theorem inStep_run_iff (hcodec : CodecSound w) (hlib : LoginSound w) (hcoded : Coded w db)
    (h : InStep w db) (call : PasskeyCall D) :
    InStep w (runPasskeyCall w db call) ↔ KeepsCount w db call := by
  cases call with
  | finishRegistration fails userID challengeID response id now now' =>
    refine iff_of_true (fun row hrow c hc ↦ ?_) trivial
    rcases finishRegistration_passkeys w db fails userID challengeID response id now now' with
      heq | ⟨session, new, hnew, hrows⟩
    · exact h row (heq ▸ hrow) c hc
    · rcases (hrows row).mp hrow with rfl | hrow
      · obtain ⟨c', hc', -, hcount⟩ := registrationRow_eq_ok hcodec hnew
        obtain rfl := Option.some.inj (hc.symm.trans hc')
        exact hcount
      · exact h row hrow c hc
  | finishAuthentication fails challengeID response now =>
    exact inStep_login_iff hlib hcoded h fails challengeID response now
  | _ => exact iff_of_true (fun row hrow ↦ h row (mem_of_mem_run hrow not_false)) trivial

/-- In every run from a store without passkeys, the counters are in step in every state reached
exactly when every accepted assertion carries the sign count that is stored in the credential. -/
theorem runMeets_inStep_iff (w : WebAuthn D C A) (hcodec : CodecSound w) (hlib : LoginSound w)
    (users : Table UserRow UserRow.clash) (challenges : Table ChallengeRow ChallengeRow.clash)
    (calls : List (PasskeyCall D)) :
    RunMeets (passkeyStep w) (fun db call ↦ InStep w (runPasskeyCall w db call))
        ⟨users, Table.empty, challenges⟩ calls ↔
      RunMeets (passkeyStep w) (KeepsCount w) ⟨users, Table.empty, challenges⟩ calls := by
  have hrun (db : PasskeyDB) : ∃ t, runSteps (passkeyStep w) db calls = some t := by
    induction calls generalizing db with
    | nil => exact ⟨db, rfl⟩
    | cons call calls ih =>
      obtain ⟨t, ht⟩ := ih (runPasskeyCall w db call)
      exact ⟨t, runSteps_cons_eq_some.mpr ⟨_, rfl, ht⟩⟩
  obtain ⟨t, ht⟩ := hrun ⟨users, Table.empty, challenges⟩
  refine RunMeets.congr (I := fun db ↦ Coded w db ∧ InStep w db) (fun call _ db db' hdb hstep ↦ ?_)
    ⟨fun row hrow ↦ absurd hrow List.not_mem_nil, fun row hrow ↦ absurd hrow List.not_mem_nil⟩ ht
  obtain rfl := Option.some.inj hstep
  exact ⟨inStep_run_iff hcodec hlib hdb.1 hdb.2 call, fun h ↦ ⟨hdb.1.run hcodec call, h⟩⟩

/-- A credential as it is registered. -/
def demoCredential : Credential := ⟨[1], 0, List.replicate 16 0, ["internal"], [4, 2]⟩

/-- What is stored of `demoCredential`. -/
def demoCredentialJSON : Bytes :=
  utf8Encode ("\x7b\"id\":\"AQ==\",\"publicKey\":\"BAI=\",\"transport\":[\"internal\"],".toList ++
    "\"authenticator\":\x7b\"AAGUID\":\"AAAAAAAAAAAAAAAAAAAAAA==\",\"signCount\":0\x7d\x7d".toList)

/-- One authenticator, of the user `u1`, that holds `demoCredential`. A session is its own JSON, and
a response is the sign count that it carries. -/
def demoWebAuthn : WebAuthn Bytes Credential UInt32 where
  marshalSession := some
  unmarshalSession := some
  marshalCredential c := if c = demoCredential then some demoCredentialJSON else none
  unmarshalCredential raw := if raw = demoCredentialJSON then some demoCredential else none
  marshalTransport _ := "[\"internal\"]"
  parseCreation response := if response = [0] then some demoCredential else none
  createCredential _ _ c := some c
  parseAssertion response := response.head?.map UInt8.toUInt32
  rawID _ := demoCredential.id
  userHandle _ := "u1"
  signCount n := n
  validatePasskeyLogin handler _ n :=
    match handler demoCredential.id "u1" with
    | none => none
    | some user =>
      (user.creds.find? (·.id == demoCredential.id)).map fun c ↦ (user, { c with signCount := n })

/-- The codec of `demoWebAuthn` reads back what it wrote. -/
theorem demoWebAuthn_codecSound : CodecSound demoWebAuthn := by
  intro c raw h
  obtain ⟨rfl, hraw⟩ := Option.ite_none_right_eq_some.mp h
  exact if_pos (Option.some.inj hraw).symm

/-- `demoWebAuthn` returns the matched credential with the assertion's count. -/
theorem demoWebAuthn_loginSound : LoginSound demoWebAuthn := by
  intro handler session n user cred h
  change (match handler demoCredential.id "u1" with
    | none => none
    | some user => (user.creds.find? (·.id == demoCredential.id)).map fun c ↦
      (user, { c with signCount := n })) = some (user, cred) at h
  split at h
  · contradiction
  · next user' huser =>
    obtain ⟨c, hc, heq⟩ := Option.map_eq_some_iff.mp h
    obtain ⟨rfl, rfl⟩ := Prod.mk.inj heq
    exact ⟨huser, c, List.mem_of_find?_eq_some hc, rfl⟩

/-- A registration, then a login whose assertion carries `count`. -/
def demoPasskeyCalls (count : UInt8) : List (PasskeyCall Bytes) :=
  [.beginRegistration (fun _ ↦ false) "u1" (some [1]) "c1" 0 0,
    .finishRegistration (fun _ ↦ false) "u1" "c1" [0] "p1" 0 0,
    .beginAuthentication (fun _ ↦ false) (some [2]) "c2" 0 0,
    .finishAuthentication (fun _ ↦ false) "c2" [count] 0]

/-- The login of an authenticator that does not count keeps the counters in step. -/
theorem runMeets_inStep_iff_demo :
    RunMeets (passkeyStep demoWebAuthn) (fun db call ↦ InStep demoWebAuthn
      (runPasskeyCall demoWebAuthn db call)) ⟨demoUsers, Table.empty, Table.empty⟩
      (demoPasskeyCalls 0) := by
  exact (runMeets_inStep_iff demoWebAuthn demoWebAuthn_codecSound demoWebAuthn_loginSound
    demoUsers Table.empty (demoPasskeyCalls 0)).mpr (by decide +kernel)

/-- The first login of an authenticator that counts leaves the stored credential at zero. -/
theorem not_inStep_after_login :
    ¬ RunMeets (passkeyStep demoWebAuthn) (fun db call ↦ InStep demoWebAuthn
      (runPasskeyCall demoWebAuthn db call)) ⟨demoUsers, Table.empty, Table.empty⟩
      (demoPasskeyCalls 1) := by
  decide +kernel

end Dockstack.Auth
