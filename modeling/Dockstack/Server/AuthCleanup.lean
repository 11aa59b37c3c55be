import Dockstack.Auth.ChallengeBinding
import Dockstack.Base.Expiry
import Dockstack.Base.Stutter
import Dockstack.Server.ResetPassword

/-!
# Cleaning up expired rows

The cron job of `internal/server/cron.go:14–28` deletes expired challenges and expired reset tokens
at any moment. What it deletes has `expires_at < now`; what a later lookup returns has
`expires_at > now` (`webauthn_challenges.sql:5–13`, `reset_tokens.sql:5–12`). So runs that differ
in their cleanups only agree on all rows that have not expired, and answer every lookup alike.
-/

namespace Dockstack.Server

open Dockstack.Base Dockstack.Auth

variable {D C A : Type}

/-- A step of the challenges or of the reset tokens. -/
inductive ServiceStep (D : Type) where
  | challenge (l : ChallengeStep D)
  | reset (l : ResetStep)

/-- Both sets of tables with the requests on them, and the ids of the reset tokens so far. -/
structure ServiceState (D : Type) where
  challenges : ChallengeState D
  resets : ResetState
  tokenIDs : List String

/-- Any users, passkeys and passwords, no challenges, no tokens and no requests. -/
def ServiceState.init (users : Table UserRow UserRow.clash)
    (passkeys : Table PasskeyRow PasskeyRow.clash)
    (credentials : Table CredentialRow CredentialRow.clash) : ServiceState D :=
  ⟨.init users passkeys, .init users credentials, []⟩

/-- The id of the token that a step inserts. -/
def ResetStep.tokenID : ResetStep → Option String
  | .issue _ _ _ id _ _ => some id
  | _ => none

/-- The clock readings of a step, in the order in which they are taken. -/
def ResetStep.readings : ResetStep → List Int
  | .issue _ _ _ _ now now' => [now, now']
  | .request _ => []
  | .advance _ _ _ now => [now]
  | .deleteExpired now => [now]

namespace ServiceStep

/-- The clock readings of a step. -/
def readings : ServiceStep D → List Int
  | .challenge l => l.readings
  | .reset l => l.readings

/-- `DeleteExpiredChallenges` or `DeleteExpiredResetTokens`. -/
def isCleanup : ServiceStep D → Bool
  | .challenge (.deleteExpiredChallenges _) => true
  | .reset (.deleteExpired _) => true
  | _ => false

end ServiceStep

/-- One step. The ids of reset tokens are random UUIDs, and none is given out twice. -/
def serviceStep (w : WebAuthn D C A) (st : Store) (s : ServiceState D) :
    ServiceStep D → Option (ServiceState D)
  | .challenge l => (challengeStep w s.challenges l).map fun challenges ↦
      { s with challenges := challenges }
  | .reset l =>
    if l.tokenID.any (· ∈ s.tokenIDs) then none
    else (resetStep st s.resets l).map fun resets ↦
      { s with resets := resets, tokenIDs := l.tokenID.toList ++ s.tokenIDs }

/-! ## Challenges -/

/-- The tables are the same but for challenges that expire before `c`. -/
structure PasskeyDB.AgreeFrom (c : Int) (db db' : PasskeyDB) : Prop where
  users : db.users = db'.users
  passkeys : db.passkeys = db'.passkeys
  challenges : Base.AgreeFrom ChallengeRow.expiresAt (unixMilli c) db.challenges.rows
    db'.challenges.rows

namespace PasskeyDB.AgreeFrom

variable {w : WebAuthn D C A} {c now now' : Int} {db db' : PasskeyDB} {fails : PasskeyFailures}

/-- A challenge that has not expired is loaded from both or from neither. -/
theorem loadChallenge_eq (h : AgreeFrom c db db') (hc : c ≤ now) (id kind userID : String) :
    loadChallenge w db fails id kind userID now = loadChallenge w db' fails id kind userID now := by
  have hfind := h.challenges.find?_eq
    (p := fun r ↦ r.id == id && r.kind == kind && unixMilli now < r.expiresAt) (by
      intro r hr
      rw [Bool.and_eq_true, decide_eq_true_iff] at hr
      exact (unixMilli_mono hc).trans hr.2.le)
  rw [loadChallenge, loadChallenge, hfind]

/-- The user of a ceremony does not depend on the challenges. -/
theorem userFor_eq (h : AgreeFrom c db db') (userID : String) :
    userFor w db fails userID = userFor w db' fails userID := by
  unfold userFor userCredentials
  rw [h.users, h.passkeys]

/-- Nor does the validation of a response. -/
theorem validate_eq (h : AgreeFrom c db db') (call : FinishCall) (session : D) (id : String) :
    call.validate w db fails session id now = call.validate w db' fails session id now := by
  unfold FinishCall.validate registrationRow passkeyLogin
  simp only [h.userFor_eq]

/-- A challenge with a new id is saved in both or in neither. -/
theorem saveChallenge_rel (h : AgreeFrom c db db') {id : String}
    (hid : ∀ r ∈ db.challenges.rows, r.id ≠ id) (hid' : ∀ r ∈ db'.challenges.rows, r.id ≠ id)
    (userID kind : String) (session : D) :
    Option.Rel (AgreeFrom c) (saveChallenge w db fails userID kind session id now now')
      (saveChallenge w db' fails userID kind session id now now') := by
  unfold saveChallenge
  cases w.marshalSession session with
  | none => exact .none
  | some raw =>
    dsimp only
    generalize (if userID ≠ "" then some userID else none) = uid
    rw [h.users]
    split
    · exact .none
    · have hclash (t : Table ChallengeRow ChallengeRow.clash) (ht : ∀ a ∈ t.rows, a.id ≠ id) :
          ∀ a ∈ t.rows, ChallengeRow.clash
            ⟨id, raw, uid, kind, unixMilli (now' + 5 * minute), unixMilli now⟩ a = false := by
        intro a ha
        rw [ChallengeRow.clash, beq_eq_false_iff_ne]
        exact (ht a ha).symm
      obtain ⟨u, u', hu, hu', hagree⟩ :=
        Table.agreeFrom_insert h.challenges (hclash _ hid) (hclash _ hid')
      rw [hu, hu']
      exact .some ⟨rfl, h.passkeys, hagree⟩

/-- So is the challenge of a ceremony. -/
theorem begin_getD (h : AgreeFrom c db db') (kind : FinishKind) {id : String}
    (hid : ∀ r ∈ db.challenges.rows, r.id ≠ id) (hid' : ∀ r ∈ db'.challenges.rows, r.id ≠ id)
    (session : Option D) :
    AgreeFrom c ((kind.begin w db fails session id now now').getD db)
      ((kind.begin w db' fails session id now now').getD db') := by
  have hrel : Option.Rel (AgreeFrom c) (kind.begin w db fails session id now now')
      (kind.begin w db' fails session id now now') := by
    cases kind with
    | registration userID =>
      simp only [FinishKind.begin, beginRegistration, h.userFor_eq userID]
      split
      · exact h.saveChallenge_rel hid hid' _ _ _
      · exact .none
    | authentication =>
      cases session with
      | none => exact .none
      | some session => exact h.saveChallenge_rel hid hid' _ _ _
  generalize kind.begin w db fails session id now now' = o,
    kind.begin w db' fails session id now now' = o' at hrel
  cases hrel with
  | none => exact h
  | some hdb => exact hdb

/-- A write does the same to both. -/
theorem apply_rel (h : AgreeFrom c db db') (fails : PasskeyFailures) (write : PasskeyWrite) :
    Option.Rel (fun r r' ↦ r.1 = r'.1 ∧ AgreeFrom c r.2 r'.2) (write.apply db fails)
      (write.apply db' fails) := by
  cases write with
  | insert row =>
    rw [PasskeyWrite.apply, PasskeyWrite.apply, insertPasskey, insertPasskey, h.users, h.passkeys]
    split
    · exact .none
    · cases db'.passkeys.insert row with
      | none => exact .none
      | some passkeys => exact .some ⟨rfl, ⟨rfl, rfl, h.challenges⟩⟩
  | update user cred =>
    rw [PasskeyWrite.apply, PasskeyWrite.apply, updatePasskeyCounter, updatePasskeyCounter,
      h.passkeys]
    split
    · exact .none
    · exact .some ⟨rfl, ⟨h.users, rfl, h.challenges⟩⟩

/-- A deletion takes the same challenge from both. -/
theorem deleteChallenge (h : AgreeFrom c db db') (id : String) :
    AgreeFrom c (deleteChallenge db fails id) (deleteChallenge db' fails id) := by
  unfold Auth.deleteChallenge
  split
  · exact h
  · exact ⟨h.users, h.passkeys, h.challenges.filter _⟩

/-- A finishing call takes the same step on both. -/
theorem advance (h : AgreeFrom c db db') (hc : c ≤ now) (fails : PasskeyFailures)
    (call : FinishCall) (id : String) (phase : FinishPhase D) :
    (call.advance w db fails id now phase).2 = (call.advance w db' fails id now phase).2 ∧
      AgreeFrom c (call.advance w db fails id now phase).1
        (call.advance w db' fails id now phase).1 := by
  cases phase with
  | loading =>
    have hload : call.load w db fails now = call.load w db' fails now := by
      unfold FinishCall.load
      simp only [h.loadChallenge_eq hc]
    rw [FinishCall.advance, FinishCall.advance, hload]
    split
    · exact ⟨rfl, h⟩
    · exact ⟨rfl, h⟩
  | validating session =>
    rw [FinishCall.advance, FinishCall.advance, h.validate_eq call session id]
    split
    · exact ⟨rfl, h⟩
    · exact ⟨rfl, h⟩
  | writing write =>
    have hrel := h.apply_rel fails write
    rw [FinishCall.advance, FinishCall.advance]
    generalize write.apply db fails = o, write.apply db' fails = o' at hrel
    cases hrel with
    | none => exact ⟨rfl, h⟩
    | some hr => exact ⟨congrArg (fun result ↦ FinishPhase.deleting (.ok result)) hr.1, hr.2⟩
  | deleting result => exact ⟨rfl, h.deleteChallenge call.challengeID⟩
  | returned result => exact ⟨rfl, h⟩

end PasskeyDB.AgreeFrom

/-- The same calls at the same places, on tables that agree; what is stored was issued. -/
structure ChallengesAgree (c : Int) (s s' : ChallengeState D) : Prop where
  db : PasskeyDB.AgreeFrom c s.db s'.db
  issued : s.issued = s'.issued
  calls : s.calls = s'.calls
  known : ∀ r ∈ s.db.challenges.rows, r.id ∈ s.issued
  known' : ∀ r ∈ s'.db.challenges.rows, r.id ∈ s'.issued

namespace ChallengesAgree

variable {w : WebAuthn D C A} {c : Int} {s s' : ChallengeState D}

/-- What agrees from an instant on agrees later. -/
theorem later {c' : Int} (h : ChallengesAgree c s s') (hle : c ≤ c') : ChallengesAgree c' s s' :=
  { h with db := ⟨h.db.users, h.db.passkeys, h.db.challenges.later (unixMilli_mono hle)⟩ }

private theorem mem_advance_challenges {call : FinishCall} {db : PasskeyDB}
    {fails : PasskeyFailures} {id : String} {now : Int} {phase : FinishPhase D}
    {r : ChallengeRow} (hr : r ∈ (call.advance w db fails id now phase).1.challenges.rows) :
    r ∈ db.challenges.rows := by
  cases phase with
  | loading =>
    rw [FinishCall.advance] at hr
    split at hr
    · exact hr
    · exact hr
  | validating session =>
    rw [FinishCall.advance] at hr
    split at hr
    · exact hr
    · exact hr
  | writing write =>
    rw [FinishCall.advance] at hr
    split at hr
    · exact hr
    · next happly => exact apply_challenges happly ▸ hr
  | deleting result => exact (mem_deleteChallenge hr).1
  | returned result => exact hr

/-- A step whose readings are not before `c` is taken in both states or in neither. -/
theorem step (h : ChallengesAgree c s s') {l : ChallengeStep D} (hc : ∀ r ∈ l.readings, c ≤ r) :
    Option.Rel (ChallengesAgree c) (challengeStep w s l) (challengeStep w s' l) := by
  cases l with
  | beginCeremony kind fails session id now now' =>
    simp only [challengeStep, h.issued]
    split
    · exact .none
    · next hfresh =>
      have hid (r : ChallengeRow) (hr : r ∈ s.db.challenges.rows) : r.id ≠ id := fun heq ↦
        hfresh (h.issued ▸ heq ▸ h.known r hr)
      have hid' (r : ChallengeRow) (hr : r ∈ s'.db.challenges.rows) : r.id ≠ id := fun heq ↦
        hfresh (heq ▸ h.known' r hr)
      refine .some ⟨h.db.begin_getD kind hid hid' session, rfl, h.calls, ?_, ?_⟩
      · intro r hr
        rcases mem_begin_challenges hr with rfl | hr
        · exact List.mem_cons_self
        · exact List.mem_cons_of_mem id (h.issued ▸ h.known r hr)
      · intro r hr
        rcases mem_begin_challenges hr with rfl | hr
        · exact List.mem_cons_self
        · exact List.mem_cons_of_mem id (h.known' r hr)
  | call call => exact .some { h with calls := congrArg (· ++ [(call, .loading)]) h.calls }
  | advance n fails id now =>
    simp only [challengeStep, h.calls]
    split
    · exact .none
    · next call phase _ =>
      obtain ⟨hphase, hdb⟩ :=
        h.db.advance (w := w) (hc now List.mem_cons_self) fails call id phase
      refine .some ⟨hdb, h.issued, ?_, fun r hr ↦ h.known r (mem_advance_challenges hr),
        fun r hr ↦ h.known' r (mem_advance_challenges hr)⟩
      rw [hphase]
  | deletePasskey userID id =>
    refine .some { h with db := ⟨h.db.users, ?_, h.db.challenges⟩ }
    simp only [deletePasskey, h.db.passkeys]
  | deleteExpiredChallenges now =>
    refine .some ⟨⟨h.db.users, h.db.passkeys, h.db.challenges.filter _⟩, h.issued, h.calls, ?_, ?_⟩
    · exact fun r hr ↦ h.known r ((Table.mem_delete _ _ r).mp hr).1
    · exact fun r hr ↦ h.known' r ((Table.mem_delete _ _ r).mp hr).1

/-- A cleanup at a reading not after `c` makes no difference. -/
theorem cleanup (h : ChallengesAgree c s s') {now : Int} (hnow : now ≤ c) :
    ChallengesAgree c { s with db := deleteExpiredChallenges s.db now } s' := by
  refine ⟨⟨h.db.users, h.db.passkeys, h.db.challenges.filter_left fun r hr ↦ ?_⟩, h.issued,
    h.calls, fun r hr ↦ h.known r ((Table.mem_delete _ _ r).mp hr).1, h.known'⟩
  have hlive := (unixMilli_mono hnow).trans hr
  simpa using hlive

/-- Before any ceremony the states are the same. -/
theorem init (users : Table UserRow UserRow.clash) (passkeys : Table PasskeyRow PasskeyRow.clash) :
    ChallengesAgree c (ChallengeState.init users passkeys : ChallengeState D)
      (.init users passkeys) :=
  ⟨⟨rfl, rfl, rfl⟩, rfl, rfl, fun _ hr ↦ absurd hr List.not_mem_nil,
    fun _ hr ↦ absurd hr List.not_mem_nil⟩

end ChallengesAgree

/-! ## Reset tokens -/

/-- The tables are the same but for tokens that expire before `c`. -/
structure ResetDB.AgreeFrom (c : Int) (db db' : ResetDB) : Prop where
  users : db.users = db'.users
  credentials : db.credentials = db'.credentials
  tokens : Base.AgreeFrom ResetTokenRow.expiresAt (unixMilli c) db.tokens.rows db'.tokens.rows

namespace ResetDB.AgreeFrom

variable {c now now' : Int} {db db' : ResetDB} {fails : ResetFailures} {userID : String}

/-- A token that has not expired is found in both or in neither. -/
theorem activeResetTokenUser_eq (h : AgreeFrom c db db') (hc : c ≤ now) (tokenHash : Bytes) :
    activeResetTokenUser db fails tokenHash now = activeResetTokenUser db' fails tokenHash now := by
  have hfind := h.tokens.find?_eq
    (p := fun r ↦ r.tokenHash == tokenHash && unixMilli now < r.expiresAt) (by
      intro r hr
      rw [Bool.and_eq_true, decide_eq_true_iff] at hr
      exact (unixMilli_mono hc).trans hr.2.le)
  rw [activeResetTokenUser, activeResetTokenUser, hfind]

/-- A token with a new id and a new hash is issued in both or in neither. -/
theorem createResetToken_getD (h : AgreeFrom c db db') {tokenHash : Bytes} {id : String}
    (hnew : ∀ r ∈ db.tokens.rows, r.id ≠ id ∧ r.tokenHash ≠ tokenHash)
    (hnew' : ∀ r ∈ db'.tokens.rows, r.id ≠ id ∧ r.tokenHash ≠ tokenHash) (expiresAt : Int) :
    AgreeFrom c ((createResetToken db fails userID tokenHash expiresAt id now).getD db)
      ((createResetToken db' fails userID tokenHash expiresAt id now).getD db') := by
  unfold createResetToken
  dsimp only
  rw [h.users]
  split
  · exact h
  · have hclash (t : Table ResetTokenRow ResetTokenRow.clash)
        (ht : ∀ a ∈ t.rows, a.id ≠ id ∧ a.tokenHash ≠ tokenHash) : ∀ a ∈ t.rows,
        ResetTokenRow.clash ⟨id, userID, tokenHash, expiresAt, unixMilli now⟩ a = false := by
      intro a ha
      rw [Bool.eq_false_iff, ne_eq, ResetTokenRow.clash_iff, not_or]
      exact ⟨(ht a ha).1.symm, (ht a ha).2.symm⟩
    obtain ⟨u, u', hu, hu', hagree⟩ :=
      Table.agreeFrom_insert h.tokens (hclash _ hnew) (hclash _ hnew')
    rw [hu, hu']
    exact ⟨rfl, h.credentials, hagree⟩

/-- A request takes the same step on both. -/
theorem advance (h : AgreeFrom c db db') (hc : c ≤ now) (st : Store) (fails : ResetFailures)
    (req : ResetPasswordRequest) (hash : Option String) (phase : ResetPhase) :
    (req.advance st db fails hash now phase).2 = (req.advance st db' fails hash now phase).2 ∧
      AgreeFrom c (req.advance st db fails hash now phase).1
        (req.advance st db' fails hash now phase).1 := by
  cases phase with
  | lookingUp =>
    rw [ResetPasswordRequest.advance, ResetPasswordRequest.advance, h.activeResetTokenUser_eq hc]
    split
    · exact ⟨rfl, h⟩
    · exact ⟨rfl, h⟩
    · exact ⟨rfl, h⟩
  | writing userID =>
    cases hash with
    | none => exact ⟨rfl, h⟩
    | some hash =>
      simp only [ResetPasswordRequest.advance, setPassword, h.users, h.credentials]
      split_ifs
      · exact ⟨rfl, h⟩
      · cases upsertCredential db'.users db'.credentials ⟨userID, hash, unixMilli now⟩ with
        | none => exact ⟨rfl, h⟩
        | some credentials => exact ⟨rfl, ⟨rfl, rfl, h.tokens⟩⟩
  | deleting userID =>
    simp only [ResetPasswordRequest.advance, deleteResetTokensByUser]
    split_ifs
    · exact ⟨rfl, h⟩
    · exact ⟨rfl, ⟨h.users, h.credentials, h.tokens.filter _⟩⟩
  | returned result => exact ⟨rfl, h⟩

end ResetDB.AgreeFrom

/-- The tokens in the table were issued, under ids that were given out. -/
def TokensKnown (db : ResetDB) (issued : List Bytes) (tokenIDs : List String) : Prop :=
  ∀ r ∈ db.tokens.rows, r.id ∈ tokenIDs ∧ r.tokenHash ∈ issued

/-- The same requests at the same places, on tables that agree; what is stored was issued. -/
structure ResetsAgree (c : Int) (tokenIDs : List String) (s s' : ResetState) : Prop where
  db : ResetDB.AgreeFrom c s.db s'.db
  issued : s.issued = s'.issued
  calls : s.calls = s'.calls
  known : TokensKnown s.db s.issued tokenIDs
  known' : TokensKnown s'.db s'.issued tokenIDs

namespace ResetsAgree

variable {st : Store} {c : Int} {tokenIDs : List String} {s s' : ResetState}

/-- What agrees from an instant on agrees later. -/
theorem later {c' : Int} (h : ResetsAgree c tokenIDs s s') (hle : c ≤ c') :
    ResetsAgree c' tokenIDs s s' :=
  { h with db := ⟨h.db.users, h.db.credentials, h.db.tokens.later (unixMilli_mono hle)⟩ }

private theorem mem_advance_tokens {req : ResetPasswordRequest} {db : ResetDB}
    {fails : ResetFailures} {hash : Option String} {now : Int} {phase : ResetPhase}
    {r : ResetTokenRow} (hr : r ∈ (req.advance st db fails hash now phase).1.tokens.rows) :
    r ∈ db.tokens.rows := by
  cases phase with
  | lookingUp =>
    rw [ResetPasswordRequest.advance] at hr
    split at hr
    · exact hr
    · exact hr
    · exact hr
  | writing userID =>
    rw [ResetPasswordRequest.advance] at hr
    split at hr
    · exact hr
    · next hset => exact setPassword_eq_some hset ▸ hr
  | deleting userID =>
    rw [ResetPasswordRequest.advance] at hr
    split at hr
    · exact hr
    · next hdelete => exact (deleteResetTokensByUser_eq_some hdelete r hr).1
  | returned result => exact hr

private theorem known_issue {db : ResetDB} {issued : List Bytes} {fails : ResetFailures}
    {userID : String} {tokenHash : Bytes} {expiresAt : Int} {id : String} {now : Int}
    (h : TokensKnown db issued tokenIDs) :
    TokensKnown ((createResetToken db fails userID tokenHash expiresAt id now).getD db)
      (tokenHash :: issued) (id :: tokenIDs) := by
  have hold (r : ResetTokenRow) (hr : r ∈ db.tokens.rows) :
      r.id ∈ id :: tokenIDs ∧ r.tokenHash ∈ tokenHash :: issued :=
    ⟨List.mem_cons_of_mem id (h r hr).1, List.mem_cons_of_mem tokenHash (h r hr).2⟩
  intro r hr
  unfold createResetToken at hr
  dsimp only at hr
  split at hr
  · exact hold r hr
  · cases hinsert : db.tokens.insert
        ⟨id, userID, tokenHash, expiresAt, unixMilli now⟩ with
    | none =>
      rw [hinsert] at hr
      exact hold r hr
    | some tokens =>
      rw [hinsert] at hr
      rcases (Table.mem_insert hinsert r).mp hr with rfl | hr
      · exact ⟨List.mem_cons_self, List.mem_cons_self⟩
      · exact hold r hr

/-- A step with a new id whose readings are not before `c` is taken in both states or in neither. -/
theorem step (st : Store) (h : ResetsAgree c tokenIDs s s') {l : ResetStep}
    (hc : ∀ r ∈ l.readings, c ≤ r) (hid : ∀ id ∈ l.tokenID, id ∉ tokenIDs) :
    Option.Rel (ResetsAgree c (l.tokenID.toList ++ tokenIDs)) (resetStep st s l)
      (resetStep st s' l) := by
  cases l with
  | issue fails userID tokenHash id now now' =>
    simp only [resetStep, h.issued]
    split
    · exact .none
    · next hfresh =>
      have hnew {db : ResetDB} (hk : TokensKnown db s'.issued tokenIDs) (r : ResetTokenRow)
          (hr : r ∈ db.tokens.rows) : r.id ≠ id ∧ r.tokenHash ≠ tokenHash := by
        constructor
        · rintro rfl
          exact hid r.id rfl (hk r hr).1
        · rintro rfl
          exact hfresh (hk r hr).2
      exact .some ⟨h.db.createResetToken_getD (hnew (h.issued ▸ h.known)) (hnew h.known') _, rfl,
        h.calls, known_issue (h.issued ▸ h.known), known_issue h.known'⟩
  | request req => exact .some { h with calls := congrArg (· ++ [(req, req.start)]) h.calls }
  | advance n fails hash now =>
    simp only [resetStep, h.calls]
    split
    · exact .none
    · next req phase _ =>
      obtain ⟨hphase, hdb⟩ :=
        h.db.advance (hc now List.mem_cons_self) st fails req hash phase
      refine .some ⟨hdb, h.issued, ?_, fun r hr ↦ h.known r (mem_advance_tokens hr),
        fun r hr ↦ h.known' r (mem_advance_tokens hr)⟩
      rw [hphase]
  | deleteExpired now =>
    exact .some ⟨⟨h.db.users, h.db.credentials, h.db.tokens.filter _⟩, h.issued, h.calls,
      fun r hr ↦ h.known r ((Table.mem_delete _ _ r).mp hr).1,
      fun r hr ↦ h.known' r ((Table.mem_delete _ _ r).mp hr).1⟩

/-- A cleanup at a reading not after `c` makes no difference. -/
theorem cleanup (h : ResetsAgree c tokenIDs s s') {now : Int} (hnow : now ≤ c) :
    ResetsAgree c tokenIDs { s with db := deleteExpiredResetTokens s.db now } s' := by
  refine ⟨⟨h.db.users, h.db.credentials, h.db.tokens.filter_left fun r hr ↦ ?_⟩, h.issued, h.calls,
    fun r hr ↦ h.known r ((Table.mem_delete _ _ r).mp hr).1, h.known'⟩
  have hlive := (unixMilli_mono hnow).trans hr
  simpa using hlive

/-- Before any request the states are the same. -/
theorem init (users : Table UserRow UserRow.clash)
    (credentials : Table CredentialRow CredentialRow.clash) :
    ResetsAgree c [] (.init users credentials) (.init users credentials) :=
  ⟨⟨rfl, rfl, rfl⟩, rfl, rfl, fun _ hr ↦ absurd hr List.not_mem_nil,
    fun _ hr ↦ absurd hr List.not_mem_nil⟩

end ResetsAgree

/-! ## Runs with other cleanups -/

/-- Both halves agree from `c` on. -/
structure AuthAgree (c : Int) (s s' : ServiceState D) : Prop where
  challenges : ChallengesAgree c s.challenges s'.challenges
  resets : ResetsAgree c s.tokenIDs s.resets s'.resets
  tokenIDs : s.tokenIDs = s'.tokenIDs

namespace AuthAgree

variable {w : WebAuthn D C A} {st : Store} {c : Int} {s s' : ServiceState D}

/-- A step whose readings are not before `c` is taken in both states or in neither. -/
theorem step (h : AuthAgree c s s') {l : ServiceStep D} (hc : ∀ r ∈ l.readings, c ≤ r) :
    Option.Rel (AuthAgree c) (serviceStep w st s l) (serviceStep w st s' l) := by
  cases l with
  | challenge l =>
    have hrel := h.challenges.step (w := w) hc
    rw [serviceStep, serviceStep]
    generalize challengeStep w s.challenges l = o, challengeStep w s'.challenges l = o' at hrel
    cases hrel with
    | none => exact .none
    | some hagree => exact .some ⟨hagree, h.resets, h.tokenIDs⟩
  | reset l =>
    rw [serviceStep, serviceStep, h.tokenIDs]
    split
    · exact .none
    · next hfresh =>
      have hid (id : String) (hid : id ∈ l.tokenID) : id ∉ s.tokenIDs := by
        rw [Option.mem_def.mp hid, Option.any_some, decide_eq_true_iff] at hfresh
        exact h.tokenIDs ▸ hfresh
      have hrel := h.resets.step st hc hid
      generalize resetStep st s.resets l = o, resetStep st s'.resets l = o' at hrel
      cases hrel with
      | none => exact .none
      | some hagree => exact .some ⟨h.challenges, h.tokenIDs ▸ hagree, rfl⟩

/-- A cleanup at a reading not after `c` is always possible and makes no difference. -/
theorem cleanup (h : AuthAgree c s s') {l : ServiceStep D} (hl : l.isCleanup = true)
    (hc : ∀ r ∈ l.readings, r ≤ c) : ∃ t, serviceStep w st s l = some t ∧ AuthAgree c t s' := by
  unfold ServiceStep.isCleanup at hl
  split at hl
  · next now =>
    exact ⟨_, rfl, h.challenges.cleanup (hc now List.mem_cons_self), h.resets, h.tokenIDs⟩
  · next now =>
    exact ⟨_, rfl, h.challenges, h.resets.cleanup (hc now List.mem_cons_self), h.tokenIDs⟩
  · contradiction

/-- Cleanups are silent steps. -/
theorem stutters (w : WebAuthn D C A) (st : Store) :
    Stutters (serviceStep w st) ServiceStep.readings ServiceStep.isCleanup
      (AuthAgree (D := D)) where
  later hle h := ⟨h.challenges.later hle, h.resets.later hle, h.tokenIDs⟩
  common _ hc h := h.step hc
  silent hl hc h := h.cleanup hl hc

end AuthAgree

/-- Of two runs in non-decreasing time that differ in their cleanups only, one can be taken if the
other can. The same requests then stand at the same places with the same results, and every later
lookup of a challenge or of a reset token returns the same. -/
theorem cleanup_invisible (w : WebAuthn D C A) (st : Store) (users : Table UserRow UserRow.clash)
    (passkeys : Table PasskeyRow PasskeyRow.clash)
    (credentials : Table CredentialRow CredentialRow.clash) (steps steps' : List (ServiceStep D))
    (s : ServiceState D) (now : Int)
    (hrun : runSteps (serviceStep w st) (.init users passkeys credentials) steps = some s)
    (hsame : steps.filter (!·.isCleanup) = steps'.filter (!·.isCleanup))
    (hclock : (steps.flatMap ServiceStep.readings ++ [now]).Pairwise (· ≤ ·))
    (hclock' : (steps'.flatMap ServiceStep.readings ++ [now]).Pairwise (· ≤ ·)) :
    ∃ s', runSteps (serviceStep w st) (.init users passkeys credentials) steps' = some s' ∧
      s'.challenges.calls = s.challenges.calls ∧ s'.resets.calls = s.resets.calls ∧
      (∀ fails id kind userID, loadChallenge w s'.challenges.db fails id kind userID now =
        loadChallenge w s.challenges.db fails id kind userID now) ∧
      ∀ fails tokenHash, activeResetTokenUser s'.resets.db fails tokenHash now =
        activeResetTokenUser s.resets.db fails tokenHash now := by
  obtain ⟨c, hc⟩ := exists_le_readings ((steps.flatMap ServiceStep.readings ++ [now]) ++
    (steps'.flatMap ServiceStep.readings ++ [now]))
  have hinit : AuthAgree c (ServiceState.init users passkeys credentials : ServiceState D)
      (.init users passkeys credentials) := ⟨.init users passkeys, .init users credentials, rfl⟩
  obtain ⟨s', u, hrun', hu, hu'⟩ := (AuthAgree.stutters w st).exists_run hinit hsame
    (List.pairwise_cons.mpr ⟨fun r hr ↦ hc r (List.mem_append_left _ hr), hclock⟩)
    (List.pairwise_cons.mpr ⟨fun r hr ↦ hc r (List.mem_append_right _ hr), hclock'⟩) hrun
  refine ⟨s', hrun', hu'.challenges.calls.trans hu.challenges.calls.symm,
    hu'.resets.calls.trans hu.resets.calls.symm, fun fails id kind userID ↦ ?_,
    fun fails tokenHash ↦ ?_⟩
  · rw [hu'.challenges.db.loadChallenge_eq (Int.le_refl now),
      hu.challenges.db.loadChallenge_eq (Int.le_refl now)]
  · rw [hu'.resets.db.activeResetTokenUser_eq (Int.le_refl now),
      hu.resets.db.activeResetTokenUser_eq (Int.le_refl now)]

/-- A login challenge expires, then another one and a reset token are issued. -/
def demoAuthSteps : List (ServiceStep Bytes) :=
  [.challenge (.beginCeremony .authentication (fun _ ↦ false) (some [1]) "c1" 0 0),
    .challenge (.beginCeremony .authentication (fun _ ↦ false) (some [2]) "c2" (10 * minute)
      (10 * minute)),
    .reset (.issue (fun _ ↦ false) "u1" [7] "t1" (10 * minute) (10 * minute))]

/-- The same with the cron job at its most eager. -/
def demoCleanups : List (ServiceStep Bytes) :=
  demoAuthSteps.flatMap fun l ↦
    [l, .challenge (.deleteExpiredChallenges (10 * minute)), .reset (.deleteExpired (10 * minute))]

/-- The second challenge is loaded with the cleanups as without them. -/
theorem cleanup_invisible_demo : ∃ s', runSteps (serviceStep demoWebAuthn demoStore)
    (.init demoUsers Table.empty Table.empty) demoCleanups = some s' ∧
      loadChallenge demoWebAuthn s'.challenges.db (fun _ ↦ false) "c2" "authentication" ""
        (11 * minute) = .ok [2] := by
  obtain ⟨s', hrun', -, -, hload, -⟩ := cleanup_invisible demoWebAuthn demoStore demoUsers
    Table.empty Table.empty demoAuthSteps demoCleanups _ (11 * minute) rfl rfl (by decide)
    (by decide)
  exact ⟨s', hrun', (hload _ _ _ _).trans rfl⟩

end Dockstack.Server
