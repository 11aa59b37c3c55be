import Dockstack.Auth.PasskeyCounters
import Dockstack.Base.OneTime

/-!
# Concurrent uses of a challenge

`FinishRegistration` and `FinishAuthentication` load their challenge, validate, write, and delete
the challenge when they return: four steps, between which other calls take theirs. Nothing is
claimed at the load, so calls that have loaded one challenge may all succeed on it.
-/

namespace Dockstack.Auth

open Dockstack.Base

/-- Which of the two finishing functions is called. -/
inductive FinishKind where
  | registration (userID : String)
  | authentication
  deriving DecidableEq

/-- A finishing call with its arguments. -/
structure FinishCall where
  kind : FinishKind
  challengeID : String
  response : Bytes
  deriving DecidableEq

/-- What a validated call writes. -/
inductive PasskeyWrite where
  | insert (row : PasskeyRow)
  | update (user : PasskeyUser) (cred : Credential)
  deriving DecidableEq

/-- What a finishing call returns. -/
inductive FinishResult where
  | passkey (p : Passkey)
  | user (userID : String)
  deriving DecidableEq

/-- Where a finishing call is: its next step, with what it has so far. -/
inductive FinishPhase (D : Type) where
  | loading
  | validating (session : D)
  | writing (write : PasskeyWrite)
  | deleting (result : Except PasskeyError FinishResult)
  | returned (result : Except PasskeyError FinishResult)

namespace FinishPhase

variable {D : Type}

/-- The call has its result and it is no error. -/
def succeeded : FinishPhase D → Bool
  | .deleting (.ok _) => true
  | .returned (.ok _) => true
  | _ => false

/-- The call has loaded its challenge, has not failed, and has not deleted the challenge yet. -/
def holds : FinishPhase D → Bool
  | .validating _ => true
  | .writing _ => true
  | .deleting (.ok _) => true
  | _ => false

end FinishPhase

variable {D C A : Type}

/-- The load of the challenge; `passkeys.go:88`, `:146`. -/
def FinishCall.load (w : WebAuthn D C A) (db : PasskeyDB) (fails : PasskeyFailures)
    (call : FinishCall) (now : Int) : Except PasskeyError D :=
  match call.kind with
  | .registration userID => loadChallenge w db fails call.challengeID "registration" userID now
  | .authentication => loadChallenge w db fails call.challengeID "authentication" "" now

/-- The validation of the response; `passkeys.go:93–127`, `:152–166`. -/
def FinishCall.validate (w : WebAuthn D C A) (db : PasskeyDB) (fails : PasskeyFailures)
    (call : FinishCall) (session : D) (id : String) (now : Int) :
    Except PasskeyError PasskeyWrite :=
  match call.kind with
  | .registration userID =>
    match registrationRow w db fails userID call.response session id now with
    | .error e => .error e
    | .ok row => .ok (.insert row)
  | .authentication =>
    match passkeyLogin w db fails call.response session with
    | .error e => .error e
    | .ok (user, cred) => .ok (.update user cred)

/-- The write, `none` when it fails; `passkeys.go:116–130`, `:167–176`. -/
def PasskeyWrite.apply (db : PasskeyDB) (fails : PasskeyFailures) :
    PasskeyWrite → Option (FinishResult × PasskeyDB)
  | .insert row => (insertPasskey db fails row).map fun db ↦ (.passkey (passkeyOfRow row), db)
  | .update user cred =>
    (updatePasskeyCounter db fails cred.signCount.toNat user.id cred.id).map fun db ↦
      (.user user.id, db)

/-- The next step of a call. -/
def FinishCall.advance (w : WebAuthn D C A) (db : PasskeyDB) (fails : PasskeyFailures)
    (call : FinishCall) (id : String) (now : Int) : FinishPhase D → PasskeyDB × FinishPhase D
  | .loading =>
    match call.load w db fails now with
    | .error e => (db, .returned (.error e))
    | .ok session => (db, .validating session)
  | .validating session =>
    match call.validate w db fails session id now with
    | .error e => (db, .deleting (.error e))
    | .ok write => (db, .writing write)
  | .writing write =>
    match write.apply db fails with
    | none => (db, .deleting (.error .database))
    | some (result, db) => (db, .deleting (.ok result))
  | .deleting result => (deleteChallenge db fails call.challengeID, .returned result)
  | .returned result => (db, .returned result)

/-- The four steps of a call that nothing comes in between of. -/
def FinishCall.alone (w : WebAuthn D C A) (db : PasskeyDB) (fails : PasskeyFailures)
    (call : FinishCall) (id : String) (now now' : Int) : PasskeyDB × FinishPhase D :=
  let (db, phase) := call.advance w db fails id now .loading
  let (db, phase) := call.advance w db fails id now' phase
  let (db, phase) := call.advance w db fails id now' phase
  call.advance w db fails id now' phase

/-- Alone, the steps of a registration are `FinishRegistration`. -/
theorem alone_registration (w : WebAuthn D C A) (db : PasskeyDB) (fails : PasskeyFailures)
    (userID challengeID : String) (response : Bytes) (id : String) (now now' : Int) :
    FinishCall.alone w db fails ⟨.registration userID, challengeID, response⟩ id now now' =
      let r := finishRegistration w db fails userID challengeID response id now now'
      (r.2, .returned (r.1.map .passkey)) := by
  unfold FinishCall.alone finishRegistration
  cases hload : loadChallenge w db fails challengeID "registration" userID now with
  | error e => simp only [FinishCall.advance, FinishCall.load, hload, Except.map]
  | ok session =>
    cases hrow : registrationRow w db fails userID response session id now' with
    | error e =>
      simp only [FinishCall.advance, FinishCall.load, FinishCall.validate, hload, hrow, Except.map]
    | ok row =>
      simp only [FinishCall.advance, FinishCall.load, FinishCall.validate, PasskeyWrite.apply,
        hload, hrow]
      cases insertPasskey db fails row <;> rfl

/-- Alone, the steps of a login are `FinishAuthentication`. -/
theorem alone_authentication (w : WebAuthn D C A) (db : PasskeyDB) (fails : PasskeyFailures)
    (challengeID : String) (response : Bytes) (id : String) (now now' : Int) :
    FinishCall.alone w db fails ⟨.authentication, challengeID, response⟩ id now now' =
      let r := finishAuthentication w db fails challengeID response now
      (r.2, .returned (r.1.map .user)) := by
  unfold FinishCall.alone finishAuthentication
  cases hload : loadChallenge w db fails challengeID "authentication" "" now with
  | error e => simp only [FinishCall.advance, FinishCall.load, hload, Except.map]
  | ok session =>
    cases hlogin : passkeyLogin w db fails response session with
    | error e =>
      simp only [FinishCall.advance, FinishCall.load, FinishCall.validate, hload, hlogin,
        Except.map]
    | ok r =>
      simp only [FinishCall.advance, FinishCall.load, FinishCall.validate, PasskeyWrite.apply,
        hload, hlogin]
      cases updatePasskeyCounter db fails r.2.signCount.toNat r.1.id r.2.id <;> rfl

/-! ## Interleavings -/

/-- The tables, the challenge ids given out, and every finishing call with where it is. -/
structure ChallengeState (D : Type) where
  db : PasskeyDB
  issued : List String
  calls : List (FinishCall × FinishPhase D)

/-- Any users and passkeys, no challenges and no calls. -/
def ChallengeState.init (users : Table UserRow UserRow.clash)
    (passkeys : Table PasskeyRow PasskeyRow.clash) : ChallengeState D :=
  ⟨⟨users, passkeys, Table.empty⟩, [], []⟩

/-- What happens: a ceremony begins, a finishing call comes in, the `n`-th call takes its next
step, or another call on the tables runs. -/
inductive ChallengeStep (D : Type) where
  | beginCeremony (kind : FinishKind) (fails : PasskeyFailures) (session : Option D) (id : String)
      (now now' : Int)
  | call (call : FinishCall)
  | advance (n : Nat) (fails : PasskeyFailures) (id : String) (now : Int)
  | deletePasskey (userID id : String)
  | deleteExpiredChallenges (now : Int)

/-- `BeginRegistration` or `BeginAuthentication`; `passkeys.go:63–84`, `:133–143`. -/
def FinishKind.begin (w : WebAuthn D C A) (db : PasskeyDB) (fails : PasskeyFailures)
    (session : Option D) (id : String) (now now' : Int) : FinishKind → Option PasskeyDB
  | .registration userID => beginRegistration w db fails userID session id now now'
  | .authentication => beginAuthentication w db fails session id now now'

/-- One step. Challenge ids are random UUIDs, and none is given out twice. -/
def challengeStep (w : WebAuthn D C A) (s : ChallengeState D) :
    ChallengeStep D → Option (ChallengeState D)
  | .beginCeremony kind fails session id now now' =>
    if id ∈ s.issued then none
    else some { s with
      db := (kind.begin w s.db fails session id now now').getD s.db
      issued := id :: s.issued }
  | .call call => some { s with calls := s.calls ++ [(call, .loading)] }
  | .advance n fails id now =>
    match s.calls[n]? with
    | none => none
    | some (call, phase) =>
      let (db, phase) := call.advance w s.db fails id now phase
      some { s with db := db, calls := s.calls.set n (call, phase) }
  | .deletePasskey userID id => some { s with db := deletePasskey s.db userID id }
  | .deleteExpiredChallenges now => some { s with db := deleteExpiredChallenges s.db now }

/-- A call's step does not load a challenge that another call holds, and is not a failing deletion
after a success. -/
def ExclusiveAdvance (w : WebAuthn D C A) (s : ChallengeState D) (fails : PasskeyFailures)
    (now : Int) : FinishCall × FinishPhase D → Prop
  | (call, .loading) => (call.load w s.db fails now).isOk = true →
      ∀ a ∈ s.calls, a.1.challengeID = call.challengeID → a.2.holds = false
  | (_, .deleting (.ok _)) => fails .deleteChallenge = false
  | _ => True

/-- No challenge is loaded while another call holds it, and the deletion after a success does not
fail. -/
def Exclusive (w : WebAuthn D C A) (s : ChallengeState D) : ChallengeStep D → Prop
  | .advance n fails _ now => ∀ c ∈ s.calls[n]?, ExclusiveAdvance w s fails now c
  | _ => True

instance (w : WebAuthn D C A) (s : ChallengeState D) (fails : PasskeyFailures) (now : Int) :
    ∀ c, Decidable (ExclusiveAdvance w s fails now c)
  | (_, .loading) => inferInstanceAs (Decidable (_ → _))
  | (_, .deleting (.ok _)) => inferInstanceAs (Decidable (_ = _))
  | (_, .deleting (.error _)) => .isTrue trivial
  | (_, .validating _) => .isTrue trivial
  | (_, .writing _) => .isTrue trivial
  | (_, .returned _) => .isTrue trivial

instance (w : WebAuthn D C A) (s : ChallengeState D) : ∀ l, Decidable (Exclusive w s l)
  | .advance n fails _ now =>
    inferInstanceAs (Decidable (∀ c ∈ s.calls[n]?, ExclusiveAdvance w s fails now c))
  | .beginCeremony .. => .isTrue trivial
  | .call _ => .isTrue trivial
  | .deletePasskey .. => .isTrue trivial
  | .deleteExpiredChallenges _ => .isTrue trivial

/-- The call still holds its challenge, or has succeeded. -/
def FinishPhase.live (phase : FinishPhase D) : Bool := phase.holds || phase.succeeded

/-- Where the exclusive steps lead: one live call for each challenge, whose row is gone once the
call has returned. -/
structure OneLive (s : ChallengeState D) : Prop where
  one : ∀ (i j : Nat) a b, s.calls[i]? = some a → s.calls[j]? = some b →
    a.1.challengeID = b.1.challengeID → a.2.live = true → b.2.live = true → i = j
  issued : ∀ r ∈ s.db.challenges.rows, r.id ∈ s.issued
  live : ∀ a ∈ s.calls, a.2.live = true → a.1.challengeID ∈ s.issued
  gone : ∀ a ∈ s.calls, a.2.live = true → a.2.holds = false →
    ∀ r ∈ s.db.challenges.rows, r.id ≠ a.1.challengeID

variable {w : WebAuthn D C A} {s s' : ChallengeState D}

/-- Only a challenge in the table is loaded. -/
theorem exists_of_load {db : PasskeyDB} {fails : PasskeyFailures} {call : FinishCall} {now : Int}
    {session : D} (h : call.load w db fails now = .ok session) :
    ∃ r ∈ db.challenges.rows, r.id = call.challengeID := by
  have hload (kind userID : String)
      (h : loadChallenge w db fails call.challengeID kind userID now = .ok session) :
      ∃ r ∈ db.challenges.rows, r.id = call.challengeID := by
    unfold loadChallenge at h
    split at h
    · contradiction
    · split at h
      · contradiction
      · next r hr =>
        have hfound := List.find?_some hr
        simp only [Bool.and_eq_true, beq_iff_eq] at hfound
        exact ⟨r, List.mem_of_find?_eq_some hr, hfound.1.1⟩
  unfold FinishCall.load at h
  split at h
  · exact hload _ _ h
  · exact hload _ _ h

/-- A ceremony that begins adds its own challenge at most. -/
theorem mem_begin_challenges {kind : FinishKind} {db : PasskeyDB} {fails : PasskeyFailures}
    {session : Option D} {id : String} {now now' : Int} {r : ChallengeRow}
    (h : r ∈ ((kind.begin w db fails session id now now').getD db).challenges.rows) :
    r.id = id ∨ r ∈ db.challenges.rows := by
  cases kind with
  | registration userID => exact (beginRegistration_getD _ _ _ _ _ _ _ _).2 r h
  | authentication => exact (beginAuthentication_getD _ _ _ _ _ _ _).2 r h

/-- A write leaves the challenges alone. -/
theorem apply_challenges {db db' : PasskeyDB} {fails : PasskeyFailures} {write : PasskeyWrite}
    {result : FinishResult} (h : write.apply db fails = some (result, db')) :
    db'.challenges = db.challenges := by
  cases write with
  | insert row =>
    obtain ⟨db₁, hdb, heq⟩ := Option.map_eq_some_iff.mp h
    obtain ⟨-, rfl⟩ := Prod.mk.inj heq
    exact (insertPasskey_eq_some hdb).1
  | update user cred =>
    obtain ⟨db₁, hdb, heq⟩ := Option.map_eq_some_iff.mp h
    obtain ⟨-, rfl⟩ := Prod.mk.inj heq
    exact (updatePasskeyCounter_eq_some hdb).1

/-- A deleted challenge is gone, unless the deletion fails; and the others stay. -/
theorem mem_deleteChallenge {db : PasskeyDB} {fails : PasskeyFailures} {id : String}
    {r : ChallengeRow} (h : r ∈ (deleteChallenge db fails id).challenges.rows) :
    r ∈ db.challenges.rows ∧ (fails .deleteChallenge = false → r.id ≠ id) := by
  unfold deleteChallenge at h
  by_cases hf : fails .deleteChallenge = true
  · rw [if_pos hf] at h
    exact ⟨h, fun hf' ↦ by simp [hf'] at hf⟩
  · rw [if_neg hf] at h
    obtain ⟨hmem, hid⟩ := (Table.mem_delete _ _ r).mp h
    exact ⟨hmem, fun _ ↦ by simpa using hid⟩

namespace OneLive

/-- A challenge is a one-time ticket of the calls. -/
theorem oneTime_iff : OneLive s ↔ OneTime (fun a ↦ a.1.challengeID) (fun a ↦ a.2.live)
    (fun a ↦ a.2.holds) s.calls s.issued fun id ↦ ∃ r ∈ s.db.challenges.rows, r.id = id := by
  constructor
  · intro h
    refine ⟨h.one, ?_, h.live, ?_⟩
    · rintro _ ⟨r, hr, rfl⟩
      exact h.issued r hr
    · rintro a ha hla hha ⟨r, hr, hid⟩
      exact h.gone a ha hla hha r hr hid
  · intro h
    exact ⟨h.one, fun r hr ↦ h.ofStored r.id ⟨r, hr, rfl⟩, h.ofLive,
      fun a ha hla hha r hr hid ↦ h.gone a ha hla hha ⟨r, hr, hid⟩⟩

private theorem move (h : OneLive s) {n : Nat} {call : FinishCall} {phase phase' : FinishPhase D}
    (hn : s.calls[n]? = some (call, phase)) {db : PasskeyDB}
    (hrows : ∀ r ∈ db.challenges.rows, r ∈ s.db.challenges.rows)
    (hlive : phase'.live = true → phase.live = true)
    (hgone : phase'.live = true → phase'.holds = false →
      ∀ r ∈ db.challenges.rows, r.id ≠ call.challengeID) :
    OneLive { s with db := db, calls := s.calls.set n (call, phase') } := by
  refine oneTime_iff.mpr ((oneTime_iff.mp h).move hn rfl hlive ?_ ?_)
  · rintro id ⟨r, hr, hid⟩
    exact ⟨r, hrows r hr, hid⟩
  · rintro hla hha ⟨r, hr, hid⟩
    exact hgone hla hha r hr hid

private theorem advance (h : OneLive s) {n : Nat} {fails : PasskeyFailures} {id : String}
    {now : Int} {call : FinishCall} {phase : FinishPhase D}
    (hexcl : ExclusiveAdvance w s fails now (call, phase))
    (hn : s.calls[n]? = some (call, phase)) :
    OneLive { s with
      db := (call.advance w s.db fails id now phase).1
      calls := s.calls.set n (call, (call.advance w s.db fails id now phase).2) } := by
  have hmem : (call, phase) ∈ s.calls := List.mem_of_getElem? hn
  cases phase with
  | loading =>
    rw [FinishCall.advance]
    cases hload : call.load w s.db fails now with
    | error e => exact h.move hn (fun r hr ↦ hr) nofun nofun
    | ok session =>
      rw [ExclusiveAdvance, hload] at hexcl
      exact oneTime_iff.mpr ((oneTime_iff.mp h).take n (exists_of_load hload) rfl (hexcl rfl))
  | validating session =>
    rw [FinishCall.advance]
    cases call.validate w s.db fails session id now with
    | error e => exact h.move hn (fun r hr ↦ hr) nofun nofun
    | ok write => exact h.move hn (fun r hr ↦ hr) (fun _ ↦ rfl) nofun
  | writing write =>
    rw [FinishCall.advance]
    cases happly : write.apply s.db fails with
    | none => exact h.move hn (fun r hr ↦ hr) nofun nofun
    | some r =>
      have hchallenges : r.2.challenges = s.db.challenges := apply_challenges happly
      exact h.move hn (fun r' hr' ↦ hchallenges ▸ hr') (fun _ ↦ rfl) nofun
  | deleting result =>
    cases result with
    | error e =>
      exact h.move hn (fun r hr ↦ (mem_deleteChallenge hr).1) nofun nofun
    | ok result =>
      exact h.move hn (fun r hr ↦ (mem_deleteChallenge hr).1) (fun _ ↦ rfl)
        fun _ _ r hr ↦ (mem_deleteChallenge hr).2 hexcl
  | returned result =>
    exact h.move hn (fun r hr ↦ hr) (fun hla ↦ hla) fun hla hha ↦ h.gone _ hmem hla hha

/-- Every exclusive step keeps one call live for each challenge. -/
theorem step (h : OneLive s) {l : ChallengeStep D} (hexcl : Exclusive w s l)
    (hs : challengeStep w s l = some s') : OneLive s' := by
  cases l with
  | beginCeremony kind fails session id now now' =>
    obtain ⟨hfresh, hs⟩ := Option.ite_none_left_eq_some.mp hs
    obtain rfl := Option.some.inj hs
    refine oneTime_iff.mpr ((oneTime_iff.mp h).issue hfresh ?_)
    rintro id' ⟨r, hr, rfl⟩
    exact (mem_begin_challenges hr).imp_right fun hr ↦ ⟨r, hr, rfl⟩
  | call call =>
    obtain rfl := Option.some.inj hs
    exact oneTime_iff.mpr ((oneTime_iff.mp h).join rfl)
  | advance n fails id now =>
    simp only [challengeStep] at hs
    split at hs
    · contradiction
    · next call phase hn =>
      obtain rfl := Option.some.inj hs
      exact h.advance (hexcl _ hn) hn
  | deletePasskey userID id =>
    obtain rfl := Option.some.inj hs
    exact ⟨h.one, h.issued, h.live, h.gone⟩
  | deleteExpiredChallenges now =>
    obtain rfl := Option.some.inj hs
    refine oneTime_iff.mpr ((oneTime_iff.mp h).shrink ?_)
    rintro id ⟨r, hr, hid⟩
    exact ⟨r, ((Table.mem_delete _ _ r).mp hr).1, hid⟩

/-- Before any call nothing is live. -/
theorem init (users : Table UserRow UserRow.clash) (passkeys : Table PasskeyRow PasskeyRow.clash) :
    OneLive (ChallengeState.init users passkeys : ChallengeState D) :=
  oneTime_iff.mpr (.empty fun _ ⟨_, hr, _⟩ ↦ absurd hr List.not_mem_nil)

end OneLive

/-- In every run in which no challenge is loaded while another call holds it, and in which no
deletion after a success fails, each challenge leads to one successful call at most. -/
theorem eq_of_succeeded (w : WebAuthn D C A) (users : Table UserRow UserRow.clash)
    (passkeys : Table PasskeyRow PasskeyRow.clash) (steps : List (ChallengeStep D))
    (t : ChallengeState D)
    (hrun : runSteps (challengeStep w) (.init users passkeys) steps = some t)
    (hexcl : RunMeets (challengeStep w) (Exclusive w) (.init users passkeys) steps)
    (i j : Nat) (a b : FinishCall × FinishPhase D) (ha : t.calls[i]? = some a)
    (hb : t.calls[j]? = some b) (hid : a.1.challengeID = b.1.challengeID)
    (hsa : a.2.succeeded = true) (hsb : b.2.succeeded = true) : i = j := by
  have ht : OneLive t := runSteps_invariant_of_meets (fun _ _ _ h hP hs ↦ h.step hP hs)
    (.init users passkeys) hexcl hrun
  have hlive {p : FinishPhase D} (hp : p.succeeded = true) : p.live = true := by
    simp [FinishPhase.live, hp]
  exact ht.one i j a b ha hb hid (hlive hsa) (hlive hsb)

/-- `advance` of the call at `n` without a failing query. -/
def demoAdvance (n : Nat) : ChallengeStep Bytes := .advance n (fun _ ↦ false) "p1" 0

/-- The user registers a passkey with the challenge `c1` and asks for the challenge `c2`; two
requests come in with one assertion for it. -/
def demoReplay : List (ChallengeStep Bytes) :=
  [.beginCeremony (.registration "u1") (fun _ ↦ false) (some [1]) "c1" 0 0,
    .call ⟨.registration "u1", "c1", [0]⟩, demoAdvance 0, demoAdvance 0, demoAdvance 0,
    demoAdvance 0, .beginCeremony .authentication (fun _ ↦ false) (some [2]) "c2" 0 0,
    .call ⟨.authentication, "c2", [1]⟩, .call ⟨.authentication, "c2", [1]⟩]

/-- The state before any request. -/
def demoInit : ChallengeState Bytes := .init demoUsers Table.empty

/-- A second request that comes after the first does not succeed. -/
theorem eq_of_succeeded_demo : ∃ t, runSteps (challengeStep demoWebAuthn) demoInit
    (demoReplay ++ [1, 1, 1, 1, 2].map demoAdvance) = some t ∧
      ∀ j b, t.calls[j]? = some b → b.1.challengeID = "c2" → b.2.succeeded = true → 1 = j := by
  have hcall : (runSteps (challengeStep demoWebAuthn) demoInit
      (demoReplay ++ [1, 1, 1, 1, 2].map demoAdvance)).map
        (fun t ↦ t.calls[1]?.map fun a ↦ (a.1.challengeID, a.2.succeeded)) =
      some (some ("c2", true)) := by decide +kernel
  obtain ⟨t, ht, hcall⟩ := Option.map_eq_some_iff.mp hcall
  obtain ⟨a, ha, heq⟩ := Option.map_eq_some_iff.mp hcall
  obtain ⟨hid, hsucceeded⟩ := Prod.mk.inj heq
  refine ⟨t, ht, fun j b hb hidb hsb ↦ ?_⟩
  exact eq_of_succeeded demoWebAuthn demoUsers Table.empty _ t ht (by decide +kernel) 1 j a b ha hb
    (hid.trans hidb.symm) hsucceeded hsb

/-- The assertion is replayed while it is being checked: both requests succeed on one challenge. -/
theorem replay_succeeds_twice : (runSteps (challengeStep demoWebAuthn) demoInit
    (demoReplay ++ [1, 2, 1, 2, 1, 2, 1, 2].map demoAdvance)).map
      (·.calls.map fun a ↦ (a.1, a.2.succeeded)) =
    some [(⟨.registration "u1", "c1", [0]⟩, true), (⟨.authentication, "c2", [1]⟩, true),
      (⟨.authentication, "c2", [1]⟩, true)] := by
  decide +kernel

end Dockstack.Auth
