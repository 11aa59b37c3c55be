import Dockstack.Auth.ResetTokens
import Dockstack.Auth.SessionRuns
import Dockstack.Base.OneTime

/-!
# Password resets

`handleResetPassword` of `internal/server/api/auth/auth.go:414–434` looks its token up, writes the
password, and deletes the user's tokens: three statements, between which other requests take
theirs. A token is not claimed at its lookup, and a deletion that fails is only logged, so a token
may change a password more than once.
-/

namespace Dockstack.Server

open Dockstack.Base Dockstack.Auth

/-- `resetPasswordRequest`; `auth.go:409–412`. -/
structure ResetPasswordRequest where
  token : Bytes
  newPassword : String
  deriving DecidableEq

/-- An error answer: its status and its text. -/
structure HTTPError where
  status : Nat
  message : String
  deriving DecidableEq

/-- Where a request is: its next statement, with the user that it has found. -/
inductive ResetPhase where
  | lookingUp
  | writing (userID : String)
  | deleting (userID : String)
  | returned (result : Except HTTPError Unit)

namespace ResetPhase

/-- The request has written the new password. -/
def changed : ResetPhase → Bool
  | .deleting _ => true
  | .returned (.ok _) => true
  | _ => false

/-- The user of the token that the request has found, until it is through its deletion. -/
def found : ResetPhase → Option String
  | .writing userID => some userID
  | .deleting userID => some userID
  | _ => none

/-- The request has found its token and has not been through its deletion yet. -/
def holds (phase : ResetPhase) : Bool := phase.found.isSome

/-- The request has found its token and has not failed to write. -/
def live (phase : ResetPhase) : Bool := phase.holds || phase.changed

end ResetPhase

/-- What a request does first; `auth.go:415–417`. -/
def ResetPasswordRequest.start (req : ResetPasswordRequest) : ResetPhase :=
  if req.token = [] ∨ req.newPassword = "" then
    .returned (.error ⟨400, "token and new password are required"⟩)
  else .lookingUp

/-- The next statement of a request; `auth.go:418–433`. -/
def ResetPasswordRequest.advance (st : Store) (db : ResetDB) (fails : ResetFailures)
    (req : ResetPasswordRequest) (hash : Option String) (now : Int) :
    ResetPhase → ResetDB × ResetPhase
  | .lookingUp =>
    match activeResetTokenUser db fails (st.hashToken req.token) now with
    | .error .noRows => (db, .returned (.error ⟨400, "invalid or expired token"⟩))
    | .error .failed => (db, .returned (.error ⟨500, "failed to look up token"⟩))
    | .ok userID => (db, .writing userID)
  | .writing userID =>
    match setPassword db fails userID hash now with
    | none => (db, .returned (.error ⟨500, "failed to reset password"⟩))
    | some db => (db, .deleting userID)
  | .deleting userID =>
    match deleteResetTokensByUser db fails userID with
    | none => (db, .returned (.ok ()))
    | some db => (db, .returned (.ok ()))
  | .returned result => (db, .returned result)

/-- The tables, the hashes of the tokens given out, and every request with where it is. -/
structure ResetState where
  db : ResetDB
  issued : List Bytes
  calls : List (ResetPasswordRequest × ResetPhase)

/-- Any users and passwords, no tokens and no requests. -/
def ResetState.init (users : Table UserRow UserRow.clash)
    (credentials : Table CredentialRow CredentialRow.clash) : ResetState :=
  ⟨⟨users, credentials, Table.empty⟩, [], []⟩

/-- What happens: `handleForgotPassword` issues a token, a request comes in, the `n`-th request
takes its next step, or the expired tokens are cleaned up. -/
inductive ResetStep where
  | issue (fails : ResetFailures) (userID : String) (tokenHash : Bytes) (id : String)
      (now now' : Int)
  | request (req : ResetPasswordRequest)
  | advance (n : Nat) (fails : ResetFailures) (hash : Option String) (now : Int)
  | deleteExpired (now : Int)

/-- One step. Reset tokens are random, and no hash is given out twice; a token lives for an hour,
`auth.go:399–400`. -/
def resetStep (st : Store) (s : ResetState) : ResetStep → Option ResetState
  | .issue fails userID tokenHash id now now' =>
    if tokenHash ∈ s.issued then none
    else some { s with
      db := (createResetToken s.db fails userID tokenHash (unixMilli (now + hour)) id now').getD
        s.db
      issued := tokenHash :: s.issued }
  | .request req => some { s with calls := s.calls ++ [(req, req.start)] }
  | .advance n fails hash now =>
    match s.calls[n]? with
    | none => none
    | some (req, phase) =>
      let (db, phase) := req.advance st s.db fails hash now phase
      some { s with db := db, calls := s.calls.set n (req, phase) }
  | .deleteExpired now => some { s with db := deleteExpiredResetTokens s.db now }

/-- A request's step does not find a token that another request holds, and is not a failing
deletion. -/
def ExclusiveReset (st : Store) (s : ResetState) (fails : ResetFailures) (now : Int) :
    ResetPasswordRequest × ResetPhase → Prop
  | (req, .lookingUp) =>
    (activeResetTokenUser s.db fails (st.hashToken req.token) now).isOk = true →
      ∀ a ∈ s.calls, st.hashToken a.1.token = st.hashToken req.token → a.2.holds = false
  | (_, .deleting _) => fails .deleteResetTokensByUser = false
  | _ => True

/-- No request finds a token that another one holds, and no deletion after a change fails. -/
def ExclusiveStep (st : Store) (s : ResetState) : ResetStep → Prop
  | .advance n fails _ now => ∀ c ∈ s.calls[n]?, ExclusiveReset st s fails now c
  | _ => True

instance (st : Store) (s : ResetState) (fails : ResetFailures) (now : Int) :
    ∀ c, Decidable (ExclusiveReset st s fails now c)
  | (_, .lookingUp) => inferInstanceAs (Decidable (_ → _))
  | (_, .deleting _) => inferInstanceAs (Decidable (_ = _))
  | (_, .writing _) => .isTrue trivial
  | (_, .returned _) => .isTrue trivial

instance (st : Store) (s : ResetState) : ∀ l, Decidable (ExclusiveStep st s l)
  | .advance n fails _ now =>
    inferInstanceAs (Decidable (∀ c ∈ s.calls[n]?, ExclusiveReset st s fails now c))
  | .issue .. => .isTrue trivial
  | .request _ => .isTrue trivial
  | .deleteExpired _ => .isTrue trivial

/-- The hash of the token that a request is about. -/
def ticket (st : Store) (a : ResetPasswordRequest × ResetPhase) : Bytes := st.hashToken a.1.token

/-- Where the exclusive steps lead: each token is a one-time ticket of the requests, and belongs to
the user that its holder has found. -/
structure SpentOnce (st : Store) (s : ResetState) : Prop where
  oneTime : OneTime (ticket st) (fun a ↦ a.2.live) (fun a ↦ a.2.holds) s.calls s.issued s.db.Stored
  owner : ∀ a ∈ s.calls, ∀ userID ∈ a.2.found, ∀ r ∈ s.db.tokens.rows,
    r.tokenHash = ticket st a → r.userID = userID

variable {st : Store} {s s' : ResetState}

namespace SpentOnce

private theorem shrink (h : SpentOnce st s) {db : ResetDB}
    (hrows : ∀ r ∈ db.tokens.rows, r ∈ s.db.tokens.rows) :
    SpentOnce st { s with db := db } where
  oneTime := h.oneTime.shrink fun _ ⟨r, hr, hhash⟩ ↦ ⟨r, hrows r hr, hhash⟩
  owner a ha userID hu r hr := h.owner a ha userID hu r (hrows r hr)

private theorem move (h : SpentOnce st s) {n : Nat} {req : ResetPasswordRequest}
    {phase phase' : ResetPhase} (hn : s.calls[n]? = some (req, phase)) {db : ResetDB}
    (hrows : ∀ r ∈ db.tokens.rows, r ∈ s.db.tokens.rows)
    (hlive : phase'.live = true → phase.live = true)
    (hgone : phase'.live = true → phase'.holds = false → ¬ db.Stored (st.hashToken req.token))
    (hfound : ∀ userID ∈ phase'.found, userID ∈ phase.found) :
    SpentOnce st { s with db := db, calls := s.calls.set n (req, phase') } where
  oneTime := h.oneTime.move hn rfl hlive (fun _ ⟨r, hr, hhash⟩ ↦ ⟨r, hrows r hr, hhash⟩) hgone
  owner a ha userID hu r hr := by
    rcases List.mem_or_eq_of_mem_set ha with ha | rfl
    · exact h.owner a ha userID hu r (hrows r hr)
    · exact h.owner (req, phase) (List.mem_of_getElem? hn) userID (hfound userID hu) r (hrows r hr)

private theorem take (h : SpentOnce st s) (n : Nat) {req : ResetPasswordRequest}
    {r : ResetTokenRow} (hr : r ∈ s.db.tokens.rows) (hhash : r.tokenHash = st.hashToken req.token)
    (hfree : ∀ a ∈ s.calls, st.hashToken a.1.token = st.hashToken req.token → a.2.holds = false) :
    SpentOnce st { s with calls := s.calls.set n (req, .writing r.userID) } where
  oneTime := h.oneTime.take n ⟨r, hr, hhash⟩ rfl hfree
  owner a ha userID hu r' hr' hhash' := by
    rcases List.mem_or_eq_of_mem_set ha with ha | rfl
    · exact h.owner a ha userID hu r' hr' hhash'
    · obtain rfl := Option.some.inj hu
      exact congrArg _ (s.db.tokens.eq_of_clash ResetTokenRow.clash_comm hr' hr
        (ResetTokenRow.clash_iff.mpr (.inr (hhash'.trans hhash.symm))))

private theorem advance (h : SpentOnce st s) {n : Nat} {fails : ResetFailures}
    {hash : Option String} {now : Int} {req : ResetPasswordRequest} {phase : ResetPhase}
    (hexcl : ExclusiveReset st s fails now (req, phase)) (hn : s.calls[n]? = some (req, phase)) :
    SpentOnce st { s with
      db := (req.advance st s.db fails hash now phase).1
      calls := s.calls.set n (req, (req.advance st s.db fails hash now phase).2) } := by
  have hmem : (req, phase) ∈ s.calls := List.mem_of_getElem? hn
  cases phase with
  | lookingUp =>
    rw [ResetPasswordRequest.advance]
    cases hfound : activeResetTokenUser s.db fails (st.hashToken req.token) now with
    | error e =>
      cases e with
      | noRows => exact h.move hn (fun r hr ↦ hr) nofun nofun nofun
      | failed => exact h.move hn (fun r hr ↦ hr) nofun nofun nofun
    | ok userID =>
      rw [ExclusiveReset, hfound] at hexcl
      obtain ⟨r, hr, hhash, rfl⟩ := activeResetTokenUser_eq_ok hfound
      exact h.take n hr hhash (hexcl rfl)
  | writing userID =>
    rw [ResetPasswordRequest.advance]
    cases hset : setPassword s.db fails userID hash now with
    | none => exact h.move hn (fun r hr ↦ hr) nofun nofun nofun
    | some db =>
      exact h.move hn (fun r hr ↦ setPassword_eq_some hset ▸ hr) (fun _ ↦ rfl) nofun
        fun _ hu ↦ hu
  | deleting userID =>
    rw [ResetPasswordRequest.advance]
    cases hdelete : deleteResetTokensByUser s.db fails userID with
    | none =>
      have hfails : fails .deleteResetTokensByUser = false := hexcl
      simp [deleteResetTokensByUser, hfails] at hdelete
    | some db =>
      have hrows := deleteResetTokensByUser_eq_some hdelete
      refine h.move hn (fun r hr ↦ (hrows r hr).1) (fun _ ↦ rfl) (fun _ _ ↦ ?_) nofun
      rintro ⟨r, hr, hhash⟩
      exact (hrows r hr).2 (h.owner _ hmem userID rfl r (hrows r hr).1 hhash)
  | returned result =>
    refine h.move hn (fun r hr ↦ hr) (fun hla ↦ hla) (fun hla hha ↦ ?_) nofun
    exact h.oneTime.gone _ hmem hla hha

/-- Every exclusive step keeps each token a one-time ticket. -/
theorem step (h : SpentOnce st s) {l : ResetStep} (hexcl : ExclusiveStep st s l)
    (hs : resetStep st s l = some s') : SpentOnce st s' := by
  cases l with
  | issue fails userID tokenHash id now now' =>
    obtain ⟨hfresh, hs⟩ := Option.ite_none_left_eq_some.mp hs
    obtain rfl := Option.some.inj hs
    have hrows : ∀ r ∈ ((createResetToken s.db fails userID tokenHash (unixMilli (now + hour)) id
        now').getD s.db).tokens.rows, r.tokenHash = tokenHash ∨ r ∈ s.db.tokens.rows := by
      cases hcreate : createResetToken s.db fails userID tokenHash (unixMilli (now + hour)) id
        now' with
      | none => exact fun r hr ↦ .inr hr
      | some db => exact createResetToken_eq_some hcreate
    constructor
    · refine h.oneTime.issue hfresh ?_
      rintro k ⟨r, hr, rfl⟩
      exact (hrows r hr).imp_right fun hr ↦ ⟨r, hr, rfl⟩
    · intro a ha userID' hu r hr hhash
      rcases hrows r hr with heq | hr
      · -- the hash is new, and a request has found only one that was given out
        have hla : a.2.live = true := by
          simp [ResetPhase.live, ResetPhase.holds, Option.mem_def.mp hu]
        exact absurd (heq ▸ hhash ▸ h.oneTime.ofLive a ha hla) hfresh
      · exact h.owner a ha userID' hu r hr hhash
  | request req =>
    obtain rfl := Option.some.inj hs
    have hstart : req.start.live = false ∧ req.start.found = none := by
      unfold ResetPasswordRequest.start
      split
      · exact ⟨rfl, rfl⟩
      · exact ⟨rfl, rfl⟩
    refine ⟨h.oneTime.join hstart.1, fun a ha userID hu ↦ ?_⟩
    rcases List.mem_append.mp ha with ha | ha
    · exact h.owner a ha userID hu
    · rw [List.mem_singleton.mp ha, hstart.2] at hu
      contradiction
  | advance n fails hash now =>
    simp only [resetStep] at hs
    split at hs
    · contradiction
    · next req phase hn =>
      obtain rfl := Option.some.inj hs
      exact h.advance (hexcl _ hn) hn
  | deleteExpired now =>
    obtain rfl := Option.some.inj hs
    exact h.shrink fun r hr ↦ ((Table.mem_delete _ _ r).mp hr).1

/-- Before any request no token is out. -/
theorem init (users : Table UserRow UserRow.clash)
    (credentials : Table CredentialRow CredentialRow.clash) :
    SpentOnce st (.init users credentials) where
  oneTime := .empty fun _ ⟨_, hr, _⟩ ↦ absurd hr List.not_mem_nil
  owner _ ha := absurd ha List.not_mem_nil

end SpentOnce

/-- In every run in which no request finds a token that another one holds, and in which no deletion
after a change fails, each token changes a password at most once. -/
theorem eq_of_changed (st : Store) (users : Table UserRow UserRow.clash)
    (credentials : Table CredentialRow CredentialRow.clash) (steps : List ResetStep)
    (t : ResetState) (hrun : runSteps (resetStep st) (.init users credentials) steps = some t)
    (hexcl : RunMeets (resetStep st) (ExclusiveStep st) (.init users credentials) steps)
    (i j : Nat) (a b : ResetPasswordRequest × ResetPhase) (ha : t.calls[i]? = some a)
    (hb : t.calls[j]? = some b) (htoken : a.1.token = b.1.token)
    (hca : a.2.changed = true) (hcb : b.2.changed = true) : i = j := by
  have ht : SpentOnce st t := runSteps_invariant_of_meets (fun _ _ _ h hP hs ↦ h.step hP hs)
    (.init users credentials) hexcl hrun
  have hlive {phase : ResetPhase} (hc : phase.changed = true) : phase.live = true := by
    simp [ResetPhase.live, hc]
  have hticket : ticket st a = ticket st b := congrArg st.hashToken htoken
  exact ht.oneTime.one i j a b ha hb hticket (hlive hca) (hlive hcb)

/-- The user asks for a reset and sends the form twice. -/
def demoResets : List ResetStep :=
  [.issue (fun _ ↦ false) "u1" (demoStore.hashToken [1]) "t1" 0 0, .request ⟨[1], "first"⟩,
    .request ⟨[1], "second"⟩]

/-- `advance` of the request at `n` without a failing query. -/
def demoReset (n : Nat) : ResetStep := .advance n (fun _ ↦ false) (some "argon2id") 0

/-- A second request that comes after the first changes nothing. -/
theorem eq_of_changed_demo : ∃ t, runSteps (resetStep demoStore) (.init demoUsers Table.empty)
    (demoResets ++ [0, 0, 0, 1].map demoReset) = some t ∧
      ∀ (j : Nat) (b : ResetPasswordRequest × ResetPhase), t.calls[j]? = some b →
        b.1.token = [1] → b.2.changed = true → 0 = j := by
  have hcall : (runSteps (resetStep demoStore) (.init demoUsers Table.empty)
      (demoResets ++ [0, 0, 0, 1].map demoReset)).map
        (fun t ↦ t.calls[0]?.map fun a ↦ (a.1.token, a.2.changed)) =
      some (some (([1] : Bytes), true)) := by
    decide +kernel
  obtain ⟨t, ht, hcall⟩ := Option.map_eq_some_iff.mp hcall
  obtain ⟨a, ha, heq⟩ := Option.map_eq_some_iff.mp hcall
  obtain ⟨htoken, hchanged⟩ := Prod.mk.inj heq
  refine ⟨t, ht, fun j b hb htokenb hcb ↦ ?_⟩
  exact eq_of_changed demoStore demoUsers Table.empty _ t ht (by decide +kernel) 0 j a b ha hb
    (htoken.trans htokenb.symm) hchanged hcb

/-- Both requests look the token up before either deletes it: it changes the password twice. -/
theorem changed_twice : (runSteps (resetStep demoStore) (.init demoUsers Table.empty)
    (demoResets ++ [0, 1, 0, 1, 0, 1].map demoReset)).map
      (·.calls.map fun a ↦ (a.1.token, a.1.newPassword, a.2.changed)) =
    some [(([1] : Bytes), "first", true), ([1], "second", true)] := by
  decide +kernel

/-- So it does when the first request's deletion fails. -/
example : (runSteps (resetStep demoStore) (.init demoUsers Table.empty)
    (demoResets ++ [0, 0].map demoReset ++
      [.advance 0 (· == .deleteResetTokensByUser) none 0] ++ [1, 1, 1].map demoReset)).map
      (·.calls.map fun a ↦ (a.1.newPassword, a.2.changed)) =
    some [("first", true), ("second", true)] := by
  decide +kernel

end Dockstack.Server
