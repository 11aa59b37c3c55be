import Dockstack.Auth.OAuth
import Dockstack.Base.Machine

/-!
# Finding or linking an OAuth user

`findOrLinkOAuthUser` of `internal/server/api/auth/oauth.go:178–197`: up to five statements, between
which other logins and changes of email take theirs, and each of which may fail. A login whose
lookup fails goes on as if nothing were linked, but the pair of a provider and its user is unique,
so it cannot link a second user.
-/

namespace Dockstack.Server

open Dockstack.Base Dockstack.Auth

/-- The arguments of `findOrLinkOAuthUser`. -/
structure OAuthCall where
  providerID : String
  sub : String
  email : String
  deriving DecidableEq

/-- The errors of `findOrLinkOAuthUser`, by where they arise. -/
inductive OAuthError where
  | loadUser
  | findUser
  | createUser
  | linkAccount
  deriving DecidableEq

/-- Where a call is: its next statement, with what it has so far. -/
inductive OAuthPhase where
  | lookingUp
  | loading (userID : String)
  | finding
  | creating
  | loadingNew (userID : String)
  | linking (user : User)
  | returned (result : Except OAuthError User)

/-- A call, where it is, and the id of the user that it has created. -/
structure OAuthLogin where
  call : OAuthCall
  phase : OAuthPhase
  created : Option String

/-- The next statement of a call; `oauth.go:179–196`. `id` is the new UUID. -/
def OAuthLogin.advance (db : OAuthDB) (fails : OAuthFailures) (id : String) (now : Int)
    (a : OAuthLogin) : OAuthDB × OAuthLogin :=
  match a.phase with
  | .lookingUp =>
    match oauthUserID db fails a.call.providerID a.call.sub with
    | some userID => (db, { a with phase := .loading userID })
    | none => (db, { a with phase := .finding })
  | .loading userID =>
    match oauthGetUserByID db fails userID with
    | none => (db, { a with phase := .returned (.error .loadUser) })
    | some user => (db, { a with phase := .returned (.ok user) })
  | .finding =>
    match userByEmail db fails a.call.email with
    | none => (db, { a with phase := .returned (.error .findUser) })
    | some none => (db, { a with phase := .creating })
    | some (some user) => (db, { a with phase := .linking user })
  | .creating =>
    match createUser db fails (oauthUserRow a.call.email id now) with
    | none => (db, { a with phase := .returned (.error .createUser) })
    | some db => (db, { a with phase := .loadingNew id, created := some id })
  | .loadingNew userID =>
    match oauthGetUserByID db fails userID with
    | none => (db, { a with phase := .returned (.error .createUser) })
    | some user => (db, { a with phase := .linking user })
  | .linking user =>
    match linkOAuthAccount db fails user.id a.call.providerID a.call.sub a.call.email id now with
    | none => (db, { a with phase := .returned (.error .linkAccount) })
    | some db => (db, { a with phase := .returned (.ok user) })
  | .returned result => (db, { a with phase := .returned result })

/-- The tables, and every call so far. -/
structure OAuthState where
  db : OAuthDB
  logins : List OAuthLogin

/-- Any users and accounts, no calls. -/
def OAuthState.init (db : OAuthDB) : OAuthState := ⟨db, []⟩

/-- What happens: a call comes in, the `n`-th call takes its next step, or a user changes the
email. -/
inductive OAuthStep where
  | login (call : OAuthCall)
  | advance (n : Nat) (fails : OAuthFailures) (id : String) (now : Int)
  | changeEmail (fails : OAuthFailures) (userID email : String) (now : Int)

/-- One step. -/
def oauthStep (s : OAuthState) : OAuthStep → Option OAuthState
  | .login call => some { s with logins := s.logins ++ [⟨call, .lookingUp, none⟩] }
  | .advance n fails id now =>
    match s.logins[n]? with
    | none => none
    | some a =>
      let (db, a) := a.advance s.db fails id now
      some ⟨db, s.logins.set n a⟩
  | .changeEmail fails userID email now =>
    some { s with db := (changeEmail s.db fails userID email now).getD s.db }

/-- The account of a pair belongs to this user. -/
def LinkedTo (db : OAuthDB) (call : OAuthCall) (userID : String) : Prop :=
  ∃ r ∈ db.accounts.rows, r.providerID = call.providerID ∧ r.providerUserID = call.sub ∧
    r.userID = userID

/-- The call has found its user, or has returned it. -/
def OAuthPhase.user : OAuthPhase → Option String
  | .loading userID => some userID
  | .returned (.ok user) => some user.id
  | _ => none

/-- What a call has found or returned is linked to its pair. -/
def Linked (s : OAuthState) : Prop :=
  ∀ a ∈ s.logins, ∀ userID ∈ a.phase.user, LinkedTo s.db a.call userID

variable {s s' t : OAuthState} {db db' : OAuthDB} {l : OAuthStep}

/-- Accounts are not taken away, so a link stays. -/
theorem LinkedTo.mono {call : OAuthCall} {userID : String} (h : LinkedTo db call userID)
    (hrows : ∀ r ∈ db.accounts.rows, r ∈ db'.accounts.rows) : LinkedTo db' call userID := by
  obtain ⟨r, hr, hpair⟩ := h
  exact ⟨r, hrows r hr, hpair⟩

/-- A pair is linked to one user. -/
theorem LinkedTo.unique {call : OAuthCall} {userID userID' : String}
    (h : LinkedTo db call userID) (h' : LinkedTo db call userID') : userID = userID' := by
  obtain ⟨r, hr, hprovider, hsub, rfl⟩ := h
  obtain ⟨r', hr', hprovider', hsub', rfl⟩ := h'
  rw [db.accounts.eq_of_clash OAuthAccountRow.clash_comm hr hr' (OAuthAccountRow.clash_iff.mpr
    (.inr ⟨hprovider.trans hprovider'.symm, hsub.trans hsub'.symm⟩))]

/-- What the next statement of a call does, by the phase of the call and the statement's outcome:
the tables and the call after it. -/
inductive LoginEffect (db : OAuthDB) (fails : OAuthFailures) (id : String) (now : Int)
    (a : OAuthLogin) : OAuthDB → OAuthLogin → Prop where
  | found {userID : String} (hp : a.phase = .lookingUp)
      (hq : oauthUserID db fails a.call.providerID a.call.sub = some userID) :
      LoginEffect db fails id now a db { a with phase := .loading userID }
  | notFound (hp : a.phase = .lookingUp) :
      LoginEffect db fails id now a db { a with phase := .finding }
  | loaded {userID : String} {user : User} (hp : a.phase = .loading userID)
      (hq : oauthGetUserByID db fails userID = some user) :
      LoginEffect db fails id now a db { a with phase := .returned (.ok user) }
  | unknown (hp : a.phase = .finding) :
      LoginEffect db fails id now a db { a with phase := .creating }
  | known {user : User} (hp : a.phase = .finding)
      (hq : userByEmail db fails a.call.email = some (some user)) :
      LoginEffect db fails id now a db { a with phase := .linking user }
  | created {db' : OAuthDB} (hp : a.phase = .creating)
      (hq : createUser db fails (oauthUserRow a.call.email id now) = some db') :
      LoginEffect db fails id now a db' { a with phase := .loadingNew id, created := some id }
  | loadedNew {userID : String} {user : User} (hp : a.phase = .loadingNew userID)
      (hq : oauthGetUserByID db fails userID = some user) :
      LoginEffect db fails id now a db { a with phase := .linking user }
  | linked {user : User} {db' : OAuthDB} (hp : a.phase = .linking user)
      (hq : linkOAuthAccount db fails user.id a.call.providerID a.call.sub a.call.email id now =
        some db') :
      LoginEffect db fails id now a db' { a with phase := .returned (.ok user) }
  | failed {e : OAuthError}
      (hp : (∃ userID, a.phase = .loading userID) ∨ a.phase = .finding ∨ a.phase = .creating) :
      LoginEffect db fails id now a db { a with phase := .returned (.error e) }
  | failedNew {userID : String} (hp : a.phase = .loadingNew userID)
      (hq : oauthGetUserByID db fails userID = none) :
      LoginEffect db fails id now a db { a with phase := .returned (.error .createUser) }
  | failedLink {user : User} (hp : a.phase = .linking user)
      (hq : linkOAuthAccount db fails user.id a.call.providerID a.call.sub a.call.email id now =
        none) :
      LoginEffect db fails id now a db { a with phase := .returned (.error .linkAccount) }
  | returned {result : Except OAuthError User} (hp : a.phase = .returned result) :
      LoginEffect db fails id now a db a

/-- Every statement has one of these effects. -/
theorem advance_effect (a : OAuthLogin) (db : OAuthDB) (fails : OAuthFailures) (id : String)
    (now : Int) : LoginEffect db fails id now a (a.advance db fails id now).1
      (a.advance db fails id now).2 := by
  unfold OAuthLogin.advance
  cases hphase : a.phase with
  | lookingUp =>
    dsimp only
    cases hq : oauthUserID db fails a.call.providerID a.call.sub with
    | none => exact .notFound hphase
    | some userID => exact .found hphase hq
  | loading userID =>
    dsimp only
    cases hq : oauthGetUserByID db fails userID with
    | none => exact .failed (.inl ⟨userID, hphase⟩)
    | some user => exact .loaded hphase hq
  | finding =>
    dsimp only
    cases hq : userByEmail db fails a.call.email with
    | none => exact .failed (.inr (.inl hphase))
    | some user =>
      cases user with
      | none => exact .unknown hphase
      | some user => exact .known hphase hq
  | creating =>
    dsimp only
    cases hq : createUser db fails (oauthUserRow a.call.email id now) with
    | none => exact .failed (.inr (.inr hphase))
    | some db' => exact .created hphase hq
  | loadingNew userID =>
    dsimp only
    cases hq : oauthGetUserByID db fails userID with
    | none => exact .failedNew hphase hq
    | some user => exact .loadedNew hphase hq
  | linking user =>
    dsimp only
    cases hq : linkOAuthAccount db fails user.id a.call.providerID a.call.sub a.call.email id
      now with
    | none => exact .failedLink hphase hq
    | some db' => exact .linked hphase hq
  | returned result =>
    have heq : ({ a with phase := .returned result } : OAuthLogin) = a := by rw [← hphase]
    dsimp only
    rw [heq]
    exact .returned hphase

/-- A statement adds accounts at most, and links what its call finds or returns. -/
theorem LoginEffect.linkedTo {fails : OAuthFailures} {id : String} {now : Int} {a a' : OAuthLogin}
    (he : LoginEffect db fails id now a db' a')
    (ha : ∀ userID ∈ a.phase.user, LinkedTo db a.call userID) :
    (∀ r ∈ db.accounts.rows, r ∈ db'.accounts.rows) ∧ a'.call = a.call ∧
      ∀ userID ∈ a'.phase.user, LinkedTo db' a.call userID := by
  cases he with
  | found hp hq =>
    refine ⟨fun r hr ↦ hr, rfl, fun userID hu ↦ ?_⟩
    obtain rfl := Option.some.inj hu
    exact oauthUserID_eq_some hq
  | @loaded userID user hp hq =>
    refine ⟨fun r hr ↦ hr, rfl, fun userID' hu ↦ ?_⟩
    obtain rfl := Option.some.inj hu
    rw [(oauthGetUserByID_eq_some hq).1]
    exact ha userID (by rw [hp]; rfl)
  | created hp hq => exact ⟨fun r hr ↦ (createUser_eq_some hq).1 ▸ hr, rfl, nofun⟩
  | linked hp hq =>
    obtain ⟨-, hrows, hlinked⟩ := linkOAuthAccount_eq_some hq
    refine ⟨hrows, rfl, fun userID hu ↦ ?_⟩
    obtain rfl := Option.some.inj hu
    exact hlinked
  | returned hp => exact ⟨fun r hr ↦ hr, rfl, ha⟩
  | notFound hp => exact ⟨fun r hr ↦ hr, rfl, nofun⟩
  | unknown hp => exact ⟨fun r hr ↦ hr, rfl, nofun⟩
  | known hp hq => exact ⟨fun r hr ↦ hr, rfl, nofun⟩
  | loadedNew hp hq => exact ⟨fun r hr ↦ hr, rfl, nofun⟩
  | failed hp => exact ⟨fun r hr ↦ hr, rfl, nofun⟩
  | failedNew hp hq => exact ⟨fun r hr ↦ hr, rfl, nofun⟩
  | failedLink hp hq => exact ⟨fun r hr ↦ hr, rfl, nofun⟩

/-- A call takes its next step. -/
theorem oauthStep_advance {n : Nat} {fails : OAuthFailures} {id : String} {now : Int}
    (hs : oauthStep s (.advance n fails id now) = some s') : ∃ a, s.logins[n]? = some a ∧
      s' = ⟨(a.advance s.db fails id now).1, s.logins.set n (a.advance s.db fails id now).2⟩ := by
  simp only [oauthStep] at hs
  split at hs
  · contradiction
  · next a hn => exact ⟨a, hn, (Option.some.inj hs).symm⟩

/-- A step keeps every account, and what is found or returned linked. -/
theorem Linked.step (h : Linked s) (hs : oauthStep s l = some s') :
    Linked s' ∧ ∀ r ∈ s.db.accounts.rows, r ∈ s'.db.accounts.rows := by
  cases l with
  | login call =>
    obtain rfl := Option.some.inj hs
    refine ⟨fun a ha userID hu ↦ ?_, fun r hr ↦ hr⟩
    rcases List.mem_append.mp ha with ha | ha
    · exact h a ha userID hu
    · rw [List.mem_singleton.mp ha] at hu
      contradiction
  | advance n fails id now =>
    obtain ⟨a, hn, rfl⟩ := oauthStep_advance hs
    have hmem := List.mem_of_getElem? hn
    obtain ⟨hrows, hcall, hlinked⟩ := (advance_effect a s.db fails id now).linkedTo (h a hmem)
    refine ⟨fun b hb userID hu ↦ ?_, hrows⟩
    rcases List.mem_or_eq_of_mem_set hb with hb | rfl
    · exact (h b hb userID hu).mono hrows
    · rw [hcall]
      exact hlinked userID hu
  | changeEmail fails userID email now =>
    obtain rfl := Option.some.inj hs
    have hrows : ∀ r ∈ s.db.accounts.rows,
        r ∈ ((changeEmail s.db fails userID email now).getD s.db).accounts.rows := by
      intro r hr
      cases hchange : changeEmail s.db fails userID email now with
      | none => exact hr
      | some db => exact (changeEmail_eq_some hchange).1 ▸ hr
    exact ⟨fun a ha userID' hu ↦ (h a ha userID' hu).mono hrows, hrows⟩

/-- Whatever fails and however the calls interleave: all calls for one pair that succeed return one
user, the pair has one account at most, and an account stays as it is. -/
theorem oauth_identity_stable (db : OAuthDB) (steps steps' : List OAuthStep)
    (hs : runSteps oauthStep (.init db) steps = some s)
    (ht : runSteps oauthStep s steps' = some t) :
    (∀ a ∈ t.logins, ∀ b ∈ t.logins, ∀ user user', a.phase = .returned (.ok user) →
      b.phase = .returned (.ok user') → a.call.providerID = b.call.providerID →
      a.call.sub = b.call.sub → user.id = user'.id) ∧
    (∀ r ∈ t.db.accounts.rows, ∀ r' ∈ t.db.accounts.rows, r.providerID = r'.providerID →
      r.providerUserID = r'.providerUserID → r = r') ∧
    (∀ r ∈ s.db.accounts.rows, r ∈ t.db.accounts.rows) := by
  have hlinked : Linked s :=
    runSteps_invariant (fun _ _ _ h hs ↦ (Linked.step h hs).1)
      (by simp [Linked, OAuthState.init]) hs
  obtain ⟨hlinked', hrows⟩ : Linked t ∧ ∀ r ∈ s.db.accounts.rows, r ∈ t.db.accounts.rows := by
    refine runSteps_invariant (I := fun u ↦ Linked u ∧
      ∀ r ∈ s.db.accounts.rows, r ∈ u.db.accounts.rows) ?_ ⟨hlinked, fun r hr ↦ hr⟩ ht
    rintro u l u' ⟨hu, hru⟩ hstep
    obtain ⟨hu', hru'⟩ := hu.step hstep
    exact ⟨hu', fun r hr ↦ hru' r (hru r hr)⟩
  refine ⟨fun a ha b hb user user' hpa hpb hprovider hsub ↦ ?_, fun r hr r' hr' hprovider hsub ↦ ?_,
    hrows⟩
  · have hla := hlinked' a ha user.id (by rw [hpa]; rfl)
    have hlb := hlinked' b hb user'.id (by rw [hpb]; rfl)
    refine hla.unique ?_
    rwa [LinkedTo, ← hprovider, ← hsub] at hlb
  · exact t.db.accounts.eq_of_clash OAuthAccountRow.clash_comm hr hr'
      (OAuthAccountRow.clash_iff.mpr (.inr ⟨hprovider, hsub⟩))

/-- `advance` of the call at `n` with the failing queries and the new UUID. -/
def demoAdvanceLogin (fails : OAuthQuery → Bool) (id : String) (n : Nat) : OAuthStep :=
  .advance n fails id 0

/-- A first login with an email, and a second one of the same subject with another. -/
def demoLogins : List OAuthStep :=
  [.login ⟨"oidc", "sub", "a@example.com"⟩, .login ⟨"oidc", "sub", "b@example.com"⟩] ++
    [0, 0, 0, 0, 0].map (demoAdvanceLogin (fun _ ↦ false) "u1") ++
    [1, 1].map (demoAdvanceLogin (fun _ ↦ false) "u2")

/-- The second login returns the user of the first. -/
theorem oauth_identity_stable_demo :
    ∃ t, runSteps oauthStep (.init ⟨Table.empty, Table.empty⟩) demoLogins = some t ∧
      ∀ a ∈ t.logins, ∀ b ∈ t.logins, ∀ user user', a.phase = .returned (.ok user) →
        b.phase = .returned (.ok user') → a.call.providerID = b.call.providerID →
        a.call.sub = b.call.sub → user.id = user'.id := by
  obtain ⟨t, ht⟩ := Option.isSome_iff_exists.mp (by decide +kernel :
    (runSteps oauthStep (.init ⟨Table.empty, Table.empty⟩) demoLogins).isSome = true)
  exact ⟨t, ht, (oauth_identity_stable ⟨Table.empty, Table.empty⟩ demoLogins [] ht rfl).1⟩

/-- Both logins succeed, with one user. -/
example : (runSteps oauthStep (.init ⟨Table.empty, Table.empty⟩) demoLogins).map
    (·.logins.map fun a ↦ a.phase.user) = some [some "u1", some "u1"] := by
  decide +kernel

end Dockstack.Server
