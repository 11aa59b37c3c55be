import Dockstack.Base.Utf8
import Dockstack.Db.Seed
import Dockstack.Server.OAuthLink
import Dockstack.Server.UpdateUserRuns

/-!
# The rows of the users

Everything that writes the `users` table, statement by statement and in any order: `Seed` at a
start-up, OAuth logins, changes of the email and updates of a profile. Ids, emails and usernames
are unique in the table, and only usernames that have been checked are written. A login that creates
its user inserts the empty role (`internal/auth/oauth.go:48–56`), so the schema's default does not
apply.
-/

namespace Dockstack.Server

open Dockstack.Base Dockstack.Auth

/-- `handleChangeEmail`; `auth.go:317–333`. `user` is the user of the session. A change that the
database does not fail fails on a taken email. -/
def handleChangeEmail (db : OAuthDB) (fails : OAuthFailures) (user : Option User) (email : String)
    (now : Int) : OAuthDB × Except HTTPError Unit :=
  match user with
  | none => (db, .error ⟨401, "Unauthorized"⟩)
  | some user =>
    if email = "" ∨ '@' ∉ email.toList then (db, .error ⟨400, "invalid email"⟩)
    else
      match changeEmail db fails user.id email now with
      | none =>
        (db, .error (if fails .changeUserEmail then ⟨500, "failed to change email"⟩
          else ⟨409, "email already in use"⟩))
      | some db => (db, .ok ())

/-- A request that updates the profile of `user`, and where it is. -/
structure ProfilePatch where
  user : User
  req : UpdateUserRequest
  phase : UpdatePhase

/-- The users and credentials with the call of `Seed`, the accounts, and every login and every
update of a profile so far. -/
structure UsersState extends Db.SeedState where
  accounts : Table OAuthAccountRow OAuthAccountRow.clash
  logins : List OAuthLogin
  patches : List ProfilePatch

/-- An empty database, and nothing has happened. -/
def UsersState.init : UsersState := ⟨.init, Table.empty, [], []⟩

/-- The tables of an OAuth login. -/
def UsersState.oauthDB (s : UsersState) : OAuthDB := ⟨s.users, s.accounts⟩

/-- What happens: a step of `Seed`, a login or an update of a profile comes in or takes its next
statement, or a user changes the email. -/
inductive UsersStep where
  | seed (l : Db.SeedStep)
  | login (call : OAuthCall)
  | advanceLogin (n : Nat) (fails : OAuthFailures) (id : String) (now : Int)
  | changeEmail (user : Option User) (email : String) (fails : OAuthFailures) (now : Int)
  | patch (user : User) (req : UpdateUserRequest)
  | advancePatch (n : Nat) (fails : ProfileFailures) (now : Int)

/-- One step. -/
def usersStep (s : UsersState) : UsersStep → Option UsersState
  | .seed l => (Db.seedStep s.toSeedState l).map fun seed ↦ { s with toSeedState := seed }
  | .login call => some { s with logins := s.logins ++ [⟨call, .lookingUp, none⟩] }
  | .advanceLogin n fails id now =>
    match s.logins[n]? with
    | none => none
    | some a =>
      let (db, a) := a.advance s.oauthDB fails id now
      some { s with users := db.users, accounts := db.accounts, logins := s.logins.set n a }
  | .changeEmail user email fails now =>
    some { s with users := (handleChangeEmail s.oauthDB fails user email now).1.users }
  | .patch user req => some { s with patches := s.patches ++ [⟨user, req, req.start⟩] }
  | .advancePatch n fails now =>
    match s.patches[n]? with
    | none => none
    | some a =>
      let (users, phase) := a.req.advance a.user fails now s.users a.phase
      some { s with users := users, patches := s.patches.set n { a with phase := phase } }

/-- A username: 3 to 32 letters, digits, `-` and `_`. -/
def IsUsername (username : String) : Prop :=
  3 ≤ username.toList.length ∧ username.toList.length ≤ 32 ∧
    ∀ c ∈ username.toList, c.isAlphanum = true ∨ c = '_' ∨ c = '-'

/-- What holds of the users: their roles are known, no two have the same email or the same username,
and usernames are well-formed. -/
structure UsersWellFormed (users : UserTable) : Prop where
  roles : ∀ r ∈ users.rows, r.role = "admin" ∨ r.role = "user"
  emails : users.rows.Pairwise (·.email ≠ ·.email)
  usernames : users.rows.Pairwise fun a b ↦ a.username.isSome = true → a.username ≠ b.username
  valid : ∀ r ∈ users.rows, ∀ username ∈ r.username, IsUsername username

/-- A login's insertion of its user goes through: the database does not fail it, and neither the id
nor the email is taken. -/
def CreatesUser (users : UserTable) (fails : OAuthFailures) (id : String) (a : OAuthLogin) : Prop :=
  a.phase = .creating ∧ fails .createUser = false ∧
    ∀ r ∈ users.rows, r.id ≠ id ∧ r.email ≠ a.call.email

/-- The step is not a login's creation of a user. -/
def CreatesNone (s : UsersState) : UsersStep → Prop
  | .advanceLogin n fails id _ => ∀ a ∈ s.logins[n]?, ¬ CreatesUser s.users fails id a
  | _ => True

/-- What a step does to the users: nothing, or one of the five writes. -/
inductive RowsChange (s : UsersState) (l : UsersStep) : UserTable → Prop where
  | same (hl : CreatesNone s l) : RowsChange s l s.users
  | seeded {adminEmail id : String} {now : Int} {users : UserTable} (hl : CreatesNone s l)
      (h : s.users.insert (Db.adminRow adminEmail id now) = some users) : RowsChange s l users
  | created {email id : String} {now : Int} {users : UserTable} (hl : ¬ CreatesNone s l)
      (h : s.users.insert (oauthUserRow email id now) = some users) : RowsChange s l users
  | emailChanged {userID email : String} {now : Int} {users : UserTable} (hl : CreatesNone s l)
      (h : s.users.update? (·.id == userID)
        (fun r ↦ { r with email := email, updatedAt := unixMilli now }) = some users) :
      RowsChange s l users
  | patched {a : ProfilePatch} {cur : UserRow} {username : Option String} {now : Int}
      {users : UserTable} (hl : CreatesNone s l) (ha : a ∈ s.patches)
      (hphase : a.phase = .writing cur username)
      (h : writeUser s.users false (updateUserParams cur a.user.id a.req.name a.req.avatar username
        now) = some users) : RowsChange s l users

variable {s s' t : UsersState} {l : UsersStep}

private theorem LoginEffect.users_eq {db db' : OAuthDB} {fails : OAuthFailures} {id : String}
    {now : Int} {a a' : OAuthLogin} (he : LoginEffect db fails id now a db' a')
    (hp : a.phase ≠ .creating) : db'.users = db.users := by
  cases he with
  | created hcreating => exact absurd hcreating hp
  | linked _ hq => exact (linkOAuthAccount_eq_some hq).1
  | _ => rfl

private theorem advance_creating (db : OAuthDB) (fails : OAuthFailures) (id : String) (now : Int)
    {a : OAuthLogin} (hp : a.phase = .creating) :
    (CreatesUser db.users fails id a ∧
        db.users.insert (oauthUserRow a.call.email id now) =
          some (a.advance db fails id now).1.users) ∨
      (¬ CreatesUser db.users fails id a ∧ (a.advance db fails id now).1.users = db.users) := by
  have hnone : createUser db fails (oauthUserRow a.call.email id now) = none ↔ _ :=
    createUser_oauthUserRow_eq_none
  rw [OAuthLogin.advance, hp]
  dsimp only
  cases hq : createUser db fails (oauthUserRow a.call.email id now) with
  | none =>
    refine .inr ⟨?_, rfl⟩
    rintro ⟨-, hfails, hnew⟩
    rcases hnone.mp hq with h | ⟨r, hr, hrow⟩
    · rw [hfails] at h
      contradiction
    · exact hrow.elim (hnew r hr).1 (hnew r hr).2
  | some db' =>
    obtain ⟨hfails, hinsert⟩ := Option.ite_none_left_eq_some.mp hq
    obtain ⟨users, husers, rfl⟩ := Option.map_eq_some_iff.mp hinsert
    refine .inl ⟨⟨hp, Bool.not_eq_true _ ▸ hfails, fun r hr ↦ ?_⟩, husers⟩
    rw [← not_or]
    intro hrow
    rw [hnone.mpr (.inr ⟨r, hr, hrow⟩)] at hq
    contradiction

private theorem handleChangeEmail_users (db : OAuthDB) (fails : OAuthFailures) (user : Option User)
    (email : String) (now : Int) :
    (handleChangeEmail db fails user email now).1.users = db.users ∨
      ∃ userID, db.users.update? (·.id == userID)
        (fun r ↦ { r with email := email, updatedAt := unixMilli now }) =
          some (handleChangeEmail db fails user email now).1.users := by
  unfold handleChangeEmail
  split
  · exact .inl rfl
  · next user =>
    split
    · exact .inl rfl
    · split
      · exact .inl rfl
      · next db' hchange =>
        obtain ⟨-, hupdate⟩ := Option.ite_none_left_eq_some.mp hchange
        obtain ⟨users, husers, rfl⟩ := Option.map_eq_some_iff.mp hupdate
        exact .inr ⟨user.id, husers⟩

private theorem usersStep_advanceLogin {n : Nat} {fails : OAuthFailures} {id : String} {now : Int}
    (h : usersStep s (.advanceLogin n fails id now) = some s') : ∃ a, s.logins[n]? = some a ∧
      s' = { s with
        users := (a.advance s.oauthDB fails id now).1.users
        accounts := (a.advance s.oauthDB fails id now).1.accounts
        logins := s.logins.set n (a.advance s.oauthDB fails id now).2 } := by
  simp only [usersStep] at h
  split at h
  · contradiction
  · next a hn => exact ⟨a, hn, (Option.some.inj h).symm⟩

private theorem usersStep_advancePatch {n : Nat} {fails : ProfileFailures} {now : Int}
    (h : usersStep s (.advancePatch n fails now) = some s') : ∃ a, s.patches[n]? = some a ∧
      s' = { s with
        users := (a.req.advance a.user fails now s.users a.phase).1
        patches := s.patches.set n
          { a with phase := (a.req.advance a.user fails now s.users a.phase).2 } } := by
  simp only [usersStep] at h
  split at h
  · contradiction
  · next a hn => exact ⟨a, hn, (Option.some.inj h).symm⟩

/-- Every step changes the users in one of these ways. -/
theorem rowsChange_of_step (h : usersStep s l = some s') : RowsChange s l s'.users := by
  cases l with
  | seed l =>
    obtain ⟨seed, hseed, rfl⟩ := Option.map_eq_some_iff.mp h
    rcases Db.seedStep_users hseed with husers | ⟨adminEmail, id, now, hinsert⟩
    · exact husers ▸ .same trivial
    · exact .seeded trivial hinsert
  | login call =>
    obtain rfl := Option.some.inj h
    exact .same trivial
  | advanceLogin n fails id now =>
    obtain ⟨a, hn, rfl⟩ := usersStep_advanceLogin h
    have hnone : CreatesNone s (.advanceLogin n fails id now) ↔
        ¬ CreatesUser s.users fails id a := by
      rw [CreatesNone, hn]
      exact ⟨fun hl ↦ hl a rfl, fun hl b hb ↦ Option.some.inj hb ▸ hl⟩
    by_cases hp : a.phase = .creating
    · rcases advance_creating s.oauthDB fails id now hp with
        ⟨hcreates, hinsert⟩ | ⟨hcreates, husers⟩
      · exact .created (fun hl ↦ hnone.mp hl hcreates) hinsert
      · dsimp only
        rw [husers]
        exact .same (hnone.mpr hcreates)
    · dsimp only
      rw [(advance_effect a s.oauthDB fails id now).users_eq hp]
      exact .same (hnone.mpr fun hcreates ↦ hp hcreates.1)
  | changeEmail user email fails now =>
    obtain rfl := Option.some.inj h
    rcases handleChangeEmail_users s.oauthDB fails user email now with husers | ⟨userID, hupdate⟩
    · dsimp only
      rw [husers]
      exact .same trivial
    · exact .emailChanged trivial hupdate
  | patch user req =>
    obtain rfl := Option.some.inj h
    exact .same trivial
  | advancePatch n fails now =>
    obtain ⟨a, hn, rfl⟩ := usersStep_advancePatch h
    have hmoved := moved_advance a.req a.user fails now s.users a.phase
    dsimp only
    generalize hphase : a.phase = phase at hmoved ⊢
    generalize (a.req.advance a.user fails now s.users phase).1 = users' at hmoved ⊢
    generalize (a.req.advance a.user fails now s.users phase).2 = phase' at hmoved
    cases hmoved with
    | wrote cur username now users' hwrite =>
      exact .patched trivial (List.mem_of_getElem? hn) hphase hwrite
    | failed | checked | read | answered | resting => exact .same trivial

/-! ## Roles -/

/-- Every role is known. -/
def RolesKnown (s : UsersState) : Prop := ∀ r ∈ s.users.rows, r.role = "admin" ∨ r.role = "user"

/-- A row has the empty role. -/
def RoleMissing (s : UsersState) : Prop := ∃ r ∈ s.users.rows, r.role = ""

private theorem role_of_update {users users' : UserTable} {p : UserRow → Bool}
    {f : UserRow → UserRow} (h : users.update? p f = some users') (hf : ∀ r, (f r).role = r.role) :
    (∀ r' ∈ users'.rows, ∃ r ∈ users.rows, r'.role = r.role) ∧
      ∀ r ∈ users.rows, ∃ r' ∈ users'.rows, r'.role = r.role := by
  have hrole (r : UserRow) : (if p r then f r else r).role = r.role := by
    split
    · exact hf r
    · rfl
  constructor
  · intro r' hr'
    obtain ⟨r, hr, rfl⟩ := (Table.mem_update? h r').mp hr'
    exact ⟨r, hr, hrole r⟩
  · intro r hr
    exact ⟨_, (Table.mem_update? h _).mpr ⟨r, hr, rfl⟩, hrole r⟩

private theorem RowsChange.roles {users : UserTable} (h : RowsChange s l users) :
    (∀ r ∈ users.rows, (∃ r₀ ∈ s.users.rows, r.role = r₀.role) ∨ r.role = "admin" ∨
      ¬ CreatesNone s l) ∧
    (∀ r ∈ s.users.rows, ∃ r' ∈ users.rows, r'.role = r.role) ∧
    (¬ CreatesNone s l → ∃ r ∈ users.rows, r.role = "") := by
  cases h with
  | same hl =>
    exact ⟨fun r hr ↦ .inl ⟨r, hr, rfl⟩, fun r hr ↦ ⟨r, hr, rfl⟩, fun hnot ↦ absurd hl hnot⟩
  | seeded hl hinsert =>
    have hmem := Table.mem_insert hinsert
    refine ⟨fun r hr ↦ ?_, fun r hr ↦ ⟨r, (hmem r).mpr (.inr hr), rfl⟩, fun hnot ↦ absurd hl hnot⟩
    rcases (hmem r).mp hr with rfl | hr
    · exact .inr (.inl rfl)
    · exact .inl ⟨r, hr, rfl⟩
  | created hl hinsert =>
    have hmem := Table.mem_insert hinsert
    exact ⟨fun r hr ↦ .inr (.inr hl), fun r hr ↦ ⟨r, (hmem r).mpr (.inr hr), rfl⟩,
      fun _ ↦ ⟨_, (hmem _).mpr (.inl rfl), rfl⟩⟩
  | emailChanged hl hupdate =>
    obtain ⟨hnew, hold⟩ := role_of_update hupdate fun _ ↦ rfl
    exact ⟨fun r hr ↦ .inl (hnew r hr), hold, fun hnot ↦ absurd hl hnot⟩
  | patched hl ha hphase hwrite =>
    obtain ⟨-, hupdate⟩ := Option.ite_none_left_eq_some.mp hwrite
    obtain ⟨hnew, hold⟩ := role_of_update hupdate fun _ ↦ rfl
    exact ⟨fun r hr ↦ .inl (hnew r hr), hold, fun hnot ↦ absurd hl hnot⟩

/-! ## Usernames -/

/-- The username that an update has been given, or has read, is valid. -/
def UpdatePhase.Checked : UpdatePhase → Prop
  | .checking username => validUsername username = true
  | .reading username => ∀ name ∈ username, validUsername name = true
  | .writing cur username => ∀ name ∈ username.or cur.username, validUsername name = true
  | _ => True

/-- Usernames are valid, those included that updates will write. -/
structure UsernamesValid (s : UsersState) : Prop where
  rows : ∀ r ∈ s.users.rows, ∀ username ∈ r.username, validUsername username = true
  patches : ∀ a ∈ s.patches, a.phase.Checked

/-- What is valid is a username. -/
theorem isUsername_of_validUsername {username : String} (h : validUsername username = true) :
    IsUsername username := by
  simp only [validUsername, usernameRe, Bool.and_eq_true, decide_eq_true_eq, List.all_eq_true] at h
  obtain ⟨⟨hmin, hmax⟩, -, hchars⟩ := h
  have hallowed : ∀ c ∈ username.toList, c.isAlphanum = true ∨ c = '_' ∨ c = '-' := by
    intro c hc
    have hor := hchars c hc
    simpa only [Bool.or_eq_true, beq_iff_eq, or_assoc] using hor
  have hascii : ∀ c ∈ username.toList, c.val ≤ 127 := by
    intro c hc
    rw [UInt32.le_iff_toNat_le]
    rcases hallowed c hc with h | rfl | rfl
    · rw [isAlphanum_iff, isUpper_iff, isLower_iff, isDigit_iff] at h
      change c.toNat ≤ 127
      omega
    · decide
    · decide
  -- the code counts bytes, of which each of these characters takes one
  have hlength : username.utf8ByteSize = username.toList.length := by
    rw [← length_utf8Encode, length_utf8Encode_of_ascii hascii]
  rw [hlength] at hmin hmax
  exact ⟨hmin, hmax, hallowed⟩

private theorem start_checked (req : UpdateUserRequest) : req.start.Checked := by
  unfold UpdateUserRequest.start
  cases hparse : parseUsername req.username with
  | error err => exact trivial
  | ok username =>
    cases username with
    | none => exact nofun
    | some username =>
      unfold parseUsername at hparse
      split at hparse
      · cases hparse
      · dsimp only at hparse
        split at hparse
        · cases hparse
        · split at hparse
          · next hvalid =>
            obtain rfl := Option.some.inj (Except.ok.inj hparse)
            exact hvalid
          · cases hparse

private theorem Moved.phase_checked {req : UpdateUserRequest} {user : User}
    {users users' : UserTable} {phase phase' : UpdatePhase}
    (hmoved : Moved req user users phase users' phase')
    (hrows : ∀ r ∈ users.rows, ∀ username ∈ r.username, validUsername username = true)
    (hphase : phase.Checked) : phase'.Checked := by
  cases hmoved with
  | checked username =>
    intro name hname
    obtain rfl := Option.some.inj hname
    exact hphase
  | read username cur hcur hid =>
    intro name hname
    rcases Option.or_eq_some_iff.mp hname with hname | ⟨-, hname⟩
    · exact hphase name hname
    · exact hrows cur hcur name hname
  | failed | wrote | answered | resting => trivial

private theorem RowsChange.usernames {users : UserTable} (h : RowsChange s l users)
    (hvalid : UsernamesValid s) :
    ∀ r ∈ users.rows, ∀ username ∈ r.username, validUsername username = true := by
  intro r hr username husername
  cases h with
  | same hl => exact hvalid.rows r hr username husername
  | seeded hl hinsert =>
    rcases (Table.mem_insert hinsert r).mp hr with rfl | hr
    · obtain rfl := Option.some.inj husername
      decide
    · exact hvalid.rows r hr username husername
  | created hl hinsert =>
    rcases (Table.mem_insert hinsert r).mp hr with rfl | hr
    · cases husername
    · exact hvalid.rows r hr username husername
  | emailChanged hl hupdate =>
    obtain ⟨r₀, hr₀, rfl⟩ := (Table.mem_update? hupdate _).mp hr
    split at husername <;> exact hvalid.rows r₀ hr₀ username husername
  | patched hl ha hphase hwrite =>
    obtain ⟨r₀, hr₀, rfl⟩ := (mem_writeUser hwrite _).mp hr
    split at husername
    · have hchecked := hvalid.patches _ ha
      rw [hphase] at hchecked
      exact hchecked username husername
    · exact hvalid.rows r₀ hr₀ username husername

/-- A step keeps usernames valid. -/
theorem UsernamesValid.step (hvalid : UsernamesValid s) (h : usersStep s l = some s') :
    UsernamesValid s' := by
  refine ⟨(rowsChange_of_step h).usernames hvalid, ?_⟩
  cases l with
  | seed l =>
    obtain ⟨seed, -, rfl⟩ := Option.map_eq_some_iff.mp h
    exact hvalid.patches
  | login call =>
    obtain rfl := Option.some.inj h
    exact hvalid.patches
  | advanceLogin n fails id now =>
    obtain ⟨a, hn, rfl⟩ := usersStep_advanceLogin h
    exact hvalid.patches
  | changeEmail user email fails now =>
    obtain rfl := Option.some.inj h
    exact hvalid.patches
  | patch user req =>
    obtain rfl := Option.some.inj h
    intro a ha
    rcases List.mem_append.mp ha with ha | ha
    · exact hvalid.patches a ha
    · rw [List.mem_singleton.mp ha]
      exact start_checked req
  | advancePatch n fails now =>
    obtain ⟨a, hn, rfl⟩ := usersStep_advancePatch h
    intro b hb
    rcases List.mem_or_eq_of_mem_set hb with hb | rfl
    · exact hvalid.patches b hb
    · exact (moved_advance a.req a.user fails now s.users a.phase).phase_checked hvalid.rows
        (hvalid.patches a (List.mem_of_getElem? hn))

/-! ## Every run -/

/-- In every run the rows are well-formed if their roles are known. -/
theorem usersWellFormed_of_rolesKnown {steps : List UsersStep}
    (h : runSteps usersStep .init steps = some t) (hroles : RolesKnown t) :
    UsersWellFormed t.users := by
  have hinit : UsernamesValid .init :=
    ⟨fun _ hr ↦ absurd hr List.not_mem_nil, fun _ ha ↦ absurd ha List.not_mem_nil⟩
  have hvalid : UsernamesValid t :=
    runSteps_invariant (fun _ _ _ hvalid hs ↦ UsernamesValid.step hvalid hs) hinit h
  refine ⟨hroles, t.users.unique.imp ?_, t.users.unique.imp ?_, fun r hr username husername ↦
    isUsername_of_validUsername (hvalid.rows r hr username husername)⟩
  · intro a b hab heq
    rw [UserRow.clash_iff.mpr (.inr (.inl heq))] at hab
    contradiction
  · intro a b hab hsome heq
    rw [UserRow.clash_iff.mpr (.inr (.inr ⟨hsome, heq⟩))] at hab
    contradiction

/-- From an empty database, whatever fails and however the statements interleave: the rows of the
users are well-formed exactly when no login has created its user. -/
theorem usersWellFormed_iff {steps : List UsersStep}
    (h : runSteps usersStep .init steps = some t) :
    UsersWellFormed t.users ↔ RunMeets usersStep CreatesNone .init steps := by
  have hruns : (RunMeets usersStep CreatesNone .init steps ∧ RolesKnown t) ∨
      (¬ RunMeets usersStep CreatesNone .init steps ∧ RoleMissing t) := by
    refine runMeets_or_lost (fun s l s' hknown hl hs r hr ↦ ?_) (fun s l s' _ hl hs ↦ ?_)
      (fun s l s' hmissing hs ↦ ?_) (fun r hr ↦ absurd hr List.not_mem_nil) h
    · obtain ⟨hnew, -, -⟩ := (rowsChange_of_step hs).roles
      rcases hnew r hr with ⟨r₀, hr₀, hrole⟩ | hadmin | hnot
      · rw [hrole]
        exact hknown r₀ hr₀
      · exact .inl hadmin
      · exact absurd hl hnot
    · obtain ⟨-, -, hempty⟩ := (rowsChange_of_step hs).roles
      exact hempty hl
    · obtain ⟨-, hold, -⟩ := (rowsChange_of_step hs).roles
      obtain ⟨r, hr, hrole⟩ := hmissing
      obtain ⟨r', hr', heq⟩ := hold r hr
      exact ⟨r', hr', heq.trans hrole⟩
  rcases hruns with ⟨hmeets, hknown⟩ | ⟨hnot, r, hr, hrole⟩
  · exact iff_of_true (usersWellFormed_of_rolesKnown h hknown) hmeets
  · refine iff_of_false (fun hwell ↦ ?_) hnot
    rcases hwell.roles r hr with h | h <;> exact absurd (hrole.symm.trans h) (by decide)

/-- A start-up whose call of `Seed` returns. -/
def seedSteps : List UsersStep :=
  .seed (.start "admin@example.com") :: List.replicate 4 (.seed Db.demoAdvanceSeed)

/-- The admin changes the email and then the name and the username. -/
def profileSteps : List UsersStep :=
  let admin := Store.userOfRow (Db.adminRow "admin@example.com" "u1" 0)
  .changeEmail (some admin) "ada@example.com" (fun _ ↦ false) 1 ::
    .patch admin ⟨"Ada", "", some "ada"⟩ :: List.replicate 4 (.advancePatch 0 noFailures 1)

/-- Somebody logs in for the first time. -/
def loginSteps : List UsersStep :=
  .login ⟨"oidc", "sub", "grace@example.com"⟩ ::
    List.replicate 5 (.advanceLogin 0 (fun _ ↦ false) "u2" 1)

/-- The rows are well-formed after changes of a profile. -/
theorem usersWellFormed_iff_profile :
    ∃ t, runSteps usersStep .init (seedSteps ++ profileSteps) = some t ∧
      UsersWellFormed t.users := by
  obtain ⟨t, ht⟩ := Option.isSome_iff_exists.mp (by decide +kernel :
    (runSteps usersStep .init (seedSteps ++ profileSteps)).isSome = true)
  refine ⟨t, ht, (usersWellFormed_iff ht).mpr (RunMeets.of_forall ?_ _)⟩
  simp [seedSteps, profileSteps, CreatesNone]

/-- They are not after a first login. -/
theorem not_usersWellFormed_login :
    ∃ t, runSteps usersStep .init (seedSteps ++ loginSteps) = some t ∧
      ¬ UsersWellFormed t.users := by
  obtain ⟨t, ht, hrow⟩ := (Option.any_eq_true _ _).mp (by decide +kernel :
    (runSteps usersStep .init (seedSteps ++ loginSteps)).any
      (fun t ↦ t.users.rows.any (·.role == "")) = true)
  obtain ⟨r, hr, hrole⟩ := List.any_eq_true.mp hrow
  refine ⟨t, ht, fun hwell ↦ ?_⟩
  have hknown := hwell.roles r hr
  rw [beq_iff_eq.mp hrole] at hknown
  exact absurd hknown (by decide)

end Dockstack.Server
