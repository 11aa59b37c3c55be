import Dockstack.Server.UpdateUser

/-!
# Concurrent updates of a profile

`handleUpdateUser` statement by statement: the check of the username, the row that `UpdateUser` of
`internal/auth/session.go:254–272` reads, the row that it writes, and the row for the answer are
four statements without a transaction, between which other requests take theirs. What another
request has written since the read is written over.
-/

namespace Dockstack.Server

open Dockstack.Base Dockstack.Auth

/-- Where a request is: its next statement, with what it has so far. -/
inductive UpdatePhase where
  | checking (username : String)
  | reading (username : Option String)
  | writing (cur : UserRow) (username : Option String)
  | reloading
  | returned (result : Except HTTPError User)

/-- What a request does first; `auth.go:342–353`. -/
def UpdateUserRequest.start (req : UpdateUserRequest) : UpdatePhase :=
  match parseUsername req.username with
  | .error err => .returned (.error err)
  | .ok none => .reading none
  | .ok (some username) => .checking username

/-- The next statement of a request of `user`; `auth.go:354–376`, `session.go:255–271`. -/
def UpdateUserRequest.advance (req : UpdateUserRequest) (user : User) (fails : ProfileFailures)
    (now : Int) (users : UserTable) : UpdatePhase → UserTable × UpdatePhase
  | .checking username =>
    match checkTaken users fails user username with
    | .error err => (users, .returned (.error err))
    | .ok () => (users, .reading (some username))
  | .reading username =>
    match userRowByID users (fails .readUser) user.id with
    | none => (users, .returned (.error ⟨500, "failed to update user"⟩))
    | some cur => (users, .writing cur username)
  | .writing cur username =>
    match writeUser users (fails .updateUser)
      (updateUserParams cur user.id req.name req.avatar username now) with
    | none =>
      (users, .returned (.error (if fails .updateUser then ⟨500, "failed to update user"⟩
        else ⟨409, "username already taken"⟩)))
    | some users => (users, .reloading)
  | .reloading => (users, .returned (reloadUser users fails user.id))
  | .returned result => (users, .returned result)

section

variable {req : UpdateUserRequest} {user : User} {fails : ProfileFailures} {now : Int}
  {users : UserTable}

/-- One statement after another. -/
def UpdateUserRequest.advances (req : UpdateUserRequest) (user : User) (fails : ProfileFailures)
    (now : Int) : Nat → UserTable × UpdatePhase → UserTable × UpdatePhase
  | 0, s => s
  | n + 1, s => req.advances user fails now n (req.advance user fails now s.1 s.2)

private theorem advances_returned (result : Except HTTPError User) (n : Nat) :
    req.advances user fails now n (users, .returned result) = (users, .returned result) := by
  induction n with
  | zero => rfl
  | succ n ih => exact ih

private theorem advances_reading (username : Option String) (n : Nat) :
    req.advances user fails now (n + 3) (users, .reading username) =
      ((updateAndReload users fails user req username now).1,
        .returned (updateAndReload users fails user req username now).2) := by
  rw [UpdateUserRequest.advances, UpdateUserRequest.advance, updateAndReload, updateUser]
  cases userRowByID users (fails .readUser) user.id with
  | none => exact advances_returned _ _
  | some cur =>
    dsimp only
    rw [UpdateUserRequest.advances, UpdateUserRequest.advance]
    cases writeUser users (fails .updateUser)
      (updateUserParams cur user.id req.name req.avatar username now) with
    | none => exact advances_returned _ _
    | some users' => exact advances_returned _ _

/-- Alone, the statements of a request are the handler. -/
theorem advances_eq_handleUpdateUser (req : UpdateUserRequest) (user : User)
    (fails : ProfileFailures) (now : Int) (users : UserTable) :
    req.advances user fails now 4 (users, req.start) =
      ((handleUpdateUser users fails (some user) req now).1,
        .returned (handleUpdateUser users fails (some user) req now).2) := by
  rw [UpdateUserRequest.start, handleUpdateUser]
  cases parseUsername req.username with
  | error err => exact advances_returned _ _
  | ok username =>
    cases username with
    | none => exact advances_reading none 1
    | some username =>
      dsimp only
      rw [UpdateUserRequest.advances, UpdateUserRequest.advance]
      cases checkTaken users fails user username with
      | error err => exact advances_returned _ _
      | ok _ => exact advances_reading (some username) 0

/-- What a statement does: it fails, or the request goes on; only a write changes the users. -/
inductive Moved (req : UpdateUserRequest) (user : User) (users : UserTable) :
    UpdatePhase → UserTable → UpdatePhase → Prop where
  | failed (phase : UpdatePhase) (err : HTTPError) (h : ∀ u, phase ≠ .returned (.ok u)) :
      Moved req user users phase users (.returned (.error err))
  | checked (username : String) :
      Moved req user users (.checking username) users (.reading (some username))
  | read (username : Option String) (cur : UserRow) (hcur : cur ∈ users.rows)
      (hid : cur.id = user.id) :
      Moved req user users (.reading username) users (.writing cur username)
  | wrote (cur : UserRow) (username : Option String) (now : Int) (users' : UserTable)
      (h : writeUser users false (updateUserParams cur user.id req.name req.avatar username now) =
        some users') :
      Moved req user users (.writing cur username) users' .reloading
  | answered (u : User) : Moved req user users .reloading users (.returned (.ok u))
  | resting (u : User) : Moved req user users (.returned (.ok u)) users (.returned (.ok u))

/-- Every statement is one of these. -/
theorem moved_advance (req : UpdateUserRequest) (user : User) (fails : ProfileFailures) (now : Int)
    (users : UserTable) (phase : UpdatePhase) :
    Moved req user users phase (req.advance user fails now users phase).1
      (req.advance user fails now users phase).2 := by
  cases phase with
  | checking username =>
    rw [UpdateUserRequest.advance]
    split
    · exact .failed _ _ fun _ heq ↦ by cases heq
    · exact .checked username
  | reading username =>
    rw [UpdateUserRequest.advance]
    split
    · exact .failed _ _ fun _ heq ↦ by cases heq
    · next cur hcur =>
      obtain ⟨hmem, hid⟩ := userRowByID_eq_some hcur
      exact .read username cur hmem hid
  | writing cur username =>
    rw [UpdateUserRequest.advance]
    split
    · exact .failed _ _ fun _ heq ↦ by cases heq
    · next users' hwrite =>
      refine .wrote cur username now users' ?_
      obtain ⟨hfails, hupdate⟩ := Option.ite_none_left_eq_some.mp hwrite
      exact (if_neg Bool.false_ne_true).trans hupdate
  | reloading =>
    rw [UpdateUserRequest.advance, reloadUser]
    split
    · exact .failed _ _ fun _ heq ↦ by cases heq
    · exact .answered _
  | returned result =>
    cases result with
    | error err => exact .failed _ err fun _ heq ↦ by cases heq
    | ok u => exact .resting u

end

/-! ## A name and a username at the same time -/

/-- One of two requests on a user: the one that sets the name, or the one that sets the
username. -/
inductive Patch where
  | name
  | username
  deriving DecidableEq

/-- The other request. -/
def Patch.other : Patch → Patch
  | .name => .username
  | .username => .name

/-- Two requests on one user: the first one only has a name, the second one only a username, and
neither is blank. -/
structure ProfileRace where
  user : Patch → User
  name : String
  username : String
  sameUser : (user .name).id = (user .username).id
  name_ne : name ≠ ""
  username_ne : String.ofList (trimSpace username.toList) ≠ ""

namespace ProfileRace

variable (race : ProfileRace)

/-- The user's id. -/
def userID : String := (race.user .name).id

/-- The username that is set. -/
def newUsername : String := .ofList (trimSpace race.username.toList)

/-- The bodies of the requests. -/
def body : Patch → UpdateUserBody
  | .name => ⟨some race.name, none, none⟩
  | .username => ⟨none, none, some race.username⟩

/-- The requests. -/
def request (i : Patch) : UpdateUserRequest := (race.body i).request

/-- A row has the new value of a request. -/
def New : Patch → UserRow → Prop
  | .name, row => row.name = race.name
  | .username, row => row.username = some race.newUsername

instance (i : Patch) (row : UserRow) : Decidable (race.New i row) :=
  match i with
  | .name => inferInstanceAs (Decidable (row.name = race.name))
  | .username => inferInstanceAs (Decidable (row.username = some race.newUsername))

end ProfileRace

/-- The users, and where the two requests are. -/
structure RaceState where
  users : UserTable
  phase : Patch → UpdatePhase

/-- One of the requests takes its next statement. -/
structure RaceStep where
  patch : Patch
  fails : ProfileFailures
  now : Int

namespace ProfileRace

variable (race : ProfileRace)

/-- Both requests have come in. -/
def init (users : UserTable) : RaceState := ⟨users, fun i ↦ (race.request i).start⟩

/-- One step. -/
def step (s : RaceState) (l : RaceStep) : Option RaceState :=
  let (users, phase) := (race.request l.patch).advance (race.user l.patch) l.fails l.now s.users
    (s.phase l.patch)
  some ⟨users, Function.update s.phase l.patch phase⟩

/-- The request is accepted. -/
def Accepted (s : RaceState) (i : Patch) : Prop := ∃ u, s.phase i = .returned (.ok u)

/-- The user's row has both new values. -/
def BothNew (s : RaceState) : Prop :=
  ∃ row ∈ s.users.rows, row.id = race.userID ∧ ∀ i, race.New i row

/-- A write does not come between the other request's read and write, unless that one has read the
new value already. -/
def NoStaleWrite (s : RaceState) (l : RaceStep) : Prop :=
  ∀ cur username, s.phase l.patch = .writing cur username →
    ∀ cur' username', s.phase l.patch.other = .writing cur' username' → race.New l.patch cur'

instance (s : RaceState) (l : RaceStep) : Decidable (race.NoStaleWrite s l) :=
  match hp : s.phase l.patch, hp' : s.phase l.patch.other with
  | .writing cur username, .writing cur' username' =>
    decidable_of_iff (race.New l.patch cur') (by simp [NoStaleWrite, hp, hp'])
  | .writing .., .checking _ | .writing .., .reading _ | .writing .., .reloading
  | .writing .., .returned _ => .isTrue (by simp [NoStaleWrite, hp'])
  | .checking _, _ | .reading _, _ | .reloading, _ | .returned _, _ =>
    .isTrue (by simp [NoStaleWrite, hp])

/-- The request has written. -/
def Wrote : UpdatePhase → Prop
  | .reloading => True
  | .returned (.ok _) => True
  | _ => False

/-- The username that a request has, while it goes on. -/
def parsed : Patch → Option String
  | .name => none
  | .username => some race.newUsername

/-- A request goes on with its own username. -/
def Fits (i : Patch) : UpdatePhase → Prop
  | .checking username => race.parsed i = some username
  | .reading username => race.parsed i = username
  | .writing _ username => race.parsed i = username
  | _ => True

/-- The user has a row. -/
def Present (s : RaceState) : Prop := ∃ row ∈ s.users.rows, row.id = race.userID

/-- The requests go on with their own usernames, and to a write only on a row. -/
structure Going (s : RaceState) : Prop where
  fits : ∀ i, race.Fits i (s.phase i)
  present : ∀ i cur username, s.phase i = .writing cur username → race.Present s

/-- What the request `i` has written is in the user's row, and in what the other request will write
back. -/
def Kept (s : RaceState) (i : Patch) : Prop :=
  Wrote (s.phase i) → (∃ row ∈ s.users.rows, row.id = race.userID ∧ race.New i row) ∧
    ∀ cur username, s.phase i.other = .writing cur username → race.New i cur

/-- What the request `i` has written is lost, or will be when the other request writes back. -/
def Lost (s : RaceState) (i : Patch) : Prop :=
  Wrote (s.phase i) ∧
    ((∃ cur username, s.phase i.other = .writing cur username ∧ ¬ race.New i cur) ∨
      Wrote (s.phase i.other) ∧ ∃ row ∈ s.users.rows, row.id = race.userID ∧ ¬ race.New i row)

variable {race} {s s' t : RaceState} {l : RaceStep} {i : Patch}

private theorem other_ne (i : Patch) : i.other ≠ i := by cases i <;> decide

private theorem other_other (i : Patch) : i.other.other = i := by cases i <;> rfl

private theorem forall_patch {P : Patch → Prop} (i : Patch) (h : P i) (h' : P i.other) :
    ∀ j, P j := by
  intro j
  by_cases hj : j = i
  · exact hj ▸ h
  · have hother : j = i.other := by revert hj; cases i <;> cases j <;> decide
    exact hother ▸ h'

private theorem user_id (race : ProfileRace) (i : Patch) : (race.user i).id = race.userID := by
  cases i with
  | name => rfl
  | username => exact race.sameUser.symm

private theorem new_apply {cur row : UserRow} {username : Option String} {now : Int}
    (hfits : race.Fits i (.writing cur username)) :
    let p := updateUserParams cur (race.user i).id (race.request i).name (race.request i).avatar
      username now
    race.New i (p.apply row) ∧ (race.New i.other (p.apply row) ↔ race.New i.other cur) := by
  cases i with
  | name =>
    obtain rfl : none = username := hfits
    refine ⟨if_neg race.name_ne, ?_⟩
    exact Iff.rfl
  | username =>
    obtain rfl : some race.newUsername = username := hfits
    exact ⟨rfl, Iff.rfl⟩

private theorem exists_written {cur : UserRow} {username : Option String} {now : Int}
    {users' : UserTable} (hfits : race.Fits i (.writing cur username)) (hpresent : race.Present s)
    (h : writeUser s.users false (updateUserParams cur (race.user i).id (race.request i).name
      (race.request i).avatar username now) = some users') :
    ∃ row ∈ users'.rows, row.id = race.userID ∧ race.New i row ∧
      (race.New i.other row ↔ race.New i.other cur) := by
  obtain ⟨row, hrow, hid⟩ := hpresent
  have hmem := (mem_writeUser h _).mpr ⟨row, hrow, if_pos (beq_iff_eq.mpr ?_)⟩
  · exact ⟨_, hmem, hid, new_apply hfits⟩
  · exact hid.trans (user_id race i).symm

private theorem moved_of_step (h : race.step s l = some s') :
    ∃ phase phase' users',
      Moved (race.request l.patch) (race.user l.patch) s.users phase users' phase' ∧
      s.phase l.patch = phase ∧ s'.phase l.patch = phase' ∧ s'.users = users' ∧
      s'.phase l.patch.other = s.phase l.patch.other := by
  obtain rfl := Option.some.inj h
  exact ⟨_, _, _, moved_advance _ _ _ _ _ _, rfl, Function.update_self .., rfl,
    Function.update_of_ne (other_ne _) _ _⟩

private theorem Present.step (hpresent : race.Present s) (h : race.step s l = some s') :
    race.Present s' := by
  obtain ⟨row, hrow, hid⟩ := hpresent
  obtain ⟨phase, phase', users', hmoved, -, -, hu, -⟩ := moved_of_step h
  rw [Present, hu]
  cases hmoved with
  | wrote cur username now users' hwrite =>
    refine ⟨_, (mem_writeUser hwrite _).mpr ⟨row, hrow, rfl⟩, ?_⟩
    split <;> exact hid
  | failed | checked | read | answered | resting => exact ⟨row, hrow, hid⟩

private theorem start_cases (race : ProfileRace) (i : Patch) :
    (race.request i).start = .reading none ∧ race.parsed i = none ∨
      (∃ username, (race.request i).start = .checking username ∧
        race.parsed i = some username) ∨
      ∃ err, (race.request i).start = .returned (.error err) := by
  cases i with
  | name => exact .inl ⟨rfl, rfl⟩
  | username =>
    have hparse : parseUsername (race.request .username).username =
        if validUsername race.newUsername then .ok (some race.newUsername)
        else .error ⟨400, "username must be 3-32 characters (letters, digits, - and _)"⟩ :=
      if_neg race.username_ne
    refine .inr ?_
    rw [UpdateUserRequest.start, hparse]
    by_cases hvalid : validUsername race.newUsername = true
    · rw [if_pos hvalid]
      exact .inl ⟨race.newUsername, rfl, rfl⟩
    · rw [if_neg hvalid]
      exact .inr ⟨_, rfl⟩

private theorem Going.init (race : ProfileRace) (users : UserTable) :
    race.Going (race.init users) := by
  constructor
  · intro i
    change race.Fits i (race.request i).start
    rcases start_cases race i with ⟨heq, hparsed⟩ | ⟨username, heq, hparsed⟩ | ⟨err, heq⟩
    · rw [heq]
      exact hparsed
    · rw [heq]
      exact hparsed
    · rw [heq]
      trivial
  · intro i cur username h
    change (race.request i).start = .writing cur username at h
    rcases start_cases race i with ⟨heq, -⟩ | ⟨_, heq, -⟩ | ⟨err, heq⟩ <;> rw [heq] at h <;> cases h

private theorem not_wrote_init (race : ProfileRace) (users : UserTable) (i : Patch) :
    ¬ Wrote ((race.init users).phase i) := by
  change ¬ Wrote (race.request i).start
  rcases start_cases race i with ⟨heq, -⟩ | ⟨_, heq, -⟩ | ⟨err, heq⟩ <;> rw [heq] <;> exact id

private theorem Going.step (hgoing : race.Going s) (h : race.step s l = some s') :
    race.Going s' := by
  obtain ⟨phase, phase', users', hmoved, hp, hp', hu, hother⟩ := moved_of_step h
  have hfits := hgoing.fits l.patch
  rw [hp] at hfits
  constructor
  · refine forall_patch l.patch ?_ (hother ▸ hgoing.fits _)
    rw [hp']
    cases hmoved with
    | checked username => exact hfits
    | read username cur hcur hid => exact hfits
    | failed | wrote | answered | resting => trivial
  · refine forall_patch l.patch ?_ fun cur username hphase ↦ ?_
    · intro cur username hphase
      obtain rfl := hp'.symm.trans hphase
      cases hmoved with
      | read username cur hcur hid =>
        exact ⟨cur, hu ▸ hcur, hid.trans (user_id race _)⟩
    · rw [hother] at hphase
      exact (hgoing.present _ cur username hphase).step h

private theorem kept_step (hgoing : race.Going s) (hkept : ∀ i, race.Kept s i)
    (hl : race.NoStaleWrite s l) (h : race.step s l = some s') : ∀ i, race.Kept s' i := by
  obtain ⟨phase, phase', users', hmoved, hp, hp', hu, hother⟩ := moved_of_step h
  have hfits := hgoing.fits l.patch
  rw [hp] at hfits
  have hself := hkept l.patch
  have hothers := hkept l.patch.other
  rw [ProfileRace.Kept, other_other, hp] at hothers
  refine forall_patch l.patch ?_ ?_
  · rw [ProfileRace.Kept, hp', hother, hu]
    cases hmoved with
    | failed | checked | read => exact False.elim
    | wrote cur username now users' hwrite =>
      intro _
      obtain ⟨row, hrow, hid, hnew, -⟩ :=
        exists_written hfits (hgoing.present _ cur username hp) hwrite
      exact ⟨⟨row, hrow, hid, hnew⟩, fun cur' username' hphase ↦
        hl cur username hp cur' username' hphase⟩
    | answered u => exact fun _ ↦ hself (by rw [hp]; trivial)
    | resting u => exact fun _ ↦ hself (by rw [hp]; trivial)
  · rw [ProfileRace.Kept, other_other, hp', hother, hu]
    intro hwrote
    obtain ⟨⟨row, hrow, hid, hnew⟩, hwriting⟩ := hothers hwrote
    cases hmoved with
    | failed | checked | answered | resting => exact ⟨⟨row, hrow, hid, hnew⟩, nofun⟩
    | read username cur hcur hcurID =>
      refine ⟨⟨row, hrow, hid, hnew⟩, ?_⟩
      rintro cur' username' heq
      obtain ⟨rfl, -⟩ := UpdatePhase.writing.inj heq
      rwa [s.users.eq_of_id hcur hrow (hcurID.trans ((user_id race _).trans hid.symm))]
    | wrote cur username now users' hwrite =>
      obtain ⟨row', hrow', hid', -, hiff⟩ :=
        exists_written hfits (hgoing.present _ cur username hp) hwrite
      exact ⟨⟨row', hrow', hid', hiff.mpr (hwriting cur username rfl)⟩, nofun⟩

variable (race) in
/-- A request has failed, or what one has written is lost. -/
structure Broken (s : RaceState) : Prop where
  going : race.Going s
  lost : (∃ i err, s.phase i = .returned (.error err)) ∨ ∃ i, race.Lost s i

private theorem broken_of_breach (hgoing : race.Going s) (hl : ¬ race.NoStaleWrite s l)
    (h : race.step s l = some s') : race.Broken s' := by
  refine ⟨hgoing.step h, ?_⟩
  obtain ⟨phase, phase', users', hmoved, hp, hp', -, hother⟩ := moved_of_step h
  simp only [NoStaleWrite, not_forall] at hl
  obtain ⟨cur, username, hwriting, cur', username', hphase, hnew⟩ := hl
  obtain rfl := hp.symm.trans hwriting
  cases hmoved with
  | failed phase err => exact .inl ⟨l.patch, err, hp'⟩
  | wrote cur username now users' hwrite =>
    refine .inr ⟨l.patch, ?_, .inl ⟨cur', username', hother.trans hphase, hnew⟩⟩
    rw [hp']
    trivial

private theorem Broken.step (hbroken : race.Broken s) (h : race.step s l = some s') :
    race.Broken s' := by
  obtain ⟨hgoing, hbroken⟩ := hbroken
  refine ⟨hgoing.step h, ?_⟩
  obtain ⟨phase, phase', users', hmoved, hp, hp', hu, hother⟩ := moved_of_step h
  have hfits := hgoing.fits l.patch
  rw [hp] at hfits
  have hself : Wrote (s.phase l.patch) → (∃ err, s'.phase l.patch = .returned (.error err)) ∨
      Wrote (s'.phase l.patch) ∧ s'.users = s.users := by
    intro hwrote
    rw [hp] at hwrote
    rw [hp', hu]
    cases hmoved with
    | failed phase err => exact .inl ⟨err, rfl⟩
    | answered | resting => exact .inr ⟨trivial, rfl⟩
    | checked | read | wrote => exact hwrote.elim
  obtain ⟨i, err, herr⟩ | ⟨i, hwrote, hlost⟩ := hbroken
  · revert i
    refine forall_patch l.patch (fun herr ↦ ?_) fun herr ↦ ?_
    · obtain rfl := hp.symm.trans herr
      cases hmoved with
      | failed phase err => exact .inl ⟨l.patch, err, hp'⟩
    · exact .inl ⟨l.patch.other, err, hother.trans herr⟩
  · revert i
    refine forall_patch l.patch (fun hwrote hlost ↦ ?_) fun hwrote hlost ↦ ?_
    · rcases hself hwrote with ⟨err, herr⟩ | ⟨hwrote', husers⟩
      · exact .inl ⟨l.patch, err, herr⟩
      · refine .inr ⟨l.patch, hwrote', ?_⟩
        rwa [hother, husers]
    · rw [other_other] at hlost
      obtain ⟨cur, username, hwriting, hnew⟩ | ⟨hwrote', hrow⟩ := hlost
      · obtain rfl := hp.symm.trans hwriting
        cases hmoved with
        | failed phase err => exact .inl ⟨l.patch, err, hp'⟩
        | wrote cur username now users' hwrite =>
          obtain ⟨row, hrow, hid, -, hiff⟩ :=
            exists_written hfits (hgoing.present _ cur username hp) hwrite
          refine .inr ⟨l.patch.other, hother ▸ hwrote, .inr ?_⟩
          rw [other_other, hp', hu]
          exact ⟨trivial, row, hrow, hid, fun hold ↦ hnew (hiff.mp hold)⟩
      · rcases hself hwrote' with ⟨err, herr⟩ | ⟨hwrote', husers⟩
        · exact .inl ⟨l.patch, err, herr⟩
        · refine .inr ⟨l.patch.other, hother ▸ hwrote, .inr ?_⟩
          rw [other_other, husers]
          exact ⟨hwrote', hrow⟩

/-- When both requests are accepted, the row has both values exactly when no write of a value has
come between the other request's read and write, unless that one had read the value already. -/
theorem bothNew_iff (race : ProfileRace) {users : UserTable} {steps : List RaceStep}
    {t : RaceState} (h : runSteps race.step (race.init users) steps = some t)
    (haccepted : ∀ i, Accepted t i) :
    race.BothNew t ↔ RunMeets race.step race.NoStaleWrite (race.init users) steps := by
  have hwrote (i : Patch) : Wrote (t.phase i) := by
    obtain ⟨u, hu⟩ := haccepted i
    rw [hu]
    trivial
  have hinit : race.Going (race.init users) ∧ ∀ i, race.Kept (race.init users) i :=
    ⟨.init race users, fun i hw ↦ absurd hw (not_wrote_init race users i)⟩
  have hruns : (RunMeets race.step race.NoStaleWrite (race.init users) steps ∧
        race.Going t ∧ ∀ i, race.Kept t i) ∨
      (¬ RunMeets race.step race.NoStaleWrite (race.init users) steps ∧
        race.Broken t) := by
    refine runMeets_or_lost (I := fun s ↦ race.Going s ∧ ∀ i, race.Kept s i)
      (fun _ _ _ hI hl hs ↦ ?_) (fun _ _ _ hI hl hs ↦ ?_) (fun _ _ _ hI hs ↦ ?_) hinit h
    · exact ⟨hI.1.step hs, kept_step hI.1 hI.2 hl hs⟩
    · exact broken_of_breach hI.1 hl hs
    · exact hI.step hs
  constructor
  · rintro ⟨row, hrow, hid, hnew⟩
    rcases hruns with ⟨hmeets, -⟩ | ⟨-, hbroken⟩
    · exact hmeets
    · obtain ⟨i, err, herr⟩ | ⟨i, -, hlost⟩ := hbroken.lost
      · have hok := hwrote i
        rw [herr] at hok
        exact hok.elim
      · obtain ⟨cur, username, hp, -⟩ | ⟨-, row', hrow', hid', hold⟩ := hlost
        · have hok := hwrote i.other
          rw [hp] at hok
          exact hok.elim
        · rw [t.users.eq_of_id hrow' hrow (hid'.trans hid.symm)] at hold
          exact absurd (hnew i) hold
  · intro hmeets
    rcases hruns with ⟨-, -, hkept⟩ | ⟨hbreach, -⟩
    · obtain ⟨⟨row, hrow, hid, hname⟩, -⟩ := hkept .name (hwrote _)
      obtain ⟨⟨row', hrow', hid', husername⟩, -⟩ := hkept .username (hwrote _)
      obtain rfl := t.users.eq_of_id hrow hrow' (hid.trans hid'.symm)
      exact ⟨row, hrow, hid, forall_patch .name hname husername⟩
    · exact absurd hmeets hbreach

/-- A name and a username for the user `u1`. -/
def demoRace : ProfileRace where
  user _ := Store.userOfRow demoProfile
  name := "Grace"
  username := "grace"
  sameUser := rfl
  name_ne := by decide
  username_ne := by decide +kernel

/-- The requests take their statements in this order, and no query fails. -/
def demoSteps (order : List Patch) : List RaceStep := order.map fun i ↦ ⟨i, noFailures, 2⟩

/-- Where they are then. -/
def demoRaced (order : List Patch) : RaceState :=
  (runSteps demoRace.step (demoRace.init demoProfiles) (demoSteps order)).getD
    (demoRace.init demoProfiles)

/-- One request after the other. -/
def oneByOne : List Patch := [.name, .name, .name, .username, .username, .username, .username]

/-- Both requests read the row before either writes. -/
def bothRead : List Patch := [.name, .username, .username, .name, .username, .username, .name]

private theorem accepted_oneByOne : ∀ i, Accepted (demoRaced oneByOne) i :=
  forall_patch .name ⟨_, rfl⟩ ⟨_, rfl⟩

private theorem accepted_bothRead : ∀ i, Accepted (demoRaced bothRead) i :=
  forall_patch .name ⟨_, rfl⟩ ⟨_, rfl⟩

/-- One after the other both values are there. -/
theorem bothNew_oneByOne : demoRace.BothNew (demoRaced oneByOne) := by
  have hrun : runSteps demoRace.step (demoRace.init demoProfiles) (demoSteps oneByOne) =
      some (demoRaced oneByOne) := rfl
  exact (bothNew_iff demoRace hrun accepted_oneByOne).mpr (by decide)

/-- The name that was written in between is lost. -/
theorem not_bothNew_bothRead :
    runSteps demoRace.step (demoRace.init demoProfiles) (demoSteps bothRead) =
        some (demoRaced bothRead) ∧
      (∀ i, Accepted (demoRaced bothRead) i) ∧ ¬ demoRace.BothNew (demoRaced bothRead) := by
  refine ⟨rfl, accepted_bothRead, ?_⟩
  rintro ⟨row, hrow, -, hnew⟩
  have hrows : (demoRaced bothRead).users.rows =
      [{ demoProfile with username := some "grace", avatar := "", updatedAt := unixMilli 2 }] := rfl
  rw [hrows, List.mem_singleton] at hrow
  have hname := hnew .name
  rw [hrow] at hname
  exact absurd hname (by decide)

end ProfileRace

end Dockstack.Server
