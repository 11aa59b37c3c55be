import Dockstack.Auth.Profile
import Dockstack.Base.Words
import Dockstack.Server.ResetPassword

/-!
# Updating a profile

`handleUpdateUser` of `internal/server/api/auth/auth.go:335–377`. A field that the body leaves out
is the empty text, and for the username nil. An empty name and a username that is nil or blank leave
the column as it is; the avatar is written as it comes.
-/

namespace Dockstack.Server

open Dockstack.Base Dockstack.Auth

/-- The body of a request; a field that is absent is `none`. -/
structure UpdateUserBody where
  name : Option String
  avatar : Option String
  username : Option String
  deriving DecidableEq

/-- `updateUserRequest`; `auth.go:335–339`. -/
structure UpdateUserRequest where
  name : String
  avatar : String
  username : Option String
  deriving DecidableEq

/-- The request that a body decodes to: a text that is absent is empty. -/
def UpdateUserBody.request (body : UpdateUserBody) : UpdateUserRequest :=
  ⟨body.name.getD "", body.avatar.getD "", body.username⟩

/-- `usernameRe.MatchString`; `auth.go:440`. -/
def usernameRe (username : String) : Bool :=
  !username.toList.isEmpty &&
    username.toList.all fun c ↦ c.isAlphanum || c == '_' || c == '-'

/-- The length and the characters that a username may have; `auth.go:351`. -/
def validUsername (username : String) : Bool :=
  3 ≤ username.utf8ByteSize && username.utf8ByteSize ≤ 32 && usernameRe username

/-- The username of a request without the spaces around it, none if it is absent or blank;
`auth.go:346–353`. -/
def parseUsername : Option String → Except HTTPError (Option String)
  | none => .ok none
  | some raw =>
    let username := String.ofList (trimSpace raw.toList)
    if username = "" then .ok none
    else if validUsername username then .ok (some username)
    else .error ⟨400, "username must be 3-32 characters (letters, digits, - and _)"⟩

section

variable (users : UserTable) (fails : ProfileFailures)

/-- The username is the user's own, or not taken; `auth.go:354–361`. -/
def checkTaken (user : User) (username : String) : Except HTTPError Unit :=
  match usernameTaken users fails username with
  | none => .error ⟨500, "failed to check username"⟩
  | some taken =>
    if taken ∧ username ≠ user.username then .error ⟨409, "username already taken"⟩ else .ok ()

/-- `UpdateUser` of the store, with the errors of the handler; `session.go:254–272`,
`auth.go:365–371`. A write that the database does not fail fails on a taken username. -/
def updateUser (id : String) (req : UpdateUserRequest) (username : Option String) (now : Int) :
    Except HTTPError UserTable :=
  match userRowByID users (fails .readUser) id with
  | none => .error ⟨500, "failed to update user"⟩
  | some cur =>
    match writeUser users (fails .updateUser)
      (updateUserParams cur id req.name req.avatar username now) with
    | none =>
      .error (if fails .updateUser then ⟨500, "failed to update user"⟩
        else ⟨409, "username already taken"⟩)
    | some users => .ok users

/-- The user for the answer; `auth.go:372–376`. -/
def reloadUser (id : String) : Except HTTPError User :=
  match userRowByID users (fails .reloadUser) id with
  | none => .error ⟨500, "failed to reload user"⟩
  | some row => .ok (Store.userOfRow row)

/-- The update itself, and the answer; `auth.go:365–376`. -/
def updateAndReload (user : User) (req : UpdateUserRequest) (username : Option String)
    (now : Int) : UserTable × Except HTTPError User :=
  match updateUser users fails user.id req username now with
  | .error err => (users, .error err)
  | .ok users' => (users', reloadUser users' fails user.id)

/-- `handleUpdateUser`; `auth.go:341–377`. `user` is the user of the session. -/
def handleUpdateUser (user : Option User) (req : UpdateUserRequest) (now : Int) :
    UserTable × Except HTTPError User :=
  match user with
  | none => (users, .error ⟨401, "Unauthorized"⟩)
  | some user =>
    match parseUsername req.username with
    | .error err => (users, .error err)
    | .ok none => updateAndReload users fails user req none now
    | .ok (some username) =>
      match checkTaken users fails user username with
      | .error err => (users, .error err)
      | .ok () => updateAndReload users fails user req (some username) now

end

/-! ## What a body leaves out -/

/-- What a row keeps: the fields that the body leaves out, and what is in no profile. -/
structure KeepsAbsent (body : UpdateUserBody) (row row' : UserRow) : Prop where
  name : body.name = none → row'.name = row.name
  avatar : body.avatar = none → row'.avatar = row.avatar
  username : body.username = none → row'.username = row.username
  email : row'.email = row.email
  role : row'.role = row.role
  emailVerified : row'.emailVerified = row.emailVerified
  createdAt : row'.createdAt = row.createdAt

/-- The row of the user keeps what the body leaves out, and the other rows stay. -/
structure PatchKeeps (body : UpdateUserBody) (userID : String) (users users' : UserTable) :
    Prop where
  own : ∀ row ∈ users.rows, row.id = userID →
    ∃ row' ∈ users'.rows, row'.id = userID ∧ KeepsAbsent body row row'
  others : ∀ row : UserRow, row.id ≠ userID → (row ∈ users'.rows ↔ row ∈ users.rows)

variable {users users' : UserTable} {fails : ProfileFailures} {user u : User} {now : Int}

/-- A request that is accepted has read a row and written it back. -/
theorem exists_write_of_accepted {req : UpdateUserRequest}
    (h : handleUpdateUser users fails (some user) req now = (users', .ok u)) :
    ∃ username cur, parseUsername req.username = .ok username ∧ cur ∈ users.rows ∧
      cur.id = user.id ∧
      writeUser users (fails .updateUser)
        (updateUserParams cur user.id req.name req.avatar username now) = some users' := by
  have hupdate (username : Option String)
      (h : updateAndReload users fails user req username now = (users', .ok u)) :
      ∃ cur, cur ∈ users.rows ∧ cur.id = user.id ∧
        writeUser users (fails .updateUser)
          (updateUserParams cur user.id req.name req.avatar username now) = some users' := by
    unfold updateAndReload updateUser at h
    split at h
    · cases (Prod.ext_iff.mp h).2
    · next users'' hwrite =>
      obtain rfl : users'' = users' := (Prod.ext_iff.mp h).1
      split at hwrite
      · cases hwrite
      · next cur hcur =>
        split at hwrite
        · cases hwrite
        · next users'' hsome =>
          obtain rfl := Except.ok.inj hwrite
          obtain ⟨hmem, hid⟩ := userRowByID_eq_some hcur
          exact ⟨cur, hmem, hid, hsome⟩
  unfold handleUpdateUser at h
  dsimp only at h
  split at h
  · cases (Prod.ext_iff.mp h).2
  · next hparse =>
    obtain ⟨cur, hcur⟩ := hupdate none h
    exact ⟨none, cur, hparse, hcur⟩
  · next username hparse =>
    split at h
    · cases (Prod.ext_iff.mp h).2
    · obtain ⟨cur, hcur⟩ := hupdate (some username) h
      exact ⟨some username, cur, hparse, hcur⟩

private theorem keepsAbsent_write_iff {body : UpdateUserBody} {cur : UserRow} {id : String}
    {username : Option String} (hparse : parseUsername body.username = .ok username) :
    KeepsAbsent body cur
        ((updateUserParams cur id body.request.name body.request.avatar username now).apply cur) ↔
      body.avatar ≠ none ∨ cur.avatar = "" := by
  constructor
  · intro h
    by_cases havatar : body.avatar = none
    · have hkept := h.avatar havatar
      rw [UpdateUserBody.request, havatar] at hkept
      exact .inr hkept.symm
    · exact .inl havatar
  · intro havatar
    refine ⟨fun hname ↦ ?_, fun hnone ↦ ?_, fun hnone ↦ ?_, rfl, rfl, rfl, rfl⟩
    · have hempty : body.request.name = "" := by
        rw [UpdateUserBody.request, hname]
        rfl
      exact if_pos hempty
    · rw [UpdateUserBody.request, hnone]
      exact (havatar.resolve_left fun h ↦ h hnone).symm
    · rw [hnone] at hparse
      obtain rfl := Except.ok.inj hparse
      exact Option.none_or

/-- An accepted request leaves what its body leaves out as it was exactly when the body has an
avatar, or the user has none. -/
theorem patchKeeps_iff {body : UpdateUserBody} {row : UserRow}
    (h : handleUpdateUser users fails (some user) body.request now = (users', .ok u))
    (hrow : row ∈ users.rows) (hid : row.id = user.id) :
    PatchKeeps body user.id users users' ↔ body.avatar ≠ none ∨ row.avatar = "" := by
  obtain ⟨username, cur, hparse, hcur, hcurID, hwrite⟩ := exists_write_of_accepted h
  obtain rfl : cur = row := users.eq_of_id hcur hrow (hcurID.trans hid.symm)
  have hmem := mem_writeUser hwrite
  have hwritten := (hmem _).mpr ⟨cur, hcur, if_pos (beq_iff_eq.mpr hcurID)⟩
  rw [← keepsAbsent_write_iff hparse]
  constructor
  · rintro ⟨hown, -⟩
    obtain ⟨row', hrow', hid', hkeeps⟩ := hown cur hcur hcurID
    rwa [users'.eq_of_id hrow' hwritten (hid'.trans hcurID.symm)] at hkeeps
  · intro hkeeps
    constructor
    · intro row hrow hid
      rw [users.eq_of_id hrow hcur (hid.trans hcurID.symm)]
      exact ⟨_, hwritten, hcurID, hkeeps⟩
    · intro row hne
      rw [hmem]
      constructor
      · rintro ⟨r, hr, heq⟩
        split at heq
        · next hrid =>
          rw [← heq] at hne
          exact absurd (beq_iff_eq.mp hrid) hne
        · rwa [← heq]
      · intro hrow
        exact ⟨row, hrow, if_neg (by rwa [beq_iff_eq])⟩

/-- A user with an avatar. -/
def demoProfile : UserRow where
  id := "u1"
  name := "Ada"
  email := "ada@example.com"
  emailVerified := true
  username := some "ada"
  avatar := "https://example.com/ada.png"
  role := "admin"
  createdAt := 1
  updatedAt := 1

/-- The table with this user. -/
def demoProfiles : UserTable := ⟨[demoProfile], List.pairwise_singleton _ _⟩

/-- No query fails. -/
def noFailures : ProfileFailures := fun _ ↦ false

/-- A new name, and an avatar or none. -/
def renameBody (avatar : Option String) : UpdateUserBody := ⟨some "Grace", avatar, none⟩

/-- What the request with this body comes to. -/
def renamed (avatar : Option String) : UserTable × Except HTTPError User :=
  handleUpdateUser demoProfiles noFailures (some (Store.userOfRow demoProfile))
    (renameBody avatar).request 2

/-- The user that it answers. -/
def renamedUser (avatar : Option String) : User :=
  { Store.userOfRow demoProfile with
    name := "Grace", avatar := avatar.getD "", updatedAt := unixMilli 2 }

private theorem renamed_accepted (avatar : Option String) :
    renamed avatar = ((renamed avatar).1, .ok (renamedUser avatar)) :=
  Prod.snd_eq_iff.mp rfl

/-- With its avatar a new name leaves the rest as it was. -/
theorem patchKeeps_iff_avatar :
    PatchKeeps (renameBody (some "")) "u1" demoProfiles (renamed (some "")).1 :=
  (patchKeeps_iff (renamed_accepted (some "")) (List.mem_singleton_self demoProfile) rfl).mpr
    (.inl nofun)

/-- Without it the avatar is lost. -/
theorem not_patchKeeps_of_no_avatar :
    renamed none = ((renamed none).1, .ok (renamedUser none)) ∧
      ¬ PatchKeeps (renameBody none) "u1" demoProfiles (renamed none).1 := by
  refine ⟨renamed_accepted none, fun h ↦ ?_⟩
  obtain ⟨row', hrow', -, hkeeps⟩ := h.own demoProfile (List.mem_singleton_self _) rfl
  have hrows : (renamed none).1.rows =
      [{ demoProfile with name := "Grace", avatar := "", updatedAt := unixMilli 2 }] := rfl
  rw [hrows, List.mem_singleton] at hrow'
  have havatar := hkeeps.avatar rfl
  rw [hrow'] at havatar
  exact absurd havatar (by decide)

end Dockstack.Server
