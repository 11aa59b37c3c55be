import Dockstack.Auth.Session

/-!
# The profile of a user

The store calls of `internal/auth/session.go:246–280` and `327–330` on the `users` table, with
`internal/db/queries/users.sql:8–29`. `UpdateUser` is two statements: it reads the user's row and
writes the columns of the profile back. Clock readings and the queries that the database fails are
arguments.
-/

namespace Dockstack.Auth

open Dockstack.Base

/-- The `users` table. -/
abbrev UserTable := Table UserRow UserRow.clash

/-- The queries of a profile's update: the check of the username, the row that is read and written
back, and the row for the answer. -/
inductive ProfileQuery where
  | usernameTaken
  | readUser
  | updateUser
  | reloadUser
  deriving DecidableEq

/-- The queries that the database fails. -/
abbrev ProfileFailures := ProfileQuery → Bool

/-- `UsernameTaken`; `session.go:327–330`, `users.sql:17–18`. `none` is an error. -/
def usernameTaken (users : UserTable) (fails : ProfileFailures) (username : String) :
    Option Bool :=
  if fails .usernameTaken then none
  else some (users.rows.any (·.username == some username))

/-- `GetUserByID`; `users.sql:8–9`. `none` is an error, no row included. -/
def userRowByID (users : UserTable) (fails : Bool) (id : String) : Option UserRow :=
  if fails then none else users.rows.find? (·.id == id)

/-- `UpdateUserParams`; `internal/db/store/users.sql.go`. -/
structure UpdateUserParams where
  name : String
  avatar : String
  username : Option String
  updatedAt : Int
  id : String

/-- A row with the columns that are written. -/
def UpdateUserParams.apply (p : UpdateUserParams) (r : UserRow) : UserRow :=
  { r with
    name := p.name
    avatar := p.avatar
    username := p.username
    updatedAt := p.updatedAt }

/-- What `UpdateUser` writes after it has read the row `cur`; `session.go:259–271`. -/
def updateUserParams (cur : UserRow) (id name avatar : String) (username : Option String)
    (now : Int) : UpdateUserParams where
  name := if name = "" then cur.name else name
  avatar := avatar
  username := username.or cur.username
  updatedAt := unixMilli now
  id := id

/-- The query `UpdateUser`; `users.sql:20–26`. It fails on a taken username. -/
def writeUser (users : UserTable) (fails : Bool) (p : UpdateUserParams) : Option UserTable :=
  if fails then none else users.update? (·.id == p.id) p.apply

variable {users users' : UserTable} {p : UpdateUserParams}

/-- The rows after a write. -/
theorem mem_writeUser {fails : Bool} (h : writeUser users fails p = some users') (a : UserRow) :
    a ∈ users'.rows ↔ ∃ r ∈ users.rows, (if r.id == p.id then p.apply r else r) = a := by
  obtain ⟨-, h⟩ := Option.ite_none_left_eq_some.mp h
  exact Table.mem_update? h a

/-- A user that is read has the id. -/
theorem userRowByID_eq_some {fails : Bool} {id : String} {r : UserRow}
    (h : userRowByID users fails id = some r) : r ∈ users.rows ∧ r.id = id := by
  obtain ⟨-, h⟩ := Option.ite_none_left_eq_some.mp h
  exact ⟨List.mem_of_find?_eq_some h, by simpa using List.find?_some h⟩

/-- Ids are unique. -/
theorem UserTable.eq_of_id (users : UserTable) {r r' : UserRow} (h : r ∈ users.rows)
    (h' : r' ∈ users.rows) (hid : r.id = r'.id) : r = r' :=
  users.eq_of_clash UserRow.clash_comm h h' (UserRow.clash_iff.mpr (.inl hid))

end Dockstack.Auth
