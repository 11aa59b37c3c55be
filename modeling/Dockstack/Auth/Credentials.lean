import Dockstack.Auth.Session

/-!
# Credentials

The `credentials` table of `internal/db/migrations/0001_init.sql:15–19`, which holds one password
hash for each user, and `SetPassword` of `internal/auth/session.go`. A hash is an argument: it is
salted, and hashing fails when the random source does.
-/

namespace Dockstack.Auth

open Dockstack.Base

/-- A row of `credentials`; `0001_init.sql:15–19`. -/
structure CredentialRow where
  userID : String
  passwordHash : String
  updatedAt : Int
  deriving DecidableEq

/-- `credentials` has one row for each user. -/
def CredentialRow.clash (a b : CredentialRow) : Bool := a.userID == b.userID

/-- `UpsertCredential`; `credentials.sql:1–6`. It fails for an unknown user. -/
def upsertCredential (users : Table UserRow UserRow.clash)
    (credentials : Table CredentialRow CredentialRow.clash) (row : CredentialRow) :
    Option (Table CredentialRow CredentialRow.clash) :=
  if users.rows.all (·.id != row.userID) then none
  else if credentials.rows.any (·.userID == row.userID) then
    some (credentials.update (fun r ↦ r.userID == row.userID)
      (fun r ↦ { r with passwordHash := row.passwordHash, updatedAt := row.updatedAt })
      fun _ _ ↦ ⟨rfl, rfl⟩)
  else credentials.insert row

end Dockstack.Auth
