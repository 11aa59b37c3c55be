import Dockstack.Auth.Credentials

/-!
# Password reset tokens

The store calls of `internal/auth/oauth.go:12–36` on `reset_tokens`
(`internal/db/migrations/0001_init.sql:82–88`, `internal/db/queries/reset_tokens.sql`), and
`SetPassword` of `internal/auth/session.go:282–292`. New identifiers, clock readings, password
hashes and the queries that the database fails are arguments.
-/

namespace Dockstack.Auth

open Dockstack.Base

/-- A row of `reset_tokens`; `0001_init.sql:82–88`. -/
structure ResetTokenRow where
  id : String
  userID : String
  tokenHash : Bytes
  expiresAt : Int
  createdAt : Int
  deriving DecidableEq

/-- `reset_tokens` has unique ids and token hashes. -/
def ResetTokenRow.clash (a b : ResetTokenRow) : Bool :=
  a.id == b.id || a.tokenHash == b.tokenHash

/-- Reset tokens clash when one of the unique columns agrees. -/
theorem ResetTokenRow.clash_iff {a b : ResetTokenRow} :
    a.clash b = true ↔ a.id = b.id ∨ a.tokenHash = b.tokenHash := by
  simp [clash]

/-- Clashing is mutual. -/
theorem ResetTokenRow.clash_comm (a b : ResetTokenRow) : a.clash b = b.clash a := by
  rw [Bool.eq_iff_iff, clash_iff, clash_iff]
  exact or_congr eq_comm eq_comm

/-- The tables of a password reset. -/
structure ResetDB where
  users : Table UserRow UserRow.clash
  credentials : Table CredentialRow CredentialRow.clash
  tokens : Table ResetTokenRow ResetTokenRow.clash

/-- A stored token has this hash. -/
def ResetDB.Stored (db : ResetDB) (tokenHash : Bytes) : Prop :=
  ∃ r ∈ db.tokens.rows, r.tokenHash = tokenHash

/-- The queries of a password reset. -/
inductive ResetQuery where
  | insertResetToken
  | getActiveResetToken
  | upsertCredential
  | deleteResetTokensByUser
  deriving DecidableEq

/-- The queries that the database fails. -/
abbrev ResetFailures := ResetQuery → Bool

/-- Why a query for one row returns none: there is no such row, or the database failed. -/
inductive QueryError where
  | noRows
  | failed
  deriving DecidableEq

/-- `CreateResetToken`; `oauth.go:12–20`, `reset_tokens.sql:1–3`. An insertion fails on a taken id
or token hash and on an unknown user. -/
def createResetToken (db : ResetDB) (fails : ResetFailures) (userID : String) (tokenHash : Bytes)
    (expiresAt : Int) (id : String) (now : Int) : Option ResetDB :=
  let row : ResetTokenRow :=
    { id := id, userID := userID, tokenHash := tokenHash, expiresAt := expiresAt,
      createdAt := unixMilli now }
  if fails .insertResetToken || db.users.rows.all (·.id != userID) then none
  else (db.tokens.insert row).map fun tokens ↦ { db with tokens := tokens }

/-- `ActiveResetTokenUser`; `oauth.go:22–28`, `reset_tokens.sql:5–6`. -/
def activeResetTokenUser (db : ResetDB) (fails : ResetFailures) (tokenHash : Bytes) (now : Int) :
    Except QueryError String :=
  if fails .getActiveResetToken then .error .failed
  else
    match db.tokens.rows.find? fun r ↦
        r.tokenHash == tokenHash && unixMilli now < r.expiresAt with
    | none => .error .noRows
    | some r => .ok r.userID

/-- `SetPassword`; `session.go:282–292`. `hash` is the answer of `HashPassword`. -/
def setPassword (db : ResetDB) (fails : ResetFailures) (userID : String) (hash : Option String)
    (now : Int) : Option ResetDB :=
  match hash with
  | none => none
  | some hash =>
    if fails .upsertCredential then none
    else (upsertCredential db.users db.credentials ⟨userID, hash, unixMilli now⟩).map
      fun credentials ↦ { db with credentials := credentials }

/-- `DeleteResetTokensByUser`; `oauth.go:30–32`, `reset_tokens.sql:8–9`. -/
def deleteResetTokensByUser (db : ResetDB) (fails : ResetFailures) (userID : String) :
    Option ResetDB :=
  if fails .deleteResetTokensByUser then none
  else some { db with tokens := db.tokens.delete (fun r ↦ r.userID == userID) }

/-- `DeleteExpiredResetTokens`; `oauth.go:34–36`, `reset_tokens.sql:11–12`. -/
def deleteExpiredResetTokens (db : ResetDB) (now : Int) : ResetDB :=
  { db with tokens := db.tokens.delete (fun r ↦ r.expiresAt < unixMilli now) }

variable {db db' : ResetDB} {fails : ResetFailures} {userID : String}

/-- A token that is issued is added to the tokens. -/
theorem createResetToken_eq_some {tokenHash : Bytes} {expiresAt : Int} {id : String} {now : Int}
    (h : createResetToken db fails userID tokenHash expiresAt id now = some db') :
    ∀ r ∈ db'.tokens.rows, r.tokenHash = tokenHash ∨ r ∈ db.tokens.rows := by
  unfold createResetToken at h
  dsimp only at h
  split at h
  · contradiction
  · obtain ⟨tokens, hinsert, rfl⟩ := Option.map_eq_some_iff.mp h
    intro r hr
    exact ((Table.mem_insert hinsert r).mp hr).imp_left (congrArg ResetTokenRow.tokenHash)

/-- The user that is found is that of a stored token. -/
theorem activeResetTokenUser_eq_ok {tokenHash : Bytes} {now : Int}
    (h : activeResetTokenUser db fails tokenHash now = .ok userID) :
    ∃ r ∈ db.tokens.rows, r.tokenHash = tokenHash ∧ r.userID = userID := by
  unfold activeResetTokenUser at h
  split at h
  · contradiction
  · split at h
    · contradiction
    · next r hr =>
      obtain rfl := Except.ok.inj h
      have hfound := List.find?_some hr
      simp only [Bool.and_eq_true, beq_iff_eq] at hfound
      exact ⟨r, List.mem_of_find?_eq_some hr, hfound.1, rfl⟩

/-- A password that is set leaves the tokens alone. -/
theorem setPassword_eq_some {hash : Option String} {now : Int}
    (h : setPassword db fails userID hash now = some db') : db'.tokens = db.tokens := by
  unfold setPassword at h
  split at h
  · contradiction
  · split at h
    · contradiction
    · obtain ⟨credentials, -, rfl⟩ := Option.map_eq_some_iff.mp h
      rfl

/-- A deletion leaves the user no token, and adds none. -/
theorem deleteResetTokensByUser_eq_some (h : deleteResetTokensByUser db fails userID = some db') :
    ∀ r ∈ db'.tokens.rows, r ∈ db.tokens.rows ∧ r.userID ≠ userID := by
  unfold deleteResetTokensByUser at h
  split at h
  · contradiction
  · obtain rfl := Option.some.inj h
    intro r hr
    obtain ⟨hmem, hne⟩ := (Table.mem_delete _ _ r).mp hr
    exact ⟨hmem, by simpa using hne⟩

end Dockstack.Auth
