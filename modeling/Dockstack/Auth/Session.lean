import Dockstack.Base.Base64
import Dockstack.Base.Clock
import Dockstack.Base.History
import Dockstack.Base.Machine
import Dockstack.Base.Table

/-!
# Sessions

The session half of the auth store: signed tokens and the `sessions` table, after
`internal/auth/session.go:117–244`, `internal/db/queries/sessions.sql` and the schema
in `internal/db/migrations/0001_init.sql`. Random tokens, identifiers and clock
readings are arguments. SHA-256 and the MAC under the store's secret are arbitrary
functions.
-/

namespace Dockstack.Auth

open Dockstack.Base

/-- A row of `users`; `0001_init.sql:3–13`. -/
structure UserRow where
  id : String
  name : String
  email : String
  emailVerified : Bool
  username : Option String
  avatar : String
  role : String
  createdAt : Int
  updatedAt : Int
  deriving DecidableEq

/-- A row of `sessions`; `0001_init.sql:21–30`. -/
structure SessionRow where
  id : String
  userID : String
  tokenHash : Bytes
  expiresAt : Int
  ipAddress : String
  userAgent : String
  impersonatedBy : Option String
  createdAt : Int
  deriving DecidableEq

/-- `users` has unique ids, emails and usernames; unset usernames never clash. -/
def UserRow.clash (a b : UserRow) : Bool :=
  a.id == b.id || a.email == b.email || (a.username.isSome && a.username == b.username)

/-- `sessions` has unique ids and token hashes. -/
def SessionRow.clash (a b : SessionRow) : Bool :=
  a.id == b.id || a.tokenHash == b.tokenHash

/-- Users clash when one of the unique columns agrees. -/
theorem UserRow.clash_iff {a b : UserRow} : a.clash b = true ↔
    a.id = b.id ∨ a.email = b.email ∨ (a.username.isSome = true ∧ a.username = b.username) := by
  simp [clash, or_assoc]

/-- Clashing is mutual. -/
theorem UserRow.clash_comm (a b : UserRow) : a.clash b = b.clash a := by
  rw [Bool.eq_iff_iff, UserRow.clash_iff, UserRow.clash_iff]
  refine or_congr eq_comm (or_congr eq_comm ⟨?_, ?_⟩)
  · rintro ⟨hsome, heq⟩
    exact ⟨heq ▸ hsome, heq.symm⟩
  · rintro ⟨hsome, heq⟩
    exact ⟨heq ▸ hsome, heq.symm⟩

/-- Sessions clash when one of the unique columns agrees. -/
theorem SessionRow.clash_iff {a b : SessionRow} :
    a.clash b = true ↔ a.id = b.id ∨ a.tokenHash = b.tokenHash := by
  simp [clash]

/-- The two tables that a session lookup joins. -/
structure DB where
  users : Table UserRow UserRow.clash
  sessions : Table SessionRow SessionRow.clash

/-- `User`; `session.go:30–40`. -/
structure User where
  id : String
  name : String
  email : String
  emailVerified : Bool
  username : String
  avatar : String
  role : String
  createdAt : Int
  updatedAt : Int
  deriving DecidableEq

/-- `Session`; `session.go:42–50`. -/
structure Session where
  id : String
  userID : String
  expiresAt : Int
  ipAddress : String
  userAgent : String
  impersonatedBy : Option String
  createdAt : Int
  deriving DecidableEq

/-- Errors of the session calls. -/
inductive SessionError where
  | errInvalidSession
  | generate
  | insertSession
  deriving DecidableEq

/-- What the session calls use of a `Store`; `mac` is HMAC-SHA256 under its secret. -/
structure Store where
  mac : Bytes → Bytes
  sha256 : Bytes → Bytes
  sessionTTL : Int

/-- `SessionTTL`; `session.go:28`. -/
def SessionTTL : Int := 7 * 24 * hour

namespace Store

variable (st : Store)

/-- `HashToken`; `tokens.go:35–38`. -/
def hashToken (token : Bytes) : Bytes := rawURLEncode (st.sha256 token)

/-- `SignToken`; `session.go:117–121`. `46` is `.`. -/
def signToken (token : Bytes) : Bytes := token ++ 46 :: rawURLEncode (st.mac token)

/-- `UnsafeParseToken`; `session.go:123–129`. -/
def unsafeParseToken (signed : Bytes) : Except SessionError Bytes :=
  match lastIndex 46 signed with
  | none => .error .errInvalidSession
  | some idx => .ok (signed.take idx)

/-- `VerifySignature`; `session.go:131–138`. `none` is Go's `false`. -/
def verifySignature (signed : Bytes) : Option Bytes :=
  match unsafeParseToken signed with
  | .error _ => none
  | .ok token => if st.signToken token = signed then some token else none

/-- `CreateSession`; `session.go:140–166`. `token` is the answer of
`GenerateSessionToken`, `id` the new UUID, `now` and `now'` the two clock readings.
The insertion fails on a taken id or token hash and on an unknown user. -/
def createSession (db : DB) (userID ip userAgent : String) (token : Option Bytes) (id : String)
    (now now' : Int) : Except SessionError (DB × Bytes × Session) :=
  match token with
  | none => .error .generate
  | some token =>
    let sess : Session :=
      { id := id, userID := userID, expiresAt := unixMilli (now + st.sessionTTL),
        ipAddress := ip, userAgent := userAgent, impersonatedBy := none,
        createdAt := unixMilli now' }
    let row : SessionRow :=
      { id := sess.id, userID := sess.userID, tokenHash := st.hashToken token,
        expiresAt := sess.expiresAt, ipAddress := sess.ipAddress, userAgent := sess.userAgent,
        impersonatedBy := none, createdAt := sess.createdAt }
    if db.users.rows.any (fun u ↦ u.id == userID) then
      match db.sessions.insert row with
      | none => .error .insertSession
      | some sessions => .ok ({ db with sessions := sessions }, st.signToken token, sess)
    else .error .insertSession

/-- `GetSessionWithUserByTokenHash`; `sessions.sql:5–25`. -/
def getSessionWithUserByTokenHash (db : DB) (tokenHash : Bytes) : Option (SessionRow × UserRow) :=
  (db.sessions.rows.flatMap (fun s ↦
    (db.users.rows.filter (fun u ↦ u.id == s.userID && s.tokenHash == tokenHash)).map
      (fun u ↦ (s, u)))).head?

/-- The session of a joined row; `session.go:184–194`. -/
def sessionOfRow (r : SessionRow) : Session where
  id := r.id
  userID := r.userID
  expiresAt := r.expiresAt
  ipAddress := r.ipAddress
  userAgent := r.userAgent
  impersonatedBy := r.impersonatedBy
  createdAt := r.createdAt

/-- The user of a joined row; `session.go:195–207`. -/
def userOfRow (r : UserRow) : User where
  id := r.id
  name := r.name
  email := r.email
  emailVerified := r.emailVerified
  username := r.username.getD ""
  avatar := r.avatar
  role := r.role
  createdAt := r.createdAt
  updatedAt := r.updatedAt

/-- `sessionUser`; `session.go:176–212`. -/
def sessionUser (db : DB) (token : Bytes) (now : Int) : Except SessionError (Session × User) :=
  match getSessionWithUserByTokenHash db (st.hashToken token) with
  | none => .error .errInvalidSession
  | some (row, u) =>
    let sess := sessionOfRow row
    if unixMilli now > sess.expiresAt then .error .errInvalidSession
    else .ok (sess, userOfRow u)

/-- `SessionUserFromCookie`; `session.go:168–174`. -/
def sessionUserFromCookie (db : DB) (signed : Bytes) (now : Int) :
    Except SessionError (Session × User) :=
  match st.verifySignature signed with
  | none => .error .errInvalidSession
  | some token => st.sessionUser db token now

/-- `RevokeSession`; `session.go:234–236`, `sessions.sql:33–34`. -/
def revokeSession (db : DB) (userID sessionID : String) : DB :=
  { db with sessions := db.sessions.delete (fun r ↦ r.id == sessionID && r.userID == userID) }

/-- `RevokeOtherSessions`; `session.go:238–240`, `sessions.sql:36–37`. -/
def revokeOtherSessions (db : DB) (userID keepID : String) : DB :=
  { db with sessions := db.sessions.delete (fun r ↦ r.userID == userID && r.id != keepID) }

/-- `DeleteSessionByToken`; `session.go:242–244`, `sessions.sql:39–40`. -/
def deleteSessionByToken (db : DB) (token : Bytes) : DB :=
  { db with sessions := db.sessions.delete (fun r ↦ r.tokenHash == st.hashToken token) }

end Store

end Dockstack.Auth
