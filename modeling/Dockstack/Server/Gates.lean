import Dockstack.Auth.KeyRateLimit
import Dockstack.Auth.SessionRuns
import Dockstack.Base.Utf8
import Dockstack.Base.Words

/-!
# Authentication gates

The three gates in front of the handlers: `HumaRequireAuth` and `RequireSession` of
`internal/server/api/auth/middleware.go` and `handleWSAuth` of `internal/server/api/ws/auth.go`.
A gate is given the clock readings that it takes and the queries that the database fails.
-/

namespace Dockstack.Server

open Dockstack.Base
open Dockstack.Auth

/-- What the gates read of a request. A missing header or query parameter is empty. -/
structure AuthRequest where
  authorization : List Char
  cookie : Option Bytes
  token : Bytes
  deriving DecidableEq

/-- The tables behind the gates. -/
structure AuthTables where
  db : DB
  keys : ApiKeyTable

/-- The queries of the gates. -/
inductive AuthQuery where
  | getAPIKeyByHash
  | updateAPIKeyRateLimit
  | getUserByID
  | getSessionWithUserByTokenHash
  deriving DecidableEq

/-- The error text of each query that the database fails. -/
abbrev Failures := AuthQuery → Option String

/-- How a gate ends: the handler runs with a user and a session in its context, or with the user
of a key and no session, or an error is written. -/
inductive GateResult where
  | session (user : User) (sess : Session)
  | key (user : User) (key : APIKey)
  | error (status : Nat) (msg : String)
  deriving DecidableEq

/-- What a gate leaves: its result, the API keys, and its `RateLimit` calls with their answers. -/
structure GateRun where
  result : GateResult
  keys : ApiKeyTable
  limits : List (RateLimitCall × Bool)

/-- The key in an `Authorization` header, unless it is blank; `middleware.go:21`. -/
def bearerKey (authorization : List Char) : Option (List Char) :=
  if "Bearer ".toList.isPrefixOf authorization then
    let token := trimSpace (authorization.drop "Bearer ".length)
    if token ≠ [] then some token else none
  else none

/-- `GetUserByID`; `session.go:246–252`, `users.sql:8–9`. -/
def getUserByID (t : AuthTables) (fails : Failures) (id : String) : Option User :=
  if (fails .getUserByID).isSome then none
  else (t.db.users.rows.find? (fun u ↦ u.id == id)).map Store.userOfRow

/-- `SessionUserFromCookie` on a database that may fail; `session.go:168–212`. -/
def cookieSession (st : Store) (t : AuthTables) (fails : Failures) (cookie : Bytes) (now : Int) :
    Option (Session × User) :=
  if (fails .getSessionWithUserByTokenHash).isSome then none
  else
    match st.sessionUserFromCookie t.db cookie now with
    | .ok r => some r
    | .error _ => none

/-- `HumaRequireAuth`; `middleware.go:18–55`. -/
def humaRequireAuth (st : Store) (t : AuthTables) (fails : Failures) (r : AuthRequest)
    (now now' : Int) : GateRun :=
  match bearerKey r.authorization with
  | some token =>
    match st.verifyKey t.keys (fails .getAPIKeyByHash) (utf8Encode token) now with
    | .error e => ⟨.error 401 e.text, t.keys, []⟩
    | .ok key =>
      if (fails .updateAPIKeyRateLimit).isSome then ⟨.error 500 "rate limit error", t.keys, []⟩
      else
        let call : RateLimitCall := ⟨now', key.id, key.RateLimitMax, key.RateLimitWindow⟩
        let (ok, keys) := rateLimit t.keys key.id key.RateLimitMax key.RateLimitWindow now'
        if !ok then ⟨.error 429 "Rate limit exceeded", keys, [(call, false)]⟩
        else
          match getUserByID t fails key.userID with
          | none => ⟨.error 401 "Unauthorized", keys, [(call, true)]⟩
          | some user => ⟨.key user key, keys, [(call, true)]⟩
  | none =>
    match r.cookie with
    | none => ⟨.error 401 "Unauthorized", t.keys, []⟩
    | some cookie =>
      match cookieSession st t fails cookie now with
      | some (sess, user) => ⟨.session user sess, t.keys, []⟩
      | none => ⟨.error 401 "Unauthorized", t.keys, []⟩

/-- `RequireSession`; `middleware.go:57–71`. -/
def requireSession (st : Store) (t : AuthTables) (fails : Failures) (r : AuthRequest)
    (now : Int) : GateRun :=
  match r.cookie with
  | none => ⟨.error 401 "Unauthorized", t.keys, []⟩
  | some cookie =>
    match cookieSession st t fails cookie now with
    | none => ⟨.error 401 "Unauthorized", t.keys, []⟩
    | some (sess, user) => ⟨.session user sess, t.keys, []⟩

/-- The token path of `handleWSAuth`; `ws/auth.go:36–47`. -/
def wsTokenAuth (st : Store) (t : AuthTables) (fails : Failures) (r : AuthRequest) (now : Int) :
    GateResult :=
  if r.token ≠ [] then
    match st.verifyKey t.keys (fails .getAPIKeyByHash) r.token now with
    | .error _ => .error 401 "Unauthorized"
    | .ok key =>
      match getUserByID t fails key.userID with
      | none => .error 401 "Unauthorized"
      | some user => .key user key
  else .error 401 "Unauthorized"

/-- `handleWSAuth`; `ws/auth.go:27–49`. -/
def handleWSAuth (st : Store) (t : AuthTables) (fails : Failures) (r : AuthRequest)
    (now now' : Int) : GateRun :=
  match r.cookie with
  | none => ⟨wsTokenAuth st t fails r now', t.keys, []⟩
  | some cookie =>
    match cookieSession st t fails cookie now with
    | some (sess, user) => ⟨.session user sess, t.keys, []⟩
    | none => ⟨wsTokenAuth st t fails r now', t.keys, []⟩

/-- The gates. -/
inductive Gate where
  | humaRequireAuth
  | requireSession
  | handleWSAuth
  deriving DecidableEq

/-- A request at a gate, with the clock readings that are taken and the queries that fail. -/
structure GateCall where
  gate : Gate
  request : AuthRequest
  fails : Failures
  now : Int
  now' : Int

/-- What the gate does. -/
def GateCall.run (st : Store) (t : AuthTables) (c : GateCall) : GateRun :=
  match c.gate with
  | .humaRequireAuth => humaRequireAuth st t c.fails c.request c.now c.now'
  | .requireSession => requireSession st t c.fails c.request c.now
  | .handleWSAuth => handleWSAuth st t c.fails c.request c.now c.now'

end Dockstack.Server
