import Dockstack.Auth.Password
import Dockstack.Server.Gates
import Dockstack.Server.ResetPassword
import Dockstack.Server.UserRows

/-!
# The account API

The handlers that read and change accounts: `internal/server/api/auth/auth.go` and
`apikeys.go` of the same directory, over one database, with the gate `HumaRequireAuth` in
front of those that need it. Everything that comes from outside is an argument: the queries
that the database fails, the clock readings, the random draws, the verdict of the limiters.
-/

namespace Dockstack.Server

open Dockstack.Base Dockstack.Auth

/-- The tables of the account API. -/
structure AccountDB where
  users : UserTable
  sessions : Table SessionRow SessionRow.clash
  keys : ApiKeyTable
  credentials : Table CredentialRow CredentialRow.clash
  resetTokens : Table ResetTokenRow ResetTokenRow.clash
  oauthAccounts : Table OAuthAccountRow OAuthAccountRow.clash

namespace AccountDB

variable (db : AccountDB)

/-- The tables that a session lookup joins. -/
def sessionDB : DB := ⟨db.users, db.sessions⟩

/-- The tables behind the gate. -/
def authTables : AuthTables := ⟨db.sessionDB, db.keys⟩

/-- The tables of a password reset. -/
def resetDB : ResetDB := ⟨db.users, db.credentials, db.resetTokens⟩

/-- The tables of an OAuth login. -/
def oauthDB : OAuthDB := ⟨db.users, db.oauthAccounts⟩

/-- The tables after a password reset. -/
def withReset (r : ResetDB) : AccountDB :=
  { db with users := r.users, credentials := r.credentials, resetTokens := r.tokens }

end AccountDB

/-- The queries that only the account API makes. -/
inductive AccountQuery where
  | getUserByUsername
  | getCredential
  | createSession
  | listSessionsByUser
  | deleteSession
  | deleteOtherSessions
  | deleteSessionByTokenHash
  | createAPIKey
  | listAPIKeysByUser
  | deleteAPIKey
  deriving DecidableEq

/-- What a request gets from outside: the verdict of its limiter, the queries that fail, the clock
readings of the gate and of the handler, and the random draws. -/
structure Outside where
  limited : Option HTTPError
  gateFails : Failures
  fails : AccountQuery → Bool
  resetFails : ResetFailures
  oauthFails : OAuthFailures
  profileFails : ProfileFailures
  gateNow : Int
  gateNow' : Int
  now : Int
  now' : Int
  token : Option Bytes
  id : String
  salt : Option Bytes

/-- `authUserResponse`; `auth.go:31–40`. -/
structure AuthUserResponse where
  id : String
  name : String
  email : String
  emailVerified : Bool
  username : String
  avatar : String
  role : String
  createdAt : Int
  deriving DecidableEq

/-- `authSessionResponse`; `auth.go:42–49`. -/
structure AuthSessionResponse where
  id : String
  expiresAt : Int
  userAgent : String
  ipAddress : String
  createdAt : Int
  isCurrent : Bool
  deriving DecidableEq

/-- `apiKeyResponse`; `apikeys.go:13–19`. -/
structure ApiKeyResponse where
  id : String
  name : String
  createdAt : Int
  expiresAt : Option Int
  enabled : Bool
  deriving DecidableEq

/-- `toAuthUser`; `auth.go:51–62`. -/
def toAuthUser (u : User) : AuthUserResponse :=
  ⟨u.id, u.name, u.email, u.emailVerified, u.username, u.avatar, u.role, u.createdAt⟩

/-- The session of a response; `auth.go:217–224`, `:244–251`. -/
def toAuthSession (isCurrent : Bool) (s : Session) : AuthSessionResponse :=
  ⟨s.id, s.expiresAt, s.userAgent, s.ipAddress, s.createdAt, isCurrent⟩

/-- `toAPIKeyResponse`; `apikeys.go:21–29`. -/
def toAPIKeyResponse (k : APIKey) : ApiKeyResponse :=
  ⟨k.id, k.name, k.createdAt, k.expiresAt, k.enabled⟩

/-- What a handler answers. `panicked` is a nil session that is dereferenced, which `Recoverer`
turns into an empty response with status 500. -/
inductive AccountReply where
  | ok
  | signedIn (user : AuthUserResponse) (cookie : Bytes)
  | available (available : Bool)
  | session (session : AuthSessionResponse) (user : AuthUserResponse)
  | sessions (list : List AuthSessionResponse)
  | user (user : AuthUserResponse)
  | keyCreated (key : Bytes) (apiKey : ApiKeyResponse)
  | keys (list : List ApiKeyResponse)
  | error (e : HTTPError)
  | panicked
  deriving DecidableEq

/-- The answer to a request, and the user that it acted for, if it got as far as that. -/
structure Answered where
  reply : AccountReply
  actor : Option String
  deriving DecidableEq

/-- The answer `Unauthorized`. -/
def unauthorized : HTTPError := ⟨401, "Unauthorized"⟩

/-- The user and the session in the context of a handler behind the gate. -/
structure AuthContext where
  user : User
  session : Option Session

section

variable (st : Store) (argon : Argon2id) (o : Outside) (db : AccountDB)

/-- `VerifyPassword` of the store; `session.go:294–303`. -/
def verifyUserPassword (userID : String) (password : Bytes) : Except String Bool :=
  if o.fails .getCredential then .error "database"
  else
    match db.credentials.rows.find? (·.userID == userID) with
    | none => .ok false
    | some row =>
      match verifyPassword argon password row.passwordHash with
      | .error e => .error e.text
      | .ok ok => .ok ok

/-- `UserByUsername`; `session.go:316–325`, `users.sql:14–15`. -/
def userByUsername (username : String) : Option (Option User) :=
  if o.fails .getUserByUsername then none
  else some ((db.users.rows.find? (·.username == some username)).map Store.userOfRow)

/-- A request to sign in: the body, and what the session records of the client. -/
structure SignInBody where
  identifier : String
  password : String
  ip : String
  userAgent : String

/-- `createSession`; `auth.go:76–86`. -/
def signInSession (user : User) (body : SignInBody) : Answered × AccountDB :=
  if o.fails .createSession then
    (⟨.error ⟨500, "failed to create session"⟩, some user.id⟩, db)
  else
    match st.createSession db.sessionDB user.id body.ip body.userAgent o.token o.id o.now
      o.now' with
    | .error _ => (⟨.error ⟨500, "failed to create session"⟩, some user.id⟩, db)
    | .ok (db', cookie, _) =>
      (⟨.signedIn (toAuthUser user) cookie, some user.id⟩, { db with sessions := db'.sessions })

/-- `signInWithPassword`; `auth.go:122–156`, with the lookup and the text of its two callers,
`auth.go:114–120`. The limiters and the dummy verification are outside. -/
def signInWithPassword (byEmail : Bool) (body : SignInBody) : Answered × AccountDB :=
  if body.identifier = "" ∨ body.password = "" then
    (⟨.error ⟨400, if byEmail then "email and password are required"
      else "username and password are required"⟩, none⟩, db)
  else
    match o.limited with
    | some e => (⟨.error e, none⟩, db)
    | none =>
      match if byEmail then userByEmail db.oauthDB o.oauthFails body.identifier
        else userByUsername o db body.identifier with
      | none => (⟨.error ⟨500, "failed to look up user"⟩, none⟩, db)
      | some none => (⟨.error ⟨401, "Invalid credentials"⟩, none⟩, db)
      | some (some user) =>
        match verifyUserPassword argon o db user.id (utf8Encode body.password.toList) with
        | .error _ => (⟨.error ⟨500, "failed to verify password"⟩, none⟩, db)
        | .ok false => (⟨.error ⟨401, "Invalid credentials"⟩, none⟩, db)
        | .ok true => signInSession st o db user body

/-- `handleUsernameAvailable`, which anyone may ask; `auth.go:173–182`. -/
def handleUsernameAvailable (username : String) : Answered × AccountDB :=
  match usernameTaken db.users o.profileFails username with
  | none => (⟨.error ⟨500, "failed to check username"⟩, none⟩, db)
  | some taken => (⟨.available !taken, none⟩, db)

/-- `handleSignOut`, which is not behind the gate; `auth.go:189–202`. The error of the deletion is
dropped. -/
def handleSignOut (cookie : Option Bytes) : Answered × AccountDB :=
  match cookie.bind st.verifySignature with
  | none => (⟨.ok, none⟩, db)
  | some token =>
    if o.fails .deleteSessionByTokenHash then (⟨.ok, none⟩, db)
    else
      (⟨.ok, none⟩, { db with sessions := (st.deleteSessionByToken db.sessionDB token).sessions })

/-- `handleGetSession`; `auth.go:211–227`. The session of a request with an API key is nil. -/
def handleGetSession (ctx : AuthContext) : Answered × AccountDB :=
  match ctx.session with
  | none => (⟨.panicked, some ctx.user.id⟩, db)
  | some sess => (⟨.session (toAuthSession true sess) (toAuthUser ctx.user), some ctx.user.id⟩, db)

/-- `ListSessions`; `session.go:214–232`, `sessions.sql:27–31`. Sessions of one time come in the
order of the table. -/
def listSessions (userID : String) : List Session :=
  ((db.sessions.rows.filter (·.userID == userID)).mergeSort
    (fun a b ↦ decide (b.createdAt ≤ a.createdAt))).map Store.sessionOfRow

/-- `handleListSessions`; `auth.go:233–255`. -/
def handleListSessions (ctx : AuthContext) : Answered × AccountDB :=
  if o.fails .listSessionsByUser then
    (⟨.error ⟨500, "failed to list sessions"⟩, some ctx.user.id⟩, db)
  else
    (⟨.sessions ((listSessions db ctx.user.id).map fun sess ↦
      toAuthSession (ctx.session.any (·.id == sess.id)) sess), some ctx.user.id⟩, db)

/-- `handleRevokeSession`; `auth.go:261–271`. -/
def handleRevokeSession (ctx : AuthContext) (id : String) : Answered × AccountDB :=
  if o.fails .deleteSession then
    (⟨.error ⟨500, "failed to revoke session"⟩, some ctx.user.id⟩, db)
  else
    (⟨.ok, some ctx.user.id⟩,
      { db with sessions := (Store.revokeSession db.sessionDB ctx.user.id id).sessions })

/-- `handleRevokeOthers`; `auth.go:273–283`. -/
def handleRevokeOthers (ctx : AuthContext) : Answered × AccountDB :=
  match ctx.session with
  | none => (⟨.error unauthorized, some ctx.user.id⟩, db)
  | some sess =>
    if o.fails .deleteOtherSessions then
      (⟨.error ⟨500, "failed to revoke sessions"⟩, some ctx.user.id⟩, db)
    else
      (⟨.ok, some ctx.user.id⟩,
        { db with
          sessions := (Store.revokeOtherSessions db.sessionDB ctx.user.id sess.id).sessions })

/-- `HashPassword` of a password in a request. -/
def hashUserPassword (password : String) : Option String :=
  (hashPassword argon (utf8Encode password.toList) o.salt).toOption

/-- `handleChangePassword`; `auth.go:290–311`. -/
def handleChangePassword (ctx : AuthContext) (current new : String) : Answered × AccountDB :=
  if new = "" then (⟨.error ⟨400, "new password is required"⟩, some ctx.user.id⟩, db)
  else
    match verifyUserPassword argon o db ctx.user.id (utf8Encode current.toList) with
    | .error _ => (⟨.error ⟨500, "failed to verify password"⟩, some ctx.user.id⟩, db)
    | .ok false => (⟨.error ⟨400, "current password is incorrect"⟩, some ctx.user.id⟩, db)
    | .ok true =>
      match setPassword db.resetDB o.resetFails ctx.user.id (hashUserPassword argon o new)
        o.now with
      | none => (⟨.error ⟨500, "failed to change password"⟩, some ctx.user.id⟩, db)
      | some r => (⟨.ok, some ctx.user.id⟩, db.withReset r)

/-- The answer of a handler that returns nothing. -/
def AccountReply.ofUnit : Except HTTPError Unit → AccountReply
  | .ok () => .ok
  | .error e => .error e

/-- `handleChangeEmail`; `auth.go:317–333`. -/
def accountChangeEmail (ctx : AuthContext) (email : String) : Answered × AccountDB :=
  let r := handleChangeEmail db.oauthDB o.oauthFails (some ctx.user) email o.now
  (⟨.ofUnit r.2, some ctx.user.id⟩, { db with users := r.1.users })

/-- `handleUpdateUser`; `auth.go:341–377`. -/
def accountUpdateUser (ctx : AuthContext) (req : UpdateUserRequest) : Answered × AccountDB :=
  let r := handleUpdateUser db.users o.profileFails (some ctx.user) req o.now
  (match r.2 with
    | .ok user => ⟨.user (toAuthUser user), some ctx.user.id⟩
    | .error e => ⟨.error e, some ctx.user.id⟩, { db with users := r.1 })

/-- `handleForgotPassword`; `auth.go:383–407`. The token is only logged. -/
def handleForgotPassword (email : String) : Answered × AccountDB :=
  match o.limited with
  | some e => (⟨.error e, none⟩, db)
  | none =>
    match userByEmail db.oauthDB o.oauthFails email with
    | none => (⟨.error ⟨500, "failed to look up user"⟩, none⟩, db)
    | some none => (⟨.ok, none⟩, db)
    | some (some user) =>
      match o.token with
      | none => (⟨.error ⟨500, "failed to generate token"⟩, none⟩, db)
      | some token =>
        match createResetToken db.resetDB o.resetFails user.id (st.hashToken token)
          (unixMilli (o.now + hour)) o.id o.now' with
        | none => (⟨.error ⟨500, "failed to create reset token"⟩, none⟩, db)
        | some r => (⟨.ok, none⟩, db.withReset r)

/-- `handleResetPassword`; `auth.go:414–434`. An error of the last deletion is only logged. -/
def handleResetPassword (token : Bytes) (new : String) : Answered × AccountDB :=
  if token = [] ∨ new = "" then
    (⟨.error ⟨400, "token and new password are required"⟩, none⟩, db)
  else
    match activeResetTokenUser db.resetDB o.resetFails (st.hashToken token) o.now with
    | .error .noRows => (⟨.error ⟨400, "invalid or expired token"⟩, none⟩, db)
    | .error .failed => (⟨.error ⟨500, "failed to look up token"⟩, none⟩, db)
    | .ok userID =>
      match setPassword db.resetDB o.resetFails userID (hashUserPassword argon o new) o.now' with
      | none => (⟨.error ⟨500, "failed to reset password"⟩, some userID⟩, db)
      | some r =>
        (⟨.ok, some userID⟩,
          db.withReset ((deleteResetTokensByUser r o.resetFails userID).getD r))

/-- `handleCreateAPIKey`; `apikeys.go:47–71`. -/
def handleCreateAPIKey (ctx : AuthContext) (name : String) (expiresAt : Option Int) :
    Answered × AccountDB :=
  match o.token with
  | none => (⟨.error ⟨500, "failed to generate key"⟩, some ctx.user.id⟩, db)
  | some key =>
    if o.fails .createAPIKey then
      (⟨.error ⟨500, "failed to create API key"⟩, some ctx.user.id⟩, db)
    else
      match createAPIKey db.users db.keys ⟨ctx.user.id, name, st.hashToken key, expiresAt⟩ o.id
        o.now with
      | none => (⟨.error ⟨500, "failed to create API key"⟩, some ctx.user.id⟩, db)
      | some (keys, created) =>
        (⟨.keyCreated key (toAPIKeyResponse created), some ctx.user.id⟩, { db with keys := keys })

/-- `ListAPIKeys`; `internal/auth/apikeys.go:88–98`, `api_keys.sql:5–6`. -/
def listAPIKeys (userID : String) : List APIKey :=
  ((db.keys.rows.filter (·.userID == userID)).mergeSort
    (fun a b ↦ decide (b.createdAt ≤ a.createdAt))).map apiKeyFromRow

/-- `handleListAPIKeys`; `apikeys.go:73–88`. -/
def handleListAPIKeys (ctx : AuthContext) : Answered × AccountDB :=
  if o.fails .listAPIKeysByUser then
    (⟨.error ⟨500, "failed to list API keys"⟩, some ctx.user.id⟩, db)
  else (⟨.keys ((listAPIKeys db ctx.user.id).map toAPIKeyResponse), some ctx.user.id⟩, db)

/-- `handleDeleteAPIKey`; `apikeys.go:90–100`. -/
def handleDeleteAPIKey (ctx : AuthContext) (id : String) : Answered × AccountDB :=
  if o.fails .deleteAPIKey then
    (⟨.error ⟨500, "failed to delete API key"⟩, some ctx.user.id⟩, db)
  else (⟨.ok, some ctx.user.id⟩, { db with keys := deleteAPIKey db.keys ctx.user.id id })

end

/-- The requests behind the gate. -/
inductive GuardedCall where
  | getSession
  | listSessions
  | revokeSession (id : String)
  | revokeOthers
  | changePassword (current new : String)
  | changeEmail (email : String)
  | updateUser (req : UpdateUserRequest)
  | createAPIKey (name : String) (expiresAt : Option Int)
  | listAPIKeys
  | deleteAPIKey (id : String)

/-- The requests to the account API. -/
inductive AccountCall where
  | signIn (byEmail : Bool) (body : SignInBody)
  | usernameAvailable (username : String)
  | signOut (cookie : Option Bytes)
  | forgotPassword (email : String)
  | resetPassword (token : Bytes) (new : String)
  | guarded (auth : AuthRequest) (call : GuardedCall)

/-- The handler of a request behind the gate; `auth.go:450–456`, `apikeys.go:103–105`. -/
def GuardedCall.handle (st : Store) (argon : Argon2id) (o : Outside) (db : AccountDB)
    (ctx : AuthContext) : GuardedCall → Answered × AccountDB
  | .getSession => handleGetSession db ctx
  | .listSessions => handleListSessions o db ctx
  | .revokeSession id => handleRevokeSession o db ctx id
  | .revokeOthers => handleRevokeOthers o db ctx
  | .changePassword current new => handleChangePassword argon o db ctx current new
  | .changeEmail email => accountChangeEmail o db ctx email
  | .updateUser req => accountUpdateUser o db ctx req
  | .createAPIKey name expiresAt => handleCreateAPIKey st o db ctx name expiresAt
  | .listAPIKeys => handleListAPIKeys o db ctx
  | .deleteAPIKey id => handleDeleteAPIKey o db ctx id

/-- The handler runs for the user whom the gate let through; `middleware.go:15`. -/
def GuardedCall.serve (st : Store) (argon : Argon2id) (o : Outside) (db : AccountDB)
    (call : GuardedCall) : GateResult → Answered × AccountDB
  | .session user sess => call.handle st argon o db ⟨user, some sess⟩
  | .key user _ => call.handle st argon o db ⟨user, none⟩
  | .error status msg => (⟨.error ⟨status, msg⟩, none⟩, db)

/-- Serve a request; `auth.go:442–457`, `apikeys.go:103–106`. -/
def serveAccount (st : Store) (argon : Argon2id) (db : AccountDB) (r : AccountCall × Outside) :
    Answered × AccountDB :=
  let o := r.2
  match r.1 with
  | .signIn byEmail body => signInWithPassword st argon o db byEmail body
  | .usernameAvailable username => handleUsernameAvailable o db username
  | .signOut cookie => handleSignOut st o db cookie
  | .forgotPassword email => handleForgotPassword st o db email
  | .resetPassword token new => handleResetPassword st argon o db token new
  | .guarded auth call =>
    let gate := humaRequireAuth st db.authTables o.gateFails auth o.gateNow o.gateNow'
    call.serve st argon o { db with keys := gate.keys } gate.result

end Dockstack.Server
