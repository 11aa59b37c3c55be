import Dockstack.Base.Service
import Dockstack.Server.Accounts
import Dockstack.Server.GateRuns

/-!
# Who can change an account

Every handler of the account API takes the account that it acts for from the gate, from a
verified password or from a reset token, and changes the rows of that account only. So an
account stays as it is while no request comes with one of its secrets.
-/

namespace Dockstack.Server

open Dockstack.Base Dockstack.Auth

/-- The rows of an account: its user, its credential, its sessions and its API keys. -/
structure SameAccount (userID : String) (db db' : AccountDB) : Prop where
  user : ∀ r : UserRow, r.id = userID → (r ∈ db'.users.rows ↔ r ∈ db.users.rows)
  credential : ∀ r : CredentialRow, r.userID = userID →
    (r ∈ db'.credentials.rows ↔ r ∈ db.credentials.rows)
  sessions : ∀ r : SessionRow, r.userID = userID →
    (r ∈ db'.sessions.rows ↔ r ∈ db.sessions.rows)
  keys : ∀ r : ApiKeyRow, r.userID = userID → (r ∈ db'.keys.rows ↔ r ∈ db.keys.rows)

namespace SameAccount

variable {userID : String} {db db' db'' : AccountDB}

/-- Nothing was changed. -/
protected theorem refl (userID : String) (db : AccountDB) : SameAccount userID db db :=
  ⟨fun _ _ ↦ Iff.rfl, fun _ _ ↦ Iff.rfl, fun _ _ ↦ Iff.rfl, fun _ _ ↦ Iff.rfl⟩

/-- What is the same twice is the same. -/
protected theorem trans (h : SameAccount userID db db') (h' : SameAccount userID db' db'') :
    SameAccount userID db db'' where
  user r hr := (h'.user r hr).trans (h.user r hr)
  credential r hr := (h'.credential r hr).trans (h.credential r hr)
  sessions r hr := (h'.sessions r hr).trans (h.sessions r hr)
  keys r hr := (h'.keys r hr).trans (h.keys r hr)

end SameAccount

/-! ## Secrets -/

/-- The cookie is signed and belongs to a session of the account. -/
def HoldsCookie (st : Store) (db : AccountDB) (userID : String) (cookie : Option Bytes) : Prop :=
  ∃ token, cookie = some (st.signToken token) ∧ ∃ r ∈ db.sessions.rows,
    r.tokenHash = st.hashToken token ∧ r.userID = userID

/-- The bearer token is an API key of the account that is enabled and not past its expiry. -/
def HoldsKey (st : Store) (db : AccountDB) (userID : String) (auth : AuthRequest) (now : Int) :
    Prop :=
  ∃ token, bearerKey auth.authorization = some token ∧ ∃ r ∈ db.keys.rows,
    r.keyHash = st.hashToken (utf8Encode token) ∧ r.userID = userID ∧ r.enabled = true ∧
      ∀ e ∈ r.expiresAt, unixMilli now ≤ e

/-- The body names the account, and the password is verified with its credential. -/
def HoldsPassword (argon : Argon2id) (db : AccountDB) (userID : String) (byEmail : Bool)
    (body : SignInBody) : Prop :=
  (∃ u ∈ db.users.rows, u.id = userID ∧
    if byEmail then u.email = body.identifier else u.username = some body.identifier) ∧
  ∃ r ∈ db.credentials.rows, r.userID = userID ∧
    verifyPassword argon (utf8Encode body.password.toList) r.passwordHash = .ok true

/-- The token is a reset token of the account that is not past its expiry. -/
def HoldsResetToken (st : Store) (db : AccountDB) (userID : String) (token : Bytes) (now : Int) :
    Prop :=
  ∃ r ∈ db.resetTokens.rows, r.tokenHash = st.hashToken token ∧ r.userID = userID ∧
    unixMilli now < r.expiresAt

/-- The request comes with a secret of the account. -/
def Presents (st : Store) (argon : Argon2id) (db : AccountDB) (userID : String) :
    AccountCall × Outside → Prop
  | (.signIn byEmail body, _) => HoldsPassword argon db userID byEmail body
  | (.usernameAvailable _, _) => False
  | (.signOut cookie, _) => HoldsCookie st db userID cookie
  | (.forgotPassword _, _) => False
  | (.resetPassword token _, o) => HoldsResetToken st db userID token o.now
  | (.guarded auth _, o) => HoldsKey st db userID auth o.gateNow ∨
      (bearerKey auth.authorization = none ∧ HoldsCookie st db userID auth.cookie)

/-! ## What a handler does to other accounts -/

section

variable {st : Store} {argon : Argon2id} {o : Outside} {db : AccountDB} {userID : String}

private theorem mem_insert_other {R : Type} {clash : R → R → Bool} {t t' : Table R clash} {r a : R}
    (owner : R → String) (h : t.insert r = some t') (hr : owner r ≠ userID)
    (ha : owner a = userID) : a ∈ t'.rows ↔ a ∈ t.rows := by
  rw [Table.mem_insert h, or_iff_right]
  rintro rfl
  exact hr ha

private theorem mem_delete_other {R : Type} {clash : R → R → Bool} (t : Table R clash)
    {p : R → Bool} {a : R} (h : a ∈ t.rows → p a = false) :
    a ∈ (t.delete p).rows ↔ a ∈ t.rows := by
  rw [Table.mem_delete]
  exact and_iff_left_of_imp h

private theorem mem_map_other {R : Type} (owner : R → String) {p : R → Bool} {f : R → R}
    (hf : ∀ r, owner (f r) = owner r) (hp : ∀ r, p r = true → owner r ≠ userID) {rows : List R}
    {a : R} (ha : owner a = userID) :
    (∃ r ∈ rows, (if p r then f r else r) = a) ↔ a ∈ rows := by
  constructor
  · rintro ⟨r, hr, rfl⟩
    split at ha
    · next hpr =>
      rw [hf] at ha
      exact absurd ha (hp r hpr)
    · next hpr =>
      rw [if_neg hpr]
      exact hr
  · intro hmem
    refine ⟨a, hmem, if_neg ?_⟩
    intro hpa
    exact hp a hpa ha

private theorem sameAccount_signInSession {user : User} (h : user.id ≠ userID)
    (body : SignInBody) : SameAccount userID db (signInSession st o db user body).2 := by
  unfold signInSession
  split
  · exact .refl _ _
  · split
    · exact .refl _ _
    · next db' cookie sess hcreated =>
      refine ⟨fun _ _ ↦ Iff.rfl, fun _ _ ↦ Iff.rfl, fun r hr ↦ ?_, fun _ _ ↦ Iff.rfl⟩
      unfold Store.createSession at hcreated
      split at hcreated
      · contradiction
      · dsimp only at hcreated
        split at hcreated
        · split at hcreated
          · contradiction
          · next sessions hinsert =>
            obtain ⟨rfl, -⟩ := Prod.mk.inj (Except.ok.inj hcreated)
            exact mem_insert_other SessionRow.userID hinsert h hr
        · contradiction

private theorem sameAccount_setPassword {fails : ResetFailures} {id : String}
    {hash : Option String} {now : Int} {r : ResetDB} (hid : id ≠ userID)
    (h : setPassword db.resetDB fails id hash now = some r) :
    SameAccount userID db (db.withReset r) := by
  unfold setPassword at h
  split at h
  · contradiction
  · split at h
    · contradiction
    · obtain ⟨credentials, hupsert, rfl⟩ := Option.map_eq_some_iff.mp h
      refine ⟨fun _ _ ↦ Iff.rfl, fun c hc ↦ ?_, fun _ _ ↦ Iff.rfl, fun _ _ ↦ Iff.rfl⟩
      unfold upsertCredential at hupsert
      split at hupsert
      · contradiction
      · split at hupsert
        · obtain rfl := Option.some.inj hupsert
          apply List.mem_map.trans
          refine mem_map_other CredentialRow.userID ?_ ?_ hc
          · exact fun _ ↦ rfl
          · intro r hr heq
            exact hid ((eq_of_beq hr).symm.trans heq)
        · exact mem_insert_other CredentialRow.userID hupsert hid hc

private theorem sameAccount_resetTokens (db : AccountDB)
    (tokens : Table ResetTokenRow ResetTokenRow.clash) :
    SameAccount userID db { db with resetTokens := tokens } := by
  constructor <;> exact fun _ _ ↦ Iff.rfl

private theorem sameAccount_users {users : UserTable}
    (h : ∀ r : UserRow, r.id = userID → (r ∈ users.rows ↔ r ∈ db.users.rows)) :
    SameAccount userID db { db with users := users } :=
  ⟨h, fun _ _ ↦ Iff.rfl, fun _ _ ↦ Iff.rfl, fun _ _ ↦ Iff.rfl⟩

private theorem sameAccount_sessions {p : SessionRow → Bool}
    (h : ∀ r ∈ db.sessions.rows, r.userID = userID → p r = false) :
    SameAccount userID db { db with sessions := db.sessions.delete p } :=
  ⟨fun _ _ ↦ Iff.rfl, fun _ _ ↦ Iff.rfl, fun r hr ↦ mem_delete_other _ fun hmem ↦ h r hmem hr,
    fun _ _ ↦ Iff.rfl⟩

private theorem sameAccount_keys {keys : ApiKeyTable}
    (h : ∀ r : ApiKeyRow, r.userID = userID → (r ∈ keys.rows ↔ r ∈ db.keys.rows)) :
    SameAccount userID db { db with keys := keys } :=
  ⟨fun _ _ ↦ Iff.rfl, fun _ _ ↦ Iff.rfl, fun _ _ ↦ Iff.rfl, h⟩

private theorem mem_update?_other {users users' : UserTable} {id : String} {f : UserRow → UserRow}
    (h : users.update? (·.id == id) f = some users') (hid : id ≠ userID)
    (hf : ∀ r, (f r).id = r.id) {a : UserRow} (ha : a.id = userID) :
    a ∈ users'.rows ↔ a ∈ users.rows := by
  rw [Table.mem_update? h]
  apply mem_map_other UserRow.id hf _ ha
  intro r hr heq
  exact hid ((eq_of_beq hr).symm.trans heq)

private theorem sameAccount_changeEmail {ctx : AuthContext} (h : ctx.user.id ≠ userID)
    (email : String) : SameAccount userID db (accountChangeEmail o db ctx email).2 := by
  apply sameAccount_users
  intro a ha
  unfold handleChangeEmail
  dsimp only
  split
  · exact Iff.rfl
  · split
    · exact Iff.rfl
    · next db' hchanged =>
      obtain ⟨-, hmap⟩ := Option.ite_none_left_eq_some.mp hchanged
      obtain ⟨users, hupdate, rfl⟩ := Option.map_eq_some_iff.mp hmap
      exact mem_update?_other hupdate h (fun _ ↦ rfl) ha

private theorem mem_updateAndReload {users : UserTable} {fails : ProfileFailures} {user : User}
    (h : user.id ≠ userID) (req : UpdateUserRequest) (username : Option String) (now : Int)
    {a : UserRow} (ha : a.id = userID) :
    a ∈ (updateAndReload users fails user req username now).1.rows ↔ a ∈ users.rows := by
  unfold updateAndReload
  split
  · exact Iff.rfl
  · next users' hupdated =>
    unfold updateUser at hupdated
    split at hupdated
    · contradiction
    · split at hupdated
      · contradiction
      · next hwrite =>
        obtain rfl := Except.ok.inj hupdated
        obtain ⟨-, hupdate⟩ := Option.ite_none_left_eq_some.mp hwrite
        exact mem_update?_other hupdate h (fun _ ↦ rfl) ha

private theorem sameAccount_updateUser {ctx : AuthContext} (h : ctx.user.id ≠ userID)
    (req : UpdateUserRequest) : SameAccount userID db (accountUpdateUser o db ctx req).2 := by
  apply sameAccount_users
  intro a ha
  unfold handleUpdateUser
  dsimp only
  split
  · exact Iff.rfl
  · exact mem_updateAndReload h req none o.now ha
  · split
    · exact Iff.rfl
    · exact mem_updateAndReload h req _ o.now ha

private theorem sameAccount_createAPIKey {ctx : AuthContext} (h : ctx.user.id ≠ userID)
    (name : String) (expiresAt : Option Int) :
    SameAccount userID db (handleCreateAPIKey st o db ctx name expiresAt).2 := by
  unfold handleCreateAPIKey
  split
  · exact .refl _ _
  · split
    · exact .refl _ _
    · split
      · exact .refl _ _
      · next keys created hcreated =>
        apply sameAccount_keys
        intro r hr
        unfold createAPIKey at hcreated
        dsimp only at hcreated
        split at hcreated
        · split at hcreated
          · contradiction
          · next hinsert =>
            obtain ⟨rfl, -⟩ := Prod.mk.inj (Option.some.inj hcreated)
            exact mem_insert_other ApiKeyRow.userID hinsert h hr
        · contradiction

private theorem sameAccount_handle {ctx : AuthContext} (h : ctx.user.id ≠ userID)
    (call : GuardedCall) : SameAccount userID db (call.handle st argon o db ctx).2 := by
  cases call with
  | getSession =>
    show SameAccount userID db (handleGetSession db ctx).2
    unfold handleGetSession
    split <;> exact .refl _ _
  | listSessions =>
    show SameAccount userID db (handleListSessions o db ctx).2
    unfold handleListSessions
    split <;> exact .refl _ _
  | revokeSession id =>
    show SameAccount userID db (handleRevokeSession o db ctx id).2
    unfold handleRevokeSession
    split
    · exact .refl _ _
    · apply sameAccount_sessions
      intro r _ hr
      rw [Bool.and_eq_false_iff]
      right
      rw [beq_eq_false_iff_ne, hr]
      exact h.symm
  | revokeOthers =>
    show SameAccount userID db (handleRevokeOthers o db ctx).2
    unfold handleRevokeOthers
    split
    · exact .refl _ _
    · split
      · exact .refl _ _
      · apply sameAccount_sessions
        intro r _ hr
        rw [Bool.and_eq_false_iff]
        left
        rw [beq_eq_false_iff_ne, hr]
        exact h.symm
  | changePassword current new =>
    show SameAccount userID db (handleChangePassword argon o db ctx current new).2
    unfold handleChangePassword
    split
    · exact .refl _ _
    · split
      · exact .refl _ _
      · exact .refl _ _
      · split
        · exact .refl _ _
        · next hset => exact sameAccount_setPassword h hset
  | changeEmail email => exact sameAccount_changeEmail h email
  | updateUser req => exact sameAccount_updateUser h req
  | createAPIKey name expiresAt => exact sameAccount_createAPIKey h name expiresAt
  | listAPIKeys =>
    show SameAccount userID db (handleListAPIKeys o db ctx).2
    unfold handleListAPIKeys
    split <;> exact .refl _ _
  | deleteAPIKey id =>
    show SameAccount userID db (handleDeleteAPIKey o db ctx id).2
    unfold handleDeleteAPIKey
    split
    · exact .refl _ _
    · apply sameAccount_keys
      intro r hr
      apply mem_delete_other
      intro _
      rw [Bool.and_eq_false_iff]
      right
      rw [beq_eq_false_iff_ne, hr]
      exact h.symm

/-! ## Whom a request acts for -/

private theorem mem_gate_keys {auth : AuthRequest} {fails : Failures} {now now' : Int}
    (h : ¬ HoldsKey st db userID auth now) {r : ApiKeyRow} (hr : r.userID = userID) :
    r ∈ (humaRequireAuth st db.authTables fails auth now now').keys.rows ↔ r ∈ db.keys.rows := by
  unfold humaRequireAuth
  split
  · next token htoken =>
    split
    · exact Iff.rfl
    · next key hkey =>
      obtain ⟨row, hrow, hhash, rfl, henabled, hexpires⟩ := Store.verifyKey_eq_ok hkey
      have hother : row.userID ≠ userID := by
        intro howner
        exact h ⟨token, htoken, row, hrow, hhash, howner, henabled, hexpires⟩
      have hcharged : r ∈ (rateLimit db.keys row.id (apiKeyFromRow row).RateLimitMax
          (apiKeyFromRow row).RateLimitWindow now').2.rows ↔ r ∈ db.keys.rows := by
        rw [mem_rateLimit]
        constructor
        · rintro ⟨r', hr', rfl⟩
          split at hr
          · next hcharge =>
            have hid := (Bool.and_eq_true_iff.mp hcharge).1
            have hsame := eq_of_id_eq hr' hrow (eq_of_beq hid)
            rw [hsame] at hr
            exact absurd hr hother
          · next hcharge =>
            rw [if_neg hcharge]
            exact hr'
        · intro hmem
          refine ⟨r, hmem, if_neg ?_⟩
          intro hcharge
          have hid := (Bool.and_eq_true_iff.mp hcharge).1
          have hsame := eq_of_id_eq hmem hrow (eq_of_beq hid)
          rw [hsame] at hr
          exact hother hr
      split
      · exact Iff.rfl
      · dsimp only
        split
        · exact hcharged
        · split
          · exact hcharged
          · exact hcharged
  · split
    · exact Iff.rfl
    · split
      · exact Iff.rfl
      · exact Iff.rfl

private theorem gate_user (st : Store) (db : AccountDB) (auth : AuthRequest) (fails : Failures)
    (now now' : Int) :
    (∀ user sess, (humaRequireAuth st db.authTables fails auth now now').result =
        .session user sess →
      bearerKey auth.authorization = none ∧ HoldsCookie st db user.id auth.cookie) ∧
    ∀ user key, (humaRequireAuth st db.authTables fails auth now now').result = .key user key →
      HoldsKey st db user.id auth now := by
  obtain ⟨hsession, hkey⟩ := humaRequireAuth_result st db.authTables fails auth now now'
  constructor
  · intro user sess hresult
    constructor
    · cases hbearer : bearerKey auth.authorization with
      | none => rfl
      | some token =>
        unfold humaRequireAuth at hresult
        rw [hbearer] at hresult
        dsimp only at hresult
        repeat' split at hresult
        all_goals contradiction
    · obtain ⟨cookie, hcookie, hfound⟩ := hsession user sess hresult
      obtain ⟨token, row, u, hsigned, hrow, -, hid, hhash, -, -, rfl⟩ :=
        st.sessionUserFromCookie_eq_ok.mp (cookieSession_eq_some hfound)
      exact ⟨token, hcookie.trans (congrArg some hsigned), row, hrow, hhash, hid.symm⟩
  · intro user key hresult
    obtain ⟨⟨token, htoken, hverified⟩, huser, -⟩ := hkey user key hresult
    obtain ⟨row, hrow, hhash, rfl, henabled, hexpires⟩ := Store.verifyKey_eq_ok hverified
    have hid := getUserByID_eq_some huser
    exact ⟨token, htoken, row, hrow, hhash, hid.symm, henabled, hexpires⟩

private theorem lookup_user {byEmail : Bool} {identifier : String} {user : User}
    (h : (if byEmail then userByEmail db.oauthDB o.oauthFails identifier
      else userByUsername o db identifier) = some (some user)) :
    ∃ u ∈ db.users.rows, u.id = user.id ∧
      if byEmail then u.email = identifier else u.username = some identifier := by
  cases byEmail with
  | true =>
    obtain ⟨-, hfound⟩ := Option.ite_none_left_eq_some.mp h
    obtain ⟨u, hu, rfl⟩ := Option.map_eq_some_iff.mp (Option.some.inj hfound)
    have hemail := List.find?_some hu
    exact ⟨u, List.mem_of_find?_eq_some hu, rfl, eq_of_beq hemail⟩
  | false =>
    obtain ⟨-, hfound⟩ := Option.ite_none_left_eq_some.mp h
    obtain ⟨u, hu, rfl⟩ := Option.map_eq_some_iff.mp (Option.some.inj hfound)
    have husername := List.find?_some hu
    exact ⟨u, List.mem_of_find?_eq_some hu, rfl, eq_of_beq husername⟩

private theorem verifyUserPassword_eq_ok {id : String} {password : Bytes}
    (h : verifyUserPassword argon o db id password = .ok true) :
    ∃ r ∈ db.credentials.rows, r.userID = id ∧
      verifyPassword argon password r.passwordHash = .ok true := by
  unfold verifyUserPassword at h
  split at h
  · contradiction
  · split at h
    · contradiction
    · next row hrow =>
      have howner := List.find?_some hrow
      split at h
      · contradiction
      · next ok hok =>
        obtain rfl := Except.ok.inj h
        exact ⟨row, List.mem_of_find?_eq_some hrow, eq_of_beq howner, hok⟩

/-- The request leaves the account alone and does not act for it. -/
private def Spares (userID : String) (db : AccountDB) (r : Answered × AccountDB) : Prop :=
  SameAccount userID db r.2 ∧ r.1.actor ≠ some userID

private theorem spares_of_none {reply : AccountReply} :
    Spares userID db (⟨reply, none⟩, db) := ⟨.refl _ _, nofun⟩

private theorem actor_signInSession (st : Store) (o : Outside) (db : AccountDB) (user : User)
    (body : SignInBody) : (signInSession st o db user body).1.actor = some user.id := by
  unfold signInSession
  split
  · rfl
  · split <;> rfl

private theorem spares_signIn {byEmail : Bool} {body : SignInBody}
    (h : ¬ HoldsPassword argon db userID byEmail body) :
    Spares userID db (signInWithPassword st argon o db byEmail body) := by
  unfold signInWithPassword
  split
  · exact spares_of_none
  · split
    · exact spares_of_none
    · split
      · exact spares_of_none
      · exact spares_of_none
      · next user hlookup =>
        split
        · exact spares_of_none
        · exact spares_of_none
        · next hverified =>
          have hother : user.id ≠ userID := by
            rintro rfl
            exact h ⟨lookup_user hlookup, verifyUserPassword_eq_ok hverified⟩
          refine ⟨sameAccount_signInSession hother body, ?_⟩
          rw [actor_signInSession]
          exact fun heq ↦ hother (Option.some.inj heq)

private theorem spares_signOut {cookie : Option Bytes} (h : ¬ HoldsCookie st db userID cookie) :
    Spares userID db (handleSignOut st o db cookie) := by
  unfold handleSignOut
  split
  · exact spares_of_none
  · next token htoken =>
    split
    · exact spares_of_none
    · obtain ⟨signed, rfl, hsigned⟩ := Option.bind_eq_some_iff.mp htoken
      rw [Store.verifySignature_eq_some] at hsigned
      refine ⟨sameAccount_sessions fun r hmem hr ↦ ?_, nofun⟩
      rw [beq_eq_false_iff_ne]
      intro hhash
      exact h ⟨token, congrArg some hsigned, r, hmem, hhash, hr⟩

private theorem spares_forgotPassword {email : String} :
    Spares userID db (handleForgotPassword st o db email) := by
  unfold handleForgotPassword
  split
  · exact spares_of_none
  · split
    · exact spares_of_none
    · exact spares_of_none
    · split
      · exact spares_of_none
      · split
        · exact spares_of_none
        · next hcreated =>
          obtain ⟨-, hmap⟩ := Option.ite_none_left_eq_some.mp hcreated
          obtain ⟨tokens, -, rfl⟩ := Option.map_eq_some_iff.mp hmap
          exact ⟨sameAccount_resetTokens db tokens, nofun⟩

private theorem holdsResetToken {token : Bytes} {fails : ResetFailures} {id : String} {now : Int}
    (h : activeResetTokenUser db.resetDB fails (st.hashToken token) now = .ok id) :
    HoldsResetToken st db id token now := by
  unfold activeResetTokenUser at h
  split at h
  · contradiction
  · split at h
    · contradiction
    · next row hrow =>
      obtain rfl := Except.ok.inj h
      have hfound := List.find?_some hrow
      rw [Bool.and_eq_true, beq_iff_eq, decide_eq_true_eq] at hfound
      exact ⟨row, List.mem_of_find?_eq_some hrow, hfound.1, rfl, hfound.2⟩

private theorem spares_resetPassword {token : Bytes} {new : String}
    (h : ¬ HoldsResetToken st db userID token o.now) :
    Spares userID db (handleResetPassword st argon o db token new) := by
  unfold handleResetPassword
  split
  · exact spares_of_none
  · split
    · exact spares_of_none
    · exact spares_of_none
    · next id hactive =>
      have hother : id ≠ userID := by
        rintro rfl
        exact h (holdsResetToken hactive)
      have hactor : some id ≠ some userID := fun heq ↦ hother (Option.some.inj heq)
      split
      · exact ⟨.refl _ _, hactor⟩
      · next r hset =>
        refine ⟨(sameAccount_setPassword hother hset).trans ?_, hactor⟩
        unfold deleteResetTokensByUser
        split
        · exact .refl _ _
        · exact sameAccount_resetTokens (db.withReset r) _

/-- A handler behind the gate acts for the user in its context. -/
theorem actor_handle (ctx : AuthContext) (call : GuardedCall) :
    (call.handle st argon o db ctx).1.actor = some ctx.user.id := by
  cases call with
  | getSession =>
    show (handleGetSession db ctx).1.actor = _
    unfold handleGetSession
    split <;> rfl
  | listSessions =>
    show (handleListSessions o db ctx).1.actor = _
    unfold handleListSessions
    split <;> rfl
  | revokeSession id =>
    show (handleRevokeSession o db ctx id).1.actor = _
    unfold handleRevokeSession
    split <;> rfl
  | revokeOthers =>
    show (handleRevokeOthers o db ctx).1.actor = _
    unfold handleRevokeOthers
    split
    · rfl
    · split <;> rfl
  | changePassword current new =>
    show (handleChangePassword argon o db ctx current new).1.actor = _
    unfold handleChangePassword
    split
    · rfl
    · split
      · rfl
      · rfl
      · split <;> rfl
  | changeEmail email => rfl
  | updateUser req =>
    show (accountUpdateUser o db ctx req).1.actor = _
    unfold accountUpdateUser
    dsimp only
    split <;> rfl
  | createAPIKey name expiresAt =>
    show (handleCreateAPIKey st o db ctx name expiresAt).1.actor = _
    unfold handleCreateAPIKey
    split
    · rfl
    · split
      · rfl
      · split <;> rfl
  | listAPIKeys =>
    show (handleListAPIKeys o db ctx).1.actor = _
    unfold handleListAPIKeys
    split <;> rfl
  | deleteAPIKey id =>
    show (handleDeleteAPIKey o db ctx id).1.actor = _
    unfold handleDeleteAPIKey
    split <;> rfl

private theorem spares_guarded {auth : AuthRequest} {call : GuardedCall}
    (hkey : ¬ HoldsKey st db userID auth o.gateNow)
    (hcookie : ¬ (bearerKey auth.authorization = none ∧ HoldsCookie st db userID auth.cookie)) :
    Spares userID db (serveAccount st argon db (.guarded auth call, o)) := by
  let gate := humaRequireAuth st db.authTables o.gateFails auth o.gateNow o.gateNow'
  have hgate : SameAccount userID db { db with keys := gate.keys } :=
    sameAccount_keys fun r hr ↦ mem_gate_keys hkey hr
  have hhandle {ctx : AuthContext} (hother : ctx.user.id ≠ userID) :
      Spares userID db (call.handle st argon o { db with keys := gate.keys } ctx) := by
    refine ⟨hgate.trans (sameAccount_handle hother call), ?_⟩
    rw [actor_handle]
    exact fun heq ↦ hother (Option.some.inj heq)
  obtain ⟨hsession, hbearer⟩ := gate_user st db auth o.gateFails o.gateNow o.gateNow'
  show Spares userID db (call.serve st argon o { db with keys := gate.keys } gate.result)
  cases hresult : gate.result with
  | session user sess =>
    apply hhandle
    show user.id ≠ userID
    rintro rfl
    exact hcookie (hsession user sess hresult)
  | key user key =>
    apply hhandle
    show user.id ≠ userID
    rintro rfl
    exact hkey (hbearer user key hresult)
  | error status msg => exact ⟨hgate, nofun⟩

private theorem spares_serveAccount {r : AccountCall × Outside}
    (h : ¬ Presents st argon db userID r) : Spares userID db (serveAccount st argon db r) := by
  obtain ⟨call, o⟩ := r
  cases call with
  | signIn byEmail body => exact spares_signIn h
  | usernameAvailable username =>
    show Spares userID db (handleUsernameAvailable o db username)
    unfold handleUsernameAvailable
    split
    · exact spares_of_none
    · exact spares_of_none
  | signOut cookie => exact spares_signOut h
  | forgotPassword email => exact spares_forgotPassword
  | resetPassword token new => exact spares_resetPassword h
  | guarded auth call =>
    rw [Presents, not_or] at h
    exact spares_guarded h.1 h.2

/-! ## Reset tokens -/

/-- A sign-in writes sessions only. -/
theorem signIn_frame (st : Store) (argon : Argon2id) (o : Outside) (db : AccountDB)
    (byEmail : Bool) (body : SignInBody) :
    ∃ sessions, (signInWithPassword st argon o db byEmail body).2 =
      { db with sessions := sessions } := by
  have hsession (user : User) : ∃ sessions,
      (signInSession st o db user body).2 = { db with sessions := sessions } := by
    unfold signInSession
    split
    · exact ⟨_, rfl⟩
    · split <;> exact ⟨_, rfl⟩
  unfold signInWithPassword
  split
  · exact ⟨_, rfl⟩
  · split
    · exact ⟨_, rfl⟩
    · split
      · exact ⟨_, rfl⟩
      · exact ⟨_, rfl⟩
      · split
        · exact ⟨_, rfl⟩
        · exact ⟨_, rfl⟩
        · exact hsession _

/-- A sign-out writes sessions only. -/
theorem signOut_frame (st : Store) (o : Outside) (db : AccountDB) (cookie : Option Bytes) :
    ∃ sessions, (handleSignOut st o db cookie).2 = { db with sessions := sessions } := by
  unfold handleSignOut
  split
  · exact ⟨_, rfl⟩
  · split <;> exact ⟨_, rfl⟩

/-- A handler behind the gate leaves the reset tokens alone, and all but one the credentials. -/
theorem handle_frame (st : Store) (argon : Argon2id) (o : Outside) (db : AccountDB)
    (ctx : AuthContext) (call : GuardedCall) :
    (call.handle st argon o db ctx).2.resetTokens = db.resetTokens ∧
      ((∃ current new, call = .changePassword current new) ∨
        (call.handle st argon o db ctx).2.credentials = db.credentials) := by
  let Kept (r : Answered × AccountDB) : Prop := r.2.resetTokens = db.resetTokens ∧
    ((∃ current new, call = .changePassword current new) ∨ r.2.credentials = db.credentials)
  have hkept {a : Answered} : Kept (a, db) := ⟨rfl, .inr rfl⟩
  cases call with
  | getSession =>
    show Kept (handleGetSession db ctx)
    unfold handleGetSession
    split <;> exact hkept
  | listSessions =>
    show Kept (handleListSessions o db ctx)
    unfold handleListSessions
    split <;> exact hkept
  | revokeSession id =>
    show Kept (handleRevokeSession o db ctx id)
    unfold handleRevokeSession
    split
    · exact hkept
    · exact ⟨rfl, .inr rfl⟩
  | revokeOthers =>
    show Kept (handleRevokeOthers o db ctx)
    unfold handleRevokeOthers
    split
    · exact hkept
    · split
      · exact hkept
      · exact ⟨rfl, .inr rfl⟩
  | changePassword current new =>
    refine ⟨?_, .inl ⟨current, new, rfl⟩⟩
    show (handleChangePassword argon o db ctx current new).2.resetTokens = _
    unfold handleChangePassword
    split
    · rfl
    · split
      · rfl
      · rfl
      · split
        · rfl
        · next hset => exact setPassword_eq_some hset
  | changeEmail email => exact ⟨rfl, .inr rfl⟩
  | updateUser req => exact ⟨rfl, .inr rfl⟩
  | createAPIKey name expiresAt =>
    show Kept (handleCreateAPIKey st o db ctx name expiresAt)
    unfold handleCreateAPIKey
    split
    · exact hkept
    · split
      · exact hkept
      · split
        · exact hkept
        · exact ⟨rfl, .inr rfl⟩
  | listAPIKeys =>
    show Kept (handleListAPIKeys o db ctx)
    unfold handleListAPIKeys
    split <;> exact hkept
  | deleteAPIKey id =>
    show Kept (handleDeleteAPIKey o db ctx id)
    unfold handleDeleteAPIKey
    split
    · exact hkept
    · exact ⟨rfl, .inr rfl⟩

private theorem mem_forgotPassword {email : String} {r : ResetTokenRow}
    (h : r ∈ (handleForgotPassword st o db email).2.resetTokens.rows) :
    r ∈ db.resetTokens.rows ∨ ∃ token ∈ o.token, r.tokenHash = st.hashToken token := by
  unfold handleForgotPassword at h
  split at h
  · exact .inl h
  · split at h
    · exact .inl h
    · exact .inl h
    · split at h
      · exact .inl h
      · next token htoken =>
        split at h
        · exact .inl h
        · next hcreated =>
          apply (createResetToken_eq_some hcreated r h).symm.imp_right
          intro hhash
          exact ⟨token, htoken, hhash⟩

private theorem mem_resetPassword {token : Bytes} {new : String} {r : ResetTokenRow}
    (h : r ∈ (handleResetPassword st argon o db token new).2.resetTokens.rows) :
    r ∈ db.resetTokens.rows := by
  unfold handleResetPassword at h
  split at h
  · exact h
  · split at h
    · exact h
    · exact h
    · next id _ =>
      split at h
      · exact h
      · next r' hset =>
        have hkept := setPassword_eq_some hset
        change r ∈ ((deleteResetTokensByUser r' o.resetFails id).getD r').tokens.rows at h
        cases hdeleted : deleteResetTokensByUser r' o.resetFails id with
        | none =>
          rw [hdeleted, Option.getD_none, hkept] at h
          exact h
        | some r'' =>
          rw [hdeleted, Option.getD_some] at h
          have hmem := (deleteResetTokensByUser_eq_some hdeleted r h).1
          rwa [hkept] at hmem

private theorem mem_serveAccount_resetTokens {c : AccountCall × Outside} {r : ResetTokenRow}
    (h : r ∈ (serveAccount st argon db c).2.resetTokens.rows) :
    r ∈ db.resetTokens.rows ∨ ∃ token ∈ c.2.token, r.tokenHash = st.hashToken token := by
  obtain ⟨call, o⟩ := c
  cases call with
  | signIn byEmail body =>
    left
    obtain ⟨sessions, hframe⟩ := signIn_frame st argon o db byEmail body
    change r ∈ (signInWithPassword st argon o db byEmail body).2.resetTokens.rows at h
    rwa [hframe] at h
  | usernameAvailable username =>
    left
    change r ∈ (handleUsernameAvailable o db username).2.resetTokens.rows at h
    unfold handleUsernameAvailable at h
    split at h <;> exact h
  | signOut cookie =>
    left
    obtain ⟨sessions, hframe⟩ := signOut_frame st o db cookie
    change r ∈ (handleSignOut st o db cookie).2.resetTokens.rows at h
    rwa [hframe] at h
  | forgotPassword email => exact mem_forgotPassword h
  | resetPassword token new => exact .inl (mem_resetPassword h)
  | guarded auth call =>
    left
    let gate := humaRequireAuth st db.authTables o.gateFails auth o.gateNow o.gateNow'
    change r ∈ (call.serve st argon o { db with keys := gate.keys }
      gate.result).2.resetTokens.rows at h
    cases hresult : gate.result with
    | session user sess =>
      rw [hresult] at h
      have hkept := (handle_frame st argon o { db with keys := gate.keys } ⟨user, some sess⟩ call).1
      exact hkept ▸ h
    | key user key =>
      rw [hresult] at h
      have hkept := (handle_frame st argon o { db with keys := gate.keys } ⟨user, none⟩ call).1
      exact hkept ▸ h
    | error status msg =>
      rw [hresult] at h
      exact h

/-! ## Runs -/

/-- None of the requests comes with a secret that the account has in the database, and none
resets a password with a token that one of them draws. -/
structure Foreign (st : Store) (argon : Argon2id) (userID : String) (db : AccountDB)
    (calls : List (AccountCall × Outside)) : Prop where
  secret : ∀ c ∈ calls, ¬ Presents st argon db userID c
  token : ∀ token new o, (.resetPassword token new, o) ∈ calls →
    ∀ c ∈ calls, ∀ drawn ∈ c.2.token, st.hashToken token ≠ st.hashToken drawn

private theorem presents_of_sameAccount {db' : AccountDB} {c : AccountCall × Outside}
    (hsame : SameAccount userID db db') (h : Presents st argon db' userID c) :
    Presents st argon db userID c ∨ ∃ token new, c.1 = .resetPassword token new ∧
      HoldsResetToken st db' userID token c.2.now := by
  obtain ⟨call, o⟩ := c
  have hcookie (cookie : Option Bytes) (h : HoldsCookie st db' userID cookie) :
      HoldsCookie st db userID cookie := by
    obtain ⟨token, hsigned, r, hr, hhash, howner⟩ := h
    exact ⟨token, hsigned, r, (hsame.sessions r howner).mp hr, hhash, howner⟩
  cases call with
  | signIn byEmail body =>
    left
    obtain ⟨⟨u, hu, hid, hnamed⟩, r, hr, howner, hverified⟩ := h
    exact ⟨⟨u, (hsame.user u hid).mp hu, hid, hnamed⟩,
      r, (hsame.credential r howner).mp hr, howner, hverified⟩
  | usernameAvailable username => exact h.elim
  | signOut cookie => exact .inl (hcookie cookie h)
  | forgotPassword email => exact h.elim
  | resetPassword token new => exact .inr ⟨token, new, rfl, h⟩
  | guarded auth call =>
    left
    apply Or.imp _ _ h
    · rintro ⟨token, hbearer, r, hr, hhash, howner, hlive⟩
      exact ⟨token, hbearer, r, (hsame.keys r howner).mp hr, hhash, howner, hlive⟩
    · rintro ⟨hnone, hcookie'⟩
      exact ⟨hnone, hcookie auth.cookie hcookie'⟩

private theorem Foreign.serveAccount {c : AccountCall × Outside}
    {calls : List (AccountCall × Outside)} (h : Foreign st argon userID db (c :: calls)) :
    Foreign st argon userID (serveAccount st argon db c).2 calls := by
  have hspares := spares_serveAccount (h.secret c List.mem_cons_self)
  constructor
  · intro c' hc' hpresents
    have hmem' : c' ∈ c :: calls := List.mem_cons_of_mem c hc'
    obtain hsecret | ⟨token, new, hreset, r, hr, hhash, howner, hlive⟩ :=
      presents_of_sameAccount hspares.1 hpresents
    · exact h.secret c' hmem' hsecret
    · obtain ⟨call, o⟩ := c'
      obtain rfl := hreset
      obtain hold | ⟨drawn, hdrawn, hhash'⟩ := mem_serveAccount_resetTokens hr
      · exact h.secret _ hmem' ⟨r, hold, hhash, howner, hlive⟩
      · exact h.token token new o hmem' c List.mem_cons_self drawn hdrawn (hhash.symm.trans hhash')
  · intro token new o hmem c' hc'
    exact h.token token new o (List.mem_cons_of_mem c hmem) c' (List.mem_cons_of_mem c hc')

/-- Foreign requests leave all rows of the account as they are. -/
theorem Foreign.sameAccount {calls : List (AccountCall × Outside)}
    (h : Foreign st argon userID db calls) :
    SameAccount userID db (serveAll (Server.serveAccount st argon) db calls).2 := by
  induction calls generalizing db with
  | nil => exact .refl _ _
  | cons c calls ih =>
    have hspares := spares_serveAccount (h.secret c List.mem_cons_self)
    exact hspares.1.trans (ih h.serveAccount)

private theorem Foreign.actor_ne {calls : List (AccountCall × Outside)}
    (h : Foreign st argon userID db calls) :
    ∀ a ∈ (serveAll (Server.serveAccount st argon) db calls).1, a.actor ≠ some userID := by
  induction calls generalizing db with
  | nil => exact nofun
  | cons c calls ih =>
    intro a ha
    obtain rfl | ha := List.mem_cons.mp ha
    · exact (spares_serveAccount (h.secret c List.mem_cons_self)).2
    · exact ih h.serveAccount a ha

/-- Requests without a secret of an account leave all of its rows as they are, and no one of them
acts for it. -/
theorem serveAll_sameAccount (st : Store) (argon : Argon2id) (userID : String) (db : AccountDB)
    (calls : List (AccountCall × Outside)) (h : Foreign st argon userID db calls) :
    SameAccount userID db (serveAll (serveAccount st argon) db calls).2 ∧
      ∀ a ∈ (serveAll (serveAccount st argon) db calls).1, a.actor ≠ some userID :=
  ⟨h.sameAccount, h.actor_ne⟩

end

/-- Nothing fails, and nothing is drawn. -/
def demoOutside : Outside where
  limited := none
  gateFails _ := none
  fails _ := false
  resetFails _ := false
  oauthFails _ := false
  profileFails _ := false
  gateNow := 0
  gateNow' := 0
  now := 0
  now' := 0
  token := none
  id := ""
  salt := none

/-- The administrator, who has a password and a session, and a guest with a session. -/
def demoAccounts : AccountDB where
  users.rows := [⟨"u1", "Admin", "admin@example.com", true, some "admin", "", "admin", 0, 0⟩,
    ⟨"u2", "Guest", "guest@example.com", true, some "guest", "", "user", 0, 0⟩]
  users.unique := by decide
  sessions.rows := [
    ⟨"s1", "u1", demoStore.hashToken [1], SessionTTL, "10.0.0.1", "browser", none, 0⟩,
    ⟨"s2", "u2", demoStore.hashToken demoToken, SessionTTL, "10.0.0.2", "browser", none, 0⟩]
  sessions.unique := by decide +kernel
  keys := Table.empty
  credentials.rows := [⟨"u1", encodeHash argon2Memory argon2Time argon2Threads demoSalt
    (demoArgon.idKey [112, 97, 115, 115, 119, 111, 114, 100] demoSalt argon2Time argon2Memory
      argon2Threads argon2KeyLen), 0⟩]
  credentials.unique := List.pairwise_singleton _ _
  resetTokens := Table.empty
  oauthAccounts := Table.empty

/-- The guest tries to revoke the administrator's session, and to guess the password. -/
def demoAccountCalls : List (AccountCall × Outside) :=
  [(.guarded ⟨[], some (demoStore.signToken demoToken), []⟩ (.revokeSession "s1"), demoOutside),
    (.signIn true ⟨"admin@example.com", "guess", "10.0.0.2", "browser"⟩, demoOutside)]

private theorem foreign_demoAccountCalls :
    Foreign demoStore demoArgon "u1" demoAccounts demoAccountCalls := by
  constructor
  · intro c hc
    obtain rfl | hc := List.mem_cons.mp hc
    · rintro (⟨token, hbearer, -⟩ | ⟨-, token, hcookie, r, hr, hhash, howner⟩)
      · contradiction
      · obtain rfl := demoStore.signToken_injective (Option.some.inj hcookie)
        obtain rfl | rfl : r = _ ∨ r = _ := by simpa [demoAccounts] using hr
        · exact absurd hhash (by decide +kernel)
        · exact absurd howner (by decide)
    · obtain rfl := List.mem_singleton.mp hc
      rintro ⟨-, r, hr, -, hverified⟩
      obtain rfl := List.mem_singleton.mp hr
      rw [verifyPassword_encodeHash] at hverified
      exact absurd hverified (by decide +kernel)
  · intro token new o hmem
    obtain heq | hmem := List.mem_cons.mp hmem
    · cases heq
    · cases List.mem_singleton.mp hmem

/-- The administrator's account survives the guest. -/
theorem serveAll_sameAccount_demo : SameAccount "u1" demoAccounts
      (serveAll (serveAccount demoStore demoArgon) demoAccounts demoAccountCalls).2 ∧
    ∀ a ∈ (serveAll (serveAccount demoStore demoArgon) demoAccounts demoAccountCalls).1,
      a.actor ≠ some "u1" :=
  serveAll_sameAccount demoStore demoArgon "u1" demoAccounts demoAccountCalls
    foreign_demoAccountCalls

end Dockstack.Server
