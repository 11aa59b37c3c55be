import Dockstack.Server.AccountRuns

/-!
# Passwords over runs

Which password signs a user in after any run of requests to the account API: the last one that a
change or a reset set for that user, whatever else was served in between.
-/

namespace Dockstack.Server

open Dockstack.Base Dockstack.Auth

/-- The password that a request sets when it succeeds. -/
def AccountCall.newPassword : AccountCall → Option String
  | .resetPassword _ new => some new
  | .guarded _ (.changePassword _ new) => some new
  | _ => none

/-- The password that an answered request set for the user, and its salt. -/
def setBy (userID : String) (c : AccountCall × Outside) (a : Answered) : Option (String × Bytes) :=
  if a.reply = .ok ∧ a.actor = some userID then
    c.1.newPassword.bind fun new ↦ c.2.salt.map fun salt ↦ (new, salt)
  else none

/-- The passwords that a run set for the user, the last one last. -/
def passwordsSet (userID : String) (calls : List (AccountCall × Outside))
    (answers : List Answered) : List (String × Bytes) :=
  (calls.zip answers).filterMap fun ca ↦ setBy userID ca.1 ca.2

/-- What Argon2id makes of a password with the parameters of a new hash. -/
def passwordKey (argon : Argon2id) (password : String) (salt : Bytes) : Bytes :=
  argon.idKey (utf8Encode password.toList) salt argon2Time argon2Memory argon2Threads argon2KeyLen

/-- What a password is found to be, for a stored hash or none. -/
def hashVerdict (argon : Argon2id) : Option String → String → Except PasswordError Bool
  | none, _ => .ok false
  | some hash, password => verifyPassword argon (utf8Encode password.toList) hash

/-- What a password is found to be, for the credential in the database. -/
def credentialVerdict (argon : Argon2id) (userID : String) (db : AccountDB) :
    String → Except PasswordError Bool :=
  hashVerdict argon ((db.credentials.rows.find? (·.userID == userID)).map (·.passwordHash))

/-- What a password is found to be after `new` was set. -/
def verdictOf (argon : Argon2id) (new : String × Bytes) (password : String) :
    Except PasswordError Bool :=
  .ok (passwordKey argon password new.2 == passwordKey argon new.1 new.2)

section

variable {st : Store} {argon : Argon2id} {o : Outside} {db : AccountDB} {userID : String}

/-! ## One request -/

private theorem find?_upsertCredential {users : UserTable} {row : CredentialRow}
    {credentials credentials' : Table CredentialRow CredentialRow.clash}
    (h : upsertCredential users credentials row = some credentials') :
    (credentials'.rows.find? (·.userID == userID)).map (·.passwordHash) =
      if row.userID = userID then some row.passwordHash
      else (credentials.rows.find? (·.userID == userID)).map (·.passwordHash) := by
  unfold upsertCredential at h
  split at h
  · contradiction
  · split at h
    · next hknown =>
      obtain rfl := Option.some.inj h
      let write (r : CredentialRow) : CredentialRow :=
        if r.userID == row.userID then
          { r with passwordHash := row.passwordHash, updatedAt := row.updatedAt }
        else r
      have howner (r : CredentialRow) : (write r).userID = r.userID := by
        show (if r.userID == row.userID then _ else r).userID = r.userID
        split <;> rfl
      have hsame : (fun r ↦ r.userID == userID) ∘ write = fun r ↦ r.userID == userID := by
        ext r
        rw [Function.comp_apply, howner]
      show ((credentials.rows.map write).find? _).map _ = _
      rw [List.find?_map, hsame, Option.map_map]
      by_cases hid : row.userID = userID
      · obtain ⟨r, hr, heq⟩ := List.any_eq_true.mp hknown
        rw [if_pos hid]
        cases hfind : credentials.rows.find? (·.userID == userID) with
        | none =>
          rw [hid] at heq
          exact absurd heq (List.find?_eq_none.mp hfind r hr)
        | some found =>
          have hfound : found.userID = userID := by simpa using List.find?_some hfind
          have hwrite : write found =
              { found with passwordHash := row.passwordHash, updatedAt := row.updatedAt } :=
            if_pos (beq_iff_eq.mpr (hfound.trans hid.symm))
          show some (write found).passwordHash = some row.passwordHash
          rw [hwrite]
      · rw [if_neg hid]
        cases hfind : credentials.rows.find? (·.userID == userID) with
        | none => rfl
        | some found =>
          have hfound : found.userID = userID := by simpa using List.find?_some hfind
          have hwrite : write found = found := by
            apply if_neg
            rw [beq_iff_eq, hfound]
            exact fun heq ↦ hid heq.symm
          exact congrArg some (congrArg CredentialRow.passwordHash hwrite)
    · rw [Table.rows_insert h, List.find?_cons]
      by_cases hid : row.userID = userID
      · rw [if_pos hid, beq_iff_eq.mpr hid]
        rfl
      · rw [if_neg hid, beq_eq_false_iff_ne.mpr hid]

private theorem credentialVerdict_congr {db' : AccountDB} (h : db'.credentials = db.credentials) :
    credentialVerdict argon userID db' = credentialVerdict argon userID db := by
  rw [credentialVerdict, credentialVerdict, h]

private theorem credentialVerdict_setPassword {fails : ResetFailures} {id new : String} {now : Int}
    {r : ResetDB} {db' : AccountDB} (hkept : db'.credentials = r.credentials)
    (h : setPassword db.resetDB fails id (hashUserPassword argon o new) now = some r) :
    ∃ salt, o.salt = some salt ∧ credentialVerdict argon userID db' =
      if id = userID then verdictOf argon (new, salt) else credentialVerdict argon userID db := by
  unfold hashUserPassword at h
  cases hsalt : o.salt with
  | none =>
    rw [hsalt] at h
    contradiction
  | some salt =>
    refine ⟨salt, rfl, ?_⟩
    rw [hsalt] at h
    obtain ⟨-, hmap⟩ := Option.ite_none_left_eq_some.mp h
    obtain ⟨credentials, hupsert, rfl⟩ := Option.map_eq_some_iff.mp hmap
    rw [credentialVerdict, hkept, find?_upsertCredential hupsert]
    by_cases hid : id = userID
    · rw [if_pos hid, if_pos hid]
      ext password
      have hverify := verifyPassword_encodeHash argon (utf8Encode password.toList) argon2Memory
        argon2Time argon2Threads salt (passwordKey argon new salt)
      rw [passwordKey, argon.length_idKey, UInt32.ofNat_toNat] at hverify
      exact hverify
    · rw [if_neg hid, if_neg hid]
      rfl

/-- The verdict after a request is that of the password that it set, or the one before. -/
private def Decides (argon : Argon2id) (userID : String) (db : AccountDB)
    (c : AccountCall × Outside) (r : Answered × AccountDB) : Prop :=
  credentialVerdict argon userID r.2 =
    ((setBy userID c r.1).map (verdictOf argon)).getD (credentialVerdict argon userID db)

private theorem decides_of_kept {c : AccountCall × Outside} {r : Answered × AccountDB}
    (hkept : r.2.credentials = db.credentials) (hset : setBy userID c r.1 = none) :
    Decides argon userID db c r := by
  rw [Decides, hset]
  exact credentialVerdict_congr hkept

private theorem decides_error {c : AccountCall × Outside} {e : HTTPError} {actor : Option String} :
    Decides argon userID db c (⟨.error e, actor⟩, db) :=
  decides_of_kept rfl (if_neg nofun)

private theorem setBy_of_newPassword {c : AccountCall × Outside} {a : Answered}
    (h : c.1.newPassword = none) : setBy userID c a = none := by
  unfold setBy
  split
  · rw [h]
    rfl
  · rfl

private theorem decides_setPassword {call : AccountCall} {new id : String} {now : Int}
    {r : ResetDB} {db' : AccountDB} (hnew : call.newPassword = some new)
    (hkept : db'.credentials = r.credentials)
    (h : setPassword db.resetDB o.resetFails id (hashUserPassword argon o new) now = some r) :
    Decides argon userID db (call, o) (⟨.ok, some id⟩, db') := by
  obtain ⟨salt, hsalt, hverdict⟩ := credentialVerdict_setPassword hkept h
  refine hverdict.trans ?_
  by_cases hid : id = userID
  · have hset : setBy userID (call, o) ⟨.ok, some id⟩ = some (new, salt) := by
      rw [setBy, if_pos ⟨rfl, congrArg some hid⟩, hnew, hsalt]
      rfl
    rw [if_pos hid, hset]
    rfl
  · have hset : setBy userID (call, o) ⟨.ok, some id⟩ = none :=
      if_neg fun hset ↦ hid (Option.some.inj hset.2)
    rw [if_neg hid, hset]
    rfl

private theorem decides_resetPassword {token : Bytes} {new : String} :
    Decides argon userID db (.resetPassword token new, o)
      (handleResetPassword st argon o db token new) := by
  unfold handleResetPassword
  split
  · exact decides_error
  · split
    · exact decides_error
    · exact decides_error
    · next id _ =>
      split
      · exact decides_error
      · next r hset =>
        refine decides_setPassword rfl ?_ hset
        unfold deleteResetTokensByUser
        split <;> rfl

private theorem decides_changePassword {auth : AuthRequest} {ctx : AuthContext}
    {current new : String} :
    Decides argon userID db (.guarded auth (.changePassword current new), o)
      (handleChangePassword argon o db ctx current new) := by
  unfold handleChangePassword
  split
  · exact decides_error
  · split
    · exact decides_error
    · exact decides_error
    · split
      · exact decides_error
      · next hset => exact decides_setPassword rfl rfl hset

private theorem decides_serveAccount (c : AccountCall × Outside) :
    Decides argon userID db c (serveAccount st argon db c) := by
  obtain ⟨call, o⟩ := c
  cases call with
  | signIn byEmail body =>
    obtain ⟨sessions, hframe⟩ := signIn_frame st argon o db byEmail body
    apply decides_of_kept _ (setBy_of_newPassword rfl)
    show (signInWithPassword st argon o db byEmail body).2.credentials = db.credentials
    rw [hframe]
  | usernameAvailable username =>
    apply decides_of_kept _ (setBy_of_newPassword rfl)
    show (handleUsernameAvailable o db username).2.credentials = db.credentials
    unfold handleUsernameAvailable
    split <;> rfl
  | signOut cookie =>
    obtain ⟨sessions, hframe⟩ := signOut_frame st o db cookie
    apply decides_of_kept _ (setBy_of_newPassword rfl)
    show (handleSignOut st o db cookie).2.credentials = db.credentials
    rw [hframe]
  | forgotPassword email =>
    apply decides_of_kept _ (setBy_of_newPassword rfl)
    show (handleForgotPassword st o db email).2.credentials = db.credentials
    unfold handleForgotPassword
    split
    · rfl
    · split
      · rfl
      · rfl
      · split
        · rfl
        · split
          · rfl
          · next hcreated =>
            obtain ⟨-, hmap⟩ := Option.ite_none_left_eq_some.mp hcreated
            obtain ⟨tokens, -, rfl⟩ := Option.map_eq_some_iff.mp hmap
            rfl
  | resetPassword token new => exact decides_resetPassword
  | guarded auth call =>
    let gate := humaRequireAuth st db.authTables o.gateFails auth o.gateNow o.gateNow'
    have hhandle (ctx : AuthContext) : Decides argon userID { db with keys := gate.keys }
        (.guarded auth call, o) (call.handle st argon o { db with keys := gate.keys } ctx) := by
      obtain ⟨-, ⟨current, new, rfl⟩ | hkept⟩ := handle_frame st argon o _ ctx call
      · exact decides_changePassword
      · cases call with
        | changePassword current new => exact decides_changePassword
        | _ => exact decides_of_kept hkept (setBy_of_newPassword rfl)
    show Decides argon userID db (.guarded auth call, o)
      (call.serve st argon o { db with keys := gate.keys } gate.result)
    cases gate.result with
    | session user sess => exact hhandle _
    | key user key => exact hhandle _
    | error status msg => exact decides_of_kept rfl (if_neg nofun)

/-! ## Runs -/

/-- After a run the verdict is that of the last password that was set, or the one at its start. -/
theorem credentialVerdict_serveAll (calls : List (AccountCall × Outside)) :
    credentialVerdict argon userID (serveAll (serveAccount st argon) db calls).2 =
      ((passwordsSet userID calls (serveAll (serveAccount st argon) db calls).1).getLast?.map
        (verdictOf argon)).getD (credentialVerdict argon userID db) := by
  have hview := view_serveAll (credentialVerdict argon userID)
    (fun c a ↦ (setBy userID c a).map (verdictOf argon)) db calls
    fun db c ↦ (decides_serveAccount c : Decides argon userID db c (serveAccount st argon db c))
  rw [hview, List.getLastD_eq_getLast?, ← List.map_filterMap, List.getLast?_map]
  rfl

/-- Nothing from outside gets in the way of the request. -/
structure Outside.Undisturbed (o : Outside) : Prop where
  limited : o.limited = none
  gateFails : ∀ q, o.gateFails q = none
  fails : ∀ q, o.fails q = false
  oauthFails : ∀ q, o.oauthFails q = false

private theorem verifyUserPassword_eq (h : o.Undisturbed) (password : String) :
    verifyUserPassword argon o db userID (utf8Encode password.toList) =
      (credentialVerdict argon userID db password).mapError PasswordError.text := by
  unfold verifyUserPassword credentialVerdict
  rw [h.fails .getCredential]
  cases db.credentials.rows.find? (·.userID == userID) with
  | none => rfl
  | some row =>
    rw [Option.map_some, hashVerdict, if_neg Bool.false_ne_true]
    dsimp only
    cases verifyPassword argon (utf8Encode password.toList) row.passwordHash <;> rfl

private theorem lookup_eq_some (h : o.Undisturbed) {byEmail : Bool} {identifier : String}
    {u : UserRow} (hu : u ∈ db.users.rows)
    (hnamed : if byEmail then u.email = identifier else u.username = some identifier) :
    (if byEmail then userByEmail db.oauthDB o.oauthFails identifier
      else userByUsername o db identifier) = some (some (Store.userOfRow u)) := by
  have hfind {p : UserRow → Bool} (hp : p u = true)
      (honly : ∀ a ∈ db.users.rows, p a = true → a.clash u = true) :
      db.users.rows.find? p = some u := by
    cases hfound : db.users.rows.find? p with
    | none => exact absurd hp (List.find?_eq_none.mp hfound u hu)
    | some a =>
      have ha := List.mem_of_find?_eq_some hfound
      rw [db.users.eq_of_clash UserRow.clash_comm ha hu (honly a ha (List.find?_some hfound))]
  cases byEmail with
  | true =>
    have hnamed : u.email = identifier := hnamed
    show userByEmail db.oauthDB o.oauthFails identifier = _
    unfold userByEmail
    rw [h.oauthFails]
    apply congrArg some
    show Option.map _ (db.users.rows.find? (·.email == identifier)) = _
    rw [hfind (p := (·.email == identifier)) (beq_iff_eq.mpr hnamed)]
    · rfl
    · intro a _ ha
      rw [UserRow.clash_iff]
      exact .inr (.inl ((eq_of_beq ha).trans hnamed.symm))
  | false =>
    have hnamed : u.username = some identifier := hnamed
    show userByUsername o db identifier = _
    unfold userByUsername
    rw [h.fails]
    apply congrArg some
    show Option.map _ (db.users.rows.find? (·.username == some identifier)) = _
    rw [hfind (p := (·.username == some identifier)) (beq_iff_eq.mpr hnamed)]
    · rfl
    · intro a _ ha
      rw [UserRow.clash_iff]
      have hname := eq_of_beq ha
      exact .inr (.inr ⟨hname ▸ rfl, hname.trans hnamed.symm⟩)

private theorem actor_guarded {token : Bytes} {row : SessionRow} {u : UserRow}
    (hrow : row ∈ db.sessions.rows) (hhash : row.tokenHash = st.hashToken token)
    (hu : u ∈ db.users.rows) (hid : u.id = row.userID) (h : o.Undisturbed)
    (hlive : unixMilli o.gateNow ≤ row.expiresAt) (call : GuardedCall) :
    (serveAccount st argon db (.guarded ⟨[], some (st.signToken token), []⟩ call, o)).1.actor =
      some row.userID := by
  have hsession : cookieSession st db.authTables o.gateFails (st.signToken token) o.gateNow =
      some (Store.sessionOfRow row, Store.userOfRow u) := by
    unfold cookieSession
    rw [h.gateFails, st.sessionUserFromCookie_eq_ok.mpr
      ⟨token, row, u, rfl, hrow, hu, hid, hhash, hlive, rfl, rfl⟩]
    rfl
  have hgate : humaRequireAuth st db.authTables o.gateFails ⟨[], some (st.signToken token), []⟩
      o.gateNow o.gateNow' =
        ⟨.session (Store.userOfRow u) (Store.sessionOfRow row), db.keys, []⟩ := by
    rw [humaRequireAuth_of_blank rfl]
    unfold requireSession
    dsimp only
    rw [hsession]
    rfl
  unfold serveAccount
  dsimp only
  rw [hgate]
  exact (actor_handle _ call).trans (congrArg some hid)

/-- The row of the session that a sign-in creates. -/
def signInRow (st : Store) (o : Outside) (userID : String) (body : SignInBody) (token : Bytes) :
    SessionRow :=
  ⟨o.id, userID, st.hashToken token, unixMilli (o.now + st.sessionTTL), body.ip, body.userAgent,
    none, unixMilli o.now'⟩

private theorem signInSession_fresh {u : UserRow} {token : Bytes} (body : SignInBody)
    (h : o.Undisturbed) (hu : u ∈ db.users.rows) (htoken : o.token = some token)
    (hfresh : ∀ r ∈ db.sessions.rows, r.id ≠ o.id ∧ r.tokenHash ≠ st.hashToken token) :
    ∃ sessions, db.sessions.insert (signInRow st o u.id body token) = some sessions ∧
      signInSession st o db (Store.userOfRow u) body =
        (⟨.signedIn (toAuthUser (Store.userOfRow u)) (st.signToken token), some u.id⟩,
          { db with sessions := sessions }) := by
  obtain ⟨sessions, hinsert⟩ := Table.exists_insert
    (t := db.sessions) (r := signInRow st o u.id body token) fun r hr ↦ by
      rw [Bool.eq_false_iff, Ne, SessionRow.clash_iff, not_or]
      exact ⟨(hfresh r hr).1.symm, (hfresh r hr).2.symm⟩
  refine ⟨sessions, hinsert, ?_⟩
  have hknown : db.sessionDB.users.rows.any (fun r ↦ r.id == u.id) = true :=
    List.any_eq_true.mpr ⟨u, hu, beq_self_eq_true _⟩
  unfold signInSession Store.createSession
  rw [h.fails, htoken]
  dsimp only
  rw [if_neg Bool.false_ne_true]
  have hid : (Store.userOfRow u).id = u.id := rfl
  rw [hid, if_pos hknown]
  have hinsert' : db.sessionDB.sessions.insert (signInRow st o u.id body token) = some sessions :=
    hinsert
  unfold signInRow at hinsert'
  rw [hinsert']

/-- A sign-in that names the user `u`, is not held up, and draws a fresh id and token. -/
structure SignsIn (st : Store) (db : AccountDB) (u : UserRow) (byEmail : Bool) (body : SignInBody)
    (token : Bytes) (o : Outside) : Prop where
  undisturbed : o.Undisturbed
  identifier : body.identifier ≠ ""
  password : body.password ≠ ""
  user : u ∈ db.users.rows
  named : if byEmail then u.email = body.identifier else u.username = some body.identifier
  drawn : o.token = some token
  fresh : ∀ r ∈ db.sessions.rows, r.id ≠ o.id ∧ r.tokenHash ≠ st.hashToken token

private theorem signIn_eq {u : UserRow} {byEmail : Bool} {body : SignInBody} {token : Bytes}
    (h : SignsIn st db u byEmail body token o) {ok : Bool}
    (hverdict : credentialVerdict argon u.id db body.password = .ok ok) :
    signInWithPassword st argon o db byEmail body =
      if ok then signInSession st o db (Store.userOfRow u) body
      else (⟨.error ⟨401, "Invalid credentials"⟩, none⟩, db) := by
  have hverified :
      verifyUserPassword argon o db u.id (utf8Encode body.password.toList) = .ok ok := by
    rw [verifyUserPassword_eq h.undisturbed, hverdict]
    rfl
  unfold signInWithPassword
  rw [if_neg (not_or.mpr ⟨h.identifier, h.password⟩), h.undisturbed.limited]
  dsimp only
  rw [lookup_eq_some h.undisturbed h.user h.named]
  dsimp only
  have hid : (Store.userOfRow u).id = u.id := rfl
  rw [hid, hverified]
  cases ok <;> rfl

/-- After any run that set a password for a user, a sign-in of that user is refused unless its
password has the key of the last one that was set. Otherwise it gets a cookie, with which later
undisturbed requests act for the user until the session expires, whatever requests come between that
have none of the user's secrets and reset no password with a token that is drawn among them. -/
theorem signIn_lastPassword (st : Store) (argon : Argon2id) (db : AccountDB)
    (calls : List (AccountCall × Outside)) (u : UserRow) (new : String × Bytes)
    (hlast : (passwordsSet u.id calls
      (serveAll (serveAccount st argon) db calls).1).getLast? = some new)
    (byEmail : Bool) (body : SignInBody) (token : Bytes) (o : Outside)
    (h : SignsIn st (serveAll (serveAccount st argon) db calls).2 u byEmail body token o) :
    let db' := (serveAll (serveAccount st argon) db calls).2
    let r := serveAccount st argon db' (.signIn byEmail body, o)
    (passwordKey argon body.password new.2 ≠ passwordKey argon new.1 new.2 →
      r = (⟨.error ⟨401, "Invalid credentials"⟩, none⟩, db')) ∧
    (passwordKey argon body.password new.2 = passwordKey argon new.1 new.2 →
      r.1 = ⟨.signedIn (toAuthUser (Store.userOfRow u)) (st.signToken token), some u.id⟩ ∧
      ∀ later, Foreign st argon u.id r.2 later → ∀ call o', o'.Undisturbed →
        unixMilli o'.gateNow ≤ unixMilli (o.now + st.sessionTTL) →
        (serveAccount st argon (serveAll (serveAccount st argon) r.2 later).2
          (.guarded ⟨[], some (st.signToken token), []⟩ call, o')).1.actor = some u.id) := by
  intro db' r
  have hverdict : credentialVerdict argon u.id db' body.password =
      .ok (passwordKey argon body.password new.2 == passwordKey argon new.1 new.2) := by
    rw [credentialVerdict_serveAll, hlast]
    rfl
  have hr : r = _ := signIn_eq h hverdict
  constructor
  · intro hne
    rw [hr, beq_eq_false_iff_ne.mpr hne]
    rfl
  · intro heq
    obtain ⟨sessions, hinsert, hcreated⟩ :=
      signInSession_fresh body h.undisturbed h.user h.drawn h.fresh
    rw [beq_iff_eq.mpr heq, if_pos rfl, hcreated] at hr
    rw [hr]
    refine ⟨rfl, ?_⟩
    intro later hforeign call o' ho' hlive
    have hsame := hforeign.sameAccount
    have hrow : signInRow st o u.id body token ∈ sessions.rows :=
      (Table.mem_insert hinsert _).mpr (.inl rfl)
    exact actor_guarded ((hsame.sessions _ rfl).mpr hrow) rfl ((hsame.user u rfl).mpr h.user) rfl
      ho' hlive call

end

/-- The administrator's row in `demoAccounts`. -/
def demoAdmin : UserRow :=
  ⟨"u1", "Admin", "admin@example.com", true, some "admin", "", "admin", 0, 0⟩

/-- The administrator has asked for a reset. -/
def demoForgotten : AccountDB :=
  { demoAccounts with
    resetTokens.rows := [⟨"t1", "u1", demoStore.hashToken [5], unixMilli hour, 0⟩]
    resetTokens.unique := List.pairwise_singleton _ _ }

/-- The administrator resets the password. -/
def demoResetCalls : List (AccountCall × Outside) :=
  [(.resetPassword [5] "new", { demoOutside with salt := some demoSalt })]

/-- The new password signs the administrator in. -/
theorem signIn_lastPassword_demo :
    (serveAccount demoStore demoArgon
      (serveAll (serveAccount demoStore demoArgon) demoForgotten demoResetCalls).2
      (.signIn true ⟨"admin@example.com", "new", "10.0.0.1", "browser"⟩,
        { demoOutside with token := some [9], id := "s3" })).1 =
      ⟨.signedIn (toAuthUser (Store.userOfRow demoAdmin)) (demoStore.signToken [9]), some "u1"⟩ :=
  ((signIn_lastPassword demoStore demoArgon demoForgotten demoResetCalls demoAdmin ("new", demoSalt)
    (by decide +kernel) true ⟨"admin@example.com", "new", "10.0.0.1", "browser"⟩ [9]
    { demoOutside with token := some [9], id := "s3" }
    { undisturbed := ⟨rfl, fun _ ↦ rfl, fun _ ↦ rfl, fun _ ↦ rfl⟩
      identifier := by decide
      password := by decide
      user := by decide +kernel
      named := rfl
      drawn := rfl
      fresh := by decide +kernel }).2 rfl).1

end Dockstack.Server
