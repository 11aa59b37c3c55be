import Dockstack.Server.Gates

/-!
# Runs of the stores behind the gates

Every run of the session calls, of `CreateAPIKey` and `DeleteAPIKey` and of requests at the
gates, with a history of the keys. An invariant ties the rows of `api_keys` to that history, as
`RowsMatch` does for the sessions; so a gate lets in nobody who was not given a session or a
key that still stands.
-/

namespace Dockstack.Server

open Dockstack.Base
open Dockstack.Auth

/-- What a call did to the API keys. A key is created with the secret that its user is shown. -/
inductive KeyEvent where
  | created (rawKey : Bytes) (key : APIKey)
  | createFailed
  | deleted (userID id : String)
  deriving DecidableEq

/-- `DeleteAPIKey` of the key by its user. -/
def KeyEvent.Deletes (key : APIKey) : KeyEvent → Prop
  | .deleted userID id => userID = key.userID ∧ id = key.id
  | _ => False

/-- The key was created with the secret, and not deleted since. -/
def KeyLive (history : List KeyEvent) (rawKey : Bytes) (key : APIKey) : Prop :=
  Since (fun e ↦ ¬ e.Deletes key) (· = .created rawKey key) history

/-- A call on the stores, or a request at a gate. -/
inductive AuthCall where
  | session (call : SessionCall)
  | createAPIKey (userID name : String) (rawKey : Bytes) (expiresAt : Option Int) (id : String)
      (now : Int)
  | deleteAPIKey (userID id : String)
  | request (call : GateCall)

/-- The stores, the history of the keys, the `RateLimit` calls with their answers, and the keys
on which handlers ran. -/
structure AuthState where
  sessions : SessionState
  keys : ApiKeyTable
  keyHistory : List KeyEvent
  limits : List (RateLimitCall × Bool)
  handled : List String

/-- No sessions and no keys yet, any users. -/
def AuthState.init (users : Table UserRow UserRow.clash) : AuthState :=
  ⟨.init users, Table.empty, [], [], []⟩

/-- The tables of the stores. -/
def AuthState.tables (s : AuthState) : AuthTables := ⟨s.sessions.db, s.keys⟩

/-- The key on which the handler runs. -/
def GateResult.handledKey : GateResult → List String
  | .key _ k => [k.id]
  | _ => []

/-- One call. A key is stored by its hash; `api/auth/apikeys.go:52–62`. -/
def authStep (st : Store) (s : AuthState) : AuthCall → Option AuthState
  | .session call => (st.step s.sessions call).map fun sessions ↦ { s with sessions := sessions }
  | .createAPIKey userID name rawKey expiresAt id now =>
    match createAPIKey s.sessions.db.users s.keys ⟨userID, name, st.hashToken rawKey, expiresAt⟩
      id now with
    | none => some { s with keyHistory := s.keyHistory ++ [.createFailed] }
    | some (keys, key) =>
      some { s with keys := keys, keyHistory := s.keyHistory ++ [.created rawKey key] }
  | .deleteAPIKey userID id =>
    some { s with
      keys := deleteAPIKey s.keys userID id
      keyHistory := s.keyHistory ++ [.deleted userID id] }
  | .request call =>
    let run := call.run st s.tables
    some { s with
      keys := run.keys
      limits := s.limits ++ run.limits
      handled := s.handled ++ run.result.handledKey }

/-! ## What the gates answer -/

variable {st : Store} {t : AuthTables} {fails : Failures}

/-- A session found by its cookie is one that `SessionUserFromCookie` returns. -/
theorem cookieSession_eq_some {cookie : Bytes} {now : Int} {sess : Session} {user : User}
    (h : cookieSession st t fails cookie now = some (sess, user)) :
    st.sessionUserFromCookie t.db cookie now = .ok (sess, user) := by
  unfold cookieSession at h
  split at h
  · contradiction
  · split at h
    · next hr =>
      rw [hr, Option.some.inj h]
    · contradiction

/-- `GetUserByID` returns the user of that id. -/
theorem getUserByID_eq_some {id : String} {user : User}
    (h : getUserByID t fails id = some user) : user.id = id := by
  unfold getUserByID at h
  split at h
  · contradiction
  · obtain ⟨u, hu, rfl⟩ := Option.map_eq_some_iff.mp h
    have hid := List.find?_some hu
    exact eq_of_beq hid

/-- The token of a WebSocket is verified, and its user is there. -/
theorem wsTokenAuth_eq_key {r : AuthRequest} {now : Int} {user : User} {key : APIKey} :
    wsTokenAuth st t fails r now = .key user key ↔ r.token ≠ [] ∧
      st.verifyKey t.keys (fails .getAPIKeyByHash) r.token now = .ok key ∧
      getUserByID t fails key.userID = some user := by
  unfold wsTokenAuth
  by_cases hr : r.token ≠ []
  · rw [if_pos hr]
    cases hkey : st.verifyKey t.keys (fails .getAPIKeyByHash) r.token now with
    | error e => simp
    | ok k =>
      dsimp only
      cases huser : getUserByID t fails k.userID with
      | none =>
        simp only [reduceCtorEq, false_iff]
        rintro ⟨-, hk, hu⟩
        obtain rfl := Except.ok.inj hk
        rw [huser] at hu
        contradiction
      | some u =>
        simp only [GateResult.key.injEq, Except.ok.injEq]
        constructor
        · rintro ⟨rfl, rfl⟩
          exact ⟨hr, rfl, huser⟩
        · rintro ⟨-, rfl, hu⟩
          rw [huser] at hu
          exact ⟨Option.some.inj hu, rfl⟩
  · simp [hr]

/-- A WebSocket token is no session. -/
theorem wsTokenAuth_ne_session {r : AuthRequest} {now : Int} {user : User} {sess : Session} :
    wsTokenAuth st t fails r now ≠ .session user sess := by
  unfold wsTokenAuth
  split
  · split
    · exact GateResult.noConfusion
    · split <;> exact GateResult.noConfusion
  · exact GateResult.noConfusion

private theorem error_result {status : Nat} {msg : String} {P : User → Session → Prop}
    {Q : User → APIKey → Prop} :
    (∀ user sess, GateResult.error status msg = .session user sess → P user sess) ∧
      ∀ user key, GateResult.error status msg = .key user key → Q user key :=
  ⟨fun _ _ h ↦ GateResult.noConfusion h, fun _ _ h ↦ GateResult.noConfusion h⟩

/-- `RequireSession` runs the handler only on the session of the cookie. -/
theorem requireSession_result (st : Store) (t : AuthTables) (fails : Failures) (r : AuthRequest)
    (now : Int) :
    (∀ user sess, (requireSession st t fails r now).result = .session user sess →
      ∃ cookie, r.cookie = some cookie ∧
        cookieSession st t fails cookie now = some (sess, user)) ∧
    ∀ user key, (requireSession st t fails r now).result ≠ .key user key := by
  unfold requireSession
  cases hcookie : r.cookie with
  | none => exact error_result
  | some cookie =>
    dsimp only
    cases hsess : cookieSession st t fails cookie now with
    | none => exact error_result
    | some p =>
      refine ⟨fun user sess h ↦ ?_, fun user key h ↦ GateResult.noConfusion h⟩
      obtain ⟨rfl, rfl⟩ := GateResult.session.inj h
      exact ⟨cookie, rfl, hsess⟩

/-- `RequireSession` changes no key. -/
theorem requireSession_keys (st : Store) (t : AuthTables) (fails : Failures) (r : AuthRequest)
    (now : Int) : (requireSession st t fails r now).keys = t.keys := by
  unfold requireSession
  split
  · rfl
  · split <;> rfl

/-- Without a bearer key `HumaRequireAuth` is `RequireSession`. -/
theorem humaRequireAuth_of_blank {r : AuthRequest} (h : bearerKey r.authorization = none)
    (now now' : Int) :
    humaRequireAuth st t fails r now now' = requireSession st t fails r now := by
  unfold humaRequireAuth requireSession
  rw [h]
  cases r.cookie with
  | none => rfl
  | some cookie =>
    dsimp only
    cases cookieSession st t fails cookie now <;> rfl

/-- Without a token `handleWSAuth` is `RequireSession`. -/
theorem handleWSAuth_of_noToken {r : AuthRequest} (h : r.token = []) (now now' : Int) :
    handleWSAuth st t fails r now now' = requireSession st t fails r now := by
  have hws : wsTokenAuth st t fails r now' = .error 401 "Unauthorized" := if_neg (by simp [h])
  unfold handleWSAuth requireSession
  rw [hws]
  cases r.cookie with
  | none => rfl
  | some cookie =>
    dsimp only
    cases cookieSession st t fails cookie now <;> rfl

/-- A request at `HumaRequireAuth` runs the handler on a session only if that is the session of
its cookie, and on a key only if that is its bearer key, which was charged. -/
theorem humaRequireAuth_result (st : Store) (t : AuthTables) (fails : Failures) (r : AuthRequest)
    (now now' : Int) :
    (∀ user sess, (humaRequireAuth st t fails r now now').result = .session user sess →
      ∃ cookie, r.cookie = some cookie ∧
        cookieSession st t fails cookie now = some (sess, user)) ∧
    ∀ user key, (humaRequireAuth st t fails r now now').result = .key user key →
      (∃ token, bearerKey r.authorization = some token ∧
        st.verifyKey t.keys (fails .getAPIKeyByHash) (utf8Encode token) now = .ok key) ∧
      getUserByID t fails key.userID = some user ∧
      (humaRequireAuth st t fails r now now').limits =
        [(⟨now', key.id, key.RateLimitMax, key.RateLimitWindow⟩, true)] ∧
      rateLimit t.keys key.id key.RateLimitMax key.RateLimitWindow now' =
        (true, (humaRequireAuth st t fails r now now').keys) := by
  cases hbearer : bearerKey r.authorization with
  | none =>
    rw [humaRequireAuth_of_blank hbearer]
    obtain ⟨hsession, hkey⟩ := requireSession_result st t fails r now
    exact ⟨hsession, fun user key h ↦ absurd h (hkey user key)⟩
  | some token =>
    unfold humaRequireAuth
    rw [hbearer]
    dsimp only
    cases hkey : st.verifyKey t.keys (fails .getAPIKeyByHash) (utf8Encode token) now with
    | error e => exact error_result
    | ok k =>
      dsimp only
      split
      · exact error_result
      · split
        · exact error_result
        · next hok =>
          cases huser : getUserByID t fails k.userID with
          | none => exact error_result
          | some u =>
            refine ⟨fun user sess h ↦ GateResult.noConfusion h, fun user key h ↦ ?_⟩
            obtain ⟨rfl, rfl⟩ := GateResult.key.inj h
            exact ⟨⟨token, rfl, hkey⟩, huser, rfl, Prod.ext (by simpa using hok) rfl⟩

/-- `handleWSAuth` runs the handler on the session of the cookie, and else on the token. -/
theorem handleWSAuth_result (st : Store) (t : AuthTables) (fails : Failures) (r : AuthRequest)
    (now now' : Int) :
    (∀ user sess, (handleWSAuth st t fails r now now').result = .session user sess →
      ∃ cookie, r.cookie = some cookie ∧
        cookieSession st t fails cookie now = some (sess, user)) ∧
    (∀ user key, (handleWSAuth st t fails r now now').result = .key user key ↔
      (∀ cookie ∈ r.cookie, cookieSession st t fails cookie now = none) ∧
        wsTokenAuth st t fails r now' = .key user key) ∧
    (handleWSAuth st t fails r now now').limits = [] := by
  unfold handleWSAuth
  cases hcookie : r.cookie with
  | none =>
    refine ⟨fun user sess h ↦ absurd h wsTokenAuth_ne_session, fun user key ↦ ?_, rfl⟩
    exact ⟨fun h ↦ ⟨nofun, h⟩, fun h ↦ h.2⟩
  | some cookie =>
    dsimp only
    cases hsess : cookieSession st t fails cookie now with
    | none =>
      refine ⟨fun user sess h ↦ absurd h wsTokenAuth_ne_session, fun user key ↦ ?_, rfl⟩
      refine ⟨fun h ↦ ⟨?_, h⟩, fun h ↦ h.2⟩
      rintro _ ⟨⟩
      exact hsess
    | some p =>
      refine ⟨fun user sess h ↦ ?_, fun user key ↦ ⟨nofun, fun h ↦ ?_⟩, rfl⟩
      · obtain ⟨rfl, rfl⟩ := GateResult.session.inj h
        exact ⟨cookie, rfl, hsess⟩
      · rw [h.1 cookie rfl] at hsess
        contradiction

/-- A gate changes the keys by a `RateLimit` call at most. -/
theorem run_keys (c : GateCall) : (c.run st t).keys = t.keys ∨
    ∃ id max windowMs now, (c.run st t).keys = (rateLimit t.keys id max windowMs now).2 := by
  unfold GateCall.run
  cases c.gate with
  | humaRequireAuth =>
    dsimp only
    cases hbearer : bearerKey c.request.authorization with
    | none =>
      rw [humaRequireAuth_of_blank hbearer]
      exact .inl (requireSession_keys _ _ _ _ _)
    | some token =>
      unfold humaRequireAuth
      rw [hbearer]
      dsimp only
      split
      · exact .inl rfl
      · split
        · exact .inl rfl
        · split
          · exact .inr ⟨_, _, _, _, rfl⟩
          · split <;> exact .inr ⟨_, _, _, _, rfl⟩
  | requireSession => exact .inl (requireSession_keys _ _ _ _ _)
  | handleWSAuth =>
    dsimp only
    unfold handleWSAuth
    split
    · exact .inl rfl
    · split <;> exact .inl rfl

/-- What a gate leaves in `api_keys` are the rows that were there, as far as identity goes. -/
theorem mem_run_keys {c : GateCall} {row : ApiKeyRow} (h : row ∈ (c.run st t).keys.rows) :
    ∃ r ∈ t.keys.rows, r.id = row.id ∧ r.userID = row.userID ∧ r.keyHash = row.keyHash ∧
      r.expiresAt = row.expiresAt := by
  rcases run_keys c with heq | ⟨id, max, windowMs, now, heq⟩
  · exact ⟨row, heq ▸ h, rfl, rfl, rfl, rfl⟩
  · rw [heq] at h
    obtain ⟨r, hr, rfl⟩ := mem_rateLimit.mp h
    refine ⟨r, hr, ?_⟩
    split <;> exact ⟨rfl, rfl, rfl, rfl⟩

/-! ## Runs -/

/-- Rows of `sessions` and `api_keys` stand for what was created and still stands. -/
structure AuthState.Matches (st : Store) (s : AuthState) : Prop where
  sessions : st.RowsMatch s.sessions
  keys : ∀ row ∈ s.keys.rows, ∃ rawKey key, KeyLive s.keyHistory rawKey key ∧
    row.keyHash = st.hashToken rawKey ∧ row.id = key.id ∧ row.userID = key.userID ∧
    row.expiresAt = key.expiresAt

namespace AuthState.Matches

variable {s s' : AuthState}

/-- Before any call there are no rows. -/
theorem init (users : Table UserRow UserRow.clash) : (AuthState.init users).Matches st where
  sessions := .init users
  keys _ h := absurd h List.not_mem_nil

/-- Every call keeps the rows matched. -/
theorem step (h : s.Matches st) {call : AuthCall} (hs : authStep st s call = some s') :
    s'.Matches st := by
  cases call with
  | session call =>
    obtain ⟨sessions, hstep, rfl⟩ := Option.map_eq_some_iff.mp hs
    exact ⟨h.sessions.step hstep, h.keys⟩
  | createAPIKey userID name rawKey expiresAt id now =>
    simp only [authStep] at hs
    split at hs
    · obtain rfl := Option.some.inj hs
      refine ⟨h.sessions, fun row hrow ↦ ?_⟩
      obtain ⟨rawKey, key, hlive, hrest⟩ := h.keys row hrow
      exact ⟨rawKey, key, since_append_singleton.mpr (.inr ⟨hlive, not_false⟩), hrest⟩
    · next keys key hcreate =>
      obtain rfl := Option.some.inj hs
      obtain ⟨new, hhash, hid, huser, hexp, hrows⟩ := createAPIKey_eq_some hcreate
      refine ⟨h.sessions, fun row hrow ↦ ?_⟩
      rcases (hrows row).mp hrow with rfl | hrow
      · exact ⟨rawKey, key, since_append_singleton.mpr (.inl rfl), hhash, hid, huser, hexp⟩
      · obtain ⟨rawKey, key, hlive, hrest⟩ := h.keys row hrow
        exact ⟨rawKey, key, since_append_singleton.mpr (.inr ⟨hlive, not_false⟩), hrest⟩
  | deleteAPIKey userID id =>
    obtain rfl := Option.some.inj hs
    refine ⟨h.sessions, fun row hrow ↦ ?_⟩
    obtain ⟨hrow, hkeep⟩ := (Table.mem_delete _ _ row).mp hrow
    obtain ⟨rawKey, key, hlive, hhash, hid, huser, hexp⟩ := h.keys row hrow
    refine ⟨rawKey, key, since_append_singleton.mpr (.inr ⟨hlive, ?_⟩), hhash, hid, huser, hexp⟩
    rintro ⟨rfl, rfl⟩
    simp [hid, huser] at hkeep
  | request call =>
    obtain rfl := Option.some.inj hs
    refine ⟨h.sessions, fun row hrow ↦ ?_⟩
    obtain ⟨r, hr, hid, huser, hhash, hexp⟩ := mem_run_keys hrow
    rw [← hid, ← huser, ← hhash, ← hexp]
    exact h.keys r hr

/-- The rows match in every state reached. -/
theorem run {users : Table UserRow UserRow.clash} {calls : List AuthCall}
    (hrun : runSteps (authStep st) (.init users) calls = some s) : s.Matches st :=
  runSteps_invariant (fun _ _ _ h hs ↦ h.step hs) (init users) hrun

end AuthState.Matches

/-! ## Who is let in -/

/-- The values that were hashed: generated and deleted session tokens and the one in the
request's cookie, the secrets of created keys and those in the request. -/
def AuthState.usedValues (s : AuthState) (r : AuthRequest) : Set Bytes :=
  {v | (∃ signed sess, .created v signed sess ∈ s.sessions.history) ∨
    .deleted v ∈ s.sessions.history ∨
    (∃ cookie ∈ r.cookie, Store.unsafeParseToken cookie = .ok v) ∨
    (∃ key, .created v key ∈ s.keyHistory) ∨
    (∃ token ∈ bearerKey r.authorization, utf8Encode token = v) ∨ (r.token ≠ [] ∧ r.token = v)}

/-- The request carries the cookie of a live session of the user, valid at `now`. -/
def AuthState.SessionAdmits (s : AuthState) (r : AuthRequest) (now : Int) (user : User)
    (sess : Session) : Prop :=
  ∃ cookie token, r.cookie = some cookie ∧ Live s.sessions.history token cookie sess ∧
    unixMilli now ≤ sess.expiresAt ∧ sess.userID = user.id

/-- A key with the secret was created for the user, was not deleted, is enabled, and is not
past its expiry at `now`. -/
def AuthState.KeyAdmits (s : AuthState) (rawKey : Bytes) (now : Int) (user : User)
    (key : APIKey) : Prop :=
  KeyLive s.keyHistory rawKey key ∧ key.userID = user.id ∧
    (∃ row ∈ s.keys.rows, row.id = key.id ∧ row.enabled = true) ∧
    ∀ e ∈ key.expiresAt, unixMilli now ≤ e

/-- A session that a gate finds admits its user. -/
theorem sessionAdmits_of_cookieSession {s : AuthState} (hs : s.Matches st) {r : AuthRequest}
    (hinj : Set.InjOn st.hashToken (s.usedValues r)) {cookie : Bytes}
    (hcookie : r.cookie = some cookie) {now : Int} {user : User} {sess : Session}
    (h : cookieSession st s.tables fails cookie now = some (sess, user)) :
    s.SessionAdmits r now user sess := by
  have hused : usedTokens s.sessions.history cookie ⊆ s.usedValues r := by
    rintro v (hv | hv | hv)
    · exact .inl hv
    · exact .inr (.inl hv)
    · exact .inr (.inr (.inl ⟨cookie, hcookie, hv⟩))
  have hinj' : Set.InjOn st.hashToken (usedTokens s.sessions.history cookie) :=
    fun v hv v' hv' ↦ hinj (hused hv) (hused hv')
  obtain ⟨token, hlive, hexp, u, -, hid, rfl⟩ :=
    (hs.sessions.lookup_iff hinj' now sess user).mp (cookieSession_eq_some h)
  exact ⟨cookie, token, hcookie, hlive, hexp, hid.symm⟩

/-- A key that a gate verifies admits its user. -/
theorem keyAdmits_of_verifyKey {s : AuthState} (hs : s.Matches st) {r : AuthRequest}
    (hinj : Set.InjOn st.hashToken (s.usedValues r)) {rawKey : Bytes}
    (hraw : rawKey ∈ s.usedValues r) {failure : Option String} {now : Int} {user : User}
    {key : APIKey} (hkey : st.verifyKey s.keys failure rawKey now = .ok key)
    (huser : getUserByID s.tables fails key.userID = some user) :
    ∃ key', key'.id = key.id ∧ s.KeyAdmits rawKey now user key' := by
  obtain ⟨row, hrow, hhash, rfl, henabled, hexpiry⟩ := Store.verifyKey_eq_ok hkey
  obtain ⟨rawKey', key, hlive, hhash', hid, huserID, hexp⟩ := hs.keys row hrow
  obtain ⟨_, hmem, rfl⟩ := hlive.exists_mem
  obtain rfl : rawKey' = rawKey :=
    hinj (.inr (.inr (.inr (.inl ⟨key, hmem⟩)))) hraw (hhash'.symm.trans hhash)
  refine ⟨key, hid.symm, hlive, ?_, ⟨row, hrow, hid, henabled⟩, hexp ▸ hexpiry⟩
  rw [getUserByID_eq_some huser]
  exact huserID.symm

/-- Without a bearer key and a token the gates agree. -/
theorem run_eq_requireSession {r : AuthRequest} (hbearer : bearerKey r.authorization = none)
    (htoken : r.token = []) (gate : Gate) (now now' : Int) :
    GateCall.run st t ⟨gate, r, fails, now, now'⟩ = requireSession st t fails r now := by
  cases gate with
  | humaRequireAuth => exact humaRequireAuth_of_blank hbearer now now'
  | requireSession => rfl
  | handleWSAuth => exact handleWSAuth_of_noToken htoken now now'

/-- After any run of the stores, a handler behind a gate runs for a user only on a session
cookie of the user that is valid now, or, unless the gate is `RequireSession`, on a key of the
user that stands; and without a key in the request the three gates answer alike. -/
theorem gates_sound_and_agree (st : Store) (users : Table UserRow UserRow.clash)
    (calls : List AuthCall) (s : AuthState)
    (hrun : runSteps (authStep st) (.init users) calls = some s) (r : AuthRequest)
    (hinj : Set.InjOn st.hashToken (s.usedValues r)) (fails : Failures) (now now' : Int) :
    (∀ gate user sess,
      (GateCall.run st s.tables ⟨gate, r, fails, now, now'⟩).result = .session user sess →
        s.SessionAdmits r now user sess) ∧
    (∀ gate user key,
      (GateCall.run st s.tables ⟨gate, r, fails, now, now'⟩).result = .key user key →
        (gate = .humaRequireAuth ∧ ∃ token, bearerKey r.authorization = some token ∧
          ∃ key', key'.id = key.id ∧ s.KeyAdmits (utf8Encode token) now user key') ∨
        gate = .handleWSAuth ∧ r.token ≠ [] ∧
          ∃ key', key'.id = key.id ∧ s.KeyAdmits r.token now' user key') ∧
    (bearerKey r.authorization = none → r.token = [] → ∀ gate gate',
      (GateCall.run st s.tables ⟨gate, r, fails, now, now'⟩).result =
        (GateCall.run st s.tables ⟨gate', r, fails, now, now'⟩).result) := by
  have hs : s.Matches st := .run hrun
  refine ⟨fun gate user sess h ↦ ?_, fun gate user key h ↦ ?_, fun hbearer htoken gate gate' ↦ ?_⟩
  · have hcookie : ∃ cookie, r.cookie = some cookie ∧
        cookieSession st s.tables fails cookie now = some (sess, user) := by
      cases gate with
      | humaRequireAuth => exact (humaRequireAuth_result st _ fails r now now').1 user sess h
      | requireSession => exact (requireSession_result st _ fails r now).1 user sess h
      | handleWSAuth => exact (handleWSAuth_result st _ fails r now now').1 user sess h
    obtain ⟨cookie, hcookie, hsess⟩ := hcookie
    exact sessionAdmits_of_cookieSession hs hinj hcookie hsess
  · cases gate with
    | humaRequireAuth =>
      obtain ⟨⟨token, htoken, hkey⟩, huser, -⟩ :=
        (humaRequireAuth_result st _ fails r now now').2 user key h
      have hused : utf8Encode token ∈ s.usedValues r :=
        .inr (.inr (.inr (.inr (.inl ⟨token, htoken, rfl⟩))))
      exact .inl ⟨rfl, token, htoken, keyAdmits_of_verifyKey hs hinj hused hkey huser⟩
    | requireSession => exact absurd h ((requireSession_result st _ fails r now).2 user key)
    | handleWSAuth =>
      obtain ⟨-, hws⟩ := ((handleWSAuth_result st _ fails r now now').2.1 user key).mp h
      obtain ⟨hne, hkey, huser⟩ := wsTokenAuth_eq_key.mp hws
      have hused : r.token ∈ s.usedValues r := .inr (.inr (.inr (.inr (.inr ⟨hne, rfl⟩))))
      exact .inr ⟨rfl, hne, keyAdmits_of_verifyKey hs hinj hused hkey huser⟩
  · rw [run_eq_requireSession hbearer htoken, run_eq_requireSession hbearer htoken]

/-- A sign-in and a new key. -/
def demoAuthCalls : List AuthCall :=
  [.session (.createSession "u1" "10.0.0.1" "browser" (some demoToken) "s1" 0 0),
    .createAPIKey "u1" "ci" [107] none "k1" 0]

/-- A request with the key of `demoAuthCalls` as its bearer token. -/
def demoAuthRequest : AuthRequest := ⟨"Bearer k".toList, none, []⟩

private theorem demoAuthCalls_run : ∃ s user key,
    runSteps (authStep demoStore) (.init demoUsers) demoAuthCalls = some s ∧
      (GateCall.run demoStore s.tables
        ⟨.humaRequireAuth, demoAuthRequest, fun _ ↦ none, 0, 0⟩).result = .key user key ∧
      s.sessions.history = [.created demoToken (demoStore.signToken demoToken)
        ⟨"s1", "u1", unixMilli SessionTTL, "10.0.0.1", "browser", none, unixMilli 0⟩] ∧
      s.keyHistory = [.created [107] ⟨"k1", "u1", "ci", demoStore.hashToken [107], true, none,
        unixMilli 0, 0, 0⟩] := by
  have hrun : ((runSteps (authStep demoStore) (.init demoUsers) demoAuthCalls).map fun s ↦
      ((GateCall.run demoStore s.tables
        ⟨.humaRequireAuth, demoAuthRequest, fun _ ↦ none, 0, 0⟩).result,
        s.sessions.history, s.keyHistory)) =
      some (.key ⟨"u1", "Admin", "admin@example.com", true, "admin", "", "admin", 0, 0⟩
          ⟨"k1", "u1", "ci", demoStore.hashToken [107], true, none, unixMilli 0, 100, 60000⟩,
        [.created demoToken (demoStore.signToken demoToken)
          ⟨"s1", "u1", unixMilli SessionTTL, "10.0.0.1", "browser", none, unixMilli 0⟩],
        [.created [107] ⟨"k1", "u1", "ci", demoStore.hashToken [107], true, none, unixMilli 0,
          0, 0⟩]) := by decide +kernel
  obtain ⟨s, hs, heq⟩ := Option.map_eq_some_iff.mp hrun
  obtain ⟨hresult, heq⟩ := Prod.mk.inj heq
  obtain ⟨hsessions, hkeys⟩ := Prod.mk.inj heq
  exact ⟨s, _, _, hs, hresult, hsessions, hkeys⟩

/-- The new key lets its user in. -/
theorem gates_sound_and_agree_demo : ∃ s user key,
    runSteps (authStep demoStore) (.init demoUsers) demoAuthCalls = some s ∧
      s.KeyAdmits [107] 0 user key := by
  obtain ⟨s, user, key, hrun, hresult, hsessions, hkeys⟩ := demoAuthCalls_run
  have hbearer : bearerKey demoAuthRequest.authorization = some ['k'] := by decide +kernel
  have hused (v : Bytes) (hv : v ∈ s.usedValues demoAuthRequest) : v = demoToken ∨ v = [107] := by
    rcases hv with ⟨_, _, hv⟩ | hv | ⟨cookie, hcookie, -⟩ | ⟨_, hv⟩ | ⟨token, htoken, rfl⟩ | hv
    · rw [hsessions, List.mem_singleton] at hv
      exact .inl (SessionEvent.created.inj hv).1
    · rw [hsessions, List.mem_singleton] at hv
      contradiction
    · cases hcookie
    · rw [hkeys, List.mem_singleton] at hv
      exact .inr (KeyEvent.created.inj hv).1
    · obtain rfl := Option.some.inj (hbearer.symm.trans htoken)
      exact .inr (by decide +kernel)
    · exact absurd rfl hv.1
  have hinj : Set.InjOn demoStore.hashToken (s.usedValues demoAuthRequest) := by
    intro v hv v' hv' heq
    rcases hused v hv with rfl | rfl <;> rcases hused v' hv' with rfl | rfl
    · rfl
    · exact absurd heq (by decide +kernel)
    · exact absurd heq (by decide +kernel)
    · rfl
  have hsound := (gates_sound_and_agree demoStore demoUsers demoAuthCalls s hrun demoAuthRequest
    hinj (fun _ ↦ none) 0 0).2.1 .humaRequireAuth user key hresult
  rcases hsound with ⟨-, token, htoken, key', -, hadmits⟩ | ⟨hgate, -⟩
  · obtain rfl := Option.some.inj (hbearer.symm.trans htoken)
    have hraw : utf8Encode ['k'] = [107] := by decide +kernel
    exact ⟨s, user, key', hrun, hraw ▸ hadmits⟩
  · contradiction

end Dockstack.Server
