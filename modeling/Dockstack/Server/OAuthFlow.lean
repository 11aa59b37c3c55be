import Dockstack.Base.History
import Dockstack.Server.AccountRuns
import Dockstack.Server.OAuthLink
import Dockstack.Server.OAuthSignature

/-!
# OAuth logins in a browser

`handleOAuthStart` and `handleOAuthCallback` of `internal/server/api/auth/oauth.go:64–176`, and the
browsers that keep the state cookie between the two. A callback is accepted with the state that the
same browser was given last, once, and for ten minutes.
-/

namespace Dockstack.Server

open Dockstack.Base Dockstack.Auth

/-- The tables after an OAuth login. -/
def AccountDB.withOAuth (db : AccountDB) (oauth : OAuthDB) : AccountDB :=
  { db with users := oauth.users, oauthAccounts := oauth.accounts }

/-- The parameters of a callback, and what its session records of the client. -/
structure CallbackRequest where
  provider : String
  state : Bytes
  code : String
  ip : String
  userAgent : String

/-- What a callback gets from outside: what the provider answers (the access token for a code, and
the subject and email for an access token), the queries that fail, the new ids, the session token
that is drawn, and the clock readings. -/
structure CallbackOutside where
  configFails : Bool
  exchange : String → Option String
  userInfo : String → Option (String × String)
  oauthFails : OAuthFailures
  sessionFails : Bool
  userID : String
  accountID : String
  sessionID : String
  token : Option Bytes
  now : Int
  now' : Int

/-- What a callback answers: whether it clears the state cookie, and the session cookie with which
it redirects, or an error. -/
structure CallbackAnswer where
  clearsState : Bool
  result : Except HTTPError Bytes

section

variable (hmac : Bytes → Bytes → Bytes) (secret : Bytes) (st : Store) (provider : Option String)

/-- `LinkOAuthAccount` at the end of `findOrLinkOAuthUser`; `oauth.go:193–196`. -/
def linkUser (db : OAuthDB) (fails : OAuthFailures) (call : OAuthCall) (accountID : String)
    (now : Int) (user : User) : OAuthDB × Except OAuthError User :=
  match linkOAuthAccount db fails user.id call.providerID call.sub call.email accountID now with
  | none => (db, .error .linkAccount)
  | some db => (db, .ok user)

/-- `findOrLinkOAuthUser` from its start to its end; `oauth.go:178–197`. -/
def findOrLinkOAuthUser (db : OAuthDB) (fails : OAuthFailures) (call : OAuthCall)
    (userID accountID : String) (now : Int) : OAuthDB × Except OAuthError User :=
  match oauthUserID db fails call.providerID call.sub with
  | some id =>
    match oauthGetUserByID db fails id with
    | none => (db, .error .loadUser)
    | some user => (db, .ok user)
  | none =>
    match userByEmail db fails call.email with
    | none => (db, .error .findUser)
    | some (some user) => linkUser db fails call accountID now user
    | some none =>
      match createUser db fails (oauthUserRow call.email userID now) with
      | none => (db, .error .createUser)
      | some db =>
        match oauthGetUserByID db fails userID with
        | none => (db, .error .createUser)
        | some user => linkUser db fails call accountID now user

/-- `handleOAuthStart`; `oauth.go:64–91`. The answer is the state, in the redirect and in the
cookie. `token` is the new UUID. -/
def handleOAuthStart (path : String) (configFails : Bool) (token : Bytes) :
    Except HTTPError Bytes :=
  match provider with
  | none => .error ⟨404, "OAuth not configured"⟩
  | some id =>
    if path ≠ id then .error ⟨404, "unknown provider"⟩
    else if configFails then .error ⟨500, "failed to configure OAuth"⟩
    else .ok (signOAuthState hmac secret token)

/-- `CreateSession` and the redirect; `oauth.go:160–175`. -/
def oauthSession (db : AccountDB) (req : CallbackRequest) (o : CallbackOutside) (user : User) :
    Except HTTPError Bytes × AccountDB :=
  if o.sessionFails then (.error ⟨500, "failed to create session"⟩, db)
  else
    match st.createSession db.sessionDB user.id req.ip req.userAgent o.token o.sessionID o.now
      o.now' with
    | .error _ => (.error ⟨500, "failed to create session"⟩, db)
    | .ok (sessions, cookie, _) => (.ok cookie, { db with sessions := sessions.sessions })

/-- `handleOAuthCallback` once the state is accepted; `oauth.go:123–176`. -/
def oauthLogin (db : AccountDB) (req : CallbackRequest) (o : CallbackOutside) :
    Except HTTPError Bytes × AccountDB :=
  if o.configFails then (.error ⟨500, "failed to configure OAuth"⟩, db)
  else if req.code = "" then (.error ⟨400, "missing code"⟩, db)
  else
    match o.exchange req.code with
    | none => (.error ⟨400, "failed to exchange code"⟩, db)
    | some access =>
      match o.userInfo access with
      | none => (.error ⟨400, "failed to fetch user info"⟩, db)
      | some (sub, email) =>
        if email = "" then (.error ⟨400, "OAuth provider did not return an email"⟩, db)
        else
          let found := findOrLinkOAuthUser db.oauthDB o.oauthFails ⟨req.provider, sub, email⟩
            o.userID o.accountID o.now
          match found.2 with
          | .error _ => (.error ⟨500, "failed to link account"⟩, db.withOAuth found.1)
          | .ok user => oauthSession st (db.withOAuth found.1) req o user

/-- `handleOAuthCallback`; `oauth.go:93–176`. -/
def handleOAuthCallback (db : AccountDB) (cookie : Option Bytes) (req : CallbackRequest)
    (o : CallbackOutside) : CallbackAnswer × AccountDB :=
  match provider with
  | none => (⟨false, .error ⟨404, "OAuth not configured"⟩⟩, db)
  | some id =>
    if req.provider ≠ id then (⟨false, .error ⟨404, "unknown provider"⟩⟩, db)
    else if !verifyOAuthState hmac secret req.state then
      (⟨false, .error ⟨400, "invalid state"⟩⟩, db)
    else
      match cookie with
      | none => (⟨false, .error ⟨400, "invalid state"⟩⟩, db)
      | some cookie =>
        if !verifyOAuthState hmac secret cookie || cookie != req.state then
          (⟨false, .error ⟨400, "invalid state"⟩⟩, db)
        else
          let r := oauthLogin st db req o
          (⟨true, r.1⟩, r.2)

/-! ## Browsers -/

/-- What happens to the state cookie of a browser: it is set to a new state, or an accepted callback
clears it. -/
inductive FlowEvent where
  | started (browser : String) (token : Bytes) (now : Int)
  | accepted (browser : String)
  deriving DecidableEq

/-- The browser of an event. -/
def FlowEvent.browser : FlowEvent → String
  | .started browser _ _ => browser
  | .accepted browser => browser

/-- The tables, the state cookie of each browser with the time up to which it is kept, the UUIDs
that were drawn, and the events so far. -/
structure FlowState where
  db : AccountDB
  jar : String → Option (Bytes × Int)
  drawn : List Bytes
  history : List FlowEvent

/-- Any tables, no cookies. -/
def FlowState.init (db : AccountDB) : FlowState := ⟨db, fun _ ↦ none, [], []⟩

/-- The state cookie that a browser sends. -/
def FlowState.cookie (s : FlowState) (browser : String) (now : Int) : Option Bytes :=
  (s.jar browser).bind fun c ↦ if now < c.2 then some c.1 else none

/-- How long a browser keeps the cookie, its `MaxAge`; `oauth.go:88`. -/
def stateMaxAge : Int := 600 * second

/-- What happens: a browser is sent to the start or to a callback, a client with whatever cookie it
likes calls back, or a request to the account API is served. -/
inductive FlowStep where
  | start (browser path : String) (configFails : Bool) (token : Bytes) (now : Int)
  | callback (browser : String) (req : CallbackRequest) (o : CallbackOutside)
  | direct (cookie : Option Bytes) (req : CallbackRequest) (o : CallbackOutside)
  | account (c : AccountCall × Outside)

/-- A callback in a browser. -/
def FlowState.callback (s : FlowState) (browser : String) (req : CallbackRequest)
    (o : CallbackOutside) : CallbackAnswer × AccountDB :=
  handleOAuthCallback hmac secret st provider s.db (s.cookie browser o.now) req o

/-- One step. UUIDs are random, and none is drawn twice. -/
def flowStep (argon : Argon2id) (s : FlowState) : FlowStep → Option FlowState
  | .start browser path configFails token now =>
    if s.drawn.contains token then none
    else
      match handleOAuthStart hmac secret provider path configFails token with
      | .error _ => some s
      | .ok state => some { s with
          jar := Function.update s.jar browser (some (state, now + stateMaxAge))
          drawn := token :: s.drawn
          history := s.history ++ [.started browser token now] }
  | .callback browser req o =>
    let r := s.callback hmac secret st provider browser req o
    if r.1.clearsState then
      some { s with
        db := r.2
        jar := Function.update s.jar browser none
        history := s.history ++ [.accepted browser] }
    else some { s with db := r.2 }
  | .direct cookie req o =>
    some { s with db := (handleOAuthCallback hmac secret st provider s.db cookie req o).2 }
  | .account c => some { s with db := (serveAccount st argon s.db c).2 }

end

section

variable {hmac : Bytes → Bytes → Bytes} {secret : Bytes} {st : Store} {provider : Option String}
  {argon : Argon2id} {s s' : FlowState}

/-! ## The state cookie -/

/-- The last that happened to the state cookie of the browser is that it was set to this state. -/
def Pending (hmac : Bytes → Bytes → Bytes) (secret : Bytes) (browser : String) (state : Bytes)
    (expires : Int) (history : List FlowEvent) : Prop :=
  ∃ token now, Since (fun e ↦ e.browser ≠ browser) (· = .started browser token now) history ∧
    state = signOAuthState hmac secret token ∧ expires = now + stateMaxAge

private theorem not_pending_nil {browser : String} {state : Bytes} {expires : Int} :
    ¬ Pending hmac secret browser state expires [] := by
  rintro ⟨token, now, hsince, -⟩
  exact not_since_nil hsince

private theorem pending_append_other {browser : String} {state : Bytes} {expires : Int}
    {history : List FlowEvent} {e : FlowEvent} (he : e.browser ≠ browser) :
    Pending hmac secret browser state expires (history ++ [e]) ↔
      Pending hmac secret browser state expires history := by
  apply exists_congr
  intro token
  apply exists_congr
  intro now
  apply and_congr_left'
  apply since_append
  intro e' he'
  obtain rfl := List.mem_singleton.mp he'
  refine ⟨he, ?_⟩
  rintro rfl
  exact he rfl

private theorem not_pending_append_accepted {browser : String} {state : Bytes} {expires : Int}
    {history : List FlowEvent} :
    ¬ Pending hmac secret browser state expires (history ++ [.accepted browser]) := by
  rintro ⟨token, now, hsince, -⟩
  obtain hstart | ⟨-, hok⟩ := since_append_singleton.mp hsince
  · contradiction
  · exact hok rfl

private theorem pending_append_started {browser : String} {state token : Bytes}
    {expires now : Int} {history : List FlowEvent} :
    Pending hmac secret browser state expires (history ++ [.started browser token now]) ↔
      state = signOAuthState hmac secret token ∧ expires = now + stateMaxAge := by
  constructor
  · rintro ⟨token', now', hsince, hstate, hexpires⟩
    obtain hstart | ⟨-, hok⟩ := since_append_singleton.mp hsince
    · obtain ⟨-, rfl, rfl⟩ := FlowEvent.started.inj hstart
      exact ⟨hstate, hexpires⟩
    · exact absurd rfl hok
  · rintro ⟨hstate, hexpires⟩
    exact ⟨token, now, since_append_singleton.mpr (.inl rfl), hstate, hexpires⟩

/-- The cookies are those of the events, and no token was given out twice. -/
structure Tracked (hmac : Bytes → Bytes → Bytes) (secret : Bytes) (s : FlowState) : Prop where
  jar : ∀ browser state expires, s.jar browser = some (state, expires) ↔
    Pending hmac secret browser state expires s.history
  drawn : ∀ browser token now, .started browser token now ∈ s.history → token ∈ s.drawn
  once : ∀ browser browser' token now now', .started browser token now ∈ s.history →
    .started browser' token now' ∈ s.history → browser = browser'

namespace Tracked

theorem init (db : AccountDB) : Tracked hmac secret (.init db) where
  jar _ _ _ := iff_of_false nofun not_pending_nil
  drawn := nofun
  once := nofun

private theorem started (h : Tracked hmac secret s) {browser : String} {token : Bytes}
    (hfresh : token ∉ s.drawn) (now : Int) :
    Tracked hmac secret { s with
      jar := Function.update s.jar browser
        (some (signOAuthState hmac secret token, now + stateMaxAge))
      drawn := token :: s.drawn
      history := s.history ++ [.started browser token now] } := by
  have hold {browser' : String} {token' : Bytes} {now' : Int}
      (hmem : FlowEvent.started browser' token' now' ∈
        s.history ++ [FlowEvent.started browser token now]) :
      FlowEvent.started browser' token' now' ∈ s.history ∨
        (browser' = browser ∧ token' = token) := by
    apply (List.mem_append.mp hmem).imp_right
    intro hlast
    obtain ⟨rfl, rfl, rfl⟩ := FlowEvent.started.inj (List.mem_singleton.mp hlast)
    exact ⟨rfl, rfl⟩
  constructor
  · intro browser' state expires
    by_cases hb : browser' = browser
    · subst hb
      rw [pending_append_started]
      show Function.update s.jar browser' _ browser' = _ ↔ _
      rw [Function.update_self, Option.some_inj, Prod.mk.injEq]
      exact and_congr eq_comm eq_comm
    · rw [pending_append_other (Ne.symm hb), ← h.jar]
      show Function.update s.jar browser _ browser' = _ ↔ _
      rw [Function.update_of_ne hb]
  · intro browser' token' now' hmem
    obtain hmem | ⟨-, rfl⟩ := hold hmem
    · exact List.mem_cons_of_mem token (h.drawn browser' token' now' hmem)
    · exact List.mem_cons_self
  · intro b b' token' now₁ now₂ hb hb'
    obtain hmem | ⟨rfl, rfl⟩ := hold hb
    · obtain hmem' | ⟨rfl, rfl⟩ := hold hb'
      · exact h.once b b' token' now₁ now₂ hmem hmem'
      · exact absurd (h.drawn b token' now₁ hmem) hfresh
    · obtain hmem' | ⟨rfl, -⟩ := hold hb'
      · exact absurd (h.drawn b' token' now₂ hmem') hfresh
      · rfl

private theorem accepted (h : Tracked hmac secret s) (browser : String) (db : AccountDB) :
    Tracked hmac secret { s with
      db := db
      jar := Function.update s.jar browser none
      history := s.history ++ [.accepted browser] } := by
  have hold {browser' : String} {token : Bytes} {now : Int}
      (hmem : FlowEvent.started browser' token now ∈ s.history ++ [FlowEvent.accepted browser]) :
      FlowEvent.started browser' token now ∈ s.history := by
    apply (List.mem_append.mp hmem).resolve_right
    intro hlast
    cases List.mem_singleton.mp hlast
  constructor
  · intro browser' state expires
    by_cases hb : browser' = browser
    · subst hb
      apply iff_of_false _ not_pending_append_accepted
      show Function.update s.jar browser' none browser' ≠ _
      rw [Function.update_self]
      exact nofun
    · rw [pending_append_other (Ne.symm hb), ← h.jar]
      show Function.update s.jar browser none browser' = _ ↔ _
      rw [Function.update_of_ne hb]
  · intro browser' token now hmem
    exact h.drawn browser' token now (hold hmem)
  · intro b b' token now now' hb hb'
    exact h.once b b' token now now' (hold hb) (hold hb')

private theorem withDB (h : Tracked hmac secret s) (db : AccountDB) :
    Tracked hmac secret { s with db := db } :=
  ⟨h.jar, h.drawn, h.once⟩

/-- Every step keeps the cookies tracked. -/
theorem step (h : Tracked hmac secret s) {l : FlowStep}
    (hstep : flowStep hmac secret st provider argon s l = some s') : Tracked hmac secret s' := by
  cases l with
  | start browser path configFails token now =>
    unfold flowStep at hstep
    obtain ⟨hfresh, hstep⟩ := Option.ite_none_left_eq_some.mp hstep
    unfold handleOAuthStart at hstep
    split at hstep
    · obtain rfl := Option.some.inj hstep
      exact h
    · next state hstate =>
      obtain rfl := Option.some.inj hstep
      split at hstate
      · contradiction
      · split at hstate
        · contradiction
        · split at hstate
          · contradiction
          · obtain rfl := Except.ok.inj hstate
            rw [List.contains_iff_mem] at hfresh
            exact h.started hfresh now
  | callback browser req o =>
    unfold flowStep at hstep
    dsimp only at hstep
    split at hstep
    · obtain rfl := Option.some.inj hstep
      exact h.accepted browser _
    · obtain rfl := Option.some.inj hstep
      exact h.withDB _
  | direct cookie req o =>
    obtain rfl := Option.some.inj hstep
    exact h.withDB _
  | account c =>
    obtain rfl := Option.some.inj hstep
    exact h.withDB _

end Tracked

/-! ## Callbacks -/

variable {db : AccountDB} {cookie : Option Bytes} {req : CallbackRequest} {o : CallbackOutside}

private theorem clearsState_iff :
    (handleOAuthCallback hmac secret st provider db cookie req o).1.clearsState = true ↔
      provider = some req.provider ∧ cookie = some req.state ∧
        verifyOAuthState hmac secret req.state = true := by
  unfold handleOAuthCallback
  split
  · simp
  · next id =>
    split
    · next hprovider =>
      apply iff_of_false Bool.false_ne_true
      rintro ⟨heq, -⟩
      exact hprovider (Option.some.inj heq).symm
    · next hprovider =>
      split
      · next hstate =>
        apply iff_of_false Bool.false_ne_true
        rintro ⟨-, -, hverified⟩
        rw [hverified] at hstate
        contradiction
      · next hstate =>
        split
        · simp
        · next value =>
          split
          · next hcookie =>
            apply iff_of_false Bool.false_ne_true
            rintro ⟨-, heq, hverified⟩
            obtain rfl := Option.some.inj heq
            rw [hverified] at hcookie
            simp at hcookie
          · next hcookie =>
            apply iff_of_true rfl
            rw [Bool.or_eq_true, not_or, bne_iff_ne, not_not] at hcookie
            refine ⟨congrArg some (not_not.mp hprovider).symm, congrArg some hcookie.2, ?_⟩
            simpa using hstate

private theorem handleOAuthCallback_cases (hmac : Bytes → Bytes → Bytes) (secret : Bytes)
    (st : Store) (provider : Option String) (db : AccountDB) (cookie : Option Bytes)
    (req : CallbackRequest) (o : CallbackOutside) :
    handleOAuthCallback hmac secret st provider db cookie req o =
        (⟨true, (oauthLogin st db req o).1⟩, (oauthLogin st db req o).2) ∨
      ∃ e, handleOAuthCallback hmac secret st provider db cookie req o =
        (⟨false, .error e⟩, db) := by
  unfold handleOAuthCallback
  split
  · exact .inr ⟨_, rfl⟩
  · split
    · exact .inr ⟨_, rfl⟩
    · split
      · exact .inr ⟨_, rfl⟩
      · split
        · exact .inr ⟨_, rfl⟩
        · split
          · exact .inr ⟨_, rfl⟩
          · exact .inl rfl

private theorem linkUser_eq_ok {oauth : OAuthDB} {fails : OAuthFailures} {call : OAuthCall}
    {accountID : String} {now : Int} {user user' : User}
    (h : (linkUser oauth fails call accountID now user).2 = .ok user') :
    LinkedTo (linkUser oauth fails call accountID now user).1 call user'.id := by
  unfold linkUser at h ⊢
  split at h
  · contradiction
  · next hlink =>
    obtain rfl := Except.ok.inj h
    exact (linkOAuthAccount_eq_some hlink).2.2

private theorem findOrLinkOAuthUser_eq_ok {oauth : OAuthDB} {fails : OAuthFailures}
    {call : OAuthCall} {userID accountID : String} {now : Int} {user : User}
    (h : (findOrLinkOAuthUser oauth fails call userID accountID now).2 = .ok user) :
    LinkedTo (findOrLinkOAuthUser oauth fails call userID accountID now).1 call user.id := by
  unfold findOrLinkOAuthUser at h ⊢
  cases hlinked : oauthUserID oauth fails call.providerID call.sub with
  | some id =>
    rw [hlinked] at h
    dsimp only at h ⊢
    split at h
    · contradiction
    · next hloaded =>
      obtain rfl := Except.ok.inj h
      rw [(oauthGetUserByID_eq_some hloaded).1]
      exact oauthUserID_eq_some hlinked
  | none =>
    rw [hlinked] at h
    dsimp only at h ⊢
    split at h
    · contradiction
    · exact linkUser_eq_ok h
    · split at h
      · contradiction
      · split at h
        · contradiction
        · exact linkUser_eq_ok h

private theorem oauthSession_eq_ok {user : User} {value : Bytes}
    (h : (oauthSession st db req o user).1 = .ok value) :
    (oauthSession st db req o user).2.oauthAccounts = db.oauthAccounts ∧
      ∃ token, o.token = some token ∧ value = st.signToken token ∧
        ∃ row ∈ (oauthSession st db req o user).2.sessions.rows,
          row.tokenHash = st.hashToken token ∧ row.userID = user.id := by
  unfold oauthSession at h ⊢
  split at h
  · contradiction
  · next hsession =>
    rw [if_neg hsession]
    split at h
    · contradiction
    · next sessions signed sess hcreated =>
      obtain rfl := Except.ok.inj h
      refine ⟨rfl, ?_⟩
      unfold Store.createSession at hcreated
      split at hcreated
      · contradiction
      · next token htoken =>
        dsimp only at hcreated
        split at hcreated
        · split at hcreated
          · contradiction
          · next hinsert =>
            obtain ⟨rfl, hrest⟩ := Prod.mk.inj (Except.ok.inj hcreated)
            obtain ⟨rfl, -⟩ := Prod.mk.inj hrest
            exact ⟨token, htoken, rfl, _, (Table.mem_insert hinsert _).mpr (.inl rfl), rfl, rfl⟩
        · contradiction

/-- The session that a login creates, and for whom. -/
structure LoggedIn (st : Store) (req : CallbackRequest) (o : CallbackOutside) (cookie : Bytes)
    (db : AccountDB) (sub email userID : String) : Prop where
  userInfo : ∃ access, o.exchange req.code = some access ∧ o.userInfo access = some (sub, email)
  named : email ≠ ""
  linked : LinkedTo db.oauthDB ⟨req.provider, sub, email⟩ userID
  session : ∃ token, o.token = some token ∧ cookie = st.signToken token ∧
    ∃ row ∈ db.sessions.rows, row.tokenHash = st.hashToken token ∧ row.userID = userID

private theorem oauthLogin_eq_ok {value : Bytes} (h : (oauthLogin st db req o).1 = .ok value) :
    ∃ sub email userID, LoggedIn st req o value (oauthLogin st db req o).2 sub email userID := by
  unfold oauthLogin at h ⊢
  split at h
  · contradiction
  · next hconfig =>
    rw [if_neg hconfig]
    split at h
    · contradiction
    · next hcode =>
      rw [if_neg hcode]
      split at h
      · contradiction
      · next access hexchange =>
        split at h
        · contradiction
        · next sub email hinfo =>
          split at h
          · contradiction
          · next hemail =>
            rw [if_neg hemail]
            dsimp only at h ⊢
            split at h
            · contradiction
            · next user hfound =>
              have hlinked := findOrLinkOAuthUser_eq_ok hfound
              obtain ⟨haccounts, hsession⟩ := oauthSession_eq_ok h
              refine ⟨sub, email, user.id, ⟨access, hexchange, hinfo⟩, hemail, ?_, hsession⟩
              obtain ⟨r, hr, hpair⟩ := hlinked
              refine ⟨r, ?_, hpair⟩
              show r ∈ (oauthSession st _ req o user).2.oauthAccounts.rows
              rw [haccounts]
              exact hr

/-- In every run of browsers, other clients and account requests: a callback in a browser is
accepted exactly with the state that this browser was given last, within ten minutes, and if no
callback was accepted since; never with a state given to another browser. A callback that is not
accepted does nothing, and one that logs in does so as the user that is linked to the subject whom
the provider returned for the code. -/
theorem callback_accepted_iff (hmac : Bytes → Bytes → Bytes) (secret : Bytes) (st : Store)
    (provider : Option String) (argon : Argon2id) (db : AccountDB) (steps : List FlowStep)
    (s : FlowState) (hrun : runSteps (flowStep hmac secret st provider argon) (.init db) steps =
      some s) (browser : String) (req : CallbackRequest) (o : CallbackOutside) :
    let r := s.callback hmac secret st provider browser req o
    (r.1.clearsState = true ↔ provider = some req.provider ∧
      ∃ expires, Pending hmac secret browser req.state expires s.history ∧ o.now < expires) ∧
    (∀ browser' token now, browser' ≠ browser → .started browser' token now ∈ s.history →
      req.state = signOAuthState hmac secret token → r.1.clearsState = false) ∧
    (r.1.clearsState = false → (∃ e, r.1.result = .error e) ∧ r.2 = s.db) ∧
    (∀ cookie, r.1.result = .ok cookie →
      r.1.clearsState = true ∧
        ∃ sub email userID, LoggedIn st req o cookie r.2 sub email userID) := by
  intro r
  have htracked : Tracked hmac secret s :=
    runSteps_invariant (fun _ _ _ h hs ↦ h.step hs) (.init db) hrun
  have hiff : r.1.clearsState = true ↔ provider = some req.provider ∧
      ∃ expires, Pending hmac secret browser req.state expires s.history ∧ o.now < expires := by
    apply clearsState_iff.trans
    apply and_congr_right'
    constructor
    · rintro ⟨hcookie, -⟩
      obtain ⟨⟨state, expires⟩, hjar, hlive⟩ := Option.bind_eq_some_iff.mp hcookie
      obtain ⟨hlt, hstate⟩ := Option.ite_none_right_eq_some.mp hlive
      obtain rfl := Option.some.inj hstate
      exact ⟨expires, (htracked.jar browser _ expires).mp hjar, hlt⟩
    · rintro ⟨expires, hpending, hlt⟩
      constructor
      · apply Option.bind_eq_some_iff.mpr
        exact ⟨_, (htracked.jar browser _ expires).mpr hpending, if_pos hlt⟩
      · obtain ⟨token, -, -, hstate, -⟩ := hpending
        exact (verifyOAuthState_eq_true hmac secret).mpr ⟨token, hstate⟩
  have hcases : r = _ ∨ ∃ e, r = _ := handleOAuthCallback_cases hmac secret st provider s.db
    (s.cookie browser o.now) req o
  refine ⟨hiff, ?_, ?_, ?_⟩
  · intro browser' token now hne hstarted hstate
    rw [Bool.eq_false_iff]
    intro hclears
    obtain ⟨-, expires, ⟨token', now', hsince, hstate', -⟩, -⟩ := hiff.mp hclears
    obtain ⟨_, hstarted', rfl⟩ := hsince.exists_mem
    have hsigned : (newStore hmac secret id 0).signToken token =
        (newStore hmac secret id 0).signToken token' := hstate.symm.trans hstate'
    obtain rfl := Store.signToken_injective _ hsigned
    exact hne (htracked.once browser' browser token now now' hstarted hstarted')
  · intro hclears
    obtain heq | ⟨e, heq⟩ := hcases
    · rw [heq] at hclears
      contradiction
    · rw [heq]
      exact ⟨⟨e, rfl⟩, rfl⟩
  · intro cookie hcookie
    obtain heq | ⟨e, heq⟩ := hcases
    · rw [heq] at hcookie ⊢
      exact ⟨rfl, oauthLogin_eq_ok hcookie⟩
    · rw [heq] at hcookie
      contradiction

end

/-- The secret of `demoStore`. -/
def demoSecret : Bytes := [115, 101, 99, 114, 101, 116]

/-- HMAC-SHA256 with this secret. -/
def demoHmac (secret message : Bytes) : Bytes :=
  if secret = demoSecret then demoStore.mac message else []

/-- A browser is sent to the start, and another one after it. -/
def demoFlow : List FlowStep :=
  [.start "alice" "oidc" false [1] 0, .start "mallory" "oidc" false [2] 0]

/-- A callback with the state of the token. -/
def demoCallback (token : Bytes) : CallbackRequest :=
  ⟨"oidc", signOAuthState demoHmac demoSecret token, "code", "10.0.0.1", "browser"⟩

/-- A provider that knows no code. -/
def demoCallbackOutside : CallbackOutside where
  configFails := false
  exchange _ := none
  userInfo _ := none
  oauthFails _ := false
  sessionFails := false
  userID := "u3"
  accountID := "a3"
  sessionID := "s3"
  token := none
  now := stateMaxAge - 1
  now' := 0

/-- The first browser is let through with its own state, and not with that of the other. -/
theorem callback_accepted_iff_demo : ∃ s,
    runSteps (flowStep demoHmac demoSecret demoStore (some "oidc") demoArgon) (.init demoAccounts)
      demoFlow = some s ∧
    (s.callback demoHmac demoSecret demoStore (some "oidc") "alice" (demoCallback [1])
      demoCallbackOutside).1.clearsState = true ∧
    (s.callback demoHmac demoSecret demoStore (some "oidc") "alice" (demoCallback [2])
      demoCallbackOutside).1.clearsState = false := by
  have hhistory : (runSteps (flowStep demoHmac demoSecret demoStore (some "oidc") demoArgon)
      (.init demoAccounts) demoFlow).map (·.history) =
      some [.started "alice" [1] 0, .started "mallory" [2] 0] := by decide
  obtain ⟨s, hs, hh⟩ := Option.map_eq_some_iff.mp hhistory
  have hrun (token : Bytes) := callback_accepted_iff demoHmac demoSecret demoStore (some "oidc")
    demoArgon demoAccounts demoFlow s hs "alice" (demoCallback token) demoCallbackOutside
  refine ⟨s, hs, (hrun [1]).1.mpr ⟨rfl, stateMaxAge, ?_, by decide⟩, ?_⟩
  · refine ⟨[1], 0, ⟨[], _, [.started "mallory" [2] 0], hh, rfl, ?_⟩, rfl, by decide⟩
    intro e he
    obtain rfl := List.mem_singleton.mp he
    decide
  · apply (hrun [2]).2.1 "mallory" [2] 0 (by decide)
    · rw [hh]
      decide
    · rfl

end Dockstack.Server
