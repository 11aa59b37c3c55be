import Dockstack.Auth.Session

/-!
# Runs of the session store

Every run of the four session calls, with a history of what each call returned. Writes
to `users` may come in between as long as they delete no user. The invariant ties the
rows of `sessions` to the history: a row stands for each session that was returned and
that no later call ended.
-/

namespace Dockstack.Auth

open Dockstack.Base

/-- A call on the store with its arguments, random values and clock readings. -/
inductive SessionCall where
  | createSession (userID ip userAgent : String) (token : Option Bytes) (id : String)
      (now now' : Int)
  | revokeSession (userID sessionID : String)
  | revokeOtherSessions (userID keepID : String)
  | deleteSessionByToken (token : Bytes)
  | writeUsers (users : Table UserRow UserRow.clash)

/-- What a call did, for the history. -/
inductive SessionEvent where
  | created (token signed : Bytes) (sess : Session)
  | createFailed
  | revoked (userID sessionID : String)
  | revokedOthers (userID keepID : String)
  | deleted (token : Bytes)
  | usersWritten
  deriving DecidableEq

/-- The tables, and the history oldest first. -/
structure SessionState where
  db : DB
  history : List SessionEvent

/-- No sessions yet, any users. -/
def SessionState.init (users : Table UserRow UserRow.clash) : SessionState :=
  ⟨⟨users, Table.empty⟩, []⟩

/-- The tables after a call, and its event; a write that deletes a user is not enabled. -/
def Store.answer (st : Store) (db : DB) : SessionCall → Option (DB × SessionEvent)
  | .createSession userID ip userAgent token id now now' =>
    match st.createSession db userID ip userAgent token id now now' with
    | .error _ => some (db, .createFailed)
    | .ok (db', signed, sess) => some (db', .created (token.getD []) signed sess)
  | .revokeSession userID sessionID =>
    some (Store.revokeSession db userID sessionID, .revoked userID sessionID)
  | .revokeOtherSessions userID keepID =>
    some (Store.revokeOtherSessions db userID keepID, .revokedOthers userID keepID)
  | .deleteSessionByToken token => some (st.deleteSessionByToken db token, .deleted token)
  | .writeUsers users =>
    if db.users.rows.all (fun u ↦ users.rows.any (fun u' ↦ u'.id == u.id)) then
      some ({ db with users := users }, .usersWritten)
    else none

/-- One call. -/
def Store.step (st : Store) (s : SessionState) (c : SessionCall) : Option SessionState :=
  (st.answer s.db c).map (fun r ↦ ⟨r.1, s.history ++ [r.2]⟩)

/-- The call was `RevokeSession(u, s)`, `RevokeOtherSessions(u, k)` with `k ≠ s`, or
`DeleteSessionByToken` of the session's token. -/
def SessionEvent.Ends (sess : Session) (token : Bytes) : SessionEvent → Prop
  | .revoked userID sessionID => userID = sess.userID ∧ sessionID = sess.id
  | .revokedOthers userID keepID => userID = sess.userID ∧ keepID ≠ sess.id
  | .deleted token' => token' = token
  | _ => False

/-- `CreateSession` returned `signed` and `sess`, and no later call ended the session. -/
def Live (history : List SessionEvent) (token signed : Bytes) (sess : Session) : Prop :=
  Since (fun e ↦ ¬ e.Ends sess token) (· = .created token signed sess) history

/-- The tokens that were hashed: generated ones, those of `DeleteSessionByToken`, and the one
in the cookie. -/
def usedTokens (history : List SessionEvent) (c : Bytes) : Set Bytes :=
  {token | (∃ signed sess, .created token signed sess ∈ history) ∨ .deleted token ∈ history ∨
    Store.unsafeParseToken c = .ok token}

/-- The token a call generated. -/
def SessionEvent.generated : SessionEvent → Option Bytes
  | .created token _ _ => some token
  | _ => none

/-- No token was generated twice. -/
def FreshTokens (history : List SessionEvent) : Prop :=
  (history.filterMap SessionEvent.generated).Nodup

/-- A session call of a user other than `userID`, with a token other than `token`. -/
def SessionCall.ByAnother (userID : String) (token : Bytes) : SessionCall → Prop
  | .createSession userID' _ _ _ _ _ _ => userID' ≠ userID
  | .revokeSession userID' _ => userID' ≠ userID
  | .revokeOtherSessions userID' _ => userID' ≠ userID
  | .deleteSessionByToken token' => token' ≠ token
  | .writeUsers _ => False

private theorem sessionClash_symm (a b : SessionRow) : a.clash b = b.clash a := by
  rw [Bool.eq_iff_iff, SessionRow.clash_iff, SessionRow.clash_iff]
  exact or_congr eq_comm eq_comm

namespace Store

variable (st : Store)

/-- The row that `createSession` inserts for a session. -/
def rowOf (token : Bytes) (sess : Session) : SessionRow where
  id := sess.id
  userID := sess.userID
  tokenHash := st.hashToken token
  expiresAt := sess.expiresAt
  ipAddress := sess.ipAddress
  userAgent := sess.userAgent
  impersonatedBy := sess.impersonatedBy
  createdAt := sess.createdAt

/-- A signed token parses back: the encoded MAC has no dot. -/
theorem unsafeParseToken_signToken (token : Bytes) :
    unsafeParseToken (st.signToken token) = .ok token := by
  rw [unsafeParseToken, signToken, lastIndex_append_cons token (dot_notMem_rawURLEncode _)]
  simp only [List.take_left]

/-- The signature check accepts exactly the signed tokens. -/
theorem verifySignature_eq_some {c token : Bytes} :
    st.verifySignature c = some token ↔ c = st.signToken token := by
  constructor
  · intro h
    unfold verifySignature at h
    split at h
    · contradiction
    · split at h
      · next heq =>
        obtain rfl := Option.some.inj h
        exact heq.symm
      · contradiction
  · rintro rfl
    simp only [verifySignature, unsafeParseToken_signToken, ↓reduceIte]

/-- Two tokens never share a signed value. -/
theorem signToken_injective {token token' : Bytes}
    (h : st.signToken token = st.signToken token') : token = token' := by
  have hparse := unsafeParseToken_signToken st token
  rw [h, unsafeParseToken_signToken] at hparse
  exact (Except.ok.inj hparse).symm

/-- The join finds the row of a token hash and the user it belongs to. -/
theorem getSessionWithUserByTokenHash_eq_some {db : DB} {h : Bytes} {row : SessionRow}
    {u : UserRow} :
    getSessionWithUserByTokenHash db h = some (row, u) ↔
      row ∈ db.sessions.rows ∧ u ∈ db.users.rows ∧ u.id = row.userID ∧ row.tokenHash = h := by
  have hmem (p : SessionRow × UserRow) :
      p ∈ db.sessions.rows.flatMap (fun s ↦
        (db.users.rows.filter (fun u ↦ u.id == s.userID && s.tokenHash == h)).map
          (fun u ↦ (s, u))) ↔
      p.1 ∈ db.sessions.rows ∧ p.2 ∈ db.users.rows ∧ p.2.id = p.1.userID ∧
        p.1.tokenHash = h := by
    obtain ⟨r, u⟩ := p
    simp only [List.mem_flatMap, List.mem_map, List.mem_filter, Bool.and_eq_true, beq_iff_eq,
      Prod.mk.injEq]
    constructor
    · rintro ⟨r', hr', u', ⟨hu', hid, hh⟩, rfl, rfl⟩
      exact ⟨hr', hu', hid, hh⟩
    · rintro ⟨hr, hu, hid, hh⟩
      exact ⟨r, hr, u, ⟨hu, hid, hh⟩, rfl, rfl⟩
  rw [getSessionWithUserByTokenHash, head?_eq_some_of_unique, hmem]
  rintro ⟨r, u⟩ hp ⟨r', u'⟩ hp'
  rw [hmem] at hp hp'
  obtain ⟨hr, hu, hid, hh⟩ := hp
  obtain ⟨hr', hu', hid', hh'⟩ := hp'
  have hrow : r = r' := db.sessions.eq_of_clash sessionClash_symm hr hr'
    (SessionRow.clash_iff.mpr (.inr (hh.trans hh'.symm)))
  have huser : u = u' := db.users.eq_of_clash UserRow.clash_comm hu hu'
    (UserRow.clash_iff.mpr (.inl (by rw [hid, hid', hrow])))
  rw [hrow, huser]

/-- A lookup succeeds exactly on an unexpired row of the cookie's token, joined with its user. -/
theorem sessionUserFromCookie_eq_ok {db : DB} {c : Bytes} {now : Int} {sess : Session}
    {user : User} :
    st.sessionUserFromCookie db c now = .ok (sess, user) ↔
      ∃ token row u, c = st.signToken token ∧ row ∈ db.sessions.rows ∧ u ∈ db.users.rows ∧
        u.id = row.userID ∧ row.tokenHash = st.hashToken token ∧
        unixMilli now ≤ row.expiresAt ∧ sess = sessionOfRow row ∧ user = userOfRow u := by
  constructor
  · intro h
    unfold sessionUserFromCookie at h
    split at h
    · contradiction
    · next token htoken =>
      unfold sessionUser at h
      split at h
      · contradiction
      · next row u hrow =>
        dsimp only at h
        split at h
        · contradiction
        · next hexp =>
          obtain ⟨rfl, rfl⟩ := Prod.mk.inj (Except.ok.inj h)
          obtain ⟨hr, hu, hid, hh⟩ := getSessionWithUserByTokenHash_eq_some.mp hrow
          exact ⟨token, row, u, st.verifySignature_eq_some.mp htoken, hr, hu, hid, hh,
            Int.not_lt.mp hexp, rfl, rfl⟩
  · rintro ⟨token, row, u, hc, hr, hu, hid, hh, hexp, rfl, rfl⟩
    rw [sessionUserFromCookie, st.verifySignature_eq_some.mpr hc]
    dsimp only
    rw [sessionUser, getSessionWithUserByTokenHash_eq_some.mpr ⟨hr, hu, hid, hh⟩]
    exact if_neg (Int.not_lt.mpr hexp)

/-- A failed lookup always says that the session is invalid. -/
theorem sessionUserFromCookie_eq_error {db : DB} {c : Bytes} {now : Int} {e : SessionError}
    (h : st.sessionUserFromCookie db c now = .error e) : e = .errInvalidSession := by
  unfold sessionUserFromCookie at h
  split at h
  · exact (Except.error.inj h).symm
  · unfold sessionUser at h
    split at h
    · exact (Except.error.inj h).symm
    · dsimp only at h
      split at h
      · exact (Except.error.inj h).symm
      · contradiction

/-- A session is created for an existing user, and its row is added. -/
theorem createSession_eq_ok {db db' : DB} {userID ip userAgent id : String}
    {token : Option Bytes} {now now' : Int} {signed : Bytes} {sess : Session}
    (h : st.createSession db userID ip userAgent token id now now' = .ok (db', signed, sess)) :
    signed = st.signToken (token.getD []) ∧ db'.users = db.users ∧
      (∃ u ∈ db.users.rows, u.id = sess.userID) ∧
      ∀ row, row ∈ db'.sessions.rows ↔
        row = st.rowOf (token.getD []) sess ∨ row ∈ db.sessions.rows := by
  unfold createSession at h
  cases token with
  | none => contradiction
  | some token =>
    dsimp only at h
    split at h
    · next huser =>
      split at h
      · contradiction
      · next sessions hinsert =>
        obtain ⟨rfl, hrest⟩ := Prod.mk.inj (Except.ok.inj h)
        obtain ⟨rfl, rfl⟩ := Prod.mk.inj hrest
        obtain ⟨u, hu, hid⟩ := List.any_eq_true.mp huser
        exact ⟨rfl, rfl, ⟨u, hu, eq_of_beq hid⟩, Table.mem_insert hinsert⟩
    · contradiction

/-- The event ends the session of the row, judged by hashes as the deletion is. -/
private def EndsRow (sess : Session) (token : Bytes) : SessionEvent → Prop
  | .deleted token' => st.hashToken token' = st.hashToken token
  | e => e.Ends sess token

/-- A row for every session that was returned and not ended since, and for nothing else. -/
structure RowsMatch (s : SessionState) : Prop where
  rows : ∀ row, row ∈ s.db.sessions.rows ↔ ∃ token signed sess,
    Since (fun e ↦ ¬ st.EndsRow sess token e) (· = .created token signed sess) s.history ∧
      row = st.rowOf token sess
  signed : ∀ token signed sess, .created token signed sess ∈ s.history →
    signed = st.signToken token
  user : ∀ row ∈ s.db.sessions.rows, ∃ u ∈ s.db.users.rows, u.id = row.userID

namespace RowsMatch

variable {st : Store} {s s' : SessionState}

/-- Before any call there are no rows and no events. -/
theorem init (users : Table UserRow UserRow.clash) : st.RowsMatch (.init users) where
  rows row := by
    constructor
    · intro h
      exact absurd h List.not_mem_nil
    · rintro ⟨token, signed, sess, hs, -⟩
      exact absurd hs not_since_nil
  signed _ _ _ h := absurd h List.not_mem_nil
  user _ h := absurd h List.not_mem_nil

private theorem signed_append (h : st.RowsMatch s) {e : SessionEvent}
    (hne : ∀ token signed sess, e ≠ .created token signed sess) (token signed : Bytes)
    (sess : Session) (hmem : .created token signed sess ∈ s.history ++ [e]) :
    signed = st.signToken token := by
  rcases List.mem_append.mp hmem with hm | hm
  · exact h.signed token signed sess hm
  · exact absurd (List.mem_singleton.mp hm).symm (hne token signed sess)

private theorem delete (h : st.RowsMatch s) {p : SessionRow → Bool} {e : SessionEvent}
    (hne : ∀ token signed sess, e ≠ .created token signed sess)
    (hp : ∀ token sess, p (st.rowOf token sess) = true ↔ st.EndsRow sess token e) :
    st.RowsMatch ⟨{ s.db with sessions := s.db.sessions.delete p }, s.history ++ [e]⟩ where
  rows row := by
    rw [Table.mem_delete, h.rows]
    constructor
    · rintro ⟨⟨token, signed, sess, hs, rfl⟩, hpf⟩
      refine ⟨token, signed, sess, since_append_singleton.mpr (.inr ⟨hs, fun hend ↦ ?_⟩), rfl⟩
      rw [(hp token sess).mpr hend] at hpf
      contradiction
    · rintro ⟨token, signed, sess, hs, rfl⟩
      rcases since_append_singleton.mp hs with hcreated | ⟨hs', hend⟩
      · exact absurd hcreated (hne token signed sess)
      · refine ⟨⟨token, signed, sess, hs', rfl⟩, Bool.eq_false_iff.mpr fun ht ↦ ?_⟩
        exact hend ((hp token sess).mp ht)
  signed := h.signed_append hne
  user row hrow := h.user row ((Table.mem_delete _ _ row).mp hrow).1

private theorem idle (h : st.RowsMatch s) {db : DB} {e : SessionEvent}
    (hne : ∀ token signed sess, e ≠ .created token signed sess)
    (hidle : ∀ token sess, ¬ st.EndsRow sess token e) (hsessions : db.sessions = s.db.sessions)
    (husers : ∀ u ∈ s.db.users.rows, ∃ u' ∈ db.users.rows, u'.id = u.id) :
    st.RowsMatch ⟨db, s.history ++ [e]⟩ where
  rows row := by
    rw [hsessions, h.rows]
    constructor
    · rintro ⟨token, signed, sess, hs, rfl⟩
      exact ⟨token, signed, sess, since_append_singleton.mpr (.inr ⟨hs, hidle token sess⟩), rfl⟩
    · rintro ⟨token, signed, sess, hs, rfl⟩
      rcases since_append_singleton.mp hs with hcreated | ⟨hs', -⟩
      · exact absurd hcreated (hne token signed sess)
      · exact ⟨token, signed, sess, hs', rfl⟩
  signed := h.signed_append hne
  user row hrow := by
    rw [hsessions] at hrow
    obtain ⟨u, hu, hid⟩ := h.user row hrow
    obtain ⟨u', hu', hid'⟩ := husers u hu
    exact ⟨u', hu', hid'.trans hid⟩

private theorem created (h : st.RowsMatch s) {db : DB} {token : Bytes} {sess : Session}
    (husers : db.users = s.db.users) (huser : ∃ u ∈ s.db.users.rows, u.id = sess.userID)
    (hrows : ∀ row, row ∈ db.sessions.rows ↔
      row = st.rowOf token sess ∨ row ∈ s.db.sessions.rows) :
    st.RowsMatch ⟨db, s.history ++ [.created token (st.signToken token) sess]⟩ where
  rows row := by
    rw [hrows, h.rows]
    constructor
    · rintro (rfl | ⟨token', signed', sess', hs, rfl⟩)
      · exact ⟨token, _, sess, since_append_singleton.mpr (.inl rfl), rfl⟩
      · refine ⟨token', signed', sess', since_append_singleton.mpr (.inr ⟨hs, ?_⟩), rfl⟩
        exact not_false
    · rintro ⟨token', signed', sess', hs, rfl⟩
      rcases since_append_singleton.mp hs with hcreated | ⟨hs', -⟩
      · obtain ⟨rfl, -, rfl⟩ := SessionEvent.created.inj hcreated
        exact .inl rfl
      · exact .inr ⟨token', signed', sess', hs', rfl⟩
  signed token' signed' sess' hmem := by
    rcases List.mem_append.mp hmem with hm | hm
    · exact h.signed token' signed' sess' hm
    · obtain ⟨rfl, rfl, -⟩ := SessionEvent.created.inj (List.mem_singleton.mp hm)
      rfl
  user row hrow := by
    rw [husers]
    rcases (hrows row).mp hrow with rfl | hr
    · exact huser
    · exact h.user row hr

/-- Every call keeps the invariant. -/
theorem step (h : st.RowsMatch s) {call : SessionCall} (hs : st.step s call = some s') :
    st.RowsMatch s' := by
  obtain ⟨⟨db, e⟩, hanswer, rfl⟩ := Option.map_eq_some_iff.mp hs
  cases call with
  | createSession userID ip userAgent token id now now' =>
    simp only [answer] at hanswer
    split at hanswer
    · obtain ⟨rfl, rfl⟩ := Prod.mk.inj (Option.some.inj hanswer)
      exact h.idle (fun _ _ _ ↦ SessionEvent.noConfusion) (fun _ _ ↦ not_false) rfl
        (fun u hu ↦ ⟨u, hu, rfl⟩)
    · next db' signed sess hcreate =>
      obtain ⟨rfl, rfl⟩ := Prod.mk.inj (Option.some.inj hanswer)
      obtain ⟨rfl, husers, huser, hrows⟩ := st.createSession_eq_ok hcreate
      exact h.created husers huser hrows
  | revokeSession userID sessionID =>
    obtain ⟨rfl, rfl⟩ := Prod.mk.inj (Option.some.inj hanswer)
    refine h.delete (fun _ _ _ ↦ SessionEvent.noConfusion) (fun token sess ↦ ?_)
    rw [Bool.and_eq_true, beq_iff_eq, beq_iff_eq, and_comm]
    exact and_congr eq_comm eq_comm
  | revokeOtherSessions userID keepID =>
    obtain ⟨rfl, rfl⟩ := Prod.mk.inj (Option.some.inj hanswer)
    refine h.delete (fun _ _ _ ↦ SessionEvent.noConfusion) (fun token sess ↦ ?_)
    rw [Bool.and_eq_true, beq_iff_eq, bne_iff_ne]
    exact and_congr eq_comm ne_comm
  | deleteSessionByToken token' =>
    obtain ⟨rfl, rfl⟩ := Prod.mk.inj (Option.some.inj hanswer)
    refine h.delete (fun _ _ _ ↦ SessionEvent.noConfusion) (fun token sess ↦ ?_)
    rw [beq_iff_eq]
    exact eq_comm
  | writeUsers users =>
    simp only [answer] at hanswer
    split at hanswer
    · next hkeep =>
      obtain ⟨rfl, rfl⟩ := Prod.mk.inj (Option.some.inj hanswer)
      refine h.idle (fun _ _ _ ↦ SessionEvent.noConfusion) (fun _ _ ↦ not_false) rfl
        (fun u hu ↦ ?_)
      obtain ⟨u', hu', hid⟩ := List.any_eq_true.mp (List.all_eq_true.mp hkeep u hu)
      exact ⟨u', hu', eq_of_beq hid⟩
    · contradiction

private theorem run {users : Table UserRow UserRow.clash} {calls : List SessionCall}
    (hrun : runSteps st.step (.init users) calls = some s) : st.RowsMatch s :=
  runSteps_invariant (fun _ _ _ h hs ↦ h.step hs) (init users) hrun

private theorem row_iff_live (h : st.RowsMatch s) {token : Bytes}
    (hinj : Set.InjOn st.hashToken (usedTokens s.history (st.signToken token)))
    (row : SessionRow) :
    row ∈ s.db.sessions.rows ∧ row.tokenHash = st.hashToken token ↔
      ∃ sess, Live s.history token (st.signToken token) sess ∧ row = st.rowOf token sess := by
  have hused : token ∈ usedTokens s.history (st.signToken token) :=
    .inr (.inr (st.unsafeParseToken_signToken token))
  rw [h.rows]
  constructor
  · rintro ⟨⟨token', signed, sess, hs, rfl⟩, hhash⟩
    obtain ⟨_, hmem, rfl⟩ := hs.exists_mem
    obtain rfl : token' = token := hinj (.inl ⟨signed, sess, hmem⟩) hused hhash
    obtain rfl := h.signed token' signed sess hmem
    refine ⟨sess, hs.imp (fun _ _ he ↦ he) (fun e _ hrow hend ↦ hrow ?_), rfl⟩
    cases e with
    | deleted token'' => exact congrArg st.hashToken hend
    | _ => exact hend
  · rintro ⟨sess, hs, rfl⟩
    refine ⟨⟨token, _, sess, hs.imp (fun _ _ he ↦ he) (fun e he hlive hend ↦ hlive ?_), rfl⟩, rfl⟩
    cases e with
    | deleted token'' => exact hinj (.inr (.inl he)) hused hend
    | _ => exact hend

/-- A lookup succeeds exactly for a live session that has not expired, and answers with that
session and the current row of its user. -/
theorem lookup_iff (h : st.RowsMatch s) {c : Bytes}
    (hinj : Set.InjOn st.hashToken (usedTokens s.history c)) (now : Int) (sess : Session)
    (user : User) :
    st.sessionUserFromCookie s.db c now = .ok (sess, user) ↔
      ∃ token, Live s.history token c sess ∧ unixMilli now ≤ sess.expiresAt ∧
        ∃ u ∈ s.db.users.rows, u.id = sess.userID ∧ user = userOfRow u := by
  rw [sessionUserFromCookie_eq_ok]
  constructor
  · rintro ⟨token, row, u, rfl, hr, hu, hid, hh, hexp, rfl, rfl⟩
    obtain ⟨sess, hlive, rfl⟩ := (h.row_iff_live hinj row).mp ⟨hr, hh⟩
    exact ⟨token, hlive, hexp, u, hu, hid, rfl⟩
  · rintro ⟨token, hlive, hexp, u, hu, hid, rfl⟩
    obtain ⟨_, hmem, rfl⟩ := hlive.exists_mem
    obtain rfl := h.signed token c sess hmem
    obtain ⟨hr, hh⟩ := (h.row_iff_live hinj (st.rowOf token sess)).mpr ⟨sess, hlive, rfl⟩
    exact ⟨token, st.rowOf token sess, u, rfl, hr, hu, hid, hh, hexp, rfl, rfl⟩

private theorem user_of_live (h : st.RowsMatch s) {c token : Bytes}
    (hinj : Set.InjOn st.hashToken (usedTokens s.history c)) {sess : Session}
    (hlive : Live s.history token c sess) : ∃ u ∈ s.db.users.rows, u.id = sess.userID := by
  obtain ⟨_, hmem, rfl⟩ := hlive.exists_mem
  obtain rfl := h.signed token c sess hmem
  exact h.user _ ((h.row_iff_live hinj (st.rowOf token sess)).mpr ⟨sess, hlive, rfl⟩).1

end RowsMatch

private theorem step_byAnother {s s' : SessionState} {userID : String} {token : Bytes}
    {call : SessionCall} (hother : call.ByAnother userID token) (hs : st.step s call = some s') :
    s'.db.users = s.db.users ∧ ∃ e, s'.history = s.history ++ [e] ∧
      ∀ sess, sess.userID = userID → ¬ e.Ends sess token := by
  obtain ⟨⟨db, e⟩, hanswer, rfl⟩ := Option.map_eq_some_iff.mp hs
  refine ⟨?_, e, rfl, ?_⟩
  · cases call with
    | createSession userID' ip userAgent token' id now now' =>
      simp only [answer] at hanswer
      split at hanswer
      · exact congrArg DB.users (Prod.mk.inj (Option.some.inj hanswer)).1.symm
      · next db' signed sess hcreate =>
        obtain ⟨rfl, -⟩ := Prod.mk.inj (Option.some.inj hanswer)
        exact (st.createSession_eq_ok hcreate).2.1
    | writeUsers users => exact hother.elim
    | _ =>
      obtain ⟨rfl, -⟩ := Prod.mk.inj (Option.some.inj hanswer)
      rfl
  · rintro sess rfl hend
    cases call with
    | createSession userID' ip userAgent token' id now now' =>
      simp only [answer] at hanswer
      split at hanswer
      · obtain ⟨-, rfl⟩ := Prod.mk.inj (Option.some.inj hanswer)
        exact hend
      · obtain ⟨-, rfl⟩ := Prod.mk.inj (Option.some.inj hanswer)
        exact hend
    | revokeSession userID' sessionID =>
      obtain ⟨-, rfl⟩ := Prod.mk.inj (Option.some.inj hanswer)
      exact hother hend.1
    | revokeOtherSessions userID' keepID =>
      obtain ⟨-, rfl⟩ := Prod.mk.inj (Option.some.inj hanswer)
      exact hother hend.1
    | deleteSessionByToken token' =>
      obtain ⟨-, rfl⟩ := Prod.mk.inj (Option.some.inj hanswer)
      exact hother hend
    | writeUsers users => exact hother.elim

private theorem run_byAnother {s s' : SessionState} {userID : String} {token : Bytes}
    {calls : List SessionCall} (hother : ∀ call ∈ calls, call.ByAnother userID token)
    (hrun : runSteps st.step s calls = some s') :
    s'.db.users = s.db.users ∧ ∃ ext, s'.history = s.history ++ ext ∧
      ∀ e ∈ ext, ∀ sess, sess.userID = userID → ¬ e.Ends sess token := by
  refine runSteps_invariant_of_meets
    (P := fun _ call ↦ call.ByAnother userID token)
    (I := fun t ↦ t.db.users = s.db.users ∧ ∃ ext, t.history = s.history ++ ext ∧
      ∀ e ∈ ext, ∀ sess, sess.userID = userID → ¬ e.Ends sess token)
    ?_ ⟨rfl, [], (List.append_nil _).symm, fun _ he ↦ nomatch he⟩
    (RunMeets.of_forall (fun call hcall _ ↦ hother call hcall) s) hrun
  rintro t call t' ⟨husers, ext, hext, hends⟩ hcall hstep
  obtain ⟨husers', e, he, hend⟩ := st.step_byAnother hcall hstep
  refine ⟨husers'.trans husers, ext ++ [e], by rw [he, hext, List.append_assoc], ?_⟩
  intro e' he'
  rcases List.mem_append.mp he' with h | h
  · exact hends e' h
  · rw [List.mem_singleton.mp h]
    exact hend

end Store

private theorem FreshTokens.notMem_later {h ext : List SessionEvent}
    (hfresh : FreshTokens (h ++ ext)) {token signed : Bytes} {sess : Session}
    (hmem : .created token signed sess ∈ h) (signed' : Bytes) (sess' : Session) :
    .created token signed' sess' ∉ ext := by
  intro hmem'
  rw [FreshTokens, List.filterMap_append, List.nodup_append] at hfresh
  exact hfresh.2.2 token (List.mem_filterMap.mpr ⟨_, hmem, rfl⟩) token
    (List.mem_filterMap.mpr ⟨_, hmem', rfl⟩) rfl

private theorem FreshTokens.session_eq {h : List SessionEvent} (hfresh : FreshTokens h)
    {token signed signed' : Bytes} {sess sess' : Session}
    (hmem : .created token signed sess ∈ h) (hmem' : .created token signed' sess' ∈ h) :
    sess' = sess := by
  induction h with
  | nil => exact absurd hmem List.not_mem_nil
  | cons e h ih =>
    rcases List.mem_cons.mp hmem with rfl | hm
    · rcases List.mem_cons.mp hmem' with heq | hm'
      · exact (SessionEvent.created.inj heq).2.2
      · exact absurd hm' (FreshTokens.notMem_later (h := [_]) hfresh List.mem_cons_self _ _)
    · rcases List.mem_cons.mp hmem' with rfl | hm'
      · exact absurd hm (FreshTokens.notMem_later (h := [_]) hfresh List.mem_cons_self _ _)
      · refine ih ?_ hm hm'
        rw [FreshTokens, ← List.singleton_append, List.filterMap_append] at hfresh
        exact (List.nodup_append.mp hfresh).2.1

private theorem live_append_iff {h ext : List SessionEvent} {token c : Bytes} {sess : Session}
    (hmem : .created token c sess ∈ h) (hfresh : FreshTokens (h ++ ext))
    (hends : ∀ e ∈ ext, ∀ sess', sess'.userID = sess.userID → ¬ e.Ends sess' token)
    (sess' : Session) : Live (h ++ ext) token c sess' ↔ Live h token c sess' := by
  by_cases hsess : sess' = sess
  · subst hsess
    refine since_append (fun e he ↦ ⟨hends e he sess' rfl, ?_⟩)
    rintro rfl
    exact hfresh.notMem_later hmem c sess' he
  · have hnot (h' : List SessionEvent) (hsub : ∀ e ∈ h', e ∈ h ++ ext) :
        ¬ Live h' token c sess' := by
      intro hlive
      obtain ⟨_, hmem', rfl⟩ := hlive.exists_mem
      exact hsess (hfresh.session_eq (List.mem_append_left _ hmem) (hsub _ hmem'))
    exact iff_of_false (hnot _ fun _ he ↦ he) (hnot _ fun _ he ↦ List.mem_append_left _ he)

private theorem lookup_congr {st : Store} {db db' : DB} {c : Bytes} {now : Int}
    (h : ∀ sess user, st.sessionUserFromCookie db c now = .ok (sess, user) ↔
      st.sessionUserFromCookie db' c now = .ok (sess, user)) :
    st.sessionUserFromCookie db c now = st.sessionUserFromCookie db' c now := by
  cases hr : st.sessionUserFromCookie db c now with
  | ok r => exact ((h r.1 r.2).mp hr).symm
  | error e =>
    cases hr' : st.sessionUserFromCookie db' c now with
    | ok r =>
      rw [(h r.1 r.2).mpr hr'] at hr
      contradiction
    | error e' =>
      rw [st.sessionUserFromCookie_eq_error hr, st.sessionUserFromCookie_eq_error hr']

/-- After any run, a cookie is accepted exactly while the session that it was issued for is
live and unexpired; the answer is that session and its user; and no run of other users'
calls changes it. -/
theorem sessionUserFromCookie_iff_live (st : Store) (users : Table UserRow UserRow.clash)
    (calls : List SessionCall) (s : SessionState)
    (hrun : runSteps st.step (.init users) calls = some s) (c : Bytes)
    (hinj : Set.InjOn st.hashToken (usedTokens s.history c)) (now : Int) :
    ((∃ r, st.sessionUserFromCookie s.db c now = .ok r) ↔
      ∃ token sess, Live s.history token c sess ∧ unixMilli now ≤ sess.expiresAt) ∧
    (∀ token sess, Live s.history token c sess → unixMilli now ≤ sess.expiresAt →
      ∃ user, st.sessionUserFromCookie s.db c now = .ok (sess, user) ∧ user.id = sess.userID) ∧
    (∀ token sess, .created token c sess ∈ s.history → ∀ calls' s',
      (∀ call ∈ calls', call.ByAnother sess.userID token) →
      runSteps st.step s calls' = some s' → FreshTokens s'.history →
      Set.InjOn st.hashToken (usedTokens s'.history c) →
      st.sessionUserFromCookie s'.db c now = st.sessionUserFromCookie s.db c now) := by
  have h : st.RowsMatch s := .run hrun
  have hanswer (token : Bytes) (sess : Session) (hlive : Live s.history token c sess)
      (hexp : unixMilli now ≤ sess.expiresAt) : ∃ user,
      st.sessionUserFromCookie s.db c now = .ok (sess, user) ∧ user.id = sess.userID := by
    obtain ⟨u, hu, hid⟩ := h.user_of_live hinj hlive
    exact ⟨Store.userOfRow u, (h.lookup_iff hinj now sess _).mpr
      ⟨token, hlive, hexp, u, hu, hid, rfl⟩, hid⟩
  refine ⟨⟨?_, ?_⟩, hanswer, ?_⟩
  · rintro ⟨⟨sess, user⟩, hr⟩
    obtain ⟨token, hlive, hexp, -⟩ := (h.lookup_iff hinj now sess user).mp hr
    exact ⟨token, sess, hlive, hexp⟩
  · rintro ⟨token, sess, hlive, hexp⟩
    obtain ⟨user, hr, -⟩ := hanswer token sess hlive hexp
    exact ⟨(sess, user), hr⟩
  · intro token sess hmem calls' s' hother hrun' hfresh hinj'
    have h' : st.RowsMatch s' := .run (runSteps_append hrun hrun')
    obtain ⟨husers, ext, hext, hends⟩ := st.run_byAnother hother hrun'
    rw [hext] at hfresh
    have hsigned := h.signed token c sess hmem
    have htoken {token' : Bytes} {sess' : Session} (hlive : Live s'.history token' c sess') :
        token' = token := by
      obtain ⟨_, hmem', rfl⟩ := hlive.exists_mem
      exact st.signToken_injective ((h'.signed token' c sess' hmem').symm.trans hsigned)
    apply lookup_congr
    intro sess' user
    rw [h'.lookup_iff hinj', h.lookup_iff hinj, husers]
    constructor
    · rintro ⟨token', hlive, hrest⟩
      obtain rfl := htoken hlive
      rw [hext] at hlive
      exact ⟨token', (live_append_iff hmem hfresh hends sess').mp hlive, hrest⟩
    · rintro ⟨token', hlive, hrest⟩
      obtain ⟨_, hmem', rfl⟩ := hlive.exists_mem
      obtain rfl := st.signToken_injective ((h.signed token' c sess' hmem').symm.trans hsigned)
      refine ⟨token', ?_, hrest⟩
      rw [hext]
      exact (live_append_iff hmem hfresh hends sess').mpr hlive

/-- A generated token. -/
def demoToken : Bytes :=
  [97, 98, 99, 100, 101, 102, 103, 104, 105, 106, 107, 108, 109, 110, 111, 112, 113, 114, 115,
    116, 117, 118, 119, 120, 121, 122, 65, 66, 67, 68, 69, 70]

/-- Tokens with their HMAC-SHA256 under the key `secret` and their SHA-256. -/
def demoDigests : List (Bytes × Bytes × Bytes) :=
  [(demoToken,
      [94, 42, 113, 228, 3, 126, 238, 81, 140, 200, 1, 64, 46, 228, 89, 255, 149, 169, 43, 53,
       36, 75, 204, 45, 62, 67, 167, 40, 184, 213, 135, 175],
      [207, 210, 241, 250, 215, 90, 25, 120, 218, 10, 68, 72, 131, 219, 114, 81, 65, 75, 19, 159,
       49, 245, 160, 71, 4, 194, 145, 253, 176, 225, 117, 230]),
    ([107],
      [227, 149, 177, 69, 143, 28, 234, 9, 142, 2, 216, 68, 35, 199, 52, 200, 108, 125, 28, 233,
       83, 204, 245, 225, 241, 124, 72, 61, 241, 154, 113, 59],
      [130, 84, 195, 41, 169, 40, 80, 246, 213, 57, 221, 55, 111, 72, 22, 238, 39, 100, 81, 125,
       165, 224, 35, 85, 20, 175, 67, 49, 100, 72, 13, 122]),
    ([1],
      [83, 200, 136, 48, 26, 148, 21, 32, 250, 195, 148, 202, 241, 176, 253, 12, 230, 97, 208,
       51, 85, 74, 166, 17, 82, 27, 212, 175, 197, 42, 154, 44],
      [75, 245, 18, 47, 52, 69, 84, 197, 59, 222, 46, 187, 140, 210, 183, 227, 209, 96, 10, 214,
       49, 195, 133, 165, 215, 204, 226, 60, 119, 133, 69, 154]),
    ([2],
      [65, 220, 220, 157, 201, 215, 224, 49, 118, 240, 237, 94, 177, 255, 145, 184, 38, 235, 120,
       90, 239, 228, 68, 68, 43, 108, 13, 91, 221, 129, 80, 128],
      [219, 193, 180, 201, 0, 255, 228, 141, 87, 91, 93, 165, 198, 56, 4, 1, 37, 246, 93, 176,
       254, 62, 36, 73, 75, 118, 234, 152, 100, 87, 217, 134]),
    ([5],
      [77, 166, 232, 74, 54, 139, 213, 138, 149, 230, 14, 37, 94, 86, 9, 179, 4, 152, 152, 192,
       219, 110, 137, 186, 247, 210, 48, 230, 179, 213, 91, 243],
      [231, 123, 154, 154, 233, 227, 11, 13, 189, 182, 245, 16, 162, 100, 239, 157, 231, 129, 80,
       29, 123, 107, 146, 174, 137, 235, 5, 156, 90, 183, 67, 219]),
    ([9],
      [16, 120, 188, 133, 14, 198, 121, 44, 122, 202, 209, 216, 255, 75, 131, 199, 70, 79, 7, 82,
       141, 123, 234, 63, 53, 53, 79, 108, 139, 104, 106, 235],
      [43, 76, 52, 47, 84, 51, 235, 229, 145, 161, 218, 119, 224, 19, 209, 183, 36, 117, 86, 45,
       72, 87, 141, 202, 139, 132, 186, 198, 101, 28, 60, 185])]

/-- A store with the secret `secret`, on these tokens. -/
def demoStore : Store where
  mac token := ((demoDigests.find? (·.1 = token)).map (·.2.1)).getD []
  sha256 token := ((demoDigests.find? (·.1 = token)).map (·.2.2)).getD []
  sessionTTL := SessionTTL

/-- The one user of a fresh installation. -/
def demoUsers : Table UserRow UserRow.clash where
  rows := [⟨"u1", "Admin", "admin@example.com", true, some "admin", "", "admin", 0, 0⟩]
  unique := List.pairwise_singleton _ _

/-- A sign-in, then the revocation of every other session of the user. -/
def demoCalls : List SessionCall :=
  [.createSession "u1" "10.0.0.1" "browser" (some demoToken) "s1" (unixToInternal * second)
      (unixToInternal * second),
    .revokeOtherSessions "u1" "s1"]

/-- The session of `demoCalls`. -/
def demoSession : Session :=
  ⟨"s1", "u1", 604800000, "10.0.0.1", "browser", none, 0⟩

/-- The session that was kept is accepted until it expires, a week later. -/
theorem sessionUserFromCookie_iff_live_demo :
    ∃ s, runSteps demoStore.step (.init demoUsers) demoCalls = some s ∧
      ∃ user, demoStore.sessionUserFromCookie s.db (demoStore.signToken demoToken)
        (unixToInternal * second + SessionTTL) = .ok (demoSession, user) ∧ user.id = "u1" := by
  have hhistory : (runSteps demoStore.step (.init demoUsers) demoCalls).map (·.history) =
      some [.created demoToken (demoStore.signToken demoToken) demoSession,
        .revokedOthers "u1" "s1"] := by decide +kernel
  obtain ⟨s, hs, hh⟩ := Option.map_eq_some_iff.mp hhistory
  have hused (token : Bytes)
      (h : token ∈ usedTokens s.history (demoStore.signToken demoToken)) : token = demoToken := by
    rcases h with ⟨signed, sess, h⟩ | h | h
    · rw [hh] at h
      simp only [List.mem_cons, SessionEvent.created.injEq, List.not_mem_nil, or_false,
        reduceCtorEq] at h
      exact h.1
    · rw [hh] at h
      simp only [List.mem_cons, List.not_mem_nil, or_false, reduceCtorEq] at h
    · rw [demoStore.unsafeParseToken_signToken] at h
      exact (Except.ok.inj h).symm
  have hinj : Set.InjOn demoStore.hashToken
      (usedTokens s.history (demoStore.signToken demoToken)) := by
    intro token ht token' ht' _
    rw [hused token ht, hused token' ht']
  refine ⟨s, hs, (sessionUserFromCookie_iff_live demoStore demoUsers demoCalls s hs
    (demoStore.signToken demoToken) hinj (unixToInternal * second + SessionTTL)).2.1 demoToken
    demoSession ?_ (by decide +kernel)⟩
  rw [hh]
  refine ⟨[], _, _, rfl, rfl, fun e he ↦ ?_⟩
  obtain rfl := List.mem_singleton.mp he
  exact fun h ↦ h.2 rfl

end Dockstack.Auth
