import Dockstack.Server.GateRuns

/-!
# What the gates charge

`HumaRequireAuth` charges a key for every request that it lets in on it; `handleWSAuth` verifies
the key and charges nothing.
-/

namespace Dockstack.Server

open Dockstack.Base
open Dockstack.Auth

variable {st : Store}

/-- The admitted `RateLimit` calls for a key. -/
def AuthState.charges (s : AuthState) (id : String) : Nat :=
  s.limits.countP fun e ↦ e.2 && e.1.keyID == id

/-- A request that runs a handler on a key charges the key, in an admitted `RateLimit` call. -/
def Metered (st : Store) (s : AuthState) : AuthCall → Prop
  | .request c => ∀ user key, (c.run st s.tables).result = .key user key →
      ∃ call, (call, true) ∈ (c.run st s.tables).limits ∧ call.keyID = key.id ∧
        rateLimit s.keys call.keyID call.max call.windowMs call.now =
          (true, (c.run st s.tables).keys)
  | _ => True

/-- A WebSocket request is let in on its token: no session in its cookie, and a key of a user
in its query. -/
def LetInByToken (st : Store) (s : AuthState) : AuthCall → Prop
  | .request c => c.gate = .handleWSAuth ∧
      (∀ cookie ∈ c.request.cookie, cookieSession st s.tables c.fails cookie c.now = none) ∧
      c.request.token ≠ [] ∧ ∃ key user,
        st.verifyKey s.keys (c.fails .getAPIKeyByHash) c.request.token c.now' = .ok key ∧
        getUserByID s.tables c.fails key.userID = some user
  | _ => False

/-- A call is metered exactly when it lets no WebSocket in by its token. -/
theorem metered_iff (st : Store) (s : AuthState) (call : AuthCall) :
    Metered st s call ↔ ¬ LetInByToken st s call := by
  cases call with
  | request c =>
    obtain ⟨gate, r, fails, now, now'⟩ := c
    cases gate with
    | humaRequireAuth =>
      refine iff_of_true (fun user key h ↦ ?_) fun h ↦ by cases h.1
      obtain ⟨-, -, hlimits, hkeys⟩ :=
        (humaRequireAuth_result st _ fails r now now').2 user key h
      exact ⟨⟨now', key.id, key.RateLimitMax, key.RateLimitWindow⟩,
        hlimits ▸ List.mem_singleton_self _, rfl, hkeys⟩
    | requireSession =>
      refine iff_of_true (fun user key h ↦ ?_) fun h ↦ by cases h.1
      exact absurd h ((requireSession_result st _ fails r now).2 user key)
    | handleWSAuth =>
      obtain ⟨-, hkey, hlimits⟩ := handleWSAuth_result st s.tables fails r now now'
      constructor
      · rintro h ⟨-, hcookie, hne, key, user, hverify, huser⟩
        have hresult := (hkey user key).mpr ⟨hcookie, wsTokenAuth_eq_key.mpr ⟨hne, hverify, huser⟩⟩
        obtain ⟨call, hmem, -⟩ := h user key hresult
        rw [GateCall.run, hlimits] at hmem
        exact List.not_mem_nil hmem
      · intro h user key hresult
        obtain ⟨hcookie, hws⟩ := (hkey user key).mp hresult
        obtain ⟨hne, hverify, huser⟩ := wsTokenAuth_eq_key.mp hws
        exact absurd ⟨rfl, hcookie, hne, key, user, hverify, huser⟩ h
  | _ => exact iff_of_true trivial not_false

/-- A metered call runs no more handlers on a key than it charges the key. -/
theorem handled_le_charges_step {s s' : AuthState} {call : AuthCall} (hm : Metered st s call)
    (hstep : authStep st s call = some s') {id : String} (h : s.handled.count id ≤ s.charges id) :
    s'.handled.count id ≤ s'.charges id := by
  cases call with
  | session call =>
    obtain ⟨sessions, -, rfl⟩ := Option.map_eq_some_iff.mp hstep
    exact h
  | createAPIKey userID name rawKey expiresAt id' now =>
    simp only [authStep] at hstep
    split at hstep <;> exact Option.some.inj hstep ▸ h
  | deleteAPIKey userID id' => exact Option.some.inj hstep ▸ h
  | request c =>
    obtain rfl := Option.some.inj hstep
    have hone : (c.run st s.tables).result.handledKey.count id ≤
        (c.run st s.tables).limits.countP fun e ↦ e.2 && e.1.keyID == id := by
      cases hresult : (c.run st s.tables).result with
      | key user key =>
        obtain ⟨call, hmem, hid, -⟩ := hm user key hresult
        by_cases heq : key.id = id
        · have hpos := List.countP_pos_iff.mpr
            (⟨_, hmem, by simp [hid, heq]⟩ : ∃ e ∈ (c.run st s.tables).limits,
              (e.2 && e.1.keyID == id) = true)
          simpa [GateResult.handledKey, heq] using hpos
        · simp [GateResult.handledKey, heq]
      | _ => exact Nat.zero_le _
    rw [AuthState.charges, List.count_append, List.countP_append]
    exact Nat.add_le_add h hone

/-- In a run every handler that runs on a key is charged for exactly when no WebSocket is let in
by its token; then the handlers that ran on a key are no more than its admitted charges. -/
theorem runMeets_metered_iff (st : Store) (sessions : SessionState) (keys : ApiKeyTable)
    (history : List KeyEvent) (calls : List AuthCall) (t : AuthState)
    (hrun : runSteps (authStep st) ⟨sessions, keys, history, [], []⟩ calls = some t) :
    (RunMeets (authStep st) (Metered st) ⟨sessions, keys, history, [], []⟩ calls ↔
      RunMeets (authStep st) (fun s call ↦ ¬ LetInByToken st s call)
        ⟨sessions, keys, history, [], []⟩ calls) ∧
    (RunMeets (authStep st) (fun s call ↦ ¬ LetInByToken st s call)
        ⟨sessions, keys, history, [], []⟩ calls →
      ∀ id, t.handled.count id ≤ t.charges id) := by
  have hiff : RunMeets (authStep st) (Metered st) ⟨sessions, keys, history, [], []⟩ calls ↔
      RunMeets (authStep st) (fun s call ↦ ¬ LetInByToken st s call)
        ⟨sessions, keys, history, [], []⟩ calls :=
    RunMeets.congr (I := fun _ ↦ True)
      (fun call _ s _ _ _ ↦ ⟨metered_iff st s call, fun _ ↦ trivial⟩) trivial hrun
  refine ⟨hiff, fun h id ↦ ?_⟩
  exact runSteps_invariant_of_meets (I := fun s ↦ s.handled.count id ≤ s.charges id)
    (fun _ _ _ hs hm hstep ↦ handled_le_charges_step hm hstep hs) (Nat.le_refl 0) (hiff.mpr h)
    hrun

/-- The calls of `demoAuthCalls`, then a request with the new key at the gate. -/
def demoKeyRequests (gate : Gate) : List AuthCall :=
  demoAuthCalls ++ [.request ⟨gate, ⟨"Bearer k".toList, none, [107]⟩, fun _ ↦ none, 0, 0⟩]

/-- The handler that runs on the new key is charged for. -/
theorem runMeets_metered_iff_demo : ∃ t,
    runSteps (authStep demoStore) (.init demoUsers) (demoKeyRequests .humaRequireAuth) = some t ∧
      t.handled = ["k1"] ∧ ∀ id, t.handled.count id ≤ t.charges id := by
  obtain ⟨t, ht, hhandled⟩ := Option.map_eq_some_iff.mp (by decide +kernel :
    (runSteps (authStep demoStore) (.init demoUsers)
      (demoKeyRequests .humaRequireAuth)).map (·.handled) = some ["k1"])
  refine ⟨t, ht, hhandled, (runMeets_metered_iff demoStore (.init demoUsers) Table.empty []
    (demoKeyRequests .humaRequireAuth) t ht).2 (RunMeets.of_forall (fun call hcall s ↦ ?_) _)⟩
  rcases List.mem_append.mp hcall with hcall | hcall
  · rcases List.mem_cons.mp hcall with rfl | hcall
    · exact not_false
    · obtain rfl := List.mem_singleton.mp hcall
      exact not_false
  · obtain rfl := List.mem_singleton.mp hcall
    rintro ⟨hgate, -⟩
    contradiction

/-- A WebSocket handler runs on the new key, which is not charged. -/
theorem handled_unmetered :
    ¬ RunMeets (authStep demoStore) (Metered demoStore) (.init demoUsers)
        (demoKeyRequests .handleWSAuth) ∧
      (runSteps (authStep demoStore) (.init demoUsers) (demoKeyRequests .handleWSAuth)).map
        (fun t ↦ (t.handled.count "k1", t.charges "k1")) = some (1, 0) := by
  refine ⟨fun h ↦ ?_, by decide +kernel⟩
  have hlast : ((runSteps (authStep demoStore) (.init demoUsers) demoAuthCalls).map fun s ↦
      let run := GateCall.run demoStore s.tables
        ⟨.handleWSAuth, ⟨"Bearer k".toList, none, [107]⟩, fun _ ↦ none, 0, 0⟩
      (run.result.handledKey, run.limits)) = some (["k1"], []) := by decide +kernel
  obtain ⟨s, hs, heq⟩ := Option.map_eq_some_iff.mp hlast
  obtain ⟨hhandled, hlimits⟩ := Prod.mk.inj heq
  cases hresult : (GateCall.run demoStore s.tables
      ⟨.handleWSAuth, ⟨"Bearer k".toList, none, [107]⟩, fun _ ↦ none, 0, 0⟩).result with
  | key user key =>
    obtain ⟨call, hmem, -⟩ := h.at_step hs user key hresult
    rw [hlimits] at hmem
    exact List.not_mem_nil hmem
  | session user sess =>
    rw [hresult] at hhandled
    contradiction
  | error status msg =>
    rw [hresult] at hhandled
    contradiction

end Dockstack.Server
