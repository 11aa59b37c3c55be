import Dockstack.Server.SignIn

/-!
# How many wrong passwords a lockout window admits

With the requests for one identifier handled one at a time, fewer than
`signInIdentifierMaxFailures` recorded failures are in the window when a check passes,
so at most that many verifications fail in a window without a success. Overlapping
requests pass the check together, before any of them has recorded its failure.
-/

namespace Dockstack.Server

open Dockstack.Base
open Dockstack.Base.WindowLog

/-- What the identifier's limiter still has to hear from a request. -/
inductive SignInStage where
  | outside
  | checked
  | owes
  | clearing
  deriving DecidableEq

/-- A request is `outside` before its identifier check and after its last limiter call. -/
def SignInPhase.stage : SignInPhase → SignInStage
  | .start | .ipChecked | .cleared _ | .done _ => .outside
  | .idChecked | .looked _ => .checked
  | .failed | .failedIP => .owes
  | .verified _ | .clearedIP _ => .clearing

/-- The stage of a request. -/
def SignInState.stage (s : SignInState) (i : Nat) : SignInStage := (s.phase i).stage

/-- Everything action `a` of request `i` can do to the identifier's limiter, to the
verification log and to the request's stage. -/
inductive SignInEffect (env : SignInEnv) (s : SignInState) (i : Nat) (a : SignInAction)
    (s' : SignInState) : Prop where
  | quiet (id : s'.id = s.id) (log : s'.log = s.log)
      (stage : s'.stage i = s.stage i ∨ (s.stage i = .checked ∧ s'.stage i = .outside))
  | letIn (action : a = .checkID) (id : s'.id = s.id) (log : s'.log = s.log)
      (stage : s'.stage i = .checked) (free : s.id.blocked (env.idKey i) s.clock ≤ 0)
  | wrong (id : s'.id = s.id) (log : s'.log = ⟨env.idKey i, s.clock, false⟩ :: s.log)
      (before : s.stage i = .checked) (stage : s'.stage i = .owes)
  | right (id : s'.id = s.id) (log : s'.log = ⟨env.idKey i, s.clock, true⟩ :: s.log)
      (before : s.stage i = .checked) (stage : s'.stage i = .clearing)
  | fail (id : s'.id = (s.id.fail (env.idKey i) s.clock).2) (log : s'.log = s.log)
      (before : s.stage i = .owes) (stage : s'.stage i = .outside)
  | reset (id : s'.id = s.id.reset (env.idKey i)) (log : s'.log = s.log)
      (before : s.stage i = .clearing) (stage : s'.stage i = .outside)

private theorem stage_of_phase {s : SignInState} {i : Nat} {p : SignInPhase}
    (h : s.phase i = p) : s.stage i = p.stage := by
  rw [SignInState.stage, h]

private theorem stage_setPhase (s : SignInState) (i : Nat) (p : SignInPhase) :
    (s.setPhase i p).stage i = p.stage := by
  simp [SignInState.stage, SignInState.setPhase]

private theorem stage_setPhase_of_ne (s : SignInState) {i j : Nat} (p : SignInPhase)
    (h : j ≠ i) : (s.setPhase i p).stage j = s.stage j := by
  simp [SignInState.stage, SignInState.setPhase, Function.update_of_ne h]

/-- An action has one of the listed effects, at the state's clock, and moves no other request. -/
theorem act_effect {env : SignInEnv} {s s' : SignInState} {i : Nat} {a : SignInAction}
    (h : s.act env i a = some s') :
    s'.clock = s.clock ∧ (∀ j, j ≠ i → s'.stage j = s.stage j) ∧
      SignInEffect env s i a s' := by
  have quietStep {p : SignInPhase} (he : some (s.setPhase i p) = some s')
      (hs : p.stage = s.stage i ∨ (s.stage i = .checked ∧ p.stage = .outside)) :
      s'.clock = s.clock ∧ (∀ j, j ≠ i → s'.stage j = s.stage j) ∧
        SignInEffect env s i a s' := by
    obtain rfl := Option.some.inj he
    rw [← stage_setPhase s i p] at hs
    exact ⟨rfl, fun j hj ↦ stage_setPhase_of_ne s p hj, .quiet rfl rfl hs⟩
  unfold SignInState.act at h
  split at h
  · next hp => -- missing fields
    split at h
    · exact quietStep h (.inl (stage_of_phase hp).symm)
    · contradiction
  · next hp => -- the check of the IP key
    split at h
    · contradiction
    · dsimp only at h
      split at h
      · exact quietStep h (.inl (stage_of_phase hp).symm)
      · exact quietStep h (.inl (stage_of_phase hp).symm)
  · next hp => -- the check of the identifier key
    dsimp only at h
    split at h
    · exact quietStep h (.inl (stage_of_phase hp).symm)
    · next hb =>
      obtain rfl := Option.some.inj h
      exact ⟨rfl, fun j hj ↦ stage_setPhase_of_ne s _ hj,
        .letIn rfl rfl rfl (stage_setPhase s i _) (Int.not_lt.mp hb)⟩
  · next hp => exact quietStep h (.inr ⟨stage_of_phase hp, rfl⟩)
  · next hp => exact quietStep h (.inl (stage_of_phase hp).symm)
  · next hp => -- a dummy verification
    obtain rfl := Option.some.inj h
    exact ⟨rfl, fun j hj ↦ stage_setPhase_of_ne s _ hj,
      .wrong rfl rfl (stage_of_phase hp) (stage_setPhase s i _)⟩
  · next hp => exact quietStep h (.inr ⟨stage_of_phase hp, rfl⟩)
  · next hp => -- a wrong password
    obtain rfl := Option.some.inj h
    exact ⟨rfl, fun j hj ↦ stage_setPhase_of_ne s _ hj,
      .wrong rfl rfl (stage_of_phase hp) (stage_setPhase s i _)⟩
  · next hp => -- the right password
    obtain rfl := Option.some.inj h
    exact ⟨rfl, fun j hj ↦ stage_setPhase_of_ne s _ hj,
      .right rfl rfl (stage_of_phase hp) (stage_setPhase s i _)⟩
  · next hp =>
    obtain rfl := Option.some.inj h
    exact ⟨rfl, fun j hj ↦ stage_setPhase_of_ne s _ hj,
      .quiet rfl rfl (.inl ((stage_setPhase s i _).trans (stage_of_phase hp).symm))⟩
  · next hp => -- the failure reaches the identifier's limiter
    obtain rfl := Option.some.inj h
    exact ⟨rfl, fun j hj ↦ stage_setPhase_of_ne s _ hj,
      .fail rfl rfl (stage_of_phase hp) (stage_setPhase s i _)⟩
  · next hp =>
    obtain rfl := Option.some.inj h
    exact ⟨rfl, fun j hj ↦ stage_setPhase_of_ne s _ hj,
      .quiet rfl rfl (.inl ((stage_setPhase s i _).trans (stage_of_phase hp).symm))⟩
  · next hp => -- the success reaches the identifier's limiter
    obtain rfl := Option.some.inj h
    exact ⟨rfl, fun j hj ↦ stage_setPhase_of_ne s _ hj,
      .reset rfl rfl (stage_of_phase hp) (stage_setPhase s i _)⟩
  · next hp => exact quietStep h (.inl (stage_of_phase hp).symm)
  · next hp => exact quietStep h (.inl (stage_of_phase hp).symm)
  · contradiction

/-- The wrong-password verifications of a key in `[a, b)`. -/
def wrongIn (key : String) (a b : Int) (log : List Verification) : Nat :=
  log.countP (fun v ↦ decide (v.key = key ∧ v.ok = false ∧ a ≤ v.now ∧ v.now < b))

/-- `[a, b)` contains no successful verification of the key. -/
def NoSuccess (key : String) (a b : Int) (log : List Verification) : Prop :=
  ∀ v ∈ log, v.key = key → v.ok = true → ¬ (a ≤ v.now ∧ v.now < b)

instance (key : String) (a b : Int) (log : List Verification) :
    Decidable (NoSuccess key a b log) :=
  inferInstanceAs (Decidable (∀ v ∈ log, v.key = key → v.ok = true → ¬ (a ≤ v.now ∧ v.now < b)))

/-- Both limiters have fewer than `signInMaxEntries` live keys when the step is taken. -/
def FewLiveKeys (s : SignInState) (l : SignInLabel) : Prop :=
  (s.ip.sweep l.now).entries.size < signInMaxEntries ∧
    (s.id.sweep l.now).entries.size < signInMaxEntries

instance : ∀ (s : SignInState) (l : SignInLabel), Decidable (FewLiveKeys s l) :=
  fun s l ↦ inferInstanceAs (Decidable ((s.ip.sweep l.now).entries.size < signInMaxEntries ∧
    (s.id.sweep l.now).entries.size < signInMaxEntries))

/-- The identifier check of a request for the key is made while no request for it is between
its own check and its recorded failure or clear. -/
def OneAtATime (env : SignInEnv) (key : String) (s : SignInState) (l : SignInLabel) : Prop :=
  l.action = .checkID → env.idKey l.req = key →
    ∀ j, env.idKey j = key → s.stage j = .outside

private theorem wrongIn_cons (key : String) (a b : Int) (v : Verification)
    (log : List Verification) :
    wrongIn key a b (v :: log) = wrongIn key a b log +
      if v.key = key ∧ v.ok = false ∧ a ≤ v.now ∧ v.now < b then 1 else 0 := by
  simp [wrongIn, List.countP_cons]

private theorem noSuccess_cons {key : String} {a b : Int} {v : Verification}
    {log : List Verification} :
    NoSuccess key a b (v :: log) ↔
      (v.key = key → v.ok = true → ¬ (a ≤ v.now ∧ v.now < b)) ∧ NoSuccess key a b log :=
  List.forall_mem_cons

private theorem wrongIn_eq_zero {key : String} {a b now : Int} {log : List Verification}
    (hle : ∀ v ∈ log, v.now ≤ now) (ha : now < a) : wrongIn key a b log = 0 := by
  apply List.countP_eq_zero.mpr
  intro v hv
  have := hle v hv
  simp only [decide_eq_true_eq]
  omega

/-- The invariant for one identifier key; `fails` are the failures its limiter has recorded
since the last clear, newest first. -/
structure SignInInv (env : SignInEnv) (key : String) (fails : List Int) (s : SignInState) :
    Prop where
  clock_nonneg : zeroTime ≤ s.clock
  window : s.id.window = signInFailureWindow
  lockout : s.id.lockout = signInLockout
  max : s.id.max = signInIdentifierMaxFailures
  log_le : ∀ v ∈ s.log, v.now ≤ s.clock
  tracks : s.id.TracksKey key fails s.clock
  /-- At most one request for the key is between its check and its last limiter call. -/
  serial : ∀ i j, env.idKey i = key → env.idKey j = key →
    s.stage i ≠ .outside → s.stage j ≠ .outside → i = j
  /-- A request that passed its check did so below the bound. -/
  checked : ∀ i, env.idKey i = key → s.stage i = .checked →
    ∃ c, c ≤ s.clock ∧ countAfter (c - signInFailureWindow) fails < signInIdentifierMaxFailures
  /-- Every wrong verification since the last success is recorded, if none is owed. -/
  recorded : (∀ i, env.idKey i = key → s.stage i ≠ .owes) → ∀ a b, s.clock < b →
    NoSuccess key a b s.log → wrongIn key a b s.log ≤ countAfter (a - 1) fails
  /-- At most one is owed. -/
  owed : ∀ a b, s.clock < b → NoSuccess key a b s.log →
    wrongIn key a b s.log ≤ countAfter (a - 1) fails + 1
  /-- While a success is being cleared, nothing was verified after it. -/
  clearing : ∀ i, env.idKey i = key → s.stage i = .clearing → ∀ a b, s.clock < b →
    NoSuccess key a b s.log → wrongIn key a b s.log = 0
  bound : ∀ a, NoSuccess key a (a + signInFailureWindow) s.log →
    wrongIn key a (a + signInFailureWindow) s.log ≤ signInIdentifierMaxFailures

namespace SignInInv

variable {env : SignInEnv} {key : String} {fails : List Int} {s s' : SignInState}

/-- The invariant holds before any request. -/
theorem init (env : SignInEnv) (key : String) : SignInInv env key [] SignInState.init where
  clock_nonneg := Int.le_refl zeroTime
  window := rfl
  lockout := rfl
  max := rfl
  log_le := by simp [SignInState.init]
  tracks := Tracks.zero _ _ _ (Int.le_refl zeroTime)
  serial i j _ _ hi _ := (hi rfl).elim
  checked i _ hi := by cases hi
  recorded _ _ _ _ _ := Nat.zero_le _
  owed _ _ _ _ := Nat.zero_le _
  clearing i _ hi := by cases hi
  bound _ _ := Nat.zero_le _

/-- Time may pass. -/
theorem tick (h : SignInInv env key fails s) {now : Int} (hn : s.clock ≤ now) :
    SignInInv env key fails { s with clock := now } where
  clock_nonneg := Int.le_trans h.clock_nonneg hn
  window := h.window
  lockout := h.lockout
  max := h.max
  log_le v hv := Int.le_trans (h.log_le v hv) hn
  tracks := h.tracks.later hn
  serial := h.serial
  checked i hi hs := by
    obtain ⟨c, hc, hlt⟩ := h.checked i hi hs
    exact ⟨c, Int.le_trans hc hn, hlt⟩
  recorded ho a b hb := h.recorded ho a b (Int.lt_of_le_of_lt hn hb)
  owed a b hb := h.owed a b (Int.lt_of_le_of_lt hn hb)
  clearing i hi hs a b hb := h.clearing i hi hs a b (Int.lt_of_le_of_lt hn hb)
  bound := h.bound

/-- Steps that leave the key's failures alone: the limiter still tracks them, the log gains
at most a verification of another key, and requests for the key at most leave `checked`. -/
theorem frame (h : SignInInv env key fails s) (hclock : s'.clock = s.clock)
    (hparams : s'.id.window = s.id.window ∧ s'.id.lockout = s.id.lockout ∧ s'.id.max = s.id.max)
    (htracks : s'.id.TracksKey key fails s.clock)
    (hlog : s'.log = s.log ∨ ∃ v, v.key ≠ key ∧ v.now ≤ s.clock ∧ s'.log = v :: s.log)
    (hstage : ∀ i, env.idKey i = key →
      s'.stage i = s.stage i ∨ (s.stage i = .checked ∧ s'.stage i = .outside)) :
    SignInInv env key fails s' := by
  have hle : ∀ v ∈ s'.log, v.now ≤ s'.clock := by
    intro v hv
    rw [hclock]
    rcases hlog with he | ⟨u, -, hu, he⟩ <;> rw [he] at hv
    · exact h.log_le v hv
    · rcases List.mem_cons.mp hv with rfl | hv
      · exact hu
      · exact h.log_le v hv
  have hwrong (a b : Int) : wrongIn key a b s'.log = wrongIn key a b s.log := by
    rcases hlog with he | ⟨u, hu, -, he⟩ <;> rw [he]
    rw [wrongIn_cons, if_neg (fun hc ↦ hu hc.1), Nat.add_zero]
  have hsucc (a b : Int) (hn : NoSuccess key a b s'.log) : NoSuccess key a b s.log := by
    rcases hlog with he | ⟨u, -, -, he⟩ <;> rw [he] at hn
    · exact hn
    · exact (noSuccess_cons.mp hn).2
  have hkeep (i : Nat) (hi : env.idKey i = key) (hs : s'.stage i ≠ .outside) :
      s.stage i = s'.stage i := by
    rcases hstage i hi with he | ⟨-, he⟩
    · exact he.symm
    · exact (hs he).elim
  refine ⟨?_, ?_, ?_, ?_, hle, ?_, ?_, ?_, ?_, ?_, ?_, ?_⟩
  · rw [hclock]; exact h.clock_nonneg
  · rw [hparams.1]; exact h.window
  · rw [hparams.2.1]; exact h.lockout
  · rw [hparams.2.2]; exact h.max
  · rw [hclock]; exact htracks
  · intro i j hi hj hsi hsj
    exact h.serial i j hi hj (by rw [hkeep i hi hsi]; exact hsi) (by rw [hkeep j hj hsj]; exact hsj)
  · intro i hi hs
    rw [hclock]
    exact h.checked i hi (by rw [hkeep i hi (by rw [hs]; decide), hs])
  · intro ho a b hb hn
    rw [hclock] at hb
    rw [hwrong]
    refine h.recorded (fun i hi hs ↦ ?_) a b hb (hsucc a b hn)
    rcases hstage i hi with he | ⟨hc, -⟩
    · exact ho i hi (he.trans hs)
    · rw [hs] at hc
      cases hc
  · intro a b hb hn
    rw [hclock] at hb
    rw [hwrong]
    exact h.owed a b hb (hsucc a b hn)
  · intro i hi hs a b hb hn
    rw [hclock] at hb
    rw [hwrong]
    exact h.clearing i hi (by rw [hkeep i hi (by rw [hs]; decide), hs]) a b hb (hsucc a b hn)
  · intro a hn
    rw [hwrong]
    exact h.bound a (hsucc _ _ hn)

/-- While one request for the key is in flight, every other is outside. -/
theorem others_outside (h : SignInInv env key fails s) {i : Nat} (hi : env.idKey i = key)
    (hs : s.stage i ≠ .outside) : ∀ j, env.idKey j = key → j ≠ i → s.stage j = .outside := by
  intro j hj hne
  by_contra hn
  exact hne (h.serial j i hj hi hn hs)

/-- A check that passes, while no request for the key is in flight. -/
theorem letIn (h : SignInInv env key fails s) {i : Nat} (hclock : s'.clock = s.clock)
    (hid : s'.id = s.id) (hlog : s'.log = s.log) (hstage : s'.stage i = .checked)
    (hothers : ∀ j, j ≠ i → s'.stage j = s.stage j)
    (hone : ∀ j, env.idKey j = key → s.stage j = .outside)
    (hfree : s.id.blocked key s.clock ≤ 0) : SignInInv env key fails s' := by
  have hout (j : Nat) (hj : env.idKey j = key) (hne : j ≠ i) : s'.stage j = .outside :=
    (hothers j hne).trans (hone j hj)
  have hself (j : Nat) (hj : env.idKey j = key) (hs : s'.stage j ≠ .outside) : j = i := by
    by_contra hne
    exact hs (hout j hj hne)
  have hbelow : countAfter (s.clock - signInFailureWindow) fails < signInIdentifierMaxFailures := by
    have hlt := h.tracks.countAfter_lt h.clock_nonneg
      (by rw [h.max]; decide) (by rw [h.window, h.lockout]; decide) hfree
    rwa [h.window, h.max] at hlt
  constructor
  · rw [hclock]; exact h.clock_nonneg
  · rw [hid]; exact h.window
  · rw [hid]; exact h.lockout
  · rw [hid]; exact h.max
  · rw [hlog, hclock]; exact h.log_le
  · rw [hid, hclock]; exact h.tracks
  · intro j k hj hk hsj hsk
    rw [hself j hj hsj, hself k hk hsk]
  · intro j hj _
    exact ⟨s.clock, by rw [hclock], hbelow⟩
  · intro _ a b hb hn
    rw [hclock] at hb
    rw [hlog] at hn ⊢
    exact h.recorded (fun j hj hs ↦ by rw [hone j hj] at hs; cases hs) a b hb hn
  · intro a b hb hn
    rw [hclock] at hb
    rw [hlog] at hn ⊢
    exact h.owed a b hb hn
  · intro j hj hs
    have hji := hself j hj (by rw [hs]; decide)
    rw [hji, hstage] at hs
    cases hs
  · rw [hlog]
    exact h.bound

/-- A wrong verification by the one request in flight. -/
theorem wrong (h : SignInInv env key fails s) {i : Nat} (hi : env.idKey i = key)
    (hclock : s'.clock = s.clock) (hid : s'.id = s.id)
    (hlog : s'.log = ⟨key, s.clock, false⟩ :: s.log) (hbefore : s.stage i = .checked)
    (hstage : s'.stage i = .owes) (hothers : ∀ j, j ≠ i → s'.stage j = s.stage j) :
    SignInInv env key fails s' := by
  have hout := h.others_outside hi (by rw [hbefore]; decide)
  have hself (j : Nat) (hj : env.idKey j = key) (hs : s'.stage j ≠ .outside) : j = i := by
    by_contra hne
    exact hs ((hothers j hne).trans (hout j hj hne))
  have hnone (j : Nat) (hj : env.idKey j = key) : s.stage j ≠ .owes := by
    by_cases hji : j = i
    · rw [hji, hbefore]; decide
    · rw [hout j hj hji]; decide
  constructor
  · rw [hclock]; exact h.clock_nonneg
  · rw [hid]; exact h.window
  · rw [hid]; exact h.lockout
  · rw [hid]; exact h.max
  · rw [hlog, hclock]
    exact List.forall_mem_cons.mpr ⟨Int.le_refl s.clock, h.log_le⟩
  · rw [hid, hclock]; exact h.tracks
  · intro j k hj hk hsj hsk
    rw [hself j hj hsj, hself k hk hsk]
  · intro j hj hs
    have hji := hself j hj (by rw [hs]; decide)
    rw [hji, hstage] at hs
    cases hs
  · exact fun ho ↦ (ho i hi hstage).elim
  · intro a b hb hn
    rw [hclock] at hb
    rw [hlog, noSuccess_cons] at hn
    have hr := h.recorded hnone a b hb hn.2
    rw [hlog, wrongIn_cons]
    split <;> omega
  · intro j hj hs
    have hji := hself j hj (by rw [hs]; decide)
    rw [hji, hstage] at hs
    cases hs
  · intro a hn
    rw [hlog, noSuccess_cons] at hn
    rw [hlog, wrongIn_cons]
    split
    · next hv =>
      -- all failures counted in `[a, a + window)` were in the window of the check
      have hr := h.recorded hnone a _ hv.2.2.2 hn.2
      obtain ⟨c, hc, hlt⟩ := h.checked i hi hbefore
      have hac : c - signInFailureWindow ≤ a - 1 := by
        have := hv.2.2.2
        dsimp only at this
        omega
      have hanti := countAfter_anti hac fails
      omega
    · exact h.bound a hn.2

/-- A successful verification by the one request in flight. -/
theorem right (h : SignInInv env key fails s) {i : Nat} (hi : env.idKey i = key)
    (hclock : s'.clock = s.clock) (hid : s'.id = s.id)
    (hlog : s'.log = ⟨key, s.clock, true⟩ :: s.log) (hbefore : s.stage i = .checked)
    (hstage : s'.stage i = .clearing) (hothers : ∀ j, j ≠ i → s'.stage j = s.stage j) :
    SignInInv env key fails s' := by
  have hout := h.others_outside hi (by rw [hbefore]; decide)
  have hself (j : Nat) (hj : env.idKey j = key) (hs : s'.stage j ≠ .outside) : j = i := by
    by_contra hne
    exact hs ((hothers j hne).trans (hout j hj hne))
  have hwrong (a b : Int) : wrongIn key a b s'.log = wrongIn key a b s.log := by
    rw [hlog, wrongIn_cons, if_neg (by simp), Nat.add_zero]
  -- an interval that reaches past the success must start after it
  have hzero (a b : Int) (hb : s'.clock < b) (hn : NoSuccess key a b s'.log) :
      wrongIn key a b s'.log = 0 := by
    rw [hclock] at hb
    rw [hlog, noSuccess_cons] at hn
    have hfirst := hn.1 rfl rfl
    dsimp only at hfirst
    rw [hwrong]
    exact wrongIn_eq_zero h.log_le (by omega)
  constructor
  · rw [hclock]; exact h.clock_nonneg
  · rw [hid]; exact h.window
  · rw [hid]; exact h.lockout
  · rw [hid]; exact h.max
  · rw [hlog, hclock]
    exact List.forall_mem_cons.mpr ⟨Int.le_refl s.clock, h.log_le⟩
  · rw [hid, hclock]; exact h.tracks
  · intro j k hj hk hsj hsk
    rw [hself j hj hsj, hself k hk hsk]
  · intro j hj hs
    have hji := hself j hj (by rw [hs]; decide)
    rw [hji, hstage] at hs
    cases hs
  · intro _ a b hb hn
    rw [hzero a b hb hn]
    exact Nat.zero_le _
  · intro a b hb hn
    rw [hzero a b hb hn]
    exact Nat.zero_le _
  · exact fun _ _ _ ↦ hzero
  · intro a hn
    rw [hlog, noSuccess_cons] at hn
    rw [hwrong]
    exact h.bound a hn.2

/-- The limiter call that ends the request in flight: what it leaves as recorded failures
covers the wrong verifications since the last success. -/
theorem settle (h : SignInInv env key fails s) {i : Nat} (hi : env.idKey i = key)
    {fails' : List Int} (hclock : s'.clock = s.clock) (hlog : s'.log = s.log)
    (hparams : s'.id.window = s.id.window ∧ s'.id.lockout = s.id.lockout ∧ s'.id.max = s.id.max)
    (htracks : s'.id.TracksKey key fails' s.clock) (hbefore : s.stage i ≠ .outside)
    (hstage : s'.stage i = .outside) (hothers : ∀ j, j ≠ i → s'.stage j = s.stage j)
    (hcover : ∀ a b, s.clock < b → NoSuccess key a b s.log →
      wrongIn key a b s.log ≤ countAfter (a - 1) fails') :
    SignInInv env key fails' s' := by
  have hout : ∀ j, env.idKey j = key → s'.stage j = .outside := by
    intro j hj
    by_cases hji : j = i
    · rw [hji, hstage]
    · exact (hothers j hji).trans (h.others_outside hi hbefore j hj hji)
  constructor
  · rw [hclock]; exact h.clock_nonneg
  · rw [hparams.1]; exact h.window
  · rw [hparams.2.1]; exact h.lockout
  · rw [hparams.2.2]; exact h.max
  · rw [hlog, hclock]; exact h.log_le
  · rw [hclock]; exact htracks
  · exact fun j _ hj _ hs _ ↦ (hs (hout j hj)).elim
  · intro j hj hs
    rw [hout j hj] at hs
    cases hs
  · rw [hlog, hclock]
    exact fun _ ↦ hcover
  · rw [hlog, hclock]
    exact fun a b hb hn ↦ Nat.le_succ_of_le (hcover a b hb hn)
  · intro j hj hs
    rw [hout j hj] at hs
    cases hs
  · rw [hlog]
    exact h.bound

/-- One effect keeps the invariant, for some recorded failures. -/
theorem effect (h : SignInInv env key fails s) {i : Nat} {a : SignInAction}
    (hclock : s'.clock = s.clock)
    (hothers : ∀ j, j ≠ i → s'.stage j = s.stage j)
    (hlive : (s.id.sweep s.clock).entries.size < signInMaxEntries)
    (hone : a = .checkID → env.idKey i = key → ∀ j, env.idKey j = key → s.stage j = .outside)
    (he : SignInEffect env s i a s') : ∃ fails', SignInInv env key fails' s' := by
  by_cases hi : env.idKey i = key
  · cases he with
    | quiet id log stage =>
      refine ⟨fails, h.frame hclock (by rw [id]; exact ⟨rfl, rfl, rfl⟩) (by rw [id]; exact h.tracks)
        (.inl log) (fun j hj ↦ ?_)⟩
      by_cases hji : j = i
      · rw [hji]; exact stage
      · exact .inl (hothers j hji)
    | letIn action id log stage free =>
      rw [hi] at free
      exact ⟨fails, h.letIn hclock id log stage hothers (hone action hi) free⟩
    | wrong id log before stage =>
      rw [hi] at log
      exact ⟨fails, h.wrong hi hclock id log before stage hothers⟩
    | right id log before stage =>
      rw [hi] at log
      exact ⟨fails, h.right hi hclock id log before stage hothers⟩
    | fail id log before stage =>
      rw [hi] at id
      have hadmits : s.id.admits (.fail key s.clock) = true :=
        BruteLimiter.hasRoom_of_live hlive key
      have htracks := h.tracks.step h.clock_nonneg (.fail key s.clock) (Int.le_refl s.clock)
      rw [hadmits] at htracks
      simp only [↓reduceIte, logStep] at htracks
      refine ⟨s.clock :: fails, h.settle hi hclock log ?_ ?_ ?_ stage hothers ?_⟩
      · rw [id]; exact s.id.fail_params key s.clock
      · rw [id]; exact htracks
      · rw [before]; decide
      · intro a b hb hn
        have ho := h.owed a b hb hn
        rw [countAfter_cons]
        split
        · exact ho
        · have hz : wrongIn key a b s.log = 0 := wrongIn_eq_zero h.log_le (by omega)
          omega
    | reset id log before stage =>
      rw [hi] at id
      have htracks := h.tracks.step h.clock_nonneg (.reset key s.clock) (Int.le_refl s.clock)
      simp only [BruteLimiter.admits, ↓reduceIte, logStep] at htracks
      refine ⟨[], h.settle hi hclock log ?_ ?_ ?_ stage hothers ?_⟩
      · rw [id]; exact ⟨rfl, rfl, rfl⟩
      · rw [id]; exact htracks
      · rw [before]; decide
      · intro a b hb hn
        rw [h.clearing i hi before a b hb hn]
        exact Nat.zero_le _
  · have hstage (j : Nat) (hj : env.idKey j = key) :
        s'.stage j = s.stage j ∨ (s.stage j = .checked ∧ s'.stage j = .outside) :=
      .inl (hothers j (fun hji ↦ hi (hji ▸ hj)))
    cases he with
    | quiet id log _ | letIn _ id log _ _ =>
      exact ⟨fails, h.frame hclock (by rw [id]; exact ⟨rfl, rfl, rfl⟩)
        (by rw [id]; exact h.tracks) (.inl log) hstage⟩
    | wrong id log _ _ | right id log _ _ =>
      exact ⟨fails, h.frame hclock (by rw [id]; exact ⟨rfl, rfl, rfl⟩)
        (by rw [id]; exact h.tracks) (.inr ⟨_, hi, Int.le_refl _, log⟩) hstage⟩
    | fail id log _ _ =>
      have htracks := h.tracks.step h.clock_nonneg (.fail (env.idKey i) s.clock)
        (Int.le_refl s.clock)
      simp only [logStep, if_neg hi, ite_self] at htracks
      exact ⟨fails, h.frame hclock (by rw [id]; exact s.id.fail_params _ _)
        (by rw [id]; exact htracks) (.inl log) hstage⟩
    | reset id log _ _ =>
      have htracks := h.tracks.step h.clock_nonneg (.reset (env.idKey i) s.clock)
        (Int.le_refl s.clock)
      simp only [logStep, if_neg hi, ite_self] at htracks
      exact ⟨fails, h.frame hclock (by rw [id]; exact ⟨rfl, rfl, rfl⟩)
        (by rw [id]; exact htracks) (.inl log) hstage⟩

/-- One step with room in the limiters and no overlap keeps the invariant. -/
theorem step (h : SignInInv env key fails s) {l : SignInLabel} (hlive : FewLiveKeys s l)
    (hone : OneAtATime env key s l) (hs : signInStep env s l = some s') :
    ∃ fails', SignInInv env key fails' s' := by
  unfold signInStep at hs
  split at hs
  · contradiction
  · next hn =>
    obtain ⟨hclock, hothers, he⟩ := act_effect hs
    exact (h.tick (Int.not_lt.mp hn)).effect hclock hothers hlive.2 hone he

end SignInInv

/-- Handled one at a time and with fewer than a hundred live keys, the requests for one
identifier verify at most five wrong passwords in any fifteen minutes without a success. -/
theorem wrong_verifications_bounded (env : SignInEnv) (identifier : String)
    (ls : List SignInLabel) (s : SignInState)
    (hrun : runSteps (signInStep env) SignInState.init ls = some s)
    (hlive : RunMeets (signInStep env) FewLiveKeys SignInState.init ls)
    (hone : RunMeets (signInStep env) (OneAtATime env (env.signInLimitKey "id" identifier))
      SignInState.init ls)
    (a : Int) (hsucc : NoSuccess (env.signInLimitKey "id" identifier) a
      (a + signInFailureWindow) s.log) :
    wrongIn (env.signInLimitKey "id" identifier) a (a + signInFailureWindow) s.log ≤
      signInIdentifierMaxFailures := by
  have hinv : ∃ fails, SignInInv env (env.signInLimitKey "id" identifier) fails s :=
    runSteps_invariant_of_meets
      (I := fun s ↦ ∃ fails, SignInInv env (env.signInLimitKey "id" identifier) fails s)
      (fun s l s' hI hP hs ↦ hI.elim (fun _ h ↦ h.step hP.1 hP.2 hs))
      ⟨[], SignInInv.init env _⟩ (hlive.and hone) hrun
  obtain ⟨fails, h⟩ := hinv
  exact h.bound a hsucc

/-- The answer is a 429. -/
def SignInPhase.limited : SignInPhase → Bool
  | .done (.error (.tooManyRequests _ _)) => true
  | _ => false

/-- Six requests guess the password of one user, all others are of another. -/
def mixedEnv : SignInEnv where
  request i := if i < 6 then ⟨"admin", "guess", "10.0.0.1"⟩ else ⟨"grace", "hopper", "10.0.0.2"⟩
  signInLimitKey kind value := kind ++ ":" ++ value
  missingMsg := "username and password are required"

/-- The two checks of a request. -/
def checks (i : Nat) (now : Int) : List SignInLabel := [⟨i, now, .checkIP⟩, ⟨i, now, .checkID⟩]

/-- A wrong guess that passes its checks, from its start to its recorded failure. -/
def guess (i : Nat) (now : Int) : List SignInLabel :=
  checks i now ++ [⟨i, now, .lookup (some (some "u1"))⟩, ⟨i, now + 1, .verify (some false)⟩,
    ⟨i, now + 1, .failIP⟩, ⟨i, now + 2, .failID⟩]

/-- Five guesses one after the other, and a sixth that is refused; meanwhile two sign-ins of the
other user overlap, one with a wrong and one with the right password. -/
def mixedGuesses : List SignInLabel :=
  checks 6 1 ++ checks 7 2 ++ guess 0 3 ++ [⟨6, 6, .lookup (some (some "u2"))⟩] ++ guess 1 7 ++
    [⟨7, 10, .lookup (some (some "u2"))⟩, ⟨6, 11, .verify (some false)⟩] ++ guess 2 12 ++
    [⟨7, 15, .verify (some true)⟩, ⟨6, 15, .failIP⟩, ⟨7, 16, .resetIP⟩] ++ guess 3 17 ++
    [⟨6, 20, .failID⟩, ⟨7, 20, .resetID⟩] ++ guess 4 21 ++ [⟨7, 24, .createSession true⟩] ++
    checks 5 25

/-- The guesses come to the bound, and the sixth to none. -/
theorem wrong_verifications_bounded_mixedGuesses :
    ∃ s, runSteps (signInStep mixedEnv) SignInState.init mixedGuesses = some s ∧
      (s.phase 5).limited = true ∧
      wrongIn "id:admin" 1 (1 + signInFailureWindow) s.log = 5 ∧
      wrongIn "id:admin" 1 (1 + signInFailureWindow) s.log ≤ signInIdentifierMaxFailures := by
  obtain ⟨s, hs, hend⟩ := (Option.any_eq_true _ _).mp (by decide +kernel :
    (runSteps (signInStep mixedEnv) SignInState.init mixedGuesses).any (fun s ↦
      (s.phase 5).limited = true ∧ wrongIn "id:admin" 1 (1 + signInFailureWindow) s.log = 5 ∧
        NoSuccess "id:admin" 1 (1 + signInFailureWindow) s.log) = true)
  obtain ⟨hlimited, hfive, hsucc⟩ := of_decide_eq_true hend
  -- only the first six requests are for this user
  have hkey (j : Nat) : mixedEnv.idKey j = "id:admin" ↔ j < 6 := by
    by_cases hj : j < 6
    · exact iff_of_true (by simp only [SignInEnv.idKey, mixedEnv, if_pos hj]; decide) hj
    · exact iff_of_false (by simp only [SignInEnv.idKey, mixedEnv, if_neg hj]; decide) hj
  have hone : RunMeets (signInStep mixedEnv) (OneAtATime mixedEnv "id:admin") SignInState.init
      mixedGuesses := by
    refine (RunMeets.congr (I := fun _ ↦ True) (fun l _ s s' _ _ ↦ ⟨?_, fun _ ↦ trivial⟩) trivial
      hs).mpr (by decide +kernel : RunMeets (signInStep mixedEnv) (fun s l ↦
        l.action = .checkID → l.req < 6 → ∀ j < 6, s.stage j = .outside) SignInState.init
          mixedGuesses)
    simp only [OneAtATime, hkey]
  exact ⟨s, hs, hlimited, hfive, wrong_verifications_bounded mixedEnv "admin" mixedGuesses s hs
    (by decide +kernel) hone 1 hsucc⟩

/-- Requests that all try one wrong password for one user. -/
def guessingEnv : SignInEnv where
  request _ := ⟨"admin", "guess", "10.0.0.1"⟩
  signInLimitKey kind value := kind ++ ":" ++ value
  missingMsg := "username and password are required"

/-- Six requests for one user pass their checks, then all verify a wrong password. -/
def overlappingGuesses : List SignInLabel :=
  (List.range 6).flatMap (fun i ↦ [⟨i, 1, .checkIP⟩, ⟨i, 1, .checkID⟩]) ++
    (List.range 6).flatMap (fun i ↦ [⟨i, 2, .lookup (some (some "u1"))⟩,
      ⟨i, 2, .verify (some false)⟩])

/-- Overlapping requests exceed the bound: no failure is recorded when the last check passes. -/
theorem not_bounded_of_overlap :
    ¬ ∀ (env : SignInEnv) (identifier : String) (ls : List SignInLabel) (s : SignInState),
      runSteps (signInStep env) SignInState.init ls = some s →
      RunMeets (signInStep env) FewLiveKeys SignInState.init ls →
      ∀ a, NoSuccess (env.signInLimitKey "id" identifier) a (a + signInFailureWindow) s.log →
        wrongIn (env.signInLimitKey "id" identifier) a (a + signInFailureWindow) s.log ≤
          signInIdentifierMaxFailures := by
  intro h
  have hlog : (runSteps (signInStep guessingEnv) SignInState.init overlappingGuesses).map
      (·.log) = some (List.replicate 6 ⟨"id:admin", 2, false⟩) := by decide +kernel
  obtain ⟨s, hs, hl⟩ := Option.map_eq_some_iff.mp hlog
  have hbound := h guessingEnv "admin" overlappingGuesses s hs (by decide +kernel) 0
    (by rw [hl]; decide)
  rw [hl] at hbound
  have hsix : wrongIn (guessingEnv.signInLimitKey "id" "admin") 0 (0 + signInFailureWindow)
      (List.replicate 6 ⟨"id:admin", 2, false⟩) = 6 := by decide
  rw [hsix] at hbound
  contradiction

end Dockstack.Server
