import Dockstack.Auth.ApiKeys
import Dockstack.Base.Burst

/-!
# What the API key rate limit admits

A key's row keeps a count and the time of the last admitted request: the length of the
burst of admitted requests, in which each comes within the window of the one before. So
no more than the maximum are admitted in a window, but a steady client is rejected once
its burst is full, however long ago that burst began.
-/

namespace Dockstack.Auth

open Dockstack.Base

/-- A call of `RateLimit`. -/
structure RateLimitCall where
  now : Int
  keyID : String
  max : Int
  windowMs : Int
  deriving DecidableEq

/-- The keys, and the calls so far with their answers, newest first. -/
structure RateLimitState where
  clock : Int
  keys : ApiKeyTable
  log : List (RateLimitCall × Bool)

/-- One call in non-decreasing time. -/
def rateLimitStep (s : RateLimitState) (c : RateLimitCall) : Option RateLimitState :=
  if s.clock ≤ c.now then
    let (ok, keys) := rateLimit s.keys c.keyID c.max c.windowMs c.now
    some ⟨c.now, keys, (c, ok) :: s.log⟩
  else none

/-- The times in milliseconds of the admitted calls for a key, newest first. -/
def RateLimitState.admitted (s : RateLimitState) (id : String) : List Int :=
  (s.log.filter fun e ↦ e.2 && e.1.keyID == id).map fun e ↦ unixMilli e.1.now

/-- The calls for the key use its maximum and its window. -/
def FixedLimit (id : String) (max windowMs : Int) (calls : List RateLimitCall) : Prop :=
  ∀ c ∈ calls, c.keyID = id → c.max = max ∧ c.windowMs = windowMs

/-- The key's row before its first request. -/
def FreshKey (id : String) (keys : ApiKeyTable) : Prop :=
  ∃ r ∈ keys.rows, r.id = id ∧ r.requestCount = 0 ∧ r.lastRequestAt = none

/-! ## One call -/

variable {id : String} {max windowMs : Int}

/-- A call for a key is admitted exactly when its row may be charged. -/
theorem rateLimit_fst {keys : ApiKeyTable} {r : ApiKeyRow} (hr : r ∈ keys.rows)
    (max windowMs now : Int) :
    (rateLimit keys r.id max windowMs now).1 =
      r.chargeable (unixMilli now - windowMs) r.id max := by
  rw [Bool.eq_iff_iff]
  change decide (0 < keys.rows.countP _) = true ↔ _
  rw [decide_eq_true_eq, List.countP_pos_iff]
  constructor
  · rintro ⟨a, ha, hcharge⟩
    have hid : a.id = r.id := by
      rw [ApiKeyRow.chargeable, Bool.and_eq_true, beq_iff_eq] at hcharge
      exact hcharge.1
    exact eq_of_id_eq ha hr hid ▸ hcharge
  · exact fun hcharge ↦ ⟨r, hr, hcharge⟩

/-- A call charges the row of its key, if it may, and leaves the others alone. -/
theorem mem_rateLimit {keys : ApiKeyTable} {id : String} {max windowMs now : Int}
    {a : ApiKeyRow} :
    a ∈ (rateLimit keys id max windowMs now).2.rows ↔
      ∃ r ∈ keys.rows, (if r.chargeable (unixMilli now - windowMs) id max then
        r.charge (unixMilli now - windowMs) (unixMilli now) else r) = a :=
  List.mem_map

/-- A call for another key does not charge the row. -/
theorem not_chargeable_of_ne {r : ApiKeyRow} {id : String} (h : id ≠ r.id)
    (windowStart max : Int) : r.chargeable windowStart id max = false := by
  simp [ApiKeyRow.chargeable, Ne.symm h]

/-! ## Runs -/

/-- The key's row holds its burst of admitted requests, which are in order and, if anything
is admitted at all, in bursts of at most `max`. -/
structure KeyTraced (id : String) (max windowMs : Int) (s : RateLimitState) : Prop where
  row : ∃ r ∈ s.keys.rows, r.id = id ∧ r.lastRequestAt = (s.admitted id).head? ∧
    r.requestCount = (burst windowMs (s.admitted id)).length
  sorted : (s.admitted id).Pairwise (fun a b ↦ b ≤ a)
  past : ∀ u ∈ s.admitted id, u ≤ unixMilli s.clock
  bounded : 1 ≤ max → ∀ log, log <:+ s.admitted id → ((burst windowMs log).length : Int) ≤ max

private theorem idle_iff {r : ApiKeyRow} {log : List Int} (hlast : r.lastRequestAt = log.head?)
    (windowMs now : Int) : r.idle (now - windowMs) = true ↔ ∀ last, log.head? = some last →
      last < now - windowMs := by
  rw [ApiKeyRow.idle, hlast]
  cases log with
  | nil => simp
  | cons last log => simp

private theorem requestCount_charge {r : ApiKeyRow} {log : List Int}
    (hlast : r.lastRequestAt = log.head?)
    (hcount : r.requestCount = (burst windowMs log).length) (now : Int) :
    (r.charge (now - windowMs) now).requestCount = (burst windowMs (now :: log)).length := by
  have hidle := idle_iff hlast windowMs now
  cases log with
  | nil =>
    rw [ApiKeyRow.charge, if_pos (hidle.mpr nofun)]
    rfl
  | cons last log =>
    rw [List.head?_cons] at hidle
    by_cases hlt : last < now - windowMs
    · rw [burst_cons_of_lt (by omega), ApiKeyRow.charge,
        if_pos (hidle.mpr fun _ h ↦ Option.some.inj h ▸ hlt)]
      rfl
    · rw [burst_cons_of_le (by omega), ApiKeyRow.charge, if_neg fun h ↦ hlt (hidle.mp h last rfl)]
      simp [hcount]

private theorem admitted_cons (s : RateLimitState) (id : String) (keys : ApiKeyTable)
    (c : RateLimitCall) (ok : Bool) :
    (⟨c.now, keys, (c, ok) :: s.log⟩ : RateLimitState).admitted id =
      if ok ∧ c.keyID = id then unixMilli c.now :: s.admitted id else s.admitted id := by
  by_cases h : ok = true ∧ c.keyID = id
  · rw [if_pos h]
    simp [RateLimitState.admitted, h.1, h.2]
  · rw [if_neg h, RateLimitState.admitted, List.filter_cons_of_neg (by simpa using h)]
    rfl

private theorem keyTraced_admit {s : RateLimitState} (hs : KeyTraced id max windowMs s)
    {now : Int} (hclock : unixMilli s.clock ≤ now) {r : ApiKeyRow}
    (hlast : r.lastRequestAt = (s.admitted id).head?)
    (hcount : r.requestCount = (burst windowMs (s.admitted id)).length)
    (hcharge : r.requestCount < max ∨ r.idle (now - windowMs) = true) :
    (now :: s.admitted id).Pairwise (fun a b ↦ b ≤ a) ∧
      (∀ u ∈ now :: s.admitted id, u ≤ now) ∧
      (1 ≤ max → ∀ log, log <:+ now :: s.admitted id →
        ((burst windowMs log).length : Int) ≤ max) := by
  have hpast : ∀ u ∈ s.admitted id, u ≤ now := fun u hu ↦ Int.le_trans (hs.past u hu) hclock
  refine ⟨List.pairwise_cons.mpr ⟨hpast, hs.sorted⟩,
    List.forall_mem_cons.mpr ⟨Int.le_refl _, hpast⟩, fun hmax log hlog ↦ ?_⟩
  rcases List.suffix_cons_iff.mp hlog with rfl | hlog
  · rw [← requestCount_charge hlast hcount]
    by_cases hidle : r.idle (now - windowMs) = true
    · simpa [ApiKeyRow.charge, hidle] using hmax
    · have := hcharge.resolve_right hidle
      simp [ApiKeyRow.charge, hidle]
      omega
  · exact hs.bounded hmax log hlog

/-- A step answers the call and logs the answer. -/
theorem rateLimitStep_eq_some {s s' : RateLimitState} {c : RateLimitCall} :
    rateLimitStep s c = some s' ↔ s.clock ≤ c.now ∧
      s' = ⟨c.now, (rateLimit s.keys c.keyID c.max c.windowMs c.now).2,
        (c, (rateLimit s.keys c.keyID c.max c.windowMs c.now).1) :: s.log⟩ := by
  rw [rateLimitStep, Option.ite_none_right_eq_some, Option.some.injEq]
  exact and_congr_right fun _ ↦ eq_comm

/-- A call keeps the key traced. -/
theorem keyTraced_step {s s' : RateLimitState} {c : RateLimitCall}
    (hs : KeyTraced id max windowMs s)
    (hc : c.keyID = id → c.max = max ∧ c.windowMs = windowMs) (h : rateLimitStep s c = some s') :
    KeyTraced id max windowMs s' := by
  obtain ⟨hclock, rfl⟩ := rateLimitStep_eq_some.mp h
  have htime := unixMilli_mono hclock
  obtain ⟨r, hr, rfl, hlast, hcount⟩ := hs.row
  by_cases hcharge : c.keyID = r.id ∧
      r.chargeable (unixMilli c.now - windowMs) r.id max = true
  · obtain ⟨hid, hcharge⟩ := hcharge
    obtain ⟨hmax, hwindow⟩ := hc hid
    have hok : (rateLimit s.keys r.id max windowMs c.now).1 = true :=
      (rateLimit_fst hr max windowMs c.now).trans hcharge
    have hadm := admitted_cons s r.id (rateLimit s.keys r.id max windowMs c.now).2 c true
    rw [if_pos ⟨rfl, hid⟩] at hadm
    obtain ⟨hsorted, hpast, hbounded⟩ := keyTraced_admit hs htime hlast hcount
      (by simpa [ApiKeyRow.chargeable] using hcharge)
    rw [hid, hmax, hwindow, hok]
    refine ⟨⟨r.charge (unixMilli c.now - windowMs) (unixMilli c.now), ?_, rfl, ?_, ?_⟩,
      hadm ▸ hsorted, hadm ▸ hpast, hadm ▸ hbounded⟩
    · exact mem_rateLimit.mpr ⟨r, hr, if_pos hcharge⟩
    · rw [hadm]
      rfl
    · rw [hadm]
      exact requestCount_charge hlast hcount _
  · -- without a charge the key's row and its log stay as they are
    have hrow : r.chargeable (unixMilli c.now - c.windowMs) c.keyID c.max = false := by
      by_cases hid : c.keyID = r.id
      · obtain ⟨hmax, hwindow⟩ := hc hid
        rw [hid, hmax, hwindow]
        exact Bool.eq_false_iff.mpr fun h ↦ hcharge ⟨hid, h⟩
      · exact not_chargeable_of_ne hid _ _
    have hadm := admitted_cons s r.id (rateLimit s.keys c.keyID c.max c.windowMs c.now).2 c
      (rateLimit s.keys c.keyID c.max c.windowMs c.now).1
    rw [if_neg] at hadm
    · refine ⟨⟨r, mem_rateLimit.mpr ⟨r, hr, if_neg (by simp [hrow])⟩, rfl, ?_, ?_⟩,
        hadm ▸ hs.sorted, hadm ▸ fun u hu ↦ Int.le_trans (hs.past u hu) htime, hadm ▸ hs.bounded⟩
      · rw [hadm, hlast]
      · rw [hadm, hcount]
    · rintro ⟨hok, hid⟩
      rw [hid, rateLimit_fst hr, ← hid, hrow] at hok
      contradiction

/-- A fresh key is traced before any call. -/
theorem keyTraced_init {keys : ApiKeyTable} (h : FreshKey id keys) (now : Int) :
    KeyTraced id max windowMs ⟨now, keys, []⟩ where
  row := by
    obtain ⟨r, hr, hid, hcount, hlast⟩ := h
    exact ⟨r, hr, hid, hlast, hcount⟩
  sorted := List.Pairwise.nil
  past _ hu := absurd hu List.not_mem_nil
  bounded hmax log hlog := by
    obtain rfl := List.suffix_nil.mp hlog
    exact Int.le_trans Int.one_nonneg hmax

/-- Every run from a fresh key keeps it traced. -/
theorem keyTraced_run {keys : ApiKeyTable} (h : FreshKey id keys) {calls : List RateLimitCall}
    (hfixed : FixedLimit id max windowMs calls) {now : Int} {t : RateLimitState}
    (hrun : runSteps rateLimitStep ⟨now, keys, []⟩ calls = some t) :
    KeyTraced id max windowMs t :=
  runSteps_invariant_of_meets (fun _ _ _ hs hc ↦ keyTraced_step hs hc) (keyTraced_init h now)
    (RunMeets.of_forall (fun c hc _ ↦ hfixed c hc) _) hrun

/-! ## What is admitted -/

/-- In every run from a fresh key, `max + 1` consecutive admitted calls for it span more than
the window: no more than `max` are admitted in any window. -/
theorem lt_span_of_admitted (id : String) (max windowMs : Int) (hmax : 1 ≤ max)
    (keys : ApiKeyTable) (hkey : FreshKey id keys) (calls : List RateLimitCall)
    (hfixed : FixedLimit id max windowMs calls) (now : Int) (t : RateLimitState)
    (hrun : runSteps rateLimitStep ⟨now, keys, []⟩ calls = some t)
    (i : Nat) (last first : Int) (hlast : (t.admitted id)[i]? = some last)
    (hfirst : (t.admitted id)[i + max.toNat]? = some first) : windowMs < last - first := by
  have ht := keyTraced_run hkey hfixed hrun
  have hsuffix := List.drop_suffix i (t.admitted id)
  have hbound := ht.bounded hmax _ hsuffix
  by_contra hspan
  have hlt : max.toNat < (burst windowMs ((t.admitted id).drop i)).length :=
    lt_length_burst (ht.sorted.sublist hsuffix.sublist) (by simpa using hlast)
      (by simpa using hfirst) (Int.not_lt.mp hspan)
  omega

/-- The clock reading at `ms` milliseconds after the Unix epoch. -/
def atMilli (ms : Int) : Int := unixToInternal * second + ms * millisecond

/-- One key before its first request. -/
def demoKeys : ApiKeyTable where
  rows := [⟨"k1", "u1", "ci", [1], true, none, 0, none, 100, 60000, 0, 0⟩]
  unique := List.pairwise_singleton _ _

/-- `RateLimit` calls for the key of `demoKeys` at the given milliseconds, `max` a minute. -/
def demoRateLimitCalls (max : Int) (times : List Int) : List RateLimitCall :=
  times.map fun ms ↦ ⟨atMilli ms, "k1", max, 60000⟩

/-- The third call within a minute is rejected, so the third admitted one is a minute after
the first. -/
theorem lt_span_of_admitted_demo : ∃ t,
    runSteps rateLimitStep ⟨0, demoKeys, []⟩ (demoRateLimitCalls 2 [0, 30000, 45000, 90001]) =
      some t ∧
    t.admitted "k1" = [90001, 30000, 0] ∧ (60000 : Int) < 90001 - 0 := by
  have hadm : (runSteps rateLimitStep ⟨0, demoKeys, []⟩
      (demoRateLimitCalls 2 [0, 30000, 45000, 90001])).map (·.admitted "k1") =
        some [90001, 30000, 0] := by decide +kernel
  obtain ⟨t, ht, hadm⟩ := Option.map_eq_some_iff.mp hadm
  refine ⟨t, ht, hadm, lt_span_of_admitted "k1" 2 60000 (by decide) demoKeys ?_ _ ?_ 0 t ht 0
    90001 0 ?_ ?_⟩
  · exact ⟨_, List.mem_singleton_self _, rfl, rfl, rfl⟩
  · intro c hc _
    obtain ⟨ms, -, rfl⟩ := List.mem_map.mp hc
    exact ⟨rfl, rfl⟩
  · rw [hadm]
    rfl
  · rw [hadm]
    rfl

/-! ## What is rejected -/

/-- The admitted requests of `log` in the window that ends at `now`. -/
def inWindow (windowMs now : Int) (log : List Int) : Nat :=
  log.countP fun u ↦ now - windowMs ≤ u ∧ u ≤ now

/-- A full burst is under way at `now`, and it began before the window. -/
def StaleBurst (max windowMs now : Int) (log : List Int) : Prop :=
  0 < max ∧ max ≤ (burst windowMs log).length ∧ (∃ last ∈ log.head?, now - windowMs ≤ last) ∧
    ∃ start ∈ (burst windowMs log).getLast?, start < now - windowMs

instance (max windowMs now : Int) (log : List Int) : Decidable (StaleBurst max windowMs now log) :=
  inferInstanceAs (Decidable (_ ∧ _ ∧ _ ∧ _))

/-- A call for a traced key is rejected when a full burst is under way. -/
theorem rateLimit_eq_false_iff {s : RateLimitState} (hs : KeyTraced id max windowMs s)
    (now : Int) : (rateLimit s.keys id max windowMs now).1 = false ↔
      max ≤ (burst windowMs (s.admitted id)).length ∧
        ∃ last ∈ (s.admitted id).head?, unixMilli now - windowMs ≤ last := by
  obtain ⟨r, hr, rfl, hlast, hcount⟩ := hs.row
  have hidle := idle_iff hlast windowMs (unixMilli now)
  rw [rateLimit_fst hr, ApiKeyRow.chargeable, beq_self_eq_true, Bool.true_and, ← hcount,
    Bool.or_eq_false_iff, decide_eq_false_iff_not, Int.not_lt]
  apply and_congr_right
  intro _
  rw [← Bool.not_eq_true, hidle]
  push Not
  rfl

/-- A call is rejected only over a full window exactly when no stale burst rejects it. -/
theorem rejects_only_full_iff {s : RateLimitState} (hs : KeyTraced id max windowMs s) {now : Int}
    (hnow : s.clock ≤ now) :
    ((rateLimit s.keys id max windowMs now).1 = false →
      max ≤ inWindow windowMs (unixMilli now) (s.admitted id)) ↔
    ¬ StaleBurst max windowMs (unixMilli now) (s.admitted id) := by
  have hpast (u : Int) (hu : u ∈ s.admitted id) : u ≤ unixMilli now :=
    Int.le_trans (hs.past u hu) (unixMilli_mono hnow)
  have hcount : inWindow windowMs (unixMilli now) (s.admitted id) =
      (s.admitted id).countP (fun u ↦ unixMilli now - windowMs ≤ u) := by
    apply List.countP_congr
    intro u hu
    simp [hpast u hu]
  rw [rateLimit_eq_false_iff hs, hcount, StaleBurst]
  by_cases hmax : 0 < max
  · have hbound := hs.bounded hmax _ (List.suffix_refl _)
    cases hstart : (burst windowMs (s.admitted id)).getLast? with
    | none =>
      have hlen : (burst windowMs (s.admitted id)).length = 0 := by
        rw [List.getLast?_eq_none_iff.mp hstart, List.length_nil]
      exact iff_of_true (fun h ↦ by omega) fun h ↦ by omega
    | some start =>
      have hfull := length_burst_le_countP_iff hs.sorted hpast hstart
      constructor
      · rintro h ⟨-, hlen, hlast, start', heq, hold⟩
        obtain rfl := Option.some.inj heq
        have := hfull.mp (by have := h ⟨hlen, hlast⟩; omega)
        omega
      · rintro h ⟨hlen, hlast⟩
        have hstart : unixMilli now - windowMs ≤ start :=
          Int.not_lt.mp fun hold ↦ h ⟨hmax, hlen, hlast, start, rfl, hold⟩
        have := hfull.mpr hstart
        omega
  · exact iff_of_true (fun _ ↦ by omega) fun h ↦ hmax h.1

/-- A call for the key is rejected only if `max` requests were admitted in the window. -/
def RejectsOnlyFull (id : String) (max windowMs : Int) (s : RateLimitState) (c : RateLimitCall) :
    Prop :=
  c.keyID = id → (rateLimit s.keys c.keyID c.max c.windowMs c.now).1 = false →
    max ≤ inWindow windowMs (unixMilli c.now) (s.admitted id)

instance (id : String) (max windowMs : Int) (s : RateLimitState) (c : RateLimitCall) :
    Decidable (RejectsOnlyFull id max windowMs s c) :=
  inferInstanceAs (Decidable (_ → _ → _))

/-- A run rejects calls only over full windows exactly when no call comes during a full burst
that began before its window. -/
theorem runMeets_rejectsOnlyFull_iff (id : String) (max windowMs : Int) (keys : ApiKeyTable)
    (hkey : FreshKey id keys) (calls : List RateLimitCall)
    (hfixed : FixedLimit id max windowMs calls) (now : Int) (t : RateLimitState)
    (hrun : runSteps rateLimitStep ⟨now, keys, []⟩ calls = some t) :
    RunMeets rateLimitStep (RejectsOnlyFull id max windowMs) ⟨now, keys, []⟩ calls ↔
      RunMeets rateLimitStep (fun s c ↦ c.keyID = id →
        ¬ StaleBurst max windowMs (unixMilli c.now) (s.admitted id)) ⟨now, keys, []⟩ calls := by
  apply RunMeets.congr (I := KeyTraced id max windowMs) _ (keyTraced_init hkey now) hrun
  intro c hc s s' hs hstep
  refine ⟨forall_congr' fun hid ↦ ?_, fun _ ↦ keyTraced_step hs (hfixed c hc) hstep⟩
  obtain ⟨hmax, hwindow⟩ := hfixed c hc hid
  rw [hid, hmax, hwindow]
  exact rejects_only_full_iff hs (rateLimitStep_eq_some.mp hstep).1

/-- The call at 45 seconds is rejected over a full window, those at 0 and 30 seconds. -/
theorem runMeets_rejectsOnlyFull_iff_demo :
    RunMeets rateLimitStep (RejectsOnlyFull "k1" 2 60000) ⟨0, demoKeys, []⟩
      (demoRateLimitCalls 2 [0, 30000, 45000, 90001]) := by
  obtain ⟨t, ht⟩ := Option.isSome_iff_exists.mp (by decide +kernel :
    (runSteps rateLimitStep ⟨0, demoKeys, []⟩
      (demoRateLimitCalls 2 [0, 30000, 45000, 90001])).isSome = true)
  refine (runMeets_rejectsOnlyFull_iff "k1" 2 60000 demoKeys ?_ _ ?_ 0 t ht).mpr
    (by decide +kernel)
  · exact ⟨_, List.mem_singleton_self _, rfl, rfl, rfl⟩
  · intro c hc _
    obtain ⟨ms, -, rfl⟩ := List.mem_map.mp hc
    exact ⟨rfl, rfl⟩

/-- A key that may make 100 requests a minute is used once a second. After 100 seconds it is
rejected, though only 60 requests were admitted in the last minute. -/
theorem rejects_under_limit :
    (runSteps rateLimitStep ⟨0, demoKeys, []⟩
      (demoRateLimitCalls 100 ((List.range 101).map fun i ↦ i * 1000))).isSome = true ∧
    ¬ RunMeets rateLimitStep (RejectsOnlyFull "k1" 100 60000) ⟨0, demoKeys, []⟩
      (demoRateLimitCalls 100 ((List.range 101).map fun i ↦ i * 1000)) := by
  decide +kernel

end Dockstack.Auth
