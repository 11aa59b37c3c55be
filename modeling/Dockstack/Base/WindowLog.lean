import Mathlib.Data.List.Basic
import Mathlib.Order.Lattice
import Mathlib.Order.Monotone.Basic

/-!
# Sliding windows over event logs

An event log is the list of an event's times, newest first. `cutoff s` is the
latest time that is too old to count at `s`. A log is *saturated* at its newest
event when that event and the older ones that still count there are enough;
`lastSaturated` scans for the newest event at which the log up to then was saturated.
-/

namespace Dockstack.Base.WindowLog

variable {T : Type} [LinearOrder T]

/-- How many events of the log are strictly after `c`. -/
def countAfter (c : T) (log : List T) : Nat := log.countP (fun u ↦ decide (c < u))

/-- The event `s` and the older ones in its window are at least `max`. -/
def Saturated (cutoff : T → T) (max : Nat) (s : T) (older : List T) : Prop :=
  max ≤ countAfter (cutoff s) older + 1

instance (cutoff : T → T) (max : Nat) (s : T) (older : List T) :
    Decidable (Saturated cutoff max s older) :=
  inferInstanceAs (Decidable (max ≤ countAfter (cutoff s) older + 1))

/-- The newest event at which the log up to then was saturated. -/
def lastSaturated (cutoff : T → T) (max : Nat) : List T → Option T
  | [] => none
  | s :: older => if Saturated cutoff max s older then some s else lastSaturated cutoff max older

/-- No events, nothing to count. -/
@[simp] theorem countAfter_nil (c : T) : countAfter c [] = 0 := rfl

/-- A new event counts exactly when it is after `c`. -/
theorem countAfter_cons (c s : T) (log : List T) :
    countAfter c (s :: log) = countAfter c log + if c < s then 1 else 0 := by
  simp [countAfter, List.countP_cons]

/-- Counting over a concatenation adds the counts. -/
theorem countAfter_append (c : T) (log log' : List T) :
    countAfter c (log ++ log') = countAfter c log + countAfter c log' :=
  List.countP_append

/-- Later cutoffs count fewer events. -/
theorem countAfter_anti {c d : T} (h : c ≤ d) (log : List T) :
    countAfter d log ≤ countAfter c log := by
  apply List.countP_mono_left
  intro u _ hu
  simp only [decide_eq_true_eq] at hu ⊢
  exact lt_of_le_of_lt h hu

/-- Dropping events not after `d` keeps every count at a later cutoff. -/
theorem countAfter_filter {c d : T} (h : d ≤ c) (log : List T) :
    countAfter c (log.filter (fun u ↦ decide (d < u))) = countAfter c log := by
  rw [countAfter, List.countP_filter]
  apply List.countP_congr
  intro u _
  simp only [Bool.and_eq_true, decide_eq_true_eq, and_iff_left_iff_imp]
  exact fun hu ↦ lt_of_le_of_lt h hu

/-- Nothing counts once every event is at or before `c`. -/
theorem countAfter_eq_zero {c : T} {log : List T} (h : ∀ u ∈ log, u ≤ c) :
    countAfter c log = 0 := by
  apply List.countP_eq_zero.mpr
  intro u hu
  simpa using h u hu

/-- Without saturation at the new event the answer is that of the older log. -/
theorem lastSaturated_cons_of_not {cutoff : T → T} {max : Nat} {s : T} {older : List T}
    (h : ¬ Saturated cutoff max s older) :
    lastSaturated cutoff max (s :: older) = lastSaturated cutoff max older := by
  simp [lastSaturated, h]

/-- A saturated event is the newest such event of its own log. -/
theorem lastSaturated_cons_of {cutoff : T → T} {max : Nat} {s : T} {older : List T}
    (h : Saturated cutoff max s older) :
    lastSaturated cutoff max (s :: older) = some s := by
  simp [lastSaturated, h]

/-- The scan returns an event of the log at which it was saturated. -/
theorem saturated_of_lastSaturated {cutoff : T → T} {max : Nat} {log : List T} {s : T}
    (h : lastSaturated cutoff max log = some s) :
    ∃ newer older, log = newer ++ s :: older ∧ Saturated cutoff max s older := by
  induction log with
  | nil => simp [lastSaturated] at h
  | cons u older ih =>
    by_cases hu : Saturated cutoff max u older
    · rw [lastSaturated_cons_of hu] at h
      obtain rfl := Option.some.inj h
      exact ⟨[], older, rfl, hu⟩
    · rw [lastSaturated_cons_of_not hu] at h
      obtain ⟨newer, rest, he, hs⟩ := ih h
      exact ⟨u :: newer, rest, by rw [he]; rfl, hs⟩

/-- In a log sorted newest first, the scan finds an event no older than any saturated one. -/
theorem le_lastSaturated {cutoff : T → T} {max : Nat} {newer older : List T} {s : T}
    (hlog : (newer ++ s :: older).Pairwise (fun a b ↦ b ≤ a)) (hs : Saturated cutoff max s older) :
    ∃ u, lastSaturated cutoff max (newer ++ s :: older) = some u ∧ s ≤ u := by
  induction newer with
  | nil => exact ⟨s, lastSaturated_cons_of hs, le_rfl⟩
  | cons v newer ih =>
    rw [List.cons_append, List.pairwise_cons] at hlog
    by_cases hv : Saturated cutoff max v (newer ++ s :: older)
    · exact ⟨v, lastSaturated_cons_of hv, hlog.1 s (by simp)⟩
    · obtain ⟨u, hu, hle⟩ := ih hlog.2
      exact ⟨u, by rw [List.cons_append, lastSaturated_cons_of_not hv, hu], hle⟩

/-- If the window that ends at `now` is full in a log sorted newest first, the newest event
is in it and saturates the log. -/
theorem saturated_head {cutoff : T → T} (hmono : Monotone cutoff) {max : Nat} (hmax : 0 < max)
    {log : List T} {now : T} (hlog : log.Pairwise (fun a b ↦ b ≤ a)) (hle : ∀ u ∈ log, u ≤ now)
    (hfull : max ≤ countAfter (cutoff now) log) :
    ∃ s older, log = s :: older ∧ cutoff now < s ∧ Saturated cutoff max s older := by
  cases log with
  | nil =>
    rw [countAfter_nil] at hfull
    omega
  | cons s older =>
    have hs : cutoff s ≤ cutoff now := hmono (hle s (by simp))
    have hc := countAfter_anti hs older
    have hin : cutoff now < s := by
      by_contra hn
      have hz : countAfter (cutoff now) (s :: older) = 0 := by
        apply countAfter_eq_zero
        intro u hu
        rcases List.mem_cons.mp hu with rfl | hu
        · exact le_of_not_gt hn
        · exact le_trans ((List.pairwise_cons.mp hlog).1 u hu) (le_of_not_gt hn)
      omega
    refine ⟨s, older, rfl, hin, ?_⟩
    rw [countAfter_cons, if_pos hin] at hfull
    unfold Saturated
    omega

end Dockstack.Base.WindowLog
