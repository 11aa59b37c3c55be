import Mathlib.Data.List.Basic
import Mathlib.Algebra.Order.Group.Int

/-!
# Bursts of events

An event log is the list of an event's times, newest first. Its burst is what a counter
sees that an idle gap of more than `w` resets: the newest events, as long as each comes at
most `w` after the one before.
-/

namespace Dockstack.Base

/-- The newest events with gaps of at most `w`. -/
def burst (w : Int) : List Int → List Int
  | [] => []
  | [t] => [t]
  | t :: u :: log => if t - u ≤ w then t :: burst w (u :: log) else [t]

variable {w : Int}

/-- A first event is a burst. -/
@[simp] theorem burst_singleton (t : Int) : burst w [t] = [t] := rfl

/-- An event soon after the newest one continues its burst. -/
theorem burst_cons_of_le {t u : Int} {log : List Int} (h : t - u ≤ w) :
    burst w (t :: u :: log) = t :: burst w (u :: log) := if_pos h

/-- An event after an idle gap begins a burst. -/
theorem burst_cons_of_lt {t u : Int} {log : List Int} (h : w < t - u) :
    burst w (t :: u :: log) = [t] := if_neg (by omega)

/-- Every event is in a burst. -/
theorem burst_cons_ne_nil (t : Int) (log : List Int) : burst w (t :: log) ≠ [] := by
  cases log with
  | nil => simp
  | cons u log =>
    rw [burst]
    split <;> simp

/-- Events that span at most `w` are in one burst. -/
theorem lt_length_burst {log : List Int} (hlog : log.Pairwise (fun a b ↦ b ≤ a)) {k : Nat}
    {newest oldest : Int} (h0 : log[0]? = some newest) (hk : log[k]? = some oldest)
    (hspan : newest - oldest ≤ w) : k < (burst w log).length := by
  induction k generalizing log newest with
  | zero =>
    cases log with
    | nil => cases h0
    | cons t log => exact List.length_pos_iff.mpr (burst_cons_ne_nil t log)
  | succ k ih =>
    match log, hlog, h0, hk with
    | [], _, h0, _ => cases h0
    | [_], _, _, hk => simp at hk
    | t :: u :: log, hlog, h0, hk =>
      obtain rfl : t = newest := Option.some.inj h0
      rw [List.getElem?_cons_succ] at hk
      obtain ⟨ht, hlog⟩ := List.pairwise_cons.mp hlog
      have hold : oldest ≤ u := by
        rcases List.mem_cons.mp (List.mem_of_getElem? hk) with rfl | hmem
        · exact Int.le_refl _
        · exact (List.pairwise_cons.mp hlog).1 oldest hmem
      have hut : u ≤ t := ht u List.mem_cons_self
      rw [burst_cons_of_le (by omega), List.length_cons]
      have := ih hlog rfl hk (by omega)
      omega

/-- A burst is a part of the log. -/
theorem burst_sublist (w : Int) (log : List Int) : (burst w log).Sublist log := by
  induction log with
  | nil => exact List.Sublist.refl []
  | cons t log ih =>
    cases log with
    | nil => exact List.Sublist.refl [t]
    | cons u log =>
      rw [burst]
      by_cases h : t - u ≤ w
      · rw [if_pos h]
        exact ih.cons_cons t
      · rw [if_neg h]
        exact List.singleton_sublist.mpr List.mem_cons_self

/-- What is not in the burst is older than `w`. -/
theorem countP_burst {log : List Int} (hlog : log.Pairwise (fun a b ↦ b ≤ a)) {now : Int}
    (hnow : ∀ u ∈ log, u ≤ now) :
    log.countP (fun u ↦ now - w ≤ u) = (burst w log).countP (fun u ↦ now - w ≤ u) := by
  induction log with
  | nil => rfl
  | cons t log ih =>
    obtain ⟨ht, htail⟩ := List.pairwise_cons.mp hlog
    have htnow := hnow t List.mem_cons_self
    have hrest := ih htail fun v hv ↦ hnow v (List.mem_cons_of_mem t hv)
    cases log with
    | nil => rfl
    | cons u log =>
      by_cases h : t - u ≤ w
      · rw [burst_cons_of_le h, List.countP_cons (l := u :: log), hrest,
          List.countP_cons (l := burst w (u :: log))]
      · have hzero : (u :: log).countP (fun v ↦ decide (now - w ≤ v)) = 0 := by
          apply List.countP_eq_zero.mpr
          intro v hv
          have hvu : v ≤ u := by
            rcases List.mem_cons.mp hv with rfl | hv
            · exact Int.le_refl _
            · exact (List.pairwise_cons.mp htail).1 v hv
          simp only [decide_eq_true_eq]
          omega
        rw [burst_cons_of_lt (by omega), List.countP_cons (l := u :: log), hzero,
          List.countP_singleton, Nat.zero_add]

/-- A whole burst is at or after `now - w` exactly when its oldest event is. -/
theorem length_burst_le_countP_iff {log : List Int} (hlog : log.Pairwise (fun a b ↦ b ≤ a))
    {now oldest : Int} (hnow : ∀ u ∈ log, u ≤ now) (h : (burst w log).getLast? = some oldest) :
    (burst w log).length ≤ log.countP (fun u ↦ now - w ≤ u) ↔ now - w ≤ oldest := by
  have hsorted := hlog.sublist (burst_sublist w log)
  rw [countP_burst hlog hnow]
  generalize burst w log = b at h hsorted
  obtain ⟨init, rfl⟩ := List.getLast?_eq_some_iff.mp h
  obtain ⟨-, -, hinit⟩ := List.pairwise_append.mp hsorted
  have hle : (init ++ [oldest]).countP (fun u ↦ decide (now - w ≤ u)) ≤
      (init ++ [oldest]).length := List.countP_le_length
  constructor
  · intro hlen
    have hall := List.countP_eq_length.mp (Nat.le_antisymm hle hlen) oldest (by simp)
    simpa using hall
  · intro hold
    apply Nat.le_of_eq
    apply Eq.symm
    apply List.countP_eq_length.mpr
    intro u hu
    rw [decide_eq_true_eq]
    rcases List.mem_append.mp hu with hu | hu
    · exact Int.le_trans hold (hinit u hu oldest (by simp))
    · rwa [List.mem_singleton.mp hu]

end Dockstack.Base
