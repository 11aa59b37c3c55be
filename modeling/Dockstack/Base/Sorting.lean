import Mathlib.Data.List.Perm.Basic

/-!
# Sorting by a key

Go's `sort.Slice` and `sort.Strings`, as a merge sort by a key. The order of elements with equal
keys is the given one, which is one of the orders that `sort.Slice` may answer with.
-/

namespace Dockstack.Base

variable {α β : Type} [LE β] [DecidableLE β] [Std.IsLinearOrder β]

/-- Sorting by a key puts the keys in order. -/
theorem pairwise_mergeSort_key (key : α → β) (l : List α) :
    (l.mergeSort fun a b ↦ decide (key a ≤ key b)).Pairwise fun a b ↦ key a ≤ key b := by
  have htrans (a b c : α) (hab : decide (key a ≤ key b) = true)
      (hbc : decide (key b ≤ key c) = true) : decide (key a ≤ key c) = true :=
    decide_eq_true (Std.le_trans (of_decide_eq_true hab) (of_decide_eq_true hbc))
  have htotal (a b : α) : (decide (key a ≤ key b) || decide (key b ≤ key a)) = true := by
    simpa using Std.le_total
  simpa using List.pairwise_mergeSort htrans htotal l

/-- Different elements are in strict order when they are sorted. -/
theorem pairwise_lt_mergeSort [LT β] [Std.LawfulOrderLT β] {l : List β} (h : l.Nodup) :
    (l.mergeSort fun a b ↦ decide (a ≤ b)).Pairwise (· < ·) := by
  have hle := pairwise_mergeSort_key (fun b : β ↦ b) l
  have hne : (l.mergeSort fun a b ↦ decide (a ≤ b)).Nodup :=
    (List.mergeSort_perm ..).nodup_iff.mpr h
  exact (hle.and hne).imp fun h ↦ Std.lt_of_le_of_ne h.1 h.2

end Dockstack.Base
