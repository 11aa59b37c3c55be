import Mathlib.Data.List.Perm.Basic

/-!
# Stable sorting

A stable sort is determined by its order and by what it keeps: the order of elements that compare as
equal. So a list that is sorted again with each element that is appended is the sort of them all,
and sorting commutes with filtering.
-/

namespace Dockstack.Base

/-- A comparison by which any two elements compare, and that is transitive. -/
structure Comparator (α : Type) where
  le : α → α → Bool
  trans : ∀ a b c, le a b = true → le b c = true → le a c = true
  total : ∀ a b, (le a b || le b a) = true

namespace Comparator

variable {α β : Type}

/-- The comparison of elements by a key. -/
def on (c : Comparator β) (key : α → β) : Comparator α where
  le x y := c.le (key x) (key y)
  trans x y z := c.trans (key x) (key y) (key z)
  total x y := c.total (key x) (key y)

variable (c : Comparator α)

/-- A stable sort. -/
def sort (l : List α) : List α := l.mergeSort c.le

/-- Two elements compare as equal. -/
def tied (a b : α) : Bool := c.le a b && c.le b a

/-- Sorting rearranges. -/
theorem sort_perm (l : List α) : (c.sort l).Perm l := List.mergeSort_perm l c.le

/-- Sorting puts in order. -/
theorem pairwise_sort (l : List α) : (c.sort l).Pairwise (c.le · ·) :=
  List.pairwise_mergeSort c.trans c.total l

/-- What is in order stays in this order. -/
theorem sublist_sort {l m : List α} (hm : m.Pairwise (c.le · ·)) (h : m.Sublist l) :
    m.Sublist (c.sort l) := List.sublist_mergeSort c.trans c.total hm h

/-- An element compares as equal with itself. -/
theorem tied_self (a : α) : c.tied a a = true := by
  have hself : c.le a a = true := by simpa using c.total a a
  rw [tied, hself]
  rfl

private theorem pairwise_filter_tied (a : α) (l : List α) :
    (l.filter (c.tied a)).Pairwise (c.le · ·) := by
  apply List.pairwise_of_forall_mem_list
  intro x hx y hy
  have hxa := (Bool.and_eq_true_iff.mp (List.mem_filter.mp hx).2).2
  have hay := (Bool.and_eq_true_iff.mp (List.mem_filter.mp hy).2).1
  exact c.trans x a y hxa hay

/-- Sorting keeps the order of elements that compare as equal. -/
theorem filter_tied_sort (a : α) (l : List α) :
    (c.sort l).filter (c.tied a) = l.filter (c.tied a) := by
  have hsub : (l.filter (c.tied a)).Sublist (c.sort l) :=
    c.sublist_sort (c.pairwise_filter_tied a l) List.filter_sublist
  have hfilter := hsub.filter (c.tied a)
  simp only [List.filter_filter, Bool.and_self] at hfilter
  have hlength : ((c.sort l).filter (c.tied a)).length = (l.filter (c.tied a)).length :=
    ((c.sort_perm l).filter _).length_eq
  exact (hfilter.eq_of_length hlength.symm).symm

private theorem le_of_mem_cons {a x : α} {l : List α} (h : (a :: l).Pairwise (c.le · ·))
    (hx : x ∈ a :: l) : c.le a x = true := by
  rcases List.mem_cons.mp hx with rfl | hx
  · exact (Bool.and_eq_true_iff.mp (c.tied_self x)).1
  · exact List.rel_of_pairwise_cons h hx

/-- A list that is in order is determined by its elements of each class, in their order. -/
theorem eq_of_pairwise {l m : List α} (hl : l.Pairwise (c.le · ·)) (hm : m.Pairwise (c.le · ·))
    (h : ∀ a, l.filter (c.tied a) = m.filter (c.tied a)) : l = m := by
  have hmem {l m : List α} (h : ∀ a, l.filter (c.tied a) = m.filter (c.tied a)) {a : α}
      (ha : a ∈ l) : a ∈ m := by
    have hfilter := List.mem_filter.mpr ⟨ha, c.tied_self a⟩
    rw [h a] at hfilter
    exact (List.mem_filter.mp hfilter).1
  induction l generalizing m with
  | nil =>
    cases m with
    | nil => rfl
    | cons b m => exact absurd (hmem (fun a ↦ (h a).symm) List.mem_cons_self) List.not_mem_nil
  | cons a l ih =>
    cases m with
    | nil => exact absurd (hmem h List.mem_cons_self) List.not_mem_nil
    | cons b m =>
      -- each head is in the other list, so the heads compare as equal and are the first of a class
      have hab : c.tied a b = true := by
        rw [tied, c.le_of_mem_cons hl (hmem (fun x ↦ (h x).symm) List.mem_cons_self),
          c.le_of_mem_cons hm (hmem h List.mem_cons_self)]
        rfl
      have hhead := h a
      rw [List.filter_cons_of_pos (c.tied_self a), List.filter_cons_of_pos hab] at hhead
      obtain rfl := (List.cons.inj hhead).1
      rw [ih hl.of_cons hm.of_cons]
      intro x
      have hx := h x
      rw [List.filter_cons, List.filter_cons] at hx
      split at hx
      · exact (List.cons.inj hx).2
      · exact hx

/-- Sorting a part first changes nothing. -/
theorem sort_append_sort (l m : List α) : c.sort (c.sort l ++ m) = c.sort (l ++ m) := by
  apply c.eq_of_pairwise (c.pairwise_sort _) (c.pairwise_sort _)
  intro a
  rw [c.filter_tied_sort, c.filter_tied_sort, List.filter_append, List.filter_append,
    c.filter_tied_sort]

/-- Sorting commutes with filtering. -/
theorem sort_filter (p : α → Bool) (l : List α) : c.sort (l.filter p) = (c.sort l).filter p := by
  apply c.eq_of_pairwise (c.pairwise_sort _) ((c.pairwise_sort l).filter p)
  intro a
  rw [c.filter_tied_sort, List.filter_comm, List.filter_comm _ _ (c.sort l), c.filter_tied_sort]

/-- Where no two elements compare as equal, only the elements matter. -/
theorem sort_eq_of_perm {l m : List α} (h : l.Perm m)
    (hanti : ∀ a ∈ l, ∀ b ∈ l, c.tied a b = true → a = b) : c.sort l = c.sort m := by
  have hperm : (c.sort l).Perm (c.sort m) := ((c.sort_perm l).trans h).trans (c.sort_perm m).symm
  refine hperm.eq_of_pairwise (fun a b ha hb hab hba ↦ ?_) (c.pairwise_sort l) (c.pairwise_sort m)
  apply hanti a ((c.sort_perm l).mem_iff.mp ha) b (h.mem_iff.mpr ((c.sort_perm m).mem_iff.mp hb))
  rw [tied, hab, hba]
  rfl

end Comparator

end Dockstack.Base
