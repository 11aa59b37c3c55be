import Mathlib.Data.List.Basic

/-!
# Order-preserving merges
-/

namespace Dockstack.Base

variable {α β : Type}

/-- The third list holds exactly the elements of the first two, each list's in order. -/
inductive Merge : List α → List α → List α → Prop where
  | nil : Merge [] [] []
  | left {x : α} {xs ys zs : List α} (h : Merge xs ys zs) : Merge (x :: xs) ys (x :: zs)
  | right {y : α} {xs ys zs : List α} (h : Merge xs ys zs) : Merge xs (y :: ys) (y :: zs)

/-- A list whose elements each belong to one of two parts is a merge of the parts. -/
theorem merge_filterMap {f g : α → Option β} {h : α → β} {l : List α}
    (hl : ∀ a ∈ l, (f a = some (h a) ∧ g a = none) ∨ (f a = none ∧ g a = some (h a))) :
    Merge (l.filterMap f) (l.filterMap g) (l.map h) := by
  induction l with
  | nil => exact .nil
  | cons a l ih =>
    have ih' := ih fun b hb ↦ hl b (List.mem_cons_of_mem a hb)
    rcases hl a List.mem_cons_self with ⟨hf, hg⟩ | ⟨hf, hg⟩
    · rw [List.filterMap_cons_some hf, List.filterMap_cons_none hg, List.map_cons]
      exact .left ih'
    · rw [List.filterMap_cons_none hf, List.filterMap_cons_some hg, List.map_cons]
      exact .right ih'

end Dockstack.Base
