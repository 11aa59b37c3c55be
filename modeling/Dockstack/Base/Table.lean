import Mathlib.Data.List.Pairwise

/-!
# Tables with uniqueness constraints

A table is a list of rows no two of which clash; what clashes is the schema's
`PRIMARY KEY` and `UNIQUE` columns. An `INSERT` that clashes fails and changes
nothing, a `DELETE` keeps the constraint.
-/

namespace Dockstack.Base

/-- Rows of which no two clash. -/
structure Table (R : Type) (clash : R → R → Bool) where
  rows : List R
  unique : rows.Pairwise (fun a b ↦ clash a b = false)

namespace Table

variable {R : Type} {clash : R → R → Bool}

/-- No rows. -/
def empty : Table R clash := ⟨[], List.Pairwise.nil⟩

/-- `INSERT INTO`; `none` is a violated constraint. -/
def insert (t : Table R clash) (r : R) : Option (Table R clash) :=
  if h : ∀ a ∈ t.rows, clash r a = false then
    some ⟨r :: t.rows, List.pairwise_cons.mpr ⟨h, t.unique⟩⟩
  else
    none

/-- `DELETE FROM … WHERE p`. -/
def delete (t : Table R clash) (p : R → Bool) : Table R clash :=
  ⟨t.rows.filter (fun r ↦ !p r), t.unique.filter _⟩

/-- `UPDATE … WHERE p` of columns that are in no constraint. -/
def update (t : Table R clash) (p : R → Bool) (f : R → R)
    (hf : ∀ a b, clash (f a) b = clash a b ∧ clash b (f a) = clash b a) : Table R clash where
  rows := t.rows.map fun r ↦ if p r then f r else r
  unique := by
    rw [List.pairwise_map]
    apply t.unique.imp
    intro a b hab
    by_cases ha : p a = true <;> by_cases hb : p b = true <;>
      simp [ha, hb, (hf _ _).1, (hf _ _).2, hab]

/-- `UPDATE … WHERE p` of columns that may be in a constraint; `none` is a violated one. -/
def update? (t : Table R clash) (p : R → Bool) (f : R → R) : Option (Table R clash) :=
  if h : (t.rows.map fun r ↦ if p r then f r else r).Pairwise (fun a b ↦ clash a b = false) then
    some ⟨_, h⟩
  else
    none

/-- A successful insertion puts its row before the others. -/
theorem rows_insert {t t' : Table R clash} {r : R} (h : t.insert r = some t') :
    t'.rows = r :: t.rows := by
  unfold insert at h
  split at h
  · obtain rfl := Option.some.inj h
    rfl
  · contradiction

/-- A successful insertion adds its row. -/
theorem mem_insert {t t' : Table R clash} {r : R} (h : t.insert r = some t') (a : R) :
    a ∈ t'.rows ↔ a = r ∨ a ∈ t.rows := by
  rw [rows_insert h, List.mem_cons]

/-- A row that is inserted clashes with no other. -/
theorem clash_of_insert {t t' : Table R clash} {r : R} (h : t.insert r = some t') :
    ∀ a ∈ t.rows, clash r a = false := by
  unfold insert at h
  split at h
  · next hclash => exact hclash
  · contradiction

/-- An insertion that clashes with no row succeeds. -/
theorem exists_insert {t : Table R clash} {r : R} (h : ∀ a ∈ t.rows, clash r a = false) :
    ∃ t', t.insert r = some t' :=
  ⟨_, dif_pos h⟩

/-- A deletion keeps the rows outside its condition. -/
@[simp] theorem mem_delete (t : Table R clash) (p : R → Bool) (a : R) :
    a ∈ (t.delete p).rows ↔ a ∈ t.rows ∧ p a = false := by
  simp [delete]

/-- The rows after an update are the old ones, changed where the condition holds. -/
theorem mem_update {t : Table R clash} {p : R → Bool} {f : R → R}
    {hf : ∀ a b, clash (f a) b = clash a b ∧ clash b (f a) = clash b a} (a : R) :
    a ∈ (t.update p f hf).rows ↔ ∃ r ∈ t.rows, (if p r then f r else r) = a :=
  List.mem_map

/-- The rows after an update that violates no constraint. -/
theorem mem_update? {t t' : Table R clash} {p : R → Bool} {f : R → R}
    (h : t.update? p f = some t') (a : R) :
    a ∈ t'.rows ↔ ∃ r ∈ t.rows, (if p r then f r else r) = a := by
  unfold update? at h
  split at h
  · obtain rfl := Option.some.inj h
    exact List.mem_map
  · contradiction

/-- Rows that clash are one row. -/
theorem eq_of_clash (hsymm : ∀ a b, clash a b = clash b a) (t : Table R clash) {a b : R}
    (ha : a ∈ t.rows) (hb : b ∈ t.rows) (h : clash a b = true) : a = b := by
  have hs : Std.Symm (fun a b ↦ clash a b = false) := ⟨fun a b hab ↦ by rw [hsymm, hab]⟩
  by_contra hne
  have hfalse := t.unique.forall ha hb hne
  rw [h] at hfalse
  contradiction

end Table

/-- A query whose answer has at most one row returns it. -/
theorem head?_eq_some_of_unique {α : Type} {l : List α} (h : ∀ a ∈ l, ∀ b ∈ l, a = b) {a : α} :
    l.head? = some a ↔ a ∈ l := by
  constructor
  · exact List.mem_of_mem_head?
  · intro ha
    cases l with
    | nil => contradiction
    | cons b l => rw [List.head?_cons, h b List.mem_cons_self a ha]

end Dockstack.Base
