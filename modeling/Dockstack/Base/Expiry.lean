import Dockstack.Base.Table
import Mathlib.Order.Lattice

/-!
# Rows that expire

Tables whose rows carry the last instant at which they are of use. Two of them agree from an
instant on when the rows that have not expired by then are the same, in the same order. Insertions,
deletions and lookups of such rows see no difference, and the deletion of expired rows makes none.
-/

namespace Dockstack.Base

variable {R T : Type} [LinearOrder T] {expiresAt : R → T}

/-- The rows that have not expired before `t`. -/
def unexpired (expiresAt : R → T) (t : T) (rows : List R) : List R :=
  rows.filter fun r ↦ decide (t ≤ expiresAt r)

/-- Both have the same rows from `t` on. -/
def AgreeFrom (expiresAt : R → T) (t : T) (rows rows' : List R) : Prop :=
  unexpired expiresAt t rows = unexpired expiresAt t rows'

namespace AgreeFrom

variable {t t' : T} {rows rows' : List R}

/-- What agrees from an instant on agrees later. -/
theorem later (h : AgreeFrom expiresAt t rows rows') (hle : t ≤ t') :
    AgreeFrom expiresAt t' rows rows' := by
  have hsub (rows : List R) :
      unexpired expiresAt t' (unexpired expiresAt t rows) = unexpired expiresAt t' rows := by
    unfold unexpired
    rw [List.filter_filter]
    apply List.filter_congr
    intro r _
    rw [Bool.and_eq_left_iff_imp]
    intro hr
    exact decide_eq_true (hle.trans (of_decide_eq_true hr))
  rw [AgreeFrom, ← hsub rows, ← hsub rows', h]

/-- A row is added to both. -/
theorem cons (h : AgreeFrom expiresAt t rows rows') (r : R) :
    AgreeFrom expiresAt t (r :: rows) (r :: rows') := by
  rw [AgreeFrom, unexpired, unexpired, List.filter_cons, List.filter_cons]
  exact congrArg (fun rows ↦ if decide (t ≤ expiresAt r) = true then r :: rows else rows) h

/-- Rows are taken from both by one condition. -/
theorem filter (h : AgreeFrom expiresAt t rows rows') (p : R → Bool) :
    AgreeFrom expiresAt t (rows.filter p) (rows'.filter p) := by
  have hcomm (rows : List R) :
      unexpired expiresAt t (rows.filter p) = (unexpired expiresAt t rows).filter p := by
    unfold unexpired
    rw [List.filter_filter, List.filter_filter]
    exact List.filter_congr fun r _ ↦ Bool.and_comm _ _
  rw [AgreeFrom, hcomm, hcomm, h]

/-- Only expired rows are taken from one of them. -/
theorem filter_left (h : AgreeFrom expiresAt t rows rows') {p : R → Bool}
    (hp : ∀ r, t ≤ expiresAt r → p r = true) :
    AgreeFrom expiresAt t (rows.filter p) rows' := by
  rw [AgreeFrom, ← h, unexpired, unexpired, List.filter_filter]
  apply List.filter_congr
  intro r _
  rw [Bool.and_eq_left_iff_imp]
  intro hr
  exact hp r (of_decide_eq_true hr)

/-- A row that has not expired is found in both or in neither. -/
theorem find?_eq (h : AgreeFrom expiresAt t rows rows') {p : R → Bool}
    (hp : ∀ r, p r = true → t ≤ expiresAt r) : rows.find? p = rows'.find? p := by
  have hfind (rows : List R) : rows.find? p = (unexpired expiresAt t rows).find? p := by
    rw [unexpired, List.find?_filter]
    congr 1
    funext r
    rw [Bool.eq_iff_iff, decide_eq_true_iff]
    exact ⟨fun hr ↦ ⟨decide_eq_true (hp r hr), hr⟩, And.right⟩
  rw [hfind rows, hfind rows', h]

end AgreeFrom

namespace Table

variable {clash : R → R → Bool} {t t' u : Table R clash}

/-- A row that clashes with none of either table is added to both. -/
theorem agreeFrom_insert {c : T} (h : AgreeFrom expiresAt c t.rows t'.rows) {r : R}
    (hr : ∀ a ∈ t.rows, clash r a = false) (hr' : ∀ a ∈ t'.rows, clash r a = false) :
    ∃ u u', t.insert r = some u ∧ t'.insert r = some u' ∧
      AgreeFrom expiresAt c u.rows u'.rows := by
  obtain ⟨u, hu⟩ := exists_insert hr
  obtain ⟨u', hu'⟩ := exists_insert hr'
  refine ⟨u, u', hu, hu', ?_⟩
  rw [rows_insert hu, rows_insert hu']
  exact h.cons r

end Table

end Dockstack.Base
