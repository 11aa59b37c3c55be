import Mathlib.Data.List.AList

/-!
# Finite maps

A map with unique keys, as Go's built-in `map` with comparable keys: association
lists carry key uniqueness as a field. Mathlib supplies lookup, insertion and
erasure; this module adds the entry count and deletion while ranging.
-/

namespace Dockstack.Base

/-- A finite map from `K` to `V`; key uniqueness is a field of `AList`. -/
abbrev KeyMap (K V : Type) := AList (fun _ : K ↦ V)

namespace KeyMap

variable {K V : Type}

/-- Number of entries, Go's `len(m)`. -/
def size (m : KeyMap K V) : Nat := m.keys.length

/-- Keep the entries that satisfy `p`: a `range` loop that deletes the others. -/
def filter (p : K → V → Bool) (m : KeyMap K V) : KeyMap K V where
  entries := m.entries.filter (fun e ↦ p e.1 e.2)
  nodupKeys := m.nodupKeys.sublist List.filter_sublist

/-- Keeping some entries gives no more of them. -/
theorem size_filter_le (p : K → V → Bool) (m : KeyMap K V) : (m.filter p).size ≤ m.size := by
  simp only [size, AList.keys, List.keys, List.length_map]
  exact List.length_filter_le _ _

variable [DecidableEq K]

/-- The value at a key, Go's `v, ok := m[k]`. -/
def get? (m : KeyMap K V) (k : K) : Option V := m.lookup k

/-- The empty map has no values. -/
@[simp] theorem get?_empty (k : K) : get? (∅ : KeyMap K V) k = none := rfl

/-- Insertion sets the value at its own key only. -/
theorem get?_insert (m : KeyMap K V) (k k' : K) (v : V) :
    get? (m.insert k v) k' = if k' = k then some v else m.get? k' := by
  by_cases h : k' = k
  · subst h
    rw [if_pos rfl]
    exact AList.lookup_insert m
  · rw [if_neg h]
    exact AList.lookup_insert_ne h

/-- Erasure removes its own key only. -/
theorem get?_erase (m : KeyMap K V) (k k' : K) :
    get? (m.erase k) k' = if k' = k then none else m.get? k' := by
  by_cases h : k' = k
  · subst h
    rw [if_pos rfl]
    exact AList.lookup_erase k' m
  · rw [if_neg h]
    exact AList.lookup_erase_ne h

/-- Erasure gives no more entries. -/
theorem size_erase_le (m : KeyMap K V) (k : K) : size (m.erase k) ≤ m.size := by
  rw [size, AList.keys_erase]
  exact List.length_erase_le

/-- Insertion gives one more entry at most. -/
theorem size_insert_le (m : KeyMap K V) (k : K) (v : V) : size (m.insert k v) ≤ m.size + 1 := by
  rw [size, AList.keys_insert, List.length_cons]
  exact Nat.succ_le_succ List.length_erase_le

/-- Insertion at a key that has a value gives no more entries. -/
theorem size_insert_of_isSome {m : KeyMap K V} {k : K} (h : (m.get? k).isSome = true) (v : V) :
    size (m.insert k v) = m.size := by
  have hk : k ∈ m.keys := AList.lookup_isSome.mp h
  have hpos := List.length_pos_of_mem hk
  rw [size, AList.keys_insert, List.length_cons, List.length_erase_of_mem hk]
  exact Nat.sub_add_cancel hpos

/-- Of entries inserted one after the other the last one for a key stays. -/
theorem get?_foldl_insert {A : Type} (key : A → K) (value : A → V) (as : List A) (m : KeyMap K V)
    (k : K) : get? (as.foldl (fun m a ↦ m.insert (key a) (value a)) m) k =
      ((as.reverse.find? (key · = k)).map value).or (m.get? k) := by
  induction as generalizing m with
  | nil => rfl
  | cons a as ih =>
    rw [List.foldl_cons, ih, get?_insert, List.reverse_cons, List.find?_append, Option.map_or,
      Option.or_assoc]
    by_cases h : key a = k
    · simp [h]
    · simp [h, Ne.symm h]

/-- If their keys are different, all of them do. -/
theorem get?_foldl_insert_eq_some {A : Type} {key : A → K} {value : A → V} {as : List A}
    (h : (as.map key).Nodup) {k : K} {v : V} :
    get? (as.foldl (fun m a ↦ m.insert (key a) (value a)) ∅) k = some v ↔
      ∃ a ∈ as, key a = k ∧ value a = v := by
  rw [get?_foldl_insert, get?_empty, Option.or_none, Option.map_eq_some_iff]
  apply exists_congr
  intro a
  constructor
  · rintro ⟨ha, hv⟩
    have hkey := List.find?_some ha
    exact ⟨List.mem_reverse.mp (List.mem_of_find?_eq_some ha), by simpa using hkey, hv⟩
  · rintro ⟨ha, rfl, hv⟩
    have hfound : (as.reverse.find? (key · = key a)).isSome :=
      List.find?_isSome.mpr ⟨a, List.mem_reverse.mpr ha, by simp⟩
    obtain ⟨a', ha'⟩ := Option.isSome_iff_exists.mp hfound
    have hkey := List.find?_some ha'
    have hmem := List.mem_reverse.mp (List.mem_of_find?_eq_some ha')
    exact ⟨by rw [ha', List.inj_on_of_nodup_map h hmem ha (by simpa using hkey)], hv⟩

/-- A value is kept exactly when it satisfies the predicate. -/
theorem get?_filter (p : K → V → Bool) (m : KeyMap K V) (k : K) :
    (m.filter p).get? k = (m.get? k).filter (p k) := by
  apply Option.ext
  intro v
  rw [Option.filter_eq_some_iff]
  change v ∈ (m.filter p).lookup k ↔ v ∈ m.lookup k ∧ _
  rw [AList.mem_lookup_iff, AList.mem_lookup_iff]
  exact List.mem_filter

end KeyMap
end Dockstack.Base
