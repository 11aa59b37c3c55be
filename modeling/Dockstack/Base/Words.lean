import Mathlib.Data.List.DropRight

/-!
# Words of a text

Go's `unicode.IsSpace`, and `strings.Fields` and `strings.TrimSpace` over it. The ASCII letters and
digits as ranges.
-/

namespace Dockstack.Base

/-- `unicode.IsSpace`. -/
def isSpace (c : Char) : Bool :=
  let v := c.val.toNat
  (0x09 ≤ v && v ≤ 0x0D) || v == 0x20 || v == 0x85 || v == 0xA0 || v == 0x1680 ||
    (0x2000 ≤ v && v ≤ 0x200A) || v == 0x2028 || v == 0x2029 || v == 0x202F || v == 0x205F ||
    v == 0x3000

/-- `A–Z`. -/
theorem isUpper_iff {c : Char} : c.isUpper = true ↔ 65 ≤ c.toNat ∧ c.toNat ≤ 90 := by
  have h : c.isUpper = true ↔ 65 ≤ c.val ∧ c.val ≤ 90 := decide_eq_true_iff
  rw [h, UInt32.le_iff_toNat_le, UInt32.le_iff_toNat_le]
  rfl

/-- `a–z`. -/
theorem isLower_iff {c : Char} : c.isLower = true ↔ 97 ≤ c.toNat ∧ c.toNat ≤ 122 := by
  have h : c.isLower = true ↔ 97 ≤ c.val ∧ c.val ≤ 122 :=
    Bool.and_eq_true_iff.trans (and_congr decide_eq_true_iff decide_eq_true_iff)
  rw [h, UInt32.le_iff_toNat_le, UInt32.le_iff_toNat_le]
  rfl

/-- `0–9`. -/
theorem isDigit_iff {c : Char} : c.isDigit = true ↔ 48 ≤ c.toNat ∧ c.toNat ≤ 57 := by
  have h : c.isDigit = true ↔ 48 ≤ c.val ∧ c.val ≤ 57 :=
    Bool.and_eq_true_iff.trans (and_congr decide_eq_true_iff decide_eq_true_iff)
  rw [h, UInt32.le_iff_toNat_le, UInt32.le_iff_toNat_le]
  rfl

/-- `A–Za–z0–9`. -/
theorem isAlphanum_iff {c : Char} : c.isAlphanum = true ↔
    c.isUpper = true ∨ c.isLower = true ∨ c.isDigit = true := by
  have h : c.isAlpha = true ↔ c.isUpper = true ∨ c.isLower = true := Bool.or_eq_true_iff
  rw [← or_assoc, ← h]
  exact Bool.or_eq_true_iff

/-- `strings.Fields`. -/
def fields (s : List Char) : List (List Char) := (s.splitOnP isSpace).filter (!·.isEmpty)

/-- `strings.TrimSpace`. -/
def trimSpace (s : List Char) : List Char := (s.dropWhile isSpace).rdropWhile isSpace

/-- A word is not empty and has no space in it. -/
def IsWord (s : List Char) : Prop := s ≠ [] ∧ ∀ c ∈ s, isSpace c = false

instance : DecidablePred IsWord := fun s ↦
  have := List.decidableBAll (fun c ↦ isSpace c = false) s
  inferInstanceAs (Decidable (s ≠ [] ∧ ∀ c ∈ s, isSpace c = false))

private theorem forall_of_mem_splitOnP {s w : List Char} (h : w ∈ s.splitOnP isSpace) :
    ∀ c ∈ w, isSpace c = false := by
  induction s generalizing w with
  | nil => simp_all
  | cons c s ih =>
    rw [List.splitOnP_cons_eq_if_modifyHead] at h
    split at h
    · rcases List.mem_cons.mp h with rfl | h
      · simp
      · exact ih h
    · next hc =>
      cases hs : s.splitOnP isSpace with
      | nil => exact absurd hs (List.splitOnP_ne_nil isSpace s)
      | cons v vs =>
        rw [hs] at h ih
        rcases List.mem_cons.mp h with rfl | h
        · exact List.forall_mem_cons.mpr ⟨by simpa using hc, ih List.mem_cons_self⟩
        · exact ih (List.mem_cons_of_mem v h)

/-- The fields of a text are words. -/
theorem isWord_of_mem_fields {s w : List Char} (h : w ∈ fields s) : IsWord w := by
  obtain ⟨hw, hne⟩ := List.mem_filter.mp h
  exact ⟨by simpa using hne, forall_of_mem_splitOnP hw⟩

/-- A word is its own field. -/
theorem fields_word {w : List Char} (h : IsWord w) : fields w = [w] := by
  rw [fields, List.splitOnP_eq_singleton h.2]
  simp [h.1]

/-- A space ends a word. -/
theorem fields_append {w : List Char} (h : IsWord w) {c : Char} (hc : isSpace c = true)
    (s : List Char) : fields (w ++ c :: s) = w :: fields s := by
  rw [fields, List.splitOnP_append_cons_of_forall_mem h.2 c hc, List.filter_cons_of_pos, fields]
  simp [h.1]

/-- A text between other characters than spaces has nothing to trim. -/
theorem trimSpace_eq_self {c d : Char} {s : List Char} (hc : s.head? = some c)
    (hcSpace : isSpace c = false) (hd : s.getLast? = some d) (hdSpace : isSpace d = false) :
    trimSpace s = s := by
  obtain ⟨t, ht⟩ := List.head?_eq_some_iff.mp hc
  obtain ⟨u, hu⟩ := List.getLast?_eq_some_iff.mp hd
  have hdrop : s.dropWhile isSpace = s := by
    rw [ht, List.dropWhile_cons_of_neg (by rw [hcSpace]; decide)]
  rw [trimSpace, hdrop, hu, List.rdropWhile_concat_neg _ _ _ (by rw [hdSpace]; decide)]

end Dockstack.Base
