import Dockstack.Base.LineScanner

/-!
# Two styles of line breaks

A text with line feeds, written with a carriage return before each of them, and Go's
`strings.ReplaceAll(s, "\r\n", "\n")`, which takes it back.
-/

namespace Dockstack.Base

/-- The carriage return. -/
def carriageReturn : UInt8 := 13

/-- Every line feed becomes a carriage return and a line feed. -/
def toCRLF : Bytes → Bytes
  | [] => []
  | b :: s => if b = newline then carriageReturn :: newline :: toCRLF s else b :: toCRLF s

/-- Every carriage return before a line feed goes. -/
def ofCRLF : Bytes → Bytes
  | [] => []
  | [b] => [b]
  | b :: c :: s =>
    if b = carriageReturn ∧ c = newline then newline :: ofCRLF s else b :: ofCRLF (c :: s)

variable {s t v : Bytes}

@[simp] theorem toCRLF_newline (s : Bytes) :
    toCRLF (newline :: s) = carriageReturn :: newline :: toCRLF s := rfl

theorem toCRLF_cons {b : UInt8} (hb : b ≠ newline) (s : Bytes) :
    toCRLF (b :: s) = b :: toCRLF s := if_neg hb

theorem toCRLF_append (s t : Bytes) : toCRLF (s ++ t) = toCRLF s ++ toCRLF t := by
  induction s with
  | nil => rfl
  | cons b s ih =>
    rw [List.cons_append, toCRLF, toCRLF, ih]
    split <;> rfl

/-- Within a line both styles are the same. -/
theorem toCRLF_of_notMem (h : newline ∉ v) : toCRLF v = v := by
  induction v with
  | nil => rfl
  | cons b v ih =>
    rw [List.mem_cons, not_or] at h
    rw [toCRLF_cons (Ne.symm h.1), ih h.2]

@[simp] theorem ofCRLF_crlf (s : Bytes) :
    ofCRLF (carriageReturn :: newline :: s) = newline :: ofCRLF s := rfl

theorem ofCRLF_cons {b : UInt8} (hb : b ≠ carriageReturn) (s : Bytes) :
    ofCRLF (b :: s) = b :: ofCRLF s := by
  cases s with
  | nil => rfl
  | cons c s => exact if_neg fun h ↦ hb h.1

theorem ofCRLF_append (h : carriageReturn ∉ v) (s : Bytes) :
    ofCRLF (v ++ s) = v ++ ofCRLF s := by
  induction v with
  | nil => rfl
  | cons b v ih =>
    rw [List.mem_cons, not_or] at h
    rw [List.cons_append, ofCRLF_cons (Ne.symm h.1), ih h.2, List.cons_append]

/-- What was written with carriage returns is taken back. -/
theorem ofCRLF_toCRLF_append (h : carriageReturn ∉ v) (s : Bytes) :
    ofCRLF (toCRLF v ++ s) = v ++ ofCRLF s := by
  induction v with
  | nil => rfl
  | cons b v ih =>
    rw [List.mem_cons, not_or] at h
    by_cases hb : b = newline
    · rw [hb, toCRLF_newline, List.cons_append, List.cons_append, ofCRLF_crlf, ih h.2,
        List.cons_append]
    · rw [toCRLF_cons hb, List.cons_append, ofCRLF_cons (Ne.symm h.1), ih h.2, List.cons_append]

/-- Spaces are dropped in both styles alike. -/
theorem dropWhile_toCRLF {p : UInt8 → Bool} (hcr : p carriageReturn = true)
    (hnl : p newline = true) (s : Bytes) :
    (toCRLF s).dropWhile p = toCRLF (s.dropWhile p) := by
  induction s with
  | nil => rfl
  | cons b s ih =>
    by_cases hb : b = newline
    · rw [hb, toCRLF_newline, List.dropWhile_cons_of_pos hcr, List.dropWhile_cons_of_pos hnl,
        List.dropWhile_cons_of_pos hnl, ih]
    · rw [toCRLF_cons hb]
      by_cases hp : p b = true
      · rw [List.dropWhile_cons_of_pos hp, List.dropWhile_cons_of_pos hp, ih]
      · rw [List.dropWhile_cons_of_neg hp, List.dropWhile_cons_of_neg hp, toCRLF_cons hb]

/-- What a text begins with within a line, it begins with in both styles. -/
theorem exists_of_toCRLF_eq_append (hcr : carriageReturn ∉ v) (hnl : newline ∉ v)
    (h : toCRLF s = v ++ t) : ∃ u, s = v ++ u ∧ t = toCRLF u := by
  induction v generalizing s with
  | nil => exact ⟨s, rfl, h.symm⟩
  | cons b v ih =>
    rw [List.mem_cons, not_or] at hcr hnl
    cases s with
    | nil => cases h
    | cons c s =>
      by_cases hc : c = newline
      · rw [hc, toCRLF_newline] at h
        exact absurd (List.cons.inj h).1 hcr.1
      · rw [toCRLF_cons hc] at h
        obtain ⟨rfl, htail⟩ := List.cons.inj h
        obtain ⟨u, rfl, rfl⟩ := ih hcr.2 hnl.2 htail
        exact ⟨u, rfl, rfl⟩

/-! ## Carriage returns in a text -/

/-- A text with no carriage return before a line feed, nor before what follows, stays. -/
theorem ofCRLF_append_of_plain (h : ¬ [carriageReturn, newline] <:+: v ++ s.take 1) :
    ofCRLF (v ++ s) = v ++ ofCRLF s := by
  induction v with
  | nil => rfl
  | cons b v ih =>
    rw [List.cons_append, List.infix_cons_iff, not_or] at h
    have hrest : ofCRLF (b :: (v ++ s)) = b :: ofCRLF (v ++ s) := by
      cases hvs : v ++ s with
      | nil => rfl
      | cons c u =>
        refine if_neg fun hbc ↦ h.1 ?_
        have hhead : (v ++ s.take 1).head? = some c := by
          cases v with
          | nil => rw [List.nil_append] at hvs ⊢; rw [hvs]; rfl
          | cons d v => exact congrArg List.head? hvs
        obtain ⟨u', hu'⟩ := List.head?_eq_some_iff.mp hhead
        exact ⟨u', by rw [hu', hbc.1, hbc.2]; rfl⟩
    rw [List.cons_append, hrest, ih h.2, List.cons_append]

/-- What stays has no carriage return before a line feed. -/
theorem not_infix_of_ofCRLF_append (h : ofCRLF (v ++ s) = v ++ t) :
    ¬ [carriageReturn, newline] <:+: v := by
  induction v with
  | nil => simp
  | cons b v ih =>
    cases v with
    | nil => simp [List.infix_cons_iff]
    | cons c v =>
      rw [List.infix_cons_iff, not_or]
      have hbegins : ¬ [carriageReturn, newline] <+: b :: c :: v := by
        rintro ⟨u, hu⟩
        rw [← hu] at h
        exact absurd (List.cons.inj h).1 (by decide)
      have hkept : ofCRLF (b :: c :: v ++ s) = b :: ofCRLF (c :: v ++ s) := by
        refine if_neg fun hbc ↦ hbegins ⟨v, ?_⟩
        rw [hbc.1, hbc.2]
        rfl
      rw [hkept] at h
      exact ⟨hbegins, ih (List.cons.inj h).2⟩

/-- Two texts that go on alike for a byte. -/
theorem ofCRLF_append_eq_iff (h : s.take 1 = t.take 1) :
    ofCRLF (v ++ s) = v ++ t ↔
      ¬ [carriageReturn, newline] <:+: v ++ s.take 1 ∧ ofCRLF s = t := by
  constructor
  · intro heq
    have hplain : ¬ [carriageReturn, newline] <:+: v ++ s.take 1 := by
      rw [← List.take_append_drop 1 s, ← List.take_append_drop 1 t, ← h, ← List.append_assoc,
        ← List.append_assoc] at heq
      exact not_infix_of_ofCRLF_append heq
    rw [ofCRLF_append_of_plain hplain] at heq
    exact ⟨hplain, List.append_cancel_left heq⟩
  · rintro ⟨hplain, rfl⟩
    exact ofCRLF_append_of_plain hplain

end Dockstack.Base
