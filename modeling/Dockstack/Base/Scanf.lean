import Dockstack.Base.Words
import Mathlib.Algebra.Group.Nat.Defs

/-!
# Formatted integers

Go's `fmt.Sprintf` and `fmt.Sscanf` for formats of literal text and `%d` verbs on unsigned
integers. A scan skips the white space before a number, stops after the last verb or literal, and
fails on a line feed, a missing digit or a number that does not fit. What was printed is read back
where the text after each number does not go on with a digit.
-/

namespace Dockstack.Base

/-- A part of a format: text without white space, or `%d` into an integer of that many bits. -/
inductive FormatPart where
  | text (s : List Char) (plain : s.all (!isSpace ·) = true)
  | uint (bits : Nat)

/-- `fmt.Sprintf`; a missing argument ends it. -/
def sprintf : List FormatPart → List Nat → List Char
  | [], _ => []
  | .text s _ :: parts, args => s ++ sprintf parts args
  | .uint _ :: parts, n :: args => Nat.toDigits 10 n ++ sprintf parts args
  | .uint _ :: _, [] => []

/-- `SkipSpace`; `none` is an unexpected line feed. -/
def skipSpace : List Char → Option (List Char)
  | [] => some []
  | c :: cs => if c = '\n' then none else if isSpace c then skipSpace cs else some (c :: cs)

/-- `scanUint` in base 10: the number and what follows it. -/
def scanUint (bits : Nat) (input : List Char) : Option (Nat × List Char) := do
  let input ← skipSpace input
  let digits := input.takeWhile (·.isDigit)
  guard (digits ≠ [])
  let n := Nat.ofDigitChars 10 digits 0
  guard (n < 2 ^ 64 ∧ n < 2 ^ bits)
  some (n, input.dropWhile (·.isDigit))

/-- `fmt.Sscanf`, with the numbers that are stored; `none` is an error. -/
def sscanf : List FormatPart → List Char → Option (List Nat)
  | [], _ => some []
  | .text s _ :: parts, input =>
    if s <+: input then sscanf parts (input.drop s.length) else none
  | .uint bits :: parts, input => do
    let (n, rest) ← scanUint bits input
    let ns ← sscanf parts rest
    some (n :: ns)

/-- The arguments fit, and no digit follows a number. -/
def Readable : List FormatPart → List Nat → Prop
  | [], [] => True
  | .text _ _ :: parts, args => Readable parts args
  | .uint bits :: parts, n :: args => n < 2 ^ 64 ∧ n < 2 ^ bits ∧
    (∀ c ∈ (sprintf parts args).head?, c.isDigit = false) ∧ Readable parts args
  | _, _ => False

private theorem skipSpace_digit {c : Char} (hc : c.isDigit = true) (cs : List Char) :
    skipSpace (c :: cs) = some (c :: cs) := by
  have hrange := isDigit_iff.mp hc
  have hnewline : c ≠ '\n' := by
    rintro rfl
    contradiction
  have hspace : isSpace c = false := by
    have hv : c.val.toNat = c.toNat := rfl
    simp only [isSpace, hv, Bool.or_eq_false_iff, Bool.and_eq_false_iff, decide_eq_false_iff_not,
      beq_eq_false_iff_ne]
    omega
  rw [skipSpace, if_neg hnewline, hspace]
  rfl

/-- A printed number is read back. -/
theorem scanUint_toDigits {bits n : Nat} (hn : n < 2 ^ 64) (hbits : n < 2 ^ bits)
    {rest : List Char} (hrest : ∀ c ∈ rest.head?, c.isDigit = false) :
    scanUint bits (Nat.toDigits 10 n ++ rest) = some (n, rest) := by
  have hdigits : ∀ c ∈ Nat.toDigits 10 n, c.isDigit = true := fun c hc ↦
    Nat.isDigit_of_mem_toDigits (by decide) (by decide) hc
  have hskip : skipSpace (Nat.toDigits 10 n ++ rest) = some (Nat.toDigits 10 n ++ rest) := by
    cases hd : Nat.toDigits 10 n with
    | nil => exact absurd hd Nat.toDigits_ne_nil
    | cons c cs => exact skipSpace_digit (hdigits c (hd ▸ List.mem_cons_self)) _
  have hstop : rest.takeWhile (·.isDigit) = [] ∧ rest.dropWhile (·.isDigit) = rest := by
    cases rest with
    | nil => exact ⟨rfl, rfl⟩
    | cons c cs =>
      have hc := hrest c rfl
      exact ⟨List.takeWhile_cons_of_neg (by simp [hc]), List.dropWhile_cons_of_neg (by simp [hc])⟩
  have htake : (Nat.toDigits 10 n ++ rest).takeWhile (·.isDigit) = Nat.toDigits 10 n := by
    rw [List.takeWhile_append_of_pos hdigits, hstop.1, List.append_nil]
  have hdrop : (Nat.toDigits 10 n ++ rest).dropWhile (·.isDigit) = rest := by
    rw [List.dropWhile_append_of_pos hdigits, hstop.2]
  rw [scanUint, hskip]
  simp only [Option.bind_eq_bind, Option.bind_some, htake, hdrop, guard,
    Nat.ofDigitChars_ten_toDigits]
  rw [if_pos Nat.toDigits_ne_nil, if_pos ⟨hn, hbits⟩]
  rfl

/-- What was printed is read back. -/
theorem sscanf_sprintf {parts : List FormatPart} {args : List Nat} (h : Readable parts args) :
    sscanf parts (sprintf parts args) = some args := by
  induction parts generalizing args with
  | nil =>
    cases args with
    | nil => rfl
    | cons n args => cases h
  | cons part parts ih =>
    cases part with
    | text s plain =>
      rw [sprintf, sscanf, if_pos (List.prefix_append _ _), List.drop_left]
      exact ih h
    | uint bits =>
      cases args with
      | nil => cases h
      | cons n args =>
        obtain ⟨hn, hbits, hhead, hrest⟩ := h
        rw [sprintf, sscanf, scanUint_toDigits hn hbits hhead]
        simp only [Option.bind_eq_bind, Option.bind_some, ih hrest]

end Dockstack.Base
