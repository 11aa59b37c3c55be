import Mathlib.Data.List.Basic

/-!
# Quoted texts

Go's `%q`, `strconv.Quote`: a text in double quotes, with escapes for the quotes and
backslashes in it and for what is not printed. Which characters are printed is a table,
`isPrint`.
-/

namespace Dockstack.Base

variable (isPrint : Char → Bool)

/-- The last `width` hexadecimal digits of a number. -/
def hexDigits : Nat → Nat → List Char
  | 0, _ => []
  | width + 1, v => hexDigits width (v / 16) ++ [(v % 16).digitChar]

/-- The letters of the escapes for control characters. -/
def controlEscape : Char → Option Char
  | '\x07' => some 'a'
  | '\x08' => some 'b'
  | '\x0c' => some 'f'
  | '\n' => some 'n'
  | '\r' => some 'r'
  | '\t' => some 't'
  | '\x0b' => some 'v'
  | _ => none

/-- `strconv.appendEscapedRune` for a double quote. -/
def escapeRune (c : Char) : List Char :=
  let v := c.val.toNat
  if c = '"' ∨ c = '\\' then ['\\', c]
  else if isPrint c then [c]
  else
    match controlEscape c with
    | some letter => ['\\', letter]
    | none =>
      if v < 0x20 ∨ v = 0x7F then '\\' :: 'x' :: hexDigits 2 v
      else if v < 0x10000 then '\\' :: 'u' :: hexDigits 4 v
      else '\\' :: 'U' :: hexDigits 8 v

/-- A text with escapes. -/
def escape (s : List Char) : List Char := s.flatMap (escapeRune isPrint)

/-- `strconv.Quote`. -/
def quote (s : List Char) : List Char := '"' :: (escape isPrint s ++ ['"'])

variable {isPrint}

private theorem notMem_hexDigits {c : Char} (hc : c = '"' ∨ c = '\n') (width v : Nat) :
    c ∉ hexDigits width v := by
  have hdigits : ∀ n < 16, n.digitChar ≠ '"' ∧ n.digitChar ≠ '\n' := by decide
  induction width generalizing v with
  | zero => exact List.not_mem_nil
  | succ width ih =>
    obtain ⟨hquote, hnewline⟩ := hdigits (v % 16) (Nat.mod_lt v (by decide))
    rw [hexDigits, List.mem_append, List.mem_singleton, not_or]
    refine ⟨ih _, ?_⟩
    rcases hc with rfl | rfl
    · exact hquote.symm
    · exact hnewline.symm

private theorem notMem_controlEscape {c d letter : Char} (hd : d = '"' ∨ d = '\n')
    (h : controlEscape c = some letter) : d ≠ letter := by
  unfold controlEscape at h
  rcases hd with rfl | rfl <;> split at h <;> cases h <;> decide

/-- Escapes are made up of other characters than quotes and line feeds. -/
theorem notMem_escapeRune {c d : Char} (hd : d = '"' ∨ d = '\n') (hne : d ≠ c) :
    d ∉ escapeRune isPrint c := by
  have hslash : d ≠ '\\' := by
    rcases hd with rfl | rfl <;> decide
  have hhex (letter : Char) (hletter : letter ∈ ['x', 'u', 'U']) (width v : Nat) :
      d ∉ '\\' :: letter :: hexDigits width v := by
    have hl : d ≠ letter := by
      rintro rfl
      rcases hd with rfl | rfl <;> exact absurd hletter (by decide)
    simp only [List.mem_cons, not_or]
    exact ⟨hslash, hl, notMem_hexDigits hd width v⟩
  unfold escapeRune
  dsimp only
  split
  · simp [hslash, hne]
  · split
    · simp [hne]
    · split
      · next letter hletter =>
        simp [hslash, notMem_controlEscape hd hletter]
      · split
        · exact hhex 'x' (by decide) 2 _
        · split
          · exact hhex 'u' (by decide) 4 _
          · exact hhex 'U' (by decide) 8 _

/-- Nor is there a line feed in the escapes of a text without one. -/
theorem newline_notMem_escape (isPrint : Char → Bool) {s : List Char} (h : '\n' ∉ s) :
    '\n' ∉ escape isPrint s := by
  intro hmem
  obtain ⟨c, hc, hescape⟩ := List.mem_flatMap.mp hmem
  exact notMem_escapeRune (.inr rfl) (fun heq ↦ h (heq ▸ hc)) hescape

/-- A text has a quote exactly when it has one with escapes. -/
theorem quote_mem_escape_iff (isPrint : Char → Bool) {s : List Char} :
    '"' ∈ escape isPrint s ↔ '"' ∈ s := by
  constructor
  · intro hmem
    obtain ⟨c, hc, hescape⟩ := List.mem_flatMap.mp hmem
    by_contra hno
    exact notMem_escapeRune (.inl rfl) (fun heq ↦ hno (heq ▸ hc)) hescape
  · intro hmem
    exact List.mem_flatMap.mpr ⟨'"', hmem, by simp [escapeRune]⟩

end Dockstack.Base
