import Dockstack.Base.Utf8

/-!
# Lines of bytes and lines of text

A streaming UTF-8 decoder reads the lines of a text one by one, whatever their bytes are: an ASCII
byte ends a character that is not complete, and what is malformed never turns into a line feed.
-/

namespace Dockstack.Base.Utf8Decoder

/-- What stands for a character that ends before its last byte. -/
def flush (d : Utf8Decoder) : List Char := if d.needed = 0 then [] else ['\uFFFD']

/-- The text of a sequence of bytes on its own. -/
def text (bs : Bytes) : List Char := (init.run bs).2 ++ (init.run bs).1.flush

/-- The bytes of a character so far are the beginning of its shortest form, and it is not ASCII. -/
structure Shortest (d : Utf8Decoder) : Prop where
  lower : 0x80 ≤ d.lower
  upper : d.upper ≤ 0xBF
  needed : d.needed ≤ 3
  one : d.needed = 1 → 2 ≤ d.codePoint
  two : d.needed = 2 → 1 ≤ d.codePoint ∨ 0xA0 ≤ d.lower
  three : d.needed = 3 → 1 ≤ d.codePoint ∨ 0x90 ≤ d.lower

private theorem eq_ten_of_ofNat {v : Nat} (h : '\n' = Char.ofNat v) : v = 10 := by
  by_cases hv : v.isValidChar
  · have hval : (Char.ofNat v).toNat = v := by
      rw [Char.ofNat, dif_pos hv]
      rfl
    rw [← hval, ← h]
    rfl
  · have hzero : Char.ofNat v = Char.ofNat 0 := by
      rw [Char.ofNat, dif_neg hv]
      rfl
    rw [hzero] at h
    contradiction

/-- Between two characters. -/
theorem shortest_init : init.Shortest :=
  ⟨by decide, by decide, by decide, nofun, nofun, nofun⟩

private theorem shortest_first (b : UInt8) : (first b).1.Shortest := by
  unfold first
  dsimp only
  split
  · exact shortest_init
  · split
    · next hv =>
      refine ⟨Nat.le_refl 0x80, Nat.le_refl 0xBF, (by decide : 1 ≤ 3), fun _ ↦ ?_, nofun, nofun⟩
      show 2 ≤ b.toNat % 0x20
      omega
    · split
      · next hv =>
        refine ⟨?_, ?_, (by decide : 2 ≤ 3), nofun, fun _ ↦ ?_, nofun⟩
        · show 0x80 ≤ if b.toNat = 0xE0 then 0xA0 else 0x80
          split
          · decide
          · decide
        · show (if b.toNat = 0xED then 0x9F else 0xBF) ≤ 0xBF
          split
          · decide
          · decide
        · show 1 ≤ b.toNat % 0x10 ∨ 0xA0 ≤ if b.toNat = 0xE0 then 0xA0 else 0x80
          split
          · exact .inr (by decide)
          · exact .inl (by omega)
      · split
        · next hv =>
          refine ⟨?_, ?_, (by decide : 3 ≤ 3), nofun, nofun, fun _ ↦ ?_⟩
          · show 0x80 ≤ if b.toNat = 0xF0 then 0x90 else 0x80
            split
            · decide
            · decide
          · show (if b.toNat = 0xF4 then 0x8F else 0xBF) ≤ 0xBF
            split
            · decide
            · decide
          · show 1 ≤ b.toNat % 0x08 ∨ 0x90 ≤ if b.toNat = 0xF0 then 0x90 else 0x80
            split
            · exact .inr (by decide)
            · exact .inl (by omega)
        · exact shortest_init

private theorem newline_of_first {b : UInt8} (h : '\n' ∈ (first b).2) : b = newline := by
  unfold first at h
  dsimp only at h
  split at h
  · next hv =>
    apply UInt8.toNat.inj
    exact eq_ten_of_ofNat (List.mem_singleton.mp h)
  · split at h
    · contradiction
    · split at h
      · contradiction
      · split at h
        · contradiction
        · exact absurd (List.mem_singleton.mp h) (by decide)

/-- Every byte keeps this. -/
theorem Shortest.step {d : Utf8Decoder} (h : d.Shortest) (b : UInt8) : (d.step b).1.Shortest := by
  have hlower := h.lower
  have hupper := h.upper
  have hneeded := h.needed
  unfold Utf8Decoder.step
  dsimp only
  split
  · exact shortest_first b
  · next hsome =>
    split
    · exact shortest_first b
    · next hrange =>
      split
      · exact shortest_init
      · next hone =>
        have hb : b.toNat < 256 := b.toNat_lt
        have htwo := h.two
        have hthree := h.three
        refine ⟨Nat.le_refl 0x80, Nat.le_refl 0xBF, ?_, fun hn ↦ ?_, fun hn ↦ ?_, fun hn ↦ ?_⟩
        · show d.needed - 1 ≤ 3
          omega
        · show 2 ≤ d.codePoint * 0x40 + b.toNat % 0x40
          replace hn : d.needed - 1 = 1 := hn
          omega
        · left
          show 1 ≤ d.codePoint * 0x40 + b.toNat % 0x40
          replace hn : d.needed - 1 = 2 := hn
          omega
        · replace hn : d.needed - 1 = 3 := hn
          omega

/-- Every sequence of bytes keeps this. -/
theorem Shortest.run {d : Utf8Decoder} (h : d.Shortest) (bs : Bytes) : (d.run bs).1.Shortest := by
  induction bs generalizing d with
  | nil => exact h
  | cons b bs ih => exact ih (h.step b)

private theorem Shortest.newline_of_step {d : Utf8Decoder} (h : d.Shortest) {b : UInt8}
    (hmem : '\n' ∈ (d.step b).2) : b = newline := by
  unfold Utf8Decoder.step at hmem
  dsimp only at hmem
  split at hmem
  · exact newline_of_first hmem
  · split at hmem
    · rcases List.mem_cons.mp hmem with hmem | hmem
      · contradiction
      · exact newline_of_first hmem
    · split at hmem
      · next hone =>
        have hcode := h.one hone
        have hten := eq_ten_of_ofNat (List.mem_singleton.mp hmem)
        omega
      · contradiction

private theorem Shortest.newline_notMem_run {d : Utf8Decoder} (h : d.Shortest) {bs : Bytes}
    (hbs : newline ∉ bs) : '\n' ∉ (d.run bs).2 := by
  induction bs generalizing d with
  | nil => exact List.not_mem_nil
  | cons b bs ih =>
    rw [List.mem_cons, not_or] at hbs
    rw [Utf8Decoder.run, List.mem_append, not_or]
    exact ⟨fun hmem ↦ hbs.1 (h.newline_of_step hmem).symm, ih (h.step b) hbs.2⟩

/-- A line of bytes is a line of text. -/
theorem newline_notMem_text {bs : Bytes} (h : newline ∉ bs) : '\n' ∉ text bs := by
  rw [text, List.mem_append, not_or]
  refine ⟨shortest_init.newline_notMem_run h, ?_⟩
  rw [flush]
  split
  · exact List.not_mem_nil
  · decide

private theorem Shortest.step_newline {d : Utf8Decoder} (h : d.Shortest) :
    d.step newline = (init, d.flush ++ ['\n']) := by
  have hlower := h.lower
  unfold Utf8Decoder.step
  dsimp only
  rw [flush]
  split
  · rfl
  · have hlow : newline.toNat < d.lower := by
      show 10 < d.lower
      omega
    rw [if_pos (.inl hlow)]
    rfl

/-- The decoder reads a line as it would on its own, and starts again after it. -/
theorem run_line (bs rest : Bytes) :
    init.run (bs ++ newline :: rest) =
      ((init.run rest).1, text bs ++ '\n' :: (init.run rest).2) := by
  have hstep := (shortest_init.run bs).step_newline
  rw [run_append, run, hstep, text, List.append_assoc]
  dsimp only
  rw [List.append_assoc]
  rfl

end Dockstack.Base.Utf8Decoder
