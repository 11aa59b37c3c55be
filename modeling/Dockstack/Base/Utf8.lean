import Dockstack.Base.LineScanner

/-!
# Streaming UTF-8

The UTF-8 decoder of the Encoding Standard, which web platforms run byte by byte: it keeps
the code point under construction, how many bytes are to come and the range of the next
one, and puts U+FFFD for what is malformed. `TextDecoder` feeds it chunks and drops a
leading byte order mark.
-/

namespace Dockstack.Base

/-- The bytes of a string in UTF-8. -/
def utf8Encode (s : List Char) : Bytes := s.flatMap String.utf8EncodeChar

/-- The decoder between two bytes. -/
structure Utf8Decoder where
  codePoint : Nat
  needed : Nat
  lower : Nat
  upper : Nat
  deriving DecidableEq

namespace Utf8Decoder

/-- Between two characters. -/
def init : Utf8Decoder := ⟨0, 0, 0x80, 0xBF⟩

/-- The first byte of a character. -/
def first (b : UInt8) : Utf8Decoder × List Char :=
  let v := b.toNat
  if v ≤ 0x7F then (init, [Char.ofNat v])
  else if 0xC2 ≤ v ∧ v ≤ 0xDF then (⟨v % 0x20, 1, 0x80, 0xBF⟩, [])
  else if 0xE0 ≤ v ∧ v ≤ 0xEF then
    (⟨v % 0x10, 2, if v = 0xE0 then 0xA0 else 0x80, if v = 0xED then 0x9F else 0xBF⟩, [])
  else if 0xF0 ≤ v ∧ v ≤ 0xF4 then
    (⟨v % 0x08, 3, if v = 0xF0 then 0x90 else 0x80, if v = 0xF4 then 0x8F else 0xBF⟩, [])
  else (init, ['\uFFFD'])

/-- One byte: the decoder after it, and the characters that it completes. A byte that
cannot continue a character ends it and is looked at again. -/
def step (d : Utf8Decoder) (b : UInt8) : Utf8Decoder × List Char :=
  let v := b.toNat
  if d.needed = 0 then first b
  else if v < d.lower ∨ d.upper < v then ((first b).1, '\uFFFD' :: (first b).2)
  else
    let codePoint := d.codePoint * 0x40 + v % 0x40
    if d.needed = 1 then (init, [Char.ofNat codePoint])
    else (⟨codePoint, d.needed - 1, 0x80, 0xBF⟩, [])

/-- A sequence of bytes. -/
def run : Utf8Decoder → Bytes → Utf8Decoder × List Char
  | d, [] => (d, [])
  | d, b :: bs => ((run (d.step b).1 bs).1, (d.step b).2 ++ (run (d.step b).1 bs).2)

/-- It does not matter where the input is cut. -/
theorem run_append (d : Utf8Decoder) (bs bs' : Bytes) :
    d.run (bs ++ bs') =
      (((d.run bs).1.run bs').1, (d.run bs).2 ++ ((d.run bs).1.run bs').2) := by
  induction bs generalizing d with
  | nil => rfl
  | cons b bs ih => rw [List.cons_append, run, ih, run, List.append_assoc]

private theorem scalar_range (c : Char) : c.val.toNat < 0xD800 ∨
    (0xDFFF < c.val.toNat ∧ c.val.toNat < 0x110000) := c.valid

private theorem toNat_byte (v : Nat) (h : v < 0x100) : (UInt8.ofNat v).toNat = v :=
  UInt8.toNat_ofNat_of_lt' h

private theorem step_continuation {v codePoint needed lower upper : Nat} (hn : needed ≠ 0)
    (hl : lower ≤ v % 0x40 + 0x80) (hu : v % 0x40 + 0x80 ≤ upper) :
    (⟨codePoint, needed, lower, upper⟩ : Utf8Decoder).step (UInt8.ofNat (v % 0x40 + 0x80)) =
      if needed = 1 then (init, [Char.ofNat (codePoint * 0x40 + v % 0x40)])
      else (⟨codePoint * 0x40 + v % 0x40, needed - 1, 0x80, 0xBF⟩, []) := by
  have hb := toNat_byte (v % 0x40 + 0x80) (by omega)
  have hm : (v % 0x40 + 0x80) % 0x40 = v % 0x40 := by omega
  simp only [step, hb, hm]
  rw [if_neg hn, if_neg (by omega)]

private theorem first_two {v : Nat} (hl : 0x7F < v) (hu : v ≤ 0x7FF) :
    first (UInt8.ofNat (v / 64 % 0x20 + 0xC0)) = (⟨v / 64, 1, 0x80, 0xBF⟩, []) := by
  have hb := toNat_byte (v / 64 % 0x20 + 0xC0) (by omega)
  have hm : (v / 64 % 0x20 + 0xC0) % 0x20 = v / 64 := by omega
  simp only [first, hb, hm]
  rw [if_neg (by omega), if_pos (by omega)]

private theorem first_three {v : Nat} (hu : v ≤ 0xFFFF) :
    first (UInt8.ofNat (v / 4096 % 0x10 + 0xE0)) =
      (⟨v / 4096, 2, if v / 4096 = 0 then 0xA0 else 0x80,
        if v / 4096 = 0xD then 0x9F else 0xBF⟩, []) := by
  have hb := toNat_byte (v / 4096 % 0x10 + 0xE0) (by omega)
  have hm : (v / 4096 % 0x10 + 0xE0) % 0x10 = v / 4096 := by omega
  have h0 : v / 4096 % 0x10 + 0xE0 = 0xE0 ↔ v / 4096 = 0 := by omega
  have hD : v / 4096 % 0x10 + 0xE0 = 0xED ↔ v / 4096 = 0xD := by omega
  simp only [first, hb, hm, h0, hD]
  rw [if_neg (by omega), if_neg (by omega), if_pos (by omega)]

private theorem first_four {v : Nat} (hu : v < 0x110000) :
    first (UInt8.ofNat (v / 262144 % 0x08 + 0xF0)) =
      (⟨v / 262144, 3, if v / 262144 = 0 then 0x90 else 0x80,
        if v / 262144 = 4 then 0x8F else 0xBF⟩, []) := by
  have hb := toNat_byte (v / 262144 % 0x08 + 0xF0) (by omega)
  have hm : (v / 262144 % 0x08 + 0xF0) % 0x08 = v / 262144 := by omega
  have h0 : v / 262144 % 0x08 + 0xF0 = 0xF0 ↔ v / 262144 = 0 := by omega
  have h4 : v / 262144 % 0x08 + 0xF0 = 0xF4 ↔ v / 262144 = 4 := by omega
  simp only [first, hb, hm, h0, h4]
  rw [if_neg (by omega), if_neg (by omega), if_neg (by omega), if_pos (by omega)]

/-- The bytes of one character decode to it. -/
theorem run_utf8EncodeChar (c : Char) : init.run (String.utf8EncodeChar c) = (init, [c]) := by
  have hv := scalar_range c
  have hc : Char.ofNat c.val.toNat = c := Char.ofNat_toNat c
  have hstep : ∀ b, init.step b = first b := fun _ ↦ rfl
  unfold String.utf8EncodeChar
  generalize c.val.toNat = v at hv hc
  -- one, two, three or four bytes
  dsimp only
  split
  · next h1 =>
    have hb := toNat_byte v (by omega)
    simp only [run, hstep, first, hb, if_pos h1, List.append_nil, hc]
  · next h1 =>
    split
    · next h2 =>
      have hcp : v / 64 * 0x40 + v % 0x40 = v := by omega
      simp only [run, hstep, first_two (by omega) h2]
      rw [step_continuation (by omega) (by omega) (by omega), if_pos rfl, hcp, hc]
      rfl
    · next h2 =>
      split
      · next h3 =>
        have hcp : (v / 4096 * 0x40 + v / 64 % 0x40) * 0x40 + v % 0x40 = v := by omega
        simp only [run, hstep, first_three h3]
        rw [step_continuation (v := v / 64) (by omega) (by split <;> omega)
            (by split <;> omega), if_neg (by omega),
          step_continuation (by omega) (by omega) (by omega), if_pos rfl, hcp, hc]
        rfl
      · next h3 =>
        have hcp : ((v / 262144 * 0x40 + v / 4096 % 0x40) * 0x40 + v / 64 % 0x40) * 0x40 +
            v % 0x40 = v := by omega
        simp only [run, hstep, first_four (v := v) (by omega)]
        rw [step_continuation (v := v / 4096) (by omega) (by split <;> omega)
            (by split <;> omega), if_neg (by omega),
          step_continuation (v := v / 64) (by omega) (by omega) (by omega), if_neg (by omega),
          step_continuation (by omega) (by omega) (by omega), if_pos rfl, hcp, hc]
        rfl

/-- The bytes of a string decode to it. -/
theorem run_utf8Encode (s : List Char) : init.run (utf8Encode s) = (init, s) := by
  induction s with
  | nil => rfl
  | cons c s ih =>
    rw [utf8Encode] at ih
    rw [utf8Encode, List.flatMap_cons, run_append, run_utf8EncodeChar, ih, List.singleton_append]

end Utf8Decoder

/-- Encoding goes part by part. -/
theorem utf8Encode_append (s t : List Char) :
    utf8Encode (s ++ t) = utf8Encode s ++ utf8Encode t := List.flatMap_append

/-- The size of a text is the number of its bytes. -/
theorem length_utf8Encode (s : String) : (utf8Encode s.toList).length = s.utf8ByteSize := by
  have hbytes : s.toByteArray = s.toList.utf8Encode := by
    conv_lhs => rw [← String.ofList_toList (s := s)]
    exact String.toByteArray_ofList
  rw [← String.size_toByteArray, hbytes, List.utf8Encode, List.size_toByteArray]
  rfl

/-- ASCII characters take one byte each. -/
theorem length_utf8Encode_of_ascii {s : List Char} (h : ∀ c ∈ s, c.val ≤ 127) :
    (utf8Encode s).length = s.length := by
  induction s with
  | nil => rfl
  | cons c s ih =>
    have hc : c.utf8Size = 1 := Char.utf8Size_eq_one_iff.mpr (h c List.mem_cons_self)
    have hs := ih fun d hd ↦ h d (List.mem_cons_of_mem c hd)
    rw [utf8Encode] at hs
    rw [utf8Encode, List.flatMap_cons, List.length_append, String.length_utf8EncodeChar, hc, hs,
      List.length_cons, Nat.add_comm]

/-- The text of ASCII bytes. -/
def asciiText (bs : Bytes) : List Char := bs.map fun b ↦ Char.ofNat b.toNat

/-- The bytes of an ASCII text are the ones it was made of. -/
theorem utf8Encode_asciiText {bs : Bytes} (h : ∀ b ∈ bs, b.toNat < 0x80) :
    utf8Encode (asciiText bs) = bs := by
  induction bs with
  | nil => rfl
  | cons b bs ih =>
    have hb := h b List.mem_cons_self
    have hval : (Char.ofNat b.toNat).val.toNat = b.toNat := by
      rw [Char.ofNat, dif_pos (.inl (by omega))]
      rfl
    have hchar : String.utf8EncodeChar (Char.ofNat b.toNat) = [b] := by
      unfold String.utf8EncodeChar
      dsimp only
      rw [hval, if_pos (by omega), UInt8.ofNat_toNat]
    have hrest := ih fun b' hb' ↦ h b' (List.mem_cons_of_mem b hb')
    rw [utf8Encode] at hrest
    rw [asciiText, List.map_cons, utf8Encode, List.flatMap_cons, hchar]
    exact congrArg (b :: ·) hrest

private theorem mem_utf8EncodeChar {b : UInt8} {c : Char} (hb : b.toNat < 0x80)
    (h : b ∈ String.utf8EncodeChar c) : c.val.toNat = b.toNat := by
  have hv := Utf8Decoder.scalar_range c
  unfold String.utf8EncodeChar at h
  generalize c.val.toNat = v at hv h
  dsimp only at h
  -- only a one-byte character has a byte below 0x80
  split at h
  · rw [List.mem_singleton.mp h, Utf8Decoder.toNat_byte v (by omega)]
  · exfalso
    have hhigh : ∃ w, b = UInt8.ofNat w ∧ 0x80 ≤ w ∧ w < 0x100 := by
      split at h
      · simp only [List.mem_cons, List.not_mem_nil, or_false] at h
        rcases h with h | h <;> exact ⟨_, h, by omega, by omega⟩
      · split at h
        · simp only [List.mem_cons, List.not_mem_nil, or_false] at h
          rcases h with h | h | h <;> exact ⟨_, h, by omega, by omega⟩
        · simp only [List.mem_cons, List.not_mem_nil, or_false] at h
          rcases h with h | h | h | h <;> exact ⟨_, h, by omega, by omega⟩
    obtain ⟨w, rfl, hlow, hw⟩ := hhigh
    rw [Utf8Decoder.toNat_byte w hw] at hb
    omega

/-- An ASCII byte in a text stands for its character. -/
theorem mem_of_mem_utf8Encode {b : UInt8} {s : List Char} (hb : b.toNat < 0x80)
    (h : b ∈ utf8Encode s) : Char.ofNat b.toNat ∈ s := by
  obtain ⟨c, hc, hbc⟩ := List.mem_flatMap.mp h
  rw [← mem_utf8EncodeChar hb hbc]
  exact (Char.ofNat_toNat c).symm ▸ hc

/-- The line feed of a text is the one of its bytes. -/
theorem newline_notMem_utf8Encode {line : List Char} (h : '\n' ∉ line) :
    newline ∉ utf8Encode line := fun hb ↦
  h (mem_of_mem_utf8Encode (b := newline) (by decide) hb)

/-- `new TextDecoder()`, with `stream: true` on every call. -/
structure TextDecoder where
  utf8 : Utf8Decoder
  bomSeen : Bool
  deriving DecidableEq

namespace TextDecoder

/-- Before the first chunk. -/
def init : TextDecoder := ⟨Utf8Decoder.init, false⟩

/-- The characters of a chunk; a byte order mark is dropped when it is the very first one. -/
def decode (d : TextDecoder) (chunk : Bytes) : TextDecoder × List Char :=
  let (utf8, text) := d.utf8.run chunk
  match d.bomSeen, text with
  | false, [] => (⟨utf8, false⟩, [])
  | false, c :: text => (⟨utf8, true⟩, if c = '\uFEFF' then text else c :: text)
  | true, text => (⟨utf8, true⟩, text)

/-- It does not matter where the input is cut into chunks. -/
theorem decode_append (d : TextDecoder) (a b : Bytes) :
    d.decode (a ++ b) =
      (((d.decode a).1.decode b).1, (d.decode a).2 ++ ((d.decode a).1.decode b).2) := by
  obtain ⟨utf8, bomSeen⟩ := d
  simp only [decode, Utf8Decoder.run_append]
  generalize utf8.run a = ra
  obtain ⟨ua, ta⟩ := ra
  cases bomSeen with
  | true => rfl
  | false =>
    cases ta with
    | nil => rfl
    | cons c ta =>
      dsimp only [List.cons_append]
      split
      · rfl
      · rfl

end TextDecoder

end Dockstack.Base
