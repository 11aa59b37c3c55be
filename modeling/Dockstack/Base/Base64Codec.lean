import Dockstack.Base.Base64

/-!
# Base64 alphabets

Go's `encoding/base64`: encoders and decoders that differ in their last two letters and in whether
they pad. The decoder passes over line breaks and does not look at the bits that the last letter
has too many, as `DecodeString` without `Strict` does. Each decoder inverts its encoder; the decoder
of another alphabet does so exactly where the text makes no use of the last two letters.
-/

namespace Dockstack.Base

/-- The six-bit value of the letters and digits that all alphabets have. -/
def alnumValue (b : UInt8) : Option Nat :=
  if 65 ≤ b ∧ b ≤ 90 then some (b.toNat - 65)
  else if 97 ≤ b ∧ b ≤ 122 then some (b.toNat - 71)
  else if 48 ≤ b ∧ b ≤ 57 then some (b.toNat + 4)
  else none

/-- Line breaks and the padding, which are in no alphabet. -/
def isOutside (b : UInt8) : Bool := b == 10 || b == 13 || b == 61

/-- An alphabet: the letters of 62 and 63, which are two further bytes. -/
structure Base64Alphabet where
  c62 : UInt8
  c63 : UInt8
  ne : c62 ≠ c63
  new62 : alnumValue c62 = none ∧ isOutside c62 = false
  new63 : alnumValue c63 = none ∧ isOutside c63 = false

namespace Base64Alphabet

/-- The standard alphabet, with `+` and `/`. -/
def std : Base64Alphabet := ⟨43, 47, by decide, by decide, by decide⟩

/-- The alphabet for URLs, with `-` and `_`. -/
def url : Base64Alphabet := ⟨45, 95, by decide, by decide, by decide⟩

variable (a : Base64Alphabet)

/-- The letter of a six-bit value. -/
def letter (v : Nat) : UInt8 := if v < 62 then urlLetter v else if v = 62 then a.c62 else a.c63

/-- The six-bit value of a letter. -/
def value (b : UInt8) : Option Nat :=
  match alnumValue b with
  | some v => some v
  | none => if b = a.c62 then some 62 else if b = a.c63 then some 63 else none

private theorem alnumValue_urlLetter : ∀ v < 62, alnumValue (urlLetter v) = some v := by decide

/-- A letter is read back. -/
theorem value_letter {v : Nat} (hv : v < 64) : a.value (a.letter v) = some v := by
  unfold letter
  split
  · next hlt => rw [value, alnumValue_urlLetter v hlt]
  · split
    · next h62 => rw [value, a.new62.1, h62]; exact if_pos rfl
    · next hge h62 =>
      have h63 : v = 63 := by omega
      rw [value, a.new63.1, h63]
      dsimp only
      rw [if_neg a.ne.symm, if_pos rfl]

/-- A letter is neither a line break nor the padding. -/
theorem isOutside_letter (v : Nat) : isOutside (a.letter v) = false := by
  have halnum : ∀ v < 62, isOutside (urlLetter v) = false := by decide
  unfold letter
  split
  · next hlt => exact halnum v hlt
  · split
    · exact a.new62.2
    · exact a.new63.2

end Base64Alphabet

/-- The six-bit groups of a text; zeros fill up the last one. -/
def sextets : Bytes → List Nat
  | [] => []
  | [a] => [a.toNat / 4, a.toNat % 4 * 16]
  | [a, b] => [a.toNat / 4, a.toNat % 4 * 16 + b.toNat / 16, b.toNat % 16 * 4]
  | a :: b :: c :: rest =>
    a.toNat / 4 :: (a.toNat % 4 * 16 + b.toNat / 16) :: (b.toNat % 16 * 4 + c.toNat / 64) ::
      c.toNat % 64 :: sextets rest

/-- Six bits are below 64. -/
theorem lt_of_mem_sextets {s : Bytes} {v : Nat} (h : v ∈ sextets s) : v < 64 := by
  have hbyte (b : UInt8) : b.toNat < 256 := b.toNat_lt
  fun_induction sextets s with
  | case1 => exact absurd h List.not_mem_nil
  | case2 a =>
    have ha := hbyte a
    simp only [List.mem_cons, List.not_mem_nil, or_false] at h
    omega
  | case3 a b =>
    have ha := hbyte a
    have hb := hbyte b
    simp only [List.mem_cons, List.not_mem_nil, or_false] at h
    omega
  | case4 a b c rest ih =>
    have ha := hbyte a
    have hb := hbyte b
    have hc := hbyte c
    simp only [List.mem_cons] at h
    rcases h with h | h | h | h | h
    · omega
    · omega
    · omega
    · omega
    · exact ih h

namespace Base64Alphabet

variable (a : Base64Alphabet) (padded : Bool)

/-- The padding after a text. -/
def padding (s : Bytes) : Bytes := if padded then List.replicate ((3 - s.length % 3) % 3) 61 else []

/-- `EncodeToString`. -/
def encode (s : Bytes) : Bytes := (sextets s).map a.letter ++ padding padded s

/-- The bytes of a quantum of two or three letters at the end. -/
def decodeRest : List UInt8 → Option Bytes
  | [p, q] => do
    let v ← a.value p
    let w ← a.value q
    some [UInt8.ofNat (v * 4 + w / 16)]
  | [p, q, r] => do
    let v ← a.value p
    let w ← a.value q
    let x ← a.value r
    some [UInt8.ofNat (v * 4 + w / 16), UInt8.ofNat (w % 16 * 16 + x / 4)]
  | _ => none

/-- `decodeQuantum`, one quantum of four letters after the other. -/
def decodeLetters : Bytes → Option Bytes
  | [] => some []
  | p :: q :: r :: s :: rest =>
    if padded ∧ rest = [] ∧ s = 61 then
      if r = 61 then a.decodeRest [p, q] else a.decodeRest [p, q, r]
    else do
      let v ← a.value p
      let w ← a.value q
      let x ← a.value r
      let y ← a.value s
      let bytes ← decodeLetters rest
      some (UInt8.ofNat (v * 4 + w / 16) :: UInt8.ofNat (w % 16 * 16 + x / 4) ::
        UInt8.ofNat (x % 4 * 64 + y) :: bytes)
  | letters => if padded then none else a.decodeRest letters

/-- `DecodeString`; `none` is an error. -/
def decode (text : Bytes) : Option Bytes :=
  a.decodeLetters padded (text.filter fun b ↦ b != 10 && b != 13)

variable {a padded}

/-- Three bytes more are four letters more. -/
theorem encode_cons (x y z : UInt8) (s : Bytes) : a.encode padded (x :: y :: z :: s) =
    a.letter (x.toNat / 4) :: a.letter (x.toNat % 4 * 16 + y.toNat / 16) ::
      a.letter (y.toNat % 16 * 4 + z.toNat / 64) :: a.letter (z.toNat % 64) ::
        a.encode padded s := by
  have hpadding : padding padded (x :: y :: z :: s) = padding padded s := by
    simp only [padding, List.length_cons, Nat.add_mod_right, Nat.add_assoc]
  rw [encode, encode, sextets, hpadding]
  rfl

private theorem ofNat_sextets (x y z : UInt8) :
    UInt8.ofNat (x.toNat / 4 * 4 + (x.toNat % 4 * 16 + y.toNat / 16) / 16) = x ∧
      UInt8.ofNat ((x.toNat % 4 * 16 + y.toNat / 16) % 16 * 16 +
        (y.toNat % 16 * 4 + z.toNat / 64) / 4) = y ∧
      UInt8.ofNat ((y.toNat % 16 * 4 + z.toNat / 64) % 4 * 64 + z.toNat % 64) = z := by
  have hx := x.toNat_lt
  have hy := y.toNat_lt
  have hz := z.toNat_lt
  refine ⟨?_, ?_, ?_⟩
  · rw [show x.toNat / 4 * 4 + (x.toNat % 4 * 16 + y.toNat / 16) / 16 = x.toNat by omega,
      UInt8.ofNat_toNat]
  · rw [show (x.toNat % 4 * 16 + y.toNat / 16) % 16 * 16 +
      (y.toNat % 16 * 4 + z.toNat / 64) / 4 = y.toNat by omega, UInt8.ofNat_toNat]
  · rw [show (y.toNat % 16 * 4 + z.toNat / 64) % 4 * 64 + z.toNat % 64 = z.toNat by omega,
      UInt8.ofNat_toNat]

private theorem decodeLetters_encode (s : Bytes) :
    a.decodeLetters padded (a.encode padded s) = some s := by
  have hvalue {v : Nat} (hv : v < 64) := a.value_letter hv
  have hletter (v : Nat) : a.letter v ≠ 61 := fun h ↦ by
    have hout := a.isOutside_letter v
    rw [h] at hout
    contradiction
  fun_induction sextets s with
  | case1 => cases padded <;> rfl
  | case2 x =>
    have hx := x.toNat_lt
    have hrest : a.decodeRest [a.letter (x.toNat / 4), a.letter (x.toNat % 4 * 16)] = some [x] := by
      have hbyte := (ofNat_sextets x 0 0).1
      simp only [decodeRest, hvalue (show x.toNat / 4 < 64 by omega),
        hvalue (show x.toNat % 4 * 16 < 64 by omega), Option.bind_eq_bind, Option.bind_some]
      simpa using hbyte
    cases padded with
    | false => exact hrest
    | true => exact hrest
  | case3 x y =>
    have hx := x.toNat_lt
    have hy := y.toNat_lt
    have hrest : a.decodeRest [a.letter (x.toNat / 4),
        a.letter (x.toNat % 4 * 16 + y.toNat / 16), a.letter (y.toNat % 16 * 4)] =
          some [x, y] := by
      obtain ⟨hbyte, hbyte', -⟩ := ofNat_sextets x y 0
      simp only [decodeRest, hvalue (show x.toNat / 4 < 64 by omega),
        hvalue (show x.toNat % 4 * 16 + y.toNat / 16 < 64 by omega),
        hvalue (show y.toNat % 16 * 4 < 64 by omega), Option.bind_eq_bind, Option.bind_some, hbyte]
      simpa using hbyte'
    cases padded with
    | false => exact hrest
    | true => exact (if_pos ⟨rfl, rfl, rfl⟩).trans ((if_neg (hletter _)).trans hrest)
  | case4 x y z s ih =>
    have hx := x.toNat_lt
    have hy := y.toNat_lt
    have hz := z.toNat_lt
    obtain ⟨hbyte, hbyte', hbyte''⟩ := ofNat_sextets x y z
    rw [encode_cons, decodeLetters, if_neg fun h ↦ hletter _ h.2.2]
    simp only [hvalue (show x.toNat / 4 < 64 by omega),
      hvalue (show x.toNat % 4 * 16 + y.toNat / 16 < 64 by omega),
      hvalue (show y.toNat % 16 * 4 + z.toNat / 64 < 64 by omega),
      hvalue (show z.toNat % 64 < 64 by omega), Option.bind_eq_bind, Option.bind_some, ih, hbyte,
      hbyte', hbyte'']

/-- An encoded text consists of letters and padding. -/
theorem eq_or_eq_letter_of_mem_encode {s : Bytes} {b : UInt8} (hb : b ∈ a.encode padded s) :
    b = 61 ∨ ∃ v, b = a.letter v := by
  rcases List.mem_append.mp hb with hb | hb
  · obtain ⟨v, -, rfl⟩ := List.mem_map.mp hb
    exact .inr ⟨v, rfl⟩
  · unfold padding at hb
    split at hb
    · exact .inl (List.mem_replicate.mp hb).2
    · contradiction

private theorem letter_kept (v : Nat) : (a.letter v != 10 && a.letter v != 13) = true := by
  have hout := a.isOutside_letter v
  simp only [isOutside, Bool.or_eq_false_iff] at hout
  simp [bne, hout.1.1, hout.1.2]

/-- A decoder inverts its encoder. -/
theorem decode_encode (s : Bytes) : a.decode padded (a.encode padded s) = some s := by
  rw [decode, List.filter_eq_self.mpr, decodeLetters_encode]
  intro b hb
  rcases eq_or_eq_letter_of_mem_encode hb with rfl | ⟨v, rfl⟩
  · rfl
  · exact letter_kept v

private theorem isSome_value_of_decodeRest {letters bytes : Bytes}
    (h : a.decodeRest letters = some bytes) : ∀ b ∈ letters, (a.value b).isSome = true := by
  unfold decodeRest at h
  split at h
  · next p q =>
    simp only [Option.bind_eq_bind, Option.bind_eq_some_iff] at h
    obtain ⟨v, hv, w, hw, -⟩ := h
    simp [hv, hw]
  · next p q r =>
    simp only [Option.bind_eq_bind, Option.bind_eq_some_iff] at h
    obtain ⟨v, hv, w, hw, x, hx, -⟩ := h
    simp [hv, hw, hx]
  · contradiction

private theorem isSome_value_of_decodeLetters {text bytes : Bytes}
    (h : a.decodeLetters padded text = some bytes) :
    ∀ b ∈ text, b = 61 ∨ (a.value b).isSome = true := by
  fun_induction decodeLetters a padded text generalizing bytes with
  | case1 => exact fun b hb ↦ absurd hb List.not_mem_nil
  | case2 p q s hend =>
    have hrest := isSome_value_of_decodeRest h
    intro b hb
    simp only [List.mem_cons] at hb hrest
    grind
  | case3 p q r s hend hr =>
    have hrest := isSome_value_of_decodeRest h
    intro b hb
    simp only [List.mem_cons] at hb hrest
    grind
  | case4 p q r s rest hend ih =>
    simp only [Option.bind_eq_bind, Option.bind_eq_some_iff] at h
    obtain ⟨v, hv, w, hw, x, hx, y, hy, bytes', hbytes, -⟩ := h
    intro b hb
    simp only [List.mem_cons] at hb
    rcases hb with rfl | rfl | rfl | rfl | hb
    · exact .inr (Option.isSome_of_eq_some hv)
    · exact .inr (Option.isSome_of_eq_some hw)
    · exact .inr (Option.isSome_of_eq_some hx)
    · exact .inr (Option.isSome_of_eq_some hy)
    · exact ih hbytes b hb
  | case5 => contradiction
  | case6 letters => exact fun b hb ↦ .inr (isSome_value_of_decodeRest h b hb)

/-- A text of which the last two letters of its alphabet are no part is decoded in any alphabet;
with one of them, not in an alphabet that has neither. -/
theorem decode_encode_eq_some {a' : Base64Alphabet} (h62 : a'.value a.c62 = none)
    (h63 : a'.value a.c63 = none) {s t : Bytes} :
    a'.decode padded (a.encode padded s) = some t ↔ t = s ∧ ∀ v ∈ sextets s, v < 62 := by
  have hsame (hlow : ∀ v ∈ sextets s, v < 62) : a.encode padded s = a'.encode padded s := by
    have hletters : (sextets s).map a.letter = (sextets s).map a'.letter := by
      apply List.map_congr_left
      intro v hv
      rw [letter, letter, if_pos (hlow v hv), if_pos (hlow v hv)]
    rw [encode, encode, hletters]
  constructor
  · intro h
    have hlow (v : Nat) (hv : v ∈ sextets s) : v < 62 := by
      by_contra hge
      have hlt := lt_of_mem_sextets hv
      have hletter : a.letter v = a.c62 ∨ a.letter v = a.c63 := by
        rw [letter, if_neg hge]
        split
        · exact .inl rfl
        · exact .inr rfl
      have hmem : a.letter v ∈ (a.encode padded s).filter fun b ↦ b != 10 && b != 13 :=
        List.mem_filter.mpr ⟨List.mem_append_left _ (List.mem_map_of_mem hv), letter_kept v⟩
      rcases isSome_value_of_decodeLetters h _ hmem with h61 | hsome
      · have hout := a.isOutside_letter v
        rw [h61] at hout
        contradiction
      · rcases hletter with heq | heq
        · rw [heq, h62] at hsome
          contradiction
        · rw [heq, h63] at hsome
          contradiction
    rw [hsame hlow, decode_encode] at h
    exact ⟨(Option.some.inj h).symm, hlow⟩
  · rintro ⟨rfl, hlow⟩
    rw [hsame hlow, decode_encode]

end Base64Alphabet

/-! ## Bytes that need no further letters -/

/-- The letter in which byte `b` ends, at place `n` of a text and behind `before`, is one that all
alphabets have; a byte at every third place ends in a second letter of its own. -/
def EndsCommon (n : Nat) (before b : UInt8) : Prop :=
  if n % 3 = 0 then b < 248
  else if n % 3 = 1 then ¬ (before.toNat % 4 = 3 ∧ 224 ≤ b)
  else ¬ (before.toNat % 16 = 15 ∧ 128 ≤ b) ∧ b.toNat % 64 < 62

/-- So it is for all bytes of `s`, which stands from place `n` on. -/
def AllCommon : Nat → UInt8 → Bytes → Prop
  | _, _, [] => True
  | n, before, b :: s => EndsCommon n before b ∧ AllCommon (n + 1) b s

instance (n : Nat) (before b : UInt8) : Decidable (EndsCommon n before b) :=
  inferInstanceAs (Decidable (if n % 3 = 0 then b < 248
    else if n % 3 = 1 then ¬ (before.toNat % 4 = 3 ∧ 224 ≤ b)
    else ¬ (before.toNat % 16 = 15 ∧ 128 ≤ b) ∧ b.toNat % 64 < 62))

instance decidableAllCommon : (n : Nat) → (before : UInt8) → (s : Bytes) →
    Decidable (AllCommon n before s)
  | _, _, [] => .isTrue trivial
  | n, before, b :: s =>
    have := decidableAllCommon (n + 1) b s
    inferInstanceAs (Decidable (EndsCommon n before b ∧ AllCommon (n + 1) b s))

private theorem lt_iff_endsCommon (n : Nat) (x y : UInt8) :
    (n % 3 = 0 → (y.toNat / 4 < 62 ↔ EndsCommon n x y)) ∧
      (n % 3 = 1 → (x.toNat % 4 * 16 + y.toNat / 16 < 62 ↔ EndsCommon n x y)) ∧
      (n % 3 = 2 → (x.toNat % 16 * 4 + y.toNat / 64 < 62 ∧ y.toNat % 64 < 62 ↔
        EndsCommon n x y)) := by
  have hy := y.toNat_lt
  unfold EndsCommon
  simp only [UInt8.lt_iff_toNat_lt, UInt8.le_iff_toNat_le,
    show (248 : UInt8).toNat = 248 from rfl, show (224 : UInt8).toNat = 224 from rfl,
    show (128 : UInt8).toNat = 128 from rfl]
  refine ⟨fun hn ↦ ?_, fun hn ↦ ?_, fun hn ↦ ?_⟩
  · rw [if_pos hn]
    omega
  · rw [if_neg (by omega), if_pos hn]
    omega
  · rw [if_neg (by omega), if_neg (by omega)]
    omega

/-- A text is encoded by the letters that all alphabets have exactly when its bytes are. -/
theorem forall_sextets_lt_iff (s : Bytes) (n : Nat) (hn : n % 3 = 0) (before : UInt8) :
    (∀ v ∈ sextets s, v < 62) ↔ AllCommon n before s := by
  have hfirst (n : Nat) (hn : n % 3 = 0) (before x : UInt8) :=
    (lt_iff_endsCommon n before x).1 hn
  have hsecond (n : Nat) (hn : n % 3 = 0) (x y : UInt8) :=
    (lt_iff_endsCommon (n + 1) x y).2.1 (by omega)
  have hthird (n : Nat) (hn : n % 3 = 0) (y z : UInt8) :=
    (lt_iff_endsCommon (n + 1 + 1) y z).2.2 (by omega)
  fun_induction sextets s generalizing n before with
  | case1 => simp [AllCommon]
  | case2 x =>
    simp only [AllCommon, and_true, List.mem_cons, List.not_mem_nil, or_false, forall_eq_or_imp,
      forall_eq, ← hfirst n hn]
    omega
  | case3 x y =>
    simp only [AllCommon, and_true, List.mem_cons, List.not_mem_nil, or_false, forall_eq_or_imp,
      forall_eq, ← hfirst n hn, ← hsecond n hn]
    omega
  | case4 x y z s ih =>
    have hrest := ih (n + 1 + 1 + 1) (by omega) z
    simp only [AllCommon, List.mem_cons, forall_eq_or_imp, ← hfirst n hn, ← hsecond n hn,
      ← hthird n hn, hrest, and_assoc]

/-- The place and the byte before it are all that a text needs to know of what is before it. -/
theorem allCommon_append (n : Nat) (before : UInt8) (s t : Bytes) :
    AllCommon n before (s ++ t) ↔
      AllCommon n before s ∧ AllCommon (n + s.length) (s.getLastD before) t := by
  induction s generalizing n before with
  | nil => simp [AllCommon]
  | cons b s ih =>
    rw [List.cons_append, AllCommon, AllCommon, ih, List.length_cons, List.getLastD_cons,
      and_assoc, Nat.add_assoc, Nat.add_comm 1]

/-- ASCII text without `>`, `?`, `~` and DEL does not need them. -/
theorem allCommon_of_ascii {s : Bytes} (h : ∀ b ∈ s, b < 128 ∧ b.toNat % 64 < 62) (n : Nat)
    (before : UInt8) : AllCommon n before s := by
  induction s generalizing n before with
  | nil => trivial
  | cons b s ih =>
    obtain ⟨hb, hlow⟩ := h b List.mem_cons_self
    have hb : b.toNat < 128 := hb
    refine ⟨?_, ih (fun b' hb' ↦ h b' (List.mem_cons_of_mem b hb')) (n + 1) b⟩
    unfold EndsCommon
    simp only [UInt8.lt_iff_toNat_lt, UInt8.le_iff_toNat_le,
      show (248 : UInt8).toNat = 248 from rfl, show (224 : UInt8).toNat = 224 from rfl,
      show (128 : UInt8).toNat = 128 from rfl]
    split_ifs
    · omega
    · omega
    · exact ⟨by omega, hlow⟩

/-- An ASCII byte does not depend on what is before it. -/
theorem allCommon_cons_of_ascii {b : UInt8} (hb : b < 128) (n : Nat) (before before' : UInt8)
    (s : Bytes) : AllCommon n before (b :: s) ↔ AllCommon n before' (b :: s) := by
  have hb : b.toNat < 128 := hb
  have hends : EndsCommon n before b ↔ EndsCommon n before' b := by
    unfold EndsCommon
    simp only [UInt8.lt_iff_toNat_lt, UInt8.le_iff_toNat_le,
      show (224 : UInt8).toNat = 224 from rfl, show (128 : UInt8).toNat = 128 from rfl]
    split_ifs
    · exact Iff.rfl
    · omega
    · omega
  rw [AllCommon, AllCommon, hends]

end Dockstack.Base
