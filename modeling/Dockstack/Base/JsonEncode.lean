import Dockstack.Base.Json

/-!
# Writing JSON texts

`json.Marshal` of Go's `encoding/json` on a map of strings. A string is written byte by byte, with
escapes for quotes, control characters and what HTML treats specially; bytes that are no UTF-8
become U+FFFD. The scanner reads back the characters that the bytes stand for.
-/

namespace Dockstack.Base.Json

/-- The digit `hex[v]`. -/
def hexDigit (v : Nat) : UInt8 := ascii v.digitChar

/-- What is written for an ASCII byte. -/
def marshalByte (b : UInt8) : Bytes :=
  if b = ascii '\\' ∨ b = ascii '"' then [ascii '\\', b]
  else if b = 0x08 then [ascii '\\', ascii 'b']
  else if b = 0x0C then [ascii '\\', ascii 'f']
  else if b = 0x0A then [ascii '\\', ascii 'n']
  else if b = 0x0D then [ascii '\\', ascii 'r']
  else if b = 0x09 then [ascii '\\', ascii 't']
  else if b < 0x20 ∨ b = ascii '<' ∨ b = ascii '>' ∨ b = ascii '&' then
    [ascii '\\', ascii 'u', ascii '0', ascii '0', hexDigit (b.toNat / 16), hexDigit (b.toNat % 16)]
  else [b]

/-- What is written for the first character of `b :: bs`, and what follows it. -/
def marshalRune (b : UInt8) (bs : Bytes) : Bytes × Bytes :=
  if b < 0x80 then (marshalByte b, bs)
  else
    let (c, rest) := decodeRune b bs
    -- a character of one byte is malformed here
    if rest.length = bs.length then (text "\\ufffd", bs)
    else if c = '\u2028' ∨ c = '\u2029' then (text "\\u202" ++ [hexDigit (c.toNat % 16)], rest)
    else (b :: bs.take (bs.length - rest.length), rest)

/-- What is written for a text, in at most `fuel` characters. -/
def marshalRunes : Nat → Bytes → Bytes
  | _, [] => []
  | 0, _ => []
  | fuel + 1, b :: bs => (marshalRune b bs).1 ++ marshalRunes fuel (marshalRune b bs).2

/-- `appendString`. Each character takes a byte at least. -/
def marshalString (s : Bytes) : Bytes := ascii '"' :: (marshalRunes s.length s ++ [ascii '"'])

/-- A key with its value. -/
def marshalMember (f : Bytes × Bytes) : Bytes := marshalString f.1 ++ ascii ':' :: marshalString f.2

/-- The members of an object after the first one. -/
def marshalRest (fields : List (Bytes × Bytes)) : Bytes :=
  fields.flatMap fun f ↦ ascii ',' :: marshalMember f

/-- `json.Marshal` of a map of strings, whose keys are given in their order. -/
def marshalMap : List (Bytes × Bytes) → Bytes
  | [] => [ascii '{', ascii '}']
  | f :: fields => ascii '{' :: (marshalMember f ++ marshalRest fields ++ [ascii '}'])

/-- The characters of a text, in at most `fuel` of them. -/
def decodeRunes : Nat → Bytes → List Char
  | _, [] => []
  | 0, _ => []
  | fuel + 1, b :: bs => (decodeRune b bs).1 :: decodeRunes fuel (decodeRune b bs).2

/-- `[]rune(s)`: the characters of a text, with U+FFFD for what is malformed. -/
def runes (s : Bytes) : List Char := decodeRunes s.length s

/-! ## Characters -/

private theorem lower_step (d : Utf8Decoder) (b : UInt8) : 0x80 ≤ (d.step b).1.lower := by
  have hfirst (b : UInt8) : 0x80 ≤ (Utf8Decoder.first b).1.lower := by
    unfold Utf8Decoder.first Utf8Decoder.init
    dsimp only
    split_ifs <;> simp
  unfold Utf8Decoder.step
  dsimp only
  split_ifs
  · exact hfirst b
  · exact hfirst b
  · exact Nat.le_refl 0x80
  · exact Nat.le_refl 0x80

private theorem restOfRune_eq_some {d : Utf8Decoder} (hd : 0x80 ≤ d.lower) {bs rest : Bytes}
    {c : Char} (h : restOfRune d bs = some (c, rest)) :
    ∃ used, used ≠ [] ∧ bs = used ++ rest ∧ (∀ b ∈ used, 0x80 ≤ b.toNat) ∧
      ∀ tail, restOfRune d (used ++ tail) = some (c, tail) := by
  induction bs generalizing d with
  | nil => contradiction
  | cons b bs ih =>
    rw [restOfRune] at h
    split at h
    · contradiction
    · next hrange =>
      have hb : 0x80 ≤ b.toNat := by omega
      split at h
      · next d' c' cs hstep =>
        obtain ⟨rfl, rfl⟩ := Prod.mk.inj (Option.some.inj h)
        refine ⟨[b], List.cons_ne_nil b [], rfl, ?_, fun tail ↦ ?_⟩
        · intro b' hb'
          rw [List.mem_singleton.mp hb']
          exact hb
        · rw [List.singleton_append, restOfRune, if_neg hrange, hstep]
      · next d' hstep =>
        have hlower := lower_step d b
        rw [hstep] at hlower
        obtain ⟨used, -, rfl, hused, htail⟩ := ih hlower h
        refine ⟨b :: used, List.cons_ne_nil b used, rfl, ?_, fun tail ↦ ?_⟩
        · intro b' hb'
          rcases List.mem_cons.mp hb' with rfl | hb'
          · exact hb
          · exact hused b' hb'
        · rw [List.cons_append, restOfRune, if_neg hrange, hstep]
          exact htail tail

private theorem decodeRune_cases {b : UInt8} (hb : 0x80 ≤ b.toNat) (bs : Bytes) :
    decodeRune b bs = ('\uFFFD', bs) ∨
      ∃ c used rest, decodeRune b bs = (c, rest) ∧ used ≠ [] ∧ bs = used ++ rest ∧
        (∀ b ∈ used, 0x80 ≤ b.toNat) ∧ ∀ tail, decodeRune b (used ++ tail) = (c, tail) := by
  unfold decodeRune
  split
  · next d c cs hfirst =>
    have hmalformed : c = '\uFFFD' := by
      unfold Utf8Decoder.first at hfirst
      dsimp only at hfirst
      rw [if_neg (by omega)] at hfirst
      split_ifs at hfirst <;> cases hfirst
      rfl
    exact .inl (by rw [hmalformed])
  · next d hfirst =>
    have hlower : 0x80 ≤ d.lower := by
      have hstep := lower_step .init b
      rwa [show Utf8Decoder.init.step b = Utf8Decoder.first b from rfl, hfirst] at hstep
    cases hrest : restOfRune d bs with
    | none => exact .inl rfl
    | some r =>
      obtain ⟨used, hne, heq, hused, htail⟩ := restOfRune_eq_some hlower hrest
      exact .inr ⟨r.1, used, r.2, rfl, hne, heq, hused, fun tail ↦ by rw [htail]; rfl⟩

private theorem decodeRune_ascii {b : UInt8} (hb : b.toNat < 0x80) (bs : Bytes) :
    decodeRune b bs = (Char.ofNat b.toNat, bs) := by
  have hfirst : Utf8Decoder.first b = (.init, [Char.ofNat b.toNat]) := by
    unfold Utf8Decoder.first
    exact if_pos (by omega)
  rw [decodeRune, hfirst]

/-! ## What is written for a character -/

/-- Within a string literal `o :: out` is read as one character, whatever follows. -/
def Denotes (o : UInt8) (out : Bytes) (c : Char) : Prop :=
  (∀ tail, unquoteChar o (out ++ tail) = (c, tail)) ∧
    ∀ raw stack tail, Scanner.run ⟨.inString raw, stack⟩ (o :: out ++ tail) =
      Scanner.run ⟨.inString ((o :: out).reverse ++ raw), stack⟩ tail

private theorem run_plain {bs : Bytes}
    (h : ∀ b ∈ bs, b ≠ ascii '"' ∧ b ≠ ascii '\\' ∧ ¬ b < 0x20) (raw : Bytes)
    (stack : List ScanFrame) (tail : Bytes) :
    Scanner.run ⟨.inString raw, stack⟩ (bs ++ tail) =
      Scanner.run ⟨.inString (bs.reverse ++ raw), stack⟩ tail := by
  induction bs generalizing raw with
  | nil => rfl
  | cons b bs ih =>
    obtain ⟨hquote, hslash, hcontrol⟩ := h b List.mem_cons_self
    rw [List.cons_append, Scanner.run, Scanner.step]
    simp only [if_neg hquote, if_neg hslash, if_neg hcontrol, Option.bind_some]
    rw [ih (fun b' hb' ↦ h b' (List.mem_cons_of_mem b hb')), List.reverse_cons,
      List.append_assoc, List.singleton_append]

private theorem denotes_plain {o : UInt8} {out : Bytes} {c : Char}
    (h : ∀ b ∈ o :: out, b ≠ ascii '"' ∧ b ≠ ascii '\\' ∧ ¬ b < 0x20)
    (hrune : ∀ tail, decodeRune o (out ++ tail) = (c, tail)) : Denotes o out c := by
  refine ⟨fun tail ↦ ?_, run_plain h⟩
  unfold unquoteChar
  rw [if_pos (h o List.mem_cons_self).2.1, hrune]

private theorem denotes_escape {e : UInt8} {c : Char} (he : e ≠ ascii 'u')
    (hc : simpleEscape e = some c) : Denotes (ascii '\\') [e] c := by
  have hslash : ascii '\\' ≠ ascii '"' := by decide
  refine ⟨fun tail ↦ ?_, fun raw stack tail ↦ ?_⟩
  · have hunit : getu4 (ascii '\\' :: e :: tail) = none := by
      unfold getu4
      split
      · next heq =>
        obtain ⟨-, heq⟩ := List.cons.inj heq
        obtain ⟨rfl, -⟩ := List.cons.inj heq
        simp [guard, he]
      · rfl
    simp only [unquoteChar, List.singleton_append, hunit, hc, ne_eq, not_true_eq_false, if_false,
      Option.getD_some]
  · simp only [List.cons_append, List.nil_append, Scanner.run, Scanner.step, if_neg hslash, if_true,
      Option.bind_some, if_neg he, hc, Option.isSome_some]
    rfl

private theorem denotes_unit {b₁ b₂ b₃ b₄ : UInt8} {v₁ v₂ v₃ v₄ : Nat}
    (h₁ : hexValue b₁ = some v₁) (h₂ : hexValue b₂ = some v₂) (h₃ : hexValue b₃ = some v₃)
    (h₄ : hexValue b₄ = some v₄)
    (hunit : ¬ (0xD800 ≤ ((v₁ * 16 + v₂) * 16 + v₃) * 16 + v₄ ∧
      ((v₁ * 16 + v₂) * 16 + v₃) * 16 + v₄ < 0xE000)) :
    Denotes (ascii '\\') [ascii 'u', b₁, b₂, b₃, b₄]
      (Char.ofNat (((v₁ * 16 + v₂) * 16 + v₃) * 16 + v₄)) := by
  have hslash : ascii '\\' ≠ ascii '"' := by decide
  refine ⟨fun tail ↦ ?_, fun raw stack tail ↦ ?_⟩
  · have hget : getu4 (ascii '\\' :: ascii 'u' :: b₁ :: b₂ :: b₃ :: b₄ :: tail) =
        some (((v₁ * 16 + v₂) * 16 + v₃) * 16 + v₄, tail) := by
      simp [getu4, guard, h₁, h₂, h₃, h₄]
    simp only [unquoteChar, List.cons_append, List.nil_append, hget, ne_eq, not_true_eq_false,
      if_false, decodeUnit, if_neg hunit]
  · simp only [List.cons_append, List.nil_append, Scanner.run, Scanner.step, if_neg hslash, if_true,
      Option.bind_some, h₁, h₂, h₃, h₄, Option.isNone_some, Bool.false_eq_true, if_false,
      OfNat.ofNat_ne_one, Nat.reduceSub]
    rfl

private theorem hexValue_hexDigit : ∀ v < 16, hexValue (hexDigit v) = some v := by decide

private theorem denotes_marshalByte {b : UInt8} (hb : b.toNat < 0x80) :
    ∃ o out, marshalByte b = o :: out ∧ Denotes o out (Char.ofNat b.toNat) := by
  unfold marshalByte
  split
  · next h =>
    refine ⟨_, _, rfl, ?_⟩
    rcases h with rfl | rfl
    · exact denotes_escape (by decide) rfl
    · exact denotes_escape (by decide) rfl
  · next hslash =>
    split_ifs with h h h h h h
    · subst h
      exact ⟨_, _, rfl, denotes_escape (by decide) rfl⟩
    · subst h
      exact ⟨_, _, rfl, denotes_escape (by decide) rfl⟩
    · subst h
      exact ⟨_, _, rfl, denotes_escape (by decide) rfl⟩
    · subst h
      exact ⟨_, _, rfl, denotes_escape (by decide) rfl⟩
    · subst h
      exact ⟨_, _, rfl, denotes_escape (by decide) rfl⟩
    · refine ⟨_, _, rfl, ?_⟩
      have hzero : hexValue (ascii '0') = some 0 := by decide
      have hunit := denotes_unit hzero hzero (hexValue_hexDigit (b.toNat / 16) (by omega))
        (hexValue_hexDigit (b.toNat % 16) (by omega)) (by omega)
      rwa [show ((0 * 16 + 0) * 16 + b.toNat / 16) * 16 + b.toNat % 16 = b.toNat by omega] at hunit
    · refine ⟨_, _, rfl, denotes_plain ?_ (decodeRune_ascii hb)⟩
      intro b' hb'
      rw [List.mem_singleton.mp hb']
      exact ⟨fun hq ↦ hslash (.inr hq), fun hs ↦ hslash (.inl hs), fun hc ↦ h (.inl hc)⟩

private theorem denotes_marshalRune (b : UInt8) (bs : Bytes) : ∃ o out,
    marshalRune b bs = (o :: out, (decodeRune b bs).2) ∧ Denotes o out (decodeRune b bs).1 := by
  unfold marshalRune
  split
  · next hb =>
    have hascii : b.toNat < 0x80 := hb
    obtain ⟨o, out, heq, hdenotes⟩ := denotes_marshalByte hascii
    rw [decodeRune_ascii hascii, heq]
    exact ⟨o, out, rfl, hdenotes⟩
  · next hb =>
    have hb : 0x80 ≤ b.toNat := Nat.le_of_not_lt hb
    rcases decodeRune_cases hb bs with h | ⟨c, used, rest, h, hne, rfl, hused, htail⟩
    · rw [h]
      refine ⟨_, _, if_pos rfl, ?_⟩
      exact @denotes_unit _ _ _ _ 15 15 15 13 rfl rfl rfl rfl (by decide)
    · rw [h]
      dsimp only
      have hlen : rest.length ≠ (used ++ rest).length := by
        have hpos := List.length_pos_iff.mpr hne
        rw [List.length_append]
        omega
      rw [if_neg hlen]
      split
      · next hc =>
        refine ⟨_, _, rfl, ?_⟩
        rcases hc with rfl | rfl
        · exact @denotes_unit _ _ _ _ 2 0 2 8 rfl rfl rfl rfl (by decide)
        · exact @denotes_unit _ _ _ _ 2 0 2 9 rfl rfl rfl rfl (by decide)
      · have htake : (used ++ rest).take ((used ++ rest).length - rest.length) = used := by
          rw [List.length_append, Nat.add_sub_cancel, List.take_left]
        rw [htake]
        refine ⟨b, used, rfl, denotes_plain ?_ htail⟩
        intro b' hb'
        have hhigh : 0x80 ≤ b'.toNat := by
          rcases List.mem_cons.mp hb' with rfl | hb'
          · exact hb
          · exact hused b' hb'
        refine ⟨?_, ?_, ?_⟩
        · rintro rfl
          exact absurd hhigh (by decide)
        · rintro rfl
          exact absurd hhigh (by decide)
        · intro hlt
          have hlt : b'.toNat < 0x20 := hlt
          omega

private theorem run_marshalRunes (fuel : Nat) (s raw : Bytes) (stack : List ScanFrame)
    (tail : Bytes) : Scanner.run ⟨.inString raw, stack⟩ (marshalRunes fuel s ++ tail) =
      Scanner.run ⟨.inString ((marshalRunes fuel s).reverse ++ raw), stack⟩ tail := by
  induction fuel generalizing s raw with
  | zero =>
    cases s with
    | nil => rfl
    | cons b bs => rfl
  | succ fuel ih =>
    cases s with
    | nil => rfl
    | cons b bs =>
      obtain ⟨o, out, heq, -, hrun⟩ := denotes_marshalRune b bs
      rw [marshalRunes, heq, List.append_assoc, hrun, ih, List.reverse_append, List.append_assoc]

private theorem unquoteChars_marshalRunes (fuel n : Nat) (s : Bytes)
    (hn : (marshalRunes fuel s).length ≤ n) :
    unquoteChars n (marshalRunes fuel s) = decodeRunes fuel s := by
  induction fuel generalizing s n with
  | zero =>
    cases s with
    | nil => simp only [marshalRunes, unquoteChars, decodeRunes]
    | cons b bs => simp only [marshalRunes, unquoteChars, decodeRunes]
  | succ fuel ih =>
    cases s with
    | nil => simp only [marshalRunes, unquoteChars, decodeRunes]
    | cons b bs =>
      obtain ⟨o, out, heq, hread, -⟩ := denotes_marshalRune b bs
      rw [marshalRunes, heq] at hn ⊢
      cases n with
      | zero => simp at hn
      | succ n =>
        rw [List.cons_append, unquoteChars, hread, decodeRunes, ih]
        dsimp only at hn ⊢
        rw [List.length_append, List.length_cons] at hn
        omega

/-- A written string denotes its characters. -/
theorem unquote_marshalRunes (s : Bytes) :
    unquote (marshalRunes s.length s) = .ofList (runes s) := by
  rw [unquote, unquoteChars_marshalRunes _ _ _ (Nat.le_refl _), runes]

/-! ## Objects of strings -/

private theorem run_literal (s : Bytes) (stack : List ScanFrame) (tail : Bytes) :
    Scanner.run ⟨.inString [], stack⟩ (marshalRunes s.length s ++ ascii '"' :: tail) =
      Scanner.run (Scanner.endString (marshalRunes s.length s).reverse stack) tail := by
  rw [run_marshalRunes, List.append_nil, Scanner.run, Scanner.step]
  simp only [if_true, Option.bind_some]

private theorem run_member (f : Bytes × Bytes) (fields : List (String × Json))
    (stack : List ScanFrame) (tail : Bytes) :
    Scanner.run ⟨.inString [], .objectKey fields :: stack⟩ (marshalRunes f.1.length f.1 ++
      ascii '"' :: ascii ':' :: ascii '"' ::
        (marshalRunes f.2.length f.2 ++ ascii '"' :: tail)) =
      Scanner.run ⟨.endValue (.string (.ofList (runes f.2))),
        .objectValue fields (.ofList (runes f.1)) :: stack⟩ tail := by
  have hkey : Scanner.endString (marshalRunes f.1.length f.1).reverse (.objectKey fields :: stack) =
      ⟨.endKey (.ofList (runes f.1)), .objectKey fields :: stack⟩ := by
    rw [Scanner.endString, List.reverse_reverse, unquote_marshalRunes]
  have hvalue (key : String) : Scanner.endString (marshalRunes f.2.length f.2).reverse
      (.objectValue fields key :: stack) =
        ⟨.endValue (.string (.ofList (runes f.2))), .objectValue fields key :: stack⟩ := by
    rw [Scanner.endString, List.reverse_reverse, unquote_marshalRunes]
    intro fields' stack' heq
    cases heq
  rw [run_literal, hkey]
  change Scanner.run ⟨.inString [], .objectValue fields (.ofList (runes f.1)) :: stack⟩ _ = _
  rw [run_literal, hvalue]

/-- What a member denotes. -/
def memberValue (f : Bytes × Bytes) : String × Json :=
  (.ofList (runes f.1), .string (.ofList (runes f.2)))

private theorem run_rest (fs : List (Bytes × Bytes)) (fields : List (String × Json)) (key : String)
    (value : Json) (stack : List ScanFrame) :
    Scanner.run ⟨.endValue value, .objectValue fields key :: stack⟩
      (marshalRest fs ++ [ascii '}']) =
      some ⟨.endValue (.object (fields ++ (key, value) :: fs.map memberValue)), stack⟩ := by
  induction fs generalizing fields key value with
  | nil => rfl
  | cons f fs ih =>
    have hcut : marshalRest (f :: fs) ++ [ascii '}'] = ascii ',' :: ascii '"' ::
        (marshalRunes f.1.length f.1 ++ ascii '"' :: ascii ':' :: ascii '"' ::
          (marshalRunes f.2.length f.2 ++ ascii '"' :: (marshalRest fs ++ [ascii '}']))) := by
      simp only [marshalRest, marshalMember, marshalString, List.flatMap_cons, List.append_assoc,
        List.cons_append, List.nil_append]
    rw [hcut]
    change Scanner.run ⟨.inString [], .objectKey (fields ++ [(key, value)]) :: stack⟩ _ = _
    rw [run_member, ih, List.append_assoc]
    rfl

/-- A written map denotes its members. -/
theorem parseText_marshalMap (fs : List (Bytes × Bytes)) :
    parseText (marshalMap fs) = some (.object (fs.map memberValue)) := by
  cases fs with
  | nil => rfl
  | cons f fs =>
    have hcut : marshalMap (f :: fs) = ascii '{' :: ascii '"' ::
        (marshalRunes f.1.length f.1 ++ ascii '"' :: ascii ':' :: ascii '"' ::
          (marshalRunes f.2.length f.2 ++ ascii '"' :: (marshalRest fs ++ [ascii '}']))) := by
      simp only [marshalMap, marshalMember, marshalString, List.append_assoc, List.cons_append,
        List.nil_append]
    have hrun : Scanner.init.run (marshalMap (f :: fs)) =
        some ⟨.endValue (.object ((f :: fs).map memberValue)), []⟩ := by
      rw [hcut]
      change Scanner.run ⟨.inString [], [.objectKey []]⟩ _ = _
      rw [run_member, run_rest]
      rfl
    rw [parseText, hrun]
    rfl

/-! ## Texts that are UTF-8 -/

/-- The bytes are those of some text. -/
def ValidUtf8 (s : Bytes) : Prop := ∃ chars : List Char, utf8Encode chars = s

private theorem needed_step {d : Utf8Decoder} {b : UInt8} (h : (d.step b).2 = []) :
    (d.step b).1.needed ≠ 0 := by
  have hfirst (h : (Utf8Decoder.first b).2 = []) : (Utf8Decoder.first b).1.needed ≠ 0 := by
    unfold Utf8Decoder.first at h ⊢
    dsimp only at h ⊢
    split_ifs at h ⊢ <;> simp_all
  unfold Utf8Decoder.step at h ⊢
  dsimp only at h ⊢
  split_ifs at h ⊢ with hneeded hrange hone
  · exact hfirst h
  · dsimp only
    omega

private theorem eq_nil_of_run {d d' : Utf8Decoder} {bs : Bytes} (h : d.run bs = (d', []))
    (hd' : d'.needed = 0) : bs = [] := by
  induction bs generalizing d with
  | nil => rfl
  | cons b bs ih =>
    rw [Utf8Decoder.run] at h
    obtain ⟨hrun, hout⟩ := Prod.mk.inj h
    obtain ⟨hstep, hrest⟩ := List.append_eq_nil_iff.mp hout
    have hnil := ih (Prod.ext hrun hrest)
    rw [hnil] at hrun
    exact absurd (hrun ▸ hd') (needed_step hstep)

private theorem restOfRune_of_run {d : Utf8Decoder} (hd : d.needed ≠ 0) {bs : Bytes} {c : Char}
    (h : d.run bs = (.init, [c])) (tail : Bytes) :
    restOfRune d (bs ++ tail) = some (c, tail) := by
  induction bs generalizing d with
  | nil => cases h
  | cons b bs ih =>
    rw [Utf8Decoder.run] at h
    obtain ⟨hrun, hout⟩ := Prod.mk.inj h
    have hrange : ¬ (b.toNat < d.lower ∨ d.upper < b.toNat) := by
      intro hrange
      have hstep : d.step b =
          ((Utf8Decoder.first b).1, '\uFFFD' :: (Utf8Decoder.first b).2) := by
        unfold Utf8Decoder.step
        exact (if_neg hd).trans (if_pos hrange)
      rw [hstep] at hrun hout
      obtain ⟨-, hout⟩ := List.cons.inj hout
      obtain ⟨hfirst, hrest⟩ := List.append_eq_nil_iff.mp hout
      have hnil := eq_nil_of_run (Prod.ext hrun hrest) rfl
      rw [hnil] at hrun
      -- a first byte that completes nothing leaves the decoder waiting
      have hneeded : (Utf8Decoder.first b).1.needed ≠ 0 := needed_step (d := .init) hfirst
      rw [show (Utf8Decoder.first b).1 = Utf8Decoder.init from hrun] at hneeded
      exact hneeded rfl
    rw [List.cons_append, restOfRune, if_neg hrange]
    split
    · next d' c' cs hstep =>
      rw [hstep] at hrun hout
      obtain ⟨rfl, hnone⟩ := List.cons.inj hout
      have hnil := eq_nil_of_run (Prod.ext hrun (List.append_eq_nil_iff.mp hnone).2) rfl
      rw [hnil, List.nil_append]
    · next d' hstep =>
      have hneeded := needed_step (congrArg Prod.snd hstep)
      rw [hstep] at hrun hout hneeded
      exact ih hneeded (Prod.ext hrun hout)

private theorem decodeRune_utf8EncodeChar (c : Char) (tail : Bytes) : ∃ b bs,
    String.utf8EncodeChar c = b :: bs ∧ decodeRune b (bs ++ tail) = (c, tail) := by
  have h := Utf8Decoder.run_utf8EncodeChar c
  cases hc : String.utf8EncodeChar c with
  | nil =>
    rw [hc] at h
    cases h
  | cons b bs =>
    refine ⟨b, bs, rfl, ?_⟩
    rw [hc, Utf8Decoder.run, show Utf8Decoder.init.step b = Utf8Decoder.first b from rfl] at h
    obtain ⟨hrun, hout⟩ := Prod.mk.inj h
    unfold decodeRune
    split
    · next d c' cs hfirst =>
      rw [hfirst] at hrun hout
      obtain ⟨rfl, hnone⟩ := List.cons.inj hout
      have hnil := eq_nil_of_run (Prod.ext hrun (List.append_eq_nil_iff.mp hnone).2) rfl
      rw [hnil, List.nil_append]
    · next d hfirst =>
      have hneeded : (Utf8Decoder.first b).1.needed ≠ 0 :=
        needed_step (d := .init) (congrArg Prod.snd hfirst)
      rw [hfirst] at hrun hout hneeded
      rw [restOfRune_of_run hneeded (Prod.ext hrun hout) tail, Option.getD_some]

/-- A text is read back from its bytes. -/
theorem runes_utf8Encode (chars : List Char) : runes (utf8Encode chars) = chars := by
  have hdecode (fuel : Nat) (hfuel : (utf8Encode chars).length ≤ fuel) :
      decodeRunes fuel (utf8Encode chars) = chars := by
    induction chars generalizing fuel with
    | nil => simp only [utf8Encode, List.flatMap_nil, decodeRunes]
    | cons c chars ih =>
      obtain ⟨b, bs, hc, hrune⟩ := decodeRune_utf8EncodeChar c (utf8Encode chars)
      have hbytes : utf8Encode (c :: chars) = b :: (bs ++ utf8Encode chars) := by
        rw [utf8Encode, List.flatMap_cons, hc]
        rfl
      rw [hbytes, List.length_cons, List.length_append] at hfuel
      cases fuel with
      | zero => omega
      | succ fuel =>
        rw [hbytes, decodeRunes, hrune]
        exact congrArg (c :: ·) (ih fuel (by omega))
  exact hdecode _ (Nat.le_refl _)

/-- The characters of a text stand for the same bytes exactly when the bytes are UTF-8. -/
theorem utf8Encode_runes_iff {s : Bytes} : utf8Encode (runes s) = s ↔ ValidUtf8 s := by
  constructor
  · exact fun h ↦ ⟨runes s, h⟩
  · rintro ⟨chars, rfl⟩
    rw [runes_utf8Encode]

end Dockstack.Base.Json
