import Dockstack.Base.Decimal
import Dockstack.Base.Utf8
import Mathlib.Tactic.IntervalCases

/-!
# JSON texts

`json.Unmarshal` of Go's `encoding/json` into a struct of strings and integers. The scanner takes
one byte a step and keeps the values that are still open on a stack; it builds the value that the
text denotes. A field of the struct is looked up by its name up to case, the last key that matches
it counts, and `null` leaves it as it is.
-/

namespace Dockstack.Base

/-- A JSON value. A number keeps its literal, an object its keys in order, repeated ones
included. -/
inductive Json where
  | null
  | bool (b : Bool)
  | number (literal : Bytes)
  | string (s : String)
  | array (items : List Json)
  | object (fields : List (String × Json))

namespace Json

/-- The byte of an ASCII character. -/
def ascii (c : Char) : UInt8 := c.toNat.toUInt8

/-- The bytes of an ASCII text. -/
def text (s : String) : Bytes := s.toList.map ascii

/-- White space between the tokens. -/
def isSpace (b : UInt8) : Bool :=
  b == ascii ' ' || b == ascii '\t' || b == ascii '\r' || b == ascii '\n'

/-- A decimal digit. -/
def isDigit (b : UInt8) : Bool := ascii '0' ≤ b && b ≤ ascii '9'

/-- The value of a hexadecimal digit. -/
def hexValue (b : UInt8) : Option Nat :=
  if isDigit b then some (b.toNat - 0x30)
  else if ascii 'a' ≤ b ∧ b ≤ ascii 'f' then some (b.toNat - 0x61 + 10)
  else if ascii 'A' ≤ b ∧ b ≤ ascii 'F' then some (b.toNat - 0x41 + 10)
  else none

/-- The rest of a character of more than one byte, and what follows it. -/
def restOfRune (d : Utf8Decoder) : Bytes → Option (Char × Bytes)
  | [] => none
  | b :: bs =>
    if b.toNat < d.lower ∨ d.upper < b.toNat then none
    else
      match d.step b with
      | (_, c :: _) => some (c, bs)
      | (d, []) => restOfRune d bs

/-- `utf8.DecodeRune` of `b :: bs`: a malformed character is U+FFFD for its first byte. -/
def decodeRune (b : UInt8) (bs : Bytes) : Char × Bytes :=
  match Utf8Decoder.first b with
  | (_, c :: _) => (c, bs)
  | (d, []) => (restOfRune d bs).getD ('\uFFFD', bs)

/-- `getu4`: four hexadecimal digits after `\u`, and what follows them. -/
def getu4 : Bytes → Option (Nat × Bytes)
  | b₁ :: b₂ :: b₃ :: b₄ :: b₅ :: b₆ :: bs => do
    guard (b₁ = ascii '\\' ∧ b₂ = ascii 'u')
    let h₃ ← hexValue b₃
    let h₄ ← hexValue b₄
    let h₅ ← hexValue b₅
    let h₆ ← hexValue b₆
    some (((h₃ * 16 + h₄) * 16 + h₅) * 16 + h₆, bs)
  | _ => none

/-- A code unit and what follows it as a character: a pair of surrogates is one character, a
surrogate alone is U+FFFD. -/
def decodeUnit (unit : Nat) (bs : Bytes) : Char × Bytes :=
  if 0xD800 ≤ unit ∧ unit < 0xE000 then
    match getu4 bs with
    | some (low, rest) =>
      if unit < 0xDC00 ∧ 0xDC00 ≤ low ∧ low < 0xE000 then
        (Char.ofNat ((unit - 0xD800) * 0x400 + (low - 0xDC00) + 0x10000), rest)
      else ('\uFFFD', bs)
    | none => ('\uFFFD', bs)
  else (Char.ofNat unit, bs)

/-- The character of an escape of two bytes. -/
def simpleEscape (b : UInt8) : Option Char :=
  if b = ascii 'b' then some '\x08'
  else if b = ascii 'f' then some '\x0c'
  else if b = ascii 'n' then some '\n'
  else if b = ascii 'r' then some '\r'
  else if b = ascii 't' then some '\t'
  else if b = ascii '"' ∨ b = ascii '\\' ∨ b = ascii '/' then some (Char.ofNat b.toNat)
  else none

/-- The first character of a string literal's content, and what follows it. -/
def unquoteChar (b : UInt8) (bs : Bytes) : Char × Bytes :=
  if b ≠ ascii '\\' then decodeRune b bs
  else
    match getu4 (b :: bs) with
    | some (unit, rest) => decodeUnit unit rest
    | none =>
      match bs with
      | [] => ('\uFFFD', [])
      | e :: bs => ((simpleEscape e).getD '\uFFFD', bs)

/-- The content of a string literal, in at most `fuel` characters. -/
def unquoteChars : Nat → Bytes → List Char
  | _, [] => []
  | 0, _ => []
  | fuel + 1, b :: bs => (unquoteChar b bs).1 :: unquoteChars fuel (unquoteChar b bs).2

/-- `unquote`: what a string literal denotes. Each character takes a byte at least. -/
def unquote (raw : Bytes) : String := .ofList (unquoteChars raw.length raw)

/-- Where the scanner is in a number. -/
inductive NumberState where
  | neg
  | zero
  | digits
  | dot
  | fraction
  | e
  | eSign
  | exponent

/-- What the scanner reads next, with the literal so far (its last byte first). -/
inductive ScanState where
  | beginValue
  | beginValueOrEmpty
  | beginString
  | beginStringOrEmpty
  | inString (raw : Bytes)
  | inStringEsc (raw : Bytes)
  | inStringEscU (left : Nat) (raw : Bytes)
  | inNumber (pos : NumberState) (raw : Bytes)
  | inWord (rest : Bytes) (value : Json)
  | endKey (key : String)
  | endValue (value : Json)

/-- A value that is still open, with what it has so far. -/
inductive ScanFrame where
  | objectKey (fields : List (String × Json))
  | objectValue (fields : List (String × Json)) (key : String)
  | arrayValue (items : List Json)

/-- The scanner between two bytes. -/
structure Scanner where
  state : ScanState
  stack : List ScanFrame

/-- How many values may be open, `maxNestingDepth`. -/
def maxNestingDepth : Nat := 10000

namespace Scanner

/-- Before the text. -/
def init : Scanner := ⟨.beginValue, []⟩

/-- A value opens, unless too many are open. -/
def push (stack : List ScanFrame) (state : ScanState) (frame : ScanFrame) : Option Scanner :=
  if stack.length < maxNestingDepth then some ⟨state, frame :: stack⟩ else none

/-- A byte after a value. -/
def afterValue (value : Json) (stack : List ScanFrame) (b : UInt8) : Option Scanner :=
  if isSpace b then some ⟨.endValue value, stack⟩
  else
    match stack with
    | .objectValue fields key :: stack =>
      if b = ascii ',' then some ⟨.beginString, .objectKey (fields ++ [(key, value)]) :: stack⟩
      else if b = ascii '}' then some ⟨.endValue (.object (fields ++ [(key, value)])), stack⟩
      else none
    | .arrayValue items :: stack =>
      if b = ascii ',' then some ⟨.beginValue, .arrayValue (items ++ [value]) :: stack⟩
      else if b = ascii ']' then some ⟨.endValue (.array (items ++ [value])), stack⟩
      else none
    | _ => none

/-- The first byte of a value. -/
def beginValue (stack : List ScanFrame) (b : UInt8) : Option Scanner :=
  if isSpace b then some ⟨.beginValue, stack⟩
  else if b = ascii '{' then push stack .beginStringOrEmpty (.objectKey [])
  else if b = ascii '[' then push stack .beginValueOrEmpty (.arrayValue [])
  else if b = ascii '"' then some ⟨.inString [], stack⟩
  else if b = ascii '-' then some ⟨.inNumber .neg [b], stack⟩
  else if b = ascii '0' then some ⟨.inNumber .zero [b], stack⟩
  else if isDigit b then some ⟨.inNumber .digits [b], stack⟩
  else if b = ascii 't' then some ⟨.inWord (text "rue") (.bool true), stack⟩
  else if b = ascii 'f' then some ⟨.inWord (text "alse") (.bool false), stack⟩
  else if b = ascii 'n' then some ⟨.inWord (text "ull") .null, stack⟩
  else none

/-- A key begins. -/
def beginString (stack : List ScanFrame) (b : UInt8) : Option Scanner :=
  if isSpace b then some ⟨.beginString, stack⟩
  else if b = ascii '"' then some ⟨.inString [], stack⟩
  else none

/-- A string ends, which is a key where one is due. -/
def endString (raw : Bytes) : List ScanFrame → Scanner
  | .objectKey fields :: stack => ⟨.endKey (unquote raw.reverse), .objectKey fields :: stack⟩
  | stack => ⟨.endValue (.string (unquote raw.reverse)), stack⟩

/-- A byte after the whole part of a number or its fraction, where an exponent may follow. -/
def afterDigits (raw : Bytes) (stack : List ScanFrame) (b : UInt8) : Option Scanner :=
  if b = ascii 'e' ∨ b = ascii 'E' then some ⟨.inNumber .e (b :: raw), stack⟩
  else afterValue (.number raw.reverse) stack b

/-- A byte after the whole part of a number. -/
def afterWhole (raw : Bytes) (stack : List ScanFrame) (b : UInt8) : Option Scanner :=
  if b = ascii '.' then some ⟨.inNumber .dot (b :: raw), stack⟩ else afterDigits raw stack b

/-- A byte within a number or just after it. -/
def inNumber (raw : Bytes) (stack : List ScanFrame) (b : UInt8) : NumberState → Option Scanner
  | .neg =>
    if b = ascii '0' then some ⟨.inNumber .zero (b :: raw), stack⟩
    else if isDigit b then some ⟨.inNumber .digits (b :: raw), stack⟩
    else none
  | .zero => afterWhole raw stack b
  | .digits =>
    if isDigit b then some ⟨.inNumber .digits (b :: raw), stack⟩ else afterWhole raw stack b
  | .dot => if isDigit b then some ⟨.inNumber .fraction (b :: raw), stack⟩ else none
  | .fraction =>
    if isDigit b then some ⟨.inNumber .fraction (b :: raw), stack⟩ else afterDigits raw stack b
  | .e =>
    if b = ascii '+' ∨ b = ascii '-' then some ⟨.inNumber .eSign (b :: raw), stack⟩
    else if isDigit b then some ⟨.inNumber .exponent (b :: raw), stack⟩
    else none
  | .eSign => if isDigit b then some ⟨.inNumber .exponent (b :: raw), stack⟩ else none
  | .exponent =>
    if isDigit b then some ⟨.inNumber .exponent (b :: raw), stack⟩
    else afterValue (.number raw.reverse) stack b

/-- One byte; `none` is a syntax error. -/
def step (s : Scanner) (b : UInt8) : Option Scanner :=
  match s.state with
  | .beginValue => beginValue s.stack b
  | .beginValueOrEmpty =>
    match s.stack with
    | .arrayValue [] :: stack =>
      if isSpace b then some s
      else if b = ascii ']' then some ⟨.endValue (.array []), stack⟩
      else beginValue s.stack b
    | _ => none
  | .beginString => beginString s.stack b
  | .beginStringOrEmpty =>
    match s.stack with
    | .objectKey [] :: stack =>
      if isSpace b then some s
      else if b = ascii '}' then some ⟨.endValue (.object []), stack⟩
      else beginString s.stack b
    | _ => none
  | .inString raw =>
    if b = ascii '"' then some (endString raw s.stack)
    else if b = ascii '\\' then some ⟨.inStringEsc (b :: raw), s.stack⟩
    else if b < 0x20 then none
    else some ⟨.inString (b :: raw), s.stack⟩
  | .inStringEsc raw =>
    if b = ascii 'u' then some ⟨.inStringEscU 4 (b :: raw), s.stack⟩
    else if (simpleEscape b).isSome then some ⟨.inString (b :: raw), s.stack⟩
    else none
  | .inStringEscU left raw =>
    if (hexValue b).isNone then none
    else if left = 1 then some ⟨.inString (b :: raw), s.stack⟩
    else some ⟨.inStringEscU (left - 1) (b :: raw), s.stack⟩
  | .inNumber pos raw => inNumber raw s.stack b pos
  | .inWord [] value => afterValue value s.stack b
  | .inWord (c :: rest) value =>
    if b ≠ c then none
    else if rest = [] then some ⟨.endValue value, s.stack⟩
    else some ⟨.inWord rest value, s.stack⟩
  | .endKey key =>
    match s.stack with
    | .objectKey fields :: stack =>
      if isSpace b then some s
      else if b = ascii ':' then some ⟨.beginValue, .objectValue fields key :: stack⟩
      else none
    | _ => none
  | .endValue value => afterValue value s.stack b

/-- A sequence of bytes. -/
def run : Scanner → Bytes → Option Scanner
  | s, [] => some s
  | s, b :: bs => (s.step b).bind (run · bs)

/-- The end of the text, which ends a number too. -/
def eof (s : Scanner) : Option Json :=
  match s.step (ascii ' ') with
  | some ⟨.endValue value, []⟩ => some value
  | _ => none

end Scanner

/-- The value that a text denotes; `none` is a syntax error. -/
def parseText (data : Bytes) : Option Json := (Scanner.init.run data).bind Scanner.eof

/-- `foldName`, as far as it matters to a field whose name is ASCII: two characters outside ASCII
are other cases of an ASCII letter. -/
def foldName (name : String) : List Char :=
  name.toList.map fun c ↦ if c = 'ſ' then 'S' else if c = 'K' then 'K' else c.toUpper

/-- What a text has for a struct: its keys and their values. `null` sets no field, and any other
value that is no object is an error, as is a syntax error. -/
def unmarshal (data : Bytes) : Option (List (String × Json)) :=
  match parseText data with
  | some .null => some []
  | some (.object fields) => some fields
  | _ => none

/-- A field of a struct: the last value under its name, read by `read`. A value that it cannot
read is an error, wherever it stands; `null` is passed over. -/
def field {α : Type} (read : Json → Option α) (zero : α) (name : String)
    (fields : List (String × Json)) : Option α :=
  fields.foldlM
    (fun a f ↦
      if foldName f.1 = foldName name then
        match f.2 with
        | .null => some a
        | v => read v
      else some a)
    zero

/-- A string. -/
def readString : Json → Option String
  | .string s => some s
  | _ => none

/-- An integer of 64 bits. -/
def readInt : Json → Option Int
  | .number literal => parseInt (literal.map fun b ↦ Char.ofNat b.toNat)
  | _ => none

/-- A field of type string. -/
def stringField (name : String) (fields : List (String × Json)) : Option String :=
  field readString "" name fields

/-- A field of type int. -/
def intField (name : String) (fields : List (String × Json)) : Option Int :=
  field readInt 0 name fields

/-- The literal of a natural number. -/
def decimal (n : Nat) : Bytes := (Nat.toDigits 10 n).map ascii

namespace Scanner

/-- A text is scanned piece by piece. -/
theorem run_append (s : Scanner) (bs bs' : Bytes) :
    s.run (bs ++ bs') = (s.run bs).bind (·.run bs') := by
  induction bs generalizing s with
  | nil => rfl
  | cons b bs ih =>
    rw [List.cons_append, run, run]
    cases s.step b with
    | none => rfl
    | some s' => exact ih s'

private theorem run_decimal_pos (stack : List ScanFrame) (n : Nat) (hn : 0 < n) :
    run ⟨.beginValue, stack⟩ (decimal n) =
      some ⟨.inNumber .digits (decimal n).reverse, stack⟩ := by
  induction n using Nat.strongRecOn with
  | ind n ih =>
    by_cases hlt : n < 10
    · rw [decimal, Nat.toDigits_of_lt_base hlt]
      interval_cases n <;> rfl
    · have hdigits : decimal n = decimal (n / 10) ++ [ascii (n % 10).digitChar] := by
        rw [decimal, Nat.toDigits_of_base_le (by omega) (by omega), List.map_append]
        rfl
      have hdigit : isDigit (ascii (n % 10).digitChar) = true := by
        have hmod : n % 10 < 10 := Nat.mod_lt n (by omega)
        interval_cases n % 10 <;> rfl
      rw [hdigits, run_append, ih (n / 10) (by omega) (by omega), List.reverse_append]
      simp only [Option.bind_some, run, step, inNumber, hdigit, if_true]
      rfl

/-- A natural number, and a byte after it that is not part of a number. -/
theorem run_decimal (stack : List ScanFrame) (n : Nat) {b : UInt8} (hdigit : isDigit b = false)
    (hdot : b ≠ ascii '.') (he : b ≠ ascii 'e') (hE : b ≠ ascii 'E') (bs : Bytes) :
    run ⟨.beginValue, stack⟩ (decimal n ++ b :: bs) =
      (afterValue (.number (decimal n)) stack b).bind (run · bs) := by
  have hwhole (raw : Bytes) :
      afterWhole raw stack b = afterValue (.number raw.reverse) stack b := by
    rw [afterWhole, if_neg hdot, afterDigits, if_neg (not_or.mpr ⟨he, hE⟩)]
  rw [run_append]
  rcases Nat.eq_zero_or_pos n with rfl | hn
  · have hzero : run ⟨.beginValue, stack⟩ (decimal 0) = some ⟨.inNumber .zero (decimal 0), stack⟩ :=
      rfl
    rw [hzero, Option.bind_some, run, step]
    exact congrArg (·.bind (run · bs)) (hwhole (decimal 0))
  · rw [run_decimal_pos stack n hn, Option.bind_some, run, step]
    simp only [inNumber, hdigit, Bool.false_eq_true, if_false, hwhole, List.reverse_reverse]

end Scanner

end Json

end Dockstack.Base
