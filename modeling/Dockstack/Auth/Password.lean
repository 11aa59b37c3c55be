import Dockstack.Base.Base64Codec
import Dockstack.Base.Scanf
import Dockstack.Base.Utf8

/-!
# Password hashes

`internal/auth/password.go`: an Argon2id hash is stored as text, with its parameters, its salt and
its key between dollar signs, and verified by hashing again with what the text says. Argon2id is an
arbitrary function; the random salt is an argument.
-/

namespace Dockstack.Auth

open Dockstack.Base

/-- `argon2.IDKey`, which returns as many bytes as it is asked for. -/
structure Argon2id where
  idKey (password salt : Bytes) (time memory : UInt32) (threads : UInt8) (keyLen : UInt32) : Bytes
  length_idKey : ∀ password salt time memory threads keyLen,
    (idKey password salt time memory threads keyLen).length = keyLen.toNat

/-- `password.go:15`. -/
def argon2Time : UInt32 := 3

/-- `password.go:16`. -/
def argon2Memory : UInt32 := 64 * 1024

/-- `password.go:17`. -/
def argon2Threads : UInt8 := 4

/-- `password.go:18`. -/
def argon2KeyLen : UInt32 := 32

/-- The errors of the two functions. -/
inductive PasswordError where
  | generateSalt
  | unsupportedFormat
  | parseParams
  | decodeSalt
  | decodeHash
  deriving DecidableEq

/-- The text of an error, or what comes before the colon and the error that it wraps. -/
def PasswordError.text : PasswordError → String
  | .generateSalt => "generate salt"
  | .unsupportedFormat => "unsupported password hash format"
  | .parseParams => "parse argon2 params"
  | .decodeSalt => "decode salt"
  | .decodeHash => "decode hash"

/-- The format `m=%d,t=%d,p=%d` of the parameters, printed in line 27 and scanned in line 54. -/
def argon2Params : List FormatPart :=
  [.text ['m', '='] (by decide), .uint 32, .text [',', 't', '='] (by decide), .uint 32,
    .text [',', 'p', '='] (by decide), .uint 8]

/-- `base64.RawStdEncoding.EncodeToString`. -/
def rawStdText (s : Bytes) : List Char := asciiText (Base64Alphabet.std.encode false s)

/-- `base64.RawStdEncoding.DecodeString`. -/
def rawStdBytes (text : List Char) : Option Bytes :=
  Base64Alphabet.std.decode false (utf8Encode text)

/-- The stored text of a hash; `password.go:27–31`. -/
def encodeHash (memory time : UInt32) (threads : UInt8) (salt key : Bytes) : String :=
  .ofList ("argon2id$v=19$".toList ++
    sprintf argon2Params [memory.toNat, time.toNat, threads.toNat] ++
    '$' :: (rawStdText salt ++ '$' :: rawStdText key))

/-- `HashPassword`; `password.go:21–32`. `salt` is the answer of `rand.Read`, 16 bytes or an
error. -/
def hashPassword (a : Argon2id) (password : Bytes) (salt : Option Bytes) :
    Except PasswordError String :=
  match salt with
  | none => .error .generateSalt
  | some salt =>
    let key := a.idKey password salt argon2Time argon2Memory argon2Threads argon2KeyLen
    .ok (encodeHash argon2Memory argon2Time argon2Threads salt key)

/-- `VerifyPassword`; `password.go:46–67`. -/
def verifyPassword (a : Argon2id) (password : Bytes) (encoded : String) :
    Except PasswordError Bool :=
  match encoded.toList.splitOn '$' with
  | [name, _, params, salt, want] =>
    if name ≠ "argon2id".toList then .error .unsupportedFormat
    else
      match sscanf argon2Params params with
      | some [memory, time, threads] =>
        match rawStdBytes salt with
        | none => .error .decodeSalt
        | some salt =>
          match rawStdBytes want with
          | none => .error .decodeHash
          | some want =>
            let got := a.idKey password salt (.ofNat time) (.ofNat memory) (.ofNat threads)
              (.ofNat want.length)
            .ok (got == want)
      | _ => .error .parseParams
  | _ => .error .unsupportedFormat

private theorem std_letter (v : Nat) : (Base64Alphabet.std.letter v).toNat < 0x80 ∧
    Char.ofNat (Base64Alphabet.std.letter v).toNat ≠ '$' := by
  have hlow : ∀ v < 62, (urlLetter v).toNat < 0x80 ∧ Char.ofNat (urlLetter v).toNat ≠ '$' := by
    decide
  unfold Base64Alphabet.letter
  split
  · next hv => exact hlow v hv
  · split
    · decide
    · decide

private theorem rawStdText_eq (s : Bytes) :
    rawStdText s = (sextets s).map fun v ↦ Char.ofNat (Base64Alphabet.std.letter v).toNat := by
  rw [rawStdText, Base64Alphabet.encode, asciiText, List.map_append, List.map_map]
  exact List.append_nil _

/-- A decoded encoding is what was encoded. -/
theorem rawStdBytes_rawStdText (s : Bytes) : rawStdBytes (rawStdText s) = some s := by
  rw [rawStdBytes, rawStdText, utf8Encode_asciiText, Base64Alphabet.decode_encode]
  intro b hb
  rcases Base64Alphabet.eq_or_eq_letter_of_mem_encode hb with rfl | ⟨v, rfl⟩
  · decide
  · exact (std_letter v).1

/-- There is no dollar sign in an encoding. -/
theorem dollar_notMem_rawStdText (s : Bytes) : '$' ∉ rawStdText s := by
  rw [rawStdText_eq]
  intro h
  obtain ⟨v, -, hv⟩ := List.mem_map.mp h
  exact (std_letter v).2 hv

private theorem dollar_notMem_params (memory time threads : Nat) :
    '$' ∉ sprintf argon2Params [memory, time, threads] := by
  have hdigits (n : Nat) : '$' ∉ Nat.toDigits 10 n := fun h ↦ by
    have hdigit := Nat.isDigit_of_mem_toDigits (by decide) (by decide) h
    contradiction
  simp [argon2Params, sprintf, hdigits]

private theorem readable_params (memory time : UInt32) (threads : UInt8) :
    Readable argon2Params [memory.toNat, time.toNat, threads.toNat] := by
  have hmemory := memory.toNat_lt
  have htime := time.toNat_lt
  have hthreads := threads.toNat_lt
  refine ⟨by omega, hmemory, ?_, by omega, htime, ?_, by omega, hthreads, ?_, trivial⟩
  · rintro c ⟨⟩
    rfl
  · rintro c ⟨⟩
    rfl
  · rintro c ⟨⟩

private theorem splitOn_encodeHash (memory time : UInt32) (threads : UInt8) (salt key : Bytes) :
    (encodeHash memory time threads salt key).toList.splitOn '$' =
      ["argon2id".toList, "v=19".toList,
        sprintf argon2Params [memory.toNat, time.toNat, threads.toNat], rawStdText salt,
        rawStdText key] := by
  have hwhole : (encodeHash memory time threads salt key).toList =
      ['$'].intercalate ["argon2id".toList, "v=19".toList,
        sprintf argon2Params [memory.toNat, time.toNat, threads.toNat], rawStdText salt,
        rawStdText key] := by
    have hstart : "argon2id$v=19$".toList =
        "argon2id".toList ++ '$' :: ("v=19".toList ++ ['$']) := by decide
    have hfive (a b c d e : List Char) : ['$'].intercalate [a, b, c, d, e] =
        a ++ '$' :: (b ++ '$' :: (c ++ '$' :: (d ++ '$' :: e))) := by simp [List.intercalate]
    unfold encodeHash
    rw [String.toList_ofList, hstart, hfive]
    simp only [List.append_assoc, List.cons_append, List.nil_append]
  rw [hwhole, List.splitOn_intercalate '$' _ (by simp)]
  intro part hpart
  simp only [List.mem_cons, List.not_mem_nil, or_false] at hpart
  rcases hpart with rfl | rfl | rfl | rfl | rfl
  · decide
  · decide
  · exact dollar_notMem_params _ _ _
  · exact dollar_notMem_rawStdText salt
  · exact dollar_notMem_rawStdText key

/-- A stored hash is verified by hashing with its own parameters and salt. -/
theorem verifyPassword_encodeHash (a : Argon2id) (password : Bytes) (memory time : UInt32)
    (threads : UInt8) (salt key : Bytes) :
    verifyPassword a password (encodeHash memory time threads salt key) =
      .ok (a.idKey password salt time memory threads (.ofNat key.length) == key) := by
  unfold verifyPassword
  rw [splitOn_encodeHash]
  simp only [sscanf_sprintf (readable_params memory time threads), rawStdBytes_rawStdText,
    UInt32.ofNat_toNat, UInt8.ofNat_toNat, ne_eq, not_true_eq_false, if_false]

/-- Every password's hash verifies, without error, exactly the passwords for which Argon2id answers
the same with its salt and parameters. -/
theorem verifyPassword_hashPassword (a : Argon2id) (p salt q : Bytes) :
    ∃ encoded ok, hashPassword a p (some salt) = .ok encoded ∧
      verifyPassword a q encoded = .ok ok ∧
      (ok = true ↔ a.idKey q salt argon2Time argon2Memory argon2Threads argon2KeyLen =
        a.idKey p salt argon2Time argon2Memory argon2Threads argon2KeyLen) := by
  have hverify := verifyPassword_encodeHash a q argon2Memory argon2Time argon2Threads salt
    (a.idKey p salt argon2Time argon2Memory argon2Threads argon2KeyLen)
  rw [a.length_idKey, UInt32.ofNat_toNat] at hverify
  exact ⟨_, _, by rw [hashPassword], hverify, beq_iff_eq⟩

/-- A salt. -/
def demoSalt : Bytes := [1, 2, 3, 4, 5, 6, 7, 8, 9, 10, 11, 12, 13, 14, 15, 16]

/-- The Argon2id keys of `password`, `guess` and `new` with this salt and the code's parameters. -/
def derivedKeys : List (Bytes × Bytes) :=
  [([112, 97, 115, 115, 119, 111, 114, 100],
      [255, 47, 211, 225, 177, 27, 251, 154, 128, 206, 111, 68, 101, 120, 169, 182, 207, 117, 97,
       121, 15, 20, 244, 248, 164, 170, 51, 214, 70, 12, 185, 5]),
    ([103, 117, 101, 115, 115],
      [114, 33, 69, 41, 135, 64, 20, 36, 35, 165, 59, 216, 252, 125, 211, 166, 160, 58, 192, 50,
       244, 202, 15, 158, 34, 30, 0, 6, 232, 63, 94, 123]),
    ([110, 101, 119],
      [109, 6, 138, 255, 172, 136, 212, 190, 92, 210, 160, 242, 18, 203, 62, 207, 63, 157, 91,
       32, 20, 73, 89, 113, 249, 151, 178, 243, 74, 251, 214, 25])]

/-- Argon2id on these. -/
def demoArgon : Argon2id where
  idKey password salt time memory threads keyLen :=
    let key := ((derivedKeys.find? (·.1 = password)).map (·.2)).getD []
    if salt = demoSalt ∧ time = argon2Time ∧ memory = argon2Memory ∧ threads = argon2Threads ∧
        key.length = keyLen.toNat then key
    else List.replicate keyLen.toNat 0
  length_idKey password salt time memory threads keyLen := by
    dsimp only
    split
    · next h => exact h.2.2.2.2
    · exact List.length_replicate

/-- The hash of `password` verifies this password, and not `guess`. -/
theorem verifyPassword_hashPassword_demo :
    ∃ encoded, hashPassword demoArgon [112, 97, 115, 115, 119, 111, 114, 100] (some demoSalt) =
        .ok encoded ∧
      verifyPassword demoArgon [112, 97, 115, 115, 119, 111, 114, 100] encoded = .ok true ∧
      verifyPassword demoArgon [103, 117, 101, 115, 115] encoded = .ok false := by
  obtain ⟨encoded, ok, hencoded, hright, hok⟩ := verifyPassword_hashPassword demoArgon
    [112, 97, 115, 115, 119, 111, 114, 100] demoSalt [112, 97, 115, 115, 119, 111, 114, 100]
  obtain ⟨encoded', wrong, hencoded', hguess, hwrong⟩ := verifyPassword_hashPassword demoArgon
    [112, 97, 115, 115, 119, 111, 114, 100] demoSalt [103, 117, 101, 115, 115]
  obtain rfl := Except.ok.inj (hencoded.symm.trans hencoded')
  have hne : wrong = false := Bool.eq_false_iff.mpr fun h ↦ absurd (hwrong.mp h) (by decide +kernel)
  exact ⟨encoded, hencoded, by rw [hright, hok.mpr rfl], by rw [hguess, hne]⟩

end Dockstack.Auth
