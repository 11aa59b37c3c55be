import Dockstack.Base.Bytes

/-!
# Raw URL-safe base64

Go's `base64.RawURLEncoding`: the URL-safe alphabet, no padding.
-/

namespace Dockstack.Base

/-- The letter of a six-bit value: `A–Z`, `a–z`, `0–9`, `-`, `_`. -/
def urlLetter (v : Nat) : UInt8 :=
  if v < 26 then UInt8.ofNat (v + 65)
  else if v < 52 then UInt8.ofNat (v + 71)
  else if v < 62 then UInt8.ofNat (v - 4)
  else if v = 62 then 45
  else 95

/-- Go's `base64.RawURLEncoding.EncodeToString`. -/
def rawURLEncode : Bytes → Bytes
  | [] => []
  | [a] => [urlLetter (a.toNat / 4), urlLetter (a.toNat % 4 * 16)]
  | [a, b] =>
    [urlLetter (a.toNat / 4), urlLetter (a.toNat % 4 * 16 + b.toNat / 16),
      urlLetter (b.toNat % 16 * 4)]
  | a :: b :: c :: rest =>
    urlLetter (a.toNat / 4) :: urlLetter (a.toNat % 4 * 16 + b.toNat / 16) ::
      urlLetter (b.toNat % 16 * 4 + c.toNat / 64) :: urlLetter (c.toNat % 64) :: rawURLEncode rest

/-- `.` is not a letter of the alphabet. -/
theorem urlLetter_ne_dot (v : Nat) : urlLetter v ≠ 46 := by
  have hofNat {n : Nat} (hn : 46 < n) (hlt : n < 256) : UInt8.ofNat n ≠ 46 := by
    intro h
    have hnat := congrArg UInt8.toNat h
    rw [UInt8.toNat_ofNat_of_lt' hlt] at hnat
    simp only [UInt8.reduceToNat] at hnat
    omega
  unfold urlLetter
  split
  · next h => exact hofNat (by omega) (by omega)
  · split
    · next h => exact hofNat (by omega) (by omega)
    · split
      · next h h' => exact hofNat (by omega) (by omega)
      · split
        · decide
        · decide

/-- Encoded text has no `.`. -/
theorem dot_notMem_rawURLEncode (s : Bytes) : 46 ∉ rawURLEncode s := by
  fun_induction rawURLEncode s with
  | case1 => exact List.not_mem_nil
  | case2 a => simp only [List.mem_cons, List.not_mem_nil, (urlLetter_ne_dot _).symm, or_self,
      not_false_eq_true]
  | case3 a b => simp only [List.mem_cons, List.not_mem_nil, (urlLetter_ne_dot _).symm, or_self,
      not_false_eq_true]
  | case4 a b c rest ih => simp only [List.mem_cons, (urlLetter_ne_dot _).symm, ih, or_self,
      not_false_eq_true]

end Dockstack.Base
