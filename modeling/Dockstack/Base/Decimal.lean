import Mathlib.Data.Nat.Notation
import Mathlib.Data.Int.Notation

/-!
# Decimal integers

`strconv.ParseInt(s, 10, 64)` on a list of characters: an optional sign, one digit or more, and a
value that fits into 64 bits.
-/

namespace Dockstack.Base

/-- `math.MinInt64`. -/
def minInt64 : Int := -9223372036854775808

/-- `math.MaxInt64`. -/
def maxInt64 : Int := 9223372036854775807

/-- The sign of a number and its digits. -/
def splitSign : List Char → Bool × List Char
  | '-' :: cs => (true, cs)
  | '+' :: cs => (false, cs)
  | cs => (false, cs)

/-- `strconv.ParseInt(s, 10, 64)`, on a 64-bit machine also `strconv.Atoi(s)`; `none` is an
error. -/
def parseInt (s : List Char) : Option Int :=
  let (negative, digits) := splitSign s
  if digits ≠ [] ∧ digits.all (·.isDigit) then
    let n := Nat.ofDigitChars 10 digits 0
    let v : Int := if negative then -n else n
    if minInt64 ≤ v ∧ v ≤ maxInt64 then some v else none
  else none

end Dockstack.Base
