import Mathlib.Data.List.Basic
import Mathlib.Algebra.Order.Group.Int

/-!
# Instants, durations and timed event sequences

An instant is the `Int` of nanoseconds since the zero value of Go's `time.Time`
(1 January of year 1), a duration an `Int` of nanoseconds, so `t.After(u)`,
`t.Before(u)`, `t.Add(d)` and `t.Sub(u)` are `u < t`, `t < u`, `t + d` and `t - u`.
A clock reading is never before the zero instant.
-/

namespace Dockstack.Base

/-- The zero value of `time.Time`. -/
def zeroTime : Int := 0

/-- Go's `time.Millisecond`. -/
def millisecond : Int := 1000000

/-- Go's `time.Second`. -/
def second : Int := 1000 * millisecond

/-- Go's `time.Minute`. -/
def minute : Int := 60 * second

/-- Go's `time.Hour`. -/
def hour : Int := 60 * minute

/-- Seconds from the zero `time.Time` to the Unix epoch. -/
def unixToInternal : Int := 62135596800

/-- Go's `t.UnixMilli()`: whole milliseconds since the Unix epoch, rounded down. -/
def unixMilli (t : Int) : Int := t / millisecond - unixToInternal * 1000

/-- Milliseconds pass with the clock. -/
theorem unixMilli_mono {a b : Int} (h : a ≤ b) : unixMilli a ≤ unixMilli b := by
  have hdiv := Int.ediv_le_ediv (by decide : (0 : Int) < millisecond) h
  unfold unixMilli
  omega

/-- Events happen in non-decreasing time, none before `now` and none after `last`. -/
def NonDecreasing {E : Type} (time : E → Int) : Int → List E → Int → Prop
  | now, [], last => now ≤ last
  | now, e :: es, last => now ≤ time e ∧ NonDecreasing time (time e) es last

section

variable {E : Type} {time : E → Int}

/-- Time order is decided by scanning the events once. -/
instance decidableNonDecreasing : ∀ (now : Int) (es : List E) (last : Int),
    Decidable (NonDecreasing time now es last)
  | now, [], last => inferInstanceAs (Decidable (now ≤ last))
  | now, e :: es, last =>
    have := decidableNonDecreasing (time e) es last
    inferInstanceAs (Decidable (now ≤ time e ∧ NonDecreasing time (time e) es last))

/-- The first instant is not after the last. -/
theorem NonDecreasing.le {now last : Int} {es : List E} (h : NonDecreasing time now es last) :
    now ≤ last := by
  induction es generalizing now with
  | nil => exact h
  | cons e es ih => exact Int.le_trans h.1 (ih h.2)

end

end Dockstack.Base
