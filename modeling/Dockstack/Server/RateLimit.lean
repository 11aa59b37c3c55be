import Dockstack.Base.Clock
import Dockstack.Base.KeyMap
import Dockstack.Base.WindowLog

/-!
# Brute-force limiter

Package `internal/server/api/auth`, `ratelimit.go`. One `bruteLimiter` shares a
bounded map between all its keys: failures are pruned to the window, stale entries
are swept when the map is full, and a failure of a new key is dropped when the map
is still full after the sweep. Each method locks the limiter for its whole body, so
a run is a sequence of calls; `now` is the clock reading the call takes.
-/

namespace Dockstack.Server

open Dockstack.Base

/-- `ratelimit.go:18`. -/
def signInIdentifierMaxFailures : Nat := 5

/-- `ratelimit.go:19`. -/
def signInIPMaxFailures : Nat := 10

/-- `ratelimit.go:20`. -/
def signInFailureWindow : Int := 15 * minute

/-- `ratelimit.go:21`. -/
def signInLockout : Int := 15 * minute

/-- `ratelimit.go:22`. -/
def signInMaxEntries : Nat := 100

/-- `ratelimit.go:39–42`: failure times, oldest first, and the end of the lockout. -/
structure SignInAttempts where
  failures : List Int := []
  lockedUntil : Int := zeroTime
  deriving DecidableEq

/-- `ratelimit.go:31–37`; the mutex is the atomicity of the calls. -/
structure BruteLimiter where
  entries : KeyMap String SignInAttempts
  window : Int
  lockout : Int
  max : Nat

/-- `ratelimit.go:44–51`. -/
def newBruteLimiter (max : Nat) (window lockout : Int) : BruteLimiter where
  entries := ∅
  window := window
  lockout := lockout
  max := max

/-- Keep the failures strictly after `now - window`; `ratelimit.go:100–110`. -/
def SignInAttempts.prune (e : SignInAttempts) (now window : Int) : SignInAttempts :=
  let fresh := now - window
  { e with failures := e.failures.filter (fun t ↦ decide (fresh < t)) }

/-- Count a failure at `now` on an entry; `ratelimit.go:81–87`. -/
def SignInAttempts.record (e : SignInAttempts) (now window lockout : Int) (max : Nat) :
    Int × SignInAttempts :=
  let e := e.prune now window
  let e := { e with failures := e.failures ++ [now] }
  if max ≤ e.failures.length then (lockout, { e with lockedUntil := now + lockout }) else (0, e)

/-- The lockout is over and the last failure has left the window; `ratelimit.go:114–115`. -/
def SignInAttempts.stale (e : SignInAttempts) (now window : Int) : Bool :=
  decide (e.lockedUntil < now) &&
    match e.failures.getLast? with
    | none => true
    | some last => decide (last + window < now)

/-- Time left of an entry's lockout, `0` when there is none; `ratelimit.go:60–63`. -/
def SignInAttempts.remaining (e : SignInAttempts) (now : Int) : Int :=
  let rem := e.lockedUntil - now
  if 0 < rem then rem else 0

namespace BruteLimiter

/-- Remaining lockout of a key, `0` when it is not blocked; `ratelimit.go:53–64`. -/
def blocked (l : BruteLimiter) (key : String) (now : Int) : Int :=
  match l.entries.get? key with
  | none => 0
  | some e => e.remaining now

/-- Delete the stale entries; `ratelimit.go:112–120`. -/
def sweep (l : BruteLimiter) (now : Int) : BruteLimiter :=
  { l with entries := l.entries.filter (fun _ e ↦ !e.stale now l.window) }

/-- The sweep that `fail` makes first when the map is full; `ratelimit.go:70–72`. -/
def makeRoom (l : BruteLimiter) (now : Int) : BruteLimiter :=
  if signInMaxEntries ≤ l.entries.size then l.sweep now else l

/-- Count a failure of `key`, whose entry so far is `e`; `ratelimit.go:81–87`. -/
def record (l : BruteLimiter) (key : String) (e : SignInAttempts) (now : Int) :
    Int × BruteLimiter :=
  let (wait, e) := e.record now l.window l.lockout l.max
  (wait, { l with entries := l.entries.insert key e })

/-- Record a failure, or drop it when a new key finds no room; `ratelimit.go:66–88`. -/
def fail (l : BruteLimiter) (key : String) (now : Int) : Int × BruteLimiter :=
  let l := l.makeRoom now
  match l.entries.get? key with
  | some e => l.record key e now
  | none => if signInMaxEntries ≤ l.entries.size then (0, l) else l.record key {} now

/-- Forget a key; `ratelimit.go:90–94`. -/
def reset (l : BruteLimiter) (key : String) : BruteLimiter :=
  { l with entries := l.entries.erase key }

/-- `ratelimit.go:96–98`. -/
def hit (l : BruteLimiter) (key : String) (now : Int) : Int × BruteLimiter := l.fail key now

/-- The place that `fail` looks for: an entry of the key, or fewer entries than the limit. -/
def hasRoom (l : BruteLimiter) (key : String) (now : Int) : Bool :=
  ((l.makeRoom now).entries.get? key).isSome ||
    decide ((l.makeRoom now).entries.size < signInMaxEntries)

/-- The entry of a key; an absent key behaves as the zero entry. -/
def entryOf (l : BruteLimiter) (key : String) : SignInAttempts :=
  (l.entries.get? key).getD {}

/-- An absent key answers as the zero entry does, from the zero instant on. -/
theorem blocked_eq_remaining (l : BruteLimiter) (key : String) {now : Int}
    (h : zeroTime ≤ now) : l.blocked key now = (l.entryOf key).remaining now := by
  unfold blocked entryOf
  cases l.entries.get? key with
  | some e => rfl
  | none =>
    have hz : ¬ 0 < zeroTime - now := by omega
    exact (if_neg hz).symm

/-- Sweeping replaces a stale entry by the zero entry and keeps every other. -/
theorem entryOf_sweep (l : BruteLimiter) (key : String) (now : Int) :
    (l.sweep now).entryOf key =
      if (l.entryOf key).stale now l.window then {} else l.entryOf key := by
  have hf (o : Option SignInAttempts) : (o.filter (fun e ↦ !e.stale now l.window)).getD {} =
      if (o.getD {}).stale now l.window then {} else o.getD {} := by
    cases o with
    | none => simp
    | some e => cases h : e.stale now l.window <;> simp [Option.filter_some, h]
  unfold entryOf sweep
  rw [KeyMap.get?_filter]
  exact hf (l.entries.get? key)

/-- Making room keeps the window. -/
@[simp] theorem makeRoom_window (l : BruteLimiter) (now : Int) :
    (l.makeRoom now).window = l.window := by
  unfold makeRoom
  split <;> rfl

/-- Making room keeps the lockout. -/
@[simp] theorem makeRoom_lockout (l : BruteLimiter) (now : Int) :
    (l.makeRoom now).lockout = l.lockout := by
  unfold makeRoom
  split <;> rfl

/-- Making room keeps the failure bound. -/
@[simp] theorem makeRoom_max (l : BruteLimiter) (now : Int) : (l.makeRoom now).max = l.max := by
  unfold makeRoom
  split <;> rfl

/-- Making room is nothing or a sweep. -/
theorem makeRoom_eq (l : BruteLimiter) (now : Int) :
    l.makeRoom now = l ∨ l.makeRoom now = l.sweep now := by
  unfold makeRoom
  split
  · exact Or.inr rfl
  · exact Or.inl rfl

/-- With fewer live keys than the limit there is room for any key. -/
theorem hasRoom_of_live {l : BruteLimiter} {now : Int}
    (h : (l.sweep now).entries.size < signInMaxEntries) (key : String) :
    l.hasRoom key now = true := by
  have hs : (l.makeRoom now).entries.size < signInMaxEntries := by
    unfold makeRoom
    split
    · exact h
    · next hn => exact Nat.lt_of_not_le hn
  simp only [hasRoom, hs, decide_true, Bool.or_true]

/-- With room, `fail` counts the failure on the key's entry. -/
theorem fail_of_hasRoom {l : BruteLimiter} {key : String} {now : Int}
    (h : l.hasRoom key now = true) :
    l.fail key now =
      (l.makeRoom now).record key ((l.makeRoom now).entryOf key) now := by
  cases hk : (l.makeRoom now).entries.get? key with
  | some e => simp only [fail, entryOf, hk, Option.getD_some]
  | none =>
    have hs : ¬ signInMaxEntries ≤ (l.makeRoom now).entries.size := by
      simpa [hasRoom, hk] using h
    simp only [fail, entryOf, hk, hs, ↓reduceIte, Option.getD_none]

/-- Without room, `fail` drops the failure: only the sweep is left of the call. -/
theorem fail_of_not_hasRoom {l : BruteLimiter} {key : String} {now : Int}
    (h : l.hasRoom key now = false) : l.fail key now = (0, l.makeRoom now) := by
  unfold fail
  simp only [hasRoom, Bool.or_eq_false_iff, Option.isSome_eq_false_iff,
    Option.isNone_iff_eq_none, decide_eq_false_iff_not, Nat.not_lt] at h
  simp [h.1, h.2]

/-- Counting a failure changes the entry of its own key only. -/
theorem entryOf_record (l : BruteLimiter) (key key' : String) (e : SignInAttempts) (now : Int) :
    (l.record key e now).2.entryOf key' =
      if key' = key then (e.record now l.window l.lockout l.max).2 else l.entryOf key' := by
  simp only [record, entryOf, KeyMap.get?_insert]
  split <;> rfl

/-- A reset forgets its own key only. -/
theorem entryOf_reset (l : BruteLimiter) (key key' : String) :
    (l.reset key).entryOf key' = if key' = key then {} else l.entryOf key' := by
  simp only [reset, entryOf, KeyMap.get?_erase]
  split <;> rfl

end BruteLimiter
end Dockstack.Server
