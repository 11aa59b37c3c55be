import Dockstack.Server.RateLimit

/-!
# The limiter against its event log

The abstract limiter keeps nothing but the failures of a key since its last reset
and scans them for the newest one that completed a full window. The pruned, swept
and bounded map of `ratelimit.go` answers every `blocked` call as that log does, as
long as the failures in the log found room.
-/

namespace Dockstack.Server

open Dockstack.Base
open Dockstack.Base.WindowLog

/-- One locked call on a limiter, with the clock reading it takes; `ratelimit.go:53–120`. -/
inductive Call where
  | blocked (key : String) (now : Int)
  | fail (key : String) (now : Int)
  | reset (key : String) (now : Int)
  | sweep (now : Int)
  deriving DecidableEq

/-- The clock reading of a call. -/
def Call.now : Call → Int
  | .blocked _ now => now
  | .fail _ now => now
  | .reset _ now => now
  | .sweep now => now

namespace BruteLimiter

/-- The state a call leaves. -/
def step (l : BruteLimiter) : Call → BruteLimiter
  | .blocked _ _ => l
  | .fail key now => (l.fail key now).2
  | .reset key _ => l.reset key
  | .sweep now => l.sweep now

/-- Calls handled one at a time. -/
def run (l : BruteLimiter) (calls : List Call) : BruteLimiter := calls.foldl step l

/-- The call is not a failure dropped for lack of capacity. -/
def admits (l : BruteLimiter) : Call → Bool
  | .fail key now => l.hasRoom key now
  | _ => true

/-- No failure of the run is dropped. -/
def AllAdmitted (l : BruteLimiter) : List Call → Prop
  | [] => True
  | c :: cs => l.admits c = true ∧ AllAdmitted (l.step c) cs

end BruteLimiter

/-- What a call does to the log of a key, newest failure first. -/
def logStep (key : String) (log : List Int) : Call → List Int
  | .fail k now => if k = key then now :: log else log
  | .reset k _ => if k = key then [] else log
  | _ => log

/-- All failures of a key since its last reset, newest first. -/
def failLog (key : String) (calls : List Call) : List Int := calls.foldl (logStep key) []

/-- The failures of a key since its last reset that found room, newest first, on top of `log`. -/
def recordedFrom (key : String) : BruteLimiter → List Int → List Call → List Int
  | _, log, [] => log
  | l, log, c :: cs =>
    recordedFrom key (l.step c) (if l.admits c then logStep key log c else log) cs

/-- The failures of a key since its last reset that a new limiter records in a run. -/
def recordedLog (l : BruteLimiter) (key : String) (calls : List Call) : List Int :=
  recordedFrom key l [] calls

/-- At `t` the failure at `s` still locks: it is in the log, its lockout has not ended, and
at least `max` failures up to it have times in `(s - window, s]`. -/
def LockedBy (window lockout : Int) (max : Nat) (log : List Int) (t s : Int) : Prop :=
  ∃ newer older, log = newer ++ s :: older ∧ s ≤ t ∧ t < s + lockout ∧
    max ≤ (s :: older).countP (fun u ↦ decide (s - window < u ∧ u ≤ s))

/-- The answer of the abstract limiter, from the log alone. -/
def logAnswer (window lockout : Int) (max : Nat) (log : List Int) (t : Int) : Int :=
  match lastSaturated (fun s ↦ s - window) max log with
  | none => 0
  | some s => if 0 < s + lockout - t then s + lockout - t else 0

/-- The abstraction invariant between an entry and the log of its key at `now`: from now on
they answer alike and count alike, and both are in time order. -/
structure Tracks (window lockout : Int) (max : Nat) (e : SignInAttempts) (log : List Int)
    (now : Int) : Prop where
  answers : ∀ t, now ≤ t → e.remaining t = logAnswer window lockout max log t
  counts : ∀ s, now ≤ s → countAfter (s - window) e.failures = countAfter (s - window) log
  sorted : e.failures.Pairwise (· ≤ ·)
  failures_le : ∀ u ∈ e.failures, u ≤ now
  logSorted : log.Pairwise (fun u v ↦ v ≤ u)
  log_le : ∀ u ∈ log, u ≤ now

/-- Before any failure the zero entry tracks the empty log. -/
theorem Tracks.zero (window lockout : Int) (max : Nat) {now : Int} (h : zeroTime ≤ now) :
    Tracks window lockout max {} [] now where
  answers t ht := by
    have hz : ¬ 0 < zeroTime - t := by omega
    exact if_neg hz
  counts _ _ := rfl
  sorted := List.Pairwise.nil
  failures_le := by simp
  logSorted := List.Pairwise.nil
  log_le := by simp

/-- Tracking persists as time passes. -/
theorem Tracks.later {window lockout : Int} {max : Nat} {e : SignInAttempts} {log : List Int}
    {now now' : Int} (h : Tracks window lockout max e log now) (hle : now ≤ now') :
    Tracks window lockout max e log now' where
  answers t ht := h.answers t (by omega)
  counts s hs := h.counts s (by omega)
  sorted := h.sorted
  failures_le u hu := by have := h.failures_le u hu; omega
  logSorted := h.logSorted
  log_le u hu := by have := h.log_le u hu; omega

/-- An entry that counts nothing more and locks no longer may be forgotten. -/
theorem Tracks.forget {window lockout : Int} {max : Nat} {e : SignInAttempts} {log : List Int}
    {now : Int} (h : Tracks window lockout max e log now) (hz : zeroTime ≤ now)
    (hs : e.stale now window = true) : Tracks window lockout max {} log now where
  answers t ht := by
    have hl : e.lockedUntil < now := by
      simp only [SignInAttempts.stale, Bool.and_eq_true, decide_eq_true_eq] at hs
      exact hs.1
    have he : e.remaining t = 0 := if_neg (by omega)
    have hn : ¬ 0 < zeroTime - t := by omega
    rw [← h.answers t ht, he]
    exact if_neg hn
  counts s hle := by
    rw [← h.counts s hle, countAfter_nil]
    symm
    apply countAfter_eq_zero
    intro u hu
    cases hg : e.failures.getLast? with
    | none => simp [List.getLast?_eq_none_iff.mp hg] at hu
    | some last =>
      have hlast : last + window < now := by
        simp only [SignInAttempts.stale, hg, Bool.and_eq_true, decide_eq_true_eq] at hs
        exact hs.2
      have hul : u ≤ last := by
        obtain ⟨init, hi⟩ := List.getLast?_eq_some_iff.mp hg
        have hp := h.sorted
        rw [hi, List.pairwise_append] at hp
        rw [hi, List.mem_append, List.mem_singleton] at hu
        rcases hu with hu | rfl
        · exact hp.2.2 u hu last (by simp)
        · exact Int.le_refl u
      omega
  sorted := List.Pairwise.nil
  failures_le := by simp
  logSorted := h.logSorted
  log_le := h.log_le

/-- Counting a failure on the entry is adding it to the log. -/
theorem Tracks.record {window lockout : Int} {max : Nat} {e : SignInAttempts} {log : List Int}
    {now : Int} (h : Tracks window lockout max e log now) :
    Tracks window lockout max (e.record now window lockout max).2 (now :: log) now := by
  have hfails : (e.record now window lockout max).2.failures =
      (e.prune now window).failures ++ [now] := by
    simp only [SignInAttempts.record]
    split <;> rfl
  have hlen : ((e.prune now window).failures ++ [now]).length =
      countAfter (now - window) log + 1 := by
    rw [← h.counts now (Int.le_refl now), List.length_append]
    simp only [SignInAttempts.prune, countAfter, List.countP_eq_length_filter,
      List.length_singleton]
  have hsub : ∀ u ∈ (e.prune now window).failures, u ≤ now := fun u hu ↦
    h.failures_le u (List.mem_of_mem_filter hu)
  refine ⟨?_, ?_, ?_, ?_, ?_, ?_⟩
  · intro t ht
    by_cases hs : Saturated (fun s ↦ s - window) max now log
    · have hmax : max ≤ ((e.prune now window).failures ++ [now]).length := by
        rw [hlen]
        exact hs
      rw [logAnswer, lastSaturated_cons_of hs]
      simp only [SignInAttempts.record, hmax, ↓reduceIte, SignInAttempts.remaining]
    · have hmax : ¬ max ≤ ((e.prune now window).failures ++ [now]).length := by
        rw [hlen]
        exact hs
      have ha := h.answers t ht
      rw [logAnswer, lastSaturated_cons_of_not hs, ← logAnswer, ← ha]
      simp only [SignInAttempts.record, hmax, ↓reduceIte]
      rfl
  · intro s hs
    have hp : countAfter (s - window) (e.prune now window).failures =
        countAfter (s - window) e.failures :=
      countAfter_filter (by omega) e.failures
    rw [hfails, countAfter_append, hp, h.counts s hs, countAfter_cons, countAfter_cons,
      countAfter_nil, Nat.zero_add]
  · rw [hfails, List.pairwise_append]
    refine ⟨h.sorted.filter _, List.pairwise_singleton _ _, ?_⟩
    intro u hu v hv
    obtain rfl := List.mem_singleton.mp hv
    exact hsub u hu
  · rw [hfails]
    intro u hu
    rcases List.mem_append.mp hu with hu | hu
    · exact hsub u hu
    · exact (List.mem_singleton.mp hu).le
  · exact List.pairwise_cons.mpr ⟨h.log_le, h.logSorted⟩
  · intro u hu
    rcases List.mem_cons.mp hu with rfl | hu
    · exact Int.le_refl u
    · exact h.log_le u hu

namespace BruteLimiter

/-- The entry of a key tracks its log under the limiter's own parameters. -/
def TracksKey (l : BruteLimiter) (key : String) (log : List Int) (now : Int) : Prop :=
  Tracks l.window l.lockout l.max (l.entryOf key) log now

/-- A failure, recorded or dropped, never changes the parameters. -/
theorem fail_params (l : BruteLimiter) (key : String) (now : Int) :
    (l.fail key now).2.window = l.window ∧ (l.fail key now).2.lockout = l.lockout ∧
      (l.fail key now).2.max = l.max := by
  cases hr : l.hasRoom key now with
  | true =>
    rw [fail_of_hasRoom hr]
    exact ⟨l.makeRoom_window now, l.makeRoom_lockout now, l.makeRoom_max now⟩
  | false =>
    rw [fail_of_not_hasRoom hr]
    exact ⟨l.makeRoom_window now, l.makeRoom_lockout now, l.makeRoom_max now⟩

/-- Calls keep the window. -/
theorem step_window (l : BruteLimiter) (c : Call) : (l.step c).window = l.window := by
  cases c with
  | fail key now => exact (l.fail_params key now).1
  | _ => rfl

/-- Calls keep the lockout. -/
theorem step_lockout (l : BruteLimiter) (c : Call) : (l.step c).lockout = l.lockout := by
  cases c with
  | fail key now => exact (l.fail_params key now).2.1
  | _ => rfl

/-- Calls keep the failure bound. -/
theorem step_max (l : BruteLimiter) (c : Call) : (l.step c).max = l.max := by
  cases c with
  | fail key now => exact (l.fail_params key now).2.2
  | _ => rfl

/-- Runs keep the parameters. -/
theorem run_params (l : BruteLimiter) (calls : List Call) : (l.run calls).window = l.window ∧
    (l.run calls).lockout = l.lockout ∧ (l.run calls).max = l.max := by
  induction calls generalizing l with
  | nil => exact ⟨rfl, rfl, rfl⟩
  | cons c cs ih =>
    have h := ih (l.step c)
    exact ⟨h.1.trans (l.step_window c), h.2.1.trans (l.step_lockout c),
      h.2.2.trans (l.step_max c)⟩

/-- A sweep keeps every key's entry tracking its log. -/
theorem TracksKey.sweep {l : BruteLimiter} {key : String} {log : List Int} {now : Int}
    (h : l.TracksKey key log now) (hz : zeroTime ≤ now) : (l.sweep now).TracksKey key log now := by
  unfold TracksKey
  rw [entryOf_sweep]
  split
  · next hs => exact h.forget hz hs
  · exact h

/-- So does making room. -/
theorem TracksKey.makeRoom {l : BruteLimiter} {key : String} {log : List Int} {now : Int}
    (h : l.TracksKey key log now) (hz : zeroTime ≤ now) :
    (l.makeRoom now).TracksKey key log now := by
  rcases makeRoom_eq l now with he | he <;> rw [he]
  · exact h
  · exact h.sweep hz

/-- One call keeps the entry tracking the log of the failures that found room. -/
theorem TracksKey.step {l : BruteLimiter} {key : String} {log : List Int} {now : Int}
    (h : l.TracksKey key log now) (hz : zeroTime ≤ now) (c : Call)
    (hc : now ≤ c.now) :
    (l.step c).TracksKey key (if l.admits c then logStep key log c else log) c.now := by
  have hlater : l.TracksKey key log c.now := h.later hc
  have hcz : zeroTime ≤ c.now := Int.le_trans hz hc
  cases c with
  | blocked k t => exact hlater
  | sweep t => exact hlater.sweep hcz
  | reset k t =>
    change Tracks l.window l.lockout l.max ((l.reset k).entryOf key) (if k = key then [] else log) t
    rw [entryOf_reset]
    by_cases hk : k = key
    · rw [if_pos hk, if_pos hk.symm]
      exact Tracks.zero _ _ _ hcz
    · rw [if_neg hk, if_neg (Ne.symm hk)]
      exact hlater
  | fail k t =>
    have hroom : (l.makeRoom t).TracksKey key log t := hlater.makeRoom hcz
    cases hr : l.hasRoom k t with
    | false =>
      have he : l.step (.fail k t) = l.makeRoom t := by
        rw [BruteLimiter.step, fail_of_not_hasRoom hr]
      have ha : l.admits (.fail k t) = false := hr
      rw [he, ha]
      exact hroom
    | true =>
      have hp := l.fail_params k t
      have ha : l.admits (.fail k t) = true := hr
      rw [ha, if_pos rfl]
      unfold TracksKey
      simp only [BruteLimiter.step, logStep]
      rw [hp.1, hp.2.1, hp.2.2, fail_of_hasRoom hr, entryOf_record]
      unfold TracksKey at hroom
      simp only [makeRoom_window, makeRoom_lockout, makeRoom_max] at hroom ⊢
      by_cases hk : k = key
      · subst hk
        rw [if_pos rfl, if_pos rfl]
        exact hroom.record
      · rw [if_neg hk, if_neg (Ne.symm hk)]
        exact hroom

/-- A whole run keeps the entry tracking the log of the failures that found room. -/
theorem TracksKey.run {l : BruteLimiter} {key : String} {log : List Int} {now last : Int}
    (h : l.TracksKey key log now) (hz : zeroTime ≤ now) {calls : List Call}
    (hc : NonDecreasing Call.now now calls last) :
    (l.run calls).TracksKey key (recordedFrom key l log calls) last := by
  induction calls generalizing l log now with
  | nil => exact h.later hc
  | cons c cs ih => exact ih (h.step hz c hc.1) (Int.le_trans hz hc.1) hc.2

/-- A key that is not blocked has fewer than `max` failures in the window that ends now, when
the lockout is at least as long as the window. -/
theorem TracksKey.countAfter_lt {l : BruteLimiter} {key : String} {log : List Int} {now : Int}
    (h : l.TracksKey key log now) (hz : zeroTime ≤ now) (hmax : 0 < l.max)
    (hwl : l.window ≤ l.lockout) (hb : l.blocked key now ≤ 0) :
    countAfter (now - l.window) log < l.max := by
  by_contra hn
  have hmono : Monotone (fun s : Int ↦ s - l.window) := fun a b hab ↦ by
    change a - l.window ≤ b - l.window
    omega
  obtain ⟨s, older, rfl, hin, hs⟩ :=
    saturated_head hmono hmax h.logSorted h.log_le (Nat.le_of_not_lt hn)
  have hpos : 0 < s + l.lockout - now := by omega
  rw [blocked_eq_remaining _ _ hz, h.answers now (Int.le_refl now), logAnswer,
    lastSaturated_cons_of hs] at hb
  simp only [hpos, ↓reduceIte] at hb
  omega

/-- From an empty map, every answer is that of the log of the failures that found room. -/
theorem blocked_run_eq_logAnswer (max : Nat) (window lockout : Int) {calls : List Call}
    (key : String) {t : Int} (hc : NonDecreasing Call.now zeroTime calls t) :
    ((newBruteLimiter max window lockout).run calls).blocked key t =
      logAnswer window lockout max
        (recordedLog (newBruteLimiter max window lockout) key calls) t := by
  have h0 : (newBruteLimiter max window lockout).TracksKey key [] zeroTime :=
    Tracks.zero window lockout max (Int.le_refl zeroTime)
  have h := h0.run (Int.le_refl zeroTime) hc
  have hpr := run_params (newBruteLimiter max window lockout) calls
  unfold TracksKey at h
  rw [hpr.1, hpr.2.1, hpr.2.2] at h
  rw [blocked_eq_remaining _ _ hc.le]
  exact h.answers t (Int.le_refl t)

/-- Every log of recorded failures is newest first and not in the future. -/
theorem recordedLog_sorted (max : Nat) (window lockout : Int) {calls : List Call}
    (key : String) {t : Int} (hc : NonDecreasing Call.now zeroTime calls t) :
    (recordedLog (newBruteLimiter max window lockout) key calls).Pairwise (fun u v ↦ v ≤ u) ∧
      ∀ u ∈ recordedLog (newBruteLimiter max window lockout) key calls, u ≤ t := by
  have h0 : (newBruteLimiter max window lockout).TracksKey key [] zeroTime :=
    Tracks.zero window lockout max (Int.le_refl zeroTime)
  have h := h0.run (Int.le_refl zeroTime) hc
  exact ⟨h.logSorted, h.log_le⟩

/-- When no failure is dropped, the recorded failures are all failures. -/
theorem recordedFrom_eq_failLog {l : BruteLimiter} {calls : List Call} (key : String)
    (log : List Int) (h : l.AllAdmitted calls) :
    recordedFrom key l log calls = calls.foldl (logStep key) log := by
  induction calls generalizing l log with
  | nil => rfl
  | cons c cs ih =>
    simp only [recordedFrom, List.foldl_cons, h.1, ↓reduceIte]
    exact ih _ h.2

end BruteLimiter

/-- A failure that locks by the count of the failures in its window, itself included, saturates the
log. -/
theorem LockedBy.saturated {window lockout : Int} {max : Nat} {log : List Int} {t s : Int}
    (h : LockedBy window lockout max log t s) :
    ∃ newer older, log = newer ++ s :: older ∧ Saturated (fun s ↦ s - window) max s older ∧
      t < s + lockout := by
  obtain ⟨newer, older, hlog, -, ht, hmax⟩ := h
  refine ⟨newer, older, hlog, ?_, ht⟩
  have hle : older.countP (fun u ↦ decide (s - window < u ∧ u ≤ s)) ≤
      countAfter (s - window) older :=
    List.countP_mono_left (fun u _ hu ↦ by simp only [decide_eq_true_eq] at hu ⊢; exact hu.1)
  rw [List.countP_cons] at hmax
  change max ≤ countAfter (s - window) older + 1
  split at hmax <;> omega

/-- In a sorted log the converse holds too, for a positive window. -/
theorem lockedBy_of_saturated {window lockout : Int} {max : Nat} {newer older : List Int}
    {t s : Int} (hw : 0 < window) (hlog : (newer ++ s :: older).Pairwise (fun u v ↦ v ≤ u))
    (hle : ∀ u ∈ newer ++ s :: older, u ≤ t) (hs : Saturated (fun s ↦ s - window) max s older)
    (ht : t < s + lockout) : LockedBy window lockout max (newer ++ s :: older) t s := by
  refine ⟨newer, older, rfl, hle s (by simp), ht, ?_⟩
  have hold : ∀ u ∈ older, u ≤ s := by
    rw [List.pairwise_append, List.pairwise_cons] at hlog
    exact hlog.2.1.1
  have hc : older.countP (fun u ↦ decide (s - window < u ∧ u ≤ s)) =
      countAfter (s - window) older := by
    apply List.countP_congr
    intro u hu
    simp only [decide_eq_true_eq, and_iff_left_iff_imp]
    exact fun _ ↦ hold u hu
  have hself : s - window < s ∧ s ≤ s := ⟨by omega, Int.le_refl s⟩
  rw [List.countP_cons, hc]
  simp only [hself, and_self, decide_true, ↓reduceIte]
  exact hs

/-- A locking failure makes the abstract limiter answer at least its remaining lockout. -/
theorem le_logAnswer_of_lockedBy {window lockout : Int} {max : Nat} {log : List Int} {t s : Int}
    (hlog : log.Pairwise (fun u v ↦ v ≤ u)) (h : LockedBy window lockout max log t s) :
    ∃ u, lastSaturated (fun s ↦ s - window) max log = some u ∧ s ≤ u ∧
      logAnswer window lockout max log t = u + lockout - t := by
  obtain ⟨newer, older, rfl, hs, ht⟩ := h.saturated
  obtain ⟨u, hu, hsu⟩ := le_lastSaturated hlog hs
  have hpos : 0 < u + lockout - t := by omega
  refine ⟨u, hu, hsu, ?_⟩
  simp only [logAnswer, hu, hpos, ↓reduceIte]

/-- The abstract limiter blocks only because of a locking failure. -/
theorem exists_lockedBy_of_pos {window lockout : Int} {max : Nat} {log : List Int} {t : Int}
    (hw : 0 < window) (hlog : log.Pairwise (fun u v ↦ v ≤ u)) (hle : ∀ u ∈ log, u ≤ t)
    (h : 0 < logAnswer window lockout max log t) :
    ∃ s, LockedBy window lockout max log t s ∧
      lastSaturated (fun s ↦ s - window) max log = some s := by
  cases hu : lastSaturated (fun s ↦ s - window) max log with
  | none => simp [logAnswer, hu] at h
  | some s =>
    obtain ⟨newer, older, rfl, hs⟩ := saturated_of_lastSaturated hu
    have ht : t < s + lockout := by
      simp only [logAnswer, hu] at h
      split at h <;> omega
    exact ⟨s, lockedBy_of_saturated hw hlog hle hs ht, rfl⟩

/-- As long as the counted failures found room, a full window of them locks the key out,
whatever calls other keys make; `ratelimit.go:66–88`, `ratelimit_test.go:9–24`. -/
theorem blocked_of_recorded_lockedBy (max : Nat) (window lockout : Int) (calls : List Call)
    (key : String) (t s : Int) (hc : NonDecreasing Call.now zeroTime calls t)
    (h : LockedBy window lockout max
      (recordedLog (newBruteLimiter max window lockout) key calls) t s) :
    0 < ((newBruteLimiter max window lockout).run calls).blocked key t := by
  have hs := BruteLimiter.recordedLog_sorted max window lockout key hc
  obtain ⟨u, -, hsu, ha⟩ := le_logAnswer_of_lockedBy hs.1 h
  obtain ⟨-, -, -, -, ht, -⟩ := h
  rw [BruteLimiter.blocked_run_eq_logAnswer max window lockout key hc, ha]
  omega

/-- The guarantee at work: two failures of one key, next to a failure of another. -/
theorem blocked_after_two_failures :
    0 < ((newBruteLimiter 2 minute minute).run
      [.fail "a" 1, .fail "b" 2, .fail "a" 3]).blocked "a" 4 :=
  blocked_of_recorded_lockedBy 2 minute minute [.fail "a" 1, .fail "b" 2, .fail "a" 3] "a" 4 3
    (by decide) ⟨[], [1], by decide, by decide, by decide, by decide⟩

/-- One failure each of a hundred other keys, then five of the victim. -/
def crowdedCalls : List Call :=
  (List.range 100).map (fun i ↦ Call.fail (toString i) 1) ++
    List.replicate 5 (Call.fail "victim" 2)

set_option maxRecDepth 10000 in
/-- The guarantee fails for failures that found the map full of live keys. -/
theorem not_blocked_of_crowded :
    ¬ ∀ (max : Nat) (window lockout : Int) (calls : List Call) (key : String) (t s : Int),
      NonDecreasing Call.now zeroTime calls t →
      LockedBy window lockout max (failLog key calls) t s →
      0 < ((newBruteLimiter max window lockout).run calls).blocked key t := by
  intro h
  have hlock : LockedBy signInFailureWindow signInLockout signInIdentifierMaxFailures
      (failLog "victim" crowdedCalls) 3 2 :=
    ⟨[], List.replicate 4 2, by decide +kernel, by decide, by decide, by decide⟩
  have hpos := h signInIdentifierMaxFailures signInFailureWindow signInLockout crowdedCalls
    "victim" 3 2 (by decide +kernel) hlock
  have hzero : ((newBruteLimiter signInIdentifierMaxFailures signInFailureWindow
      signInLockout).run crowdedCalls).blocked "victim" 3 = 0 := by decide +kernel
  omega

/-- The pruned, swept map refines the unbounded event log: without dropped failures it blocks
exactly while a failure locks, for the time the latest one leaves, and the answer depends on
nothing but the failures of the key since its last reset. -/
theorem blocked_refines_failLog (max : Nat) (window lockout : Int) (calls : List Call)
    (key : String) (t : Int) (hw : 0 < window) (hc : NonDecreasing Call.now zeroTime calls t)
    (ha : (newBruteLimiter max window lockout).AllAdmitted calls) :
    (0 < ((newBruteLimiter max window lockout).run calls).blocked key t ↔
      ∃ s, LockedBy window lockout max (failLog key calls) t s) ∧
    (∀ s, LockedBy window lockout max (failLog key calls) t s →
      (∀ s', LockedBy window lockout max (failLog key calls) t s' → s' ≤ s) →
      ((newBruteLimiter max window lockout).run calls).blocked key t = s + lockout - t) ∧
    (∀ calls', NonDecreasing Call.now zeroTime calls' t →
      (newBruteLimiter max window lockout).AllAdmitted calls' →
      failLog key calls' = failLog key calls →
      ((newBruteLimiter max window lockout).run calls').blocked key t =
        ((newBruteLimiter max window lockout).run calls).blocked key t) := by
  have hlog : recordedLog (newBruteLimiter max window lockout) key calls = failLog key calls :=
    BruteLimiter.recordedFrom_eq_failLog key [] ha
  have hs := BruteLimiter.recordedLog_sorted max window lockout key hc
  have hb := BruteLimiter.blocked_run_eq_logAnswer max window lockout key hc
  rw [hlog] at hs hb
  refine ⟨?_, ?_, ?_⟩
  · rw [hb]
    constructor
    · intro h
      obtain ⟨s, hl, -⟩ := exists_lockedBy_of_pos hw hs.1 hs.2 h
      exact ⟨s, hl⟩
    · rintro ⟨s, hl⟩
      obtain ⟨u, -, hsu, hu⟩ := le_logAnswer_of_lockedBy hs.1 hl
      obtain ⟨-, -, -, -, ht, -⟩ := hl
      omega
  · intro s hl hlatest
    obtain ⟨u, hlast, hsu, hu⟩ := le_logAnswer_of_lockedBy hs.1 hl
    have hpos : 0 < logAnswer window lockout max (failLog key calls) t := by
      obtain ⟨-, -, -, -, ht, -⟩ := hl
      omega
    obtain ⟨v, hv, hvlast⟩ := exists_lockedBy_of_pos hw hs.1 hs.2 hpos
    have huv : u = v := Option.some.inj (hlast.symm.trans hvlast)
    have hvs := hlatest v hv
    rw [hb, hu]
    omega
  · intro calls' hc' ha' he
    have hlog' : recordedLog (newBruteLimiter max window lockout) key calls' =
        failLog key calls' := BruteLimiter.recordedFrom_eq_failLog key [] ha'
    rw [hb, BruteLimiter.blocked_run_eq_logAnswer max window lockout key hc', hlog', he]

/-- The refinement at work, with a prune and a sweep between the failures. -/
theorem blocked_refines_failLog_swept :
    ((newBruteLimiter 2 10 20).run
      [.fail "a" 1, .fail "a" 15, .sweep 16, .fail "a" 18]).blocked "a" 20 = 18 :=
  (blocked_refines_failLog 2 10 20 [.fail "a" 1, .fail "a" 15, .sweep 16, .fail "a" 18] "a" 20
    (by decide) (by decide) ⟨by decide, by decide, by decide, by decide, trivial⟩).2.1 18
    ⟨[], [15, 1], by decide, by decide, by decide, by decide⟩
    (by
      rintro s' ⟨newer, older, he, -⟩
      have hm : s' ∈ failLog "a" [.fail "a" 1, .fail "a" 15, .sweep 16, .fail "a" 18] := by
        rw [he]
        simp
      have hf : failLog "a" [.fail "a" 1, .fail "a" 15, .sweep 16, .fail "a" 18] =
          [18, 15, 1] := by decide
      rw [hf] at hm
      simp only [List.mem_cons, List.not_mem_nil, or_false] at hm
      omega)

end Dockstack.Server
