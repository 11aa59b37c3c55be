import Dockstack.Base.Machine
import Dockstack.Server.SignIn

/-!
# The memory of the limiters

What `signInGuard` and `requestGuard` keep (`internal/server/api/auth/ratelimit.go:122–209`) when
requests are handled one after the other. Nothing bounds the failures of an entry as such: a full
entry is locked for a lockout from its last failure on, no failure is counted while it is locked,
and the window is no longer than the lockout, so that the next failure finds an empty list.
-/

namespace Dockstack.Server

open Dockstack.Base

/-- `ratelimit.go:26`. -/
def requestLimitMax : Nat := signInIPMaxFailures

/-- `ratelimit.go:27`. -/
def requestLimitWindow : Int := signInFailureWindow

/-- `ratelimit.go:28`. -/
def requestLimitLockout : Int := signInLockout

/-- `ratelimit.go:122–126`. -/
structure SignInGuard where
  ip : BruteLimiter
  id : BruteLimiter

namespace SignInGuard

/-- `signInGuard.init`; `ratelimit.go:128–133`. -/
def init : SignInGuard where
  ip := newBruteLimiter signInIPMaxFailures signInFailureWindow signInLockout
  id := newBruteLimiter signInIdentifierMaxFailures signInFailureWindow signInLockout

/-- `signInGuard.check`, with the clock readings of its two calls; `ratelimit.go:135–144`. -/
def check (g : SignInGuard) (ipKey idKey : String) (nowIP nowID : Int) : Option SignInError :=
  let wait := g.ip.blocked ipKey nowIP
  if 0 < wait then some (signInTooManyRequests wait)
  else
    let wait := g.id.blocked idKey nowID
    if 0 < wait then some (signInTooManyRequests wait) else none

/-- `signInGuard.recordFailure`; `ratelimit.go:146–152`. -/
def recordFailure (g : SignInGuard) (ipKey idKey : String) (nowIP nowID : Int) : SignInGuard where
  ip := (g.ip.fail ipKey nowIP).2
  id := (g.id.fail idKey nowID).2

/-- `signInGuard.clear`; `ratelimit.go:154–158`. -/
def clear (g : SignInGuard) (ipKey idKey : String) : SignInGuard where
  ip := g.ip.reset ipKey
  id := g.id.reset idKey

end SignInGuard

/-- `ratelimit.go:179–183`. -/
structure RequestGuard where
  passkey : BruteLimiter
  forgotPass : BruteLimiter

namespace RequestGuard

/-- `requestGuard.init`; `ratelimit.go:185–190`. -/
def init : RequestGuard where
  passkey := newBruteLimiter requestLimitMax requestLimitWindow requestLimitLockout
  forgotPass := newBruteLimiter requestLimitMax requestLimitWindow requestLimitLockout

/-- `requestGuard.limit`, with the clock readings of its two calls; `ratelimit.go:202–209`. -/
def limit (l : BruteLimiter) (ipKey : String) (now nowHit : Int) :
    Option SignInError × BruteLimiter :=
  let wait := l.blocked ipKey now
  if 0 < wait then (some (.tooManyRequests "Too many requests." wait), l)
  else (none, (l.hit ipKey nowHit).2)

/-- `ratelimit.go:192–195`. -/
def passkeyBegin (g : RequestGuard) (ipKey : String) (now nowHit : Int) :
    Option SignInError × RequestGuard :=
  let (err, l) := limit g.passkey ipKey now nowHit
  (err, { g with passkey := l })

/-- `ratelimit.go:197–200`. -/
def forgotPassword (g : RequestGuard) (ipKey : String) (now nowHit : Int) :
    Option SignInError × RequestGuard :=
  let (err, l) := limit g.forgotPass ipKey now nowHit
  (err, { g with forgotPass := l })

end RequestGuard

/-! ## What a limiter keeps -/

/-- What holds of an entry at `now`: its failures are in order, no more than `max`, and locked for a
lockout after each of them once they are `max`; the lock is that of a call of `fail`. -/
structure SignInAttempts.Within (e : SignInAttempts) (max : Nat) (lockout : Int) (key : String)
    (fails : List (String × Int)) (now : Int) : Prop where
  sorted : e.failures.Pairwise (· ≤ ·)
  failures_le : ∀ t ∈ e.failures, t ≤ now
  length_le : e.failures.length ≤ max
  full : e.failures.length = max → ∀ t ∈ e.failures, t + lockout ≤ e.lockedUntil
  lockedUntil : e.lockedUntil = zeroTime ∨ ∃ t, (key, t) ∈ fails ∧ e.lockedUntil = t + lockout

namespace SignInAttempts.Within

variable {e : SignInAttempts} {max : Nat} {window lockout : Int} {key : String}
  {fails fails' : List (String × Int)} {now now' : Int}

/-- Before any failure. -/
theorem zero : ({} : SignInAttempts).Within max lockout key fails now where
  sorted := List.Pairwise.nil
  failures_le _ ht := absurd ht List.not_mem_nil
  length_le := Nat.zero_le max
  full _ _ ht := absurd ht List.not_mem_nil
  lockedUntil := .inl rfl

/-- Time passes, and other failures come. -/
theorem later (h : e.Within max lockout key fails now) (hnow : now ≤ now')
    (hfails : fails ⊆ fails') : e.Within max lockout key fails' now' where
  sorted := h.sorted
  failures_le t ht := (h.failures_le t ht).trans hnow
  length_le := h.length_le
  full := h.full
  lockedUntil := h.lockedUntil.imp_right fun ⟨t, ht, heq⟩ ↦ ⟨t, hfails ht, heq⟩

/-- A full entry whose lock is over has left the window. -/
theorem length_prune_lt (h : e.Within max lockout key fails now) (hmax : 0 < max)
    (hwindow : window ≤ lockout) (hfree : e.failures.length = max → e.lockedUntil ≤ now') :
    (e.prune now' window).failures.length < max := by
  rcases Nat.lt_or_eq_of_le h.length_le with hlt | hfull
  · exact (List.length_filter_le _ _).trans_lt hlt
  · have hnil : (e.prune now' window).failures = [] := by
      refine List.filter_eq_nil_iff.mpr fun t ht ↦ ?_
      have hlocked := h.full hfull t ht
      have hover := hfree hfull
      simp only [decide_eq_true_eq]
      omega
    rwa [hnil]

/-- A failure of an entry that is not locked. -/
theorem record (h : e.Within max lockout key fails now) (hmax : 0 < max)
    (hwindow : window ≤ lockout) (hfree : e.failures.length = max → e.lockedUntil ≤ now')
    (hnow : now ≤ now') : (e.record now' window lockout max).2.failures ≠ [] ∧
      (e.record now' window lockout max).2.Within max lockout key ((key, now') :: fails) now' := by
  have hkept : ∀ t ∈ (e.prune now' window).failures, t ≤ now' := fun t ht ↦
    (h.failures_le t (List.mem_of_mem_filter ht)).trans hnow
  have hfailures : ∀ t ∈ (e.prune now' window).failures ++ [now'], t ≤ now' := by
    intro t ht
    rcases List.mem_append.mp ht with ht | ht
    · exact hkept t ht
    · exact (List.mem_singleton.mp ht).le
  have hsorted : ((e.prune now' window).failures ++ [now']).Pairwise (· ≤ ·) := by
    rw [List.pairwise_append]
    refine ⟨h.sorted.filter _, List.pairwise_singleton _ _, fun t ht t' ht' ↦ ?_⟩
    rw [List.mem_singleton.mp ht']
    exact hkept t ht
  have hlength : ((e.prune now' window).failures ++ [now']).length ≤ max := by
    rw [List.length_append]
    exact h.length_prune_lt hmax hwindow hfree
  unfold SignInAttempts.record
  dsimp only
  split
  · refine ⟨by simp, hsorted, hfailures, hlength, fun _ t ht ↦ ?_, .inr ⟨now', ?_, rfl⟩⟩
    · exact Int.add_le_add_right (hfailures t ht) lockout
    · exact List.mem_cons_self
  · next hfew =>
    refine ⟨by simp, hsorted, hfailures, hlength, fun hfull ↦ absurd hfull.ge hfew, ?_⟩
    exact (h.later le_rfl (List.subset_cons_self _ _)).lockedUntil

end SignInAttempts.Within

/-- What holds of a limiter at `now`: it has at most `signInMaxEntries` entries, each with a
failure. -/
structure BruteLimiter.Within (l : BruteLimiter) (fails : List (String × Int)) (now : Int) :
    Prop where
  max_pos : 0 < l.max
  window_le : l.window ≤ l.lockout
  size_le : l.entries.size ≤ signInMaxEntries
  failures_ne : ∀ {key e}, l.entries.get? key = some e → e.failures ≠ []
  entry : ∀ {key e}, l.entries.get? key = some e → e.Within l.max l.lockout key fails now

namespace BruteLimiter.Within

variable {l : BruteLimiter} {fails fails' : List (String × Int)} {key : String} {now now' t : Int}

/-- A new limiter. -/
theorem init {max : Nat} (hmax : 0 < max) {window lockout : Int} (hwindow : window ≤ lockout) :
    (newBruteLimiter max window lockout).Within fails now where
  max_pos := hmax
  window_le := hwindow
  size_le := Nat.zero_le _
  failures_ne he := absurd he (by simp [newBruteLimiter])
  entry he := absurd he (by simp [newBruteLimiter])

/-- Time passes, and other failures come. -/
theorem later (h : l.Within fails now) (hnow : now ≤ now') (hfails : fails ⊆ fails') :
    l.Within fails' now' :=
  { h with entry := fun he ↦ (h.entry he).later hnow hfails }

/-- Entries may go. -/
theorem of_entries (h : l.Within fails now) {entries : KeyMap String SignInAttempts}
    (hsize : entries.size ≤ l.entries.size)
    (hentries : ∀ {key e}, entries.get? key = some e → l.entries.get? key = some e) :
    ({ l with entries := entries } : BruteLimiter).Within fails now where
  max_pos := h.max_pos
  window_le := h.window_le
  size_le := hsize.trans h.size_le
  failures_ne he := h.failures_ne (hentries he)
  entry he := h.entry (hentries he)

/-- A key is forgotten. -/
theorem reset (h : l.Within fails now) (key : String) : (l.reset key).Within fails now := by
  refine h.of_entries (KeyMap.size_erase_le l.entries key) fun he ↦ ?_
  rw [KeyMap.get?_erase] at he
  split at he
  · contradiction
  · exact he

private theorem get?_of_makeRoom {e : SignInAttempts}
    (h : (l.makeRoom now).entries.get? key = some e) : l.entries.get? key = some e := by
  rcases l.makeRoom_eq now with heq | heq
  · rwa [heq] at h
  · rw [heq, BruteLimiter.sweep, KeyMap.get?_filter, Option.filter_eq_some_iff] at h
    exact h.1

/-- Stale entries are swept. -/
theorem makeRoom (h : l.Within fails now) (now' : Int) : (l.makeRoom now').Within fails now := by
  have hkept {key : String} {e : SignInAttempts}
      (he : (l.makeRoom now').entries.get? key = some e) : l.entries.get? key = some e :=
    get?_of_makeRoom he
  rcases l.makeRoom_eq now' with heq | heq
  · rwa [heq]
  · rw [heq] at hkept ⊢
    exact h.of_entries (KeyMap.size_filter_le _ l.entries) hkept

/-- The entry of a key, which may be none. -/
theorem entryOf (h : l.Within fails now) (key : String) :
    (l.entryOf key).Within l.max l.lockout key fails now := by
  unfold BruteLimiter.entryOf
  cases he : l.entries.get? key with
  | none => exact .zero
  | some e => exact h.entry he

/-- An entry comes, or takes the place of one, if there is room. -/
theorem insert (h : l.Within fails now) {e : SignInAttempts}
    (hroom : (l.entries.get? key).isSome = true ∨ l.entries.size < signInMaxEntries)
    (hne : e.failures ≠ []) (he : e.Within l.max l.lockout key fails now) :
    ({ l with entries := l.entries.insert key e } : BruteLimiter).Within fails now where
  max_pos := h.max_pos
  window_le := h.window_le
  size_le := by
    rcases hroom with hsome | hlt
    · exact (KeyMap.size_insert_of_isSome hsome e).trans_le h.size_le
    · exact (KeyMap.size_insert_le l.entries key e).trans hlt
  failures_ne hget := by
    rw [KeyMap.get?_insert] at hget
    split at hget
    · obtain rfl := Option.some.inj hget
      exact hne
    · exact h.failures_ne hget
  entry hget := by
    rw [KeyMap.get?_insert] at hget
    split at hget
    · next hkey =>
      obtain rfl := Option.some.inj hget
      rwa [hkey]
    · exact h.entry hget

private theorem lockedUntil_le (hfree : ¬ 0 < l.blocked key t) (hmax : 0 < l.max)
    (hfull : ((l.makeRoom now).entryOf key).failures.length = l.max) :
    ((l.makeRoom now).entryOf key).lockedUntil ≤ t := by
  cases hget : (l.makeRoom now).entries.get? key with
  | none =>
    rw [BruteLimiter.entryOf, hget] at hfull
    exact absurd hfull hmax.ne
  | some e =>
    rw [BruteLimiter.entryOf, hget, Option.getD_some]
    rw [BruteLimiter.blocked, get?_of_makeRoom hget] at hfree
    unfold SignInAttempts.remaining at hfree
    dsimp only at hfree
    split at hfree
    · contradiction
    · omega

/-- A failure of a key that is not blocked is counted, or dropped for want of room. -/
theorem fail (h : l.Within fails now) (hfree : ¬ 0 < l.blocked key t) (ht : t ≤ now')
    (hnow : now ≤ now') : (l.fail key now').2.Within ((key, now') :: fails) now' := by
  have hmade : (l.makeRoom now').Within ((key, now') :: fails) now' :=
    (h.makeRoom now').later hnow (List.subset_cons_self _ _)
  cases hroom : l.hasRoom key now' with
  | false =>
    rw [BruteLimiter.fail_of_not_hasRoom hroom]
    exact hmade
  | true =>
    rw [BruteLimiter.fail_of_hasRoom hroom]
    have hentry := ((h.makeRoom now').entryOf key).record hmade.max_pos hmade.window_le
      (fun hfull ↦ (lockedUntil_le hfree h.max_pos (by simpa using hfull)).trans ht) hnow
    refine hmade.insert ?_ hentry.1 hentry.2
    simpa [BruteLimiter.hasRoom] using hroom

end BruteLimiter.Within

/-! ## Requests one after the other -/

/-- The limiters of the two guards. -/
inductive LimiterName where
  | ip
  | id
  | passkey
  | forgotPass
  deriving DecidableEq

/-- The failures that a limiter allows. -/
def LimiterName.max : LimiterName → Nat
  | .ip => signInIPMaxFailures
  | .id => signInIdentifierMaxFailures
  | .passkey => requestLimitMax
  | .forgotPass => requestLimitMax

/-- How a sign-in goes on after its check: the credentials are wrong or right, or the request ends
with an error of the store. -/
inductive SignInOutcome where
  | recordFailure
  | clear
  | error
  deriving DecidableEq

/-- A request, with its keys and the clock readings that it takes, in their order. -/
inductive GuardRequest where
  | signIn (ipKey idKey : String) (checkIP checkID failIP failID : Int) (outcome : SignInOutcome)
  | passkeyBegin (ipKey : String) (now nowHit : Int)
  | forgotPassword (ipKey : String) (now nowHit : Int)

/-- The two guards, the last clock reading, and the calls of `fail` on each limiter with their keys
and clock readings, newest first. -/
structure GuardState where
  clock : Int
  guard : SignInGuard
  limits : RequestGuard
  fails : LimiterName → List (String × Int)

namespace GuardState

/-- Before any request. -/
def init : GuardState where
  clock := zeroTime
  guard := .init
  limits := .init
  fails _ := []

/-- A limiter by its name. -/
def limiter (s : GuardState) : LimiterName → BruteLimiter
  | .ip => s.guard.ip
  | .id => s.guard.id
  | .passkey => s.limits.passkey
  | .forgotPass => s.limits.forgotPass

/-- Note a call of `fail`. -/
def addFail (fails : LimiterName → List (String × Int)) (name : LimiterName) (key : String)
    (now : Int) : LimiterName → List (String × Int) :=
  Function.update fails name ((key, now) :: fails name)

/-- The end of a sign-in that was let in. -/
def settle (s : GuardState) (ipKey idKey : String) (failIP failID : Int) :
    SignInOutcome → GuardState
  | .recordFailure => { s with
      guard := s.guard.recordFailure ipKey idKey failIP failID
      fails := addFail (addFail s.fails .ip ipKey failIP) .id idKey failID }
  | .clear => { s with guard := s.guard.clear ipKey idKey }
  | .error => s

/-- One request from its beginning to its end, in non-decreasing time. -/
def step (s : GuardState) : GuardRequest → Option GuardState
  | .signIn ipKey idKey checkIP checkID failIP failID outcome =>
    if s.clock ≤ checkIP ∧ checkIP ≤ checkID ∧ checkID ≤ failIP ∧ failIP ≤ failID then
      match s.guard.check ipKey idKey checkIP checkID with
      | some _ => some { s with clock := failID }
      | none => some { s.settle ipKey idKey failIP failID outcome with clock := failID }
    else none
  | .passkeyBegin ipKey now nowHit =>
    if s.clock ≤ now ∧ now ≤ nowHit then
      let (err, limits) := s.limits.passkeyBegin ipKey now nowHit
      some { s with
        clock := nowHit
        limits := limits
        fails := if err.isNone then addFail s.fails .passkey ipKey nowHit else s.fails }
    else none
  | .forgotPassword ipKey now nowHit =>
    if s.clock ≤ now ∧ now ≤ nowHit then
      let (err, limits) := s.limits.forgotPassword ipKey now nowHit
      some { s with
        clock := nowHit
        limits := limits
        fails := if err.isNone then addFail s.fails .forgotPass ipKey nowHit else s.fails }
    else none

/-- What one request does to a limiter and its calls of `fail`: nothing, a reset, or a `fail` of a
key that was not blocked. -/
inductive Effect (l : BruteLimiter) (fails : List (String × Int)) (clock clock' : Int) :
    BruteLimiter → List (String × Int) → Prop where
  | keep : Effect l fails clock clock' l fails
  | reset (key : String) : Effect l fails clock clock' (l.reset key) fails
  | fail {key : String} {t now : Int} (hfree : ¬ 0 < l.blocked key t) (ht : t ≤ now)
      (hfrom : clock ≤ now) (hto : now ≤ clock') :
      Effect l fails clock clock' (l.fail key now).2 ((key, now) :: fails)

private theorem Effect.unchanged {l l' : BruteLimiter} {fails fails' : List (String × Int)}
    {clock clock' : Int} (hl : l' = l) (hfails : fails' = fails) :
    Effect l fails clock clock' l' fails' := by
  rw [hl, hfails]
  exact .keep

variable {s s' : GuardState} {r : GuardRequest}

private theorem limit_effect {l : BruteLimiter} {fails : List (String × Int)} {key : String}
    {clock now nowHit : Int} (hclock : clock ≤ now) (hnow : now ≤ nowHit) :
    Effect l fails clock nowHit (RequestGuard.limit l key now nowHit).2
      (if (RequestGuard.limit l key now nowHit).1.isNone then (key, nowHit) :: fails
        else fails) := by
  unfold RequestGuard.limit
  by_cases hfree : 0 < l.blocked key now
  · simp only [hfree, if_true, Option.isNone_some, Bool.false_eq_true, if_false]
    exact .keep
  · simp only [hfree, if_false, Option.isNone_none, if_true]
    exact .fail hfree hnow (hclock.trans hnow) le_rfl

private theorem not_blocked_of_check {g : SignInGuard} {ipKey idKey : String} {nowIP nowID : Int}
    (h : g.check ipKey idKey nowIP nowID = none) :
    ¬ 0 < g.ip.blocked ipKey nowIP ∧ ¬ 0 < g.id.blocked idKey nowID := by
  unfold SignInGuard.check at h
  dsimp only at h
  split_ifs at h with hip hid
  exact ⟨hip, hid⟩

/-- One request, limiter by limiter. -/
theorem step_effect (h : step s r = some s') : s.clock ≤ s'.clock ∧ ∀ name,
    Effect (s.limiter name) (s.fails name) s.clock s'.clock (s'.limiter name) (s'.fails name) := by
  cases r with
  | signIn ipKey idKey checkIP checkID failIP failID outcome =>
    rw [step] at h
    split at h
    · next htimes =>
      obtain ⟨h₁, h₂, h₃, h₄⟩ := htimes
      have hclock : s.clock ≤ failID := by omega
      split at h
      · obtain rfl := Option.some.inj h
        exact ⟨hclock, fun _ ↦ .keep⟩
      · next hcheck =>
        obtain rfl := Option.some.inj h
        obtain ⟨hip, hid⟩ := not_blocked_of_check hcheck
        refine ⟨hclock, fun name ↦ ?_⟩
        cases outcome with
        | recordFailure =>
          cases name with
          | ip => exact .fail hip (by omega) (by omega) h₄
          | id => exact .fail hid (by omega) hclock le_rfl
          | passkey => exact .keep
          | forgotPass => exact .keep
        | clear =>
          cases name with
          | ip => exact .reset ipKey
          | id => exact .reset idKey
          | passkey => exact .keep
          | forgotPass => exact .keep
        | error => exact .keep
    · contradiction
  | passkeyBegin ipKey now nowHit =>
    rw [step] at h
    split at h
    · next htimes =>
      obtain rfl := Option.some.inj h
      refine ⟨htimes.1.trans htimes.2, fun name ↦ ?_⟩
      simp only [ite_apply]
      cases name with
      | passkey => exact limit_effect htimes.1 htimes.2
      | ip => exact .unchanged rfl (ite_self _)
      | id => exact .unchanged rfl (ite_self _)
      | forgotPass => exact .unchanged rfl (ite_self _)
    · contradiction
  | forgotPassword ipKey now nowHit =>
    rw [step] at h
    split at h
    · next htimes =>
      obtain rfl := Option.some.inj h
      refine ⟨htimes.1.trans htimes.2, fun name ↦ ?_⟩
      simp only [ite_apply]
      cases name with
      | forgotPass => exact limit_effect htimes.1 htimes.2
      | ip => exact .unchanged rfl (ite_self _)
      | id => exact .unchanged rfl (ite_self _)
      | passkey => exact .unchanged rfl (ite_self _)
    · contradiction

/-- What one request does to a limiter keeps it within its bounds. -/
theorem Effect.within {l l' : BruteLimiter} {fails fails' : List (String × Int)}
    {clock clock' : Int} (he : Effect l fails clock clock' l' fails') (hclock : clock ≤ clock')
    (h : l.Within fails clock) : l'.Within fails' clock' := by
  cases he with
  | keep => exact h.later hclock (List.Subset.refl fails)
  | reset key => exact (h.reset key).later hclock (List.Subset.refl fails)
  | fail hfree ht hfrom hto => exact (h.fail hfree ht hfrom).later hto (List.Subset.refl _)

/-- It does not change what the limiter allows. -/
theorem Effect.max_eq {l l' : BruteLimiter} {fails fails' : List (String × Int)}
    {clock clock' : Int} (he : Effect l fails clock clock' l' fails') :
    l'.max = l.max ∧ l'.lockout = l.lockout := by
  cases he with
  | keep => exact ⟨rfl, rfl⟩
  | reset key => exact ⟨rfl, rfl⟩
  | @fail key t now hfree ht hfrom hto =>
    exact ⟨l.step_max (.fail key now), l.step_lockout (.fail key now)⟩

/-- Every limiter is the one that `init` made, and within its bounds. -/
def Within (s : GuardState) : Prop := ∀ name, (s.limiter name).Within (s.fails name) s.clock ∧
  (s.limiter name).max = name.max ∧ (s.limiter name).lockout = signInLockout

/-- At first. -/
theorem within_init : init.Within := by
  intro name
  cases name with
  | ip => exact ⟨.init (by decide) le_rfl, rfl, rfl⟩
  | id => exact ⟨.init (by decide) le_rfl, rfl, rfl⟩
  | passkey => exact ⟨.init (by decide) le_rfl, rfl, rfl⟩
  | forgotPass => exact ⟨.init (by decide) le_rfl, rfl, rfl⟩

/-- After every request. -/
theorem Within.step (h : s.Within) (hs : GuardState.step s r = some s') : s'.Within := by
  obtain ⟨hclock, heffect⟩ := step_effect hs
  intro name
  obtain ⟨hwithin, hmax, hlockout⟩ := h name
  obtain ⟨hmax', hlockout'⟩ := (heffect name).max_eq
  exact ⟨(heffect name).within hclock hwithin, hmax'.trans hmax, hlockout'.trans hlockout⟩

end GuardState

/-- Whatever the requests, one after the other: each limiter has at most `signInMaxEntries`
entries, each with at least one and at most `max` failures in order, and with no lock or that of a
call of `fail` for its key. -/
theorem limiter_memory_bounded {requests : List GuardRequest} {s : GuardState}
    (h : runSteps GuardState.step .init requests = some s) (name : LimiterName) :
    (s.limiter name).entries.size ≤ signInMaxEntries ∧
      ∀ key e, (s.limiter name).entries.get? key = some e →
        e.failures ≠ [] ∧ e.failures.Pairwise (· ≤ ·) ∧ e.failures.length ≤ name.max ∧
          (e.lockedUntil = zeroTime ∨
            ∃ t, (key, t) ∈ s.fails name ∧ e.lockedUntil = t + signInLockout) := by
  have hinv : s.Within :=
    runSteps_invariant (fun _ _ _ hs hr ↦ hs.step hr) GuardState.within_init h
  obtain ⟨hwithin, hmax, hlockout⟩ := hinv name
  refine ⟨hwithin.size_le, fun key e he ↦ ?_⟩
  have hentry := hwithin.entry he
  rw [hmax, hlockout] at hentry
  exact ⟨hwithin.failures_ne he, hentry.sorted, hentry.length_le, hentry.lockedUntil⟩

/-- A sign-in every minute for a while, one after the lockout, and a passkey request. -/
def demoGuardRequests : List GuardRequest :=
  (List.range 7).map (fun i ↦
    .signIn "1.2.3.4" "ada" (i * minute) (i * minute) (i * minute) (i * minute) .recordFailure) ++
  [.signIn "1.2.3.4" "ada" (20 * minute) (20 * minute) (21 * minute) (22 * minute) .recordFailure,
    .passkeyBegin "1.2.3.4" (23 * minute) (23 * minute)]

/-- Five failures lock the identifier, two sign-ins are turned away, the next one counts anew. -/
theorem limiter_memory_bounded_demo : ∃ s,
    runSteps GuardState.step .init demoGuardRequests = some s ∧
      (s.limiter .id).entries.get? "ada" = some ⟨[22 * minute], 4 * minute + signInLockout⟩ ∧
      (s.limiter .id).entries.size ≤ signInMaxEntries ∧
      ∀ key e, (s.limiter .id).entries.get? key = some e →
        e.failures ≠ [] ∧ e.failures.Pairwise (· ≤ ·) ∧
          e.failures.length ≤ signInIdentifierMaxFailures ∧
          (e.lockedUntil = zeroTime ∨
            ∃ t, (key, t) ∈ s.fails .id ∧ e.lockedUntil = t + signInLockout) := by
  have hrun : (runSteps GuardState.step .init demoGuardRequests).map
      (fun s ↦ (s.limiter .id).entries.get? "ada") =
        some (some ⟨[22 * minute], 4 * minute + signInLockout⟩) := by
    decide +kernel
  obtain ⟨s, hs, hget⟩ := Option.map_eq_some_iff.mp hrun
  obtain ⟨hsize, hentry⟩ := limiter_memory_bounded hs .id
  exact ⟨s, hs, hget, hsize, hentry⟩

end Dockstack.Server
