import Mathlib.Algebra.BigOperators.Fin
import Mathlib.Algebra.Order.BigOperators.Group.Finset
import Mathlib.Data.List.FinRange
import Dockstack.Base.Machine

/-!
# Pools of workers

A loop starts one goroutine for each of `n` items and waits for all of them. A channel with `cap`
places is the semaphore that a goroutine passes before its call and after it, and a mutex guards
the one value that all of them store their results in. The calls may be cut short once a context is
cancelled.
-/

namespace Dockstack.Base

/-- A run of steps that each lower a measure is no longer than the measure. -/
theorem runSteps_length_le {S L : Type} {step : S → L → Option S} {I : S → Prop} {m : S → Nat}
    (hstep : ∀ s l s', I s → step s l = some s' → I s' ∧ m s' < m s) {s t : S} {ls : List L}
    (hs : I s) (h : runSteps step s ls = some t) : m t + ls.length ≤ m s := by
  induction ls generalizing s with
  | nil =>
    obtain rfl := Option.some.inj h
    exact Nat.le_refl _
  | cons l ls ih =>
    obtain ⟨s', hs', hr⟩ := runSteps_cons_eq_some.mp h
    obtain ⟨hI, hlt⟩ := hstep s l s' hs hs'
    have hle := ih hI hr
    rw [List.length_cons]
    omega

/-- When one value of a function is replaced, a sum over its values changes by what it counts. -/
theorem sum_update {ι α : Type} [DecidableEq ι] (S : Finset ι) (count : α → Nat) (f : ι → α) {i : ι}
    (hi : i ∈ S) (a : α) :
    ∑ j ∈ S, count (Function.update f i a j) + count (f i) = ∑ j ∈ S, count (f j) + count a := by
  have hsum (f : ι → α) : ∑ j ∈ S, count (f j) = count (f i) + ∑ j ∈ S.erase i, count (f j) :=
    (Finset.add_sum_erase S (fun j ↦ count (f j)) hi).symm
  have hrest : ∑ j ∈ S.erase i, count (Function.update f i a j) =
      ∑ j ∈ S.erase i, count (f j) := by
    refine Finset.sum_congr rfl fun j hj ↦ ?_
    rw [Function.update_of_ne (Finset.ne_of_mem_erase hj)]
  rw [hsum (Function.update f i a), hsum f, hrest, Function.update_self]
  omega

/-- Where a goroutine stands: not yet started, at the semaphore, in its call, at the mutex with a
result, storing it with the mutex held, at the receive that gives its place back, or through. -/
inductive PoolPhase (R : Type) where
  | unstarted
  | waiting
  | working
  | locking (r : R)
  | storing (r : R)
  | releasing
  | finished
  deriving DecidableEq

namespace PoolPhase

variable {R : Type}

/-- The places of the semaphore that are taken up. -/
def slots : PoolPhase R → Nat
  | .working | .locking _ | .storing _ | .releasing => 1
  | .unstarted | .waiting | .finished => 0

/-- How often the mutex is held. -/
def locks : PoolPhase R → Nat
  | .storing _ => 1
  | _ => 0

/-- The steps that are left at most. -/
def work : PoolPhase R → Nat
  | .unstarted => 6
  | .waiting => 5
  | .working => 4
  | .locking _ => 3
  | .storing _ => 2
  | .releasing => 1
  | .finished => 0

/-- The call is over, and its result is stored if it has one. -/
def settled : PoolPhase R → Bool
  | .releasing | .finished => true
  | _ => false

/-- The goroutine is through. -/
def done : PoolPhase R → Bool
  | .finished => true
  | _ => false

/-- The result that is yet to be stored. -/
def inHand : PoolPhase R → Option R
  | .locking r | .storing r => some r
  | _ => none

/-- What comes after the call: a failed one stores nothing. -/
def afterCall : Option R → PoolPhase R
  | some r => .locking r
  | none => .releasing

/-- The call keeps its place. -/
@[simp] theorem slots_afterCall (o : Option R) : (afterCall o).slots = 1 := by
  cases o <;> rfl

/-- The call does not take the mutex. -/
@[simp] theorem locks_afterCall (o : Option R) : (afterCall o).locks = 0 := by
  cases o <;> rfl

end PoolPhase

/-- The places of the semaphore; what each call comes to when it is left to run to its end, and when
it is cut short; whether a goroutine at the semaphore gives up once the context is cancelled. -/
structure PoolEnv (n : Nat) (R : Type) where
  cap : Nat
  answer : Fin n → Option R
  cut : Fin n → Option R
  givesUp : Bool

/-- The state of the pool. `spawned` counts the goroutines that the loop has started, `sem` the
values in the channel; `stored` has the results in the order in which they were stored; `returned`
says that the wait for all goroutines is over. -/
structure PoolState (n : Nat) (R : Type) where
  phase : Fin n → PoolPhase R
  spawned : Nat
  sem : Nat
  locked : Bool
  cancelled : Bool
  stored : List (Fin n × R)
  returned : Bool

/-- A step of the loop, of a goroutine, or the cancellation of the context. -/
inductive PoolLabel (n : Nat) where
  | spawn
  | acquire (i : Fin n)
  | giveUp (i : Fin n)
  | answer (i : Fin n) (isCut : Bool)
  | lock (i : Fin n)
  | store (i : Fin n)
  | release (i : Fin n)
  | cancel
  | join
  deriving DecidableEq

variable {n : Nat} {R : Type}

/-- What the call of `i` comes to. -/
def PoolEnv.result (env : PoolEnv n R) (i : Fin n) (isCut : Bool) : Option R :=
  if isCut then env.cut i else env.answer i

namespace PoolState

/-- Before the loop. -/
def init (n : Nat) (R : Type) : PoolState n R where
  phase _ := .unstarted
  spawned := 0
  sem := 0
  locked := false
  cancelled := false
  stored := []
  returned := false

/-- One goroutine goes on to another phase. -/
def move (s : PoolState n R) (i : Fin n) (p : PoolPhase R) : PoolState n R :=
  { s with phase := Function.update s.phase i p }

/-- One step of the pool. -/
def step (env : PoolEnv n R) (s : PoolState n R) : PoolLabel n → Option (PoolState n R)
  | .spawn =>
    if h : s.spawned < n then
      some { s.move ⟨s.spawned, h⟩ .waiting with spawned := s.spawned + 1 }
    else none
  | .acquire i =>
    match s.phase i with
    | .waiting => if s.sem < env.cap then some { s.move i .working with sem := s.sem + 1 } else none
    | _ => none
  | .giveUp i =>
    match s.phase i with
    | .waiting => if env.givesUp ∧ s.cancelled then some (s.move i .finished) else none
    | _ => none
  | .answer i isCut =>
    match s.phase i with
    | .working =>
      if isCut = true → s.cancelled = true then some (s.move i (.afterCall (env.result i isCut)))
      else none
    | _ => none
  | .lock i =>
    match s.phase i with
    | .locking r => if s.locked then none else some { s.move i (.storing r) with locked := true }
    | _ => none
  | .store i =>
    match s.phase i with
    | .storing r =>
      some { s.move i .releasing with locked := false, stored := s.stored ++ [(i, r)] }
    | _ => none
  | .release i =>
    match s.phase i with
    | .releasing => if 0 < s.sem then some { s.move i .finished with sem := s.sem - 1 } else none
    | _ => none
  | .cancel => if s.cancelled then none else some { s with cancelled := true }
  | .join =>
    if s.returned = false ∧ s.spawned = n ∧ ∀ i, (s.phase i).done = true then
      some { s with returned := true }
    else none

/-- What each step of the pool does. -/
inductive Effect (env : PoolEnv n R) (s : PoolState n R) : PoolLabel n → PoolState n R → Prop where
  | spawn (h : s.spawned < n) :
    Effect env s .spawn { s.move ⟨s.spawned, h⟩ .waiting with spawned := s.spawned + 1 }
  | acquire {i : Fin n} (hp : s.phase i = .waiting) (hsem : s.sem < env.cap) :
    Effect env s (.acquire i) { s.move i .working with sem := s.sem + 1 }
  | giveUp {i : Fin n} (hp : s.phase i = .waiting) (hgives : env.givesUp = true)
    (hcancel : s.cancelled = true) : Effect env s (.giveUp i) (s.move i .finished)
  | answer {i : Fin n} {isCut : Bool} (hp : s.phase i = .working)
    (hcut : isCut = true → s.cancelled = true) :
    Effect env s (.answer i isCut) (s.move i (.afterCall (env.result i isCut)))
  | lock {i : Fin n} {r : R} (hp : s.phase i = .locking r) (hfree : s.locked = false) :
    Effect env s (.lock i) { s.move i (.storing r) with locked := true }
  | store {i : Fin n} {r : R} (hp : s.phase i = .storing r) :
    Effect env s (.store i)
      { s.move i .releasing with locked := false, stored := s.stored ++ [(i, r)] }
  | release {i : Fin n} (hp : s.phase i = .releasing) (hsem : 0 < s.sem) :
    Effect env s (.release i) { s.move i .finished with sem := s.sem - 1 }
  | cancel (hcancel : s.cancelled = false) : Effect env s .cancel { s with cancelled := true }
  | join (hreturned : s.returned = false) (hall : s.spawned = n)
    (hdone : ∀ i, (s.phase i).done = true) : Effect env s .join { s with returned := true }

variable {env : PoolEnv n R} {s s' : PoolState n R} {l : PoolLabel n}

/-- A step that is taken has its effect. -/
theorem step_effect (h : step env s l = some s') : Effect env s l s' := by
  cases l with
  | spawn =>
    simp only [step] at h
    split at h
    · next hlt =>
      obtain rfl := Option.some.inj h
      exact .spawn hlt
    · cases h
  | acquire i =>
    simp only [step] at h
    split at h
    · next hp =>
      split at h
      · next hsem =>
        obtain rfl := Option.some.inj h
        exact .acquire hp hsem
      · cases h
    · cases h
  | giveUp i =>
    simp only [step] at h
    split at h
    · next hp =>
      split at h
      · next hc =>
        obtain rfl := Option.some.inj h
        exact .giveUp hp hc.1 hc.2
      · cases h
    · cases h
  | answer i isCut =>
    simp only [step] at h
    split at h
    · next hp =>
      split at h
      · next hcut =>
        obtain rfl := Option.some.inj h
        exact .answer hp hcut
      · cases h
    · cases h
  | lock i =>
    simp only [step] at h
    split at h
    · next r hp =>
      split at h
      · cases h
      · next hfree =>
        obtain rfl := Option.some.inj h
        exact .lock hp (Bool.eq_false_iff.mpr hfree)
    · cases h
  | store i =>
    simp only [step] at h
    split at h
    · next r hp =>
      obtain rfl := Option.some.inj h
      exact .store hp
    · cases h
  | release i =>
    simp only [step] at h
    split at h
    · next hp =>
      split at h
      · next hsem =>
        obtain rfl := Option.some.inj h
        exact .release hp hsem
      · cases h
    · cases h
  | cancel =>
    simp only [step] at h
    split at h
    · cases h
    · next hcancel =>
      obtain rfl := Option.some.inj h
      exact .cancel (Bool.eq_false_iff.mpr hcancel)
  | join =>
    simp only [step] at h
    split at h
    · next hj =>
      obtain rfl := Option.some.inj h
      exact .join hj.1 hj.2.1 hj.2.2
    · cases h

/-! ## Counting -/

/-- The places that are taken up. -/
def slotsTaken (s : PoolState n R) : Nat := ∑ i, (s.phase i).slots

/-- The goroutines that hold the mutex. -/
def holders (s : PoolState n R) : Nat := ∑ i, (s.phase i).locks

/-- The steps that are left at most. -/
def work (s : PoolState n R) : Nat :=
  ∑ i, (s.phase i).work + ((!s.cancelled).toNat + (!s.returned).toNat)

/-- The semaphore counts the places that are taken up, the mutex is held by one goroutine at most,
and the loop has started the first goroutines. -/
structure Counted (env : PoolEnv n R) (s : PoolState n R) : Prop where
  slots : s.slotsTaken = s.sem
  cap : s.sem ≤ env.cap
  lock : s.holders = s.locked.toNat
  spawned : s.spawned ≤ n
  started : ∀ i : Fin n, s.spawned ≤ i ↔ s.phase i = .unstarted
  returned : s.returned = true → s.spawned = n ∧ ∀ i, (s.phase i).done = true

/-- Before the loop nothing is taken up. -/
theorem counted_init (env : PoolEnv n R) : Counted env (init n R) where
  slots := by simp [slotsTaken, init, PoolPhase.slots]
  cap := Nat.zero_le _
  lock := by simp [holders, init, PoolPhase.locks]
  spawned := Nat.zero_le _
  started i := ⟨fun _ ↦ rfl, fun _ ↦ Nat.zero_le _⟩
  returned := nofun

/-- A goroutine that is under way goes on, and the semaphore and the mutex follow. -/
theorem Counted.move (h : Counted env s) {i : Fin n} {p q : PoolPhase R} {sem : Nat}
    {locked : Bool} {stored : List (Fin n × R)} (hp : s.phase i = p) (hp' : p ≠ .unstarted)
    (hdone : p.done = false) (hq : q ≠ .unstarted) (hsem : sem + p.slots = s.sem + q.slots)
    (hcap : sem ≤ env.cap) (hlock : locked.toNat + p.locks = s.locked.toNat + q.locks) :
    Counted env { s.move i q with sem := sem, locked := locked, stored := stored } where
  slots := by
    have hsum := sum_update Finset.univ PoolPhase.slots s.phase (Finset.mem_univ i) q
    have hslots := h.slots
    rw [hp] at hsum
    simp only [slotsTaken, PoolState.move] at hslots ⊢
    omega
  cap := hcap
  lock := by
    have hsum := sum_update Finset.univ PoolPhase.locks s.phase (Finset.mem_univ i) q
    have hlocks := h.lock
    rw [hp] at hsum
    simp only [holders, PoolState.move] at hlocks ⊢
    omega
  spawned := h.spawned
  started j := by
    have hj := h.started j
    simp only [PoolState.move, Function.update_apply]
    split
    · next heq =>
      subst heq
      rw [hp] at hj
      exact ⟨fun hle ↦ absurd (hj.mp hle) hp', fun hun ↦ absurd hun hq⟩
    · exact hj
  returned hret := by
    have := (h.returned hret).2 i
    rw [hp, hdone] at this
    cases this

/-- The loop starts the next goroutine. -/
theorem Counted.spawn (h : Counted env s) (hlt : s.spawned < n) :
    Counted env { s.move ⟨s.spawned, hlt⟩ .waiting with spawned := s.spawned + 1 } := by
  have hun : s.phase ⟨s.spawned, hlt⟩ = .unstarted := (h.started _).mp le_rfl
  constructor
  · have hsum := sum_update Finset.univ PoolPhase.slots s.phase
      (Finset.mem_univ ⟨s.spawned, hlt⟩) .waiting
    rw [hun] at hsum
    exact hsum.trans h.slots
  · exact h.cap
  · have hsum := sum_update Finset.univ PoolPhase.locks s.phase
      (Finset.mem_univ ⟨s.spawned, hlt⟩) .waiting
    rw [hun] at hsum
    exact hsum.trans h.lock
  · exact hlt
  · intro j
    have hj := h.started j
    simp only [PoolState.move, Function.update_apply]
    split
    · next heq =>
      subst heq
      simp
    · next hne =>
      have hne : (j : Nat) ≠ s.spawned := fun heq ↦ hne (Fin.ext heq)
      rw [← hj]
      omega
  · intro hret
    exact absurd (h.returned hret).1 hlt.ne

/-- Every step keeps count. -/
theorem Counted.step (h : Counted env s) (he : Effect env s l s') : Counted env s' := by
  cases he with
  | spawn hlt => exact h.spawn hlt
  | acquire hp hsem => exact h.move hp nofun rfl nofun rfl hsem rfl
  | giveUp hp hgives hcancel => exact h.move hp nofun rfl nofun rfl h.cap rfl
  | @answer i isCut hp hcut =>
    refine h.move hp nofun rfl ?_ ?_ h.cap ?_
    · cases env.result i isCut <;> nofun
    · rw [PoolPhase.slots_afterCall]
      rfl
    · rw [PoolPhase.locks_afterCall]
      rfl
  | lock hp hfree => exact h.move hp nofun rfl nofun rfl h.cap (by rw [hfree]; rfl)
  | @store i r hp =>
    refine h.move hp nofun rfl nofun rfl h.cap ?_
    have hle : (s.phase i).locks ≤ s.holders :=
      Finset.single_le_sum (f := fun j ↦ (s.phase j).locks) (fun _ _ ↦ Nat.zero_le _)
        (Finset.mem_univ i)
    rw [hp, h.lock] at hle
    have hlocked : s.locked.toNat ≤ 1 := Bool.toNat_le _
    simp only [PoolPhase.locks, Bool.toNat_false] at hle ⊢
    omega
  | release hp hsem =>
    refine h.move hp nofun rfl nofun ?_ ((Nat.sub_le ..).trans h.cap) rfl
    exact Nat.sub_add_cancel hsem
  | cancel hcancel => exact { h with }
  | join hreturned hall hdone => exact { h with returned := fun _ ↦ ⟨hall, hdone⟩ }

/-- Every step is work done. -/
theorem Counted.work_lt (h : Counted env s) (he : Effect env s l s') : s'.work < s.work := by
  have hmove {i : Fin n} {p q : PoolPhase R} (hp : s.phase i = p) (hlt : q.work < p.work) :
      ∑ j, (Function.update s.phase i q j).work < ∑ j, (s.phase j).work := by
    have hsum := sum_update Finset.univ PoolPhase.work s.phase (Finset.mem_univ i) q
    rw [hp] at hsum
    omega
  cases he with
  | spawn hlt =>
    exact Nat.add_lt_add_right (hmove ((h.started _).mp le_rfl) (by simp [PoolPhase.work])) _
  | acquire hp hsem => exact Nat.add_lt_add_right (hmove hp (by simp [PoolPhase.work])) _
  | giveUp hp hgives hcancel => exact Nat.add_lt_add_right (hmove hp (by simp [PoolPhase.work])) _
  | @answer i isCut hp hcut =>
    refine Nat.add_lt_add_right (hmove hp ?_) _
    cases env.result i isCut <;> simp [PoolPhase.afterCall, PoolPhase.work]
  | lock hp hfree => exact Nat.add_lt_add_right (hmove hp (by simp [PoolPhase.work])) _
  | store hp => exact Nat.add_lt_add_right (hmove hp (by simp [PoolPhase.work])) _
  | release hp hsem => exact Nat.add_lt_add_right (hmove hp (by simp [PoolPhase.work])) _
  | cancel hcancel => simp [work, hcancel]
  | join hreturned hall hdone => simp [work, hreturned]

/-! ## Progress -/

/-- The goroutine that holds the mutex, if it is held. -/
theorem Counted.exists_holder (h : Counted env s) (hlocked : s.locked = true) :
    ∃ i r, s.phase i = .storing r := by
  have hsum : s.holders = 1 := by rw [h.lock, hlocked]; rfl
  obtain ⟨i, -, hi⟩ := Finset.exists_ne_zero_of_sum_ne_zero (hsum.trans_ne Nat.one_ne_zero)
  cases hp : s.phase i with
  | storing r => exact ⟨i, r, hp⟩
  | _ => simp [hp, PoolPhase.locks] at hi

/-- A goroutine that holds a place can go on, or another one that holds the mutex can. -/
theorem Counted.slot_advances (h : Counted env s) {i : Fin n} (hi : (s.phase i).slots ≠ 0) :
    ∃ l s', l ≠ .cancel ∧ PoolState.step env s l = some s' := by
  have hstore {j : Fin n} {r : R} (hj : s.phase j = .storing r) :
      ∃ l s', l ≠ .cancel ∧ PoolState.step env s l = some s' :=
    ⟨.store j, _, nofun, by simp only [PoolState.step, hj]; rfl⟩
  cases hp : s.phase i with
  | unstarted => simp [hp, PoolPhase.slots] at hi
  | waiting => simp [hp, PoolPhase.slots] at hi
  | finished => simp [hp, PoolPhase.slots] at hi
  | working =>
    exact ⟨.answer i false, _, nofun, by simp only [PoolState.step, hp]; exact if_pos nofun⟩
  | locking r =>
    cases hlocked : s.locked with
    | false => exact ⟨.lock i, _, nofun, by simp only [PoolState.step, hp, hlocked]; rfl⟩
    | true =>
      obtain ⟨j, r', hj⟩ := h.exists_holder hlocked
      exact hstore hj
  | storing r => exact hstore hp
  | releasing =>
    have hpos : 0 < s.sem := by
      rw [← h.slots]
      refine Nat.lt_of_lt_of_le (Nat.pos_of_ne_zero hi) ?_
      exact Finset.single_le_sum (f := fun j ↦ (s.phase j).slots) (fun _ _ ↦ Nat.zero_le _)
        (Finset.mem_univ i)
    exact ⟨.release i, _, nofun, by simp only [PoolState.step, hp]; exact if_pos hpos⟩

/-- While the wait is not over, somebody can go on without a cancellation. -/
theorem Counted.progress (h : Counted env s) (hcap : 0 < env.cap) :
    s.returned = true ∨ ∃ l s', l ≠ .cancel ∧ PoolState.step env s l = some s' := by
  by_cases hall : s.spawned = n
  · by_cases hdone : ∀ i, (s.phase i).done = true
    · cases hret : s.returned with
      | true => exact .inl rfl
      | false => exact .inr ⟨.join, _, nofun, if_pos ⟨hret, hall, hdone⟩⟩
    · obtain ⟨i, hi⟩ := not_forall.mp hdone
      right
      by_cases hslots : (s.phase i).slots = 0
      · have hp : s.phase i = .waiting := by
          cases hp : s.phase i with
          | waiting => rfl
          | unstarted => exact absurd ((h.started i).mpr hp) (by rw [hall]; exact i.isLt.not_ge)
          | finished => exact absurd (by rw [hp]; rfl) hi
          | _ => simp [hp, PoolPhase.slots] at hslots
        by_cases hsem : s.sem < env.cap
        · exact ⟨.acquire i, _, nofun, by simp only [PoolState.step, hp]; exact if_pos hsem⟩
        · have hne : s.slotsTaken ≠ 0 := by
            rw [h.slots]
            omega
          obtain ⟨j, -, hj⟩ := Finset.exists_ne_zero_of_sum_ne_zero hne
          exact h.slot_advances hj
      · exact h.slot_advances hslots
  · exact .inr ⟨.spawn, _, nofun, dif_pos (lt_of_le_of_ne h.spawned hall)⟩

/-! ## Results -/

/-- What the goroutine of `i` may come to: once the context is cancelled, its call may have been cut
short or not been made. -/
def Outcome (env : PoolEnv n R) (cancelled : Bool) (i : Fin n) (o : Option R) : Prop :=
  o = env.answer i ∨ cancelled = true ∧ (o = env.cut i ∨ env.givesUp = true ∧ o = none)

/-- What is stored: one result of each goroutine at most, and of each whose call is over its
outcome. -/
structure Accounted (env : PoolEnv n R) (s : PoolState n R) : Prop where
  nodup : (s.stored.map Prod.fst).Nodup
  inHand : ∀ i r, (s.phase i).inHand = some r → Outcome env s.cancelled i (some r)
  stored : ∀ i r, (i, r) ∈ s.stored →
    (s.phase i).settled = true ∧ Outcome env s.cancelled i (some r)
  missing : ∀ i, (s.phase i).settled = true → i ∉ s.stored.map Prod.fst →
    Outcome env s.cancelled i none

/-- Before the loop nothing is stored. -/
theorem accounted_init (env : PoolEnv n R) : Accounted env (init n R) where
  nodup := List.nodup_nil
  inHand _ _ := nofun
  stored _ _ := nofun
  missing _ := nofun

/-- A cancellation takes no outcome away. -/
theorem Outcome.mono {i : Fin n} {o : Option R} {c c' : Bool} (h : Outcome env c i o)
    (hc : c = true → c' = true) : Outcome env c' i o :=
  h.imp_right fun hcut ↦ ⟨hc hcut.1, hcut.2⟩

/-- A goroutine goes on, and nothing is stored. -/
theorem Accounted.move (h : Accounted env s) {i : Fin n} {p : PoolPhase R}
    (hphase : s'.phase = Function.update s.phase i p) (hcancelled : s'.cancelled = s.cancelled)
    (hstored : s'.stored = s.stored) (hkeep : (s.phase i).settled = true → p.settled = true)
    (hinHand : ∀ r, p.inHand = some r → Outcome env s.cancelled i (some r))
    (hmissing : p.settled = true → i ∉ s.stored.map Prod.fst → Outcome env s.cancelled i none) :
    Accounted env s' where
  nodup := by
    rw [hstored]
    exact h.nodup
  inHand j r hj := by
    rw [hphase, Function.update_apply] at hj
    rw [hcancelled]
    split at hj
    · next heq =>
      subst heq
      exact hinHand r hj
    · exact h.inHand j r hj
  stored j r hj := by
    rw [hstored] at hj
    rw [hphase, Function.update_apply, hcancelled]
    obtain ⟨hsettled, ho⟩ := h.stored j r hj
    refine ⟨?_, ho⟩
    split
    · next heq =>
      subst heq
      exact hkeep hsettled
    · exact hsettled
  missing j hj hnone := by
    rw [hphase, Function.update_apply] at hj
    rw [hstored] at hnone
    rw [hcancelled]
    split at hj
    · next heq =>
      subst heq
      exact hmissing hj hnone
    · exact h.missing j hj hnone

/-- A result is stored. -/
theorem Accounted.store (h : Accounted env s) {i : Fin n} {r : R} (hp : s.phase i = .storing r) :
    Accounted env
      { s.move i .releasing with locked := false, stored := s.stored ++ [(i, r)] } := by
  have hi : i ∉ s.stored.map Prod.fst := by
    intro hmem
    obtain ⟨⟨j, r'⟩, hj, rfl⟩ := List.mem_map.mp hmem
    have hsettled := (h.stored j r' hj).1
    rw [hp] at hsettled
    cases hsettled
  have hr : Outcome env s.cancelled i (some r) := h.inHand i r (by rw [hp]; rfl)
  constructor
  · rw [List.map_append, List.map_singleton, ← List.concat_eq_append]
    exact h.nodup.concat hi
  · intro j r' hj
    simp only [PoolState.move, Function.update_apply] at hj
    split at hj
    · cases hj
    · exact h.inHand j r' hj
  · intro j r' hj
    simp only [PoolState.move, Function.update_apply]
    rcases List.mem_append.mp hj with hj | hj
    · obtain ⟨hsettled, ho⟩ := h.stored j r' hj
      refine ⟨?_, ho⟩
      split
      · rfl
      · exact hsettled
    · obtain ⟨rfl, rfl⟩ := Prod.mk.inj (List.mem_singleton.mp hj)
      exact ⟨by rw [if_pos rfl]; rfl, hr⟩
  · intro j hj hnone
    simp only [PoolState.move, Function.update_apply] at hj
    rw [List.map_append, List.mem_append, not_or] at hnone
    split at hj
    · next heq => exact absurd (by simp [heq]) hnone.2
    · exact h.missing j hj hnone.1

/-- Every step keeps the account. -/
theorem Accounted.step (h : Accounted env s) (hc : Counted env s) (he : Effect env s l s') :
    Accounted env s' := by
  cases he with
  | spawn hlt =>
    have hun : s.phase ⟨s.spawned, hlt⟩ = .unstarted := (hc.started _).mp le_rfl
    exact h.move rfl rfl rfl (by rw [hun]; nofun) nofun nofun
  | acquire hp hsem => exact h.move rfl rfl rfl (by rw [hp]; nofun) nofun nofun
  | giveUp hp hgives hcancel =>
    exact h.move rfl rfl rfl (fun _ ↦ rfl) nofun fun _ _ ↦ .inr ⟨hcancel, .inr ⟨hgives, rfl⟩⟩
  | @answer i isCut hp hcut =>
    have ho : Outcome env s.cancelled i (env.result i isCut) := by
      cases isCut with
      | false => exact .inl rfl
      | true => exact .inr ⟨hcut rfl, .inl rfl⟩
    refine h.move rfl rfl rfl (by rw [hp]; nofun) ?_ ?_
    · cases hr : env.result i isCut with
      | none => nofun
      | some r =>
        rw [hr] at ho
        intro r' hr'
        obtain rfl := Option.some.inj hr'
        exact ho
    · cases hr : env.result i isCut with
      | none => exact fun _ _ ↦ hr ▸ ho
      | some r => nofun
  | lock hp hfree =>
    refine h.move rfl rfl rfl (by rw [hp]; nofun) ?_ nofun
    exact fun r hr ↦ h.inHand _ r (by rw [hp]; exact hr)
  | store hp => exact h.store hp
  | release hp hsem =>
    exact h.move rfl rfl rfl (fun _ ↦ rfl) nofun fun _ ↦ h.missing _ (by rw [hp]; rfl)
  | cancel hcancel =>
    exact ⟨h.nodup, fun i r hi ↦ (h.inHand i r hi).mono fun _ ↦ rfl,
      fun i r hi ↦ ⟨(h.stored i r hi).1, (h.stored i r hi).2.mono fun _ ↦ rfl⟩,
      fun i hi hnone ↦ (h.missing i hi hnone).mono fun _ ↦ rfl⟩
  | join hreturned hall hdone => exact { h with }

/-! ## Runs -/

variable {ls : List (PoolLabel n)} {t : PoolState n R}

/-- Every state that a run reaches is counted and accounted for. -/
theorem invariants_of_run (h : runSteps (step env) (init n R) ls = some t) :
    Counted env t ∧ Accounted env t :=
  runSteps_invariant (I := fun s ↦ Counted env s ∧ Accounted env s)
    (fun _ _ _ hs hu ↦ ⟨hs.1.step (step_effect hu), hs.2.step hs.1 (step_effect hu)⟩)
    ⟨counted_init env, accounted_init env⟩ h

/-- A run is no longer than the work there is. -/
theorem length_le_of_run (h : runSteps (step env) (init n R) ls = some t) :
    ls.length ≤ 6 * n + 2 := by
  have hle := runSteps_length_le (I := Counted env) (m := work)
    (fun _ _ _ hs hu ↦ ⟨hs.step (step_effect hu), hs.work_lt (step_effect hu)⟩)
    (counted_init env) h
  have hwork : (init n R).work = 6 * n + 2 := by
    simp [work, init, PoolPhase.work, Nat.mul_comm]
  omega

private theorem Effect.cancelled_eq (he : Effect env s l s') (hl : l ≠ .cancel) :
    s'.cancelled = s.cancelled := by
  cases he with
  | cancel => exact absurd rfl hl
  | _ => rfl

/-- The wait can come to its end without a cancellation. -/
theorem Counted.exists_run (h : Counted env s) (hcap : 0 < env.cap) :
    ∃ ls t, runSteps (PoolState.step env) s ls = some t ∧ t.returned = true ∧
      t.cancelled = s.cancelled := by
  induction hw : s.work using Nat.strong_induction_on generalizing s with
  | _ k ih =>
    rcases h.progress hcap with hret | ⟨l, s', hl, hs⟩
    · exact ⟨[], s, rfl, hret, rfl⟩
    · have he := step_effect hs
      obtain ⟨ls, t, ht, hret, hc⟩ := ih s'.work (hw ▸ h.work_lt he) (h.step he) rfl
      exact ⟨l :: ls, t, runSteps_cons_eq_some.mpr ⟨s', hs, ht⟩, hret,
        hc.trans (he.cancelled_eq hl)⟩

/-- No more calls than places are under way. -/
theorem Counted.slotsTaken_le (h : Counted env s) : s.slotsTaken ≤ env.cap := by
  rw [h.slots]
  exact h.cap

/-- One goroutine at most stores a result. -/
theorem Counted.holders_le (h : Counted env s) : s.holders ≤ 1 := by
  rw [h.lock]
  exact Bool.toNat_le _

/-- What a goroutine that is through has come to, which is what is stored of it. -/
theorem Accounted.exists_outcome (h : Accounted env s) {i : Fin n}
    (hi : (s.phase i).settled = true) :
    ∃ o, Outcome env s.cancelled i o ∧ ∀ r, (i, r) ∈ s.stored ↔ o = some r := by
  by_cases hmem : i ∈ s.stored.map Prod.fst
  · obtain ⟨⟨j, r⟩, hr, rfl⟩ := List.mem_map.mp hmem
    refine ⟨some r, (h.stored j r hr).2, fun r' ↦ ⟨fun hr' ↦ ?_, fun heq ↦ ?_⟩⟩
    · have heq := List.inj_on_of_nodup_map h.nodup hr hr' rfl
      rw [(Prod.mk.inj heq).2]
    · obtain rfl := Option.some.inj heq
      exact hr
  · refine ⟨none, h.missing i hi hmem, fun r ↦ ⟨fun hr ↦ ?_, nofun⟩⟩
    exact absurd (List.mem_map_of_mem hr) hmem

/-- Once the wait is over, all calls are. -/
theorem Counted.settled (hc : Counted env s) (hret : s.returned = true) (i : Fin n) :
    (s.phase i).settled = true := by
  have hdone := (hc.returned hret).2 i
  cases hp : s.phase i with
  | finished => rfl
  | _ => simp [hp, PoolPhase.done] at hdone

/-- Once the wait is over, the results of the goroutines are stored, in some order. -/
theorem Accounted.stored_perm (h : Accounted env s) (hc : Counted env s)
    (hret : s.returned = true) :
    ∃ o : Fin n → Option R, (∀ i, Outcome env s.cancelled i (o i)) ∧
      s.stored.Perm ((List.finRange n).filterMap fun i ↦ (o i).map fun r ↦ (i, r)) := by
  choose o ho hstored using fun i ↦ h.exists_outcome (hc.settled hret i)
  refine ⟨o, ho, (List.perm_ext_iff_of_nodup h.nodup.of_map ?_).mpr ?_⟩
  · refine (List.nodup_finRange n).filterMap fun i j a hi hj ↦ ?_
    obtain ⟨r, -, rfl⟩ := Option.map_eq_some_iff.mp hi
    obtain ⟨r', -, heq⟩ := Option.map_eq_some_iff.mp hj
    exact (Prod.mk.inj heq).1.symm
  · rintro ⟨i, r⟩
    rw [hstored]
    simp [List.mem_filterMap]

/-- Without a cancellation these are the results of all calls. -/
theorem Accounted.stored_perm_answer (h : Accounted env s) (hc : Counted env s)
    (hret : s.returned = true) (hcancelled : s.cancelled = false) :
    s.stored.Perm ((List.finRange n).filterMap fun i ↦ (env.answer i).map fun r ↦ (i, r)) := by
  obtain ⟨o, ho, hperm⟩ := h.stored_perm hc hret
  have heq : o = env.answer := by
    funext i
    rcases ho i with hi | ⟨hcut, -⟩
    · exact hi
    · rw [hcancelled] at hcut
      cases hcut
  rwa [heq] at hperm

end PoolState

end Dockstack.Base
