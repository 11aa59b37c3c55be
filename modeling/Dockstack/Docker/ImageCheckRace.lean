import Dockstack.Base.WorkerPool
import Dockstack.Docker.ImageChecks

/-!
# The goroutines of the Images page

`CheckImagesStale` (`internal/docker/system.go:159–186`) starts a goroutine for each image that has
a tag and a digest, which writes to the result under a mutex. For the other images the loop writes
to it itself, without the mutex. Two writes to a map at the same time end the program.
-/

namespace Dockstack.Docker

open Dockstack.Base

/-- The registry is asked about the image; `system.go:168`. -/
def ImageInfo.isFetched (img : ImageInfo) : Bool := !(img.tags.isEmpty || img.repoDigests.isEmpty)

/-- Where the goroutine of an image stands: it has none so far, is at its request, at the mutex, in
its write to the map, or through. -/
inductive CheckPhase where
  | unstarted
  | fetching
  | locking
  | writing
  | finished
  deriving DecidableEq

/-- The steps that a goroutine has left once it is started. -/
def CheckPhase.work : CheckPhase → Nat
  | .unstarted => 0
  | .fetching => 3
  | .locking => 2
  | .writing => 1
  | .finished => 0

/-- The loop is at image `next`; `loopWrites` says that it is in its own write to the map. -/
structure CheckState where
  next : Nat
  loopWrites : Bool
  phase : Nat → CheckPhase
  locked : Bool
  results : KeyMap String StaleStatus
  returned : Bool

/-- A step of the loop or of a goroutine. -/
inductive CheckLabel where
  | beginSkip
  | endSkip
  | spawn
  | answer (i : Nat)
  | lock (i : Nat)
  | write (i : Nat)
  | join
  deriving DecidableEq

namespace CheckState

/-- Before the loop. -/
def init : CheckState := ⟨0, false, fun _ ↦ .unstarted, false, ∅, false⟩

/-- The loop and a goroutine write to the map at the same time. -/
def Race (s : CheckState) : Prop := s.loopWrites = true ∧ ∃ i, s.phase i = .writing

/-- One goroutine goes on to another phase. -/
def move (s : CheckState) (i : Nat) (p : CheckPhase) : CheckState :=
  { s with phase := Function.update s.phase i p }

section

variable (env : UpdateEnv) (images : List ImageInfo)

/-- One step. There is none once two writes have met. -/
def step (s : CheckState) (l : CheckLabel) : Option CheckState :=
  if s.loopWrites ∧ s.locked then none
  else match l with
  | .beginSkip =>
    match images[s.next]? with
    | some img =>
      if img.isFetched = false ∧ s.loopWrites = false then some { s with loopWrites := true }
      else none
    | none => none
  | .endSkip =>
    match images[s.next]? with
    | some img =>
      if s.loopWrites then
        some { s with
          next := s.next + 1
          loopWrites := false
          results := s.results.insert img.id .unknown }
      else none
    | none => none
  | .spawn =>
    match images[s.next]? with
    | some img =>
      if img.isFetched = true ∧ s.loopWrites = false then
        some { s.move s.next .fetching with next := s.next + 1 }
      else none
    | none => none
  | .answer i =>
    if s.phase i = .fetching then some (s.move i .locking) else none
  | .lock i =>
    if s.phase i = .locking ∧ s.locked = false then
      some { s.move i .writing with locked := true }
    else none
  | .write i =>
    match images[i]? with
    | some img =>
      if s.phase i = .writing then
        some { s.move i .finished with
          locked := false
          results := s.results.insert img.id (imageStale env img) }
      else none
    | none => none
  | .join =>
    if s.returned = false ∧ s.loopWrites = false ∧ s.next = images.length ∧
        ∀ i < images.length, s.phase i = .unstarted ∨ s.phase i = .finished then
      some { s with returned := true }
    else none

/-- What each step does. -/
inductive Effect (s : CheckState) : CheckLabel → CheckState → Prop where
  | beginSkip {img : ImageInfo} (himg : images[s.next]? = some img) (hf : img.isFetched = false)
    (hloop : s.loopWrites = false) : Effect s .beginSkip { s with loopWrites := true }
  | endSkip {img : ImageInfo} (himg : images[s.next]? = some img) (hloop : s.loopWrites = true) :
    Effect s .endSkip { s with
      next := s.next + 1
      loopWrites := false
      results := s.results.insert img.id .unknown }
  | spawn {img : ImageInfo} (himg : images[s.next]? = some img) (hf : img.isFetched = true)
    (hloop : s.loopWrites = false) :
    Effect s .spawn { s.move s.next .fetching with next := s.next + 1 }
  | answer {i : Nat} (hp : s.phase i = .fetching) : Effect s (.answer i) (s.move i .locking)
  | lock {i : Nat} (hp : s.phase i = .locking) (hfree : s.locked = false) :
    Effect s (.lock i) { s.move i .writing with locked := true }
  | write {i : Nat} {img : ImageInfo} (himg : images[i]? = some img) (hp : s.phase i = .writing) :
    Effect s (.write i) { s.move i .finished with
      locked := false
      results := s.results.insert img.id (imageStale env img) }
  | join (hret : s.returned = false) (hloop : s.loopWrites = false)
    (hnext : s.next = images.length)
    (hall : ∀ i < images.length, s.phase i = .unstarted ∨ s.phase i = .finished) :
    Effect s .join { s with returned := true }

end

variable {env : UpdateEnv} {images : List ImageInfo} {s s' : CheckState} {l : CheckLabel}

/-- A step that is taken has its effect. -/
theorem step_effect (h : step env images s l = some s') : Effect env images s l s' := by
  unfold step at h
  split at h
  · cases h
  · cases l with
    | beginSkip =>
      dsimp only at h
      split at h
      · next img himg =>
        split at h
        · next hc =>
          obtain rfl := Option.some.inj h
          exact .beginSkip himg hc.1 hc.2
        · cases h
      · cases h
    | endSkip =>
      dsimp only at h
      split at h
      · next img himg =>
        split at h
        · next hloop =>
          obtain rfl := Option.some.inj h
          exact .endSkip himg hloop
        · cases h
      · cases h
    | spawn =>
      dsimp only at h
      split at h
      · next img himg =>
        split at h
        · next hc =>
          obtain rfl := Option.some.inj h
          exact .spawn himg hc.1 hc.2
        · cases h
      · cases h
    | answer i =>
      dsimp only at h
      split at h
      · next hp =>
        obtain rfl := Option.some.inj h
        exact .answer hp
      · cases h
    | lock i =>
      dsimp only at h
      split at h
      · next hc =>
        obtain rfl := Option.some.inj h
        exact .lock hc.1 hc.2
      · cases h
    | write i =>
      dsimp only at h
      split at h
      · next img himg =>
        split at h
        · next hp =>
          obtain rfl := Option.some.inj h
          exact .write himg hp
        · cases h
      · cases h
    | join =>
      dsimp only at h
      split at h
      · next hc =>
        obtain rfl := Option.some.inj h
        exact .join hc.1 hc.2.1 hc.2.2.1 hc.2.2.2
      · cases h

/-- The status of image `i` is in the map. -/
def Settled (s : CheckState) (i : Nat) (img : ImageInfo) : Prop :=
  i < s.next ∧ (img.isFetched = false ∨ s.phase i = .finished)

/-- The goroutines are those of the images that were passed and are fetched, one at most writes, and
the map has the statuses of the settled images. -/
structure Tracked (env : UpdateEnv) (images : List ImageInfo) (s : CheckState) : Prop where
  next_le : s.next ≤ images.length
  loop : s.loopWrites = true → ∃ img, images[s.next]? = some img ∧ img.isFetched = false
  started : ∀ i img, images[i]? = some img →
    (s.phase i ≠ .unstarted ↔ i < s.next ∧ img.isFetched = true)
  outside : ∀ i, images[i]? = none → s.phase i = .unstarted
  one : ∀ i j, s.phase i = .writing → s.phase j = .writing → i = j
  lock : s.locked = true ↔ ∃ i, s.phase i = .writing
  results : ∀ id status, s.results.get? id = some status ↔
    ∃ i img, images[i]? = some img ∧ s.Settled i img ∧ img.id = id ∧ imageStale env img = status
  returned : s.returned = true → s.loopWrites = false ∧ s.next = images.length ∧
    ∀ i < images.length, s.phase i = .unstarted ∨ s.phase i = .finished

namespace Tracked

/-- Before the loop the map is empty. -/
theorem init (env : UpdateEnv) (images : List ImageInfo) : Tracked env images .init where
  next_le := Nat.zero_le _
  loop := nofun
  started i img _ := ⟨fun h ↦ absurd rfl h, fun h ↦ absurd h.1 (Nat.not_lt_zero i)⟩
  outside _ _ := rfl
  one _ _ := nofun
  lock := ⟨nofun, fun ⟨_, h⟩ ↦ by cases h⟩
  results id status := by
    constructor
    · intro h
      simp [CheckState.init, KeyMap.get?] at h
    · rintro ⟨i, img, -, hs, -⟩
      exact absurd hs.1 (Nat.not_lt_zero i)
  returned := nofun

/-- A goroutine that has been started is that of a listed image that is fetched. -/
theorem exists_image (h : Tracked env images s) {i : Nat} (hp : s.phase i ≠ .unstarted) :
    ∃ img, images[i]? = some img ∧ i < s.next ∧ img.isFetched = true := by
  cases himg : images[i]? with
  | none => exact absurd (h.outside i himg) hp
  | some img => exact ⟨img, rfl, (h.started i img himg).mp hp⟩

/-- While a goroutine is under way the wait is not over. -/
theorem not_returned (h : Tracked env images s) {i : Nat} (hp : s.phase i ≠ .unstarted)
    (hp' : s.phase i ≠ .finished) : s.returned = false := by
  rw [Bool.eq_false_iff]
  intro hret
  obtain ⟨img, himg, -⟩ := h.exists_image hp
  have hlt : i < images.length := (List.getElem?_eq_some_iff.mp himg).1
  rcases (h.returned hret).2.2 i hlt with hi | hi
  · exact hp hi
  · exact hp' hi

/-- A goroutine comes to the mutex or takes it. -/
theorem move (h : Tracked env images s) {i : Nat} {p q : CheckPhase} {locked : Bool}
    (hp : s.phase i = p) (hp₁ : p ≠ .unstarted) (hp₂ : p ≠ .writing) (hp₃ : p ≠ .finished)
    (hq₁ : q ≠ .unstarted) (hq₂ : q ≠ .finished) (hone : q = .writing → s.locked = false)
    (hlocked : locked = true ↔ s.locked = true ∨ q = .writing) :
    Tracked env images { s.move i q with locked := locked } where
  next_le := h.next_le
  loop := h.loop
  started j img himg := by
    have hj := h.started j img himg
    simp only [CheckState.move, Function.update_apply]
    split
    · next heq =>
      subst heq
      rw [hp] at hj
      exact ⟨fun _ ↦ hj.mp hp₁, fun _ ↦ hq₁⟩
    · exact hj
  outside j hj := by
    simp only [CheckState.move, Function.update_apply]
    split
    · next heq =>
      subst heq
      exact absurd (hp ▸ h.outside j hj) hp₁
    · exact h.outside j hj
  one j k hj hk := by
    have hfree (m : Nat) (hm : s.phase m = .writing) (hq : q = .writing) : False := by
      have := h.lock.mpr ⟨m, hm⟩
      rw [hone hq] at this
      cases this
    simp only [CheckState.move, Function.update_apply] at hj hk
    split at hj
    · next heq =>
      split at hk
      · next heq' => rw [heq, heq']
      · exact (hfree k hk hj).elim
    · split at hk
      · exact (hfree j hj hk).elim
      · exact h.one j k hj hk
  lock := by
    rw [hlocked, h.lock]
    constructor
    · rintro (⟨j, hj⟩ | hq)
      · refine ⟨j, ?_⟩
        have hne : j ≠ i := by
          rintro rfl
          exact hp₂ (hp.symm.trans hj)
        exact (Function.update_of_ne hne q s.phase).trans hj
      · refine ⟨i, ?_⟩
        exact (Function.update_self i q s.phase).trans hq
    · rintro ⟨j, hj⟩
      simp only [CheckState.move, Function.update_apply] at hj
      split at hj
      · exact .inr hj
      · exact .inl ⟨j, hj⟩
  results id status := by
    refine (h.results id status).trans ?_
    refine exists_congr fun j ↦ exists_congr fun img ↦ and_congr_right fun himg ↦ and_congr_left' ?_
    refine and_congr_right fun _ ↦ or_congr_right ?_
    simp only [CheckState.move, Function.update_apply]
    split
    · next heq =>
      subst heq
      exact ⟨fun hf ↦ absurd (hp.symm.trans hf) hp₃, fun hf ↦ absurd hf hq₂⟩
    · rfl
  returned hret := by
    have hfalse := h.not_returned (hp ▸ hp₁) (hp ▸ hp₃)
    exact absurd hret (by rw [CheckState.move, hfalse]; exact Bool.false_ne_true)

/-- An image that is not fetched has status unknown. -/
theorem imageStale_of_not_isFetched (env : UpdateEnv) {img : ImageInfo}
    (h : img.isFetched = false) : imageStale env img = .unknown := by
  simp only [ImageInfo.isFetched, Bool.not_eq_false', Bool.or_eq_true] at h
  unfold imageStale
  split
  · rfl
  · next htags =>
    rw [htags] at h
    rw [if_pos (h.resolve_left Bool.false_ne_true)]

/-- The map after one more image has its status. -/
theorem results_insert (h : Tracked env images s) (hids : (images.map (·.id)).Nodup) {i : Nat}
    {img : ImageInfo} {status : StaleStatus} (himg : images[i]? = some img)
    (hstatus : imageStale env img = status)
    (hset : ∀ j jmg, images[j]? = some jmg → (s'.Settled j jmg ↔ j = i ∨ s.Settled j jmg))
    (hres : s'.results = s.results.insert img.id status) (id : String) (v : StaleStatus) :
    s'.results.get? id = some v ↔
      ∃ j jmg, images[j]? = some jmg ∧ s'.Settled j jmg ∧ jmg.id = id ∧ imageStale env jmg = v := by
  have hsame {j : Nat} {jmg : ImageInfo} (hj : images[j]? = some jmg) (heq : jmg.id = img.id) :
      j = i := by
    obtain ⟨hjlt, -⟩ := List.getElem?_eq_some_iff.mp hj
    apply (List.getElem?_inj (by simpa using hjlt) hids).mp
    rw [List.getElem?_map, List.getElem?_map, hj, himg, Option.map_some, Option.map_some, heq]
  rw [hres, KeyMap.get?_insert]
  constructor
  · intro hv
    split at hv
    · next heq =>
      exact ⟨i, img, himg, (hset i img himg).mpr (.inl rfl), heq.symm,
        hstatus.trans (Option.some.inj hv)⟩
    · obtain ⟨j, jmg, hj, hs, hid, hv⟩ := (h.results id v).mp hv
      exact ⟨j, jmg, hj, (hset j jmg hj).mpr (.inr hs), hid, hv⟩
  · rintro ⟨j, jmg, hj, hs, rfl, rfl⟩
    split
    · next heq =>
      obtain rfl := hsame hj heq
      rw [himg] at hj
      obtain rfl := Option.some.inj hj
      rw [hstatus]
    · next hne =>
      refine (h.results _ _).mpr ⟨j, jmg, hj, ((hset j jmg hj).mp hs).resolve_left ?_, rfl, rfl⟩
      rintro rfl
      rw [himg] at hj
      obtain rfl := Option.some.inj hj
      exact hne rfl

/-- While the loop is at an image the wait is not over. -/
theorem not_returned_of_next (h : Tracked env images s) {img : ImageInfo}
    (himg : images[s.next]? = some img) : s.returned = false := by
  rw [Bool.eq_false_iff]
  intro hret
  have hlt := (List.getElem?_eq_some_iff.mp himg).1
  exact absurd (h.returned hret).2.1 hlt.ne

/-- A goroutine writes and gives the mutex back. -/
theorem write (h : Tracked env images s) (hids : (images.map (·.id)).Nodup) {i : Nat}
    {img : ImageInfo} (himg : images[i]? = some img) (hp : s.phase i = .writing) :
    Tracked env images { s.move i .finished with
      locked := false
      results := s.results.insert img.id (imageStale env img) } where
  next_le := h.next_le
  loop := h.loop
  started j jmg hj := by
    have hs := h.started j jmg hj
    simp only [CheckState.move, Function.update_apply]
    split
    · next heq =>
      subst heq
      rw [hp] at hs
      exact ⟨fun _ ↦ hs.mp nofun, fun _ ↦ nofun⟩
    · exact hs
  outside j hj := by
    simp only [CheckState.move, Function.update_apply]
    split
    · next heq =>
      subst heq
      rw [himg] at hj
      cases hj
    · exact h.outside j hj
  one j k hj hk := by
    simp only [CheckState.move, Function.update_apply] at hj hk
    split at hj
    · cases hj
    · split at hk
      · cases hk
      · exact h.one j k hj hk
  lock := by
    constructor
    · exact nofun
    · rintro ⟨j, hj⟩
      simp only [CheckState.move, Function.update_apply] at hj
      split at hj
      · cases hj
      · next hne => exact absurd (h.one j i hj hp) hne
  results := by
    have hlt : i < s.next := by
      obtain ⟨_, _, hlt, _⟩ := h.exists_image (hp ▸ nofun : s.phase i ≠ .unstarted)
      exact hlt
    refine h.results_insert hids himg rfl (fun j jmg hj ↦ ?_) rfl
    simp only [Settled, CheckState.move, Function.update_apply]
    split
    · next heq =>
      subst heq
      exact ⟨fun _ ↦ .inl rfl, fun _ ↦ ⟨hlt, .inr rfl⟩⟩
    · next hne => exact ⟨.inr, (Or.resolve_left · hne)⟩
  returned hret := by
    have hfalse := h.not_returned (hp ▸ nofun : s.phase i ≠ .unstarted) (hp ▸ nofun)
    exact absurd hret (by rw [CheckState.move, hfalse]; exact Bool.false_ne_true)

/-- The loop starts a goroutine. -/
theorem spawn (h : Tracked env images s) {img : ImageInfo} (himg : images[s.next]? = some img)
    (hf : img.isFetched = true) (hloop : s.loopWrites = false) :
    Tracked env images { s.move s.next .fetching with next := s.next + 1 } where
  next_le := (List.getElem?_eq_some_iff.mp himg).1
  loop hl := absurd hl (by rw [CheckState.move, hloop]; exact Bool.false_ne_true)
  started j jmg hj := by
    have hs := h.started j jmg hj
    simp only [CheckState.move, Function.update_apply]
    split
    · next heq =>
      subst heq
      rw [himg] at hj
      obtain rfl := Option.some.inj hj
      exact ⟨fun _ ↦ ⟨Nat.lt_succ_self _, hf⟩, fun _ ↦ nofun⟩
    · next hne => rw [hs, Nat.lt_succ_iff_lt_or_eq, or_iff_left hne]
  outside j hj := by
    simp only [CheckState.move, Function.update_apply]
    split
    · next heq =>
      subst heq
      rw [himg] at hj
      cases hj
    · exact h.outside j hj
  one j k hj hk := by
    simp only [CheckState.move, Function.update_apply] at hj hk
    split at hj
    · cases hj
    · split at hk
      · cases hk
      · exact h.one j k hj hk
  lock := by
    refine h.lock.trans (exists_congr fun j ↦ ?_)
    simp only [CheckState.move, Function.update_apply]
    split
    · next heq =>
      subst heq
      have hun : s.phase s.next = .unstarted := by
        by_contra hne
        exact absurd ((h.started _ img himg).mp hne).1 (Nat.lt_irrefl _)
      rw [hun]
      exact ⟨nofun, nofun⟩
    · rfl
  results id status := by
    refine (h.results id status).trans ?_
    refine exists_congr fun j ↦ exists_congr fun jmg ↦ and_congr_right fun hj ↦ and_congr_left' ?_
    simp only [Settled, CheckState.move, Function.update_apply]
    split
    · next heq =>
      subst heq
      rw [himg] at hj
      obtain rfl := Option.some.inj hj
      simp [hf]
    · next hne => rw [Nat.lt_succ_iff_lt_or_eq, or_iff_left hne]
  returned hret :=
    absurd hret (by rw [CheckState.move, h.not_returned_of_next himg]; exact Bool.false_ne_true)

/-- The loop comes to its own write. -/
theorem beginSkip (h : Tracked env images s) {img : ImageInfo}
    (himg : images[s.next]? = some img) (hf : img.isFetched = false) :
    Tracked env images { s with loopWrites := true } :=
  { h with
    loop := fun _ ↦ ⟨img, himg, hf⟩
    returned := fun hret ↦
      absurd hret (by rw [h.not_returned_of_next himg]; exact Bool.false_ne_true) }

/-- The loop has written. -/
theorem endSkip (h : Tracked env images s) (hids : (images.map (·.id)).Nodup) {img : ImageInfo}
    (himg : images[s.next]? = some img) (hloop : s.loopWrites = true) :
    Tracked env images { s with
      next := s.next + 1
      loopWrites := false
      results := s.results.insert img.id .unknown } := by
  have hf : img.isFetched = false := by
    obtain ⟨img', himg', hf⟩ := h.loop hloop
    rw [himg] at himg'
    rwa [Option.some.inj himg']
  refine { h with
    next_le := (List.getElem?_eq_some_iff.mp himg).1
    loop := nofun
    started := fun j jmg hj ↦ ?_
    results := ?_
    returned := fun hret ↦ ?_ }
  · refine (h.started j jmg hj).trans ?_
    by_cases heq : j = s.next
    · subst heq
      rw [himg] at hj
      obtain rfl := Option.some.inj hj
      simp [hf]
    · rw [Nat.lt_succ_iff_lt_or_eq, or_iff_left heq]
  · refine h.results_insert hids himg (imageStale_of_not_isFetched env hf) (fun j jmg hj ↦ ?_) rfl
    by_cases heq : j = s.next
    · subst heq
      rw [himg] at hj
      obtain rfl := Option.some.inj hj
      exact ⟨fun _ ↦ .inl rfl, fun _ ↦ ⟨Nat.lt_succ_self _, .inl hf⟩⟩
    · simp only [Settled, Nat.lt_succ_iff_lt_or_eq, heq, false_or, or_false]
  · exact absurd hret (by rw [h.not_returned_of_next himg]; exact Bool.false_ne_true)

/-- Every step keeps track. -/
theorem step (h : Tracked env images s) (hids : (images.map (·.id)).Nodup)
    (he : Effect env images s l s') : Tracked env images s' := by
  cases he with
  | beginSkip himg hf hloop => exact h.beginSkip himg hf
  | endSkip himg hloop => exact h.endSkip hids himg hloop
  | spawn himg hf hloop => exact h.spawn himg hf hloop
  | answer hp =>
    exact h.move hp nofun nofun nofun nofun nofun nofun (or_iff_left nofun).symm
  | lock hp hfree =>
    exact h.move hp nofun nofun nofun nofun nofun (fun _ ↦ hfree) ⟨fun _ ↦ .inr rfl, fun _ ↦ rfl⟩
  | write himg hp => exact h.write hids himg hp
  | join hret hloop hnext hall => exact { h with returned := fun _ ↦ ⟨hloop, hnext, hall⟩ }

end Tracked

/-! ## The race -/

private theorem run_concat {env : UpdateEnv} {images : List ImageInfo} {s t u : CheckState}
    {l : CheckLabel} {ls : List CheckLabel} (h : runSteps (step env images) s ls = some t)
    (hl : step env images t l = some u) : runSteps (step env images) s (ls ++ [l]) = some u :=
  runSteps_append h (runSteps_cons_eq_some.mpr ⟨u, hl, rfl⟩)

/-- The loop can come to an image while all goroutines that it has started are at their requests. -/
theorem exists_loop_run (env : UpdateEnv) (images : List ImageInfo) {k : Nat}
    (hk : k ≤ images.length) :
    ∃ ls s, runSteps (step env images) init ls = some s ∧ s.next = k ∧ s.loopWrites = false ∧
      s.locked = false ∧ ∀ i < k, ∀ img, images[i]? = some img → img.isFetched = true →
        s.phase i = .fetching := by
  induction k with
  | zero => exact ⟨[], init, rfl, rfl, rfl, rfl, fun i hi ↦ absurd hi (Nat.not_lt_zero i)⟩
  | succ k ih =>
    obtain ⟨ls, s, hrun, rfl, hloop, hlocked, hphase⟩ := ih (Nat.le_of_succ_le hk)
    have himg : images[s.next]? = some images[s.next] := List.getElem?_eq_getElem hk
    cases hf : images[s.next].isFetched with
    | true =>
      have hstep : step env images s .spawn =
          some { s.move s.next .fetching with next := s.next + 1 } := by
        simp [step, hloop, himg, hf]
      refine ⟨_, _, run_concat hrun hstep, rfl, hloop, hlocked, fun i hi img hi' hf' ↦ ?_⟩
      simp only [move, Function.update_apply]
      split
      · rfl
      · next hne => exact hphase i (by omega) img hi' hf'
    | false =>
      have hbegin : step env images s .beginSkip = some { s with loopWrites := true } := by
        simp [step, hloop, himg, hf]
      have hend : step env images { s with loopWrites := true } .endSkip =
          some { s with
            next := s.next + 1
            loopWrites := false
            results := s.results.insert images[s.next].id .unknown } := by
        simp [step, hlocked, himg]
      have hlast := run_concat (run_concat hrun hbegin) hend
      refine ⟨_, _, hlast, rfl, rfl, hlocked, fun i hi img hi' hf' ↦ ?_⟩
      have hne : i ≠ s.next := by
        rintro rfl
        rw [himg] at hi'
        obtain rfl := Option.some.inj hi'
        rw [hf] at hf'
        cases hf'
      exact hphase i (by omega) img hi' hf'

/-- From there the goroutine of one image gets to its write, and the loop to its own. -/
theorem exists_race_run (env : UpdateEnv) {i j : Nat} {a b : ImageInfo} (hij : i < j)
    (ha : images[i]? = some a) (hfa : a.isFetched = true) (hb : images[j]? = some b)
    (hfb : b.isFetched = false) :
    ∃ ls t, runSteps (step env images) init ls = some t ∧ t.Race := by
  have hj : j < images.length := (List.getElem?_eq_some_iff.mp hb).1
  obtain ⟨ls, s, hrun, rfl, hloop, hlocked, hphase⟩ := exists_loop_run env images hj.le
  have hanswer : step env images s (.answer i) = some (s.move i .locking) := by
    simp [step, hloop, hphase i hij a ha hfa]
  have hlock : step env images (s.move i .locking) (.lock i) =
      some { (s.move i .locking).move i .writing with locked := true } := by
    simp [step, move, hloop, hlocked]
  have hbegin : step env images { (s.move i .locking).move i .writing with locked := true }
      .beginSkip = some { (s.move i .locking).move i .writing with
        locked := true
        loopWrites := true } := by
    simp [step, move, hloop, hb, hfb]
  have hlast := run_concat (run_concat (run_concat hrun hanswer) hlock) hbegin
  exact ⟨_, _, hlast, rfl, i, by simp [move]⟩

/-- The work left to the loop, the goroutines and the wait. -/
def work (images : List ImageInfo) (s : CheckState) : Nat :=
  4 * (images.length - s.next) + (!s.loopWrites).toNat +
    (∑ i ∈ Finset.range images.length, (s.phase i).work + (!s.returned).toNat)

/-- Every step is work done. -/
theorem Tracked.work_lt (h : Tracked env images s) (he : Effect env images s l s') :
    s'.work images < s.work images := by
  have hmove {i : Nat} {p : CheckPhase} (q : CheckPhase) (hp : s.phase i = p)
      (hi : i < images.length) :
      ∑ j ∈ Finset.range images.length, (Function.update s.phase i q j).work + p.work =
        ∑ j ∈ Finset.range images.length, (s.phase j).work + q.work := by
    rw [← hp]
    exact sum_update _ CheckPhase.work s.phase (Finset.mem_range.mpr hi) q
  have hlisted {i : Nat} {img : ImageInfo} (himg : images[i]? = some img) : i < images.length :=
    (List.getElem?_eq_some_iff.mp himg).1
  have hstarted {i : Nat} {p : CheckPhase} (hp : s.phase i = p) (hne : p ≠ .unstarted) :
      i < images.length := by
    obtain ⟨img, himg, -⟩ := h.exists_image (hp ▸ hne : s.phase i ≠ .unstarted)
    exact hlisted himg
  have hlower {p q : Nat} {a b c : Nat} (hsum : a + p = b + q) (hlt : q < p) : a + c < b + c := by
    omega
  cases he with
  | beginSkip himg hf hloop => simp [work, hloop]
  | endSkip himg hloop =>
    have hnext := hlisted himg
    simp only [work, hloop, Bool.not_true, Bool.not_false, Bool.toNat_true, Bool.toNat_false]
    omega
  | @spawn img himg hf hloop =>
    have hnext := hlisted himg
    have hidle : s.phase s.next = .unstarted := by
      by_contra hne
      exact Nat.lt_irrefl _ ((h.started s.next img himg).mp hne).1
    have hsum := hmove .fetching hidle hnext
    rw [CheckPhase.work, CheckPhase.work] at hsum
    simp only [work, CheckState.move]
    omega
  | answer hp =>
    exact Nat.add_lt_add_left (hlower (hmove .locking hp (hstarted hp nofun)) (by decide)) _
  | lock hp hfree =>
    exact Nat.add_lt_add_left (hlower (hmove .writing hp (hstarted hp nofun)) (by decide)) _
  | write himg hp =>
    exact Nat.add_lt_add_left (hlower (hmove .finished hp (hlisted himg)) (by decide)) _
  | join hret hloop hnext hall => simp [work, hret]

/-- Unless two writes have met or the wait is over, somebody can go on. -/
theorem Tracked.progress (h : Tracked env images s) :
    s.Race ∨ s.returned = true ∨ ∃ l s', CheckState.step env images s l = some s' := by
  by_cases hrace : s.Race
  · exact .inl hrace
  · right
    have hguard : ¬ (s.loopWrites = true ∧ s.locked = true) := fun hg ↦
      hrace ⟨hg.1, h.lock.mp hg.2⟩
    have hgo {p : CheckPhase} {i : Nat} (hp : s.phase i = p) (hun : p ≠ .unstarted)
        (hfin : p ≠ .finished) : ∃ l s', CheckState.step env images s l = some s' := by
      have hwrite {m : Nat} (hm : s.phase m = .writing) :
          ∃ l s', CheckState.step env images s l = some s' := by
        obtain ⟨img, himg, -⟩ := h.exists_image (hm ▸ nofun : s.phase m ≠ .unstarted)
        exact ⟨.write m, _, by rw [CheckState.step, if_neg hguard]; simp only [himg, hm]; rfl⟩
      cases p with
      | unstarted => exact absurd rfl hun
      | finished => exact absurd rfl hfin
      | fetching => exact ⟨.answer i, _, by rw [CheckState.step, if_neg hguard]; exact if_pos hp⟩
      | writing => exact hwrite hp
      | locking =>
        cases hlocked : s.locked with
        | false =>
          exact ⟨.lock i, _, by rw [CheckState.step, if_neg hguard]; exact if_pos ⟨hp, hlocked⟩⟩
        | true =>
          obtain ⟨m, hm⟩ := h.lock.mp hlocked
          exact hwrite hm
    rcases h.next_le.lt_or_eq with hlt | hnext
    · right
      have himg : images[s.next]? = some images[s.next] := List.getElem?_eq_getElem hlt
      cases hloop : s.loopWrites with
      | true =>
        exact ⟨.endSkip, _, by rw [CheckState.step, if_neg hguard]; simp only [himg, hloop]; rfl⟩
      | false =>
        cases hf : images[s.next].isFetched with
        | true =>
          exact ⟨.spawn, _, by
            rw [CheckState.step, if_neg hguard]
            simp only [himg]
            exact if_pos ⟨hf, hloop⟩⟩
        | false =>
          exact ⟨.beginSkip, _, by
            rw [CheckState.step, if_neg hguard]
            simp only [himg]
            exact if_pos ⟨hf, hloop⟩⟩
    · cases hret : s.returned with
      | true => exact .inl rfl
      | false =>
        right
        by_cases hall : ∀ i < images.length, s.phase i = .unstarted ∨ s.phase i = .finished
        · have hloop : s.loopWrites = false := by
            rw [Bool.eq_false_iff]
            intro hl
            obtain ⟨img, himg, -⟩ := h.loop hl
            exact absurd (List.getElem?_eq_some_iff.mp himg).1 (by omega)
          exact ⟨.join, _, by
            rw [CheckState.step, if_neg hguard]
            exact if_pos ⟨hret, hloop, hnext, hall⟩⟩
        · obtain ⟨i, hi⟩ := not_forall.mp hall
          obtain ⟨hun, hfin⟩ := not_or.mp (Classical.not_imp.mp hi).2
          exact hgo rfl hun hfin

/-- The loop's write can meet that of a goroutine exactly if an image that is fetched is listed
before one that is not. A run has at most four steps for each image and two more; one in which they
do not meet goes on until the wait is over, and then the map has the status of each image, as if
they had been checked one after the other. -/
theorem checkImagesStale_race (env : UpdateEnv) (images : List ImageInfo)
    (hids : (images.map (·.id)).Nodup) :
    ((∃ ls t, runSteps (step env images) init ls = some t ∧ t.Race) ↔
      ∃ i j : Nat, ∃ a b : ImageInfo, i < j ∧ images[i]? = some a ∧ a.isFetched = true ∧
        images[j]? = some b ∧ b.isFetched = false) ∧
    ∀ ls t, runSteps (step env images) init ls = some t →
      ls.length ≤ 4 * images.length + 2 ∧
      (t.Race ∨ t.returned = true ∨ ∃ l u, step env images t l = some u) ∧
      (t.returned = true →
        ∀ id, t.results.get? id = (checkImagesStale env (.ok images)).get? id) := by
  have htracked {ls : List CheckLabel} {t : CheckState}
      (h : runSteps (step env images) init ls = some t) : Tracked env images t :=
    runSteps_invariant (fun _ _ _ hs hu ↦ hs.step hids (step_effect hu)) (.init env images) h
  refine ⟨⟨?_, ?_⟩, fun ls t h ↦ ⟨?_, (htracked h).progress, fun hret id ↦ ?_⟩⟩
  · rintro ⟨ls, t, h, hloop, i, hi⟩
    have ht := htracked h
    obtain ⟨b, hb, hfb⟩ := ht.loop hloop
    obtain ⟨a, ha, hlt, hfa⟩ := ht.exists_image (hi ▸ nofun : t.phase i ≠ .unstarted)
    exact ⟨i, t.next, a, b, hlt, ha, hfa, hb, hfb⟩
  · rintro ⟨i, j, a, b, hij, ha, hfa, hb, hfb⟩
    exact exists_race_run env hij ha hfa hb hfb
  · have hle := runSteps_length_le (I := Tracked env images) (m := work images)
      (fun _ _ _ hs hu ↦ ⟨hs.step hids (step_effect hu), hs.work_lt (step_effect hu)⟩)
      (.init env images) h
    have hwork : init.work images = 4 * images.length + 2 := by
      simp [work, init, CheckPhase.work]
    omega
  · have ht := htracked h
    obtain ⟨-, hnext, hall⟩ := ht.returned hret
    apply Option.ext
    intro status
    refine Iff.trans ?_ (KeyMap.get?_foldl_insert_eq_some hids).symm
    rw [ht.results]
    constructor
    · rintro ⟨i, img, himg, -, hid, hstatus⟩
      exact ⟨img, List.mem_of_getElem? himg, hid, hstatus⟩
    · rintro ⟨img, hmem, hid, hstatus⟩
      obtain ⟨i, himg⟩ := List.getElem?_of_mem hmem
      have hlt : i < images.length := (List.getElem?_eq_some_iff.mp himg).1
      refine ⟨i, img, himg, ⟨hnext ▸ hlt, ?_⟩, hid, hstatus⟩
      cases hf : img.isFetched with
      | false => exact .inl rfl
      | true =>
        have hne := (ht.started i img himg).mpr ⟨hnext ▸ hlt, hf⟩
        exact .inr ((hall i hlt).resolve_left hne)

/-- An image of the registry, and one built on the host, which has no digest. -/
def pulledThenBuilt : List ImageInfo :=
  [⟨"aaaaaaaaaaaa", ["nginx:1.25"], ["nginx@sha256:00"], 1, 2⟩, ⟨"bbbbbbbbbbbb", ["app"], [], 1, 1⟩]

/-- The two writes can meet. -/
theorem checkImagesStale_race_pulledThenBuilt :
    ∃ ls t, runSteps (step demoEnv pulledThenBuilt) init ls = some t ∧ t.Race :=
  (checkImagesStale_race demoEnv pulledThenBuilt (by decide)).1.mpr
    ⟨0, 1, _, _, Nat.zero_lt_one, rfl, by decide, rfl, by decide⟩

end CheckState

end Dockstack.Docker
