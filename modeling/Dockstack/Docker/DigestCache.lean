import Dockstack.Base.Clock
import Dockstack.Base.History
import Dockstack.Base.KeyMap
import Dockstack.Base.Machine

/-!
# The remote digest cache

`RemoteDigestCached` and `InvalidateRemoteDigests` of `internal/docker/client.go`: a call
looks the tag up under the lock, asks the registry without it and stores the answer under
the lock again. Calls interleave freely; the history says what each of them did.
-/

namespace Dockstack.Docker

open Dockstack.Base

/-- A digest and when it was stored. `client.go:18–21`. -/
structure RemoteDigestEntry where
  digest : String
  storedAt : Int
  deriving DecidableEq

/-- `client.go:87`. -/
def remoteDigestTTL : Int := hour

/-- Where a call of `RemoteDigestCached` is. -/
inductive DigestPhase where
  | called
  | lookedUp (entry : Option RemoteDigestEntry)
  | fetching
  | fetched (digest : String)
  | done (res : Option String)
  deriving DecidableEq

/-- A call of `RemoteDigestCached`. -/
structure DigestCall where
  tag : String
  phase : DigestPhase
  deriving DecidableEq

/-- The atomic steps: those of call `c` of `RemoteDigestCached`, and the whole of
`InvalidateRemoteDigests`. `res` is what `RemoteDigest` answers. -/
inductive DigestOp where
  | call (c : Nat) (tag : String)
  | lookup (c : Nat)
  | check (c : Nat)
  | fetch (c : Nat) (res : Option String)
  | store (c : Nat)
  | invalidate
  deriving DecidableEq

/-- A step and the clock reading at it. -/
structure DigestLabel where
  now : Int
  op : DigestOp
  deriving DecidableEq

/-- What happened. -/
inductive DigestEvent where
  | called (c : Nat) (tag : String)
  | lookedUp (c : Nat) (tag : String) (now : Int)
  | fetched (c : Nat) (tag digest : String)
  | stored (c : Nat) (tag digest : String) (now : Int)
  | returned (c : Nat) (tag digest : String)
  | invalidated
  deriving DecidableEq

/-- The cache, `none` for Go's nil map, the calls so far and what happened. -/
structure DigestCache where
  clock : Int
  digests : Option (KeyMap String RemoteDigestEntry)
  calls : KeyMap Nat DigestCall
  history : List DigestEvent

namespace DigestCache

/-- Before any call. -/
def init : DigestCache := ⟨zeroTime, none, ∅, []⟩

/-- `c.digests[tag]`. -/
def cached? (s : DigestCache) (tag : String) : Option RemoteDigestEntry :=
  s.digests.bind fun digests ↦ digests.get? tag

/-- `c.digests[tag] = entry`, into a new map if there is none. `client.go:102–105`. -/
def put (s : DigestCache) (tag : String) (entry : RemoteDigestEntry) : DigestCache :=
  { s with digests := some ((s.digests.getD ∅).insert tag entry) }

/-- Call `c` goes on. -/
def move (s : DigestCache) (c : Nat) (call : DigestCall) (events : List DigestEvent) :
    DigestCache :=
  { s with calls := s.calls.insert c call, history := s.history ++ events }

/-- The step at the state's clock, `none` when it is not the next one of its call.
`client.go:89–115`. -/
def act (s : DigestCache) : DigestOp → Option DigestCache
  | .call c tag =>
    if s.calls.get? c = none then some (s.move c ⟨tag, .called⟩ [.called c tag]) else none
  | .lookup c =>
    match s.calls.get? c with
    | some ⟨tag, .called⟩ =>
      some (s.move c ⟨tag, .lookedUp (s.cached? tag)⟩ [.lookedUp c tag s.clock])
    | _ => none
  | .check c =>
    match s.calls.get? c with
    | some ⟨tag, .lookedUp (some entry)⟩ =>
      if s.clock - entry.storedAt < remoteDigestTTL then
        some (s.move c ⟨tag, .done (some entry.digest)⟩ [.returned c tag entry.digest])
      else some (s.move c ⟨tag, .fetching⟩ [])
    | some ⟨tag, .lookedUp none⟩ => some (s.move c ⟨tag, .fetching⟩ [])
    | _ => none
  | .fetch c res =>
    match s.calls.get? c, res with
    | some ⟨tag, .fetching⟩, some digest =>
      some (s.move c ⟨tag, .fetched digest⟩ [.fetched c tag digest])
    | some ⟨tag, .fetching⟩, none => some (s.move c ⟨tag, .done none⟩ [])
    | _, _ => none
  | .store c =>
    match s.calls.get? c with
    | some ⟨tag, .fetched digest⟩ =>
      some ((s.put tag ⟨digest, s.clock⟩).move c ⟨tag, .done (some digest)⟩
        [.stored c tag digest s.clock, .returned c tag digest])
    | _ => none
  | .invalidate => some { s with digests := none, history := s.history ++ [.invalidated] }

/-- One step in non-decreasing time. -/
def step (s : DigestCache) (l : DigestLabel) : Option DigestCache :=
  if s.clock ≤ l.now then { s with clock := l.now }.act l.op else none

end DigestCache

/-! ## Where a digest comes from -/

/-- The events that replace or remove the cache's entry for `tag`. -/
def DigestEvent.overwrites (tag : String) : DigestEvent → Prop
  | .stored _ tag' _ _ => tag' = tag
  | .invalidated => True
  | _ => False

/-- The cache's entry for `tag` is what call `c` fetched and stored at `storedAt`. -/
def CachedBy (c : Nat) (tag digest : String) (storedAt : Int) (h : List DigestEvent) : Prop :=
  ∃ pre post, h = pre ++ .stored c tag digest storedAt :: post ∧
    .fetched c tag digest ∈ pre ∧ ∀ e ∈ post, ¬ e.overwrites tag

/-- Call `c` found an entry in the cache that was less than an hour old, and that call `c'`
had fetched and stored. -/
def HitFrom (c c' : Nat) (tag digest : String) (h : List DigestEvent) : Prop :=
  ∃ pre post now storedAt, h = pre ++ .lookedUp c tag now :: post ∧
    CachedBy c' tag digest storedAt pre ∧ now - storedAt < remoteDigestTTL

/-- The digest of call `c` was fetched by call `c'`: itself, or one that stored it. -/
def ObtainedFrom (c c' : Nat) (tag digest : String) (h : List DigestEvent) : Prop :=
  (c' = c ∧ .fetched c tag digest ∈ h) ∨ HitFrom c c' tag digest h

/-- Every digest that is returned comes from a fetch for its tag, by the call itself or stored
less than an hour before the lookup. -/
def DigestsObtained (h : List DigestEvent) : Prop :=
  Always (fun pre e ↦ ∀ c tag digest, e = .returned c tag digest →
    ∃ c', ObtainedFrom c c' tag digest pre) h

/-- And an invalidation before a call is one before the fetch of what the call returns. -/
def DigestsFresh (h : List DigestEvent) : Prop :=
  Always (fun pre e ↦ ∀ c tag digest, e = .returned c tag digest →
    ∃ c', ObtainedFrom c c' tag digest pre ∧
      NoneBetween .invalidated (.fetched c' tag digest) (.called c tag) pre) h

/-- The fetch whose digest a step stores. -/
def DigestCache.storing (s : DigestCache) : DigestOp → Option DigestEvent
  | .store c =>
    match s.calls.get? c with
    | some ⟨tag, .fetched digest⟩ => some (.fetched c tag digest)
    | _ => none
  | _ => none

/-- A step does not store a digest that was fetched before an invalidation. -/
def StoresFresh (s : DigestCache) (l : DigestLabel) : Prop :=
  ∀ fetch ∈ s.storing l.op, Since (· ≠ .invalidated) (· = fetch) s.history

instance : DecidableRel StoresFresh := fun s l ↦
  inferInstanceAs (Decidable (∀ fetch ∈ s.storing l.op, Since _ _ s.history))

/-! ## What a step does -/

namespace DigestCache

/-- A store sets the entry of its own tag only. -/
theorem cached?_put (s : DigestCache) (tag tag' : String) (entry : RemoteDigestEntry) :
    (s.put tag entry).cached? tag' = if tag' = tag then some entry else s.cached? tag' := by
  rw [cached?, put, Option.bind_some, KeyMap.get?_insert]
  cases hd : s.digests with
  | none => simp [cached?, hd, KeyMap.get?]
  | some digests => rw [Option.getD_some, cached?, hd, Option.bind_some]

/-- A call that goes on leaves the cache as it is. -/
theorem cached?_move (s : DigestCache) (c : Nat) (call : DigestCall) (events : List DigestEvent)
    (tag : String) : (s.move c call events).cached? tag = s.cached? tag := rfl

/-- Everything that a step can do. -/
inductive Effect (s : DigestCache) : DigestOp → DigestCache → Prop where
  | call {c : Nat} {tag : String} (fresh : s.calls.get? c = none) :
      Effect s (.call c tag) (s.move c ⟨tag, .called⟩ [.called c tag])
  | lookup {c : Nat} {tag : String} (call : s.calls.get? c = some ⟨tag, .called⟩) :
      Effect s (.lookup c) (s.move c ⟨tag, .lookedUp (s.cached? tag)⟩ [.lookedUp c tag s.clock])
  | hit {c : Nat} {tag : String} {entry : RemoteDigestEntry}
      (call : s.calls.get? c = some ⟨tag, .lookedUp (some entry)⟩)
      (fresh : s.clock - entry.storedAt < remoteDigestTTL) :
      Effect s (.check c)
        (s.move c ⟨tag, .done (some entry.digest)⟩ [.returned c tag entry.digest])
  | miss {c : Nat} {tag : String} {found : Option RemoteDigestEntry}
      (call : s.calls.get? c = some ⟨tag, .lookedUp found⟩) :
      Effect s (.check c) (s.move c ⟨tag, .fetching⟩ [])
  | fetch {c : Nat} {tag digest : String} (call : s.calls.get? c = some ⟨tag, .fetching⟩) :
      Effect s (.fetch c (some digest))
        (s.move c ⟨tag, .fetched digest⟩ [.fetched c tag digest])
  | fail {c : Nat} {tag : String} (call : s.calls.get? c = some ⟨tag, .fetching⟩) :
      Effect s (.fetch c none) (s.move c ⟨tag, .done none⟩ [])
  | store {c : Nat} {tag digest : String} (call : s.calls.get? c = some ⟨tag, .fetched digest⟩) :
      Effect s (.store c) ((s.put tag ⟨digest, s.clock⟩).move c ⟨tag, .done (some digest)⟩
        [.stored c tag digest s.clock, .returned c tag digest])
  | invalidate :
      Effect s .invalidate { s with digests := none, history := s.history ++ [.invalidated] }

/-- A step has one of the listed effects. -/
theorem act_effect {s s' : DigestCache} {op : DigestOp} (h : s.act op = some s') :
    s.Effect op s' := by
  cases op with
  | call c tag =>
    obtain ⟨hfresh, ⟨⟩⟩ := Option.ite_none_right_eq_some.mp h
    exact .call hfresh
  | lookup c =>
    simp only [act] at h
    split at h
    · next hc =>
      cases h
      exact .lookup hc
    · cases h
  | check c =>
    simp only [act] at h
    split at h
    · next hc =>
      split at h
      · next hfresh =>
        cases h
        exact .hit hc hfresh
      · cases h
        exact .miss hc
    · next hc =>
      cases h
      exact .miss hc
    · cases h
  | fetch c res =>
    simp only [act] at h
    split at h
    · next hc =>
      cases h
      exact .fetch hc
    · next hc =>
      cases h
      exact .fail hc
    · cases h
  | store c =>
    simp only [act] at h
    split at h
    · next hc =>
      cases h
      exact .store hc
    · cases h
  | invalidate =>
    cases h
    exact .invalidate

end DigestCache

/-! ## The invariant

Under `clean` no step stores a digest that an invalidation should have removed. -/

section

variable (clean : Prop)

/-- Where the cache's entry for `tag` comes from. -/
def EntryFrom (tag : String) (entry : RemoteDigestEntry) (h : List DigestEvent) : Prop :=
  ∃ c, CachedBy c tag entry.digest entry.storedAt h ∧
    (clean → Since (· ≠ .invalidated) (· = .fetched c tag entry.digest) h)

/-- Where the digest comes from that call `c` will return. -/
def DigestFrom (c : Nat) (tag digest : String) (h : List DigestEvent) : Prop :=
  ∃ c', ObtainedFrom c c' tag digest h ∧
    (clean → NoneBetween .invalidated (.fetched c' tag digest) (.called c tag) h)

/-- What the history says of a call. -/
def CallFrom (clock : Int) (c : Nat) (tag : String) (h : List DigestEvent) :
    DigestPhase → Prop
  | .lookedUp (some entry) =>
    clock - entry.storedAt < remoteDigestTTL → DigestFrom clean c tag entry.digest h
  | .fetched digest => .fetched c tag digest ∈ h ∧
      NoneBetween .invalidated (.fetched c tag digest) (.called c tag) h
  | _ => True

/-- The cache, the calls and the returned digests are as the history says. -/
structure DigestsTraced (s : DigestCache) : Prop where
  entries : ∀ tag entry, s.cached? tag = some entry → EntryFrom clean tag entry s.history
  calls : ∀ c call, s.calls.get? c = some call →
    CallFrom clean s.clock c call.tag s.history call.phase
  returned : Always (fun pre e ↦ ∀ c tag digest, e = .returned c tag digest →
    DigestFrom clean c tag digest pre) s.history

end

variable {clean : Prop} {c c' : Nat} {tag digest : String} {h ext : List DigestEvent}

/-- What is cached stays so until something overwrites it. -/
theorem CachedBy.append {t : Int} (hc : CachedBy c tag digest t h)
    (hext : ∀ e ∈ ext, ¬ e.overwrites tag) : CachedBy c tag digest t (h ++ ext) := by
  obtain ⟨pre, post, rfl, hf, hpost⟩ := hc
  refine ⟨pre, post ++ ext, by simp, hf, fun e he ↦ ?_⟩
  exact (List.mem_append.mp he).elim (hpost e) (hext e)

/-- Later events do not change where a digest was obtained. -/
theorem ObtainedFrom.append (ho : ObtainedFrom c c' tag digest h) (ext : List DigestEvent) :
    ObtainedFrom c c' tag digest (h ++ ext) := by
  rcases ho with ⟨rfl, hf⟩ | ⟨pre, post, now, t, rfl, hcached, hfresh⟩
  · exact .inl ⟨rfl, List.mem_append_left ext hf⟩
  · exact .inr ⟨pre, post ++ ext, now, t, by simp, hcached, hfresh⟩

private theorem EntryFrom.append {entry : RemoteDigestEntry} (he : EntryFrom clean tag entry h)
    (hext : ∀ e ∈ ext, ¬ e.overwrites tag) : EntryFrom clean tag entry (h ++ ext) := by
  obtain ⟨c, hcached, hsince⟩ := he
  refine ⟨c, hcached.append hext, fun hclean ↦ ?_⟩
  obtain ⟨pre, e, post, rfl, rfl, hpost⟩ := hsince hclean
  refine ⟨pre, _, post ++ ext, by simp, rfl, fun e he ↦ ?_⟩
  rcases List.mem_append.mp he with he | he
  · exact hpost e he
  · rintro rfl
    exact hext _ he trivial

private theorem DigestFrom.append (hd : DigestFrom clean c tag digest h)
    (hext : .called c tag ∉ ext) : DigestFrom clean c tag digest (h ++ ext) := by
  obtain ⟨c', ho, hn⟩ := hd
  exact ⟨c', ho.append ext, fun hclean ↦ (hn hclean).append hext⟩

private theorem CallFrom.append {clock clock' : Int} {phase : DigestPhase}
    (hc : CallFrom clean clock c tag h phase) (hclock : clock ≤ clock')
    (hext : .called c tag ∉ ext) : CallFrom clean clock' c tag (h ++ ext) phase := by
  unfold CallFrom at hc ⊢
  split
  · exact fun hfresh ↦ (hc (by omega)).append hext
  · exact ⟨List.mem_append_left ext hc.1, hc.2.append hext⟩
  · trivial

namespace DigestsTraced

variable {s : DigestCache}

private theorem tick (hs : DigestsTraced clean s) {now : Int} (hnow : s.clock ≤ now) :
    DigestsTraced clean { s with clock := now } where
  entries := hs.entries
  calls c call hc := by
    have h : CallFrom clean now c call.tag (s.history ++ []) call.phase :=
      (hs.calls c call hc).append hnow List.not_mem_nil
    rwa [List.append_nil] at h
  returned := hs.returned

private theorem calls_move (hs : DigestsTraced clean s) {c : Nat} {call : DigestCall}
    {events : List DigestEvent}
    (hcall : CallFrom clean s.clock c call.tag (s.history ++ events) call.phase)
    (hevents : ∀ c' tag, c' ≠ c → .called c' tag ∉ events) (c' : Nat) (call' : DigestCall)
    (hc' : KeyMap.get? (s.calls.insert c call) c' = some call') :
    CallFrom clean s.clock c' call'.tag (s.history ++ events) call'.phase := by
  rw [KeyMap.get?_insert] at hc'
  split at hc'
  · next heq =>
    cases hc'
    exact heq ▸ hcall
  · next hne =>
    exact (hs.calls c' call' hc').append (Int.le_refl _) (hevents c' call'.tag hne)

private theorem move (hs : DigestsTraced clean s) {c : Nat} {call : DigestCall}
    {events : List DigestEvent}
    (hcall : CallFrom clean s.clock c call.tag (s.history ++ events) call.phase)
    (hevents : ∀ c' tag, c' ≠ c → .called c' tag ∉ events)
    (hkeep : ∀ tag, ∀ e ∈ events, ¬ e.overwrites tag)
    (hret : Always (fun pre e ↦ ∀ c tag digest, e = .returned c tag digest →
      DigestFrom clean c tag digest pre) (s.history ++ events)) :
    DigestsTraced clean (s.move c call events) where
  entries tag entry hentry := (hs.entries tag entry hentry).append (hkeep tag)
  calls := hs.calls_move hcall hevents
  returned := hret

private theorem returned_singleton (hs : DigestsTraced clean s) {e : DigestEvent}
    (he : ∀ c tag digest, e ≠ .returned c tag digest) :
    Always (fun pre e ↦ ∀ c tag digest, e = .returned c tag digest →
      DigestFrom clean c tag digest pre) (s.history ++ [e]) :=
  always_append_singleton.mpr ⟨hs.returned, fun c tag digest heq ↦ absurd heq (he c tag digest)⟩

end DigestsTraced

/-- A step keeps everything traced. -/
theorem digestsTraced_act {s s' : DigestCache} {op : DigestOp} (hs : DigestsTraced clean s)
    (hclean : clean → StoresFresh s ⟨s.clock, op⟩) (h : s.act op = some s') :
    DigestsTraced clean s' := by
  cases DigestCache.act_effect h with
  | @call c tag hfresh =>
    refine hs.move trivial ?_ ?_ (hs.returned_singleton (by simp))
    · simp +contextual
    · simp [DigestEvent.overwrites]
  | @lookup c tag hc =>
    refine hs.move ?_ (by simp) (by simp [DigestEvent.overwrites])
      (hs.returned_singleton (by simp))
    cases he : s.cached? tag with
    | none => trivial
    | some entry =>
      intro hfresh
      obtain ⟨c', hcached, hsince⟩ := hs.entries tag entry he
      refine ⟨c', .inr ⟨s.history, [], s.clock, entry.storedAt, rfl, hcached, hfresh⟩, ?_⟩
      exact fun hcl ↦ (noneBetween_of_since (by simp) (hsince hcl)).append (by simp)
  | @hit c tag entry hc hfresh =>
    refine hs.move trivial (by simp) (by simp [DigestEvent.overwrites]) ?_
    refine always_append_singleton.mpr ⟨hs.returned, ?_⟩
    rintro _ _ _ ⟨⟩
    exact hs.calls c _ hc hfresh
  | @miss c tag found hc =>
    refine hs.move trivial (by simp) (by simp) ?_
    rw [List.append_nil]
    exact hs.returned
  | @fetch c tag digest hc =>
    refine hs.move ⟨by simp, ?_⟩ (by simp) (by simp [DigestEvent.overwrites])
      (hs.returned_singleton (by simp))
    exact noneBetween_of_since (by simp) (since_append_singleton.mpr (.inl rfl))
  | @fail c tag hc =>
    refine hs.move trivial (by simp) (by simp) ?_
    rw [List.append_nil]
    exact hs.returned
  | @store c tag digest hc =>
    obtain ⟨hfetched, hnone⟩ := hs.calls c _ hc
    have hstored : Always (fun pre e ↦ ∀ c tag digest, e = .returned c tag digest →
        DigestFrom clean c tag digest pre) (s.history ++ [.stored c tag digest s.clock]) :=
      hs.returned_singleton (by simp)
    refine ⟨fun tag' entry he ↦ ?_, hs.calls_move trivial (by simp), ?_⟩
    · rw [DigestCache.cached?_move, DigestCache.cached?_put] at he
      split at he
      · next heq =>
        subst heq
        cases he
        refine ⟨c, ⟨s.history, [.returned c tag' digest], rfl, hfetched, ?_⟩, fun hcl ↦ ?_⟩
        · simp [DigestEvent.overwrites]
        · refine (since_append (by simp)).mpr (hclean hcl _ ?_)
          simp [DigestCache.storing, hc]
      · next hne =>
        exact (hs.entries tag' entry he).append (by simp [DigestEvent.overwrites, Ne.symm hne])
    · change Always _ (s.history ++ ([.stored c tag digest s.clock] ++ [.returned c tag digest]))
      rw [← List.append_assoc]
      refine always_append_singleton.mpr ⟨hstored, ?_⟩
      rintro _ _ _ ⟨⟩
      exact ⟨c, .inl ⟨rfl, List.mem_append_left _ hfetched⟩, fun _ ↦ hnone.append (by simp)⟩
  | invalidate =>
    refine ⟨fun tag entry he ↦ ?_, fun c call hc ↦ ?_, hs.returned_singleton (by simp)⟩
    · cases he
    · exact (hs.calls c call hc).append (Int.le_refl _) (by simp)

/-- Before any call there is nothing to trace. -/
theorem digestsTraced_init : DigestsTraced clean DigestCache.init where
  entries _ _ he := nomatch he
  calls _ _ hc := nomatch hc
  returned := always_nil _

/-- A timed step keeps everything traced. -/
theorem digestsTraced_step {s s' : DigestCache} {l : DigestLabel} (hs : DigestsTraced clean s)
    (hclean : clean → StoresFresh s l) (h : s.step l = some s') : DigestsTraced clean s' := by
  obtain ⟨hnow, hact⟩ := Option.ite_none_right_eq_some.mp h
  exact digestsTraced_act (hs.tick hnow) hclean hact

/-! ## What is returned -/

/-- However calls and invalidations interleave, a digest that is returned was fetched for its
tag, by the call itself or stored less than an hour before the lookup. -/
theorem digestsObtained {labels : List DigestLabel} {t : DigestCache}
    (h : runSteps DigestCache.step DigestCache.init labels = some t) :
    DigestsObtained t.history := by
  have ht : DigestsTraced False t :=
    runSteps_invariant (fun _ _ _ hs ↦ digestsTraced_step hs (fun hf ↦ hf.elim))
      digestsTraced_init h
  refine ht.returned.imp fun pre e hdigest c tag digest heq ↦ ?_
  obtain ⟨c', ho, -⟩ := hdigest c tag digest heq
  exact ⟨c', ho⟩

/-- If no step stores a digest that was fetched before an invalidation, then besides a call
after an invalidation only returns what was fetched after it. -/
theorem digestsFresh {labels : List DigestLabel} {t : DigestCache}
    (h : runSteps DigestCache.step DigestCache.init labels = some t)
    (hstores : RunMeets DigestCache.step StoresFresh DigestCache.init labels) :
    DigestsFresh t.history := by
  have ht : DigestsTraced True t :=
    runSteps_invariant_of_meets (fun _ _ _ hs hP ↦ digestsTraced_step hs (fun _ ↦ hP))
      digestsTraced_init hstores h
  refine ht.returned.imp fun pre e hdigest c tag digest heq ↦ ?_
  obtain ⟨c', ho, hn⟩ := hdigest c tag digest heq
  exact ⟨c', ho, hn trivial⟩

/-- A fetch of call 1, an invalidation, a second fetch for the tag by call 2 after it, and a
third call that finds what call 2 stored. -/
def refetchRun : List DigestLabel :=
  [⟨1, .call 1 "nginx:latest"⟩, ⟨1, .lookup 1⟩, ⟨1, .check 1⟩,
    ⟨2, .fetch 1 (some "sha256:old")⟩, ⟨2, .store 1⟩, ⟨3, .invalidate⟩,
    ⟨4, .call 2 "nginx:latest"⟩, ⟨4, .lookup 2⟩, ⟨4, .check 2⟩,
    ⟨5, .fetch 2 (some "sha256:new")⟩, ⟨5, .store 2⟩,
    ⟨6, .call 3 "nginx:latest"⟩, ⟨6, .lookup 3⟩, ⟨6, .check 3⟩]

/-- In such a run both later calls return what was fetched after the invalidation. -/
theorem digestsFresh_refetchRun :
    ∃ t, runSteps DigestCache.step DigestCache.init refetchRun = some t ∧
      DigestsFresh t.history := by
  obtain ⟨t, ht⟩ := Option.isSome_iff_exists.mp (by decide +kernel :
    (runSteps DigestCache.step DigestCache.init refetchRun).isSome = true)
  exact ⟨t, ht, digestsFresh ht (by decide +kernel)⟩

/-- Call 1 fetches, the digests are invalidated, and call 1 stores; call 2 begins only then. -/
def staleRun : List DigestLabel :=
  [⟨1, .call 1 "nginx:latest"⟩, ⟨1, .lookup 1⟩, ⟨1, .check 1⟩,
    ⟨2, .fetch 1 (some "sha256:old")⟩, ⟨3, .invalidate⟩, ⟨4, .store 1⟩,
    ⟨5, .call 2 "nginx:latest"⟩, ⟨5, .lookup 2⟩, ⟨5, .check 2⟩]

/-- What happens in that run. -/
def staleHistory : List DigestEvent :=
  [.called 1 "nginx:latest", .lookedUp 1 "nginx:latest" 1,
    .fetched 1 "nginx:latest" "sha256:old", .invalidated,
    .stored 1 "nginx:latest" "sha256:old" 4, .returned 1 "nginx:latest" "sha256:old",
    .called 2 "nginx:latest", .lookedUp 2 "nginx:latest" 5]

/-- Call 2 returns the digest that was fetched before the invalidation. -/
theorem staleRun_not_digestsFresh :
    ∃ t, runSteps DigestCache.step DigestCache.init staleRun = some t ∧
      ¬ DigestsFresh t.history := by
  have hrun : (runSteps DigestCache.step DigestCache.init staleRun).map (·.history) =
      some (staleHistory ++ [.returned 2 "nginx:latest" "sha256:old"]) := by decide +kernel
  obtain ⟨t, ht, hhist⟩ := Option.map_eq_some_iff.mp hrun
  refine ⟨t, ht, fun hfresh ↦ ?_⟩
  obtain ⟨c', -, hn⟩ := hfresh staleHistory _ [] hhist 2 "nginx:latest" "sha256:old" rfl
  have hmem := hn (staleHistory.take 3) (staleHistory.drop 4) rfl (by decide)
  simp [staleHistory] at hmem

end Dockstack.Docker
