import Dockstack.Base.Sorting
import Dockstack.Base.WorkerPool
import Dockstack.Docker.ContainerInfo

/-!
# Container statistics

`ListRunningContainerStats` of `internal/docker/stats.go`: a goroutine for each running container
asks the daemon for one sample, eight at a time, and the samples are sorted by container. What the
daemon answers is given. The figures that are computed in floating point are left to the type `F`.
-/

namespace Dockstack.Docker

open Dockstack.Base

/-- `container.MemoryStats`, as far as it is read. -/
structure MemoryStats where
  usage : UInt64
  limit : UInt64
  stats : KeyMap String UInt64

/-- `container.NetworkStats`, as far as it is read. -/
structure NetworkStats where
  rxBytes : UInt64
  txBytes : UInt64

/-- `container.BlkioStatEntry`, as far as it is read. -/
structure BlkioStatEntry where
  op : String
  value : UInt64

/-- `container.StatsResponse`, as far as it is read; `C` is what `cpuPercent` reads. -/
structure StatsResponse (C : Type) where
  cpu : C
  memoryStats : MemoryStats
  networks : KeyMap String NetworkStats
  ioServiceBytesRecursive : List BlkioStatEntry
  pids : UInt64

/-- `ContainerStats`; `models.go:98–109`. -/
structure ContainerStats (F : Type) where
  containerID : String
  cpuPercent : F
  memoryUsed : UInt64
  memoryLimit : UInt64
  memoryPercent : F
  networkRx : UInt64
  networkTx : UInt64
  blockRead : UInt64
  blockWrite : UInt64
  pids : UInt64

/-- What is computed in floating point: the zero value, `cpuPercent`, and the share of the memory;
`stats.go:88–90` and `94–108`. -/
structure FloatStats (C F : Type) where
  zero : F
  cpuPercent : C → F
  percent : UInt64 → UInt64 → F

/-- `statsConcurrency`; `stats.go:15`. -/
def statsConcurrency : Nat := 8

/-- `maxReasonableMemSize`; `stats.go:17`. -/
def maxReasonableMemSize : UInt64 := (1 : UInt64) <<< (62 : UInt64)

/-- The bytes of a cache that are below the usage; `stats.go:111` and `114`. -/
def inactiveFile (m : MemoryStats) (key : String) : Option UInt64 :=
  (m.stats.get? key).filter (· < m.usage)

/-- `memoryUsed`; `stats.go:110–118`. -/
def memoryUsed (m : MemoryStats) : UInt64 :=
  match inactiveFile m "total_inactive_file" with
  | some v => m.usage - v
  | none =>
    match inactiveFile m "inactive_file" with
    | some v => m.usage - v
    | none => m.usage

/-- `memoryLimit`; `stats.go:120–129`. -/
def memoryLimit (m : MemoryStats) (hostMem : UInt64) : UInt64 :=
  if m.limit = 0 ∨ maxReasonableMemSize < m.limit then 0
  -- cgroup v1 reports the host total when the container has no limit
  else if 0 < hostMem ∧ hostMem ≤ m.limit then 0
  else m.limit

/-- `networkBytes`, over the networks in the order of the iteration; `stats.go:131–141`. -/
def networkBytes (networks : List NetworkStats) (rx : Bool) : UInt64 :=
  networks.foldl (fun total n ↦ total + if rx then n.rxBytes else n.txBytes) 0

/-- `blockBytes`; `stats.go:143–151`. No letter of an operation that is asked for folds to one
outside ASCII. -/
def blockBytes (entries : List BlkioStatEntry) (op : String) : UInt64 :=
  entries.foldl (fun total e ↦
    if e.op.map Char.toLower = op then total + e.value else total) 0

/-- The memory of the host, zero when it is not known; `stats.go:26–29`. -/
def hostMemory (info : Option Int64) : UInt64 :=
  match info with
  | some memTotal => if 0 < memTotal then memTotal.toUInt64 else 0
  | none => 0

variable {C F : Type}

/-- `containerStats` of a decoded sample; `stats.go:77–91`. -/
def containerStats (f : FloatStats C F) (id : String) (hostMem : UInt64) (raw : StatsResponse C) :
    ContainerStats F :=
  let networks := raw.networks.entries.map (·.2)
  let used := memoryUsed raw.memoryStats
  let limit := memoryLimit raw.memoryStats hostMem
  { containerID := truncateID id
    cpuPercent := f.cpuPercent raw.cpu
    memoryUsed := used
    memoryLimit := limit
    memoryPercent := if 0 < limit then f.percent used limit else f.zero
    networkRx := networkBytes networks true
    networkTx := networkBytes networks false
    blockRead := blockBytes raw.ioServiceBytesRecursive "read"
    blockWrite := blockBytes raw.ioServiceBytesRecursive "write"
    pids := raw.pids }

/-- What the daemon answers: its containers, `Info`, and the sample of a container, `none` when it
cannot be had in three seconds or does not decode; `stats.go:20–29` and `63–75`. -/
structure StatsDaemon (C : Type) where
  containers : List Summary
  info : Option Int64
  sample : String → Option (StatsResponse C)

/-- The containers that are sampled; `stats.go:21`. -/
def StatsDaemon.running (d : StatsDaemon C) : List Summary := listRunningContainers d.containers ""

/-- The figures of a container, if its sample can be had; `stats.go:62–92`. -/
def StatsDaemon.stats (f : FloatStats C F) (d : StatsDaemon C) (c : Summary) :
    Option (ContainerStats F) :=
  (d.sample c.id).map (containerStats f c.id (hostMemory d.info))

/-- The goroutines of `ListRunningContainerStats`; `stats.go:31–56`. A request on a cancelled
context fails, and a goroutine that still waits for its turn returns. -/
def StatsDaemon.pool (f : FloatStats C F) (d : StatsDaemon C) :
    PoolEnv d.running.length (ContainerStats F) where
  cap := statsConcurrency
  answer i := d.stats f (d.running.get i)
  cut _ := none
  givesUp := true

/-- The list that is returned: the figures in the order in which they were appended, sorted by
container; `stats.go:51–59`. -/
def statsResult {n : Nat} (s : PoolState n (ContainerStats F)) : List (ContainerStats F) :=
  (s.stored.map Prod.snd).mergeSort fun a b ↦ decide (a.containerID ≤ b.containerID)

/-! ## Runs -/

variable {n : Nat}

/-- The list that is returned is sorted by container. -/
theorem pairwise_statsResult (s : PoolState n (ContainerStats F)) :
    (statsResult s).Pairwise fun a b ↦ a.containerID ≤ b.containerID :=
  pairwise_mergeSort_key ContainerStats.containerID (s.stored.map Prod.snd)

/-- The list that is returned has what was stored. -/
theorem statsResult_perm (s : PoolState n (ContainerStats F)) :
    (statsResult s).Perm (s.stored.map Prod.snd) :=
  List.mergeSort_perm ..

/-- Dropping some of the results leaves a part of the list. -/
theorem filterMap_sublist {A B : Type} {f g : A → Option B} (h : ∀ a, f a = none ∨ f a = g a)
    (l : List A) : (l.filterMap f).Sublist (l.filterMap g) := by
  induction l with
  | nil => exact .slnil
  | cons a l ih =>
    rcases h a with hf | hf
    · rw [List.filterMap_cons_none hf]
      refine ih.trans ?_
      rw [List.filterMap_cons]
      cases g a with
      | none => exact .refl _
      | some b => exact List.sublist_cons_self ..
    · rw [List.filterMap_cons, List.filterMap_cons, hf]
      cases g a with
      | none => exact ih
      | some b => exact ih.cons_cons b

private theorem map_snd_filterMap {R : Type} (o : Fin n → Option R) :
    ((List.finRange n).filterMap fun i ↦ (o i).map fun r ↦ (i, r)).map Prod.snd =
      (List.finRange n).filterMap o := by
  rw [List.map_filterMap]
  refine List.filterMap_congr fun i _ ↦ ?_
  cases o i <;> rfl

private theorem filterMap_answer (f : FloatStats C F) (d : StatsDaemon C) :
    (List.finRange _).filterMap (d.pool f).answer = d.running.filterMap (d.stats f) := by
  conv_rhs => rw [← List.ofFn_get d.running, List.ofFn_eq_map, List.filterMap_map]
  rfl

private theorem containerIDs_sublist (f : FloatStats C F) (d : StatsDaemon C) (l : List Summary) :
    ((l.filterMap (d.stats f)).map ContainerStats.containerID).Sublist
      (l.map fun c ↦ truncateID c.id) := by
  rw [List.map_filterMap, ← List.filterMap_eq_map]
  refine filterMap_sublist (fun c ↦ ?_) l
  rw [StatsDaemon.stats, Option.map_map]
  cases d.sample c.id with
  | none => exact .inl rfl
  | some raw => exact .inr rfl

variable {f : FloatStats C F} {d : StatsDaemon C} {ls : List (PoolLabel d.running.length)}
  {t : PoolState d.running.length (ContainerStats F)}

/-- Whatever the interleaving, and wherever the context is cancelled: eight containers at most are
sampled at once, one goroutine at most appends, the request is never stuck, and it is over after a
bounded number of steps. The list that is returned is then sorted and has each container once at
most; without a cancellation it has all figures that can be had, in one order only if the containers
differ in the part of their id that is shown. -/
theorem listRunningContainerStats_run
    (h : runSteps (PoolState.step (d.pool f)) (PoolState.init _ _) ls = some t) :
    t.slotsTaken ≤ statsConcurrency ∧ t.holders ≤ 1 ∧ ls.length ≤ 6 * d.running.length + 2 ∧
      (t.returned = true ∨ ∃ l u, l ≠ .cancel ∧ PoolState.step (d.pool f) t l = some u) ∧
      (t.returned = true →
        (statsResult t).Pairwise (fun a b ↦ a.containerID ≤ b.containerID) ∧
        (statsResult t).Subperm (d.running.filterMap (d.stats f)) ∧
        (t.cancelled = false → (statsResult t).Perm (d.running.filterMap (d.stats f)) ∧
          ((d.running.map fun c ↦ truncateID c.id).Nodup → ∀ l : List (ContainerStats F),
            l.Perm (d.running.filterMap (d.stats f)) →
            l.Pairwise (fun a b ↦ a.containerID ≤ b.containerID) → l = statsResult t))) := by
  obtain ⟨hc, ha⟩ := PoolState.invariants_of_run h
  refine ⟨hc.slotsTaken_le, hc.holders_le, PoolState.length_le_of_run h,
    hc.progress (by simp [StatsDaemon.pool, statsConcurrency]),
    fun hret ↦ ⟨pairwise_statsResult t, ?_, fun hcancelled ↦ ?_⟩⟩
  · obtain ⟨o, ho, hperm⟩ := ha.stored_perm hc hret
    have hdrop (i) : o i = none ∨ o i = (d.pool f).answer i := by
      rcases ho i with hi | ⟨-, hi | ⟨-, hi⟩⟩
      · exact .inr hi
      · exact .inl hi
      · exact .inl hi
    have hstored := hperm.map Prod.snd
    rw [map_snd_filterMap] at hstored
    rw [← filterMap_answer]
    exact ((statsResult_perm t).trans hstored).subperm.trans
      (filterMap_sublist hdrop _).subperm
  · have hstored := (ha.stored_perm_answer hc hret hcancelled).map Prod.snd
    rw [map_snd_filterMap, filterMap_answer] at hstored
    have hperm := (statsResult_perm t).trans hstored
    refine ⟨hperm, fun hids l hl hsorted ↦ ?_⟩
    have hnodup := (containerIDs_sublist f d d.running).nodup hids
    refine (hl.trans hperm.symm).eq_of_pairwise (fun a b ha hb hab hba ↦ ?_) hsorted
      (pairwise_statsResult t)
    exact List.inj_on_of_nodup_map hnodup (hl.subset ha) (hperm.subset hb)
      (Std.le_antisymm hab hba)

/-- Two running containers, `b` without a sample, and one that has exited. -/
def twoRunning : StatsDaemon Unit where
  containers := [⟨"a", [], "", "", "running", "", ∅⟩, ⟨"b", [], "", "", "running", "", ∅⟩,
    ⟨"c", [], "", "", "exited", "", ∅⟩]
  info := some 1024
  sample id := if id = "a" then some ⟨(), ⟨10, 100, ∅⟩, ∅, [], 3⟩ else none

/-- Both are sampled, the second one first. -/
def sampleRun : List (PoolLabel 2) :=
  [.spawn, .spawn, .acquire 1, .acquire 0, .answer 1 false, .answer 0 false, .lock 0, .release 1,
    .store 0, .release 0, .join]

/-- No arithmetic in floating point. -/
def noFloats : FloatStats Unit Unit := ⟨(), fun _ ↦ (), fun _ _ ↦ ()⟩

/-- The list has the figures of `a`. -/
theorem listRunningContainerStats_run_two : ∃ t,
    runSteps (PoolState.step (twoRunning.pool noFloats)) (PoolState.init _ _) sampleRun = some t ∧
      t.returned = true ∧
      (statsResult t).Perm (twoRunning.running.filterMap (twoRunning.stats noFloats)) := by
  obtain ⟨t, ht, hend⟩ := (Option.any_eq_true _ _).mp (by decide :
    (runSteps (PoolState.step (twoRunning.pool noFloats)) (PoolState.init _ _) sampleRun).any
      (fun t ↦ t.returned && !t.cancelled) = true)
  obtain ⟨hret, hcancelled⟩ := Bool.and_eq_true_iff.mp hend
  have hlist := (listRunningContainerStats_run ht).2.2.2.2 hret
  exact ⟨t, ht, hret, (hlist.2.2 (Bool.not_eq_true' .. |>.mp hcancelled)).1⟩

end Dockstack.Docker
