import Dockstack.Base.WorkerPool
import Dockstack.Docker.Drift

/-!
# Drift of all stacks

`CheckStacksDrift` of `internal/docker/drift.go:114–137`: a goroutine for each stack compares it
with its containers, four at a time, and writes what it finds into one map.
-/

namespace Dockstack.Docker

open Dockstack.Base

/-- What the goroutines find: the stacks directory, what `ListContainers` and `os.ReadFile` answer
for a stack and what commands print. -/
structure DriftWorld (α : Type) where
  config : Stacks
  tree : FileTree α
  run : DockerCommand → Option (List Char)
  listed : String → Option (List Summary)
  data : String → Option Bytes

variable {α : Type}

/-- The status of a stack; `drift.go:129`. -/
def DriftWorld.drift (w : DriftWorld α) (name : String) : DriftStatus :=
  stackDrift w.config w.tree w.run (w.listed name) (w.data name) name

/-- The stacks that are checked; `drift.go:115`. -/
def DriftWorld.names (w : DriftWorld α) : List String := listStacks w.tree

/-- The goroutines of `CheckStacksDrift`; `drift.go:119–135`. On a cancelled context neither the
containers are listed nor a command ends well; a goroutine waits for its turn all the same. -/
def DriftWorld.pool (w : DriftWorld α) : PoolEnv w.names.length DriftStatus where
  cap := 4
  answer i := some (w.drift (w.names.get i))
  cut _ := some .unknown
  givesUp := false

/-- The map that is returned, with the statuses written in the order of the goroutines;
`drift.go:130–132`. -/
def DriftWorld.result (w : DriftWorld α) (s : PoolState w.names.length DriftStatus) :
    KeyMap String DriftStatus :=
  s.stored.foldl (fun out e ↦ out.insert (w.names.get e.1) e.2) ∅

variable {w : DriftWorld α} {ls : List (PoolLabel w.names.length)}
  {t : PoolState w.names.length DriftStatus}

/-- A stack has a status in the map if one was stored for it. -/
theorem DriftWorld.get?_result (hnodup : (t.stored.map Prod.fst).Nodup) (name : String)
    (status : DriftStatus) :
    (w.result t).get? name = some status ↔
      ∃ i, w.names.get i = name ∧ (i, status) ∈ t.stored := by
  have hnames : w.names.Nodup := by
    refine (pairwise_listStacks w.tree).imp ?_
    rintro a b hlt rfl
    exact Std.lt_irrefl hlt
  have hkeys : (t.stored.map fun e ↦ w.names.get e.1).Nodup := by
    have hmap := hnodup.map (List.nodup_iff_injective_get.mp hnames)
    rwa [List.map_map] at hmap
  rw [DriftWorld.result, KeyMap.get?_foldl_insert_eq_some hkeys]
  constructor
  · rintro ⟨⟨i, r⟩, hmem, hname, rfl⟩
    exact ⟨i, hname, hmem⟩
  · rintro ⟨i, hname, hmem⟩
    exact ⟨(i, status), hmem, hname, rfl⟩

/-- Whatever the interleaving, and wherever the context is cancelled: four stacks at most are
compared at once, one goroutine at most writes to the map, the check is never stuck, and it is over
after a bounded number of steps. The map then has a status for exactly the listed stacks, and each
is that of its stack, or unknown if the context was cancelled. -/
theorem checkStacksDrift_run
    (h : runSteps (PoolState.step w.pool) (PoolState.init _ _) ls = some t) :
    t.slotsTaken ≤ 4 ∧ t.holders ≤ 1 ∧ ls.length ≤ 6 * w.names.length + 2 ∧
      (t.returned = true ∨ ∃ l u, l ≠ .cancel ∧ PoolState.step w.pool t l = some u) ∧
      (t.returned = true →
        (∀ name, ((w.result t).get? name).isSome = true ↔ name ∈ listStacks w.tree) ∧
        ∀ name status, (w.result t).get? name = some status →
          status = w.drift name ∨ t.cancelled = true ∧ status = .unknown) := by
  obtain ⟨hc, ha⟩ := PoolState.invariants_of_run h
  have hget := w.get?_result ha.nodup
  refine ⟨hc.slotsTaken_le, hc.holders_le, PoolState.length_le_of_run h,
    hc.progress (by simp [DriftWorld.pool]), fun hret ↦ ⟨fun name ↦ ?_, fun name status hs ↦ ?_⟩⟩
  · rw [Option.isSome_iff_exists]
    constructor
    · rintro ⟨status, hs⟩
      obtain ⟨i, rfl, -⟩ := (hget name status).mp hs
      exact List.get_mem ..
    · intro hname
      obtain ⟨i, rfl⟩ := List.get_of_mem hname
      obtain ⟨o, ho, hstored⟩ := ha.exists_outcome (hc.settled hret i)
      obtain ⟨status, rfl⟩ : ∃ status, o = some status := by
        rcases ho with rfl | ⟨-, rfl | ⟨hgives, -⟩⟩
        · exact ⟨_, rfl⟩
        · exact ⟨_, rfl⟩
        · cases hgives
      exact ⟨status, (hget _ _).mpr ⟨i, rfl, (hstored status).mpr rfl⟩⟩
  · obtain ⟨i, rfl, hmem⟩ := (hget name status).mp hs
    rcases (ha.stored i status hmem).2 with ho | ⟨hcancelled, ho | ⟨hgives, -⟩⟩
    · exact .inl (Option.some.inj ho)
    · exact .inr ⟨hcancelled, Option.some.inj ho⟩
    · cases hgives

/-- A stack with a container, and one without. -/
def twoStackWorld : DriftWorld Unit where
  config := ⟨"/stacks", "", false⟩
  tree := AList.insert "web" (.dir ((∅ : Folder Unit).insert "compose.yaml" (.file "")))
    (AList.insert "app" (.dir ∅) ∅)
  run _ := some "web h1".toList
  listed name := some (if name = "web" then
    [⟨"c1", [], "", "", "running", "", AList.insert serviceLabel "web"
      (AList.insert configHashLabel "h1" ∅)⟩] else [])
  data _ := none

/-- A run that completes, and what the map has at its end. -/
theorem checkStacksDrift_run_two : ∃ ls t,
    runSteps (PoolState.step twoStackWorld.pool) (PoolState.init _ _) ls = some t ∧
      t.returned = true ∧
      ∀ name, ((twoStackWorld.result t).get? name).isSome = true ↔
        name ∈ listStacks twoStackWorld.tree := by
  obtain ⟨ls, t, ht, hret, -⟩ :=
    (PoolState.counted_init twoStackWorld.pool).exists_run (by simp [DriftWorld.pool])
  exact ⟨ls, t, ht, hret, ((checkStacksDrift_run ht).2.2.2.2 hret).1⟩

end Dockstack.Docker
