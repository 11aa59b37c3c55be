import Dockstack.Base.Sorting
import Dockstack.Docker.Stacks

/-!
# Redeploying stacks

`GetRunningServices`, `RedeployStack` and `RedeployAllRunning` of
`internal/docker/stacks.go:228–283` and `552–576`. What they run stands beside what they return:
the calls of `runComposeQuiet`, each with its error.
-/

namespace Dockstack.Docker

open Dockstack.Base

/-- `Action` of a `RedeployResult`. -/
inductive RedeployAction where
  | skipped
  | redeployed
  | error
  deriving DecidableEq

/-- `RedeployResult`; `models.go:125–130`. -/
structure RedeployResult where
  name : String
  action : RedeployAction
  services : List String
  error : String
  deriving DecidableEq

/-- A call of `runComposeQuiet`, and its error unless it succeeds. -/
structure ComposeCall where
  stackName : String
  args : List String
  error : Option String
  deriving DecidableEq

/-- What a redeploy asks: the containers that the daemon holds when it lists those of a stack, the
error of that listing, and the error of a `docker` command. -/
structure RedeployEnv where
  containers : String → List Summary
  listError : String → Option String
  run : List String → Option String

/-- A service is noted once; `stacks.go:255–260`. `seen` holds what `services` does. -/
def addService (services : List String) (c : Summary) : List String :=
  match c.labels.get? serviceLabel with
  | some svc => if services.contains svc then services else services ++ [svc]
  | none => services

/-- The services of some containers; `stacks.go:253–262`. -/
def servicesOf (containers : List Summary) : List String :=
  (containers.foldl addService []).mergeSort (· ≤ ·)

section

variable {α : Type} (s : Stacks) (t : FileTree α) (env : RedeployEnv)

/-- `runComposeQuiet`; `stacks.go:228–238`. -/
def runComposeQuiet (stackName : String) (args : List String) : ComposeCall where
  stackName := stackName
  args := args
  error :=
    match s.composeCommand t stackName args with
    | .error err => some err
    | .ok cmd => env.run cmd

/-- `UpServices`; `stacks.go:240–242`. -/
def upServices (stackName : String) (services : List String) : ComposeCall :=
  runComposeQuiet s t env stackName (["up", "-d"] ++ services)

/-- `PullServices`; `stacks.go:244–246`. -/
def pullServices (stackName : String) (services : List String) : ComposeCall :=
  runComposeQuiet s t env stackName (["pull", "--ignore-buildable"] ++ services)

/-- `GetRunningServices`; `stacks.go:248–263`. -/
def getRunningServices (stackName : String) : Except String (List String) :=
  match env.listError stackName with
  | some err => .error err
  | none => .ok (servicesOf (listRunningContainers (env.containers stackName) stackName))

/-- `RedeployStack`; `stacks.go:265–283`. The result beside an error is not used. -/
def redeployStack (stackName : String) : Except String RedeployResult × List ComposeCall :=
  match getRunningServices env stackName with
  | .error err => (.error err, [])
  | .ok [] => (.ok ⟨stackName, .skipped, [], ""⟩, [])
  | .ok services =>
    let pull := pullServices s t env stackName services
    match pull.error with
    | some err => (.error err, [pull])
    | none =>
      let up := upServices s t env stackName services
      match up.error with
      | some err => (.error err, [pull, up])
      | none => (.ok ⟨stackName, .redeployed, services, ""⟩, [pull, up])

/-- The part of the loop for a stack that is not skipped; `stacks.go:562–573`. -/
def redeployRunning (name : String) : RedeployResult × List ComposeCall :=
  match getRunningServices env name with
  | .error _ => (⟨name, .skipped, [], ""⟩, [])
  | .ok [] => (⟨name, .skipped, [], ""⟩, [])
  | .ok services =>
    let up := upServices s t env name services
    match up.error with
    | some err => (⟨name, .error, [], err⟩, [up])
    | none => (⟨name, .redeployed, services, ""⟩, [up])

/-- One round of the loop; `stacks.go:558–574`. -/
def redeployRound (skipList : List String) (done : List RedeployResult × List ComposeCall)
    (name : String) : List RedeployResult × List ComposeCall :=
  if skipList.contains name then done
  else
    let r := redeployRunning s t env name
    (done.1 ++ [r.1], done.2 ++ r.2)

/-- `RedeployAllRunning`, given the answer of `ListStacks`; `stacks.go:552–576`. -/
def redeployAllRunning (names : Except String (List String)) (skipList : List String) :
    List RedeployResult × List ComposeCall :=
  match names with
  | .error _ => ([], [])
  | .ok names => names.foldl (redeployRound s t env skipList) ([], [])

end

/-! ## Services -/

private theorem mem_addService {services : List String} {c : Summary} {svc : String} :
    svc ∈ addService services c ↔ svc ∈ services ∨ c.labels.get? serviceLabel = some svc := by
  rw [addService]
  cases c.labels.get? serviceLabel with
  | none => simp
  | some svc' =>
    by_cases h : svc' ∈ services
    · simp only [List.contains_iff_mem, h, if_true, Option.some.injEq]
      constructor
      · exact .inl
      · rintro (hsvc | rfl)
        · exact hsvc
        · exact h
    · simp [h, eq_comm]

private theorem nodup_addService {services : List String} (h : services.Nodup) (c : Summary) :
    (addService services c).Nodup := by
  rw [addService]
  cases c.labels.get? serviceLabel with
  | none => exact h
  | some svc =>
    by_cases hsvc : svc ∈ services
    · simpa [hsvc] using h
    · simpa [hsvc, List.nodup_append] using ⟨h, fun a ha heq ↦ hsvc (heq ▸ ha)⟩

private theorem foldl_addService (containers : List Summary) (services : List String)
    (h : services.Nodup) :
    (containers.foldl addService services).Nodup ∧ ∀ svc,
      svc ∈ containers.foldl addService services ↔
        svc ∈ services ∨ ∃ c ∈ containers, c.labels.get? serviceLabel = some svc := by
  induction containers generalizing services with
  | nil => simpa using h
  | cons c containers ih =>
    have hrest := ih _ (nodup_addService h c)
    apply And.intro hrest.1
    intro svc
    rw [List.foldl_cons, hrest.2, mem_addService, or_assoc, List.exists_mem_cons_iff]

/-- The services are sorted and distinct. -/
theorem servicesOf_sorted (containers : List Summary) :
    (servicesOf containers).Pairwise (· < ·) :=
  pairwise_lt_mergeSort (foldl_addService containers [] List.nodup_nil).1

/-- They are those that the containers are labelled with. -/
theorem mem_servicesOf {containers : List Summary} {svc : String} :
    svc ∈ servicesOf containers ↔ ∃ c ∈ containers, c.labels.get? serviceLabel = some svc := by
  rw [servicesOf, List.mem_mergeSort, (foldl_addService containers [] List.nodup_nil).2]
  simp

/-! ## All running stacks -/

section

variable {α : Type} {s : Stacks} {t : FileTree α} {env : RedeployEnv}

/-- The stacks that are not skipped. -/
def notSkipped (names skipList : List String) : List String :=
  names.filter (!skipList.contains ·)

/-- The services that are brought up for a stack: those of a successful query. -/
def toBringUp (env : RedeployEnv) (name : String) : Option (List String) :=
  match getRunningServices env name with
  | .ok (svc :: services) => some (svc :: services)
  | _ => none

/-- What is run and returned is run and returned for each stack on its own. -/
theorem redeployAllRunning_eq (names skipList : List String) :
    redeployAllRunning s t env (.ok names) skipList =
      ((notSkipped names skipList).map fun name ↦ (redeployRunning s t env name).1,
        (notSkipped names skipList).flatMap fun name ↦ (redeployRunning s t env name).2) := by
  have hloop (names : List String) (done : List RedeployResult × List ComposeCall) :
      names.foldl (redeployRound s t env skipList) done =
        (done.1 ++ (notSkipped names skipList).map fun name ↦ (redeployRunning s t env name).1,
          done.2 ++ (notSkipped names skipList).flatMap fun name ↦
            (redeployRunning s t env name).2) := by
    induction names generalizing done with
    | nil => simp [notSkipped]
    | cons name names ih =>
      rw [List.foldl_cons, ih, redeployRound, notSkipped, notSkipped, List.filter_cons]
      cases skipList.contains name with
      | true => rfl
      | false => simp only [Bool.not_false, Bool.false_eq_true, if_true, if_false,
          List.map_cons, List.flatMap_cons, List.append_assoc, List.singleton_append]
  rw [redeployAllRunning, hloop, List.nil_append, List.nil_append]

/-- The entry of a stack bears its name. -/
theorem redeployRunning_name (name : String) : (redeployRunning s t env name).1.name = name := by
  unfold redeployRunning
  split
  · rfl
  · rfl
  · dsimp only
    split <;> rfl

/-- The command of a stack with services to bring up, and its entry. -/
theorem redeployRunning_of_some {name : String} {services : List String}
    (h : toBringUp env name = some services) :
    redeployRunning s t env name =
      match (upServices s t env name services).error with
      | some err => (⟨name, .error, [], err⟩, [upServices s t env name services])
      | none => (⟨name, .redeployed, services, ""⟩, [upServices s t env name services]) := by
  unfold toBringUp at h
  unfold redeployRunning
  cases hq : getRunningServices env name with
  | error err => simp [hq] at h
  | ok services' =>
    cases services' with
    | nil => simp [hq] at h
    | cons svc services' =>
      rw [hq] at h
      obtain rfl := Option.some.inj h
      rfl

/-- A stack without services to bring up is left alone, and its entry says so. -/
theorem redeployRunning_of_none {name : String} (h : toBringUp env name = none) :
    redeployRunning s t env name = (⟨name, .skipped, [], ""⟩, []) := by
  unfold toBringUp at h
  unfold redeployRunning
  cases hq : getRunningServices env name with
  | error err => rfl
  | ok services =>
    cases services with
    | nil => rfl
    | cons svc services => simp [hq] at h

/-- A redeploy of a stack with services pulls and brings them up. -/
theorem redeployStack_of_some {name : String} {services : List String}
    (h : toBringUp env name = some services) :
    redeployStack s t env name =
      let pull := pullServices s t env name services
      let up := upServices s t env name services
      match pull.error, up.error with
      | some err, _ => (.error err, [pull])
      | none, some err => (.error err, [pull, up])
      | none, none => (.ok ⟨name, .redeployed, services, ""⟩, [pull, up]) := by
  unfold toBringUp at h
  unfold redeployStack
  cases hq : getRunningServices env name with
  | error err => simp [hq] at h
  | ok services' =>
    cases services' with
    | nil => simp [hq] at h
    | cons svc services' =>
      rw [hq] at h
      obtain rfl := Option.some.inj h
      dsimp only
      cases (pullServices s t env name (svc :: services')).error with
      | some err => rfl
      | none => cases (upServices s t env name (svc :: services')).error <;> rfl

/-- A redeploy of a stack without services runs nothing. -/
theorem redeployStack_of_none {name : String} (h : toBringUp env name = none) :
    (redeployStack s t env name).2 = [] ∧
      ∀ res, (redeployStack s t env name).1 = .ok res → res.action = .skipped := by
  unfold toBringUp at h
  unfold redeployStack
  cases hq : getRunningServices env name with
  | error err => exact ⟨rfl, nofun⟩
  | ok services =>
    cases services with
    | nil =>
      refine ⟨rfl, fun res hres ↦ ?_⟩
      rw [← Except.ok.inj hres]
    | cons svc services => simp [hq] at h

/-- The commands for a stack. -/
theorem redeployRunning_calls (name : String) :
    (redeployRunning s t env name).2 =
      ((toBringUp env name).map (upServices s t env name)).toList := by
  cases h : toBringUp env name with
  | none => rw [redeployRunning_of_none h, Option.map_none, Option.toList_none]
  | some services =>
    rw [redeployRunning_of_some h, Option.map_some, Option.toList_some]
    split <;> rfl

/-- An entry says that the stack was skipped when there was nothing to bring up. -/
theorem redeployRunning_skipped {name : String} :
    (redeployRunning s t env name).1.action = .skipped ↔ toBringUp env name = none := by
  cases h : toBringUp env name with
  | none => simp [redeployRunning_of_none h]
  | some services =>
    rw [redeployRunning_of_some h]
    split <;> simp

/-- No container of the stack runs a service. -/
def NothingRuns (env : RedeployEnv) (name : String) : Prop :=
  ∀ c ∈ listRunningContainers (env.containers name) name, c.labels.get? serviceLabel = none

/-- What a redeploy of all running stacks is to do: the commands that are run, an entry for each
stack in order, by its own outcome, and skipped entries for idle stacks only. -/
structure RedeploysRunning (s : Stacks) (t : FileTree α) (env : RedeployEnv)
    (names skipList : List String) (out : List RedeployResult × List ComposeCall) : Prop where
  calls : out.2 = (notSkipped names skipList).filterMap fun name ↦
    (toBringUp env name).map (upServices s t env name)
  services : ∀ name services, toBringUp env name = some services →
    services.Pairwise (· < ·) ∧ ∀ svc, svc ∈ services ↔
      ∃ c ∈ listRunningContainers (env.containers name) name,
        c.labels.get? serviceLabel = some svc
  broughtUp : ∀ name, env.listError name = none → ¬ NothingRuns env name →
    ∃ services, toBringUp env name = some services
  entries : out.1.map (·.name) = notSkipped names skipList
  sorted : names.Pairwise (· ≤ ·) → (out.1.map (·.name)).Pairwise (· ≤ ·)
  outcome : ∀ name ∈ notSkipped names skipList, ∀ services, toBringUp env name = some services →
    match (upServices s t env name services).error with
    | some err => ⟨name, .error, [], err⟩ ∈ out.1
    | none => ⟨name, .redeployed, services, ""⟩ ∈ out.1
  skipped : ∀ r ∈ out.1, r.action = .skipped →
    env.listError r.name = none ∧ NothingRuns env r.name

private theorem toBringUp_eq_some {name : String} {services : List String} :
    toBringUp env name = some services ↔ env.listError name = none ∧
      servicesOf (listRunningContainers (env.containers name) name) = services ∧
        services ≠ [] := by
  rw [toBringUp, getRunningServices]
  cases env.listError name with
  | some err => simp
  | none =>
    cases servicesOf (listRunningContainers (env.containers name) name) with
    | nil => simp +contextual [eq_comm]
    | cons svc services' =>
      simp only [Option.some.injEq, true_and]
      exact ⟨fun h ↦ ⟨h, h ▸ List.cons_ne_nil _ _⟩, And.left⟩

private theorem nothingRuns_iff {name : String} :
    NothingRuns env name ↔
      servicesOf (listRunningContainers (env.containers name) name) = [] := by
  rw [List.eq_nil_iff_forall_not_mem]
  simp only [mem_servicesOf, not_exists, not_and, NothingRuns, Option.eq_none_iff_forall_ne_some]
  exact ⟨fun h svc c hc ↦ h c hc svc, fun h c hc svc ↦ h svc c hc⟩

/-- All of it holds, whatever the outcomes, but for the entries of stacks whose query fails. The
names that `ListStacks` answers are sorted and distinct. -/
theorem redeploysRunning_iff (s : Stacks) (t : FileTree α) (env : RedeployEnv)
    (names skipList : List String) :
    (RedeploysRunning s t env names skipList
        (redeployAllRunning s t env (.ok names) skipList) ↔
      ∀ name ∈ notSkipped names skipList, env.listError name = none) ∧
    (listStacks t).Pairwise (· < ·) := by
  refine ⟨?_, pairwise_listStacks t⟩
  have hentries : (redeployAllRunning s t env (.ok names) skipList).1.map (·.name) =
      notSkipped names skipList := by
    rw [redeployAllRunning_eq, List.map_map]
    exact List.map_id'' redeployRunning_name _
  constructor
  · intro h name hname
    by_contra hlist
    have hnone : toBringUp env name = none := by
      cases hq : toBringUp env name with
      | none => rfl
      | some services => exact absurd (toBringUp_eq_some.mp hq).1 hlist
    have hskip := h.skipped (redeployRunning s t env name).1
      (by rw [redeployAllRunning_eq]; exact List.mem_map_of_mem hname)
      (redeployRunning_skipped.mpr hnone)
    rw [redeployRunning_name] at hskip
    exact hlist hskip.1
  · intro h
    constructor
    · rw [redeployAllRunning_eq, List.filterMap_eq_flatMap_toList]
      simp only [redeployRunning_calls]
    · intro name services hq
      rw [← (toBringUp_eq_some.mp hq).2.1]
      exact ⟨servicesOf_sorted _, fun svc ↦ mem_servicesOf⟩
    · intro name hlist hruns
      exact ⟨_, toBringUp_eq_some.mpr ⟨hlist, rfl, fun hnil ↦ hruns (nothingRuns_iff.mpr hnil)⟩⟩
    · exact hentries
    · rw [hentries]
      exact fun hsorted ↦ hsorted.sublist List.filter_sublist
    · intro name hname services hq
      have hentry : (redeployRunning s t env name).1 ∈
          (redeployAllRunning s t env (.ok names) skipList).1 := by
        rw [redeployAllRunning_eq]
        exact List.mem_map_of_mem hname
      rw [redeployRunning_of_some hq] at hentry
      split at hentry <;> simp_all
    · intro r hr haction
      rw [redeployAllRunning_eq] at hr
      obtain ⟨name, hname, rfl⟩ := List.mem_map.mp hr
      have hnone := redeployRunning_skipped.mp haction
      rw [redeployRunning_name]
      refine ⟨h name hname, nothingRuns_iff.mpr ?_⟩
      by_contra hne
      rw [toBringUp_eq_some.mpr ⟨h name hname, rfl, hne⟩] at hnone
      contradiction

/-- Two stacks, `app` and `db`, each with a service; the listing for `app` fails. -/
def failedListing : RedeployEnv where
  containers name := [⟨name, [], "", "", "running", "",
    ((∅ : KeyMap String String).insert projectLabel name).insert serviceLabel "web"⟩]
  listError name := if name = "app" then some "connection refused" else none
  run _ := none

/-- Its stacks directory. -/
def twoStacks : FileTree Unit :=
  ((∅ : FileTree Unit).insert "app"
      (.dir ((∅ : Folder Unit).insert "compose.yaml" (.file "")))).insert "db"
    (.dir ((∅ : Folder Unit).insert "compose.yaml" (.file "")))

/-- The entry of `app` says that it was skipped. Its service runs. -/
theorem failedListing_not_redeploysRunning :
    ⟨"app", .skipped, [], ""⟩ ∈ (redeployAllRunning ⟨"/stacks", "", false⟩ twoStacks failedListing
        (.ok ["app", "db"]) []).1 ∧ ¬ NothingRuns failedListing "app" ∧
      ¬ RedeploysRunning ⟨"/stacks", "", false⟩ twoStacks failedListing ["app", "db"] []
        (redeployAllRunning ⟨"/stacks", "", false⟩ twoStacks failedListing
          (.ok ["app", "db"]) []) := by
  have hentry : ⟨"app", .skipped, [], ""⟩ ∈ (redeployAllRunning ⟨"/stacks", "", false⟩ twoStacks
      failedListing (.ok ["app", "db"]) []).1 := by decide +kernel
  refine ⟨hentry, ?_, ?_⟩
  · intro h
    exact absurd (h _ (List.mem_singleton.mpr rfl)) (by decide +kernel)
  · intro h
    exact absurd (h.skipped _ hentry rfl).1 (by decide +kernel)

end

end Dockstack.Docker
