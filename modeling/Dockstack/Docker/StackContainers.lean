import Dockstack.Docker.ContainerInfo
import Dockstack.Docker.Stacks

/-!
# The containers of a stack

`GetStackContainers` of `internal/docker/stacks.go:484–550`: the containers of the project and
an entry for every service of the compose file that has none. `labels` of a service may be
written as a map or as a list; the code decodes it into a Go map, and yaml.v3 reports an
error for a list.
-/

namespace Dockstack.Docker

open Dockstack.Base

/-- The `labels` of a service: left out, a map or a list of strings. -/
inductive ServiceLabels where
  | absent
  | map (labels : KeyMap String String)
  | list (labels : List String)

/-- What is read of a service; `stacks.go:503–506`. -/
structure ComposeService where
  image : String
  labels : ServiceLabels

/-- The services of a compose file. -/
abbrev ComposeServices := KeyMap String ComposeService

/-- A sequence does not decode into a Go map. -/
def ServiceLabels.isList : ServiceLabels → Bool
  | .list _ => true
  | _ => false

/-- The Go map that labels decode into. -/
def ServiceLabels.toMap : ServiceLabels → KeyMap String String
  | .map labels => labels
  | _ => ∅

/-- Decoding into `compose`: it fails as a whole if the labels of one service do;
`stacks.go:509`. -/
def unmarshalServices (services : ComposeServices) : Option ComposeServices :=
  if services.entries.any (fun e ↦ e.2.labels.isList) then none else some services

/-- What a call of `GetStackContainers` asks and is configured with: the answer of
`ListContainers`, whether the compose file can be read, and what YAML it is. -/
structure StackContainersEnv where
  containers : Except String (List ContainerSummary)
  readFails : Bool
  parse : String → Option ComposeServices
  serverHost : String
  baseDomain : String

/-- The entry of a service without a container; `stacks.go:520–532`. -/
def missingContainer (stackName baseDomain svcName : String) (svc : ComposeService) :
    ContainerInfo where
  id := svcName
  serviceName := some svcName
  name := "-"
  image := if svc.image = "" then "-" else formatImageTag svc.image
  stack := some stackName
  status := .missing
  uptime := "-"
  ports := []
  urls := getContainerURLs svc.labels.toMap baseDomain

/-- The services that the containers are labelled with; `stacks.go:494–499`. -/
def knownServices (containers : List ContainerSummary) : List String :=
  containers.filterMap (·.labels.get? serviceLabel)

/-- The loop over the services by name; `stacks.go:510–534`. -/
def missingContainers (stackName baseDomain : String) (known : List String)
    (services : ComposeServices) : List ContainerInfo :=
  ((services.keys.mergeSort fun a b ↦ decide (a ≤ b)).filter (!known.contains ·)).map
    fun svcName ↦ missingContainer stackName baseDomain svcName
      ((services.get? svcName).getD ⟨"", .absent⟩)

/-- What an entry is sorted by; `stacks.go:540–546`. -/
def ContainerInfo.sortKey (e : ContainerInfo) : String := e.serviceName.getD e.name

section

variable {α : Type} (s : Stacks) (t : FileTree α) (env : StackContainersEnv)

/-- The services of the stack's compose file, if it is there, is read and is YAML. -/
def parsedServices (stackName : String) : Option ComposeServices :=
  match s.findComposePath t stackName with
  | .error _ => none
  | .ok composePath =>
    (if env.readFails then none else t.readFile (locate s.stacksDir composePath)).bind env.parse

/-- `GetStackContainers`; `stacks.go:484–550`. -/
def getStackContainers (stackName : String) : Except String (List ContainerInfo) :=
  match env.containers with
  | .error err => .error err
  | .ok containers =>
    let out := containers.map fun c ↦ mapContainer c env.serverHost env.baseDomain
    let missing :=
      match (parsedServices s t env stackName).bind unmarshalServices with
      | none => []
      | some services =>
        missingContainers stackName env.baseDomain (knownServices containers) services
    .ok ((out ++ missing).mergeSort fun a b ↦ decide (a.sortKey ≤ b.sortKey))

end

/-! ## Completeness -/

/-- The services that no container is labelled with, by name. -/
def unlabelled (containers : List ContainerSummary) (services : ComposeServices) : List String :=
  (services.keys.mergeSort fun a b ↦ decide (a ≤ b)).filter
    fun svc ↦ decide (∀ c ∈ containers, c.labels.get? serviceLabel ≠ some svc)

/-- `e` is the entry of a service that has no container; what its addresses are is left open where
the labels are a list. -/
structure IsMissing (env : StackContainersEnv) (services : ComposeServices) (stackName svc : String)
    (e : ContainerInfo) : Prop where
  id : e.id = svc
  serviceName : e.serviceName = some svc
  name : e.name = "-"
  image : ∀ service, services.get? svc = some service →
    e.image = if service.image = "" then "-" else formatImageTag service.image
  stack : e.stack = some stackName
  status : e.status = .missing
  uptime : e.uptime = "-"
  ports : e.ports = []
  urls : ∀ service, services.get? svc = some service → service.labels.isList = false →
    e.urls = getContainerURLs service.labels.toMap env.baseDomain

/-- The entries are the containers, each once, and one missing entry for each service that no
container is labelled with, in order. -/
structure LosesNoService (env : StackContainersEnv) (containers : List ContainerSummary)
    (services : ComposeServices) (stackName : String) (out : List ContainerInfo) : Prop where
  complete : ∃ missing : List ContainerInfo,
    List.Forall₂ (IsMissing env services stackName) (unlabelled containers services) missing ∧
      out.Perm ((containers.map fun c ↦ mapContainer c env.serverHost env.baseDomain) ++ missing)
  sorted : out.Pairwise fun a b ↦ a.sortKey ≤ b.sortKey

section

variable {α : Type} {s : Stacks} {t : FileTree α} {env : StackContainersEnv}
  {containers : List ContainerSummary} {services : ComposeServices} {stackName : String}

private theorem getStackContainers_eq (hc : env.containers = .ok containers)
    (hs : parsedServices s t env stackName = some services) :
    getStackContainers s t env stackName =
      .ok (((containers.map fun c ↦ mapContainer c env.serverHost env.baseDomain) ++
        match unmarshalServices services with
        | none => []
        | some services =>
          missingContainers stackName env.baseDomain (knownServices containers) services).mergeSort
            fun a b ↦ decide (a.sortKey ≤ b.sortKey)) := by
  rw [getStackContainers, hc, hs]
  rfl

private theorem forall₂_missingContainers (env : StackContainersEnv)
    (containers : List ContainerSummary) (services : ComposeServices) (stackName : String) :
    List.Forall₂ (IsMissing env services stackName) (unlabelled containers services)
      (missingContainers stackName env.baseDomain (knownServices containers) services) := by
  have hnames : unlabelled containers services =
      (services.keys.mergeSort fun a b ↦ decide (a ≤ b)).filter
        (!(knownServices containers).contains ·) := by
    apply List.filter_congr
    intro svc _
    rw [Bool.eq_iff_iff, decide_eq_true_iff, Bool.not_eq_true', ← Bool.not_eq_true,
      List.contains_iff_mem, knownServices, List.mem_filterMap]
    push Not
    rfl
  rw [hnames, missingContainers, List.forall₂_map_right_iff, List.forall₂_same]
  intro svc _
  constructor
  case image =>
    intro service h
    rw [missingContainer, h, Option.getD_some]
  case urls =>
    intro service h _
    rw [missingContainer, h, Option.getD_some]
  all_goals rfl

private theorem unlabelled_eq_nil_iff :
    unlabelled containers services = [] ↔
      ∀ svc ∈ services.keys, ∃ c ∈ containers, c.labels.get? serviceLabel = some svc := by
  rw [unlabelled, List.filter_eq_nil_iff]
  simp

private theorem unmarshalServices_cases (services : ComposeServices) :
    (unmarshalServices services = some services ∧
        ∀ svc service, services.get? svc = some service → service.labels.isList = false) ∨
      (unmarshalServices services = none ∧
        ∃ svc service, services.get? svc = some service ∧ service.labels.isList = true) := by
  have hget (svc : String) (service : ComposeService) :
      services.get? svc = some service ↔ ⟨svc, service⟩ ∈ services.entries :=
    AList.mem_lookup_iff
  rw [unmarshalServices]
  by_cases hany : services.entries.any (fun e ↦ e.2.labels.isList) = true
  · right
    rw [if_pos hany]
    obtain ⟨e, he, hlist⟩ := List.any_eq_true.mp hany
    exact ⟨rfl, e.1, e.2, (hget _ _).mpr he, hlist⟩
  · left
    rw [if_neg hany]
    apply And.intro rfl
    intro svc service hsvc
    rw [Bool.eq_false_iff]
    intro hlist
    exact hany (List.any_eq_true.mpr ⟨_, (hget _ _).mp hsvc, hlist⟩)

/-- No service is lost exactly when no labels are written as a list, or every service has a
container. -/
theorem losesNoService_iff (hc : env.containers = .ok containers)
    (hs : parsedServices s t env stackName = some services) :
    (∃ out, getStackContainers s t env stackName = .ok out ∧
      LosesNoService env containers services stackName out) ↔
      (∀ svc service, services.get? svc = some service → service.labels.isList = false) ∨
        ∀ svc ∈ services.keys, ∃ c ∈ containers, c.labels.get? serviceLabel = some svc := by
  rw [← unlabelled_eq_nil_iff, getStackContainers_eq hc hs]
  rcases unmarshalServices_cases services with
    ⟨hdecode, hnone⟩ | ⟨hdecode, svc, service, hsvc, hlist⟩
  · rw [hdecode]
    apply iff_of_true
    · exact ⟨_, rfl, ⟨_, forall₂_missingContainers env containers services stackName,
        List.mergeSort_perm _ _⟩, pairwise_mergeSort_key ContainerInfo.sortKey _⟩
    · exact .inl hnone
  · rw [hdecode]
    dsimp only
    rw [List.append_nil]
    constructor
    · rintro ⟨out, hout, ⟨missing, hmissing, hperm⟩, -⟩
      right
      rw [← Except.ok.inj hout] at hperm
      have hlength := hperm.length_eq
      rw [List.length_mergeSort, List.length_append] at hlength
      apply List.eq_nil_of_length_eq_zero
      rw [hmissing.length_eq]
      omega
    · rintro (hnone | hnil)
      · rw [hnone svc service hsvc] at hlist
        contradiction
      · refine ⟨_, rfl, ⟨[], ?_, ?_⟩, pairwise_mergeSort_key ContainerInfo.sortKey _⟩
        · rw [hnil]
          exact .nil
        · rw [List.append_nil]
          exact List.mergeSort_perm _ _

end

/-- The compose file of one service, `web`, that has these labels. -/
def webServices (labels : ServiceLabels) : ComposeServices :=
  (∅ : ComposeServices).insert "web" ⟨"nginx", labels⟩

/-- A host with these containers, where every compose file has these services. -/
def webEnv (containers : List ContainerSummary) (services : ComposeServices) :
    StackContainersEnv where
  containers := .ok containers
  readFails := false
  parse _ := some services
  serverHost := "localhost"
  baseDomain := ""

/-- A stack with a compose file. -/
def webTree : FileTree Unit :=
  (∅ : FileTree Unit).insert "app"
    (.dir ((∅ : Folder Unit).insert "compose.yaml" (.file "services:\n  web:\n    image: nginx\n")))

private theorem parsedServices_web (containers : List ContainerSummary)
    (services : ComposeServices) :
    parsedServices ⟨"./stacks", "", false⟩ webTree (webEnv containers services) "app" =
      some services := by
  have hpath : Stacks.findComposePath ⟨"./stacks", "", false⟩ webTree "app" =
      .ok "stacks/app/compose.yaml" := by
    decide +kernel
  have hread : webTree.readFile (locate "./stacks" "stacks/app/compose.yaml") =
      some "services:\n  web:\n    image: nginx\n" := by
    decide +kernel
  unfold parsedServices
  rw [hpath]
  dsimp only
  rw [hread]
  rfl

/-- A container of a service, and one of the project that is of no service. -/
def mixedContainers : List ContainerSummary :=
  let project : KeyMap String String := (∅ : KeyMap String String).insert projectLabel "app"
  [⟨⟨"c1", ["/app-db-1"], "postgres:16", "", "running", "Up 2 hours",
      project.insert serviceLabel "db"⟩, []⟩,
    ⟨⟨"c2", ["/app-shell"], "alpine", "", "exited", "Exited (0)", project⟩, []⟩]

/-- Services with labels and without, and one that is built without an image. -/
def mixedServices : ComposeServices :=
  ((webServices (.map ((∅ : KeyMap String String).insert "traefik.enable" "true"))).insert "db"
    ⟨"postgres:16", .absent⟩).insert "cache" ⟨"", .absent⟩

/-- The services `web` and `cache` get their entries among those of the containers. -/
theorem losesNoService_iff_mixed :
    ∃ out, getStackContainers ⟨"./stacks", "", false⟩ webTree
        (webEnv mixedContainers mixedServices) "app" = .ok out ∧
      LosesNoService (webEnv mixedContainers mixedServices) mixedContainers mixedServices "app"
        out := by
  apply (losesNoService_iff rfl (parsedServices_web mixedContainers mixedServices)).mpr
  left
  intro svc service hsvc
  rw [mixedServices, webServices, KeyMap.get?_insert, KeyMap.get?_insert, KeyMap.get?_insert,
    KeyMap.get?_empty] at hsvc
  split at hsvc
  · rw [← Option.some.inj hsvc]
    rfl
  · split at hsvc
    · rw [← Option.some.inj hsvc]
      rfl
    · split at hsvc
      · rw [← Option.some.inj hsvc]
        rfl
      · contradiction

/-- A service whose labels are a list is lost. -/
theorem not_losesNoService_of_list :
    ¬ ∀ (s : Stacks) (t : FileTree Unit) (env : StackContainersEnv)
      (containers : List ContainerSummary) (services : ComposeServices) (stackName : String),
      env.containers = .ok containers → parsedServices s t env stackName = some services →
      ∃ out, getStackContainers s t env stackName = .ok out ∧
        LosesNoService env containers services stackName out := by
  intro h
  obtain ⟨out, hout, ⟨missing, hmissing, hperm⟩, -⟩ :=
    h ⟨"./stacks", "", false⟩ webTree (webEnv [] (webServices (.list ["traefik.enable=true"]))) []
      (webServices (.list ["traefik.enable=true"])) "app" rfl (parsedServices_web _ _)
  have hempty : getStackContainers ⟨"./stacks", "", false⟩ webTree
      (webEnv [] (webServices (.list ["traefik.enable=true"]))) "app" = .ok [] := by
    have hdecode : unmarshalServices (webServices (.list ["traefik.enable=true"])) = none := rfl
    rw [getStackContainers_eq rfl (parsedServices_web _ _), hdecode]
    dsimp only
    rw [List.map_nil, List.append_nil, List.mergeSort_nil]
  rw [hempty] at hout
  rw [← Except.ok.inj hout] at hperm
  have hweb : unlabelled [] (webServices (.list ["traefik.enable=true"])) = ["web"] := by
    decide +kernel
  have hnil : missing = [] := List.nil_perm.mp hperm
  have hlength := hmissing.length_eq
  rw [hweb, hnil] at hlength
  contradiction

end Dockstack.Docker
