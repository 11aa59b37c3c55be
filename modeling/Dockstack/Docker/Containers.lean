import Dockstack.Base.KeyMap

/-!
# Containers of a project

The two listings of `internal/docker/containers.go:14–30`. The daemon keeps a list of
containers; Docker answers a listing with those that pass every filter.
-/

namespace Dockstack.Docker

open Dockstack.Base

/-- What the code reads of `container.Summary`. -/
structure Summary where
  id : String
  names : List String
  image : String
  imageID : String
  state : String
  status : String
  labels : KeyMap String String

/-- `com.docker.compose.project`. -/
def projectLabel : String := "com.docker.compose.project"

/-- `com.docker.compose.service`. -/
def serviceLabel : String := "com.docker.compose.service"

/-- `c.Labels[key]`, empty when there is none. -/
def Summary.label (c : Summary) (key : String) : String := (c.labels.get? key).getD ""

/-- `strings.TrimPrefix`. -/
def trimPrefix (s p : String) : String :=
  if p.toList.isPrefixOf s.toList then .ofList (s.toList.drop p.toList.length) else s

/-- Docker's filter `label=key=value`. -/
def Summary.hasLabel (c : Summary) (key value : String) : Bool :=
  c.labels.get? key == some value

/-- The states in which a container counts as running for a listing without `All`. -/
def Summary.listedByDefault (c : Summary) : Bool :=
  c.state == "running" || c.state == "paused" || c.state == "restarting"

/-- `ListContainers`; `containers.go:14–21`. -/
def listContainers (containers : List Summary) (all : Bool) (project : String) : List Summary :=
  containers.filter (fun c ↦ (all || c.listedByDefault) &&
    (project == "" || c.hasLabel projectLabel project))

/-- `ListRunningContainers`; `containers.go:23–30`. -/
def listRunningContainers (containers : List Summary) (project : String) : List Summary :=
  containers.filter (fun c ↦ c.listedByDefault &&
    (project == "" || c.hasLabel projectLabel project) && c.state == "running")

/-- A project's listing holds exactly the containers with its label. -/
theorem mem_listContainers {containers : List Summary} {project : String} (h : project ≠ "")
    (c : Summary) : c ∈ listContainers containers true project ↔
      c ∈ containers ∧ c.labels.get? projectLabel = some project := by
  simp [listContainers, Summary.hasLabel, h]

/-- The listing of running containers holds exactly the running ones with the label. -/
theorem mem_listRunningContainers {containers : List Summary} {project : String}
    (h : project ≠ "") (c : Summary) : c ∈ listRunningContainers containers project ↔
      c ∈ containers ∧ c.labels.get? projectLabel = some project ∧ c.state = "running" := by
  simp only [listRunningContainers, Summary.hasLabel, Summary.listedByDefault, List.mem_filter,
    Bool.and_eq_true, Bool.or_eq_true, beq_iff_eq, h, false_or]
  constructor
  · rintro ⟨hc, ⟨-, hl⟩, hs⟩
    exact ⟨hc, hl, hs⟩
  · rintro ⟨hc, hl, hs⟩
    exact ⟨hc, ⟨.inl (.inl hs), hl⟩, hs⟩

end Dockstack.Docker
