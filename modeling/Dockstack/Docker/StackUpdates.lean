import Dockstack.Base.Utf8
import Dockstack.Docker.Images
import Dockstack.Docker.Stacks

/-!
# Updates of stacks

`ListStackUpdates` of `internal/docker/stacks.go:350–482`: for every stack whether one of its
containers runs an image that the registry has replaced. The registry, the YAML decoder and
the file system answer as functions that do not change during a call.
-/

namespace Dockstack.Docker

open Dockstack.Base

/-- `aggregateStale`; `stacks.go:350–361`. The loop starts with `out`. -/
def aggregateStaleFrom (out : StaleStatus) : List StaleStatus → StaleStatus
  | [] => out
  | .outdated :: _ => .outdated
  | .unknown :: statuses => aggregateStaleFrom .unknown statuses
  | .upToDate :: statuses => aggregateStaleFrom out statuses

/-- `aggregateStale`; `stacks.go:350–361`. -/
def aggregateStale (statuses : List StaleStatus) : StaleStatus :=
  aggregateStaleFrom .upToDate statuses

/-- `isImageID`; `stacks.go:363–376`. -/
def isImageID (value : String) : Bool :=
  hasPrefix value "sha256:" || (value.utf8ByteSize == 12 && value.toList.all isHexDigit)

/-- `validImageTag`; `stacks.go:378–380`. -/
def validImageTag (tag : String) : Bool :=
  tag != "" && tag != "<none>:<none>" && !isImageID tag && !contains tag "@sha256:"

/-- `containerImageTag`; `stacks.go:382–395`. -/
def containerImageTag (c : Summary) (composeTag : String) (img : ImageInfo) : String :=
  if validImageTag c.image then c.image
  else if validImageTag composeTag && !contains composeTag "$" then composeTag
  else (img.tags.find? validImageTag).getD ""

/-- What a call of `ListStackUpdates` asks: `RemoteDigestCached`, `os.ReadFile` and
`yaml.Unmarshal`, which gives the image of every service. -/
structure UpdateEnv where
  remoteDigestCached : String → Option String
  readFile : String → Option Bytes
  unmarshal : Bytes → Option (KeyMap String String)

variable {α : Type} (env : UpdateEnv)

/-- `containerStale`; `stacks.go:397–408`. -/
def containerStale (c : Summary) (images : KeyMap String ImageInfo) (composeTag : String) :
    StaleStatus :=
  match images.get? (formatImageTag c.imageID) with
  | none => .unknown
  | some img =>
    let tag := containerImageTag c composeTag img
    if tag = "" then .unknown
    else staleFromDigest img.repoDigests (env.remoteDigestCached tag)

/-- `composeServiceImages`; `stacks.go:410–434`. A nil map reads as an empty one. -/
def composeServiceImages (s : Stacks) (t : FileTree α) (stackName : String) :
    KeyMap String String :=
  match s.findComposePath t stackName with
  | .error _ => ∅
  | .ok composePath =>
    match (env.readFile composePath).bind env.unmarshal with
    | none => ∅
    | some services => services.filter fun _ image ↦ image != ""

/-- The images by their short ids; a later one replaces an earlier one. `stacks.go:449–452`. -/
def imagesByID (images : List ImageInfo) : KeyMap String ImageInfo :=
  images.foldl (fun byID img ↦ byID.insert img.id img) ∅

/-- What the loop over the containers carries. `stacks.go:459–460`. -/
structure UpdateLoop where
  perStack : KeyMap String (List StaleStatus)
  serviceImages : KeyMap String (KeyMap String String)

/-- One round of the loop. `stacks.go:461–473`. -/
def updateRound (s : Stacks) (t : FileTree α) (names : List String)
    (byID : KeyMap String ImageInfo) (loop : UpdateLoop) (c : Summary) : UpdateLoop :=
  match updateStack names c with
  | none => loop
  | some project =>
    let service := c.label serviceLabel
    let tags := (loop.serviceImages.get? project).getD (composeServiceImages env s t project)
    let status := containerStale env c byID ((tags.get? service).getD "")
    { perStack := loop.perStack.insert project ((loop.perStack.get? project).getD [] ++ [status])
      serviceImages :=
        if (loop.serviceImages.get? project).isSome then loop.serviceImages
        else loop.serviceImages.insert project tags }

/-- The verdict of a stack, if it has statuses. `stacks.go:476–478`. -/
def updateVerdict (perStack : KeyMap String (List StaleStatus)) (name : String) :
    Option StaleStatus :=
  match perStack.get? name with
  | some (status :: statuses) => some (aggregateStale (status :: statuses))
  | _ => none

/-- One round of the last loop. `stacks.go:475–480`. -/
def putVerdict (perStack : KeyMap String (List StaleStatus)) (out : KeyMap String StaleStatus)
    (name : String) : KeyMap String StaleStatus :=
  match updateVerdict perStack name with
  | some status => out.insert name status
  | none => out

/-- The verdicts of the stacks. `stacks.go:474–481`. -/
def updateVerdicts (names : List String) (perStack : KeyMap String (List StaleStatus)) :
    KeyMap String StaleStatus :=
  names.foldl (putVerdict perStack) ∅

/-- `ListStackUpdates`, given what the three listings answer; `stacks.go:436–482`. -/
def listStackUpdates (s : Stacks) (t : FileTree α) (names : Except String (List String))
    (containers : Except String (List Summary)) (images : Except String (List ImageSummary)) :
    Except String (KeyMap String StaleStatus) := do
  let names ← names
  let containers ← containers
  let images ← images
  let byID := imagesByID (listImagesInfo images)
  let loop := containers.foldl (updateRound env s t names byID) ⟨∅, ∅⟩
  return updateVerdicts names loop.perStack

end Dockstack.Docker
