import Dockstack.Server.StackName

/-!
# Creating and renaming stacks

`handleStackCreate`, `handleStackCreateEnv` and `handleStackRename` of
`internal/server/api/stacks.go:209–311`. They act on the stacks directory and, through
compose commands, on the running services of projects. Every step that can fail on its
own has an outcome among the handler's arguments; a compose command that fails changes
nothing.
-/

namespace Dockstack.Server

open Dockstack.Base Dockstack.Docker

variable {α : Type}

/-- An error response: the status and the detail of `huma.Error…`. -/
structure ApiError where
  status : Nat
  detail : String
  deriving DecidableEq

/-- The stacks directory, and the running services of every compose project. -/
structure World (α : Type) where
  tree : FileTree α
  running : String → List String

/-- `RunCompose` with its effect: after a success, `services` are running in the project;
`internal/docker/stacks.go:218–226`. -/
def runCompose (s : Stacks) (w : World α) (name : String) (args : List String) (fails : Bool)
    (services : List String) : Option (World α) :=
  match s.composeCommand w.tree name args with
  | .error _ => none
  | .ok cmd =>
    if fails then none
    else some { w with
      running := Function.update w.running ((composeProject cmd).getD "") services }

/-- `upArgs`; `stacks.go:33`. -/
def upArgs : List String := ["up", "-d", "--remove-orphans", "--build"]

/-- `validateStackName`; `stacks.go:55–60`. -/
def validateStackName (name : String) : Except ApiError Unit :=
  if stackNameRe name then .ok () else .error ⟨400, "invalid stack name"⟩

/-- The starter compose file; `stacks.go:232`. -/
def composeTemplate (name : String) : String :=
  "services:\n  app:\n    image: " ++ name ++ "\n    container_name: " ++ name ++ "_app\n"

/-- The starter environment file; `stacks.go:249`. -/
def envTemplate : String := "# VAR1=example\n"

/-- Make the stack's directory and write a starter file in it, with the handler's own error
texts; `stacks.go:227–237` and `stacks.go:244–253`. -/
def makeAndWrite (s : Stacks) (t : FileTree α) (name file data : String) (mkdirFails : Bool)
    (o : WriteOutcome) (mkdirDetail writeDetail : String) : Except ApiError Unit × FileTree α :=
  let dir := Path.join [s.stacksDir, name]
  match if mkdirFails then none else t.mkdirAll (locate s.stacksDir dir) with
  | none => (.error ⟨500, mkdirDetail⟩, t)
  | some t =>
    let r := t.writeFile (locate s.stacksDir (Path.join [dir, file])) data o
    if r.1 then (.ok (), r.2) else (.error ⟨500, writeDetail⟩, r.2)

/-- What goes wrong during `handleStackCreate`. -/
structure CreateFaults where
  listFails : Bool
  mkdirFails : Bool
  write : WriteOutcome

/-- `handleStackCreate`; `stacks.go:213–238`. -/
def handleStackCreate (s : Stacks) (t : FileTree α) (name : String) (o : CreateFaults) :
    Except ApiError Unit × FileTree α :=
  if stackNameRe name = false then
    (.error ⟨400, "invalid stack name (allowed: a-zA-Z0-9_-)"⟩, t)
  else if o.listFails then (.error ⟨500, "failed to check stack"⟩, t)
  else if stackExists t name then (.error ⟨409, "stack already exists"⟩, t)
  else
    makeAndWrite s t name "compose.yaml" (composeTemplate name) o.mkdirFails o.write
      "failed to create stack directory" "failed to write starter compose file"

/-- What goes wrong during `handleStackCreateEnv`. -/
structure CreateEnvFaults where
  mkdirFails : Bool
  write : WriteOutcome

/-- `handleStackCreateEnv`; `stacks.go:240–254`. -/
def handleStackCreateEnv (s : Stacks) (t : FileTree α) (name : String) (o : CreateEnvFaults) :
    Except ApiError Unit × FileTree α :=
  match validateStackName name with
  | .error e => (.error e, t)
  | .ok () =>
    makeAndWrite s t name ".env" envTemplate o.mkdirFails o.write
      "failed to access stack directory" "failed to write env file"

/-- What goes wrong during `handleStackRename`, and which services the final `up` starts. -/
structure RenameFaults where
  listFails : Bool
  newListFails : Bool
  downFails : Bool
  renameFails : Bool
  upFails : Bool
  started : List String

/-- Bring the stack down if it has a compose file; `stacks.go:289–294`. -/
def bringDown (s : Stacks) (w : World α) (name : String) (o : RenameFaults) : Option (World α) :=
  match s.findComposePath w.tree name with
  | .error _ => some w
  | .ok _ => runCompose s w name ["down"] o.downFails []

/-- Start the renamed stack if it has a compose file; `stacks.go:304–309`. -/
def startRenamed (s : Stacks) (w : World α) (newName : String) (o : RenameFaults) :
    Option (World α) :=
  match s.findComposePath w.tree newName with
  | .error _ => some w
  | .ok _ => runCompose s w newName upArgs o.upFails o.started

/-- The answer when the stack was renamed and does not start; `stacks.go:307`. -/
def renamedNotStarted : ApiError := ⟨500, "stack renamed but failed to start it"⟩

/-- The part of `handleStackRename` after the stack is down; `stacks.go:295–310`. -/
def moveStack (s : Stacks) (w : World α) (name newName : String) (o : RenameFaults) :
    Except ApiError Unit × World α :=
  let oldDir := Path.join [s.stacksDir, name]
  let newDir := Path.join [s.stacksDir, newName]
  if isWithinStacksDir s.stacksDir oldDir = false ∨
      isWithinStacksDir s.stacksDir newDir = false then
    (.error ⟨400, "invalid stack path"⟩, w)
  else
    match if o.renameFails then none
      else w.tree.rename (locate s.stacksDir oldDir) (locate s.stacksDir newDir) with
    | none => (.error ⟨500, "failed to rename stack directory"⟩, w)
    | some t =>
      match startRenamed s { w with tree := t } newName o with
      | none => (.error renamedNotStarted, { w with tree := t })
      | some w => (.ok (), w)

/-- `handleStackRename`; `stacks.go:260–311`. -/
def handleStackRename (s : Stacks) (w : World α) (name newName : String) (o : RenameFaults) :
    Except ApiError Unit × World α :=
  match validateStackName name with
  | .error e => (.error e, w)
  | .ok () =>
    if stackNameRe newName = false then
      (.error ⟨400, "invalid new stack name (allowed: a-zA-Z0-9_-)"⟩, w)
    else if newName = name then (.ok (), w)
    else if o.listFails then (.error ⟨500, "failed to check stack"⟩, w)
    else if stackExists w.tree name = false then (.error ⟨404, "stack not found"⟩, w)
    else if o.newListFails then (.error ⟨500, "failed to check stack"⟩, w)
    else if stackExists w.tree newName then (.error ⟨409, "stack already exists"⟩, w)
    else
      match bringDown s w name o with
      | none => (.error ⟨500, "failed to bring stack down"⟩, w)
      | some w => moveStack s w name newName o

end Dockstack.Server
