import Dockstack.Base.Bytes
import Dockstack.Base.Words
import Dockstack.Docker.ComposeProject

/-!
# Validation of a compose file

`internal/docker/compose_validate.go`: what is kept of the output of `docker compose config`,
and what a run of it on a stack says. Whether there is a `docker` to run, and what it does
with the files as they are, are arguments.
-/

namespace Dockstack.Docker

open Dockstack.Base

/-- `ComposeValidation`; `internal/docker/models.go:118–123`. -/
structure ComposeValidation where
  valid : Bool
  errors : List String
  warnings : List String
  composeAvailable : Bool
  deriving DecidableEq

/-- `composeValidateMaxLines`; `compose_validate.go:15`. -/
def composeValidateMaxLines : Nat := 20

/-- The message of a log line, the line itself if it has none; `compose_validate.go:25–29`. -/
def logMessage (line : List Char) : List Char :=
  match indexOf "msg=\"".toList line with
  | none => line
  | some start =>
    let msg := line.drop (start + "msg=\"".length)
    match indexOf ['"'] msg with
    | none => line
    | some stop => msg.take stop

/-- `cleanComposeOutput`; `compose_validate.go:18–36`. -/
def cleanComposeOutput (raw : List Char) : List String :=
  ((((raw.splitOn '\n').map trimSpace).filter (!·.isEmpty)).map
    (fun line ↦ String.ofList (logMessage line))).take composeValidateMaxLines

/-- The `docker` command: whether it is found, and what a run of it with some arguments on
the files as they are ends with, an error unless it succeeds, and writes to stderr. -/
structure DockerCLI (α : Type) where
  found : Bool
  run : FileTree α → List String → Option String × List Char

section

variable {α : Type} (s : Stacks) (t : FileTree α) (cli : DockerCLI α)

/-- The answer without a `docker` command; `compose_validate.go:45–49`. -/
def validationSkipped : ComposeValidation :=
  ⟨true, [], ["docker compose CLI not found; validation skipped"], false⟩

/-- Run `docker` with the arguments and read what it wrote; `compose_validate.go:56–72`. -/
def runConfig (cmdArgs : List String) : ComposeValidation :=
  match cli.run t cmdArgs with
  | (some err, stderr) =>
    ⟨false, if cleanComposeOutput stderr = [] then [err] else cleanComposeOutput stderr, [], true⟩
  | (none, stderr) => ⟨true, [], cleanComposeOutput stderr, true⟩

/-- `ValidateCompose`; `compose_validate.go:38–73`. -/
def validateCompose (stackName : String) : ComposeValidation :=
  if cli.found = false then validationSkipped
  else
    match s.composeCommand t stackName ["config"] with
    | .error err => ⟨false, [err], [], true⟩
    | .ok cmdArgs => runConfig t cli cmdArgs

/-- The validation of a compose file of the stack that the caller chooses. -/
def validateComposeFile (stackName composePath : String) : ComposeValidation :=
  if cli.found = false then validationSkipped
  else runConfig t cli (s.composeCommandWithFile t stackName composePath ["config"])

end

/-- The file that is validated is the one that is found first. -/
theorem validateCompose_of_findComposePath {α : Type} {s : Stacks} {t : FileTree α}
    (cli : DockerCLI α) {stackName path : String} (h : s.findComposePath t stackName = .ok path) :
    validateCompose s t cli stackName = validateComposeFile s t cli stackName path := by
  rw [validateCompose, validateComposeFile, composeCommand_of_findComposePath h]

end Dockstack.Docker
