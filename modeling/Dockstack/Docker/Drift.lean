import Dockstack.Base.Regex
import Dockstack.Base.Utf8
import Dockstack.Base.Words
import Dockstack.Docker.Stacks

/-!
# Configuration drift of a stack

`internal/docker/drift.go`: `docker compose config --hash=*` on the compose file, in which
references to another service's network are first replaced by the id of its container, and
the comparison of its answer with the containers' labels. The compose file is bytes; the
expression for the references is over ASCII, so it matches bytes as it matches characters.
-/

namespace Dockstack.Docker

open Dockstack.Base

/-- `DriftStatus`; `models.go:58–64`. -/
inductive DriftStatus where
  | inSync
  | outdated
  | unknown
  deriving DecidableEq

/-- `com.docker.compose.oneoff`. -/
def oneOffLabel : String := "com.docker.compose.oneoff"

/-- `com.docker.compose.config-hash`. -/
def configHashLabel : String := "com.docker.compose.config-hash"

/-- The bytes of a Go string. -/
def goBytes (s : String) : Bytes := utf8Encode s.toList

/-! ## References to services -/

/-- A byte that is one of some ASCII characters. -/
def oneOf (chars : String) (b : UInt8) : Bool := (goBytes chars).contains b

/-- `[A-Za-z0-9_.-]`. -/
def isServiceByte (b : UInt8) : Bool :=
  let v := b.toNat
  (0x41 ≤ v && v ≤ 0x5A) || (0x61 ≤ v && v ≤ 0x7A) || (0x30 ≤ v && v ≤ 0x39) || oneOf "_.-" b

/-- `\s*network_mode:\s*`. -/
def networkModeKeyRe : Regex UInt8 :=
  .seq (.star (oneOf "\t\n\x0c\r ")) (.seq (.lit (goBytes "network_mode:"))
    (.star (oneOf "\t\n\x0c\r ")))

/-- `["']?service:([A-Za-z0-9_.-]+)["']?[ \t]*(?:#.*)?$`. -/
def networkModeServiceRe : Regex UInt8 :=
  .seq (.opt (.cls (oneOf "\"'"))) (.seq (.lit (goBytes "service:"))
    (.seq (.group 2 (.seq (.cls isServiceByte) (.star isServiceByte)))
      (.seq (.opt (.cls (oneOf "\"'"))) (.seq (.star (oneOf " \t"))
        (.seq (.opt (.seq (.lit (goBytes "#")) (.star (· != newline)))) .lineEnd)))))

/-- `serviceNetworkModeRe`; `drift.go:19`. -/
def serviceNetworkModeRe : Regex UInt8 :=
  .seq .lineStart (.seq (.group 1 networkModeKeyRe) networkModeServiceRe)

/-- A container's service gets its id. `drift.go:26–28`. -/
def putServiceID (ids : KeyMap Bytes Bytes) (c : Summary) : KeyMap Bytes Bytes :=
  match c.labels.get? serviceLabel with
  | some svc => ids.insert (goBytes svc) (goBytes c.id)
  | none => ids

/-- `ids` of `resolveServiceNetworkModes`: the last container of a service wins.
`drift.go:24–29`. -/
def serviceIDs (containers : List Summary) : KeyMap Bytes Bytes :=
  containers.foldl putServiceID ∅

/-- The service that a matched line refers to. `drift.go:32–33`. -/
def lineService (line : Bytes) : Option Bytes :=
  (serviceNetworkModeRe.find? newline true line).map (·.sub 2)

/-- What a matched line is replaced by. `drift.go:32–38`. -/
def resolveLine (ids : KeyMap Bytes Bytes) (line : Bytes) : Bytes :=
  match serviceNetworkModeRe.find? newline true line with
  | none => line
  | some m =>
    match ids.get? (m.sub 2) with
    | none => line
    | some id => m.sub 1 ++ goBytes "container:" ++ id

/-- The matched lines of a compose file. -/
def networkModeLines (compose : Bytes) : List Bytes :=
  (serviceNetworkModeRe.segments newline true 0 compose).filterMap fun
    | .matched line => some line
    | .char _ => none

/-- `resolveServiceNetworkModes`; `drift.go:23–41`. -/
def resolveServiceNetworkModes (compose : Bytes) (containers : List Summary) : Bytes × Bool :=
  let ids := serviceIDs containers
  (serviceNetworkModeRe.replaceAllFunc newline compose (resolveLine ids),
    (networkModeLines compose).any fun line ↦
      ((lineService line).bind ids.get?).isSome)

/-! ## Hashes -/

/-- A line of two words gives a service its hash. `drift.go:46–50`. -/
def putServiceHash (out : KeyMap String String) (line : List Char) : KeyMap String String :=
  match fields line with
  | [svc, hash] => out.insert (.ofList svc) (.ofList hash)
  | _ => out

/-- `parseServiceHashes`; `drift.go:43–53`. -/
def parseServiceHashes (stdout : List Char) : KeyMap String String :=
  (stdout.splitOn '\n').foldl putServiceHash ∅

/-- The loop of `driftFromContainers` after `compared` comparisons. `drift.go:57–77`. -/
def driftLoop (hashes : KeyMap String String) : Nat → List Summary → DriftStatus
  | compared, [] => if compared = 0 then .unknown else .inSync
  | compared, c :: containers =>
    if c.label oneOffLabel = "True" then driftLoop hashes compared containers
    else
      match hashes.get? (c.label serviceLabel) with
      | none => driftLoop hashes compared containers
      | some want =>
        let got := c.label configHashLabel
        if got = "" then driftLoop hashes compared containers
        else if got ≠ want then .outdated
        else driftLoop hashes (compared + 1) containers

/-- `driftFromContainers`; `drift.go:55–78`. -/
def driftFromContainers (containers : List Summary) (hashes : KeyMap String String) :
    DriftStatus :=
  driftLoop hashes 0 containers

/-! ## The whole check -/

/-- A `docker` command: its arguments, its directory when it is set, and its input. -/
structure DockerCommand where
  args : List String
  dir : Option String
  stdin : Option Bytes
  deriving DecidableEq

/-- The command of `stackDrift`: on the compose file, or on its text with the references
resolved when there are any. `drift.go:89–104`. -/
def driftCommand {α : Type} (s : Stacks) (t : FileTree α) (name composePath : String)
    (data : Option Bytes) (containers : List Summary) : DockerCommand :=
  let plain : DockerCommand :=
    ⟨s.composeCommandWithFile t name composePath ["config", "--hash=*"], none, none⟩
  match data with
  | none => plain
  | some data =>
    let resolved := resolveServiceNetworkModes data containers
    if resolved.2 then
      ⟨s.composeCommandWithFile t name "-" ["config", "--hash=*"], some (s.stackDir name),
        some resolved.1⟩
    else plain

/-- `stackDrift`, given what `ListContainers` and `os.ReadFile` answer and what commands print;
`none` is an error. `drift.go:80–112`. -/
def stackDrift {α : Type} (s : Stacks) (t : FileTree α) (run : DockerCommand → Option (List Char))
    (listed : Option (List Summary)) (data : Option Bytes) (name : String) : DriftStatus :=
  match listed with
  | none => .unknown
  | some containers =>
    if containers.isEmpty then .unknown
    else
      match s.findComposePath t name with
      | .error _ => .unknown
      | .ok composePath =>
        match run (driftCommand s t name composePath data containers) with
        | none => .unknown
        | some stdout => driftFromContainers containers (parseServiceHashes stdout)

/-- A `docker compose config` that only depends on the compose text it is given: its input, or
else the file. -/
def composeConfig (config : Bytes → Option (List Char)) (file : Bytes) (cmd : DockerCommand) :
    Option (List Char) :=
  config (cmd.stdin.getD file)

end Dockstack.Docker
