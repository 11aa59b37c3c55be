import Dockstack.Docker.DigestCache
import Dockstack.Docker.Drift
import Dockstack.Docker.Redeploy
import Dockstack.Server.StackHandlers
import Dockstack.Web.SseStream

/-!
# Actions on a stack

`handleStackAction`, `handleStackActionStream` and `handleStackRedeploy` of
`internal/server/api/stacks.go:337–429`: what a request runs and what it does to the cache of
remote digests, in order, and what it answers. How each command ends, and whether the client takes
what is written, are arguments.
-/

namespace Dockstack.Server

open Dockstack.Base Dockstack.Docker

/-- `stackAction`; `stacks.go:28–31`. -/
structure StackAction where
  path : String
  cmds : List (List String)
  deriving DecidableEq

/-- `stackActions`; `stacks.go:35–45`. -/
def stackActions : List StackAction :=
  [⟨"up", [upArgs]⟩,
    ⟨"stop", [["stop"]]⟩,
    ⟨"down", [["down"]]⟩,
    ⟨"restart", [["restart"]]⟩,
    ⟨"pull", [["pull"]]⟩,
    ⟨"update", [["pull", "--ignore-buildable"], ["up", "-d", "--remove-orphans"]]⟩]

/-- `invalidatesDigests`; `stacks.go:47–49`. -/
def StackAction.invalidatesDigests (a : StackAction) : Bool :=
  a.path == "pull" || a.path == "update"

/-- They are the actions that pull. -/
example : ∀ a ∈ stackActions, (∃ args ∈ a.cmds, args.head? = some "pull") ↔
    a.invalidatesDigests = true := by
  decide

/-- What a request does, in order: compose commands, each with its error unless it succeeds, and
operations on the cache of remote digests. -/
inductive RequestEvent where
  | compose (args : List String) (error : Option String)
  | digest (op : DigestOp)
  deriving DecidableEq

/-- `InvalidateRemoteDigests`, if it is called. -/
def invalidateIf (b : Bool) : List RequestEvent := if b then [.digest .invalidate] else []

/-! ## Plain actions -/

/-- The loop over the commands of an action, where the `i`-th ends with `errors i`: the error that
ends the loop, and what was run; `stacks.go:367–372`. -/
def runCommands : (Nat → Option String) → List (List String) → Option String × List RequestEvent
  | _, [] => (none, [])
  | errors, args :: cmds =>
    match errors 0 with
    | some err => (some err, [.compose args (some err)])
    | none =>
      let rest := runCommands (fun i ↦ errors (i + 1)) cmds
      (rest.1, .compose args none :: rest.2)

/-- `handleStackAction`; `stacks.go:363–377`. -/
def handleStackAction (name : String) (action : StackAction) (errors : Nat → Option String) :
    Except ApiError Unit × List RequestEvent :=
  match validateStackName name with
  | .error e => (.error e, [])
  | .ok () =>
    match runCommands errors action.cmds with
    | (some _, events) => (.error ⟨500, "compose command failed"⟩, events)
    | (none, events) => (.ok (), events ++ invalidateIf action.invalidatesDigests)

/-! ## Streamed actions -/

/-- How a streamed command goes: `StreamCompose` fails, or the lines of the command are written,
each with whether its write goes out, and it ends. `taken` says whether the text of an error goes
out. A command whose client is gone ends like any other: on its own or killed. -/
inductive StreamOutcome where
  | notStarted (error : String) (taken : Bool)
  | started (lines : List (Bytes × Bool)) (exit : Option String) (taken : Bool)

/-- The answer to a streamed request: an error before anything is written, or what is written. -/
structure StreamResponse where
  refused : Option ApiError
  body : List Bytes

/-- Write lines until a write fails: what went out, and whether all of it did;
`stacks.go:411–417`. -/
def writeLines : List (Bytes × Bool) → List Bytes × Bool
  | [] => ([], true)
  | (line, taken) :: lines =>
    if taken then
      let rest := writeLines lines
      (Web.lineEvent line :: rest.1, rest.2)
    else ([], false)

/-- The text of an error, if it goes out. -/
def writeError (text err : String) (taken : Bool) : List Bytes :=
  if taken then [goBytes ("data: Error: " ++ text ++ ": " ++ err ++ "\n\n")] else []

/-- The loop over the commands: the answer, what was run, and whether it came to its end;
`stacks.go:390–425`. -/
def streamCommands : Bool → (Nat → StreamOutcome) → List (List String) →
    StreamResponse × List RequestEvent × Bool
  | _, _, [] => (⟨none, []⟩, [], true)
  | headersSet, outcomes, args :: cmds =>
    match outcomes 0 with
    | .notStarted err taken =>
      if headersSet then
        (⟨none, writeError "failed to start compose command" err taken⟩,
          [.compose args (some err)], false)
      else
        (⟨some ⟨500, "failed to start compose command"⟩, []⟩, [.compose args (some err)], false)
    | .started lines exit taken =>
      let written := writeLines lines
      if written.2 = false then (⟨none, written.1⟩, [.compose args exit], false)
      else
        match exit with
        | some err =>
          (⟨none, written.1 ++ writeError "compose command failed" err taken⟩,
            [.compose args (some err)], false)
        | none =>
          let rest := streamCommands true (fun i ↦ outcomes (i + 1)) cmds
          (⟨rest.1.refused, written.1 ++ rest.1.body⟩, .compose args none :: rest.2.1, rest.2.2)

/-- `handleStackActionStream`; `stacks.go:379–429`. `flusher` says whether the writer can be
flushed. -/
def handleStackActionStream (name : String) (flusher : Bool) (action : StackAction)
    (outcomes : Nat → StreamOutcome) : StreamResponse × List RequestEvent :=
  if stackNameRe name = false then (⟨some ⟨400, "invalid stack name"⟩, []⟩, [])
  else if flusher = false then (⟨some ⟨500, "streaming unsupported"⟩, []⟩, [])
  else
    let r := streamCommands false outcomes action.cmds
    (r.1, r.2.1 ++ invalidateIf (r.2.2 && action.invalidatesDigests))

/-! ## Redeploys -/

/-- A call of `runComposeQuiet` in a request. -/
def callEvent (call : ComposeCall) : RequestEvent := .compose call.args call.error

/-- `handleStackRedeploy`; `stacks.go:337–361`. -/
def handleStackRedeploy {α : Type} (s : Stacks) (t : FileTree α) (env : RedeployEnv)
    (listFails : Bool) (redeploySkip : List String) (name : String) :
    Except ApiError RedeployResult × List RequestEvent :=
  match validateStackName name with
  | .error e => (.error e, [])
  | .ok () =>
    if listFails then (.error ⟨500, "failed to check stack"⟩, [])
    else if stackExists t name = false then (.error ⟨404, "stack not found"⟩, [])
    else if redeploySkip.contains name then
      (.error ⟨409, "stack is excluded by REDEPLOY_SKIP"⟩, [])
    else
      match redeployStack s t env name with
      | (.error _, calls) => (.error ⟨500, "redeploy failed"⟩, calls.map callEvent)
      | (.ok res, calls) =>
        (.ok res, calls.map callEvent ++ invalidateIf (res.action == .redeployed))

end Dockstack.Server
