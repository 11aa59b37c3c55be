import Dockstack.Docker.StackLogs
import Dockstack.Server.StackName
import Dockstack.Ws.Exec

/-!
# Log streams over a WebSocket

`handleLogsWS` and `streamStackLogsToWS` of `internal/server/api/ws/logs.go`: a loop over the frames
of one client, and a goroutine for each valid `init` frame, which sends what it receives from
`StreamStackLogs`. The next valid `init` cancels the goroutine's context. What `StreamStackLogs`
returns and sends, and whether a message reaches the client, are arguments.
-/

namespace Dockstack.Ws

open Dockstack.Base Dockstack.Base.Json

/-- What is sent to the client; `logs.go:82–102`. -/
inductive LogsMessage where
  | error (message : String)
  | log (entry : Docker.LogEntry)
  | ended
  deriving DecidableEq

/-- Where `streamStackLogsToWS` stands: in `StreamStackLogs`, at its receive, at a send, or
through; `logs.go:82–92`. -/
inductive StreamPhase where
  | starting
  | receiving
  | sending (m : LogsMessage)
  | done
  deriving DecidableEq

/-- A goroutine that a valid `init` frame has started, and whether its context was cancelled. -/
structure LogStream where
  stackName : String
  cancelled : Bool
  phase : StreamPhase
  deriving DecidableEq

/-- A call of `sendWSJSON`: by the handler or by a stream, when so many streams had been started,
and whether the message went out. -/
structure SentMessage where
  sender : Option Nat
  started : Nat
  message : LogsMessage
  delivered : Bool
  deriving DecidableEq

/-- The variable `cancel` of `handleLogsWS` (a position in `streams`), the streams, oldest first,
and what has been sent. -/
structure LogsWS where
  cancel : Option Nat
  streams : List LogStream
  sent : List SentMessage
  returned : Bool
  deriving DecidableEq

/-- What happens: a frame comes, or reading fails; `StreamStackLogs` returns for a stream, which
then receives an entry, sees the channel closed, or sends. `delivered` says whether a message that
is sent goes out. -/
inductive LogsStep where
  | frame (typ : MessageType) (data : Bytes) (delivered : Bool)
  | readError
  | opened (n : Nat) (answer : Except String Unit)
  | receive (n : Nat) (entry : Docker.LogEntry)
  | closed (n : Nat)
  | send (n : Nat) (delivered : Bool)

/-- `json.Unmarshal(data, &msg)`: type and stack name; `logs.go:45–51`. -/
def unmarshalLogs (data : Bytes) : Option (String × String) := do
  let fields ← unmarshal data
  let type ← stringField "type" fields
  let stackName ← stringField "stackName" fields
  return (type, stackName)

/-- Where a stream stands after a send. -/
def StreamPhase.afterSend : LogsMessage → StreamPhase
  | .log _ => .receiving
  | _ => .done

/-- What a stream does when `StreamStackLogs` has returned; `logs.go:83–87`. -/
def StreamPhase.afterOpen : Except String Unit → StreamPhase
  | .error message => .sending (.error message)
  | .ok () => .receiving

namespace LogsWS

/-- A new client. -/
def init : LogsWS := ⟨none, [], [], false⟩

/-- The phase of a stream. -/
def phase (s : LogsWS) (n : Nat) : Option StreamPhase := s.streams[n]?.map (·.phase)

/-- A stream goes on. -/
def setPhase (s : LogsWS) (n : Nat) (phase : StreamPhase) : LogsWS :=
  { s with streams := s.streams.modify n fun x ↦ { x with phase := phase } }

/-- A message is sent. -/
def send (s : LogsWS) (sender : Option Nat) (m : LogsMessage) (delivered : Bool) : LogsWS :=
  { s with sent := s.sent ++ [⟨sender, s.streams.length, m, delivered⟩] }

/-- `cancel()`, if it is set. -/
def cancelStream (s : LogsWS) : LogsWS :=
  { s with
    streams :=
      match s.cancel with
      | none => s.streams
      | some n => s.streams.modify n fun x ↦ { x with cancelled := true } }

/-- The handler returns, after a read error or a `close` frame; `logs.go:34–41` and `71–77`. -/
def stop (s : LogsWS) : LogsWS := { s.cancelStream with returned := true }

/-- A new stream, which cancels the one before; `logs.go:62–70`. -/
def startStream (s : LogsWS) (stackName : String) : LogsWS :=
  { s.cancelStream with
    cancel := some s.streams.length
    streams := s.cancelStream.streams ++ [⟨stackName, false, .starting⟩] }

/-- An `init` frame; `logs.go:53–70`. The pattern of a stack name is that of the stack handlers. -/
def handleInit (s : LogsWS) (stackName : String) (delivered : Bool) : LogsWS :=
  if stackName = "" then s.send none (.error "stackName is required") delivered
  else if Server.stackNameRe stackName = false then
    s.send none (.error "invalid stack name") delivered
  else s.startStream stackName

/-- A pass of the loop, for a frame that has come; `logs.go:32–79`. Once the handler has returned,
nothing is read. -/
def handleFrame (s : LogsWS) (typ : MessageType) (data : Bytes) (delivered : Bool) : LogsWS :=
  if s.returned then s
  else if readLimit < data.length then s.stop
  else
    match typ with
    | .binary => s
    | .text =>
      match unmarshalLogs data with
      | none => s
      | some (type, stackName) =>
        if type = "init" then s.handleInit stackName delivered
        else if type = "close" then s.stop
        else s

/-- A stream moves from one phase to another. -/
def move (s : LogsWS) (n : Nat) (phase phase' : StreamPhase) : Option LogsWS :=
  if s.phase n = some phase then some (s.setPhase n phase') else none

end LogsWS

/-- One step of the handler or of a stream. -/
def logsStep (s : LogsWS) : LogsStep → Option LogsWS
  | .frame typ data delivered => some (s.handleFrame typ data delivered)
  | .readError => some (if s.returned then s else s.stop)
  | .opened n answer => s.move n .starting (.afterOpen answer)
  | .receive n entry => s.move n .receiving (.sending (.log entry))
  | .closed n => s.move n .receiving (.sending .ended)
  | .send n delivered =>
    match s.phase n with
    | some (.sending m) => some ((s.setPhase n (.afterSend m)).send n m delivered)
    | _ => none

end Dockstack.Ws
