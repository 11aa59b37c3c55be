import Dockstack.Base.Json
import Dockstack.Base.Machine

/-!
# Terminals over a WebSocket

`handleExecWS` of `internal/server/api/ws/exec.go`: a loop over the frames of one client, with a
few variables that each `init` frame overwrites. A session is what an `init` frame creates: a
context, and an exec connection where the container lets one attach. What Docker answers and which
frames come are arguments.
-/

namespace Dockstack.Ws

open Dockstack.Base Dockstack.Base.Json

/-- `conn.Read` fails for a longer message: `acceptWS` keeps the library's limit. -/
def readLimit : Nat := 32768

/-- The type of a message. -/
inductive MessageType where
  | text
  | binary
  deriving DecidableEq

/-- What the handler and its pumps send to the client. -/
inductive ExecMessage where
  | error (message : String)
  | output (data : Bytes)
  | exit
  deriving DecidableEq

/-- What `startExec` asks Docker to run. -/
structure ExecOptions where
  cmd : List String
  env : List String
  deriving DecidableEq

/-- An attached connection. `closeWriter` says whether its type has a method `CloseWrite`. -/
structure ExecConn where
  execID : String
  closeWriter : Bool
  written : Bytes
  writeClosed : Bool
  pumping : Bool
  deriving DecidableEq

/-- What an `init` frame has created: an exec context, which the handler may have cancelled, and
the connection that was attached. -/
structure ExecSession where
  containerID : String
  options : ExecOptions
  cancelled : Bool
  conn : Option ExecConn
  deriving DecidableEq

/-- The variables of `handleExecWS` (`hijack` and `cancel` are positions in `sessions`), the
sessions, the calls of `ResizeExec` after `startExec` has begun with their exec id, rows and
columns, and what has been sent. -/
structure ExecWS where
  hijack : Option Nat
  execID : String
  cancel : Option Nat
  started : Bool
  sessions : List ExecSession
  resized : List (String × Int × Int)
  sent : List ExecMessage
  returned : Bool
  deriving DecidableEq

/-- What Docker answers to `CreateExec` and `AttachExec`: the exec id, and whether the connection
has `CloseWrite`. -/
structure DockerExec where
  createExec : Except String String
  attachExec : Except String Bool

/-- `authorizedShells`; `exec.go:15–20`. -/
def authorizedShells : List String := ["/bin/bash", "/bin/sh", "/bin/zsh", "/bin/fish"]

/-- The options of an exec; `exec.go:167–179`. -/
def execOptions (shell : String) (cols rows : Int) : ExecOptions where
  cmd := [shell]
  env := ["TERM=xterm-256color", "COLUMNS=" ++ toString cols, "LINES=" ++ toString rows]

/-- `startExec`; `exec.go:166–190`, up to its `ResizeExec`, whose error it ignores. -/
def startExec (docker : DockerExec) : Except String (String × Bool) := do
  let execID ← docker.createExec
  let closeWriter ← docker.attachExec
  return (execID, closeWriter)

/-- The control frame's type; `exec.go:64–67`. `none` is an error of `json.Unmarshal`. -/
def unmarshalType (data : Bytes) : Option String := (unmarshal data).bind (stringField "type")

/-- An `init` frame; `exec.go:77–83`. -/
structure InitFrame where
  containerID : String
  cols : Int
  rows : Int
  shell : String
  deriving DecidableEq

/-- `json.Unmarshal(data, &init)`; `exec.go:84`. -/
def unmarshalInit (data : Bytes) : Option InitFrame := do
  let fields ← unmarshal data
  let _ ← stringField "type" fields
  let containerID ← stringField "containerId" fields
  let cols ← intField "cols" fields
  let rows ← intField "rows" fields
  let shell ← stringField "shell" fields
  return ⟨containerID, cols, rows, shell⟩

/-- `json.Unmarshal(data, &resize)`; `exec.go:116–121`: the columns and the rows. -/
def unmarshalResize (data : Bytes) : Option (Int × Int) := do
  let fields ← unmarshal data
  let _ ← stringField "type" fields
  let cols ← intField "cols" fields
  let rows ← intField "rows" fields
  return (cols, rows)

namespace ExecConn

/-- `hijack.Write(data)`. -/
def write (data : Bytes) (c : ExecConn) : ExecConn := { c with written := c.written ++ data }

/-- `CloseWrite`, where the connection has it. -/
def closeWrite (c : ExecConn) : ExecConn := { c with writeClosed := c.writeClosed || c.closeWriter }

/-- The pump of the connection has returned. -/
def endPump (c : ExecConn) : ExecConn := { c with pumping := false }

end ExecConn

namespace ExecSession

/-- The connection changes. -/
def onConn (f : ExecConn → ExecConn) (e : ExecSession) : ExecSession :=
  { e with conn := e.conn.map f }

/-- The context is cancelled. -/
def cancel (e : ExecSession) : ExecSession := { e with cancelled := true }

end ExecSession

namespace ExecWS

/-- A new client. -/
def init : ExecWS := ⟨none, "", none, false, [], [], [], false⟩

/-- The session at a variable changes, if the variable is set. -/
def onSession (s : ExecWS) (n : Option Nat) (f : ExecSession → ExecSession) : ExecWS :=
  { s with
    sessions :=
      match n with
      | none => s.sessions
      | some n => s.sessions.modify n f }

/-- Data goes to the connection in `hijack`. -/
def write (s : ExecWS) (data : Bytes) : ExecWS :=
  s.onSession s.hijack (·.onConn (·.write data))

/-- The connection of a session is attached and its pump runs. -/
def pumping (s : ExecWS) (n : Nat) : Bool := (s.sessions[n]?.bind (·.conn)).any (·.pumping)

/-- A message to the client. -/
def send (s : ExecWS) (m : ExecMessage) : ExecWS := { s with sent := s.sent ++ [m] }

/-- The handler returns, after a read error or a `close` frame; `exec.go:41–53` and
`127–138`. -/
def stop (s : ExecWS) : ExecWS :=
  { (s.onSession s.hijack (·.onConn (·.closeWrite))).onSession s.cancel (·.cancel) with
    returned := true }

/-- The columns or rows of an `init` frame; `exec.go:91–97`. -/
def orDefault (n default : Int) : Int := if n ≤ 0 then default else n

/-- A new session, with its context; `exec.go:98–111`. -/
def startSession (s : ExecWS) (f : InitFrame) (docker : DockerExec) : ExecWS :=
  let cols := orDefault f.cols 80
  let rows := orDefault f.rows 24
  let options := execOptions f.shell cols rows
  match startExec docker with
  | .error message =>
    { s with
      cancel := some s.sessions.length
      sessions := s.sessions ++ [⟨f.containerID, options, true, none⟩]
      sent := s.sent ++ [.error message] }
  | .ok (execID, closeWriter) =>
    { s with
      hijack := some s.sessions.length
      execID := execID
      cancel := some s.sessions.length
      started := true
      sessions := s.sessions ++
        [⟨f.containerID, options, false, some ⟨execID, closeWriter, [], false, true⟩⟩]
      resized := s.resized ++ [(execID, rows, cols)] }

/-- An `init` frame; `exec.go:76–111`. -/
def handleInit (s : ExecWS) (data : Bytes) (docker : DockerExec) : ExecWS :=
  match unmarshalInit data with
  | none => s
  | some f =>
    if f.shell ∈ authorizedShells then s.startSession f docker
    else s.send (.error "shell not authorized")

/-- A `resize` frame; `exec.go:112–126`. -/
def handleResize (s : ExecWS) (data : Bytes) : ExecWS :=
  if s.started then
    match unmarshalResize data with
    | none => s
    | some (cols, rows) =>
      if 0 < cols ∧ 0 < rows then { s with resized := s.resized ++ [(s.execID, rows, cols)] } else s
  else s

/-- A text frame; `exec.go:63–146`. -/
def handleText (s : ExecWS) (data : Bytes) (docker : DockerExec) : ExecWS :=
  match unmarshalType data with
  | none => s.write data
  | some type =>
    if type = "init" then s.handleInit data docker
    else if type = "resize" then s.handleResize data
    else if type = "close" then s.stop
    else s.write data

/-- A pass of the loop, for a frame that has come; `exec.go:39–147`. Once the handler has
returned, nothing is read. -/
def handleFrame (s : ExecWS) (typ : MessageType) (data : Bytes) (docker : DockerExec) : ExecWS :=
  if s.returned then s
  else if readLimit < data.length then s.stop
  else
    match typ with
    | .binary => if data = [] then s else s.write data
    | .text => s.handleText data docker

end ExecWS

/-- What happens: a frame comes (with what Docker answers if it starts an exec), reading fails, or
the pump of a session reads output, which it may fail to send, or reaches the end. -/
inductive ExecStep where
  | frame (typ : MessageType) (data : Bytes) (docker : DockerExec)
  | readError
  | pump (n : Nat) (data : Bytes) (sends : Bool)
  | pumpEnd (n : Nat)

/-- One step of the handler or of `pumpExec` (`exec.go:150–164`). -/
def execStep (s : ExecWS) : ExecStep → Option ExecWS
  | .frame typ data docker => some (s.handleFrame typ data docker)
  | .readError => some (if s.returned then s else s.stop)
  | .pump n data sends =>
    if s.pumping n then
      some (if sends then s.send (.output data) else s.onSession n (·.onConn (·.endPump)))
    else none
  | .pumpEnd n =>
    if s.pumping n then
      some ((s.onSession n (·.onConn (·.endPump))).send .exit)
    else none

/-- An `init` frame for a shell in a container, in a terminal of 80 columns and 24 rows. -/
def demoInit : Bytes :=
  text "\x7b\"type\":\"init\",\"containerId\":\"c1\",\"shell\":\"/bin/sh\"" ++
    text ",\"cols\":80,\"rows\":24\x7d"

/-- Docker starts the exec. -/
def demoDocker : DockerExec := ⟨.ok "e1", .ok true⟩

/-- The frame starts a session. -/
example : ((ExecWS.init.handleFrame .text demoInit demoDocker).sessions.map fun e ↦
    (e.containerID, e.options.env)) =
      [("c1", ["TERM=xterm-256color", "COLUMNS=80", "LINES=24"])] := by
  decide +kernel

end Dockstack.Ws
