import Dockstack.Docker.Containers
import Dockstack.Docker.StreamDelivery

/-!
# Streaming a stack's logs

The goroutines of `StreamStackLogs` (`internal/docker/logs.go:12–95`): for each container a worker
that runs `docker logs` and waits for its two emitters, a closer that waits for the workers, and
whoever receives from `out`. The processes, pipes and scanners are those of a streamed command. An
emitter gives its send up when the context is cancelled.
-/

namespace Dockstack.Docker

open Dockstack.Base

/-- `LogEntry`; `models.go:111–116`. -/
structure LogEntry where
  containerName : String
  message : Bytes
  stream : String
  timestamp : Bytes
  deriving DecidableEq

/-- The name of a stream; `logs.go:82–83`. -/
def Fd.name : Fd → String
  | .stdout => "stdout"
  | .stderr => "stderr"

/-- The name that a container's entries carry; `logs.go:22–27`. -/
def logsName (c : Summary) : String :=
  match c.names with
  | name :: _ => trimPrefix name "/"
  | [] => if 12 < c.id.length then .ofList (c.id.toList.take 12) else c.id

/-- The space, at which a line is cut. -/
def space : UInt8 := 32

/-- The entry of a line; `logs.go:60–68`. -/
def logEntry (containerName : String) (fd : Fd) (line : Bytes) : LogEntry :=
  let timestamp := line.takeWhile (· != space)
  let message := (line.dropWhile (· != space)).tail
  if message = [] then ⟨containerName, timestamp, fd.name, []⟩
  else ⟨containerName, message, fd.name, timestamp⟩

/-- What an emitter sends. -/
inductive LogsMsg where
  | line (fd : Fd) (text : Bytes)
  | scanError (fd : Fd)
  deriving DecidableEq

/-- The emitter that sends it. -/
def LogsMsg.fd : LogsMsg → Fd
  | .line fd _ => fd
  | .scanError fd => fd

/-- The entry that is sent; `logs.go:60–68` and `logs.go:77`. -/
def LogsMsg.entry (containerName : String) : LogsMsg → LogEntry
  | .line fd text => logEntry containerName fd text
  | .scanError fd =>
    ⟨containerName, utf8 ("log stream error: " ++ "bufio.Scanner: token too long"), fd.name, []⟩

/-- Where a worker stands: before the start of its process, at `streamWG.Wait()`, at `cmd.Wait()`,
through without a process, or through; `logs.go:29–86`. -/
inductive WorkerPhase where
  | starting
  | streaming
  | reaping
  | failed
  | finished
  deriving DecidableEq

/-- `wg.Done` has run. -/
def WorkerPhase.done : WorkerPhase → Bool
  | .failed => true
  | .finished => true
  | _ => false

/-- A worker, its process and its emitters. `written` records what the process has written. -/
structure LogsWorker where
  phase : WorkerPhase
  child : Child
  emitter : Fd → Emitter
  written : List (Fd × UInt8)

/-- A step of a worker, of its process or of one of its emitters. -/
inductive WorkerLabel where
  | start (ok : Bool)
  | write
  | exit (n : Nat)
  | kill
  | read (fd : Fd) (n : Nat)
  | scan (fd : Fd)
  | send (fd : Fd)
  | giveUp (fd : Fd)
  | join
  | reap
  deriving DecidableEq

/-- Who receives from `out`: it does, has seen `out` closed, or has stopped. -/
inductive LogsConsumer where
  | receiving
  | ended
  | stopped
  deriving DecidableEq

/-- The capacity of a pipe, and the containers of the stack. -/
structure LogsEnv (n : Nat) where
  cap : Nat
  cap_pos : 0 < cap
  containers : Fin n → Summary

/-- The state of all parties. `closer` says that the closer is through, `received` records what the
consumer has received and from whom, oldest first. -/
structure LogsState (n : Nat) where
  worker : Fin n → LogsWorker
  cancelled : Bool
  closer : Bool
  closes : Nat
  consumer : LogsConsumer
  received : List (Fin n × LogsMsg)

/-- One step: which party moves, and its choice. -/
inductive LogsLabel (n : Nat) where
  | worker (w : Fin n) (l : WorkerLabel)
  | cancel
  | closeOut
  | observeClose
  | stop
  deriving DecidableEq

namespace LogsWorker

/-- Before the process starts, with all that it will write. -/
def init (output : List (Fd × UInt8)) : LogsWorker :=
  ⟨.starting, .running output, fun _ ↦ ⟨.idle, .empty⟩, []⟩

/-- Replace one emitter. -/
@[simps phase child written]
def setEmitter (wk : LogsWorker) (fd : Fd) (e : Emitter) : LogsWorker :=
  { wk with emitter := Function.update wk.emitter fd e }

/-- One emitter is replaced, the other stays. -/
@[simp] theorem setEmitter_emitter (wk : LogsWorker) (fd fd' : Fd) (e : Emitter) :
    (wk.setEmitter fd e).emitter fd' = if fd' = fd then e else wk.emitter fd' :=
  Function.update_apply ..

/-- The process is started, or the worker returns; `logs.go:36–48`. A cancelled context starts no
process. -/
def start (wk : LogsWorker) (cancelled ok : Bool) : Option LogsWorker :=
  if wk.phase ≠ .starting then none
  else if ok then
    if cancelled then none
    else some { wk with
      phase := .streaming
      emitter := fun fd ↦ ⟨.scanning, (wk.emitter fd).reader⟩ }
  else some { wk with phase := .failed }

/-- The process has started and not been waited for. -/
def hasProcess (wk : LogsWorker) : Bool := wk.phase == .streaming || wk.phase == .reaping

/-- The process writes its next byte, if there is room in the pipe. -/
def write (wk : LogsWorker) (cap : Nat) : Option LogsWorker :=
  match wk.child with
  | .running ((fd, b) :: rest) =>
    if wk.hasProcess then
      ((wk.emitter fd).reader.write cap b).map fun r ↦
        { wk with child := .running rest, written := wk.written ++ [(fd, b)] }.setEmitter fd
          ⟨(wk.emitter fd).phase, r⟩
    else none
  | _ => none

/-- The process has written everything and exits. -/
def exit (wk : LogsWorker) (n : Nat) : Option LogsWorker :=
  match wk.child with
  | .running [] => if wk.hasProcess then some { wk with child := .exited (.code n) } else none
  | _ => none

/-- `exec.CommandContext` kills the process once the context is cancelled. -/
def kill (wk : LogsWorker) (cancelled : Bool) : Option LogsWorker :=
  match wk.child with
  | .running _ =>
    if cancelled ∧ wk.hasProcess then some { wk with child := .exited .killed } else none
  | .exited _ => none

/-- An emitter's scanner reads from its pipe. -/
def read (wk : LogsWorker) (fd : Fd) (n : Nat) : Option LogsWorker :=
  if (wk.emitter fd).phase = .scanning then
    ((wk.emitter fd).reader.read scannerMax n).map fun r ↦ wk.setEmitter fd ⟨.scanning, r⟩
  else none

/-- An emitter's `sc.Scan()` returns: with a line to send, or with an empty one to pass over, or for
good; `logs.go:55–76`. -/
def scan (wk : LogsWorker) (cancelled : Bool) (fd : Fd) : Option LogsWorker :=
  if (wk.emitter fd).phase = .scanning then
    match (wk.emitter fd).reader.scan scannerMax wk.child.isExited with
    | none => none
    | some (.token text r) =>
      some (wk.setEmitter fd (if text = [] then ⟨.scanning, r⟩ else ⟨.sending text, r⟩))
    | some .tooLong =>
      some (wk.setEmitter fd ⟨if cancelled then .finished else .failing, (wk.emitter fd).reader⟩)
    | some .done => some (wk.setEmitter fd ⟨.finished, (wk.emitter fd).reader⟩)
  else none

/-- What an emitter offers on `out`, and the worker once it is received; `logs.go:70` and
`logs.go:77`. -/
def send (wk : LogsWorker) (fd : Fd) : Option (LogsMsg × LogsWorker) :=
  match (wk.emitter fd).phase with
  | .sending text => some (.line fd text, wk.setEmitter fd ⟨.scanning, (wk.emitter fd).reader⟩)
  | .failing => some (.scanError fd, wk.setEmitter fd ⟨.finished, (wk.emitter fd).reader⟩)
  | _ => none

/-- `ctx.Done()` wins at a send; `logs.go:71–72` and `logs.go:78`. -/
def giveUp (wk : LogsWorker) (cancelled : Bool) (fd : Fd) : Option LogsWorker :=
  if cancelled = true ∧ (wk.emitter fd).phase.atSend = true then
    some (wk.setEmitter fd ⟨.finished, (wk.emitter fd).reader⟩)
  else none

/-- `streamWG.Wait()` returns; `logs.go:84`. -/
def join (wk : LogsWorker) : Option LogsWorker :=
  if wk.phase = .streaming ∧ (wk.emitter .stdout).phase = .finished ∧
      (wk.emitter .stderr).phase = .finished then
    some { wk with phase := .reaping }
  else none

/-- `cmd.Wait()` returns; `logs.go:85`. -/
def reap (wk : LogsWorker) : Option LogsWorker :=
  if wk.phase = .reaping ∧ wk.child.isExited = true then some { wk with phase := .finished }
  else none

/-- A step, with what it sends. -/
def step (cap : Nat) (cancelled : Bool) (wk : LogsWorker) :
    WorkerLabel → Option (Option LogsMsg × LogsWorker)
  | .start ok => (wk.start cancelled ok).map (none, ·)
  | .write => (wk.write cap).map (none, ·)
  | .exit n => (wk.exit n).map (none, ·)
  | .kill => (wk.kill cancelled).map (none, ·)
  | .read fd n => (wk.read fd n).map (none, ·)
  | .scan fd => (wk.scan cancelled fd).map (none, ·)
  | .send fd => (wk.send fd).map fun p ↦ (some p.1, p.2)
  | .giveUp fd => (wk.giveUp cancelled fd).map (none, ·)
  | .join => wk.join.map (none, ·)
  | .reap => wk.reap.map (none, ·)

end LogsWorker

namespace LogsState

variable {n : Nat}

/-- The goroutines are started; nothing has been sent. -/
def init (output : Fin n → List (Fd × UInt8)) : LogsState n :=
  ⟨fun w ↦ .init (output w), false, false, 0, .receiving, []⟩

/-- The consumer is at its receive and `out` is open. -/
def canReceive (s : LogsState n) : Bool := s.consumer == .receiving && s.closes == 0

/-- A worker moves; what it sends, the consumer receives. -/
def stepWorker (env : LogsEnv n) (s : LogsState n) (w : Fin n) (l : WorkerLabel) :
    Option (LogsState n) :=
  match (s.worker w).step env.cap s.cancelled l with
  | none => none
  | some (none, wk) => some { s with worker := Function.update s.worker w wk }
  | some (some m, wk) =>
    if s.canReceive then
      some { s with
        worker := Function.update s.worker w wk
        received := s.received ++ [(w, m)] }
    else none

/-- `wg.Wait()` returns and `out` is closed; `logs.go:89–92`. -/
def closeOut (s : LogsState n) : Option (LogsState n) :=
  if s.closer = false ∧ ∀ w, (s.worker w).phase.done = true then
    some { s with closer := true, closes := s.closes + 1 }
  else none

/-- One step of the system. -/
def step (env : LogsEnv n) (s : LogsState n) : LogsLabel n → Option (LogsState n)
  | .worker w l => s.stepWorker env w l
  | .cancel => if s.cancelled = true then none else some { s with cancelled := true }
  | .closeOut => s.closeOut
  | .observeClose =>
    if s.consumer = .receiving ∧ 0 < s.closes then some { s with consumer := .ended } else none
  | .stop => if s.consumer = .receiving then some { s with consumer := .stopped } else none

end LogsState

end Dockstack.Docker
