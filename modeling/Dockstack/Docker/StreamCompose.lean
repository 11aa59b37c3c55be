import Mathlib.Logic.Function.Basic
import Mathlib.Tactic.Simps.Basic
import Dockstack.Base.Machine
import Dockstack.Base.PipeReader

/-!
# Streaming a compose command

The goroutines of `StreamCompose` (`internal/docker/stacks.go:149–216`) once the command
has started: the main goroutine, one emitter for each pipe of the child process, the
waiter, and whoever receives from `out` (`RunCompose`, `stacks.go:218–226`, or a handler
that may stop receiving). A send on the unbuffered `out` and its receipt are one step of
sender and consumer together. The child writes byte by byte to two pipes of bounded
capacity and blocks on a full one; cancelling the context kills it, and a process that is
gone closes its ends of the pipes.
-/

namespace Dockstack.Docker

open Dockstack.Base

/-- The two outputs of the child process. -/
inductive Fd where
  | stdout
  | stderr
  deriving DecidableEq

/-- How the child ended. -/
inductive ExitStatus where
  | code (n : Nat)
  | killed
  deriving DecidableEq

/-- What `cmd.Wait()` reports when the command did not succeed. -/
inductive WaitError where
  | exit (status : ExitStatus)
  | context
  deriving DecidableEq

/-- What `cmd.Wait()` returns, `none` for nil; `interrupted` says that the context was
cancelled while the process had not been waited for. -/
def cmdWait : ExitStatus → Bool → Option WaitError
  | .code 0, interrupted => if interrupted then some .context else none
  | status, _ => some (.exit status)

/-- What is sent on `out`, by its origin. -/
inductive OutMsg where
  | header
  | line (fd : Fd) (text : Bytes)
  | scanError (fd : Fd)
  | heartbeat
  deriving DecidableEq

/-- Where an emitter stands: before its `go` statement, in `sc.Scan()`, at the send of a line
or of the scanner's error, or through; `stacks.go:179–189`. -/
inductive EmitterPhase where
  | idle
  | scanning
  | sending (text : Bytes)
  | failing
  | finished
  deriving DecidableEq

/-- The emitter is at a send on `out`. -/
def EmitterPhase.atSend : EmitterPhase → Bool
  | .sending _ => true
  | .failing => true
  | _ => false

/-- An emitter and the pipe that it scans. -/
structure Emitter where
  phase : EmitterPhase
  reader : PipeReader
  deriving DecidableEq

/-- The child process: what it has yet to write, or how it ended. -/
inductive Child where
  | running (pending : List (Fd × UInt8))
  | exited (status : ExitStatus)
  deriving DecidableEq

/-- Where the main goroutine stands: at the header, before the `go` statements, at the outer
`select`, at the inner one, or returned with `out` closed; `stacks.go:173–213`. -/
inductive MainPhase where
  | header
  | spawning
  | loop
  | heartbeat
  | returned
  deriving DecidableEq

/-- Where the waiter stands: before its `go` statement, at `wg.Wait()`, at `cmd.Wait()`, at
`close(done)`, or through; `stacks.go:193–197`. -/
inductive WaiterPhase where
  | idle
  | waiting
  | reaping
  | reaped
  | finished
  deriving DecidableEq

/-- The receiving side: it receives, saw `out` closed, took the error from `waitErr`, or
stopped receiving. -/
inductive Consumer where
  | receiving
  | closed
  | returned (err : Option WaitError)
  | abandoned
  deriving DecidableEq

/-- The capacity of a pipe, and the arguments to `docker`. -/
structure StreamEnv where
  cap : Nat
  cap_pos : 0 < cap
  cmdArgs : List String

/-- The state of all parties. `written` records what the child has written, `received` what
the consumer has received, both oldest first. -/
structure StreamState where
  main : MainPhase
  emitter : Fd → Emitter
  waiter : WaiterPhase
  child : Child
  cancelled : Bool
  interrupted : Bool
  written : List (Fd × UInt8)
  done : Bool
  waitErr : List (Option WaitError)
  closes : Nat
  consumer : Consumer
  received : List OutMsg

/-- One step: which party moves, and its choice. -/
inductive StreamLabel where
  | write
  | exit (n : Nat)
  | cancel
  | kill
  | read (fd : Fd) (n : Nat)
  | scan (fd : Fd)
  | deliver (fd : Fd)
  | deliverMain
  | spawn
  | tick
  | returnMain
  | wgWait
  | reap
  | closeDone
  | observeClose
  | takeErr
  | abandon
  deriving DecidableEq

/-- The scanner's buffer limit; `stacks.go:182`. -/
def scannerMax : Nat := 1024 * 1024

/-- The bytes of a string. -/
def utf8 (s : String) : Bytes := s.toUTF8.data.toList

/-- The value sent on a tick, a zero-width space; `stacks.go:28`. -/
def heartbeat : String := "\u200b"

/-- The text of a value on `out`; `stacks.go:175`, `stacks.go:184`, `stacks.go:187` and
`stacks.go:207`. -/
def OutMsg.text (env : StreamEnv) : OutMsg → Bytes
  | .header => utf8 ("$ " ++ " ".intercalate ("docker" :: env.cmdArgs))
  | .line _ text => text
  | .scanError _ => utf8 ("log stream error: " ++ "bufio.Scanner: token too long")
  | .heartbeat => utf8 Docker.heartbeat

/-- The process is gone, so its ends of the pipes are closed. -/
def Child.isExited : Child → Bool
  | .running _ => false
  | .exited _ => true

/-- What the child has yet to write. -/
def Child.pending : Child → List (Fd × UInt8)
  | .running pending => pending
  | .exited _ => []

/-- A process that is gone writes nothing. -/
theorem Child.pending_of_isExited {c : Child} (h : c.isExited = true) : c.pending = [] := by
  cases c with
  | running pending => contradiction
  | exited status => rfl

/-- The bytes of one output. -/
def bytesOf (fd : Fd) (output : List (Fd × UInt8)) : Bytes :=
  output.filterMap (fun w ↦ if w.1 = fd then some w.2 else none)

@[simp] theorem bytesOf_nil (fd : Fd) : bytesOf fd [] = [] := rfl

/-- A byte belongs to the output that it is written to. -/
theorem bytesOf_cons (fd fd' : Fd) (b : UInt8) (rest : List (Fd × UInt8)) :
    bytesOf fd ((fd', b) :: rest) = if fd' = fd then b :: bytesOf fd rest else bytesOf fd rest := by
  rw [bytesOf, List.filterMap_cons]
  split <;> split <;> simp_all [bytesOf]

@[simp] theorem bytesOf_append (fd : Fd) (output output' : List (Fd × UInt8)) :
    bytesOf fd (output ++ output') = bytesOf fd output ++ bytesOf fd output' :=
  List.filterMap_append

namespace StreamState

/-- The command has started; nothing has been sent. -/
def init (output : List (Fd × UInt8)) : StreamState where
  main := .header
  emitter _ := ⟨.idle, .empty⟩
  waiter := .idle
  child := .running output
  cancelled := false
  interrupted := false
  written := []
  done := false
  waitErr := []
  closes := 0
  consumer := .receiving
  received := []

/-- Replace one emitter. -/
@[simps main waiter child cancelled interrupted written done waitErr closes consumer received]
def setEmitter (s : StreamState) (fd : Fd) (e : Emitter) : StreamState :=
  { s with emitter := Function.update s.emitter fd e }

/-- One emitter is replaced, the other stays. -/
@[simp] theorem setEmitter_emitter (s : StreamState) (fd fd' : Fd) (e : Emitter) :
    (s.setEmitter fd e).emitter fd' = if fd' = fd then e else s.emitter fd' :=
  Function.update_apply ..

/-- The consumer is at its receive and `out` is open. -/
def canReceive (s : StreamState) : Bool := s.consumer == .receiving && s.closes == 0

/-- The child writes its next byte, if there is room in the pipe. -/
def write (env : StreamEnv) (s : StreamState) : Option StreamState :=
  match s.child with
  | .running ((fd, b) :: rest) =>
    match (s.emitter fd).reader.write env.cap b with
    | none => none
    | some r => some ({ s with
        child := .running rest, written := s.written ++ [(fd, b)] }.setEmitter fd
          ⟨(s.emitter fd).phase, r⟩)
  | _ => none

/-- The child has written everything and exits. -/
def exit (s : StreamState) (n : Nat) : Option StreamState :=
  match s.child with
  | .running [] => some { s with child := .exited (.code n) }
  | _ => none

/-- The context is cancelled. -/
def cancel (s : StreamState) : Option StreamState :=
  if s.cancelled = true then none else some { s with cancelled := true }

/-- `exec.CommandContext` kills the process once the context is cancelled, whether it still
runs or has only not been waited for. -/
def kill (s : StreamState) : Option StreamState :=
  if s.cancelled = true ∧ s.interrupted = false ∧ s.waiter ≠ .reaped ∧ s.waiter ≠ .finished then
    match s.child with
    | .running _ => some { s with child := .exited .killed, interrupted := true }
    | .exited _ => some { s with interrupted := true }
  else none

/-- An emitter's scanner reads from its pipe. -/
def read (s : StreamState) (fd : Fd) (n : Nat) : Option StreamState :=
  if (s.emitter fd).phase = .scanning then
    match (s.emitter fd).reader.read scannerMax n with
    | none => none
    | some r => some (s.setEmitter fd ⟨.scanning, r⟩)
  else none

/-- An emitter's `sc.Scan()` returns: with a line to send, or for good; `stacks.go:183–188`.
Without an error the emitter is through and `wg.Done` runs. -/
def scan (s : StreamState) (fd : Fd) : Option StreamState :=
  if (s.emitter fd).phase = .scanning then
    match (s.emitter fd).reader.scan scannerMax s.child.isExited with
    | none => none
    | some (.token text r) => some (s.setEmitter fd ⟨.sending text, r⟩)
    | some .tooLong => some (s.setEmitter fd ⟨.failing, (s.emitter fd).reader⟩)
    | some .done => some (s.setEmitter fd ⟨.finished, (s.emitter fd).reader⟩)
  else none

/-- The consumer receives what an emitter sends. -/
def deliver (s : StreamState) (fd : Fd) : Option StreamState :=
  if s.canReceive then
    match (s.emitter fd).phase with
    | .sending text =>
      some ({ s with received := s.received ++ [OutMsg.line fd text] }.setEmitter fd
        ⟨.scanning, (s.emitter fd).reader⟩)
    | .failing =>
      some ({ s with received := s.received ++ [OutMsg.scanError fd] }.setEmitter fd
        ⟨.finished, (s.emitter fd).reader⟩)
    | _ => none
  else none

/-- The consumer receives what the main goroutine sends. -/
def deliverMain (s : StreamState) : Option StreamState :=
  if s.canReceive then
    match s.main with
    | .header => some { s with main := .spawning, received := s.received ++ [.header] }
    | .heartbeat => some { s with main := .loop, received := s.received ++ [.heartbeat] }
    | _ => none
  else none

/-- The `go` statements, one step: until all goroutines are started, the waiter can only wait;
`stacks.go:177–197`. -/
def spawn (s : StreamState) : Option StreamState :=
  if s.main = .spawning then
    some { s with
      main := .loop
      waiter := .waiting
      emitter := fun fd ↦ ⟨.scanning, (s.emitter fd).reader⟩ }
  else none

/-- The ticker wins the outer `select`; `stacks.go:205`. -/
def tick (s : StreamState) : Option StreamState :=
  if s.main = .loop then some { s with main := .heartbeat } else none

/-- `done` wins a `select`: the main goroutine returns and closes `out`; `stacks.go:174`,
`stacks.go:203–204` and `stacks.go:208–209`. -/
def returnMain (s : StreamState) : Option StreamState :=
  if (s.main = .loop ∨ s.main = .heartbeat) ∧ s.done = true then
    some { s with main := .returned, closes := s.closes + 1 }
  else none

/-- `wg.Wait()` returns; `stacks.go:194`. -/
def wgWait (s : StreamState) : Option StreamState :=
  if s.waiter = .waiting ∧ (s.emitter .stdout).phase = .finished ∧
      (s.emitter .stderr).phase = .finished then
    some { s with waiter := .reaping }
  else none

/-- `waitErr <- cmd.Wait()`, on a channel with room for one value; `stacks.go:195`. -/
def reap (s : StreamState) : Option StreamState :=
  match s.child with
  | .running _ => none
  | .exited status =>
    if s.waiter = .reaping ∧ s.waitErr = [] then
      some { s with waiter := .reaped, waitErr := [cmdWait status s.interrupted] }
    else none

/-- `close(done)`; `stacks.go:196`. -/
def closeDone (s : StreamState) : Option StreamState :=
  if s.waiter = .reaped then some { s with waiter := .finished, done := true } else none

/-- The consumer's `range` ends; `stacks.go:223`. -/
def observeClose (s : StreamState) : Option StreamState :=
  if s.consumer = .receiving ∧ 0 < s.closes then some { s with consumer := .closed } else none

/-- `<-waitErr`; `stacks.go:225`. -/
def takeErr (s : StreamState) : Option StreamState :=
  match s.waitErr with
  | [] => none
  | err :: rest =>
    if s.consumer = .closed then some { s with consumer := .returned err, waitErr := rest }
    else none

/-- The consumer stops receiving, as the streaming handler does when a write to the client
fails. -/
def abandon (s : StreamState) : Option StreamState :=
  if s.consumer = .receiving then some { s with consumer := .abandoned } else none

/-- One step of the system. -/
def step (env : StreamEnv) (s : StreamState) : StreamLabel → Option StreamState
  | .write => s.write env
  | .exit n => s.exit n
  | .cancel => s.cancel
  | .kill => s.kill
  | .read fd n => s.read fd n
  | .scan fd => s.scan fd
  | .deliver fd => s.deliver fd
  | .deliverMain => s.deliverMain
  | .spawn => s.spawn
  | .tick => s.tick
  | .returnMain => s.returnMain
  | .wgWait => s.wgWait
  | .reap => s.reap
  | .closeDone => s.closeDone
  | .observeClose => s.observeClose
  | .takeErr => s.takeErr
  | .abandon => s.abandon

/-- What a step does, by its label. -/
inductive Effect (env : StreamEnv) (s : StreamState) : StreamLabel → StreamState → Prop where
  | write {fd : Fd} {b : UInt8} {rest : List (Fd × UInt8)} {r : PipeReader}
      (hc : s.child = .running ((fd, b) :: rest))
      (hr : (s.emitter fd).reader.write env.cap b = some r) :
      Effect env s .write ({ s with
        child := .running rest, written := s.written ++ [(fd, b)] }.setEmitter fd
          ⟨(s.emitter fd).phase, r⟩)
  | exit {n : Nat} (hc : s.child = .running []) :
      Effect env s (.exit n) { s with child := .exited (.code n) }
  | cancel (hk : s.cancelled = false) : Effect env s .cancel { s with cancelled := true }
  | kill {pending : List (Fd × UInt8)} (hk : s.cancelled = true) (hi : s.interrupted = false)
      (hc : s.child = .running pending) :
      Effect env s .kill { s with child := .exited .killed, interrupted := true }
  | killExited {status : ExitStatus} (hk : s.cancelled = true) (hi : s.interrupted = false)
      (hw : s.waiter ≠ .reaped ∧ s.waiter ≠ .finished) (hc : s.child = .exited status) :
      Effect env s .kill { s with interrupted := true }
  | read {fd : Fd} {n : Nat} {r : PipeReader} (hp : (s.emitter fd).phase = .scanning)
      (hr : (s.emitter fd).reader.read scannerMax n = some r) :
      Effect env s (.read fd n) (s.setEmitter fd ⟨.scanning, r⟩)
  | token {fd : Fd} {text : Bytes} {r : PipeReader} (hp : (s.emitter fd).phase = .scanning)
      (hs : (s.emitter fd).reader.scan scannerMax s.child.isExited = some (.token text r)) :
      Effect env s (.scan fd) (s.setEmitter fd ⟨.sending text, r⟩)
  | tooLong {fd : Fd} (hp : (s.emitter fd).phase = .scanning)
      (hs : (s.emitter fd).reader.scan scannerMax s.child.isExited = some .tooLong) :
      Effect env s (.scan fd) (s.setEmitter fd ⟨.failing, (s.emitter fd).reader⟩)
  | eof {fd : Fd} (hp : (s.emitter fd).phase = .scanning)
      (hs : (s.emitter fd).reader.scan scannerMax s.child.isExited = some .done) :
      Effect env s (.scan fd) (s.setEmitter fd ⟨.finished, (s.emitter fd).reader⟩)
  | line {fd : Fd} {text : Bytes} (hr : s.canReceive = true)
      (hp : (s.emitter fd).phase = .sending text) :
      Effect env s (.deliver fd) ({ s with
        received := s.received ++ [OutMsg.line fd text] }.setEmitter fd
          ⟨.scanning, (s.emitter fd).reader⟩)
  | scanError {fd : Fd} (hr : s.canReceive = true) (hp : (s.emitter fd).phase = .failing) :
      Effect env s (.deliver fd) ({ s with
        received := s.received ++ [OutMsg.scanError fd] }.setEmitter fd
          ⟨.finished, (s.emitter fd).reader⟩)
  | header (hr : s.canReceive = true) (hm : s.main = .header) :
      Effect env s .deliverMain
        { s with main := .spawning, received := s.received ++ [OutMsg.header] }
  | heartbeat (hr : s.canReceive = true) (hm : s.main = .heartbeat) :
      Effect env s .deliverMain
        { s with main := .loop, received := s.received ++ [OutMsg.heartbeat] }
  | spawn (hm : s.main = .spawning) :
      Effect env s .spawn { s with
        main := .loop
        waiter := .waiting
        emitter := fun fd ↦ ⟨.scanning, (s.emitter fd).reader⟩ }
  | tick (hm : s.main = .loop) : Effect env s .tick { s with main := .heartbeat }
  | returnMain (hm : s.main = .loop ∨ s.main = .heartbeat) (hd : s.done = true) :
      Effect env s .returnMain { s with main := .returned, closes := s.closes + 1 }
  | wgWait (hw : s.waiter = .waiting) (hf : ∀ fd, (s.emitter fd).phase = .finished) :
      Effect env s .wgWait { s with waiter := .reaping }
  | reap {status : ExitStatus} (hc : s.child = .exited status) (hw : s.waiter = .reaping)
      (he : s.waitErr = []) :
      Effect env s .reap
        { s with waiter := .reaped, waitErr := [cmdWait status s.interrupted] }
  | closeDone (hw : s.waiter = .reaped) :
      Effect env s .closeDone { s with waiter := .finished, done := true }
  | observeClose (hc : s.consumer = .receiving) (ho : 0 < s.closes) :
      Effect env s .observeClose { s with consumer := .closed }
  | takeErr {err : Option WaitError} {rest : List (Option WaitError)}
      (he : s.waitErr = err :: rest) (hc : s.consumer = .closed) :
      Effect env s .takeErr { s with consumer := .returned err, waitErr := rest }
  | abandon (hc : s.consumer = .receiving) :
      Effect env s .abandon { s with consumer := .abandoned }

variable {env : StreamEnv} {s s' : StreamState} {l : StreamLabel}

private theorem write_effect (h : s.write env = some s') : Effect env s .write s' := by
  unfold write at h
  split at h
  · next hc =>
    split at h
    · contradiction
    · next hr =>
      obtain rfl := Option.some.inj h
      exact .write hc hr
  · contradiction

private theorem kill_effect (h : s.kill = some s') : Effect env s .kill s' := by
  unfold kill at h
  split at h
  · next hk =>
    split at h
    · next hc =>
      obtain rfl := Option.some.inj h
      exact .kill hk.1 hk.2.1 hc
    · next hc =>
      obtain rfl := Option.some.inj h
      exact .killExited hk.1 hk.2.1 hk.2.2 hc
  · contradiction

private theorem read_effect {fd : Fd} {n : Nat} (h : s.read fd n = some s') :
    Effect env s (.read fd n) s' := by
  unfold read at h
  split at h
  · next hp =>
    split at h
    · contradiction
    · next hr =>
      obtain rfl := Option.some.inj h
      exact .read hp hr
  · contradiction

private theorem scan_effect {fd : Fd} (h : s.scan fd = some s') : Effect env s (.scan fd) s' := by
  unfold scan at h
  split at h
  · next hp =>
    split at h
    · contradiction
    · next hs =>
      obtain rfl := Option.some.inj h
      exact .token hp hs
    · next hs =>
      obtain rfl := Option.some.inj h
      exact .tooLong hp hs
    · next hs =>
      obtain rfl := Option.some.inj h
      exact .eof hp hs
  · contradiction

private theorem deliver_effect {fd : Fd} (h : s.deliver fd = some s') :
    Effect env s (.deliver fd) s' := by
  unfold deliver at h
  split at h
  · next hr =>
    split at h
    · next hp =>
      obtain rfl := Option.some.inj h
      exact .line hr hp
    · next hp =>
      obtain rfl := Option.some.inj h
      exact .scanError hr hp
    · contradiction
  · contradiction

private theorem deliverMain_effect (h : s.deliverMain = some s') :
    Effect env s .deliverMain s' := by
  unfold deliverMain at h
  split at h
  · next hr =>
    split at h
    · next hm =>
      obtain rfl := Option.some.inj h
      exact .header hr hm
    · next hm =>
      obtain rfl := Option.some.inj h
      exact .heartbeat hr hm
    · contradiction
  · contradiction

private theorem reap_effect (h : s.reap = some s') : Effect env s .reap s' := by
  unfold reap at h
  split at h
  · contradiction
  · next hc =>
    split at h
    · next hw =>
      obtain rfl := Option.some.inj h
      exact .reap hc hw.1 hw.2
    · contradiction

private theorem takeErr_effect (h : s.takeErr = some s') : Effect env s .takeErr s' := by
  unfold takeErr at h
  split at h
  · contradiction
  · next he =>
    split at h
    · next hc =>
      obtain rfl := Option.some.inj h
      exact .takeErr he hc
    · contradiction

/-- Only a consumer that keeps receiving can receive. -/
theorem consumer_of_canReceive (h : s.canReceive = true) : s.consumer = .receiving := by
  simp only [canReceive, Bool.and_eq_true, beq_iff_eq] at h
  exact h.1

/-- Every step has the effect of its label. -/
theorem step_effect (h : step env s l = some s') : Effect env s l s' := by
  cases l with
  | write => exact write_effect h
  | exit n =>
    simp only [step, exit] at h
    split at h
    · next hc =>
      obtain rfl := Option.some.inj h
      exact .exit hc
    · contradiction
  | cancel =>
    obtain ⟨hk, ⟨⟩⟩ := Option.ite_none_left_eq_some.mp h
    exact .cancel (Bool.eq_false_iff.mpr hk)
  | kill => exact kill_effect h
  | read fd n => exact read_effect h
  | scan fd => exact scan_effect h
  | deliver fd => exact deliver_effect h
  | deliverMain => exact deliverMain_effect h
  | spawn =>
    obtain ⟨hm, ⟨⟩⟩ := Option.ite_none_right_eq_some.mp h
    exact .spawn hm
  | tick =>
    obtain ⟨hm, ⟨⟩⟩ := Option.ite_none_right_eq_some.mp h
    exact .tick hm
  | returnMain =>
    obtain ⟨⟨hm, hd⟩, ⟨⟩⟩ := Option.ite_none_right_eq_some.mp h
    exact .returnMain hm hd
  | wgWait =>
    obtain ⟨⟨hw, hout, herr⟩, ⟨⟩⟩ := Option.ite_none_right_eq_some.mp h
    refine .wgWait hw fun fd ↦ ?_
    cases fd with
    | stdout => exact hout
    | stderr => exact herr
  | reap => exact reap_effect h
  | closeDone =>
    obtain ⟨hw, ⟨⟩⟩ := Option.ite_none_right_eq_some.mp h
    exact .closeDone hw
  | observeClose =>
    obtain ⟨⟨hc, ho⟩, ⟨⟩⟩ := Option.ite_none_right_eq_some.mp h
    exact .observeClose hc ho
  | takeErr => exact takeErr_effect h
  | abandon =>
    obtain ⟨hc, ⟨⟩⟩ := Option.ite_none_right_eq_some.mp h
    exact .abandon hc

end StreamState

end Dockstack.Docker
