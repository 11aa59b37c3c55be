import Dockstack.Docker.StreamCompose

/-!
# What the parties of a streamed command wait for

The order that the channels, the wait group and the `go` statements of `StreamCompose`
(`internal/docker/stacks.go:173–213`) impose on its goroutines, as one invariant of every
run, and a measure of the work that is left. Only ticks, heartbeats and a cancellation
leave the measure as it is.
-/

namespace Dockstack.Docker

open Dockstack.Base

/-- The steps that a phase of an emitter leaves to take, apart from the bytes to read. -/
def EmitterPhase.work : EmitterPhase → Nat
  | .idle => 2
  | .scanning => 2
  | .sending _ => 3
  | .failing => 1
  | .finished => 0

/-- The work left to an emitter. -/
def Emitter.work (e : Emitter) : Nat := e.phase.work + e.reader.work

/-- The work left to the child: each byte is written, read and scanned. -/
def Child.work : Child → Nat
  | .running pending => 4 * pending.length + 1
  | .exited _ => 0

/-- The work left to the main goroutine, heartbeats apart. -/
def MainPhase.work : MainPhase → Nat
  | .header => 3
  | .spawning => 2
  | .loop => 1
  | .heartbeat => 1
  | .returned => 0

/-- The work left to the waiter. -/
def WaiterPhase.work : WaiterPhase → Nat
  | .idle => 3
  | .waiting => 3
  | .reaping => 2
  | .reaped => 1
  | .finished => 0

/-- The work left to the consumer. -/
def Consumer.work : Consumer → Nat
  | .receiving => 2
  | .closed => 1
  | .returned _ => 0
  | .abandoned => 0

namespace StreamState

/-- The work left to all parties. -/
def work (s : StreamState) : Nat :=
  (s.child.work + (!s.interrupted).toNat) +
    ((s.emitter .stdout).work + (s.emitter .stderr).work) +
      (s.main.work + s.waiter.work + s.consumer.work)

/-- A step that a goroutine, the child or a consumer that receives takes towards its end:
no tick or heartbeat, and nothing that the client decides. -/
def Advances (s : StreamState) (l : StreamLabel) : Prop :=
  l ≠ .tick ∧ l ≠ .cancel ∧ l ≠ .abandon ∧ (l = .deliverMain → s.main = .header)

/-- The waiter is past `wg.Wait()`. -/
def joined (s : StreamState) : Prop :=
  s.waiter = .reaping ∨ s.waiter = .reaped ∨ s.waiter = .finished

/-- The waiter is past `waitErr <- cmd.Wait()`. -/
def hasReaped (s : StreamState) : Prop := s.waiter = .reaped ∨ s.waiter = .finished

/-- The consumer took the error from `waitErr`. -/
def hasReturned (s : StreamState) : Prop := ∃ err, s.consumer = .returned err

/-- Who is past which point before whom. -/
structure Ordered (s : StreamState) : Prop where
  spawned : s.waiter = .idle ↔ s.main = .header ∨ s.main = .spawning
  idle : ∀ fd, (s.emitter fd).phase = .idle ↔ s.waiter = .idle
  joined : s.joined → ∀ fd, (s.emitter fd).phase = .finished
  unreaped : ¬ s.hasReaped → s.waitErr = []
  reaped : s.hasReaped → ∃ status, s.child = .exited status ∧
    ((s.consumer = .returned (cmdWait status s.interrupted) ∧ s.waitErr = []) ∨
      (¬ s.hasReturned ∧ s.waitErr = [cmdWait status s.interrupted]))
  interrupted : s.interrupted = true → s.cancelled = true ∧ s.child.isExited = true
  done : s.done = true ↔ s.waiter = .finished
  returned : s.main = .returned → s.waiter = .finished
  closes : s.closes = if s.main = .returned then 1 else 0
  closed : s.consumer = .closed ∨ s.hasReturned → s.main = .returned

variable {env : StreamEnv} {s s' : StreamState} {l : StreamLabel} {fd : Fd}

/-- At a `select` the main goroutine is past the `go` statements. -/
theorem main_ne_of_selecting (h : s.main = .loop ∨ s.main = .heartbeat) :
    s.main ≠ .header ∧ s.main ≠ .spawning ∧ s.main ≠ .returned := by
  rcases h with h | h
  · simp [h]
  · simp [h]

/-- While the main goroutine runs, `out` is open. -/
theorem Ordered.closes_eq_zero (h : s.Ordered) (hm : s.main ≠ .returned) : s.closes = 0 := by
  rw [h.closes, if_neg hm]

/-- Before anything is sent, all is in order. -/
theorem ordered_init (output : List (Fd × UInt8)) : (init output).Ordered := by
  constructor <;> simp [init, StreamState.joined, hasReaped, hasReturned]

/-- A child that runs has not been reaped. -/
theorem Ordered.not_hasReaped (h : s.Ordered) {pending : List (Fd × UInt8)}
    (hc : s.child = .running pending) : ¬ s.hasReaped := by
  intro hr
  obtain ⟨status, hstatus, -⟩ := h.reaped hr
  rw [hc] at hstatus
  cases hstatus

/-- Until the consumer takes it, `waitErr` holds the result of `cmd.Wait()`. -/
theorem Ordered.waitErr_eq (h : s.Ordered) (hr : s.hasReaped) (hn : ¬ s.hasReturned) :
    ∃ status, s.child = .exited status ∧ s.waitErr = [cmdWait status s.interrupted] := by
  obtain ⟨status, hstatus, ⟨hret, -⟩ | ⟨-, herr⟩⟩ := h.reaped hr
  · exact absurd ⟨_, hret⟩ hn
  · exact ⟨status, hstatus, herr⟩

private theorem Ordered.setEmitter {e : Emitter} (h : s.Ordered)
    (hidle : e.phase = .idle ↔ (s.emitter fd).phase = .idle)
    (hfinished : (s.emitter fd).phase = .finished → e.phase = .finished) :
    (s.setEmitter fd e).Ordered := by
  refine { h with idle := fun fd' ↦ ?_, joined := fun hj fd' ↦ ?_ }
  · rw [setEmitter_emitter]
    split
    · next heq => exact hidle.trans (h.idle fd)
    · exact h.idle fd'
  · rw [setEmitter_emitter]
    split
    · exact hfinished (h.joined hj fd)
    · exact h.joined hj fd'

private theorem Ordered.ofRunning (h : s.Ordered) {pending : List (Fd × UInt8)}
    (hc : s.child = .running pending) (child : Child) (written : List (Fd × UInt8)) :
    ({ s with child := child, written := written } : StreamState).Ordered :=
  { h with
    reaped := fun hr ↦ absurd hr (h.not_hasReaped hc)
    interrupted := fun hi ↦ by
      have hexited := (h.interrupted hi).2
      rw [hc] at hexited
      contradiction }

private theorem Ordered.interrupt (h : s.Ordered) (hk : s.cancelled = true)
    (hw : ¬ s.hasReaped) (hc : s.child.isExited = true) :
    ({ s with interrupted := true } : StreamState).Ordered :=
  { h with reaped := fun hr ↦ absurd hr hw, interrupted := fun _ ↦ ⟨hk, hc⟩ }

private theorem Ordered.receive (h : s.Ordered) (received : List OutMsg) :
    ({ s with received := received } : StreamState).Ordered := { h with }

private theorem Ordered.setMain (h : s.Ordered) (m : MainPhase) (hreturned : s.main ≠ .returned)
    (hm : m ≠ .returned)
    (hspawned : (m = .header ∨ m = .spawning) ↔ (s.main = .header ∨ s.main = .spawning)) :
    ({ s with main := m } : StreamState).Ordered where
  spawned := h.spawned.trans hspawned.symm
  idle := h.idle
  joined := h.joined
  unreaped := h.unreaped
  reaped := h.reaped
  interrupted := h.interrupted
  done := h.done
  returned := fun hr ↦ absurd hr hm
  closes := by
    rw [if_neg hm]
    exact h.closes_eq_zero hreturned
  closed := fun hc ↦ absurd (h.closed hc) hreturned

private theorem Ordered.spawn (h : s.Ordered) (hm : s.main = .spawning) :
    ({ s with
      main := .loop
      waiter := .waiting
      emitter := fun fd ↦ ⟨.scanning, (s.emitter fd).reader⟩ } : StreamState).Ordered := by
  have hw : s.waiter = .idle := h.spawned.mpr (.inr hm)
  have hreturned : s.main ≠ .returned := by simp [hm]
  have hdone := h.done
  rw [hw] at hdone
  exact {
    spawned := by simp
    idle := by simp
    joined := by simp [StreamState.joined]
    unreaped := fun _ ↦ h.unreaped (by simp [hasReaped, hw])
    reaped := by simp [hasReaped]
    interrupted := h.interrupted
    done := by simpa using hdone
    returned := by simp
    closes := h.closes_eq_zero hreturned
    closed := fun hc ↦ absurd (h.closed hc) hreturned }

private theorem Ordered.returnMain (h : s.Ordered) (hm : s.main = .loop ∨ s.main = .heartbeat)
    (hd : s.done = true) :
    ({ s with main := .returned, closes := s.closes + 1 } : StreamState).Ordered := by
  have hw : s.waiter = .finished := h.done.mp hd
  have hcloses := h.closes_eq_zero (main_ne_of_selecting hm).2.2
  exact { h with
    spawned := by simp [hw]
    returned := fun _ ↦ hw
    closes := by simp [hcloses]
    closed := fun _ ↦ rfl }

private theorem Ordered.wgWait (h : s.Ordered) (hw : s.waiter = .waiting)
    (hf : ∀ fd, (s.emitter fd).phase = .finished) :
    ({ s with waiter := .reaping } : StreamState).Ordered := by
  have hspawned := h.spawned
  have hdone := h.done
  rw [hw] at hspawned hdone
  exact { h with
    spawned := by simpa using hspawned
    idle := by simp [hf]
    joined := fun _ ↦ hf
    unreaped := fun _ ↦ h.unreaped (by simp [hasReaped, hw])
    reaped := by simp [hasReaped]
    done := by simpa using hdone
    returned := fun hm ↦ absurd (h.returned hm) (by simp [hw]) }

private theorem Ordered.reap (h : s.Ordered) {status : ExitStatus}
    (hc : s.child = .exited status) (hw : s.waiter = .reaping) :
    ({ s with waiter := .reaped, waitErr := [cmdWait status s.interrupted] } :
      StreamState).Ordered := by
  have hf := h.joined (.inl hw)
  have hmain : s.main ≠ .returned := fun hm ↦ absurd (h.returned hm) (by simp [hw])
  have hspawned := h.spawned
  have hdone := h.done
  rw [hw] at hspawned hdone
  exact { h with
    spawned := by simpa using hspawned
    idle := by simp [hf]
    joined := fun _ ↦ hf
    unreaped := by simp [hasReaped]
    reaped := fun _ ↦ ⟨status, hc, .inr ⟨fun hr ↦ hmain (h.closed (.inr hr)), rfl⟩⟩
    done := by simpa using hdone
    returned := fun hm ↦ absurd hm hmain }

private theorem Ordered.closeDone (h : s.Ordered) (hw : s.waiter = .reaped) :
    ({ s with waiter := .finished, done := true } : StreamState).Ordered := by
  have hf := h.joined (.inr (.inl hw))
  have hspawned := h.spawned
  rw [hw] at hspawned
  exact { h with
    spawned := by simpa using hspawned
    idle := by simp [hf]
    joined := fun _ ↦ hf
    unreaped := by simp [hasReaped]
    reaped := fun _ ↦ h.reaped (.inl hw)
    done := by simp
    returned := fun _ ↦ rfl }

private theorem Ordered.observeClose (h : s.Ordered) (hc : s.consumer = .receiving)
    (ho : 0 < s.closes) : ({ s with consumer := .closed } : StreamState).Ordered := by
  have hmain : s.main = .returned := by
    by_contra hm
    rw [h.closes_eq_zero hm] at ho
    contradiction
  refine { h with reaped := fun hr ↦ ?_, closed := fun _ ↦ hmain }
  obtain ⟨status, hstatus, herr⟩ := h.waitErr_eq hr (by simp [hasReturned, hc])
  exact ⟨status, hstatus, .inr ⟨by simp [hasReturned], herr⟩⟩

private theorem Ordered.takeErr (h : s.Ordered) {err : Option WaitError}
    {rest : List (Option WaitError)} (he : s.waitErr = err :: rest)
    (hc : s.consumer = .closed) :
    ({ s with consumer := .returned err, waitErr := rest } : StreamState).Ordered := by
  have hmain := h.closed (.inl hc)
  have hreaped : s.hasReaped := .inr (h.returned hmain)
  refine { h with unreaped := fun hr ↦ absurd hreaped hr, reaped := fun _ ↦ ?_,
                  closed := fun _ ↦ hmain }
  obtain ⟨status, hstatus, herr⟩ := h.waitErr_eq hreaped (by simp [hasReturned, hc])
  obtain ⟨rfl, rfl⟩ := List.cons.inj (he.symm.trans herr)
  exact ⟨status, hstatus, .inl ⟨rfl, rfl⟩⟩

private theorem Ordered.abandon (h : s.Ordered) (hc : s.consumer = .receiving) :
    ({ s with consumer := .abandoned } : StreamState).Ordered := by
  refine { h with reaped := fun hr ↦ ?_, closed := by simp [hasReturned] }
  obtain ⟨status, hstatus, herr⟩ := h.waitErr_eq hr (by simp [hasReturned, hc])
  exact ⟨status, hstatus, .inr ⟨by simp [hasReturned], herr⟩⟩

/-- Every step keeps the order. -/
theorem Ordered.step (h : s.Ordered) (he : Effect env s l s') : s'.Ordered := by
  cases he with
  | write hc _ => exact (h.ofRunning hc _ _).setEmitter Iff.rfl id
  | exit hc => exact h.ofRunning hc _ _
  | cancel => exact { h with interrupted := fun hi ↦ ⟨rfl, (h.interrupted hi).2⟩ }
  | kill hk _ hc =>
    have hkilled := h.ofRunning hc (.exited .killed) s.written
    exact hkilled.interrupt hk (h.not_hasReaped hc) rfl
  | killExited hk _ hw hc =>
    exact h.interrupt hk (not_or.mpr hw) (by rw [hc]; rfl)
  | read hp _ => exact h.setEmitter (by simp [hp]) (by simp [hp])
  | token hp _ => exact h.setEmitter (by simp [hp]) (by simp [hp])
  | tooLong hp _ => exact h.setEmitter (by simp [hp]) (by simp [hp])
  | eof hp _ => exact h.setEmitter (by simp [hp]) (by simp [hp])
  | line _ hp => exact (h.receive _).setEmitter (by simp [hp]) (by simp [hp])
  | scanError _ hp => exact (h.receive _).setEmitter (by simp [hp]) (by simp [hp])
  | header _ hm => exact (h.setMain .spawning (by simp [hm]) (by simp) (by simp [hm])).receive _
  | heartbeat _ hm => exact (h.setMain .loop (by simp [hm]) (by simp) (by simp [hm])).receive _
  | spawn hm => exact h.spawn hm
  | tick hm => exact h.setMain .heartbeat (by simp [hm]) (by simp) (by simp [hm])
  | returnMain hm hd => exact h.returnMain hm hd
  | wgWait hw hf => exact h.wgWait hw hf
  | reap hc hw _ => exact h.reap hc hw
  | closeDone hw => exact h.closeDone hw
  | observeClose hc ho => exact h.observeClose hc ho
  | takeErr he hc => exact h.takeErr he hc
  | abandon hc => exact h.abandon hc

private theorem work_setEmitter (s : StreamState) (fd : Fd) (e : Emitter) :
    (s.setEmitter fd e).work + (s.emitter fd).work = s.work + e.work := by
  cases fd with
  | stdout =>
    simp [work, setEmitter]
    omega
  | stderr =>
    simp [work, setEmitter]
    omega

private theorem work_emitter_lt {e : Emitter} (h : e.work < (s.emitter fd).work) :
    (s.setEmitter fd e).work < s.work := by
  have hwork := work_setEmitter s fd e
  omega

private theorem work_write {b : UInt8} {rest : List (Fd × UInt8)} {r : PipeReader}
    (hc : s.child = .running ((fd, b) :: rest))
    (hr : (s.emitter fd).reader.write env.cap b = some r) :
    ({ s with child := .running rest, written := s.written ++ [(fd, b)] }.setEmitter fd
      ⟨(s.emitter fd).phase, r⟩).work < s.work := by
  let t : StreamState := { s with child := .running rest, written := s.written ++ [(fd, b)] }
  have hemit := work_setEmitter t fd ⟨(s.emitter fd).phase, r⟩
  have hold : (s.emitter fd).work + 3 = Emitter.work ⟨(s.emitter fd).phase, r⟩ := by
    simp only [Emitter.work, PipeReader.work_write hr, Nat.add_assoc]
  have hchild : t.work + 4 = s.work := by
    simp only [t, work, hc, Child.work, List.length_cons]
    omega
  change _ + (s.emitter fd).work = _ at hemit
  change (t.setEmitter fd ⟨(s.emitter fd).phase, r⟩).work < s.work
  omega

private theorem Ordered.work_spawn (h : s.Ordered) (hm : s.main = .spawning) :
    ({ s with
      main := .loop
      waiter := .waiting
      emitter := fun fd ↦ ⟨.scanning, (s.emitter fd).reader⟩ } : StreamState).work < s.work := by
  have hw : s.waiter = .idle := h.spawned.mpr (.inr hm)
  have hout := (h.idle .stdout).mpr hw
  have herr := (h.idle .stderr).mpr hw
  simp only [work, Emitter.work, hm, hw, hout, herr, EmitterPhase.work, MainPhase.work,
    WaiterPhase.work]
  omega

/-- No step adds to the work, and each that advances takes from it. -/
theorem Ordered.work_le (h : s.Ordered) (he : Effect env s l s') :
    s'.work ≤ s.work ∧ (s.Advances l → s'.work < s.work) := by
  -- all but a cancellation, a tick and a heartbeat take from it, whoever takes the step
  have of_lt (h : s'.work < s.work) : s'.work ≤ s.work ∧ (s.Advances l → s'.work < s.work) :=
    ⟨h.le, fun _ ↦ h⟩
  cases he with
  | write hc hr => exact of_lt (work_write hc hr)
  | exit hc =>
    apply of_lt
    simp only [work, hc, Child.work]
    omega
  | cancel => exact ⟨le_refl _, fun ha ↦ absurd rfl ha.2.1⟩
  | kill _ hi hc =>
    apply of_lt
    simp only [work, hi, hc, Child.work, Bool.not_true, Bool.not_false, Bool.toNat_true,
      Bool.toNat_false]
    omega
  | killExited _ hi _ hc =>
    apply of_lt
    simp [work, hi, hc, Child.work]
  | read hp hr =>
    apply of_lt (work_emitter_lt _)
    simpa [Emitter.work, hp] using PipeReader.work_read hr
  | token hp hs =>
    have hwork := PipeReader.work_token hs
    apply of_lt (work_emitter_lt _)
    simp only [Emitter.work, hp, EmitterPhase.work]
    omega
  | tooLong hp _ =>
    apply of_lt (work_emitter_lt _)
    simp [Emitter.work, hp, EmitterPhase.work]
  | eof hp _ =>
    apply of_lt (work_emitter_lt _)
    simp [Emitter.work, hp, EmitterPhase.work]
  | line _ hp =>
    apply of_lt (work_emitter_lt (s := { s with received := _ }) _)
    simp [Emitter.work, hp, EmitterPhase.work]
  | scanError _ hp =>
    apply of_lt (work_emitter_lt (s := { s with received := _ }) _)
    simp [Emitter.work, hp, EmitterPhase.work]
  | header _ hm =>
    apply of_lt
    simp only [work, hm, MainPhase.work]
    omega
  | heartbeat _ hm =>
    refine ⟨?_, fun ha ↦ ?_⟩
    · simp only [work, hm, MainPhase.work, le_refl]
    · have hh := ha.2.2.2 rfl
      rw [hm] at hh
      cases hh
  | spawn hm => exact of_lt (h.work_spawn hm)
  | tick hm =>
    refine ⟨?_, fun ha ↦ absurd rfl ha.1⟩
    simp only [work, hm, MainPhase.work, le_refl]
  | returnMain hm _ =>
    apply of_lt
    rcases hm with hm | hm
    · simp only [work, hm, MainPhase.work]
      omega
    · simp only [work, hm, MainPhase.work]
      omega
  | wgWait hw _ =>
    apply of_lt
    simp only [work, hw, WaiterPhase.work]
    omega
  | reap _ hw _ =>
    apply of_lt
    simp only [work, hw, WaiterPhase.work]
    omega
  | closeDone hw =>
    apply of_lt
    simp only [work, hw, WaiterPhase.work]
    omega
  | observeClose hc _ =>
    apply of_lt
    simp only [work, hc, Consumer.work]
    omega
  | takeErr _ hc =>
    apply of_lt
    simp only [work, hc, Consumer.work]
    omega
  | abandon hc =>
    apply of_lt
    simp only [work, hc, Consumer.work]
    omega

end StreamState

end Dockstack.Docker
