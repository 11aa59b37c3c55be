import Dockstack.Docker.StreamOrder

/-!
# When a streamed command gets stuck

`StreamCompose` (`internal/docker/stacks.go:171–216`) sends on `out` without looking at its
context, and an emitter that gives up on an over-long line stops reading its pipe. So a
consumer that stops receiving, as `handleStackActionStream` does
(`internal/server/api/stacks.go:391–425`), leaves goroutines behind, and so does an
over-long line that more output follows than the pipe holds. In every other run the
parties never wait for each other forever.
-/

namespace Dockstack.Docker.StreamState

open Dockstack.Base

/-- All goroutines have returned, and the child process is gone. -/
def Finished (s : StreamState) : Prop :=
  s.main = .returned ∧ (∀ fd, (s.emitter fd).phase = .finished) ∧ s.waiter = .finished ∧
    s.child.isExited = true

/-- No goroutine but the main one at its heartbeat is at a send on `out`. -/
def Silent (s : StreamState) : Prop :=
  s.main ≠ .header ∧ (s.emitter .stdout).phase.atSend = false ∧
    (s.emitter .stderr).phase.atSend = false

/-- What a `Scan` of an emitter comes to now. -/
def scanResult (s : StreamState) (fd : Fd) : Option PipeReader.Scan :=
  (s.emitter fd).reader.scan scannerMax s.child.isExited

/-- The pipe has room for all that the child has yet to write to it. -/
def HasRoom (env : StreamEnv) (s : StreamState) (fd : Fd) : Prop :=
  (s.emitter fd).reader.pipe.length + (bytesOf fd s.child.pending).length ≤ env.cap

/-- The consumer stops receiving only while nobody sends, and no line or error comes up
afterwards. An emitter gives up on an over-long line only when the context is cancelled or
its pipe has room for the rest. -/
def Attended (env : StreamEnv) (s : StreamState) : StreamLabel → Prop
  | .abandon => s.Silent
  | .scan fd =>
    (s.consumer = .abandoned → s.scanResult fd = none ∨ s.scanResult fd = some .done) ∧
      (s.scanResult fd = some .tooLong → s.cancelled = true ∨ s.HasRoom env fd)
  | _ => True

instance (s : StreamState) : Decidable s.Silent :=
  inferInstanceAs (Decidable (_ ∧ _ ∧ _))

instance (env : StreamEnv) (s : StreamState) (fd : Fd) : Decidable (s.HasRoom env fd) :=
  inferInstanceAs (Decidable (_ ≤ _))

instance decidableAttended (env : StreamEnv) (s : StreamState) :
    (l : StreamLabel) → Decidable (Attended env s l)
  | .abandon => inferInstanceAs (Decidable s.Silent)
  | .scan fd => inferInstanceAs (Decidable ((s.consumer = .abandoned →
      s.scanResult fd = none ∨ s.scanResult fd = some .done) ∧
        (s.scanResult fd = some .tooLong → s.cancelled = true ∨ s.HasRoom env fd)))
  | .write | .exit _ | .cancel | .kill | .read _ _ | .deliver _ | .deliverMain | .spawn | .tick
  | .returnMain | .wgWait | .reap | .closeDone | .observeClose | .takeErr => .isTrue trivial

/-- Nobody waits for a consumer that is gone, nor the child for an emitter that is, unless
the child can be killed. -/
structure Unblocked (env : StreamEnv) (s : StreamState) : Prop where
  heard : s.consumer = .abandoned → s.Silent
  drained : ∀ fd, (s.emitter fd).phase = .failing ∨ (s.emitter fd).phase = .finished →
    s.cancelled = true ∨ s.HasRoom env fd

variable {env : StreamEnv} {s s' : StreamState} {l : StreamLabel} {fd : Fd}

/-- Nobody is at a send before the first step. -/
theorem unblocked_init (env : StreamEnv) (output : List (Fd × UInt8)) :
    Unblocked env (init output) := by
  constructor <;> simp [init]

private theorem Silent.atSend_eq (h : s.Silent) (fd : Fd) :
    (s.emitter fd).phase.atSend = false := by
  cases fd with
  | stdout => exact h.2.1
  | stderr => exact h.2.2

private theorem Silent.setEmitter {e : Emitter} (h : s.Silent) (he : e.phase.atSend = false) :
    (s.setEmitter fd e).Silent := by
  have hsend (fd' : Fd) : ((s.setEmitter fd e).emitter fd').phase.atSend = false := by
    rw [setEmitter_emitter]
    split
    · exact he
    · exact h.atSend_eq fd'
  exact ⟨h.1, hsend .stdout, hsend .stderr⟩

private theorem Unblocked.setEmitter {e : Emitter} (h : Unblocked env s)
    (hsend : s.consumer = .abandoned → e.phase.atSend = false)
    (hdrained : e.phase = .failing ∨ e.phase = .finished →
      s.cancelled = true ∨ (s.setEmitter fd e).HasRoom env fd) :
    Unblocked env (s.setEmitter fd e) := by
  constructor
  · intro hc
    exact (h.heard hc).setEmitter (hsend hc)
  · intro fd' hp
    rw [setEmitter_emitter] at hp
    split at hp
    · next heq =>
      rw [heq]
      exact hdrained hp
    · next hne =>
      have hroom := h.drained fd' hp
      simpa [HasRoom, hne] using hroom

private theorem HasRoom.write {b : UInt8} {rest : List (Fd × UInt8)} {r : PipeReader}
    {p : EmitterPhase} {fd' : Fd} (hc : s.child = .running ((fd, b) :: rest))
    (hr : (s.emitter fd).reader.write env.cap b = some r) (h : s.HasRoom env fd') :
    ({ s with child := .running rest, written := s.written ++ [(fd, b)] }.setEmitter fd
      ⟨p, r⟩).HasRoom env fd' := by
  simp only [HasRoom, hc, Child.pending, bytesOf_cons] at h
  simp only [HasRoom, setEmitter_emitter, setEmitter_child, Child.pending]
  split
  · next heq =>
    subst heq
    rw [if_pos rfl, List.length_cons] at h
    have hlen := PipeReader.length_pipe_write hr
    change r.pipe.length + _ ≤ _
    omega
  · next hne =>
    rwa [if_neg (Ne.symm hne)] at h

private theorem HasRoom.exit (h : s.HasRoom env fd) (status : ExitStatus) :
    ({ s with child := .exited status } : StreamState).HasRoom env fd := by
  simp only [HasRoom, Child.pending, bytesOf_nil, List.length_nil] at h ⊢
  omega

private theorem Unblocked.write {b : UInt8} {rest : List (Fd × UInt8)} {r : PipeReader}
    (h : Unblocked env s) (hc : s.child = .running ((fd, b) :: rest))
    (hr : (s.emitter fd).reader.write env.cap b = some r) :
    Unblocked env ({ s with
      child := .running rest, written := s.written ++ [(fd, b)] }.setEmitter fd
        ⟨(s.emitter fd).phase, r⟩) := by
  constructor
  · intro hgone
    have hsilent := h.heard hgone
    exact hsilent.setEmitter (s := { s with child := _, written := _ }) (hsilent.atSend_eq fd)
  · intro fd' hp
    have hp' : (s.emitter fd').phase = .failing ∨ (s.emitter fd').phase = .finished := by
      rw [setEmitter_emitter] at hp
      split at hp
      · next heq => exact heq ▸ hp
      · exact hp
    exact (h.drained fd' hp').imp_right (HasRoom.write hc hr)

/-- An attended step leaves nobody waiting. -/
theorem Unblocked.step (h : Unblocked env s) (ha : Attended env s l) (he : Effect env s l s') :
    Unblocked env s' := by
  cases he with
  | write hc hr => exact h.write hc hr
  | exit hc => exact { h with drained := fun fd hp ↦ (h.drained fd hp).imp_right (·.exit _) }
  | cancel => exact { h with drained := fun _ _ ↦ .inl rfl }
  | kill _ _ hc => exact { h with drained := fun fd hp ↦ (h.drained fd hp).imp_right (·.exit _) }
  | killExited => exact { h with }
  | read hp _ => exact h.setEmitter (by simp [EmitterPhase.atSend]) (by simp)
  | token hp hs =>
    refine h.setEmitter (fun hc ↦ ?_) (by simp)
    have hquiet := ha.1 hc
    rw [scanResult, hs] at hquiet
    simp at hquiet
  | tooLong hp hs =>
    refine h.setEmitter (fun hc ↦ ?_) (fun _ ↦ ?_)
    · have hquiet := ha.1 hc
      rw [scanResult, hs] at hquiet
      simp at hquiet
    · simpa [HasRoom] using ha.2 hs
  | eof hp hs =>
    refine h.setEmitter (fun _ ↦ rfl) (fun _ ↦ .inr ?_)
    obtain ⟨hexited, hunread⟩ := PipeReader.scan_eq_done hs
    have hpipe := (List.append_eq_nil_iff.mp hunread).2
    simp [HasRoom, hpipe, Child.pending_of_isExited hexited]
  | line hr hp =>
    exact Unblocked.setEmitter (s := { s with received := _ }) { h with } (fun _ ↦ rfl) (by simp)
  | scanError hr hp =>
    refine Unblocked.setEmitter (s := { s with received := _ }) { h with } (fun _ ↦ rfl)
      (fun _ ↦ ?_)
    simpa [HasRoom] using h.drained _ (.inl hp)
  | header hr hm =>
    have hc := consumer_of_canReceive hr
    exact { h with heard := by simp [hc] }
  | heartbeat hr hm =>
    have hc := consumer_of_canReceive hr
    exact { h with heard := by simp [hc] }
  | spawn hm => exact ⟨fun _ ↦ ⟨by simp, rfl, rfl⟩, by simp⟩
  | tick hm => exact { h with heard := fun hc ↦ ⟨by simp, (h.heard hc).2⟩ }
  | returnMain hm hd => exact { h with heard := fun hc ↦ ⟨by simp, (h.heard hc).2⟩ }
  | wgWait hw hf => exact { h with }
  | reap hc hw _ => exact { h with }
  | closeDone hw => exact { h with }
  | observeClose hc ho => exact { h with heard := nofun }
  | takeErr he hc => exact { h with heard := nofun }
  | abandon hc => exact { h with heard := fun _ ↦ ha }

/-- Some step that advances is enabled. -/
def CanAdvance (env : StreamEnv) (s : StreamState) : Prop :=
  ∃ l, s.Advances l ∧ (StreamState.step env s l).isSome = true

private theorem scanning_advances (hp : (s.emitter fd).phase = .scanning) :
    CanAdvance env s ∨ (s.child.isExited = false ∧ (s.emitter fd).reader.pipe = []) := by
  rcases PipeReader.scan_or_read scannerMax s.child.isExited (s.emitter fd).reader with
    ⟨res, hres⟩ | ⟨n, r, hr⟩ | hwait
  · left
    refine ⟨.scan fd, by simp [Advances], ?_⟩
    cases res with
    | token text r => simp [StreamState.step, scan, hp, hres]
    | tooLong => simp [StreamState.step, scan, hp, hres]
    | done => simp [StreamState.step, scan, hp, hres]
  · exact .inl ⟨.read fd n, by simp [Advances], by simp [StreamState.step, read, hp, hr]⟩
  · exact .inr hwait

private theorem canReceive_of_not_returned (h : s.Ordered) (hmain : s.main ≠ .returned)
    (hgone : s.consumer ≠ .abandoned) : s.canReceive = true := by
  have hcloses := h.closes_eq_zero hmain
  cases hc : s.consumer with
  | receiving => simp [canReceive, hc, hcloses]
  | closed => exact absurd (h.closed (.inl hc)) hmain
  | returned status => exact absurd (h.closed (.inr ⟨status, hc⟩)) hmain
  | abandoned => exact absurd hc hgone

private theorem atSend_advances (h : s.Ordered) (hb : Unblocked env s)
    (hmain : s.main ≠ .returned) (fd : Fd) (hp : (s.emitter fd).phase.atSend = true) :
    CanAdvance env s := by
  have hgone : s.consumer ≠ .abandoned := by
    intro hc
    rw [(hb.heard hc).atSend_eq fd] at hp
    contradiction
  have hr := canReceive_of_not_returned h hmain hgone
  refine ⟨.deliver fd, by simp [Advances], ?_⟩
  cases hphase : (s.emitter fd).phase with
  | sending text => simp [StreamState.step, deliver, hr, hphase]
  | failing => simp [StreamState.step, deliver, hr, hphase]
  | idle => simp [hphase, EmitterPhase.atSend] at hp
  | scanning => simp [hphase, EmitterPhase.atSend] at hp
  | finished => simp [hphase, EmitterPhase.atSend] at hp

private theorem running_advances (h : s.Ordered) (hb : Unblocked env s)
    (hmain : s.main ≠ .returned) (hw : s.waiter ≠ .idle) {pending : List (Fd × UInt8)}
    (hc : s.child = .running pending) : CanAdvance env s := by
  cases pending with
  | nil => exact ⟨.exit 0, by simp [Advances], by simp [StreamState.step, exit, hc]⟩
  | cons w rest =>
    obtain ⟨fd, b⟩ := w
    have write (hlt : (s.emitter fd).reader.pipe.length < env.cap) : CanAdvance env s :=
      ⟨.write, by simp [Advances],
        by simp [StreamState.step, StreamState.write, hc, PipeReader.write_of_lt b hlt]⟩
    cases hp : (s.emitter fd).phase with
    | idle => exact absurd ((h.idle fd).mp hp) hw
    | scanning =>
      rcases scanning_advances hp with hadv | ⟨-, hpipe⟩
      · exact hadv
      · exact write (by simp [hpipe, env.cap_pos])
    | sending text => exact atSend_advances h hb hmain fd (by simp [hp, EmitterPhase.atSend])
    | failing => exact atSend_advances h hb hmain fd (by simp [hp, EmitterPhase.atSend])
    | finished =>
      rcases hb.drained fd (.inr hp) with hk | hroom
      · have hi : s.interrupted = false := by
          rw [Bool.eq_false_iff]
          intro hi
          have hexited := (h.interrupted hi).2
          simp [hc, Child.isExited] at hexited
        have hr := not_or.mp (h.not_hasReaped hc)
        exact ⟨.kill, by simp [Advances], by simp [StreamState.step, kill, hc, hk, hi, hr]⟩
      · apply write
        simp only [HasRoom, hc, Child.pending, bytesOf_cons, if_pos, List.length_cons] at hroom
        omega

private theorem waiter_advances (h : s.Ordered) (hb : Unblocked env s)
    (hmain : s.main = .loop ∨ s.main = .heartbeat) : CanAdvance env s := by
  obtain ⟨hheader, hspawning, hmain'⟩ := main_ne_of_selecting hmain
  have hw : s.waiter ≠ .idle := fun hidle ↦ (h.spawned.mp hidle).elim hheader hspawning
  have emitter_advances (fd : Fd) (hf : (s.emitter fd).phase ≠ .finished) : CanAdvance env s := by
    cases hp : (s.emitter fd).phase with
    | idle => exact absurd ((h.idle fd).mp hp) hw
    | scanning =>
      rcases scanning_advances hp with hadv | ⟨hexited, -⟩
      · exact hadv
      · cases hc : s.child with
        | running pending => exact running_advances h hb hmain' hw hc
        | exited status => simp [hc, Child.isExited] at hexited
    | sending text => exact atSend_advances h hb hmain' fd (by simp [hp, EmitterPhase.atSend])
    | failing => exact atSend_advances h hb hmain' fd (by simp [hp, EmitterPhase.atSend])
    | finished => exact absurd hp hf
  cases hphase : s.waiter with
  | idle => exact absurd hphase hw
  | waiting =>
    by_cases hout : (s.emitter .stdout).phase = .finished
    · by_cases herr : (s.emitter .stderr).phase = .finished
      · exact ⟨.wgWait, by simp [Advances], by simp [StreamState.step, wgWait, hphase, hout, herr]⟩
      · exact emitter_advances .stderr herr
    · exact emitter_advances .stdout hout
  | reaping =>
    have hempty : s.waitErr = [] := h.unreaped (by simp [hasReaped, hphase])
    cases hc : s.child with
    | running pending => exact running_advances h hb hmain' hw hc
    | exited status =>
      exact ⟨.reap, by simp [Advances], by simp [StreamState.step, reap, hc, hphase, hempty]⟩
  | reaped => exact ⟨.closeDone, by simp [Advances], by simp [StreamState.step, closeDone, hphase]⟩
  | finished =>
    have hdone := h.done.mpr hphase
    exact ⟨.returnMain, by simp [Advances],
      by simp [StreamState.step, returnMain, hmain, hdone]⟩

/-- Parties that are in order and not blocked are finished, or one of them advances. -/
theorem Unblocked.progress (h : s.Ordered) (hb : Unblocked env s) :
    s.Finished ∨ ∃ l s', s.Advances l ∧ StreamState.step env s l = some s' ∧ s'.work < s.work := by
  have take (hadv : CanAdvance env s) :
      ∃ l s', s.Advances l ∧ StreamState.step env s l = some s' ∧ s'.work < s.work := by
    obtain ⟨l, ha, hs⟩ := hadv
    obtain ⟨s', hs'⟩ := Option.isSome_iff_exists.mp hs
    exact ⟨l, s', ha, hs', (h.work_le (step_effect hs')).2 ha⟩
  cases hm : s.main with
  | header =>
    have hgone : s.consumer ≠ .abandoned := fun hc ↦ (hb.heard hc).1 hm
    have hr := canReceive_of_not_returned h (by simp [hm]) hgone
    exact .inr (take ⟨.deliverMain, by simp [Advances, hm],
      by simp [StreamState.step, deliverMain, hr, hm]⟩)
  | spawning =>
    exact .inr (take ⟨.spawn, by simp [Advances], by simp [StreamState.step, spawn, hm]⟩)
  | loop => exact .inr (take (waiter_advances h hb (.inl hm)))
  | heartbeat => exact .inr (take (waiter_advances h hb (.inr hm)))
  | returned =>
    left
    have hw := h.returned hm
    obtain ⟨status, hstatus, -⟩ := h.reaped (.inr hw)
    exact ⟨hm, h.joined (.inr (.inr hw)), hw, by rw [hstatus]; rfl⟩

/-- In a run whose steps are all attended, the parties of a streamed command are finished
or one of them has a step that takes from the work left. -/
theorem streamCompose_progress {output : List (Fd × UInt8)} {labels : List StreamLabel}
    (hrun : runSteps (StreamState.step env) (init output) labels = some s)
    (hatt : RunMeets (StreamState.step env) (Attended env) (init output) labels) :
    s.Finished ∨ ∃ l s', s.Advances l ∧ StreamState.step env s l = some s' ∧ s'.work < s.work := by
  have hinv : s.Ordered ∧ Unblocked env s := by
    refine runSteps_invariant_of_meets (I := fun s ↦ s.Ordered ∧ Unblocked env s) ?_
      ⟨ordered_init output, unblocked_init env output⟩ hatt hrun
    intro s l s' hs ha hstep
    have he := step_effect hstep
    exact ⟨hs.1.step he, hs.2.step ha he⟩
  exact hinv.2.progress hinv.1

private def oneByte : StreamEnv := ⟨1, Nat.one_pos, ["compose", "up"]⟩

private def printedRun : List StreamLabel :=
  [.deliverMain, .spawn, .write, .read .stdout 1, .tick, .write, .deliverMain, .read .stdout 1,
    .scan .stdout, .deliver .stdout, .exit 0, .scan .stderr, .abandon, .scan .stdout]

/-- A command prints one line; the client goes away when all of it was read. -/
theorem streamCompose_progress_printed :
    ∃ s, runSteps (StreamState.step oneByte) (init [(.stdout, 104), (.stdout, 10)])
        printedRun = some s ∧
      (s.Finished ∨
        ∃ l s', s.Advances l ∧ StreamState.step oneByte s l = some s' ∧ s'.work < s.work) := by
  obtain ⟨s, hs⟩ := Option.isSome_iff_exists.mp (by decide +kernel :
    (runSteps (StreamState.step oneByte) (init [(.stdout, 104), (.stdout, 10)])
      printedRun).isSome = true)
  exact ⟨s, hs, streamCompose_progress hs (by decide +kernel)⟩

/-- The client goes away while the one line of the command is sent: the emitter stays at the
send, the waiter at `wg.Wait()` and the main goroutine at its heartbeat, although the context
is cancelled and the child has been killed. -/
theorem streamCompose_stuck :
    ∃ s, runSteps (StreamState.step oneByte) (init [(.stdout, 10)])
        [.deliverMain, .spawn, .write, .read .stdout 1, .scan .stdout, .abandon, .cancel, .kill,
          .scan .stderr, .tick] = some s ∧
      s.cancelled = true ∧ ¬ s.Finished ∧ ∀ l, StreamState.step oneByte s l = none := by
  refine ⟨_, rfl, rfl, ?_, fun l ↦ ?_⟩
  · intro h
    exact absurd h.1 (by decide)
  · cases l with
    | read fd n => cases fd <;> rfl
    | scan fd => cases fd <;> rfl
    | deliver fd => cases fd <;> rfl
    | _ => rfl

/-- The consumer is gone, and the header or an emitter waits for it. -/
def LeftBehind (s : StreamState) : Prop :=
  s.consumer = .abandoned ∧ (s.main = .header ∨ ∃ fd, (s.emitter fd).phase.atSend = true)

private theorem LeftBehind.setEmitter {e : Emitter} (h : s.LeftBehind)
    (hp : (s.emitter fd).phase.atSend = true → e.phase.atSend = true) :
    (s.setEmitter fd e).LeftBehind := by
  refine ⟨h.1, h.2.imp_right fun ⟨fd', hsend⟩ ↦ ⟨fd', ?_⟩⟩
  rw [setEmitter_emitter]
  split
  · next heq => exact hp (heq ▸ hsend)
  · exact hsend

/-- Nothing frees a goroutine that waits for a consumer that is gone. -/
theorem LeftBehind.step (ho : s.Ordered) (h : s.LeftBehind) (he : Effect env s l s') :
    s'.LeftBehind := by
  have not_receiving (hr : s.canReceive = true) : False := by
    have hc := h.1.symm.trans (consumer_of_canReceive hr)
    contradiction
  cases he with
  | write hc hr => exact LeftBehind.setEmitter (s := { s with child := _, written := _ }) h id
  | exit => exact h
  | cancel => exact h
  | kill => exact h
  | killExited => exact h
  | read hp _ => exact h.setEmitter (by simp [hp, EmitterPhase.atSend])
  | token hp _ => exact h.setEmitter (by simp [hp, EmitterPhase.atSend])
  | tooLong hp _ => exact h.setEmitter (by simp [hp, EmitterPhase.atSend])
  | eof hp _ => exact h.setEmitter (by simp [hp, EmitterPhase.atSend])
  | line hr _ => exact (not_receiving hr).elim
  | scanError hr _ => exact (not_receiving hr).elim
  | header hr _ => exact (not_receiving hr).elim
  | heartbeat hr _ => exact (not_receiving hr).elim
  | spawn hm =>
    obtain ⟨fd, hsend⟩ := h.2.resolve_left (by simp [hm])
    rw [(ho.idle fd).mpr (ho.spawned.mpr (.inr hm))] at hsend
    contradiction
  | tick hm => exact ⟨h.1, .inr (h.2.resolve_left (by simp [hm]))⟩
  | returnMain hm _ => exact ⟨h.1, .inr (h.2.resolve_left (main_ne_of_selecting hm).1)⟩
  | wgWait => exact h
  | reap => exact h
  | closeDone => exact h
  | observeClose hc _ =>
    have hc' := h.1.symm.trans hc
    contradiction
  | takeErr _ hc =>
    have hc' := h.1.symm.trans hc
    contradiction
  | abandon hc =>
    have hc' := h.1.symm.trans hc
    contradiction

/-- Once a goroutine waits for a consumer that is gone, no run finishes. -/
theorem LeftBehind.not_finished (ho : s.Ordered) (h : s.LeftBehind) {t : StreamState}
    {labels : List StreamLabel} (hrun : runSteps (StreamState.step env) s labels = some t) :
    ¬ t.Finished := by
  have hinv : t.Ordered ∧ t.LeftBehind := by
    refine runSteps_invariant (I := fun s ↦ s.Ordered ∧ s.LeftBehind) ?_ ⟨ho, h⟩ hrun
    intro s l s' hs hstep
    have he := step_effect hstep
    exact ⟨hs.1.step he, hs.2.step hs.1 he⟩
  rintro ⟨hm, hf, -⟩
  rcases hinv.2.2 with hheader | ⟨fd, hsend⟩
  · rw [hm] at hheader
    contradiction
  · rw [hf fd] at hsend
    contradiction

end Dockstack.Docker.StreamState
