import Mathlib.Algebra.BigOperators.Group.Finset.Basic
import Mathlib.Algebra.Order.BigOperators.Group.Finset
import Mathlib.Data.Fintype.Basic
import Dockstack.Docker.StackLogsWorker

/-!
# Runs of a stack's log stream

Whatever the number of containers and the interleaving of the goroutines of `StreamStackLogs`
(`internal/docker/logs.go:12–95`), `out` is closed once and after every send. Unless the context is
cancelled, a consumer that sees it closed has received each stream's lines, in order. Once it is
cancelled, the goroutines end without the consumer.
-/

namespace Dockstack.Docker

open Dockstack.Base

/-- The work left to the consumer. -/
def LogsConsumer.work : LogsConsumer → Nat
  | .receiving => 1
  | .ended => 0
  | .stopped => 0

/-- A step of the goroutines and processes in which nothing is sent. -/
def LogsLabel.unaided {n : Nat} : LogsLabel n → Bool
  | .worker _ (.send _) => false
  | .worker _ _ => true
  | .closeOut => true
  | _ => false

/-- What a worker has sent, among the messages received. -/
def sentBy {n : Nat} (w : Fin n) (received : List (Fin n × LogsMsg)) : List LogsMsg :=
  (received.filter (·.1 = w)).map (·.2)

@[simp] theorem sentBy_append {n : Nat} (w : Fin n) (received received' : List (Fin n × LogsMsg)) :
    sentBy w (received ++ received') = sentBy w received ++ sentBy w received' := by
  rw [sentBy, List.filter_append, List.map_append, sentBy, sentBy]

/-- A worker's messages are its own. -/
theorem sentBy_map {n : Nat} (w w' : Fin n) (msgs : List LogsMsg) :
    sentBy w' (msgs.map (w, ·)) = if w' = w then msgs else [] := by
  split
  · next heq => simp [sentBy, List.filter_map, Function.comp_def, heq]
  · next hne => simp [sentBy, List.filter_map, Function.comp_def, Ne.symm hne]

namespace LogsWorker

variable {cap : Nat} {cancelled : Bool} {wk wk' : LogsWorker} {l : WorkerLabel} {m : Option LogsMsg}

/-- A worker that is through takes no step. -/
theorem Effect.not_done (he : Effect cap cancelled wk l m wk') (h : wk.Ordered) :
    wk.phase.done = false := by
  have streaming {fd : Fd} {p : EmitterPhase} (hp : (wk.emitter fd).phase = p) (hidle : p ≠ .idle)
      (hfin : p ≠ .finished) : wk.phase.done = false := by
    rw [h.streaming hp hidle hfin]
    rfl
  have alive (hp : wk.hasProcess = true) : wk.phase.done = false := by
    rcases phase_of_hasProcess hp with hp | hp <;> rw [hp] <;> rfl
  cases he with
  | started hp hk => rw [hp]; rfl
  | failed hp => rw [hp]; rfl
  | write hp hc hr => exact alive hp
  | exit hp hc => exact alive hp
  | kill hk hp hc => exact alive hp
  | read hp hr => exact streaming hp nofun nofun
  | token hp hs ht => exact streaming hp nofun nofun
  | skip hp hs => exact streaming hp nofun nofun
  | tooLong hp hs => exact streaming hp nofun nofun
  | eof hp hs => exact streaming hp nofun nofun
  | line hp => exact streaming hp nofun nofun
  | scanError hp => exact streaming hp nofun nofun
  | giveUp hk hp =>
    obtain ⟨hidle, hfin⟩ := EmitterPhase.ne_of_atSend hp
    exact streaming rfl hidle hfin
  | join hp hf => rw [hp]; rfl
  | reap hp hc => rw [hp]; rfl

/-- The worker has a step in which it sends nothing. -/
private def CanAdvance (cap : Nat) (cancelled : Bool) (wk : LogsWorker) : Prop :=
  ∃ l wk', (∀ fd, l ≠ .send fd) ∧ wk.step cap cancelled l = some (none, wk')

private theorem scanning_advances {fd : Fd} (cap : Nat) (cancelled : Bool)
    (hp : (wk.emitter fd).phase = .scanning) :
    CanAdvance cap cancelled wk ∨
      (wk.child.isExited = false ∧ (wk.emitter fd).reader.pipe = []) := by
  rcases PipeReader.scan_or_read scannerMax wk.child.isExited (wk.emitter fd).reader with
    ⟨res, hres⟩ | ⟨k, r, hr⟩ | hwait
  · refine .inl ⟨.scan fd, ?_⟩
    cases res with
    | token text r => exact ⟨_, nofun, by simp [step, scan, hp, hres]; rfl⟩
    | tooLong => exact ⟨_, nofun, by simp [step, scan, hp, hres]; rfl⟩
    | done => exact ⟨_, nofun, by simp [step, scan, hp, hres]; rfl⟩
  · exact .inl ⟨.read fd k, _, nofun, by simp [step, read, hp, hr]; rfl⟩
  · exact .inr hwait

private theorem emitter_advances {fd : Fd} (hidle : (wk.emitter fd).phase ≠ .idle)
    (hfin : (wk.emitter fd).phase ≠ .finished) (hexited : wk.child.isExited = true) :
    CanAdvance cap true wk := by
  cases hp : (wk.emitter fd).phase with
  | idle => exact absurd hp hidle
  | scanning =>
    rcases scanning_advances cap true hp with hadv | ⟨hrunning, -⟩
    · exact hadv
    · rw [hexited] at hrunning
      contradiction
  | sending text =>
    exact ⟨.giveUp fd, _, nofun, by simp [step, giveUp, hp, EmitterPhase.atSend]; rfl⟩
  | failing =>
    exact ⟨.giveUp fd, _, nofun, by simp [step, giveUp, hp, EmitterPhase.atSend]; rfl⟩
  | finished => exact absurd hp hfin

private theorem kill_advances {pending : List (Fd × UInt8)} (hp : wk.hasProcess = true)
    (hc : wk.child = .running pending) : CanAdvance cap true wk :=
  ⟨.kill, _, nofun, by simp [step, kill, hp, hc]; rfl⟩

/-- Once the context is cancelled, a worker that is not through goes on, and waits for nobody. -/
theorem Ordered.advances (h : wk.Ordered) (cap : Nat) (hd : wk.phase.done = false) :
    ∃ l wk', (∀ fd, l ≠ .send fd) ∧ wk.step cap true l = some (none, wk') := by
  cases hphase : wk.phase with
  | starting =>
    exact ⟨.start false, _, (fun _ heq ↦ by cases heq), by simp [step, start, hphase]; rfl⟩
  | streaming =>
    have hlive := h.live hphase
    cases hc : wk.child with
    | running pending => exact kill_advances (by simp [hasProcess, hphase]) hc
    | exited status =>
      have hexited : wk.child.isExited = true := by rw [hc]; rfl
      by_cases hout : (wk.emitter .stdout).phase = .finished
      · by_cases herr : (wk.emitter .stderr).phase = .finished
        · exact ⟨.join, _, (fun _ heq ↦ by cases heq), by
            simp [step, join, hphase, hout, herr]; rfl⟩
        · exact emitter_advances (hlive .stderr) herr hexited
      · exact emitter_advances (hlive .stdout) hout hexited
  | reaping =>
    cases hc : wk.child with
    | running pending => exact kill_advances (by simp [hasProcess, hphase]) hc
    | exited status =>
      exact ⟨.reap, _, (fun _ heq ↦ by cases heq), by
        simp [step, reap, hphase, hc, Child.isExited]; rfl⟩
  | failed => simp [hphase, WorkerPhase.done] at hd
  | finished => simp [hphase, WorkerPhase.done] at hd

private theorem Carrying.running_advances {output : List (Fd × UInt8)} {sent : List LogsMsg}
    {pending : List (Fd × UInt8)} (h : wk.Carrying output sent)
    (hfits : ∀ fd, Fits scannerMax (bytesOf fd output)) (ho : wk.Ordered)
    (hcap : 0 < cap) (hphase : wk.phase = .streaming) (hc : wk.child = .running pending) :
    ∃ l p, wk.step cap false l = some p := by
  have hprocess : wk.hasProcess = true := by simp [hasProcess, hphase]
  cases pending with
  | nil => exact ⟨.exit 0, _, by simp [step, exit, hc, hprocess]; rfl⟩
  | cons b rest =>
    obtain ⟨fd, b⟩ := b
    cases hp : (wk.emitter fd).phase with
    | idle => exact absurd hp (ho.live hphase fd)
    | scanning =>
      rcases scanning_advances cap false hp with ⟨l, wk', -, hs⟩ | ⟨-, hpipe⟩
      · exact ⟨l, _, hs⟩
      · have hlt : (wk.emitter fd).reader.pipe.length < cap := by rwa [hpipe]
        exact ⟨.write, _,
          by simp [step, LogsWorker.write, hc, hprocess, PipeReader.write_of_lt b hlt]; rfl⟩
    | sending text => exact ⟨.send fd, _, by simp [step, send, hp]; rfl⟩
    | failing => exact ⟨.send fd, _, by simp [step, send, hp]; rfl⟩
    | finished =>
      obtain ⟨scanned, hcarried, -⟩ := (h.conveyed fd (hfits fd)).scanned
      have hexited := (hcarried.through hp).1
      rw [hc] at hexited
      contradiction

/-- While the context is not cancelled and no line is over-long, a worker that is not through goes
on or is at a send. -/
theorem Carrying.advances {output : List (Fd × UInt8)} {sent : List LogsMsg}
    (h : wk.Carrying output sent) (hfits : ∀ fd, Fits scannerMax (bytesOf fd output))
    (ho : wk.Ordered) (hcap : 0 < cap) (hd : wk.phase.done = false) :
    ∃ l p, wk.step cap false l = some p := by
  cases hphase : wk.phase with
  | starting => exact ⟨.start false, _, by simp [step, start, hphase]; rfl⟩
  | streaming =>
    have emitter_advances (fd : Fd) (hfin : (wk.emitter fd).phase ≠ .finished) :
        ∃ l p, wk.step cap false l = some p := by
      cases hp : (wk.emitter fd).phase with
      | idle => exact absurd hp (ho.live hphase fd)
      | scanning =>
        rcases scanning_advances cap false hp with ⟨l, wk', -, hs⟩ | ⟨hexited, -⟩
        · exact ⟨l, _, hs⟩
        · cases hc : wk.child with
          | running pending => exact h.running_advances hfits ho hcap hphase hc
          | exited status => simp [hc, Child.isExited] at hexited
      | sending text => exact ⟨.send fd, _, by simp [step, send, hp]; rfl⟩
      | failing => exact ⟨.send fd, _, by simp [step, send, hp]; rfl⟩
      | finished => exact absurd hp hfin
    by_cases hout : (wk.emitter .stdout).phase = .finished
    · by_cases herr : (wk.emitter .stderr).phase = .finished
      · exact ⟨.join, _, by simp [step, join, hphase, hout, herr]; rfl⟩
      · exact emitter_advances .stderr herr
    · exact emitter_advances .stdout hout
  | reaping =>
    obtain ⟨scanned, hcarried, -⟩ := (h.conveyed .stdout (hfits .stdout)).scanned
    have hexited := (hcarried.through (ho.joined (.inl hphase) .stdout)).1
    exact ⟨.reap, _, by simp [step, reap, hphase, hexited]; rfl⟩
  | failed => simp [hphase, WorkerPhase.done] at hd
  | finished => simp [hphase, WorkerPhase.done] at hd

end LogsWorker

namespace LogsState

variable {n : Nat} {env : LogsEnv n} {s s' t : LogsState n} {l : LogsLabel n}
  {ls : List (LogsLabel n)} {output : Fin n → List (Fd × UInt8)}

/-- What a step of the system does. -/
inductive Effect (env : LogsEnv n) (s : LogsState n) : LogsLabel n → LogsState n → Prop where
  | worker {w : Fin n} {l : WorkerLabel} {m : Option LogsMsg} {wk : LogsWorker}
      (he : LogsWorker.Effect env.cap s.cancelled (s.worker w) l m wk) :
      Effect env s (.worker w l) { s with
        worker := Function.update s.worker w wk
        received := s.received ++ m.toList.map (w, ·) }
  | cancel (hk : s.cancelled = false) : Effect env s .cancel { s with cancelled := true }
  | closeOut (hc : s.closer = false) (hd : ∀ w, (s.worker w).phase.done = true) :
      Effect env s .closeOut { s with closer := true, closes := s.closes + 1 }
  | observeClose (hc : s.consumer = .receiving) (ho : 0 < s.closes) :
      Effect env s .observeClose { s with consumer := .ended }
  | stop (hc : s.consumer = .receiving) : Effect env s .stop { s with consumer := .stopped }

private theorem stepWorker_effect {w : Fin n} {l : WorkerLabel}
    (h : s.stepWorker env w l = some s') : Effect env s (.worker w l) s' := by
  unfold stepWorker at h
  split at h
  · contradiction
  · next wk hs =>
    obtain rfl := Option.some.inj h
    have he : Effect env s (.worker w l) _ := .worker (LogsWorker.step_effect hs)
    simpa using he
  · next m wk hs =>
    obtain ⟨-, ⟨⟩⟩ := Option.ite_none_right_eq_some.mp h
    exact .worker (LogsWorker.step_effect hs)

/-- Every step has the effect of its label. -/
theorem step_effect (h : step env s l = some s') : Effect env s l s' := by
  cases l with
  | worker w l => exact stepWorker_effect h
  | cancel =>
    obtain ⟨hk, ⟨⟩⟩ := Option.ite_none_left_eq_some.mp h
    exact .cancel (Bool.eq_false_iff.mpr hk)
  | closeOut =>
    obtain ⟨⟨hc, hd⟩, ⟨⟩⟩ := Option.ite_none_right_eq_some.mp h
    exact .closeOut hc hd
  | observeClose =>
    obtain ⟨⟨hc, ho⟩, ⟨⟩⟩ := Option.ite_none_right_eq_some.mp h
    exact .observeClose hc ho
  | stop =>
    obtain ⟨hc, ⟨⟩⟩ := Option.ite_none_right_eq_some.mp h
    exact .stop hc

/-- What the wait groups impose on the parties. -/
structure Ordered (s : LogsState n) : Prop where
  workers : ∀ w, (s.worker w).Ordered
  closes : s.closes = s.closer.toNat
  closed : s.closer = true → ∀ w, (s.worker w).phase.done = true
  ended : s.consumer = .ended → s.closer = true

/-- Before anything is sent, all is in order. -/
theorem ordered_init (output : Fin n → List (Fd × UInt8)) : (init output).Ordered where
  workers := fun w ↦ LogsWorker.ordered_init (output w)
  closes := rfl
  closed := nofun
  ended := nofun

/-- Every step keeps the parties in order. -/
theorem Ordered.step (h : s.Ordered) (hs : LogsState.step env s l = some s') : s'.Ordered := by
  cases step_effect hs with
  | @worker w l m wk he =>
    refine { h with workers := fun w' ↦ ?_, closed := fun hc ↦ ?_ }
    · dsimp only
      rw [Function.update_apply]
      split
      · exact he.ordered (h.workers w)
      · exact h.workers w'
    · have hdone := h.closed hc w
      rw [he.not_done (h.workers w)] at hdone
      contradiction
  | cancel hk => exact { h with }
  | closeOut hc hd =>
    refine { h with closes := ?_, closed := fun _ ↦ hd, ended := fun _ ↦ rfl }
    rw [h.closes, hc]
    rfl
  | observeClose hc ho =>
    refine { h with ended := fun _ ↦ ?_ }
    rw [h.closes] at ho
    exact Bool.toNat_eq_one.mp (le_antisymm (Bool.toNat_le _) ho)
  | stop hc => exact { h with ended := nofun }

/-- The work left to all parties. -/
def work (s : LogsState n) : Nat :=
  ∑ w, (s.worker w).work + ((!s.closer).toNat + (!s.cancelled).toNat + s.consumer.work)

private theorem sum_update_lt {f : Fin n → LogsWorker} {w : Fin n} {wk : LogsWorker}
    (h : wk.work < (f w).work) :
    ∑ w', (Function.update f w wk w').work < ∑ w', (f w').work := by
  refine Finset.sum_lt_sum (fun w' _ ↦ ?_) ⟨w, Finset.mem_univ w, by rwa [Function.update_self]⟩
  rw [Function.update_apply]
  split
  · next heq =>
    rw [heq]
    exact h.le
  · exact le_rfl

/-- Every step is work done. -/
theorem Ordered.work_lt (h : s.Ordered) (hs : LogsState.step env s l = some s') :
    s'.work < s.work := by
  cases step_effect hs with
  | @worker w l m wk he => exact Nat.add_lt_add_right (sum_update_lt (he.work_lt (h.workers w))) _
  | cancel hk => simp [work, hk]
  | closeOut hc hd => simp [work, hc]
  | observeClose hc ho => simp [work, hc, LogsConsumer.work]
  | stop hc => simp [work, hc, LogsConsumer.work]

/-- Until the context is cancelled: what each worker has sent. -/
def Carrying (output : Fin n → List (Fd × UInt8)) (s : LogsState n) : Prop :=
  s.cancelled = false → ∀ w, (s.worker w).Carrying (output w) (sentBy w s.received)

/-- Every step keeps the account. -/
theorem Carrying.step (h : s.Carrying output) (ho : s.Ordered)
    (hs : LogsState.step env s l = some s') : s'.Carrying output := by
  cases step_effect hs with
  | @worker w l m wk he =>
    intro hk w'
    dsimp only
    rw [Function.update_apply, sentBy_append, sentBy_map]
    split
    · next heq =>
      subst heq
      have hk : s.cancelled = false := hk
      rw [hk] at he
      exact he.carrying (ho.workers w') (h hk w')
    · rw [List.append_nil]
      exact h hk w'
  | cancel hk => exact nofun
  | closeOut hc hd => exact h
  | observeClose hc hc' => exact h
  | stop hc => exact h

/-- Every run keeps the parties in order. -/
theorem ordered_of_run (h : runSteps (LogsState.step env) (init output) ls = some t) : t.Ordered :=
  runSteps_invariant (fun _ _ _ hs hu ↦ hs.step hu) (ordered_init output) h

/-- Every run keeps the account. -/
theorem carrying_of_run (h : runSteps (LogsState.step env) (init output) ls = some t) :
    t.Carrying output := by
  have hinit : (init output).Ordered ∧ (init output).Carrying output :=
    ⟨ordered_init output, fun _ w ↦ LogsWorker.carrying_init (output w)⟩
  have hboth : t.Ordered ∧ t.Carrying output :=
    runSteps_invariant (I := fun u ↦ u.Ordered ∧ u.Carrying output)
      (fun _ _ _ hs hu ↦ ⟨hs.1.step hu, hs.2.step hs.1 hu⟩) hinit h
  exact hboth.2

/-- The entries that the consumer has received from one stream of a container. -/
def entriesOf (env : LogsEnv n) (w : Fin n) (fd : Fd) (s : LogsState n) : List LogEntry :=
  (sentOn fd (sentBy w s.received)).map (LogsMsg.entry (logsName (env.containers w)))

/-- The parsed lines of a stream that are not empty. -/
def parsedLines (c : Summary) (fd : Fd) (input : Bytes) : List LogEntry :=
  ((scanLines input).filter (· ≠ [])).map (logEntry (logsName c) fd)

/-- The consumer has received the first entries of each stream, and each stream's all once it sees
`out` closed, but for a container whose process did not start. -/
structure Exact (env : LogsEnv n) (output : Fin n → List (Fd × UInt8)) (s : LogsState n) :
    Prop where
  inOrder : ∀ w fd,
    s.entriesOf env w fd <+: parsedLines (env.containers w) fd (bytesOf fd (output w))
  complete : s.consumer = .ended → ∀ w,
    ((s.worker w).phase = .finished ∧ ∀ fd,
      s.entriesOf env w fd = parsedLines (env.containers w) fd (bytesOf fd (output w))) ∨
    ((s.worker w).phase = .failed ∧ ∀ fd, s.entriesOf env w fd = [])

private theorem map_lineMsgs (c : Summary) (fd : Fd) (input : Bytes) :
    (lineMsgs fd (scanLines input)).map (LogsMsg.entry (logsName c)) = parsedLines c fd input := by
  rw [lineMsgs, List.map_map]
  rfl

/-- A stream without an over-long line has been received whole once its worker is through. -/
theorem Carrying.entriesOf_eq (h : s.Carrying output) (ho : s.Ordered) (hk : s.cancelled = false)
    {w : Fin n} {fd : Fd} (hphase : (s.worker w).phase = .finished)
    (hfits : Fits scannerMax (bytesOf fd (output w))) :
    s.entriesOf env w fd = parsedLines (env.containers w) fd (bytesOf fd (output w)) := by
  rw [entriesOf, (h hk w).sentOn_eq (ho.workers w) hphase hfits, map_lineMsgs]

/-- The accounts of all workers make up what the consumer has received. -/
theorem Carrying.exact (h : s.Carrying output) (ho : s.Ordered)
    (hfits : ∀ w fd, Fits scannerMax (bytesOf fd (output w))) (hk : s.cancelled = false) :
    s.Exact env output where
  inOrder w fd := by
    rw [← map_lineMsgs]
    exact ((h hk w).initial_sentOn (hfits w fd)).map _
  complete hended w := by
    have hdone := ho.closed (ho.ended hended) w
    cases hphase : (s.worker w).phase with
    | finished =>
      refine .inl ⟨rfl, fun fd ↦ ?_⟩
      exact h.entriesOf_eq ho hk hphase (hfits w fd)
    | failed =>
      refine .inr ⟨rfl, fun fd ↦ ?_⟩
      rw [entriesOf, (h hk w).sentOn_eq_nil hphase (hfits w fd), List.map_nil]
    | starting => simp [hphase, WorkerPhase.done] at hdone
    | streaming => simp [hphase, WorkerPhase.done] at hdone
    | reaping => simp [hphase, WorkerPhase.done] at hdone

/-- All goroutines have returned: the closer, the workers, and the emitters that were started. -/
def Finished (s : LogsState n) : Prop :=
  s.closer = true ∧ ∀ w, (s.worker w).phase.done = true ∧
    ∀ fd, ((s.worker w).emitter fd).phase = .idle ∨ ((s.worker w).emitter fd).phase = .finished

private theorem Ordered.emitter_done (h : s.Ordered) {w : Fin n}
    (hd : (s.worker w).phase.done = true) (fd : Fd) :
    ((s.worker w).emitter fd).phase = .idle ∨ ((s.worker w).emitter fd).phase = .finished := by
  cases hphase : (s.worker w).phase with
  | failed => exact .inl ((h.workers w).idle (.inr hphase) fd)
  | finished => exact .inr ((h.workers w).joined (.inr hphase) fd)
  | starting => simp [hphase, WorkerPhase.done] at hd
  | streaming => simp [hphase, WorkerPhase.done] at hd
  | reaping => simp [hphase, WorkerPhase.done] at hd

private theorem Ordered.progress (h : s.Ordered) (env : LogsEnv n) (hk : s.cancelled = true) :
    s.Finished ∨ ∃ l s', l.unaided = true ∧ LogsState.step env s l = some s' := by
  by_cases hd : ∀ w, (s.worker w).phase.done = true
  · cases hc : s.closer with
    | true => exact .inl ⟨hc, fun w ↦ ⟨hd w, h.emitter_done (hd w)⟩⟩
    | false => exact .inr ⟨.closeOut, _, rfl, if_pos ⟨hc, hd⟩⟩
  · obtain ⟨w, hw⟩ := not_forall.mp hd
    obtain ⟨l, wk, hl, hs⟩ := (h.workers w).advances env.cap (Bool.eq_false_iff.mpr hw)
    refine .inr ⟨.worker w l, { s with worker := Function.update s.worker w wk }, ?_, ?_⟩
    · cases l with
      | send fd => exact absurd rfl (hl fd)
      | _ => rfl
    · simp only [LogsState.step, stepWorker, hk, hs]

private theorem Carrying.progress (h : s.Carrying output)
    (hfits : ∀ w fd, Fits scannerMax (bytesOf fd (output w))) (ho : s.Ordered) (env : LogsEnv n)
    (hk : s.cancelled = false) (hc : s.consumer = .receiving) :
    ∃ l s', l ≠ .cancel ∧ l ≠ .stop ∧ LogsState.step env s l = some s' := by
  by_cases hd : ∀ w, (s.worker w).phase.done = true
  · cases hcloser : s.closer with
    | false => exact ⟨.closeOut, _, nofun, nofun, if_pos ⟨hcloser, hd⟩⟩
    | true =>
      have hcloses : 0 < s.closes := by simp [ho.closes, hcloser]
      exact ⟨.observeClose, _, nofun, nofun, if_pos ⟨hc, hcloses⟩⟩
  · have hcloser : s.closer = false := Bool.eq_false_iff.mpr fun hcloser ↦ hd (ho.closed hcloser)
    have hreceive : s.canReceive = true := by simp [canReceive, hc, ho.closes, hcloser]
    obtain ⟨w, hw⟩ := not_forall.mp hd
    obtain ⟨l, ⟨m, wk⟩, hs⟩ :=
      (h hk w).advances (hfits w) (ho.workers w) env.cap_pos (Bool.eq_false_iff.mpr hw)
    obtain ⟨s', hs'⟩ : ∃ s', LogsState.step env s (.worker w l) = some s' := by
      simp only [LogsState.step, stepWorker, hk, hs]
      cases m with
      | none => exact ⟨_, rfl⟩
      | some m => exact ⟨_, if_pos hreceive⟩
    exact ⟨.worker w l, s', nofun, nofun, hs'⟩

/-- Whatever the containers, their output and the interleaving: nobody is at a send once `out` is
closed, which happens once; without a cancellation a consumer that receives gets each stream's
lines in order and sees `out` closed; after one the goroutines go on until all are through,
whatever the consumer does. -/
theorem exact_and_winds_down (h : runSteps (step env) (init output) ls = some t) :
    (0 < t.closes → ∀ w fd, ((t.worker w).emitter fd).phase.atSend = false) ∧
      t.closes ≤ 1 ∧ (t.Finished → t.closes = 1) ∧
      ((∀ w fd, Fits scannerMax (bytesOf fd (output w))) → t.cancelled = false →
        t.Exact env output ∧ (t.consumer = .receiving →
          ∃ l u, l ≠ .cancel ∧ l ≠ .stop ∧ step env t l = some u)) ∧
      (t.cancelled = true → t.Finished ∨ ∃ l u, l.unaided = true ∧ step env t l = some u) ∧
      ∀ l u, step env t l = some u → u.work < t.work := by
  have ho : t.Ordered := ordered_of_run h
  refine ⟨fun hclosed w fd ↦ ?_, ?_, fun hfin ↦ ?_, fun hfits hk ↦ ?_, ho.progress env,
    fun l u ↦ ho.work_lt⟩
  · have hcloser : t.closer = true := by
      rw [ho.closes] at hclosed
      exact Bool.toNat_eq_one.mp (le_antisymm (Bool.toNat_le _) hclosed)
    rcases ho.emitter_done (ho.closed hcloser w) fd with hp | hp
    · rw [hp]
      rfl
    · rw [hp]
      rfl
  · rw [ho.closes]
    exact Bool.toNat_le _
  · rw [ho.closes, hfin.1]
    rfl
  · have hcarrying := carrying_of_run h
    exact ⟨hcarrying.exact ho hfits hk, hcarrying.progress hfits ho env hk⟩

/-- Two containers, `app` and `db`. -/
def demoLogsEnv : LogsEnv 2 where
  cap := 8
  cap_pos := by decide
  containers w :=
    if w.val = 0 then ⟨"c1", ["/app"], "", "", "running", "", ∅⟩
    else ⟨"c2", ["/db"], "", "", "running", "", ∅⟩

/-- A line and an empty one on the standard output of `app`, a line on that of `db`, and a line on
the standard error of each. -/
def demoLogsOutput (w : Fin 2) : List (Fd × UInt8) :=
  if w.val = 0 then
    [(.stdout, 97), (.stderr, 99), (.stdout, 32), (.stdout, 98), (.stdout, newline),
      (.stdout, newline)]
  else [(.stdout, 100), (.stdout, newline), (.stderr, 101)]

/-- A run in which the consumer sees `out` closed. -/
def demoLogsRun : List (LogsLabel 2) :=
  let app (l : WorkerLabel) : LogsLabel 2 := .worker ⟨0, by decide⟩ l
  let db (l : WorkerLabel) : LogsLabel 2 := .worker ⟨1, by decide⟩ l
  [app (.start true), app .write, db (.start true), app .write, db .write, app .write, app .write,
    app .write, db .write, db (.read .stdout 2), app (.read .stdout 4), app (.scan .stdout),
    db (.scan .stdout), app .write, app (.read .stderr 1), app (.exit 0), db (.send .stdout),
    app (.scan .stderr), app (.send .stderr), db .write, db (.exit 0), app (.send .stdout),
    app (.read .stdout 1), app (.scan .stdout), app (.scan .stdout), app (.scan .stderr), app .join,
    app .reap, db (.scan .stdout), db (.read .stderr 1), db (.scan .stderr), db (.send .stderr),
    db (.scan .stderr), db .join, db .reap, .closeOut, .observeClose]

/-- The scanners' buffers hold these outputs. -/
theorem fits_demoLogsOutput (w : Fin 2) (fd : Fd) :
    Fits scannerMax (bytesOf fd (demoLogsOutput w)) := by
  refine fits_of_length_lt ?_
  match w, fd with
  | 0, .stdout => exact (by decide : 5 < scannerMax)
  | 0, .stderr => exact (by decide : 1 < scannerMax)
  | 1, .stdout => exact (by decide : 2 < scannerMax)
  | 1, .stderr => exact (by decide : 1 < scannerMax)

/-- Its consumer has received the four lines. -/
theorem exact_and_winds_down_demo : ∃ t,
    runSteps (step demoLogsEnv) (init demoLogsOutput) demoLogsRun = some t ∧
      t.consumer = .ended ∧ t.closes = 1 ∧ t.received.length = 4 ∧
      t.Exact demoLogsEnv demoLogsOutput := by
  obtain ⟨t, ht, hend⟩ := (Option.any_eq_true _ _).mp (by decide +kernel :
    (runSteps (step demoLogsEnv) (init demoLogsOutput) demoLogsRun).any (fun t ↦
      t.consumer = .ended ∧ t.closes = 1 ∧ t.received.length = 4 ∧ t.cancelled = false) = true)
  obtain ⟨hended, hcloses, hlength, hk⟩ := of_decide_eq_true hend
  exact ⟨t, ht, hended, hcloses, hlength,
    ((exact_and_winds_down ht).2.2.2.1 fits_demoLogsOutput hk).1⟩

end LogsState

end Dockstack.Docker
