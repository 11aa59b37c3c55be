import Dockstack.Docker.StackLogs

/-!
# One container's log worker

What a step of a worker of `StreamStackLogs` (`internal/docker/logs.go:29–86`) does, and what it
keeps: the order that its wait group and its process impose, a measure of the work that is left, and
the account of the lines while the context is not cancelled.
-/

namespace Dockstack.Docker

open Dockstack.Base

/-- The steps that a worker's phase leaves to take. -/
def WorkerPhase.work : WorkerPhase → Nat
  | .starting => 3
  | .streaming => 2
  | .reaping => 1
  | .failed => 0
  | .finished => 0

/-- What a stream's emitter sends of its input, one message for each line that is not empty. -/
def lineMsgs (fd : Fd) (lines : List Bytes) : List LogsMsg :=
  (lines.filter (· ≠ [])).map (.line fd)

/-- The messages among those sent that come from one emitter. -/
def sentOn (fd : Fd) (sent : List LogsMsg) : List LogsMsg := sent.filter (·.fd = fd)

@[simp] theorem lineMsgs_append (fd : Fd) (lines lines' : List Bytes) :
    lineMsgs fd (lines ++ lines') = lineMsgs fd lines ++ lineMsgs fd lines' := by
  rw [lineMsgs, List.filter_append, List.map_append, lineMsgs, lineMsgs]

@[simp] theorem sentOn_append (fd : Fd) (sent sent' : List LogsMsg) :
    sentOn fd (sent ++ sent') = sentOn fd sent ++ sentOn fd sent' :=
  List.filter_append sent sent'

/-- What an emitter has sent are the lines that it has scanned, but for the empty ones. -/
structure Conveyed (exited : Bool) (pending written : Bytes) (fd : Fd) (sent : List LogsMsg)
    (e : Emitter) : Prop where
  scanned : ∃ scanned, Carried exited pending written scanned e ∧ sent = lineMsgs fd scanned
  text : ∀ text, e.phase = .sending text → text ≠ []

namespace Conveyed

variable {exited : Bool} {pending written : Bytes} {fd : Fd} {sent : List LogsMsg} {e : Emitter}
  {p : EmitterPhase} {r r' : PipeReader}

/-- An emitter at a scan yields no over-long line. -/
theorem scan_ne_tooLong (h : Conveyed exited pending written fd sent e) (closed : Bool) :
    e.reader.scan scannerMax closed ≠ some .tooLong := by
  obtain ⟨scanned, hcarried, -⟩ := h.scanned
  exact PipeReader.scan_ne_tooLong hcarried.fits_unread

/-- The process writes a byte to the pipe. -/
theorem write {cap : Nat} {b : UInt8}
    (h : Conveyed false (b :: pending) written fd sent ⟨p, r⟩) (hr : r.write cap b = some r') :
    Conveyed false pending (written ++ [b]) fd sent ⟨p, r'⟩ := by
  obtain ⟨scanned, hcarried, hsent⟩ := h.scanned
  exact ⟨⟨scanned, hcarried.write hr, hsent⟩, h.text⟩

/-- The process exits. -/
theorem exit (h : Conveyed false pending written fd sent e) :
    Conveyed true [] written fd sent e := by
  obtain ⟨scanned, hcarried, hsent⟩ := h.scanned
  exact ⟨⟨scanned, hcarried.exit, hsent⟩, h.text⟩

/-- The emitter starts. -/
theorem start (h : Conveyed exited pending written fd sent ⟨.idle, r⟩) :
    Conveyed exited pending written fd sent ⟨.scanning, r⟩ := by
  obtain ⟨scanned, hcarried, hsent⟩ := h.scanned
  exact ⟨⟨scanned, hcarried.start, hsent⟩, nofun⟩

/-- The emitter's scanner reads. -/
theorem read {n : Nat} (h : Conveyed exited pending written fd sent ⟨.scanning, r⟩)
    (hr : r.read scannerMax n = some r') :
    Conveyed exited pending written fd sent ⟨.scanning, r'⟩ := by
  obtain ⟨scanned, hcarried, hsent⟩ := h.scanned
  exact ⟨⟨scanned, hcarried.read hr, hsent⟩, nofun⟩

/-- The emitter's scanner returns a line that is to be sent. -/
theorem token {text : Bytes} (h : Conveyed exited pending written fd sent ⟨.scanning, r⟩)
    (hs : r.scan scannerMax exited = some (.token text r')) (ht : text ≠ []) :
    Conveyed exited pending written fd sent ⟨.sending text, r'⟩ := by
  obtain ⟨scanned, hcarried, hsent⟩ := h.scanned
  refine ⟨⟨scanned, hcarried.token hs, hsent⟩, ?_⟩
  rintro _ ⟨⟩
  exact ht

/-- The emitter's scanner returns an empty line. -/
theorem skip (h : Conveyed exited pending written fd sent ⟨.scanning, r⟩)
    (hs : r.scan scannerMax exited = some (.token [] r')) :
    Conveyed exited pending written fd sent ⟨.scanning, r'⟩ := by
  obtain ⟨scanned, hcarried, rfl⟩ := h.scanned
  refine ⟨⟨scanned ++ [[]], (hcarried.token hs).deliver, ?_⟩, nofun⟩
  simp [lineMsgs]

/-- The emitter's scanner is at the end. -/
theorem eof (h : Conveyed exited pending written fd sent ⟨.scanning, r⟩)
    (hs : r.scan scannerMax exited = some .done) :
    Conveyed exited pending written fd sent ⟨.finished, r⟩ := by
  obtain ⟨scanned, hcarried, hsent⟩ := h.scanned
  exact ⟨⟨scanned, hcarried.eof hs, hsent⟩, nofun⟩

/-- The emitter's line is received. -/
theorem deliver {text : Bytes} (h : Conveyed exited pending written fd sent ⟨.sending text, r⟩) :
    Conveyed exited pending written fd (sent ++ [.line fd text]) ⟨.scanning, r⟩ := by
  have ht : text ≠ [] := h.text text rfl
  obtain ⟨scanned, hcarried, rfl⟩ := h.scanned
  refine ⟨⟨scanned ++ [text], hcarried.deliver, ?_⟩, nofun⟩
  simp [lineMsgs, ht]

/-- An emitter has sent the first lines of its input. -/
theorem initial_sent (h : Conveyed exited pending written fd sent e)
    (hexited : exited = true → pending = []) :
    sent <+: lineMsgs fd (scanLines (written ++ pending)) := by
  obtain ⟨scanned, hcarried, rfl⟩ := h.scanned
  rw [hcarried.lines pending hexited, lineMsgs_append]
  exact List.prefix_append ..

/-- An emitter that is through has sent them all. -/
theorem sent_eq (h : Conveyed exited pending written fd sent e) (hp : e.phase = .finished) :
    sent = lineMsgs fd (scanLines written) := by
  obtain ⟨scanned, hcarried, rfl⟩ := h.scanned
  rw [hcarried.sent_eq hp]

end Conveyed

/-- An emitter at a send has started and is not through. -/
theorem EmitterPhase.ne_of_atSend {p : EmitterPhase} (h : p.atSend = true) :
    p ≠ .idle ∧ p ≠ .finished := by
  constructor
  · rintro rfl
    contradiction
  · rintro rfl
    contradiction

namespace LogsWorker

/-- What a step does, by its label: what it sends, and the worker after it. -/
inductive Effect (cap : Nat) (cancelled : Bool) (wk : LogsWorker) :
    WorkerLabel → Option LogsMsg → LogsWorker → Prop where
  | started (hp : wk.phase = .starting) (hk : cancelled = false) :
      Effect cap cancelled wk (.start true) none { wk with
        phase := .streaming
        emitter := fun fd ↦ ⟨.scanning, (wk.emitter fd).reader⟩ }
  | failed (hp : wk.phase = .starting) :
      Effect cap cancelled wk (.start false) none { wk with phase := .failed }
  | write {fd : Fd} {b : UInt8} {rest : List (Fd × UInt8)} {r : PipeReader}
      (hp : wk.hasProcess = true) (hc : wk.child = .running ((fd, b) :: rest))
      (hr : (wk.emitter fd).reader.write cap b = some r) :
      Effect cap cancelled wk .write none ({ wk with
        child := .running rest, written := wk.written ++ [(fd, b)] }.setEmitter fd
          ⟨(wk.emitter fd).phase, r⟩)
  | exit {n : Nat} (hp : wk.hasProcess = true) (hc : wk.child = .running []) :
      Effect cap cancelled wk (.exit n) none { wk with child := .exited (.code n) }
  | kill {pending : List (Fd × UInt8)} (hk : cancelled = true) (hp : wk.hasProcess = true)
      (hc : wk.child = .running pending) :
      Effect cap cancelled wk .kill none { wk with child := .exited .killed }
  | read {fd : Fd} {n : Nat} {r : PipeReader} (hp : (wk.emitter fd).phase = .scanning)
      (hr : (wk.emitter fd).reader.read scannerMax n = some r) :
      Effect cap cancelled wk (.read fd n) none (wk.setEmitter fd ⟨.scanning, r⟩)
  | token {fd : Fd} {text : Bytes} {r : PipeReader} (hp : (wk.emitter fd).phase = .scanning)
      (hs : (wk.emitter fd).reader.scan scannerMax wk.child.isExited = some (.token text r))
      (ht : text ≠ []) :
      Effect cap cancelled wk (.scan fd) none (wk.setEmitter fd ⟨.sending text, r⟩)
  | skip {fd : Fd} {r : PipeReader} (hp : (wk.emitter fd).phase = .scanning)
      (hs : (wk.emitter fd).reader.scan scannerMax wk.child.isExited = some (.token [] r)) :
      Effect cap cancelled wk (.scan fd) none (wk.setEmitter fd ⟨.scanning, r⟩)
  | tooLong {fd : Fd} (hp : (wk.emitter fd).phase = .scanning)
      (hs : (wk.emitter fd).reader.scan scannerMax wk.child.isExited = some .tooLong) :
      Effect cap cancelled wk (.scan fd) none
        (wk.setEmitter fd ⟨if cancelled then .finished else .failing, (wk.emitter fd).reader⟩)
  | eof {fd : Fd} (hp : (wk.emitter fd).phase = .scanning)
      (hs : (wk.emitter fd).reader.scan scannerMax wk.child.isExited = some .done) :
      Effect cap cancelled wk (.scan fd) none
        (wk.setEmitter fd ⟨.finished, (wk.emitter fd).reader⟩)
  | line {fd : Fd} {text : Bytes} (hp : (wk.emitter fd).phase = .sending text) :
      Effect cap cancelled wk (.send fd) (some (.line fd text))
        (wk.setEmitter fd ⟨.scanning, (wk.emitter fd).reader⟩)
  | scanError {fd : Fd} (hp : (wk.emitter fd).phase = .failing) :
      Effect cap cancelled wk (.send fd) (some (.scanError fd))
        (wk.setEmitter fd ⟨.finished, (wk.emitter fd).reader⟩)
  | giveUp {fd : Fd} (hk : cancelled = true) (hp : (wk.emitter fd).phase.atSend = true) :
      Effect cap cancelled wk (.giveUp fd) none
        (wk.setEmitter fd ⟨.finished, (wk.emitter fd).reader⟩)
  | join (hp : wk.phase = .streaming) (hf : ∀ fd, (wk.emitter fd).phase = .finished) :
      Effect cap cancelled wk .join none { wk with phase := .reaping }
  | reap (hp : wk.phase = .reaping) (hc : wk.child.isExited = true) :
      Effect cap cancelled wk .reap none { wk with phase := .finished }

variable {cap : Nat} {cancelled : Bool} {wk wk' : LogsWorker} {l : WorkerLabel} {m : Option LogsMsg}

private theorem start_effect {ok : Bool} (h : wk.start cancelled ok = some wk') :
    Effect cap cancelled wk (.start ok) none wk' := by
  unfold start at h
  split at h
  · contradiction
  · next hp =>
    have hp := not_not.mp hp
    cases ok with
    | true =>
      cases cancelled with
      | true => contradiction
      | false =>
        obtain rfl := Option.some.inj h
        exact .started hp rfl
    | false =>
      obtain rfl := Option.some.inj h
      exact .failed hp

private theorem write_effect (h : wk.write cap = some wk') :
    Effect cap cancelled wk .write none wk' := by
  unfold write at h
  split at h
  · next hc =>
    split at h
    · next hp =>
      obtain ⟨r, hr, rfl⟩ := Option.map_eq_some_iff.mp h
      exact .write hp hc hr
    · contradiction
  · contradiction

private theorem exit_effect {n : Nat} (h : wk.exit n = some wk') :
    Effect cap cancelled wk (.exit n) none wk' := by
  unfold exit at h
  split at h
  · next hc =>
    obtain ⟨hp, ⟨⟩⟩ := Option.ite_none_right_eq_some.mp h
    exact .exit hp hc
  · contradiction

private theorem kill_effect (h : wk.kill cancelled = some wk') :
    Effect cap cancelled wk .kill none wk' := by
  unfold kill at h
  split at h
  · next hc =>
    obtain ⟨⟨hk, hp⟩, ⟨⟩⟩ := Option.ite_none_right_eq_some.mp h
    exact .kill hk hp hc
  · contradiction

private theorem scan_effect {fd : Fd} (h : wk.scan cancelled fd = some wk') :
    Effect cap cancelled wk (.scan fd) none wk' := by
  unfold scan at h
  split at h
  · next hp =>
    split at h
    · contradiction
    · next text r hs =>
      obtain rfl := Option.some.inj h
      by_cases ht : text = []
      · subst ht
        exact .skip hp hs
      · rw [if_neg ht]
        exact .token hp hs ht
    · next hs =>
      obtain rfl := Option.some.inj h
      exact .tooLong hp hs
    · next hs =>
      obtain rfl := Option.some.inj h
      exact .eof hp hs
  · contradiction

private theorem send_effect {fd : Fd} {msg : LogsMsg} (h : wk.send fd = some (msg, wk')) :
    Effect cap cancelled wk (.send fd) (some msg) wk' := by
  unfold send at h
  split at h
  · next hp =>
    obtain ⟨rfl, rfl⟩ := Prod.ext_iff.mp (Option.some.inj h)
    exact .line hp
  · next hp =>
    obtain ⟨rfl, rfl⟩ := Prod.ext_iff.mp (Option.some.inj h)
    exact .scanError hp
  · contradiction

private theorem of_map_none {o : Option LogsWorker} (h : o.map ((none : Option LogsMsg), ·) =
    some (m, wk')) : m = none ∧ o = some wk' := by
  obtain ⟨wk'', ho, heq⟩ := Option.map_eq_some_iff.mp h
  obtain ⟨rfl, rfl⟩ := Prod.ext_iff.mp heq
  exact ⟨rfl, ho⟩

/-- Every step has the effect of its label. -/
theorem step_effect (h : wk.step cap cancelled l = some (m, wk')) :
    Effect cap cancelled wk l m wk' := by
  cases l with
  | start ok =>
    obtain ⟨rfl, hstart⟩ := of_map_none (o := wk.start cancelled ok) h
    exact start_effect hstart
  | write =>
    obtain ⟨rfl, hwrite⟩ := of_map_none (o := wk.write cap) h
    exact write_effect hwrite
  | exit n =>
    obtain ⟨rfl, hexit⟩ := of_map_none (o := wk.exit n) h
    exact exit_effect hexit
  | kill =>
    obtain ⟨rfl, hkill⟩ := of_map_none (o := wk.kill cancelled) h
    exact kill_effect hkill
  | read fd n =>
    obtain ⟨rfl, hread⟩ := of_map_none (o := wk.read fd n) h
    obtain ⟨hp, hread⟩ := Option.ite_none_right_eq_some.mp hread
    obtain ⟨r, hr, rfl⟩ := Option.map_eq_some_iff.mp hread
    exact .read hp hr
  | scan fd =>
    obtain ⟨rfl, hscan⟩ := of_map_none (o := wk.scan cancelled fd) h
    exact scan_effect hscan
  | send fd =>
    obtain ⟨p, hsend, heq⟩ := Option.map_eq_some_iff.mp h
    obtain ⟨rfl, rfl⟩ := Prod.ext_iff.mp heq
    exact send_effect hsend
  | giveUp fd =>
    obtain ⟨rfl, hgive⟩ := of_map_none (o := wk.giveUp cancelled fd) h
    obtain ⟨⟨hk, hp⟩, ⟨⟩⟩ := Option.ite_none_right_eq_some.mp hgive
    exact .giveUp hk hp
  | join =>
    obtain ⟨rfl, hjoin⟩ := of_map_none (o := wk.join) h
    obtain ⟨⟨hp, hout, herr⟩, ⟨⟩⟩ := Option.ite_none_right_eq_some.mp hjoin
    refine .join hp fun fd ↦ ?_
    cases fd with
    | stdout => exact hout
    | stderr => exact herr
  | reap =>
    obtain ⟨rfl, hreap⟩ := of_map_none (o := wk.reap) h
    obtain ⟨⟨hp, hc⟩, ⟨⟩⟩ := Option.ite_none_right_eq_some.mp hreap
    exact .reap hp hc

/-- What the wait group and the process impose on a worker. -/
structure Ordered (wk : LogsWorker) : Prop where
  idle : wk.phase = .starting ∨ wk.phase = .failed → ∀ fd, (wk.emitter fd).phase = .idle
  live : wk.phase = .streaming → ∀ fd, (wk.emitter fd).phase ≠ .idle
  joined : wk.phase = .reaping ∨ wk.phase = .finished → ∀ fd, (wk.emitter fd).phase = .finished
  gone : wk.phase = .finished → wk.child.isExited = true

/-- A process that can move has been started, and not been waited for. -/
theorem phase_of_hasProcess (h : wk.hasProcess = true) :
    wk.phase = .streaming ∨ wk.phase = .reaping := by
  simpa [hasProcess] using h

/-- Before the process starts, all is in order. -/
theorem ordered_init (output : List (Fd × UInt8)) : (init output).Ordered := by
  constructor <;> simp [init]

/-- An emitter that is at work belongs to a worker at `streamWG.Wait()`. -/
theorem Ordered.streaming {fd : Fd} {p : EmitterPhase} (h : wk.Ordered)
    (hp : (wk.emitter fd).phase = p) (hidle : p ≠ .idle) (hfin : p ≠ .finished) :
    wk.phase = .streaming := by
  subst hp
  cases hphase : wk.phase with
  | starting => exact absurd (h.idle (.inl hphase) fd) hidle
  | failed => exact absurd (h.idle (.inr hphase) fd) hidle
  | streaming => rfl
  | reaping => exact absurd (h.joined (.inl hphase) fd) hfin
  | finished => exact absurd (h.joined (.inr hphase) fd) hfin

private theorem Ordered.setEmitter {fd : Fd} {e : Emitter} (h : wk.Ordered)
    (hp : wk.phase = .streaming) (he : e.phase ≠ .idle) : (wk.setEmitter fd e).Ordered where
  idle := by simp [hp]
  live := fun _ fd' ↦ by
    rw [setEmitter_emitter]
    split
    · exact he
    · exact h.live hp fd'
  joined := by simp [hp]
  gone := by simp [hp]

private theorem Ordered.write {fd : Fd} {r : PipeReader} {rest : List (Fd × UInt8)} {b : UInt8}
    (h : wk.Ordered) (hp : wk.hasProcess = true) :
    ({ wk with child := .running rest, written := wk.written ++ [(fd, b)] }.setEmitter fd
      ⟨(wk.emitter fd).phase, r⟩).Ordered := by
  have hfin : wk.phase ≠ .finished := by
    rcases phase_of_hasProcess hp with hp | hp <;> simp [hp]
  have hphase (fd' : Fd) : (({ wk with
      child := .running rest, written := wk.written ++ [(fd, b)] }.setEmitter fd
        ⟨(wk.emitter fd).phase, r⟩).emitter fd').phase = (wk.emitter fd').phase := by
    rw [setEmitter_emitter]
    split
    · next heq => rw [heq]
    · rfl
  constructor
  · intro hidle fd'
    exact (hphase fd').trans (h.idle hidle fd')
  · intro hlive fd'
    rw [hphase fd']
    exact h.live hlive fd'
  · intro hjoined fd'
    exact (hphase fd').trans (h.joined hjoined fd')
  · intro hgone
    exact absurd hgone hfin

/-- Every step keeps a worker in order. -/
theorem Effect.ordered (he : Effect cap cancelled wk l m wk') (h : wk.Ordered) :
    wk'.Ordered := by
  cases he with
  | started hp hk => exact ⟨by simp, by simp, by simp, by simp⟩
  | failed hp => exact ⟨fun _ ↦ h.idle (.inl hp), by simp, by simp, by simp⟩
  | write hp hc hr => exact h.write hp
  | exit hp hc => exact { h with gone := fun _ ↦ rfl }
  | kill hk hp hc => exact { h with gone := fun _ ↦ rfl }
  | read hp hr => exact h.setEmitter (h.streaming hp nofun nofun) nofun
  | token hp hs ht => exact h.setEmitter (h.streaming hp nofun nofun) nofun
  | skip hp hs => exact h.setEmitter (h.streaming hp nofun nofun) nofun
  | tooLong hp hs =>
    refine h.setEmitter (h.streaming hp nofun nofun) ?_
    cases cancelled <;> simp
  | eof hp hs => exact h.setEmitter (h.streaming hp nofun nofun) nofun
  | line hp => exact h.setEmitter (h.streaming hp nofun nofun) nofun
  | scanError hp => exact h.setEmitter (h.streaming hp nofun nofun) nofun
  | giveUp hk hp =>
    obtain ⟨hidle, hfin⟩ := EmitterPhase.ne_of_atSend hp
    exact h.setEmitter (h.streaming rfl hidle hfin) nofun
  | join hp hf => exact ⟨by simp, by simp, fun _ ↦ hf, by simp⟩
  | reap hp hc => exact ⟨by simp, by simp, fun _ ↦ h.joined (.inl hp), fun _ ↦ hc⟩

/-- The work left to a worker, its process and its emitters. -/
def work (wk : LogsWorker) : Nat :=
  wk.phase.work + wk.child.work + ((wk.emitter .stdout).work + (wk.emitter .stderr).work)

private theorem work_setEmitter (wk : LogsWorker) (fd : Fd) (e : Emitter) :
    (wk.setEmitter fd e).work + (wk.emitter fd).work = wk.work + e.work := by
  cases fd with
  | stdout =>
    simp [work]
    omega
  | stderr =>
    simp [work]
    omega

private theorem work_emitter_lt {fd : Fd} {e : Emitter} (h : e.work < (wk.emitter fd).work) :
    (wk.setEmitter fd e).work < wk.work := by
  have hwork := work_setEmitter wk fd e
  omega

private theorem work_write {fd : Fd} {b : UInt8} {rest : List (Fd × UInt8)} {r : PipeReader}
    (hc : wk.child = .running ((fd, b) :: rest))
    (hr : (wk.emitter fd).reader.write cap b = some r) :
    ({ wk with child := .running rest, written := wk.written ++ [(fd, b)] }.setEmitter fd
      ⟨(wk.emitter fd).phase, r⟩).work < wk.work := by
  have hreader := PipeReader.work_write hr
  have hwork := work_setEmitter { wk with
    child := .running rest, written := wk.written ++ [(fd, b)] } fd ⟨(wk.emitter fd).phase, r⟩
  simp only [work, hc, Child.work, List.length_cons, Emitter.work] at hwork ⊢
  omega

/-- Every step is work done. -/
theorem Effect.work_lt (he : Effect cap cancelled wk l m wk') (h : wk.Ordered) :
    wk'.work < wk.work := by
  cases he with
  | started hp hk =>
    have hidle := h.idle (.inl hp)
    simp [work, Emitter.work, EmitterPhase.work, WorkerPhase.work, hp, hidle]
  | failed hp => simp [work, WorkerPhase.work, hp]
  | write hp hc hr => exact work_write hc hr
  | exit hp hc => simp [work, Child.work, hc]
  | kill hk hp hc => simp [work, Child.work, hc]
  | read hp hr =>
    have hreader := PipeReader.work_read hr
    exact work_emitter_lt (by simp only [Emitter.work, hp, EmitterPhase.work]; omega)
  | token hp hs ht =>
    have hreader := PipeReader.work_token hs
    exact work_emitter_lt (by simp only [Emitter.work, hp, EmitterPhase.work]; omega)
  | skip hp hs =>
    have hreader := PipeReader.work_token hs
    exact work_emitter_lt (by simp only [Emitter.work, hp, EmitterPhase.work]; omega)
  | tooLong hp hs =>
    refine work_emitter_lt ?_
    cases cancelled <;> simp [Emitter.work, hp, EmitterPhase.work]
  | eof hp hs => exact work_emitter_lt (by simp [Emitter.work, hp, EmitterPhase.work])
  | line hp => exact work_emitter_lt (by simp [Emitter.work, hp, EmitterPhase.work])
  | scanError hp => exact work_emitter_lt (by simp [Emitter.work, hp, EmitterPhase.work])
  | @giveUp fd hk hp =>
    refine work_emitter_lt ?_
    cases hphase : (wk.emitter fd).phase <;>
      simp [Emitter.work, hphase, EmitterPhase.work, EmitterPhase.atSend] at hp ⊢
  | join hp hf => simp [work, WorkerPhase.work, hp]
  | reap hp hc => simp [work, WorkerPhase.work, hp]

/-- While the context is not cancelled: what the process has written of `output`, and what has been
sent of a stream without an over-long line. -/
structure Carrying (output : List (Fd × UInt8)) (sent : List LogsMsg) (wk : LogsWorker) :
    Prop where
  written : wk.written ++ wk.child.pending = output
  unstarted : wk.phase = .starting ∨ wk.phase = .failed → wk.written = []
  conveyed : ∀ fd, Fits scannerMax (bytesOf fd output) →
    Conveyed wk.child.isExited (bytesOf fd wk.child.pending) (bytesOf fd wk.written) fd
      (sentOn fd sent) (wk.emitter fd)

variable {output : List (Fd × UInt8)} {sent : List LogsMsg}

/-- Before the process starts, nothing has been sent. -/
theorem carrying_init (output : List (Fd × UInt8)) : (init output).Carrying output [] where
  written := rfl
  unstarted := fun _ ↦ rfl
  conveyed := fun fd hfits ↦ by
    refine ⟨⟨[], ?_, rfl⟩, nofun⟩
    exact {
      fits := hfits
      lines := fun _ _ ↦ rfl
      through := nofun
      noError := nofun }

private theorem Carrying.at {fd : Fd} {p : EmitterPhase} (h : wk.Carrying output sent)
    (hfits : Fits scannerMax (bytesOf fd output)) (hp : (wk.emitter fd).phase = p) :
    Conveyed wk.child.isExited (bytesOf fd wk.child.pending) (bytesOf fd wk.written) fd
      (sentOn fd sent) ⟨p, (wk.emitter fd).reader⟩ := by
  have hconveyed := h.conveyed fd hfits
  subst hp
  exact hconveyed

private theorem Carrying.silent (h : wk.Carrying output sent) :
    wk.Carrying output (sent ++ (none : Option LogsMsg).toList) := by
  rwa [Option.toList_none, List.append_nil]

private theorem sentOn_other {m : LogsMsg} {fd : Fd} (h : fd ≠ m.fd) :
    sentOn fd (some m).toList = [] := by
  simp [sentOn, Ne.symm h]

private theorem Carrying.setEmitter {fd : Fd} {e : Emitter} (h : wk.Carrying output sent)
    (hm : ∀ fd', fd' ≠ fd → sentOn fd' m.toList = [])
    (he : Fits scannerMax (bytesOf fd output) → Conveyed wk.child.isExited
      (bytesOf fd wk.child.pending) (bytesOf fd wk.written) fd (sentOn fd (sent ++ m.toList)) e) :
    (wk.setEmitter fd e).Carrying output (sent ++ m.toList) := by
  refine ⟨h.written, h.unstarted, fun fd' hfits ↦ ?_⟩
  rw [setEmitter_emitter]
  split
  · next heq =>
    subst heq
    exact he hfits
  · next hne =>
    rw [sentOn_append, hm fd' hne, List.append_nil]
    exact h.conveyed fd' hfits

private theorem Carrying.setEmitter_silent {fd : Fd} {e : Emitter} (h : wk.Carrying output sent)
    (he : Fits scannerMax (bytesOf fd output) → Conveyed wk.child.isExited
      (bytesOf fd wk.child.pending) (bytesOf fd wk.written) fd (sentOn fd sent) e) :
    (wk.setEmitter fd e).Carrying output (sent ++ (none : Option LogsMsg).toList) :=
  h.setEmitter (fun _ _ ↦ rfl) (by rwa [Option.toList_none, List.append_nil])

private theorem Carrying.write {fd : Fd} {b : UInt8} {rest : List (Fd × UInt8)} {r : PipeReader}
    (h : wk.Carrying output sent) (hp : wk.hasProcess = true)
    (hc : wk.child = .running ((fd, b) :: rest))
    (hr : (wk.emitter fd).reader.write cap b = some r) :
    ({ wk with child := .running rest, written := wk.written ++ [(fd, b)] }.setEmitter fd
      ⟨(wk.emitter fd).phase, r⟩).Carrying output sent := by
  have hstarted : ¬ (wk.phase = .starting ∨ wk.phase = .failed) := by
    rcases phase_of_hasProcess hp with hp | hp <;> simp [hp]
  refine ⟨?_, fun hu ↦ absurd hu hstarted, fun fd' hfits ↦ ?_⟩
  · have hwritten := h.written
    rw [hc, Child.pending] at hwritten
    simpa [Child.pending] using hwritten
  · have hconveyed := h.conveyed fd' hfits
    simp only [hc, Child.pending, Child.isExited, bytesOf_cons] at hconveyed
    simp only [setEmitter_emitter, setEmitter_child, setEmitter_written, Child.pending,
      Child.isExited, bytesOf_append, bytesOf_cons, bytesOf_nil]
    by_cases heq : fd' = fd
    · subst heq
      simp only [if_pos] at hconveyed ⊢
      exact hconveyed.write hr
    · simp only [if_neg heq, if_neg (Ne.symm heq), List.append_nil] at hconveyed ⊢
      exact hconveyed

/-- Every step before the context is cancelled keeps the account. -/
theorem Effect.carrying (he : Effect cap false wk l m wk') (ho : wk.Ordered)
    (h : wk.Carrying output sent) : wk'.Carrying output (sent ++ m.toList) := by
  cases he with
  | started hp hk =>
    refine Carrying.silent ⟨h.written, fun _ ↦ h.unstarted (.inl hp), fun fd hfits ↦ ?_⟩
    exact (h.at hfits (ho.idle (.inl hp) fd)).start
  | failed hp => exact Carrying.silent { h with unstarted := fun _ ↦ h.unstarted (.inl hp) }
  | write hp hc hr => exact (h.write hp hc hr).silent
  | exit hp hc =>
    refine Carrying.silent ⟨?_, h.unstarted, fun fd hfits ↦ ?_⟩
    · have hwritten := h.written
      rwa [hc] at hwritten
    · have hconveyed := h.conveyed fd hfits
      rw [hc] at hconveyed
      exact hconveyed.exit
  | kill hk hp hc => contradiction
  | read hp hr => exact h.setEmitter_silent fun hfits ↦ (h.at hfits hp).read hr
  | token hp hs ht => exact h.setEmitter_silent fun hfits ↦ (h.at hfits hp).token hs ht
  | skip hp hs => exact h.setEmitter_silent fun hfits ↦ (h.at hfits hp).skip hs
  | tooLong hp hs =>
    exact h.setEmitter_silent fun hfits ↦ absurd hs ((h.conveyed _ hfits).scan_ne_tooLong _)
  | eof hp hs => exact h.setEmitter_silent fun hfits ↦ (h.at hfits hp).eof hs
  | @line fd text hp =>
    refine h.setEmitter (fun fd' hne ↦ sentOn_other hne) fun hfits ↦ ?_
    rw [sentOn_append]
    simpa [sentOn, LogsMsg.fd] using (h.at hfits hp).deliver
  | scanError hp =>
    refine h.setEmitter (fun fd' hne ↦ sentOn_other hne) fun hfits ↦ ?_
    obtain ⟨scanned, hcarried, -⟩ := (h.at hfits hp).scanned
    exact absurd rfl hcarried.noError
  | giveUp hk hp => contradiction
  | join hp hf => exact Carrying.silent { h with unstarted := by simp }
  | reap hp hc => exact Carrying.silent { h with unstarted := by simp }

/-- A worker has sent the first lines of what its process writes. -/
theorem Carrying.initial_sentOn (h : wk.Carrying output sent) {fd : Fd}
    (hfits : Fits scannerMax (bytesOf fd output)) :
    sentOn fd sent <+: lineMsgs fd (scanLines (bytesOf fd output)) := by
  have hconveyed := h.conveyed fd hfits
  rw [← h.written, bytesOf_append]
  refine hconveyed.initial_sent fun hexited ↦ ?_
  rw [Child.pending_of_isExited hexited, bytesOf_nil]

/-- A worker that has waited for its process has sent every line. -/
theorem Carrying.sentOn_eq (h : wk.Carrying output sent) (ho : wk.Ordered)
    (hp : wk.phase = .finished) {fd : Fd} (hfits : Fits scannerMax (bytesOf fd output)) :
    sentOn fd sent = lineMsgs fd (scanLines (bytesOf fd output)) := by
  have hpending := Child.pending_of_isExited (ho.gone hp)
  rw [(h.conveyed fd hfits).sent_eq (ho.joined (.inr hp) fd), ← h.written, hpending,
    List.append_nil]

/-- A worker without a process has sent nothing. -/
theorem Carrying.sentOn_eq_nil (h : wk.Carrying output sent) (hp : wk.phase = .failed) {fd : Fd}
    (hfits : Fits scannerMax (bytesOf fd output)) : sentOn fd sent = [] := by
  obtain ⟨scanned, hcarried, heq⟩ := (h.conveyed fd hfits).scanned
  have hlines := hcarried.lines [] (fun _ ↦ rfl)
  rw [h.unstarted (.inr hp)] at hlines
  have hscanned : scanned = [] := (List.append_eq_nil_iff.mp hlines.symm).1
  rw [heq, hscanned]
  rfl

end LogsWorker

end Dockstack.Docker
