import Dockstack.Base.Merge
import Dockstack.Docker.StreamProgress

/-!
# What a streamed command delivers

A consumer that keeps receiving from `StreamCompose` (`internal/docker/stacks.go:149–216`)
gets the header and then every line of both outputs, each output's in its order, whatever
the interleaving; `RunCompose` (`stacks.go:218–226`) returns how the child ended.
-/

namespace Dockstack.Docker

open Dockstack.Base

/-- The line that an emitter has scanned and not yet sent. -/
def EmitterPhase.inHand : EmitterPhase → List Bytes
  | .sending text => [text]
  | _ => []

/-- The lines among the values received that one emitter sent. -/
def linesOf (fd : Fd) (received : List OutMsg) : List Bytes :=
  received.filterMap fun m ↦
    match m with
    | .line fd' text => if fd' = fd then some text else none
    | _ => none

/-- The values received without the heartbeats. -/
def withoutHeartbeats (received : List OutMsg) : List OutMsg :=
  received.filter (· ≠ .heartbeat)

@[simp] theorem linesOf_append (fd : Fd) (received received' : List OutMsg) :
    linesOf fd (received ++ received') = linesOf fd received ++ linesOf fd received' :=
  List.filterMap_append

@[simp] theorem withoutHeartbeats_append (received received' : List OutMsg) :
    withoutHeartbeats (received ++ received') =
      withoutHeartbeats received ++ withoutHeartbeats received' :=
  List.filter_append received received'

/-- No emitter sends a heartbeat. -/
theorem linesOf_withoutHeartbeats (fd : Fd) (received : List OutMsg) :
    linesOf fd (withoutHeartbeats received) = linesOf fd received := by
  induction received with
  | nil => rfl
  | cons m received ih =>
    rw [withoutHeartbeats, List.filter_cons]
    cases m with
    | heartbeat => simpa [linesOf, withoutHeartbeats] using ih
    | header => simpa [linesOf, withoutHeartbeats] using ih
    | line fd' text =>
      by_cases h : fd' = fd
      · simpa [linesOf, withoutHeartbeats, h] using ih
      · simpa [linesOf, withoutHeartbeats, h] using ih
    | scanError fd' => simpa [linesOf, withoutHeartbeats] using ih

/-- What an emitter has sent, holds and has yet to read are the lines that the child wrote;
`x` is whatever the child may write further. -/
structure Carried (exited : Bool) (pending written : Bytes) (sent : List Bytes) (e : Emitter) :
    Prop where
  fits : Fits scannerMax (e.reader.unread ++ pending)
  lines : ∀ x, (exited = true → x = []) →
    scanLines (written ++ x) = sent ++ (e.phase.inHand ++ scanLines (e.reader.unread ++ x))
  through : e.phase = .finished → exited = true ∧ e.reader.unread = []
  noError : e.phase ≠ .failing

namespace Carried

variable {exited : Bool} {pending written : Bytes} {sent : List Bytes} {e : Emitter}
  {p : EmitterPhase} {r r' : PipeReader}

/-- What an emitter has yet to read fits the buffer. -/
theorem fits_unread (h : Carried exited pending written sent e) :
    Fits scannerMax e.reader.unread :=
  h.fits.stretch ⟨[], pending, by simp⟩

/-- The child writes a byte to the pipe. -/
theorem write {cap : Nat} {b : UInt8} (h : Carried false (b :: pending) written sent ⟨p, r⟩)
    (hr : r.write cap b = some r') :
    Carried false pending (written ++ [b]) sent ⟨p, r'⟩ where
  fits := by simpa [PipeReader.unread_write hr] using h.fits
  lines := fun x _ ↦ by
    have hlines := h.lines (b :: x) nofun
    simpa [PipeReader.unread_write hr] using hlines
  through := fun hp ↦ absurd (h.through hp).1 (by simp)
  noError := h.noError

/-- The child exits, or is killed with more to write. -/
theorem exit (h : Carried false pending written sent e) : Carried true [] written sent e where
  fits := h.fits.stretch ⟨[], pending, by simp⟩
  lines := fun x _ ↦ h.lines x nofun
  through := fun hp ↦ absurd (h.through hp).1 (by simp)
  noError := h.noError

/-- The emitter's scanner reads. -/
theorem read {n : Nat} (h : Carried exited pending written sent ⟨.scanning, r⟩)
    (hr : r.read scannerMax n = some r') :
    Carried exited pending written sent ⟨.scanning, r'⟩ where
  fits := by simpa only [PipeReader.unread_read hr] using h.fits
  lines := by simpa only [PipeReader.unread_read hr] using h.lines
  through := nofun
  noError := nofun

/-- The emitter's scanner returns a line. -/
theorem token {text : Bytes} (h : Carried exited pending written sent ⟨.scanning, r⟩)
    (hs : r.scan scannerMax exited = some (.token text r')) :
    Carried exited pending written sent ⟨.sending text, r'⟩ where
  fits := by
    obtain ⟨l, hl⟩ := PipeReader.unread_token hs
    exact h.fits.stretch ⟨l, [], by simp [hl]⟩
  lines := fun x hx ↦ by
    rw [h.lines x hx, PipeReader.scanLines_token hs hx]
    rfl
  through := nofun
  noError := nofun

/-- The emitter's scanner is at the end. -/
theorem eof (h : Carried exited pending written sent ⟨.scanning, r⟩)
    (hs : r.scan scannerMax exited = some .done) :
    Carried exited pending written sent ⟨.finished, r⟩ where
  fits := h.fits
  lines := h.lines
  through := fun _ ↦ PipeReader.scan_eq_done hs
  noError := nofun

/-- The emitter's line is received. -/
theorem deliver {text : Bytes} (h : Carried exited pending written sent ⟨.sending text, r⟩) :
    Carried exited pending written (sent ++ [text]) ⟨.scanning, r⟩ where
  fits := h.fits
  lines := fun x hx ↦ by
    rw [h.lines x hx, List.append_assoc]
    rfl
  through := nofun
  noError := nofun

/-- The emitter starts. -/
theorem start (h : Carried exited pending written sent ⟨.idle, r⟩) :
    Carried exited pending written sent ⟨.scanning, r⟩ where
  fits := h.fits
  lines := h.lines
  through := nofun
  noError := nofun

/-- An emitter that is through has sent every line. -/
theorem sent_eq (h : Carried exited pending written sent e) (hp : e.phase = .finished) :
    sent = scanLines written := by
  have hlines := h.lines [] (fun _ ↦ rfl)
  simpa [hp, EmitterPhase.inHand, (h.through hp).2] using hlines.symm

end Carried

namespace StreamState

/-- In a run over lines that fit the scanner's buffer, with `output` all that the child has
to write: what has been written and sent so far. -/
structure Delivering (output : List (Fd × UInt8)) (s : StreamState) : Prop where
  written : ∃ lost, s.written ++ s.child.pending ++ lost = output ∧
    (s.cancelled = false → lost = [])
  carried : ∀ fd, Carried s.child.isExited (bytesOf fd s.child.pending) (bytesOf fd s.written)
    (linesOf fd s.received) (s.emitter fd)
  header : s.main = .header → s.received = []
  received : s.main ≠ .header → ∃ rest, withoutHeartbeats s.received = OutMsg.header :: rest ∧
    ∀ m ∈ rest, ∃ fd text, m = .line fd text

variable {env : StreamEnv} {s s' : StreamState} {l : StreamLabel} {fd : Fd}
  {output : List (Fd × UInt8)}

/-- Nothing has been written or sent. -/
theorem delivering_init (hfits : ∀ fd, Fits scannerMax (bytesOf fd output)) :
    (init output).Delivering output where
  written := ⟨[], by simp [init, Child.pending], fun _ ↦ rfl⟩
  carried := fun fd ↦ {
    fits := hfits fd
    lines := fun _ _ ↦ rfl
    through := nofun
    noError := nofun }
  header := fun _ ↦ rfl
  received := fun hm ↦ absurd rfl hm

private theorem Delivering.write {b : UInt8} {rest : List (Fd × UInt8)} {r : PipeReader}
    (h : s.Delivering output) (hc : s.child = .running ((fd, b) :: rest))
    (hr : (s.emitter fd).reader.write env.cap b = some r) :
    ({ s with child := .running rest, written := s.written ++ [(fd, b)] }.setEmitter fd
      ⟨(s.emitter fd).phase, r⟩).Delivering output := by
  refine { h with written := ?_, carried := fun fd' ↦ ?_ }
  · obtain ⟨lost, hlost, hnone⟩ := h.written
    refine ⟨lost, ?_, hnone⟩
    rw [hc, Child.pending] at hlost
    simpa [Child.pending] using hlost
  · have hcarried := h.carried fd'
    simp only [hc, Child.pending, Child.isExited, bytesOf_cons] at hcarried
    simp only [setEmitter_emitter, setEmitter_child, setEmitter_written, setEmitter_received,
      Child.pending, Child.isExited, bytesOf_append, bytesOf_cons, bytesOf_nil]
    by_cases heq : fd' = fd
    · subst heq
      simp only [if_pos] at hcarried ⊢
      exact hcarried.write hr
    · simp only [if_neg heq, if_neg (Ne.symm heq), List.append_nil] at hcarried ⊢
      exact hcarried

private theorem Delivering.exit (h : s.Delivering output) {pending : List (Fd × UInt8)}
    (hc : s.child = .running pending) (status : ExitStatus)
    (hkilled : pending = [] ∨ s.cancelled = true) (interrupted : Bool) :
    ({ s with child := .exited status, interrupted := interrupted } :
      StreamState).Delivering output := by
  refine { h with written := ?_, carried := fun fd ↦ ?_ }
  · obtain ⟨lost, hlost, hnone⟩ := h.written
    rw [hc, Child.pending] at hlost
    refine ⟨pending ++ lost, by simpa [Child.pending] using hlost, fun hk ↦ ?_⟩
    rcases hkilled with hpending | hkilled
    · rw [hpending, hnone hk, List.append_nil]
    · rw [hkilled] at hk
      contradiction
  · have hcarried := h.carried fd
    rw [hc] at hcarried
    exact hcarried.exit

private theorem Delivering.setEmitter {e : Emitter} (h : s.Delivering output)
    (he : Carried s.child.isExited (bytesOf fd s.child.pending) (bytesOf fd s.written)
      (linesOf fd s.received) e) :
    (s.setEmitter fd e).Delivering output := by
  refine { h with carried := fun fd' ↦ ?_ }
  rw [setEmitter_emitter]
  split
  · next heq =>
    subst heq
    exact he
  · exact h.carried fd'

private theorem Delivering.at (h : s.Delivering output) {p : EmitterPhase}
    (hp : (s.emitter fd).phase = p) :
    Carried s.child.isExited (bytesOf fd s.child.pending) (bytesOf fd s.written)
      (linesOf fd s.received) ⟨p, (s.emitter fd).reader⟩ := by
  have hcarried := h.carried fd
  subst hp
  exact hcarried

private theorem Ordered.header_of_phase (ho : s.Ordered) (hp : (s.emitter fd).phase ≠ .idle) :
    s.main ≠ .header := by
  intro hm
  exact hp ((ho.idle fd).mpr (ho.spawned.mpr (.inl hm)))

private theorem Delivering.line (ho : s.Ordered) (h : s.Delivering output) {text : Bytes}
    (hp : (s.emitter fd).phase = .sending text) :
    ({ s with received := s.received ++ [OutMsg.line fd text] }.setEmitter fd
      ⟨.scanning, (s.emitter fd).reader⟩).Delivering output := by
  have hidle : (s.emitter fd).phase ≠ .idle := by simp [hp]
  have hm := ho.header_of_phase hidle
  refine { h with carried := fun fd' ↦ ?_, header := fun hm' ↦ absurd hm' hm,
                  received := fun _ ↦ ?_ }
  · simp only [setEmitter_emitter, setEmitter_child, setEmitter_written, setEmitter_received,
      linesOf_append]
    by_cases heq : fd' = fd
    · subst heq
      simpa [linesOf] using (h.at hp).deliver
    · simpa [linesOf, heq, Ne.symm heq] using h.carried fd'
  · obtain ⟨rest, hrest, hall⟩ := h.received hm
    refine ⟨rest ++ [.line fd text], ?_, ?_⟩
    · rw [setEmitter_received, withoutHeartbeats_append, hrest]
      rfl
    · intro m hmem
      rcases List.mem_append.mp hmem with hmem | hmem
      · exact hall m hmem
      · exact ⟨fd, text, List.mem_singleton.mp hmem⟩

private theorem Delivering.sendHeader (h : s.Delivering output) (hm : s.main = .header) :
    ({ s with main := .spawning, received := s.received ++ [OutMsg.header] } :
      StreamState).Delivering output where
  written := h.written
  carried := fun fd ↦ by simpa [linesOf] using h.carried fd
  header := nofun
  received := fun _ ↦ ⟨[], by simp [h.header hm, withoutHeartbeats], by simp⟩

private theorem Delivering.sendHeartbeat (h : s.Delivering output) (hm : s.main = .heartbeat) :
    ({ s with main := .loop, received := s.received ++ [OutMsg.heartbeat] } :
      StreamState).Delivering output where
  written := h.written
  carried := fun fd ↦ by simpa [linesOf] using h.carried fd
  header := nofun
  received := fun _ ↦ by simpa [withoutHeartbeats] using h.received (by simp [hm])

private theorem Delivering.spawn (ho : s.Ordered) (h : s.Delivering output)
    (hm : s.main = .spawning) :
    ({ s with
      main := .loop
      waiter := .waiting
      emitter := fun fd ↦ ⟨.scanning, (s.emitter fd).reader⟩ } :
        StreamState).Delivering output where
  written := h.written
  carried := fun fd ↦ (h.at ((ho.idle fd).mpr (ho.spawned.mpr (.inr hm)))).start
  header := nofun
  received := fun _ ↦ h.received (by simp [hm])

/-- A step in a run over lines that fit keeps account of them. -/
theorem Delivering.step (ho : s.Ordered) (h : s.Delivering output) (he : Effect env s l s') :
    s'.Delivering output := by
  cases he with
  | write hc hr => exact h.write hc hr
  | exit hc => exact h.exit hc _ (.inl rfl) _
  | cancel =>
    obtain ⟨lost, hlost, -⟩ := h.written
    exact { h with written := ⟨lost, hlost, nofun⟩ }
  | kill hk _ hc => exact h.exit hc _ (.inr hk) _
  | killExited => exact { h with }
  | read hp hr => exact h.setEmitter ((h.at hp).read hr)
  | token hp hs => exact h.setEmitter ((h.at hp).token hs)
  | tooLong _ hs => exact absurd hs (PipeReader.scan_ne_tooLong (h.carried _).fits_unread)
  | eof hp hs => exact h.setEmitter ((h.at hp).eof hs)
  | line _ hp => exact h.line ho hp
  | scanError hr hp => exact absurd hp (h.carried _).noError
  | header _ hm => exact h.sendHeader hm
  | heartbeat _ hm => exact h.sendHeartbeat hm
  | spawn hm => exact h.spawn ho hm
  | tick hm => exact { h with header := nofun, received := fun _ ↦ h.received (by simp [hm]) }
  | returnMain hm _ =>
    have hheader := (main_ne_of_selecting hm).1
    exact { h with header := nofun, received := fun _ ↦ h.received hheader }
  | wgWait hw hf => exact { h with }
  | reap hc hw _ => exact { h with }
  | closeDone hw => exact { h with }
  | observeClose hc ho => exact { h with }
  | takeErr he hc => exact { h with }
  | abandon hc => exact { h with }

private theorem Effect.not_abandoned (he : Effect env s l s') (hl : l ≠ .abandon)
    (h : s.consumer ≠ .abandoned) : s'.consumer ≠ .abandoned := by
  cases he with
  | observeClose => nofun
  | takeErr => nofun
  | abandon => exact absurd rfl hl
  | _ => exact h

private theorem Delivering.attended (h : s.Delivering output) (hl : l ≠ .abandon)
    (hc : s.consumer ≠ .abandoned) : Attended env s l := by
  cases l with
  | abandon => exact absurd rfl hl
  | scan fd =>
    exact ⟨fun hc' ↦ absurd hc' hc,
      fun hs ↦ absurd hs (PipeReader.scan_ne_tooLong (h.carried fd).fits_unread)⟩
  | _ => exact trivial

/-- Somebody is at a send on `out`. -/
def AtSend (s : StreamState) : Prop :=
  s.main = .header ∨ s.main = .heartbeat ∨ ∃ fd, (s.emitter fd).phase.atSend = true

/-- What was received is the header and a merge of the lines of both outputs, as far as
the child wrote them; only a cancellation cuts its output short. -/
def Delivered (env : StreamEnv) (output : List (Fd × UInt8)) (s : StreamState) : Prop :=
  ∃ lines, (withoutHeartbeats s.received).map (OutMsg.text env) =
      OutMsg.header.text env :: lines ∧
    Merge (scanLines (bytesOf .stdout s.written)) (scanLines (bytesOf .stderr s.written)) lines ∧
    s.written <+: output ∧ (s.cancelled = false → s.written = output)

/-- Nobody sends once the main goroutine has returned. -/
theorem Ordered.not_atSend (h : s.Ordered) (hm : s.main = .returned) : ¬ s.AtSend := by
  have hfinished := h.joined (.inr (.inr (h.returned hm)))
  rintro (hsend | hsend | ⟨fd, hsend⟩)
  · rw [hm] at hsend
    contradiction
  · rw [hm] at hsend
    contradiction
  · rw [hfinished fd] at hsend
    contradiction

/-- When the main goroutine has returned, everything was delivered. -/
theorem Delivering.delivered (ho : s.Ordered) (h : s.Delivering output)
    (hm : s.main = .returned) : Delivered env output s := by
  have hw := ho.returned hm
  have hfinished := ho.joined (.inr (.inr hw))
  obtain ⟨status, hstatus, -⟩ := ho.reaped (.inr hw)
  obtain ⟨rest, hrest, hall⟩ := h.received (by simp [hm])
  have hlines (fd : Fd) : linesOf fd rest = scanLines (bytesOf fd s.written) := by
    calc
      linesOf fd rest = linesOf fd (OutMsg.header :: rest) := rfl
      _ = linesOf fd s.received := by rw [← hrest, linesOf_withoutHeartbeats]
      _ = scanLines (bytesOf fd s.written) := (h.carried fd).sent_eq (hfinished fd)
  refine ⟨rest.map (OutMsg.text env), by rw [hrest, List.map_cons], ?_, ?_⟩
  · rw [← hlines .stdout, ← hlines .stderr]
    refine merge_filterMap fun m hmem ↦ ?_
    obtain ⟨fd, text, rfl⟩ := hall m hmem
    cases fd with
    | stdout => exact .inl ⟨rfl, rfl⟩
    | stderr => exact .inr ⟨rfl, rfl⟩
  · obtain ⟨lost, hlost, hnone⟩ := h.written
    rw [hstatus, Child.pending, List.append_nil] at hlost
    refine ⟨⟨lost, hlost⟩, fun hk ↦ ?_⟩
    rw [hnone hk, List.append_nil] at hlost
    exact hlost

/-- While the consumer keeps receiving, `out` is closed once, after every send; everything is
delivered by then, and `RunCompose` finds in `waitErr` how the child ended. Until then some
party has a step that takes from the work left. -/
theorem streamCompose_delivers {labels : List StreamLabel}
    (hfits : ∀ fd, Fits scannerMax (bytesOf fd output)) (hkeep : StreamLabel.abandon ∉ labels)
    (hrun : runSteps (StreamState.step env) (init output) labels = some s) :
    s.closes ≤ 1 ∧ (0 < s.closes → ¬ s.AtSend) ∧
    ((s.Finished ∧ s.closes = 1) ∨
      ∃ l s', s.Advances l ∧ StreamState.step env s l = some s' ∧ s'.work < s.work) ∧
    (s.consumer = .closed → s.closes = 1 ∧ Delivered env output s ∧
      ∃ status, s.child = .exited status ∧ s.waitErr = [cmdWait status s.interrupted] ∧
        StreamState.step env s .takeErr = some
          { s with consumer := .returned (cmdWait status s.interrupted), waitErr := [] }) ∧
    (∀ err, s.consumer = .returned err → s.closes = 1 ∧ Delivered env output s ∧
      ∃ status, s.child = .exited status ∧ err = cmdWait status s.interrupted) ∧
    (s.interrupted = true → s.cancelled = true) := by
  obtain ⟨ho, hd, hb, -⟩ : s.Ordered ∧ s.Delivering output ∧ Unblocked env s ∧
      s.consumer ≠ .abandoned := by
    refine runSteps_invariant_of_meets (P := fun _ l ↦ l ≠ .abandon) (I := fun s ↦ s.Ordered ∧
      s.Delivering output ∧ Unblocked env s ∧ s.consumer ≠ .abandoned) ?_
      ⟨ordered_init output, delivering_init hfits, unblocked_init env output, nofun⟩
      (RunMeets.of_forall (fun l hl _ ↦ ne_of_mem_of_not_mem hl hkeep) _) hrun
    rintro s l s' ⟨ho, hd, hb, hc⟩ hl hstep
    have he := step_effect hstep
    exact ⟨ho.step he, hd.step ho he, hb.step (hd.attended hl hc) he, he.not_abandoned hl hc⟩
  have of_returned (hm : s.main = .returned) : s.closes = 1 ∧ Delivered env output s :=
    ⟨by rw [ho.closes, if_pos hm], hd.delivered ho hm⟩
  refine ⟨?_, fun hpos ↦ ?_, ?_, fun hc ↦ ?_, fun err hc ↦ ?_, fun hi ↦ (ho.interrupted hi).1⟩
  · rw [ho.closes]
    split <;> omega
  · apply ho.not_atSend
    by_contra hm
    rw [ho.closes_eq_zero hm] at hpos
    contradiction
  · exact (hb.progress ho).imp_left fun hf ↦ ⟨hf, (of_returned hf.1).1⟩
  · have hm := ho.closed (.inl hc)
    have hn : ¬ s.hasReturned := by simp [hasReturned, hc]
    obtain ⟨status, hstatus, herr⟩ := ho.waitErr_eq (.inr (ho.returned hm)) hn
    refine ⟨(of_returned hm).1, (of_returned hm).2, status, hstatus, herr, ?_⟩
    simp [StreamState.step, takeErr, herr, hc]
  · have hm := ho.closed (.inr ⟨err, hc⟩)
    obtain ⟨status, hstatus, ⟨hret, -⟩ | ⟨hnot, -⟩⟩ := ho.reaped (.inr (ho.returned hm))
    · exact ⟨(of_returned hm).1, (of_returned hm).2, status, hstatus,
        Consumer.returned.inj (hc.symm.trans hret)⟩
    · exact absurd ⟨err, hc⟩ hnot

private def mixedEnv : StreamEnv := ⟨1, Nat.one_pos, ["compose", "up"]⟩

private def mixedOutput : List (Fd × UInt8) := [(.stdout, 104), (.stderr, 101), (.stdout, 10)]

private def mixedRun : List StreamLabel :=
  [.deliverMain, .spawn, .write, .tick, .read .stdout 1, .write, .deliverMain, .read .stderr 1,
    .write, .read .stdout 1, .scan .stdout, .deliver .stdout, .exit 1, .scan .stderr,
    .deliver .stderr, .scan .stdout, .scan .stderr, .wgWait, .reap, .closeDone, .returnMain,
    .observeClose]

/-- A command prints a line on each output and fails. -/
theorem streamCompose_delivers_mixed :
    ∃ s, runSteps (StreamState.step mixedEnv) (init mixedOutput) mixedRun = some s ∧
      s.closes = 1 ∧ Delivered mixedEnv mixedOutput s ∧
      ∃ status, s.child = .exited status ∧ s.waitErr = [cmdWait status s.interrupted] := by
  obtain ⟨s, hs, hc⟩ := Option.map_eq_some_iff.mp (by decide +kernel :
    (runSteps (StreamState.step mixedEnv) (init mixedOutput) mixedRun).map (·.consumer) =
      some .closed)
  have hfits (fd : Fd) : Fits scannerMax (bytesOf fd mixedOutput) := by
    apply fits_of_length_lt
    cases fd <;> decide
  obtain ⟨-, -, -, hclosed, -⟩ := streamCompose_delivers hfits (by decide) hs
  obtain ⟨hcloses, hdelivered, status, hstatus, herr, -⟩ := hclosed hc
  exact ⟨s, hs, hcloses, hdelivered, status, hstatus, herr⟩

end StreamState

end Dockstack.Docker
