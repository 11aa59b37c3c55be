import Dockstack.Docker.StackLogsRuns

/-!
# The lines of `docker logs --timestamps`

What `StreamStackLogs` makes of a line that Docker writes, `internal/docker/logs.go:51–81`: Docker
puts a timestamp and a space before each message. The scanner takes a carriage return from the end
of a line and gives up on one that fills its buffer. The code cuts what it returns at the first
space, and takes a line whose second part is empty for one without a timestamp, also where the
message is empty.
-/

namespace Dockstack.Docker

open Dockstack.Base

namespace LogsWorker

variable {cap : Nat} {cancelled : Bool} {wk wk' : LogsWorker} {l : WorkerLabel} {m : Option LogsMsg}

/-- The emitters' buffers are within their bound, and what they are about to send are lines. -/
structure Lined (wk : LogsWorker) : Prop where
  buffer : ∀ fd, (wk.emitter fd).reader.buf.length ≤ scannerMax
  inHand : ∀ fd text, (wk.emitter fd).phase = .sending text → IsLine scannerMax text

/-- Before the process starts, the buffers are empty. -/
theorem lined_init (output : List (Fd × UInt8)) : (init output).Lined :=
  ⟨fun _ ↦ Nat.zero_le scannerMax, nofun⟩

private theorem Lined.setEmitter {fd : Fd} {e : Emitter} (h : wk.Lined)
    (hbuf : e.reader.buf.length ≤ scannerMax)
    (htext : ∀ text, e.phase = .sending text → IsLine scannerMax text) :
    (wk.setEmitter fd e).Lined := by
  constructor
  · intro fd'
    rw [setEmitter_emitter]
    split
    · exact hbuf
    · exact h.buffer fd'
  · intro fd'
    rw [setEmitter_emitter]
    split
    · exact htext
    · exact h.inHand fd'

/-- A step keeps this, and what it sends of a stream is a line. -/
theorem Effect.lined (he : Effect cap cancelled wk l m wk') (h : wk.Lined) :
    wk'.Lined ∧ ∀ fd text, m = some (.line fd text) → IsLine scannerMax text := by
  cases he with
  | started hp hk => exact ⟨⟨h.buffer, nofun⟩, nofun⟩
  | failed hp => exact ⟨⟨h.buffer, h.inHand⟩, nofun⟩
  | @write fd b rest r hp hc hr =>
    have hwritten : ({ wk with child := .running rest, written := wk.written ++ [(fd, b)] } :
        LogsWorker).Lined := ⟨h.buffer, h.inHand⟩
    refine ⟨hwritten.setEmitter ?_ (h.inHand fd), nofun⟩
    rw [PipeReader.buf_write hr]
    exact h.buffer fd
  | exit hp hc => exact ⟨⟨h.buffer, h.inHand⟩, nofun⟩
  | kill hk hp hc => exact ⟨⟨h.buffer, h.inHand⟩, nofun⟩
  | read hp hr => exact ⟨h.setEmitter (PipeReader.length_buf_read hr) nofun, nofun⟩
  | token hp hs ht =>
    obtain ⟨hline, hbuf⟩ := PipeReader.isLine_token (h.buffer _) hs
    refine ⟨h.setEmitter hbuf ?_, nofun⟩
    rintro _ ⟨⟩
    exact hline
  | skip hp hs =>
    exact ⟨h.setEmitter (PipeReader.isLine_token (h.buffer _) hs).2 nofun, nofun⟩
  | tooLong hp hs =>
    refine ⟨h.setEmitter (h.buffer _) ?_, nofun⟩
    cases cancelled <;> exact nofun
  | eof hp hs => exact ⟨h.setEmitter (h.buffer _) nofun, nofun⟩
  | @line fd text hp =>
    refine ⟨h.setEmitter (h.buffer _) nofun, ?_⟩
    rintro _ _ ⟨⟩
    exact h.inHand fd text hp
  | scanError hp => exact ⟨h.setEmitter (h.buffer _) nofun, nofun⟩
  | giveUp hk hp => exact ⟨h.setEmitter (h.buffer _) nofun, nofun⟩
  | join hp hf => exact ⟨⟨h.buffer, h.inHand⟩, nofun⟩
  | reap hp hc => exact ⟨⟨h.buffer, h.inHand⟩, nofun⟩

end LogsWorker

namespace LogsState

variable {n : Nat} {env : LogsEnv n} {s s' t : LogsState n} {l : LogsLabel n}
  {ls : List (LogsLabel n)} {output : Fin n → List (Fd × UInt8)}

/-- What the consumer has received of a stream are lines, and so is what is yet to be sent. -/
structure Lined (s : LogsState n) : Prop where
  workers : ∀ w, (s.worker w).Lined
  received : ∀ w fd text, (w, LogsMsg.line fd text) ∈ s.received → IsLine scannerMax text

/-- Every step keeps this. -/
theorem Lined.step (h : s.Lined) (hs : LogsState.step env s l = some s') : s'.Lined := by
  cases step_effect hs with
  | @worker w l m wk he =>
    obtain ⟨hworker, hsent⟩ := he.lined (h.workers w)
    constructor
    · intro w'
      dsimp only
      rw [Function.update_apply]
      split
      · exact hworker
      · exact h.workers w'
    · intro w' fd text hmem
      rcases List.mem_append.mp hmem with hmem | hmem
      · exact h.received w' fd text hmem
      · obtain ⟨msg, hmsg, heq⟩ := List.mem_map.mp hmem
        obtain ⟨-, rfl⟩ := Prod.ext_iff.mp heq
        exact hsent fd text (Option.mem_toList.mp hmsg)
  | cancel hk => exact ⟨h.workers, h.received⟩
  | closeOut hc hd => exact ⟨h.workers, h.received⟩
  | observeClose hc ho => exact ⟨h.workers, h.received⟩
  | stop hc => exact ⟨h.workers, h.received⟩

/-- Whatever is received of a stream in a run are lines. -/
theorem lined_of_run (h : runSteps (LogsState.step env) (init output) ls = some t) : t.Lined :=
  runSteps_invariant (fun _ _ _ hs hu ↦ hs.step hu)
    ⟨fun w ↦ LogsWorker.lined_init (output w), fun _ _ _ h ↦ (List.not_mem_nil h).elim⟩ h

/-- The lines of two parts of an output, the first of which is empty or ends in a line feed. -/
theorem parsedLines_append (c : Summary) (fd : Fd) {before : Bytes} (rest : Bytes)
    (hbefore : before = [] ∨ before.getLast? = some newline) :
    parsedLines c fd (before ++ rest) = parsedLines c fd before ++ parsedLines c fd rest := by
  simp only [parsedLines, scanLines_append_of_ends hbefore, List.filter_append, List.map_append]

end LogsState

/-- A message of a container with its timestamp, which is not empty and has no space. -/
structure LogRecord where
  timestamp : Bytes
  message : Bytes
  timestamp_ne : timestamp ≠ []
  space_notMem : space ∉ timestamp

namespace LogRecord

/-- The line that Docker writes. -/
def line (r : LogRecord) : Bytes := r.timestamp ++ space :: r.message

/-- The entry that says what the line says. -/
def entry (containerName : String) (fd : Fd) (r : LogRecord) : LogEntry :=
  ⟨containerName, r.message, fd.name, r.timestamp⟩

/-- A line has a timestamp and a space. -/
theorem length_line (r : LogRecord) : 1 < r.line.length := by
  have hpos := List.length_pos_iff.mpr r.timestamp_ne
  rw [line, List.length_append, List.length_cons]
  omega

/-- A line is cut at the space behind the timestamp; without a message the timestamp takes its
place. -/
theorem logEntry_line (containerName : String) (fd : Fd) (r : LogRecord) :
    logEntry containerName fd r.line =
      if r.message = [] then ⟨containerName, r.timestamp, fd.name, []⟩
      else r.entry containerName fd := by
  unfold logEntry line
  simp only [takeWhile_append_cons r.space_notMem, dropWhile_append_cons r.space_notMem,
    List.tail_cons]
  rfl

/-- The entry of a record is that of its own line only, and only if there is a message. -/
theorem logEntry_eq_entry_iff {containerName : String} {fd : Fd} {text : Bytes} {r : LogRecord} :
    logEntry containerName fd text = r.entry containerName fd ↔
      text = r.line ∧ r.message ≠ [] := by
  constructor
  · intro h
    unfold logEntry at h
    dsimp only at h
    split at h
    · exact absurd (congrArg LogEntry.timestamp h).symm r.timestamp_ne
    · next hmessage =>
      obtain ⟨-, hm, -, ht⟩ := LogEntry.mk.inj h
      have hne : text.dropWhile (· != space) ≠ [] := fun hnil ↦ hmessage (by rw [hnil]; rfl)
      obtain ⟨b, rest, hrest⟩ := List.exists_cons_of_ne_nil hne
      have hb : b = space := by
        have hhead := List.head_dropWhile_not (· != space) hne
        simpa [hrest] using hhead
      rw [hrest, List.tail_cons] at hm hmessage
      refine ⟨?_, by rwa [← hm]⟩
      calc text = text.takeWhile (· != space) ++ text.dropWhile (· != space) :=
            (List.takeWhile_append_dropWhile).symm
        _ = r.line := by rw [hrest, hb, ht, hm, line]
  · rintro ⟨rfl, hmessage⟩
    rw [logEntry_line, if_neg hmessage]

/-- A line of a record that has a message ends as the message does. -/
theorem getLast?_line {r : LogRecord} (h : r.message ≠ []) :
    r.line.getLast? = r.message.getLast? := by
  rw [line, List.getLast?_append_of_ne_nil _ (List.cons_ne_nil _ _), List.getLast?_cons_of_ne_nil h]

/-- Without a carriage return at its end, a line is kept whole. -/
theorem dropCR_line_iff {r : LogRecord} (h : r.message ≠ []) :
    dropCR r.line = r.line ↔ r.message.getLast? ≠ some 13 := by
  rw [dropCR, getLast?_line h]
  split
  · next hcr =>
    refine iff_of_false (fun heq ↦ ?_) (fun hne ↦ hne hcr)
    have hlength := congrArg List.length heq
    simp [line] at hlength
  · next hcr => exact iff_of_true rfl hcr

variable {n : Nat} {env : LogsEnv n} {t : LogsState n} {ls : List (LogsLabel n)}
  {output : Fin n → List (Fd × UInt8)} {r : LogRecord} {w : Fin n} {fd : Fd}

/-- An entry that the consumer has received is of a line that the scanner can return. -/
theorem isLine_of_received (h : t.Lined)
    (hmem : r.entry (logsName (env.containers w)) fd ∈ t.entriesOf env w fd) :
    IsLine scannerMax r.line := by
  obtain ⟨msg, hmsg, hentry⟩ := List.mem_map.mp hmem
  obtain ⟨hsent, hfd⟩ := List.mem_filter.mp hmsg
  obtain ⟨⟨w', msg'⟩, hreceived, rfl⟩ := List.mem_map.mp hsent
  cases msg' with
  | line fd' text =>
    obtain rfl : fd' = fd := of_decide_eq_true hfd
    obtain ⟨rfl, -⟩ := logEntry_eq_entry_iff.mp hentry
    exact h.received w' fd' _ (List.mem_filter.mp hreceived).1
  | scanError fd' => exact absurd (congrArg LogEntry.timestamp hentry).symm r.timestamp_ne

/-- A record among other lines of a stream: its entry is received with its timestamp and its
message exactly when the message is not empty and does not end in a carriage return, and the line
has no line feed in it and does not fill the scanner's buffer. -/
theorem received_iff (hrun : runSteps (LogsState.step env) (.init output) ls = some t)
    (hcancelled : t.cancelled = false) (hthrough : (t.worker w).phase = .finished) (r : LogRecord)
    {before after : Bytes}
    (houtput : bytesOf fd (output w) = before ++ (r.line ++ newline :: after))
    (hbefore : before = [] ∨ before.getLast? = some newline) (hfits : Fits scannerMax before)
    (hfits' : Fits scannerMax after) :
    t.entriesOf env w fd = LogsState.parsedLines (env.containers w) fd before ++
        r.entry (logsName (env.containers w)) fd ::
          LogsState.parsedLines (env.containers w) fd after ↔
      r.message ≠ [] ∧ r.message.getLast? ≠ some 13 ∧ IsLine scannerMax r.line := by
  -- once the line is one that the scanner can return, all lines of the stream are received
  have hreceived (hline : IsLine scannerMax r.line) : t.entriesOf env w fd =
      LogsState.parsedLines (env.containers w) fd before ++
        logEntry (logsName (env.containers w)) fd (dropCR r.line) ::
          LogsState.parsedLines (env.containers w) fd after := by
    have hrest : Fits scannerMax (r.line ++ newline :: after) :=
      (fits_of_length_lt hline.2).append_newline hfits'
    have hall : Fits scannerMax (bytesOf fd (output w)) := by
      rw [houtput]
      exact hfits.append_of_ends hrest hbefore
    have hne : decide (dropCR r.line ≠ []) = true := decide_eq_true (dropCR_ne_nil r.length_line)
    rw [(LogsState.carrying_of_run hrun).entriesOf_eq (LogsState.ordered_of_run hrun) hcancelled
      hthrough hall, houtput, LogsState.parsedLines_append _ _ _ hbefore]
    simp only [LogsState.parsedLines, scanLines_append hline.1, List.filter_cons, hne, if_true,
      List.map_cons]
  constructor
  · intro heq
    have hmem : r.entry (logsName (env.containers w)) fd ∈ t.entriesOf env w fd := by
      rw [heq]
      exact List.mem_append_right _ List.mem_cons_self
    have hline := isLine_of_received (LogsState.lined_of_run hrun) hmem
    rw [hreceived hline] at heq
    obtain ⟨hentry, -⟩ := List.cons.inj (List.append_cancel_left heq)
    obtain ⟨hwhole, hmessage⟩ := logEntry_eq_entry_iff.mp hentry
    exact ⟨hmessage, (dropCR_line_iff hmessage).mp hwhole, hline⟩
  · rintro ⟨hmessage, hcr, hline⟩
    rw [hreceived hline, logEntry_eq_entry_iff.mpr ⟨(dropCR_line_iff hmessage).mpr hcr, hmessage⟩]

/-- One container, `app`. -/
def appEnv : LogsEnv 1 where
  cap := 64
  cap_pos := by decide
  containers _ := ⟨"c1", ["/app"], "", "", "running", "", ∅⟩

/-- What it writes on its standard output. -/
def appOutput (input : Bytes) : Fin 1 → List (Fd × UInt8) := fun _ ↦ input.map (.stdout, ·)

/-- It writes `bytes` bytes and exits, and `lines` lines are sent. -/
def appSteps (bytes lines : Nat) : List WorkerLabel :=
  .start true :: .replicate bytes .write ++ [.read .stdout bytes, .exit 0] ++
    (List.replicate lines [.scan .stdout, .send .stdout]).flatten ++
      [.scan .stdout, .scan .stderr, .join, .reap]

/-- The run of these steps. -/
def appRun (bytes lines : Nat) : List (LogsLabel 1) := (appSteps bytes lines).map (.worker 0)

/-- A message with spaces before, in and behind it. -/
def spaced : LogRecord where
  timestamp := utf8 "10:02"
  message := utf8 "  a  b "
  timestamp_ne := by decide
  space_notMem := by decide

/-- It is received as it was written, between a line before it and a blank one behind it. -/
theorem received_spaced : ∃ t, runSteps (LogsState.step appEnv)
      (.init (appOutput (utf8 "10:01 up\n" ++ (spaced.line ++ newline :: utf8 "10:03 \n"))))
      (appRun 30 3) = some t ∧
    t.entriesOf appEnv 0 .stdout = LogsState.parsedLines (appEnv.containers 0) .stdout
        (utf8 "10:01 up\n") ++ spaced.entry "app" .stdout ::
          LogsState.parsedLines (appEnv.containers 0) .stdout (utf8 "10:03 \n") := by
  obtain ⟨t, ht, hend⟩ := (Option.any_eq_true _ _).mp (by decide +kernel :
    (runSteps (LogsState.step appEnv)
      (.init (appOutput (utf8 "10:01 up\n" ++ (spaced.line ++ newline :: utf8 "10:03 \n"))))
      (appRun 30 3)).any (fun t ↦
        t.cancelled = false ∧ (t.worker 0).phase = .finished) = true)
  obtain ⟨hcancelled, hthrough⟩ := of_decide_eq_true hend
  refine ⟨t, ht, (received_iff ht hcancelled hthrough spaced ?_ (.inr (by decide)) ?_ ?_).mpr ?_⟩
  · decide
  · exact fits_of_length_lt (by decide : 9 < scannerMax)
  · exact fits_of_length_lt (by decide : 7 < scannerMax)
  · exact ⟨by decide, by decide, by decide, (by decide : 13 < scannerMax)⟩

/-- A record without a message: a blank line of a container. -/
def blank : LogRecord where
  timestamp := utf8 "2026-01-02T03:04:05.000000006Z"
  message := []
  timestamp_ne := by decide
  space_notMem := by decide

/-- A blank line is received as a message without a timestamp. -/
theorem received_blank : (∃ t, runSteps (LogsState.step appEnv)
      (.init (appOutput (blank.line ++ [newline]))) (appRun 32 1) = some t ∧
    t.cancelled = false ∧ (t.worker 0).phase = .finished ∧
    t.entriesOf appEnv 0 .stdout = [⟨"app", blank.timestamp, "stdout", []⟩]) ∧
    ⟨"app", blank.timestamp, "stdout", []⟩ ≠ blank.entry "app" .stdout := by
  refine ⟨?_, by decide⟩
  obtain ⟨t, ht, hend⟩ := (Option.any_eq_true _ _).mp (by decide +kernel :
    (runSteps (LogsState.step appEnv) (.init (appOutput (blank.line ++ [newline])))
      (appRun 32 1)).any (fun t ↦ t.cancelled = false ∧ (t.worker 0).phase = .finished ∧
        t.entriesOf appEnv 0 .stdout = [⟨"app", blank.timestamp, "stdout", []⟩]) = true)
  exact ⟨t, ht, of_decide_eq_true hend⟩

end LogRecord

end Dockstack.Docker
