import Dockstack.Docker.StackLogsRuns
import Dockstack.Web.LogView

/-!
# The logs that the view shows

From the processes of `docker logs` to the view: `StreamStackLogs` sends the entries of all
containers on one channel in the order in which the goroutines come to it,
`streamStackLogsToWS` (`internal/server/api/ws/logs.go:82–102`) writes them as messages, and the
view sorts what arrives.
-/

namespace Dockstack.Web

open Dockstack.Base Dockstack.Docker

/-- The message of an entry: `logMessage`, with its members in the order of `json.Marshal`;
`ws/logs.go:94–102`. -/
def logFrame (e : LogEntry) : Bytes :=
  Json.marshalMap
    [(utf8Encode "containerName".toList, utf8Encode e.containerName.toList),
      (utf8Encode "message".toList, e.message),
      (utf8Encode "stream".toList, utf8Encode e.stream.toList),
      (utf8Encode "timestamp".toList, e.timestamp),
      (utf8Encode "type".toList, utf8Encode "log".toList)]

/-- The message at the end of a stream; `ws/logs.go:91`. -/
def endFrame : Bytes :=
  Json.marshalMap [(utf8Encode "type".toList, utf8Encode "end".toList)]

/-- An entry as the view gets it: `json.Marshal` replaces what is not UTF-8. -/
def lineOf (e : LogEntry) : LogLine :=
  ⟨e.containerName, .ofList (Json.runes e.message), e.stream, .ofList (Json.runes e.timestamp)⟩

/-- The lines that the view lists for the selected containers; `logs.tsx:86–92`. -/
def filteredLines (selected : List String) (lines : List LogLine) : List LogLine :=
  if selected = [] then lines else lines.filter (selected.contains ·.containerName)

/-! ## Messages -/

private theorem memberValue_utf8Encode (name : String) (value : Bytes) :
    Json.memberValue (utf8Encode name.toList, value) =
      (name, .string (.ofList (Json.runes value))) := by
  rw [Json.memberValue, Json.runes_utf8Encode, String.ofList_toList]

/-- The view reads an entry from its message. -/
theorem readFrame_logFrame (e : LogEntry) : readFrame (logFrame e) = some (.log (lineOf e)) := by
  unfold readFrame
  rw [logFrame, Json.parseText_marshalMap]
  simp only [List.map_cons, List.map_nil, memberValue_utf8Encode, Json.runes_utf8Encode,
    String.ofList_toList]
  rfl

private theorem frameLine_endFrame : frameLine endFrame = none := by
  rw [frameLine, readFrame, endFrame, Json.parseText_marshalMap]
  simp only [List.map_cons, List.map_nil, memberValue_utf8Encode, Json.runes_utf8Encode,
    String.ofList_toList]
  rfl

/-! ## Sources -/

/-- The streams of `k` containers. -/
def sources (k : Nat) : List (Fin k × Fd) := (List.finRange k).product [.stdout, .stderr]

private theorem perm_flatMap_filter {α κ : Type} [DecidableEq κ] (f : α → κ) {keys : List κ}
    (hkeys : keys.Nodup) {l : List α} (h : ∀ a ∈ l, f a ∈ keys) :
    l.Perm (keys.flatMap fun key ↦ l.filter (f · = key)) := by
  induction keys generalizing l with
  | nil =>
    cases l with
    | nil => exact List.Perm.refl []
    | cons a l => exact absurd (h a List.mem_cons_self) List.not_mem_nil
  | cons key keys ih =>
    obtain ⟨hkey, hrest⟩ := List.nodup_cons.mp hkeys
    have hothers := ih hrest (l := l.filter fun a ↦ !decide (f a = key)) (by
      intro a ha
      obtain ⟨hmem, hne⟩ := List.mem_filter.mp ha
      rcases List.mem_cons.mp (h a hmem) with heq | hmem
      · rw [decide_eq_true heq] at hne
        contradiction
      · exact hmem)
    have hfilter : (keys.flatMap fun key' ↦
        (l.filter fun a ↦ !decide (f a = key)).filter (f · = key')) =
        keys.flatMap fun key' ↦ l.filter (f · = key') := by
      apply List.flatMap_congr
      intro key' hkey'
      rw [List.filter_filter]
      apply List.filter_congr
      intro a _
      by_cases ha : f a = key'
      · have hne : f a ≠ key := by
          intro heq
          apply hkey
          rw [← heq, ha]
          exact hkey'
        rw [decide_eq_true ha, decide_eq_false hne]
        rfl
      · rw [decide_eq_false ha]
        rfl
    rw [hfilter] at hothers
    rw [List.flatMap_cons]
    exact (List.filter_append_perm (fun a ↦ decide (f a = key)) l).symm.trans
      (List.Perm.append_left _ hothers)

section

variable {k : Nat} {env : LogsEnv k} {received : List (Fin k × LogsMsg)}

/-- The line of a message on the channel. -/
def sentLine (env : LogsEnv k) (p : Fin k × LogsMsg) : LogLine :=
  lineOf (p.2.entry (logsName (env.containers p.1)))

/-- The lines that come from one stream. -/
def linesFrom (env : LogsEnv k) (received : List (Fin k × LogsMsg)) (src : Fin k × Fd) :
    List LogLine :=
  (received.filter fun p ↦ (p.1, p.2.fd) = src).map (sentLine env)

private theorem linesFrom_eq (w : Fin k) (fd : Fd) :
    linesFrom env received (w, fd) =
      ((sentOn fd (sentBy w received)).map (LogsMsg.entry (logsName (env.containers w)))).map
        lineOf := by
  rw [linesFrom, sentOn, sentBy, List.filter_map, List.filter_filter, List.map_map, List.map_map]
  have hfilter : (received.filter fun p ↦ (p.1, p.2.fd) = (w, fd)) =
      received.filter fun p ↦ decide (p.2.fd = fd) && decide (p.1 = w) := by
    apply List.filter_congr
    intro p _
    rw [Bool.eq_iff_iff, decide_eq_true_iff, Bool.and_eq_true_iff, decide_eq_true_iff,
      decide_eq_true_iff, Prod.mk.injEq, and_comm]
  rw [hfilter]
  apply List.map_congr_left
  intro p hp
  have hw := of_decide_eq_true (Bool.and_eq_true_iff.mp (List.mem_filter.mp hp).2).2
  show lineOf (p.2.entry (logsName (env.containers p.1))) = _
  rw [hw]
  rfl

private theorem perm_linesFrom :
    (received.map (sentLine env)).Perm ((sources k).flatMap (linesFrom env received)) := by
  have hnodup : (sources k).Nodup := (List.nodup_finRange k).product (by decide)
  have hmem (p : Fin k × LogsMsg) : (p.1, p.2.fd) ∈ sources k := by
    apply List.mem_product.mpr
    refine ⟨List.mem_finRange p.1, ?_⟩
    cases p.2.fd with
    | stdout => exact List.mem_cons_self
    | stderr => exact List.mem_cons_of_mem _ List.mem_cons_self
  have hclasses : received.Perm ((sources k).flatMap fun src ↦
      received.filter fun p ↦ (p.1, p.2.fd) = src) :=
    perm_flatMap_filter (fun p : Fin k × LogsMsg ↦ (p.1, p.2.fd)) hnodup fun p _ ↦ hmem p
  have hperm := hclasses.map (sentLine env)
  rw [List.map_flatMap] at hperm
  exact hperm

/-! ## From the processes to the view -/

variable {output : Fin k → List (Fd × UInt8)} {t : LogsState k}

/-- The messages that the handler has sent. -/
def sentFrames (env : LogsEnv k) (t : LogsState k) : List Bytes :=
  t.received.map (fun p ↦ logFrame (p.2.entry (logsName (env.containers p.1)))) ++
    if t.consumer = .ended then [endFrame] else []

/-- The lines that a stream has in all. -/
def sourceLines (env : LogsEnv k) (output : Fin k → List (Fd × UInt8)) (src : Fin k × Fd) :
    List LogLine :=
  (LogsState.parsedLines (env.containers src.1) src.2 (bytesOf src.2 (output src.1))).map lineOf

private theorem lines_of_frames {q : LogSocket} (h : q.frames <+: sentFrames env t) :
    ∃ received, received <+: t.received ∧ q.lines = received.map (sentLine env) ∧
      (q.frames = sentFrames env t → received = t.received) := by
  have hline (p : Fin k × LogsMsg) :
      frameLine (logFrame (p.2.entry (logsName (env.containers p.1)))) = some (sentLine env p) := by
    rw [frameLine, readFrame_logFrame]
    rfl
  have hend : (if t.consumer = .ended then [endFrame] else []).filterMap frameLine = [] := by
    split
    · rw [List.filterMap_cons_none frameLine_endFrame, List.filterMap_nil]
    · rfl
  have hnone (m : Nat) :
      ((if t.consumer = .ended then [endFrame] else []).take m).filterMap frameLine = [] :=
    List.sublist_nil.mp (hend ▸ (List.take_sublist m _).filterMap frameLine)
  refine ⟨t.received.take q.frames.length, List.take_prefix _ _, ?_, fun hall ↦ ?_⟩
  · have htake := List.prefix_iff_eq_take.mp h
    generalize q.frames.length = m at htake ⊢
    rw [LogSocket.lines, htake, sentFrames, List.take_append, List.filterMap_append, hnone,
      List.append_nil, ← List.map_take, List.filterMap_map]
    have hsome : frameLine ∘ (fun p : Fin k × LogsMsg ↦
        logFrame (p.2.entry (logsName (env.containers p.1)))) = some ∘ sentLine env :=
      funext hline
    rw [hsome, List.filterMap_eq_map]
  · apply List.take_of_length_le
    rw [hall, sentFrames, List.length_append, List.length_map]
    exact Nat.le_add_right _ _

private theorem filteredLines_sortLines (c : Comparator String) (selected : List String)
    (lines : List LogLine) :
    filteredLines selected (sortLines c lines) = sortLines c (filteredLines selected lines) := by
  rw [filteredLines, filteredLines]
  split
  · rfl
  · exact ((c.on LogLine.timestamp).sort_filter _ lines).symm

/-- From the processes to the view. Whatever the goroutines, the network and the user do, as long
as no line fills a scanner's buffer, the stream is not cancelled, and the view is started only when
its earlier sockets are closed: the view is sorted, and made up of the first lines of each stream,
in their order where it agrees with their timestamps. Once the stream is over and has arrived, these
are all lines of each container whose process started. Where different lines have different
timestamps, the view depends on nothing but these lines. -/
theorem logView_displays {c : Comparator String} {ls : List (LogsLabel k)} {vs : List LogViewStep}
    {s : LogViewState} {n : Nat}
    (hlogs : runSteps (LogsState.step env) (LogsState.init output) ls = some t)
    (hfits : ∀ w fd, Fits scannerMax (bytesOf fd (output w))) (hcancelled : t.cancelled = false)
    (hstarts : RunMeets (logViewStep c) StartsAlone .init vs)
    (hview : runSteps (logViewStep c) .init vs = some s) (hlast : s.count = n + 1)
    (hframes : (s.socket n).frames <+: sentFrames env t) :
    s.lines.Pairwise (fun a b ↦ c.le a.timestamp b.timestamp = true) ∧
      ∃ part : Fin k × Fd → List LogLine,
        s.lines.Perm ((sources k).flatMap part) ∧
        (∀ src, part src <+: sourceLines env output src ∧
          ((sourceLines env output src).Pairwise (fun a b ↦ c.le a.timestamp b.timestamp = true) →
            (part src).Sublist s.lines)) ∧
        (t.consumer = .ended → (s.socket n).frames = sentFrames env t → ∀ w,
          ((t.worker w).phase = .finished ∧
            ∀ fd, part (w, fd) = sourceLines env output (w, fd)) ∨
          ((t.worker w).phase = .failed ∧ ∀ fd, part (w, fd) = [])) ∧
        ((∀ a ∈ s.lines, ∀ b ∈ s.lines, c.tied a.timestamp b.timestamp = true → a = b) →
          ∀ selected, filteredLines selected s.lines =
            sortLines c (filteredLines selected ((sources k).flatMap part))) := by
  have hshown := (OneSocket.init.of_run hstarts hview).shows.lines n hlast
  obtain ⟨received, hreceived, hlines, hall⟩ := lines_of_frames hframes
  rw [hlines] at hshown
  have hexact : t.Exact env output :=
    (LogsState.carrying_of_run hlogs).exact (LogsState.ordered_of_run hlogs) hfits hcancelled
  have hpart (w : Fin k) (fd : Fd) :
      linesFrom env t.received (w, fd) = (t.entriesOf env w fd).map lineOf :=
    linesFrom_eq w fd
  have hfirst (src : Fin k × Fd) : linesFrom env received src <+: sourceLines env output src := by
    refine ((hreceived.filter _).map (sentLine env)).trans ?_
    rw [← linesFrom, hpart]
    exact (hexact.inOrder src.1 src.2).map lineOf
  refine ⟨?_, linesFrom env received, ?_, fun src ↦ ⟨hfirst src, fun hsorted ↦ ?_⟩, ?_, ?_⟩
  · rw [hshown]
    exact (c.on LogLine.timestamp).pairwise_sort _
  · rw [hshown]
    exact ((c.on LogLine.timestamp).sort_perm _).trans perm_linesFrom
  · rw [hshown]
    apply (c.on LogLine.timestamp).sublist_sort (hsorted.sublist (hfirst src).sublist)
    exact List.filter_sublist.map (sentLine env)
  · intro hended hdelivered w
    rw [hall hdelivered]
    rcases hexact.complete hended w with ⟨hphase, hentries⟩ | ⟨hphase, hentries⟩
    · refine .inl ⟨hphase, fun fd ↦ ?_⟩
      rw [hpart, hentries, sourceLines]
    · refine .inr ⟨hphase, fun fd ↦ ?_⟩
      rw [hpart, hentries, List.map_nil]
  · intro hdistinct selected
    rw [← filteredLines_sortLines]
    congr 1
    rw [hshown] at hdistinct ⊢
    apply (c.on LogLine.timestamp).sort_eq_of_perm perm_linesFrom
    intro a ha b hb htied
    have hmem {x : LogLine} (hx : x ∈ received.map (sentLine env)) :
        x ∈ sortLines c (received.map (sentLine env)) :=
      ((c.on LogLine.timestamp).sort_perm _).mem_iff.mpr hx
    exact hdistinct a (hmem ha) b (hmem hb) htied

end

/-- An open socket can deliver any messages. -/
theorem run_messages {c : Comparator String} {s : LogViewState} {n : Nat} (hn : n < s.count)
    (hphase : (s.socket n).phase = .opened) (frames : List Bytes) :
    ∃ s', runSteps (logViewStep c) s (frames.map (.message n)) = some s' ∧ s'.count = s.count ∧
      (s'.socket n).frames = (s.socket n).frames ++ frames := by
  induction frames generalizing s with
  | nil => exact ⟨s, rfl, rfl, (List.append_nil _).symm⟩
  | cons data frames ih =>
    have hstep : logViewStep c s (.message n data) = some (s.receive c n data) :=
      if_pos ⟨hn, hphase⟩
    obtain ⟨hcount, ended, hsocket⟩ := receive_socket (c := c) s n data
    have hself : (s.receive c n data).socket n =
        ⟨(s.socket n).phase, ended, (s.socket n).frames ++ [data]⟩ := by
      rw [hsocket, Function.update_self]
    obtain ⟨s', hrun, hcount', hframes'⟩ :=
      ih (s := s.receive c n data) (by omega) (by rw [hself]; exact hphase)
    refine ⟨s', runSteps_cons_eq_some.mpr ⟨_, hstep, hrun⟩, hcount'.trans hcount, ?_⟩
    rw [hframes', hself, List.append_assoc]
    rfl

/-- A view that has got everything of the streams of two containers. -/
theorem logView_displays_demo : ∃ vs s,
    runSteps (logViewStep codePointOrder) .init vs = some s ∧
      s.lines.Perm ((sources 2).flatMap
        (sourceLines LogsState.demoLogsEnv LogsState.demoLogsOutput)) := by
  obtain ⟨t, hlogs, hend⟩ := (Option.any_eq_true _ _).mp (by decide +kernel :
    (runSteps (LogsState.step LogsState.demoLogsEnv) (LogsState.init LogsState.demoLogsOutput)
      LogsState.demoLogsRun).any (fun t ↦ t.consumer = .ended ∧ t.cancelled = false ∧
        ∀ w, (t.worker w).phase = .finished) = true)
  obtain ⟨hended, hcancelled, hphase⟩ := of_decide_eq_true hend
  let opened : LogViewState :=
    LogViewState.init.started.withSocket 0 { LogSocket.start with phase := .opened }
  obtain ⟨s, hrun, hcount, hframes⟩ :=
    run_messages (c := codePointOrder) (s := opened) (n := 0) (by decide +kernel)
      (by decide +kernel) (sentFrames LogsState.demoLogsEnv t)
  have hview : runSteps (logViewStep codePointOrder) .init
      (.start :: .opened 0 :: (sentFrames LogsState.demoLogsEnv t).map (.message 0)) = some s :=
    hrun
  have hstarts : RunMeets (logViewStep codePointOrder) StartsAlone .init
      (.start :: .opened 0 :: (sentFrames LogsState.demoLogsEnv t).map (.message 0)) := by
    refine ⟨nofun, trivial, RunMeets.of_forall (fun l hl u ↦ ?_) _⟩
    obtain ⟨data, -, rfl⟩ := List.mem_map.mp hl
    trivial
  have hdelivered : (s.socket 0).frames = sentFrames LogsState.demoLogsEnv t := hframes
  obtain ⟨-, part, hperm, -, hcomplete, -⟩ :=
    logView_displays hlogs LogsState.fits_demoLogsOutput hcancelled hstarts hview hcount
      (hdelivered ▸ List.prefix_refl _)
  refine ⟨_, s, hview, ?_⟩
  have hparts : part = sourceLines LogsState.demoLogsEnv LogsState.demoLogsOutput := by
    funext ⟨w, fd⟩
    rcases hcomplete hended hdelivered w with ⟨-, hpart⟩ | ⟨hfailed, -⟩
    · exact hpart fd
    · rw [hphase w] at hfailed
      contradiction
  rwa [hparts] at hperm

end Dockstack.Web
