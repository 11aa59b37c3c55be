import Mathlib.Logic.Function.Basic
import Dockstack.Base.JsonEncode
import Dockstack.Base.Machine
import Dockstack.Base.StableSort

/-!
# The log view

`ContainerLogs` (`web/src/components/stacks/logs.tsx`) shows the entries that a WebSocket delivers,
sorted by their timestamps. Stopping starts the closing handshake of the socket, and the view can
be started again before that is through; it can also be started again after the server has said
that the stream is over, which leaves the socket open. Then two sockets have one list of lines, one
flag and one reference.
-/

namespace Dockstack.Web

open Dockstack.Base

/-- An entry in the view. -/
structure LogLine where
  containerName : String
  message : String
  stream : String
  timestamp : String
  deriving DecidableEq

/-- A member of a parsed object, if it is a string. -/
def stringMember (name : String) (fields : List (String × Json)) : Option String :=
  match fields.reverse.find? (·.1 = name) with
  | some (_, .string value) => some value
  | _ => none

/-- What the view makes of a message: another line, or the end of the stream. -/
inductive ViewMessage where
  | log (line : LogLine)
  | ended
  deriving DecidableEq

/-- The entry of a parsed message. -/
def readLine (fields : List (String × Json)) : Option LogLine := do
  let containerName ← stringMember "containerName" fields
  let message ← stringMember "message" fields
  let stream ← stringMember "stream" fields
  let timestamp ← stringMember "timestamp" fields
  return ⟨containerName, message, stream, timestamp⟩

/-- `JSON.parse` of a message and what its type says; `logs.tsx:120–138`. Other messages are
ignored. -/
def readFrame (data : Bytes) : Option ViewMessage :=
  match Json.parseText data with
  | some (.object fields) =>
    if stringMember "type" fields = some "log" then (readLine fields).map .log
    else if stringMember "type" fields = some "end" ∨ stringMember "type" fields = some "error" then
      some .ended
    else none
  | _ => none

/-- The line of a message, if it has one. -/
def frameLine (data : Bytes) : Option LogLine :=
  match readFrame data with
  | some (.log line) => some line
  | _ => none

/-- The state of a WebSocket. -/
inductive SocketPhase where
  | connecting
  | opened
  | closing
  | closed
  deriving DecidableEq

/-- A socket of the view: whether a message has said that its stream is over, and the messages it
has delivered. -/
structure LogSocket where
  phase : SocketPhase
  ended : Bool
  frames : List Bytes

namespace LogSocket

/-- `new WebSocket`; `logs.tsx:113`. -/
def start : LogSocket := ⟨.connecting, false, []⟩

/-- The lines that the socket has delivered. -/
def lines (k : LogSocket) : List LogLine := k.frames.filterMap frameLine

/-- The socket may deliver more of its stream. -/
def live (k : LogSocket) : Bool :=
  (k.phase == .connecting || k.phase == .opened) && !k.ended

end LogSocket

/-- The state of the component, its reference to a socket (by number), and the sockets so far. -/
structure LogViewState where
  streaming : Bool
  lines : List LogLine
  wsRef : Option Nat
  count : Nat
  socket : Nat → LogSocket

namespace LogViewState

/-- Nothing has been started; `logs.tsx:71–80`. -/
def init : LogViewState := ⟨false, [], none, 0, fun _ ↦ .start⟩

/-- The `n`-th socket is now `k`. -/
def withSocket (s : LogViewState) (n : Nat) (k : LogSocket) : LogViewState :=
  { s with socket := Function.update s.socket n k }

/-- `startStreaming`; `logs.tsx:106–149`. -/
def started (s : LogViewState) : LogViewState where
  streaming := true
  lines := []
  wsRef := some s.count
  count := s.count + 1
  socket := Function.update s.socket s.count .start

/-- `stopStreaming`; `logs.tsx:151–159`. `send` throws while the socket is connecting. -/
def stopped (s : LogViewState) : LogViewState :=
  match s.wsRef with
  | none => { s with streaming := false }
  | some n =>
    if (s.socket n).phase = .connecting then s
    else { s.withSocket n { s.socket n with phase := .closing } with
      streaming := false
      wsRef := none }

/-- The close event of the `n`-th socket, with or without an error event before it;
`logs.tsx:140–148`. -/
def closed (s : LogViewState) (n : Nat) : LogViewState :=
  { s.withSocket n { s.socket n with phase := .closed } with
    streaming := false
    wsRef := none }

end LogViewState

/-- What happens: a button is pressed, or a socket opens, delivers a message or is closed. -/
inductive LogViewStep where
  | start
  | stop
  | opened (n : Nat)
  | message (n : Nat) (data : Bytes)
  | closed (n : Nat)

/-- `[...lines].sort((a, b) => a.timestamp.localeCompare(b.timestamp))`; `logs.tsx:129–131`. -/
def sortLines (c : Comparator String) (lines : List LogLine) : List LogLine :=
  (c.on LogLine.timestamp).sort lines

/-- The step presses the start button. -/
def LogViewStep.starts : LogViewStep → Bool
  | .start => true
  | _ => false

section

variable (c : Comparator String)

/-- A message of the `n`-th socket; `logs.tsx:120–138`. -/
def LogViewState.receive (s : LogViewState) (n : Nat) (data : Bytes) : LogViewState :=
  let k := { s.socket n with frames := (s.socket n).frames ++ [data] }
  match readFrame data with
  | some (.log line) => { s.withSocket n k with lines := sortLines c (s.lines ++ [line]) }
  | some .ended =>
    { s.withSocket n { k with ended := true } with
      streaming := false
      wsRef := none }
  | none => s.withSocket n k

/-- One step; `c` is the order of `localeCompare`. -/
def logViewStep (s : LogViewState) : LogViewStep → Option LogViewState
  | .start => if s.streaming then none else some s.started
  | .stop => if s.streaming then some s.stopped else none
  | .opened n =>
    if n < s.count ∧ (s.socket n).phase = .connecting then
      some (s.withSocket n { s.socket n with phase := .opened })
    else none
  | .message n data =>
    if n < s.count ∧ (s.socket n).phase = .opened then some (s.receive c n data) else none
  | .closed n =>
    if n < s.count ∧ (s.socket n).phase ≠ .closed then some (s.closed n) else none

/-- The earlier sockets are closed when the view is started. -/
def StartsAlone (s : LogViewState) : LogViewStep → Prop
  | .start => ∀ n < s.count, (s.socket n).phase = .closed
  | _ => True

instance (s : LogViewState) : ∀ l, Decidable (StartsAlone s l)
  | .start => inferInstanceAs (Decidable (∀ n < s.count, (s.socket n).phase = .closed))
  | .stop | .opened _ | .message _ _ | .closed _ => inferInstanceAs (Decidable True)

/-- The view shows the last socket: its lines in order, whether it is live, and how it is
stopped. -/
structure ShowsSocket (s : LogViewState) : Prop where
  unused : s.count = 0 → s.lines = [] ∧ s.streaming = false ∧ s.wsRef = none
  lines : ∀ n, s.count = n + 1 → s.lines = sortLines c (s.socket n).lines
  streaming : ∀ n, s.count = n + 1 → s.streaming = (s.socket n).live
  wsRef : ∀ n, s.count = n + 1 → s.wsRef = if (s.socket n).live then some n else none

/-- The view shows the last socket for as long as it is not started again. -/
def KeepsSocket (s : LogViewState) : Prop :=
  ∀ ls t, (∀ l ∈ ls, l.starts = false) → runSteps (logViewStep c) s ls = some t → ShowsSocket c t

/-! ## One socket at a time -/

/-- The last socket is shown, and the others are closed. -/
structure OneSocket (s : LogViewState) : Prop where
  shows : ShowsSocket c s
  older : ∀ n, n + 1 < s.count → (s.socket n).phase = .closed

end

variable {c : Comparator String} {s s' t : LogViewState} {n : Nat}

private theorem live_eq_false {k : LogSocket} (h : k.phase = .closing ∨ k.phase = .closed) :
    k.live = false := by
  rw [LogSocket.live]
  rcases h with h | h
  · rw [h]
    rfl
  · rw [h]
    rfl

private theorem lines_append (k : LogSocket) (data : Bytes) :
    ({ k with frames := k.frames ++ [data] } : LogSocket).lines =
      k.lines ++ (frameLine data).toList := by
  rw [LogSocket.lines, LogSocket.lines, List.filterMap_append]
  cases h : frameLine data with
  | none => rw [List.filterMap_cons_none h, List.filterMap_nil, Option.toList_none]
  | some line => rw [List.filterMap_cons_some h, List.filterMap_nil, Option.toList_some]

/-- A message changes only the socket that delivers it. -/
theorem receive_socket (s : LogViewState) (n : Nat) (data : Bytes) :
    (s.receive c n data).count = s.count ∧
      ∃ ended, (s.receive c n data).socket = Function.update s.socket n
        ⟨(s.socket n).phase, ended, (s.socket n).frames ++ [data]⟩ := by
  unfold LogViewState.receive
  cases readFrame data with
  | none => exact ⟨rfl, _, rfl⟩
  | some m =>
    cases m with
    | log line => exact ⟨rfl, _, rfl⟩
    | ended => exact ⟨rfl, _, rfl⟩

namespace OneSocket

/-- At first there is no socket. -/
theorem init : OneSocket c .init where
  shows := ⟨fun _ ↦ ⟨rfl, rfl, rfl⟩, nofun, nofun, nofun⟩
  older := nofun

private theorem of_last {s s' : LogViewState} {k : LogSocket} (hcount : s'.count = n + 1)
    (hsocket : s'.socket = Function.update s.socket n k)
    (holder : ∀ m < n, (s.socket m).phase = .closed) (hlines : s'.lines = sortLines c k.lines)
    (hstreaming : s'.streaming = k.live) (hwsRef : s'.wsRef = if k.live then some n else none) :
    OneSocket c s' := by
  have hlast {m : Nat} (hm : s'.count = m + 1) : m = n := by omega
  have hself : s'.socket n = k := by rw [hsocket, Function.update_self]
  constructor
  · constructor
    · intro hzero
      omega
    · intro m hm
      rw [hlast hm, hself]
      exact hlines
    · intro m hm
      rw [hlast hm, hself]
      exact hstreaming
    · intro m hm
      rw [hlast hm, hself]
      exact hwsRef
  · intro m hm
    have hlt : m < n := by omega
    rw [hsocket, Function.update_of_ne (Nat.ne_of_lt hlt)]
    exact holder m hlt

private theorem count_eq (h : OneSocket c s) (hn : n < s.count)
    (hopen : (s.socket n).phase ≠ .closed) : s.count = n + 1 := by
  by_contra hne
  apply hopen
  apply h.older
  omega

private theorem before (h : OneSocket c s) (hcount : s.count = n + 1) :
    ∀ m < n, (s.socket m).phase = .closed := by
  intro m hm
  exact h.older m (by omega)

private theorem started (hclosed : ∀ n < s.count, (s.socket n).phase = .closed) :
    OneSocket c s.started := by
  apply of_last (s := s) (n := s.count) (k := .start)
  · rfl
  · rfl
  · exact hclosed
  · exact List.mergeSort_nil.symm
  · rfl
  · rfl

private theorem ended {k : LogSocket} (h : OneSocket c s) (hcount : s.count = n + 1)
    (hlines : k.lines = (s.socket n).lines) (hlive : k.live = false) :
    OneSocket c { s.withSocket n k with streaming := false, wsRef := none } := by
  apply of_last (s := s) (n := n) (k := k)
  · exact hcount
  · rfl
  · exact h.before hcount
  · rw [hlines]
    exact h.shows.lines n hcount
  · exact hlive.symm
  · rw [hlive]
    rfl

private theorem goesOn {k : LogSocket} {lines : List LogLine} (h : OneSocket c s)
    (hcount : s.count = n + 1) (hlines : lines = sortLines c k.lines)
    (hlive : k.live = (s.socket n).live) :
    OneSocket c { s.withSocket n k with lines := lines } := by
  apply of_last (s := s) (n := n) (k := k)
  · exact hcount
  · rfl
  · exact h.before hcount
  · exact hlines
  · rw [hlive]
    exact h.shows.streaming n hcount
  · rw [hlive]
    exact h.shows.wsRef n hcount

private theorem stopped (h : OneSocket c s) (hstreaming : s.streaming = true) :
    OneSocket c s.stopped := by
  cases hcount : s.count with
  | zero =>
    have hnot := (h.shows.unused hcount).2.1
    rw [hstreaming] at hnot
    contradiction
  | succ n =>
    have hlive := h.shows.streaming n hcount
    rw [hstreaming] at hlive
    have hwsRef := h.shows.wsRef n hcount
    rw [if_pos hlive.symm] at hwsRef
    rw [LogViewState.stopped, hwsRef]
    dsimp only
    split
    · exact h
    · exact h.ended hcount rfl (live_eq_false (.inl rfl))

private theorem receive (h : OneSocket c s) (hcount : s.count = n + 1) (data : Bytes) :
    OneSocket c (s.receive c n data) := by
  have hlines := h.shows.lines n hcount
  have happend := lines_append (s.socket n) data
  rw [frameLine] at happend
  unfold LogViewState.receive
  cases hread : readFrame data with
  | none =>
    rw [hread] at happend
    refine h.goesOn hcount ?_ rfl
    rw [happend]
    exact hlines.trans (congrArg (sortLines c) (List.append_nil _).symm)
  | some m =>
    rw [hread] at happend
    cases m with
    | log line =>
      refine h.goesOn hcount ?_ rfl
      rw [happend, hlines, sortLines, sortLines, Comparator.sort_append_sort]
      rfl
    | ended =>
      refine h.ended hcount ?_ (Bool.and_false _)
      exact happend.trans (List.append_nil _)

/-- Every step keeps this, if the view is started only when every socket is closed. -/
theorem step (h : OneSocket c s) {l : LogViewStep} (hstarts : StartsAlone s l)
    (hstep : logViewStep c s l = some s') : OneSocket c s' := by
  cases l with
  | start =>
    obtain ⟨-, hs⟩ := Option.ite_none_left_eq_some.mp hstep
    obtain rfl := Option.some.inj hs
    exact started hstarts
  | stop =>
    obtain ⟨hstreaming, hs⟩ := Option.ite_none_right_eq_some.mp hstep
    obtain rfl := Option.some.inj hs
    exact h.stopped hstreaming
  | opened n =>
    obtain ⟨⟨hn, hphase⟩, hs⟩ := Option.ite_none_right_eq_some.mp hstep
    have hcount := h.count_eq hn (by rw [hphase]; decide)
    obtain rfl := Option.some.inj hs
    refine h.goesOn hcount (h.shows.lines n hcount) ?_
    rw [LogSocket.live, LogSocket.live, hphase]
    rfl
  | message n data =>
    obtain ⟨⟨hn, hphase⟩, hs⟩ := Option.ite_none_right_eq_some.mp hstep
    obtain rfl := Option.some.inj hs
    exact h.receive (h.count_eq hn (by rw [hphase]; decide)) data
  | closed n =>
    obtain ⟨⟨hn, hphase⟩, hs⟩ := Option.ite_none_right_eq_some.mp hstep
    obtain rfl := Option.some.inj hs
    exact h.ended (h.count_eq hn hphase) rfl (live_eq_false (.inr rfl))

/-- After a run in which the view is started only when every socket is closed. -/
theorem of_run {ls : List LogViewStep} (h : OneSocket c s)
    (hstarts : RunMeets (logViewStep c) StartsAlone s ls)
    (hrun : runSteps (logViewStep c) s ls = some t) : OneSocket c t :=
  runSteps_invariant_of_meets (fun _ _ _ ho hl hs ↦ ho.step hl hs) h hstarts hrun

end OneSocket

/-- In every run in which the view is started only when every earlier socket is closed, it shows the
last socket: the lines that it has delivered, sorted stably by their timestamps, and whether there
may be more. Where such a run has left the view stopped, and it is started again, it shows the new
socket for as long as it is the last one if and only if the earlier ones were closed. -/
theorem logView_showsSocket {ls : List LogViewStep}
    (hstarts : RunMeets (logViewStep c) StartsAlone .init ls)
    (hrun : runSteps (logViewStep c) .init ls = some s) :
    ShowsSocket c s ∧
      (s.streaming = false →
        (KeepsSocket c s.started ↔ ∀ n < s.count, (s.socket n).phase = .closed)) := by
  have h := OneSocket.init.of_run hstarts hrun
  refine ⟨h.shows, fun _ ↦ ⟨?_, ?_⟩⟩
  · intro hkeeps n hn
    by_contra hopen
    have hsocket : s.started.socket n = s.socket n :=
      Function.update_of_ne (Nat.ne_of_lt hn) _ _
    have hlast : (s.started.closed n).socket s.count = .start := by
      show Function.update (Function.update s.socket s.count .start) n _ s.count = _
      rw [Function.update_of_ne (Nat.ne_of_gt hn), Function.update_self]
    -- the close event of the earlier socket ends the streaming state of the new one
    have hclosed : logViewStep c s.started (.closed n) = some (s.started.closed n) := by
      apply if_pos
      rw [hsocket]
      exact ⟨Nat.lt_succ_of_lt hn, hopen⟩
    have hshows := hkeeps [.closed n] (s.started.closed n)
      (fun l hl ↦ by
        rw [List.mem_singleton.mp hl]
        rfl)
      (runSteps_cons_eq_some.mpr ⟨_, hclosed, rfl⟩)
    have hstreaming := hshows.streaming s.count rfl
    rw [hlast] at hstreaming
    contradiction
  · intro hclosed ls' t hls' hrun'
    have hmeets : RunMeets (logViewStep c) StartsAlone s.started ls' := by
      apply RunMeets.of_forall
      intro l hl u
      cases l with
      | start =>
        have hnot := hls' _ hl
        contradiction
      | _ => trivial
    exact ((OneSocket.started hclosed).of_run hmeets hrun').shows

/-- An order of strings. -/
def codePointOrder : Comparator String where
  le x y := decide (x ≤ y)
  trans _ _ _ hxy hyz :=
    decide_eq_true (Std.le_trans (of_decide_eq_true hxy) (of_decide_eq_true hyz))
  total _ _ := by simpa using Std.le_total

/-- The message that delivers an entry. -/
def demoFrame (containerName message timestamp : String) : Bytes :=
  ("\x7b\"type\":\"log\",\"containerName\":\"" ++ containerName ++ "\",\"message\":\"" ++ message ++
    "\",\"stream\":\"stdout\",\"timestamp\":\"" ++ timestamp ++ "\"\x7d").toUTF8.data.toList

/-- Three entries arrive, the second of which is older than the first, and the view is stopped. -/
def demoLogView : List LogViewStep :=
  [.start, .opened 0, .message 0 (demoFrame "app" "up" "10:02"),
    .message 0 (demoFrame "db" "ready" "10:01"), .message 0 (demoFrame "db" "query" "10:02"), .stop]

/-- It shows them by their timestamps. It is stopped before its socket is closed, and would lose
track of another one. -/
theorem logView_showsSocket_demo :
    ∃ s, runSteps (logViewStep codePointOrder) .init demoLogView = some s ∧
      ShowsSocket codePointOrder s ∧
      s.lines = [⟨"db", "ready", "stdout", "10:01"⟩, ⟨"app", "up", "stdout", "10:02"⟩,
        ⟨"db", "query", "stdout", "10:02"⟩] ∧
      ¬ KeepsSocket codePointOrder s.started := by
  have hrun : (runSteps (logViewStep codePointOrder) .init demoLogView).any (fun s ↦
      s.streaming = false ∧ s.count = 1 ∧ (s.socket 0).phase ≠ .closed ∧
        (s.socket 0).lines = [⟨"app", "up", "stdout", "10:02"⟩, ⟨"db", "ready", "stdout", "10:01"⟩,
          ⟨"db", "query", "stdout", "10:02"⟩]) = true := by decide +kernel
  obtain ⟨s, hs, hend⟩ := (Option.any_eq_true _ _).mp hrun
  obtain ⟨hstreaming, hcount, hopen, hlines⟩ := of_decide_eq_true hend
  have h := logView_showsSocket (by decide +kernel) hs
  refine ⟨s, hs, h.1, ?_, fun hkeeps ↦ ?_⟩
  · rw [h.1.lines 0 hcount, hlines]
    simp [sortLines, Comparator.sort, List.mergeSort, List.MergeSort.Internal.splitInTwo,
      codePointOrder, Comparator.on]
  · exact hopen ((h.2 hstreaming).mp hkeeps 0 (by omega))

end Dockstack.Web
