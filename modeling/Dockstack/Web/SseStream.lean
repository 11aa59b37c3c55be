import Dockstack.Base.Utf8

/-!
# The event stream of a stack action

Both ends of `POST /api/stacks/{name}/{action}/stream`: the handler writes every output line
as an event (`internal/server/api/stacks.go`, `handleStackActionStream`), and `sseStream`
(`web/src/lib/api/sse.ts`) reads the events back from chunks that the network cuts as it
likes. A JavaScript string is a list of characters: the decoder only yields well-formed ones.
-/

namespace Dockstack.Web

open Dockstack.Base

/-! ## What the handler writes -/

/-- `strings.ReplaceAll(line, "\n", "\\n")`. `stacks.go:412`. -/
def escapeNewlines (line : Bytes) : Bytes :=
  line.flatMap fun b ↦ if b = newline then utf8Encode ['\\', 'n'] else [b]

/-- The event of an output line. `stacks.go:412–413`. -/
def lineEvent (line : Bytes) : Bytes :=
  utf8Encode "data: ".toList ++ escapeNewlines line ++ utf8Encode ['\n', '\n']

/-! ## What the client reads -/

/-- What the loop of `sseStream` carries from chunk to chunk. -/
structure SseReader where
  decoder : TextDecoder
  buffer : List Char
  deriving DecidableEq

/-- The response to the `fetch`: its body arrives in chunks. -/
structure SseResponse where
  status : Nat
  statusText : String
  body : List Bytes

/-- A successful response. -/
def SseResponse.ok (res : SseResponse) : Bool := 200 ≤ res.status && res.status ≤ 299

/-- The data of a line of an event, if it is a data line. `sse.ts:24–25`. -/
def sseData (line : List Char) : Option (List Char) :=
  if "data: ".toList <+: line then some (line.drop 6) else none

/-- Take the complete events off the buffer: their data and the rest. `sse.ts:20–27`. -/
def takeEvents (buffer : List Char) : List (List Char) × List Char :=
  match _ : indexOf ['\n', '\n'] buffer with
  | none => ([], buffer)
  | some idx =>
    let chunk := buffer.take idx
    let rest := takeEvents (buffer.drop (idx + 2))
    ((chunk.splitOn '\n').filterMap sseData ++ rest.1, rest.2)
termination_by buffer.length
decreasing_by
  have hidx := indexOf_add_length_le ‹indexOf _ buffer = some idx›
  simp only [List.length_cons, List.length_nil, List.length_drop] at hidx ⊢
  omega

namespace SseReader

/-- Before the first chunk. `sse.ts:13–14`. -/
def init : SseReader := ⟨TextDecoder.init, []⟩

/-- One round of the loop: what it yields for a chunk. `sse.ts:17–27`. -/
def read (r : SseReader) (value : Bytes) : SseReader × List (List Char) :=
  let (decoder, text) := r.decoder.decode value
  let (lines, buffer) := takeEvents (r.buffer ++ text)
  (⟨decoder, buffer⟩, lines)

/-- The rounds of a whole body. -/
def readAll : SseReader → List Bytes → SseReader × List (List Char)
  | r, [] => (r, [])
  | r, value :: body =>
    (((r.read value).1.readAll body).1, (r.read value).2 ++ ((r.read value).1.readAll body).2)

end SseReader

/-- Everything the generator yields, and what it holds when the body is done; a response
that is not ok throws. `sse.ts:3–32`. -/
def sseStream (res : SseResponse) : Except String (List (List Char) × SseReader) :=
  if res.ok then .ok ((SseReader.init.readAll res.body).2, (SseReader.init.readAll res.body).1)
  else .error ("stream request failed: " ++ toString res.status ++ " " ++ res.statusText)

/-! ## The events of a text -/

/-- The loop ends with no complete event in the buffer. -/
theorem takeEvents_of_none {buffer : List Char} (h : indexOf ['\n', '\n'] buffer = none) :
    takeEvents buffer = ([], buffer) := by
  rw [takeEvents]
  split
  · rfl
  · next hi => rw [h] at hi; cases hi

/-- The loop takes the first complete event. -/
theorem takeEvents_of_some {buffer : List Char} {idx : Nat}
    (h : indexOf ['\n', '\n'] buffer = some idx) :
    takeEvents buffer =
      (((buffer.take idx).splitOn '\n').filterMap sseData ++
          (takeEvents (buffer.drop (idx + 2))).1,
        (takeEvents (buffer.drop (idx + 2))).2) := by
  rw [takeEvents]
  split
  · next hi => rw [h] at hi; cases hi
  · next hi =>
    rw [h] at hi
    cases hi
    rfl

/-- Taking the events early changes nothing: what is left of a part is continued by the
next one. -/
theorem takeEvents_append (a b : List Char) :
    takeEvents (a ++ b) =
      ((takeEvents a).1 ++ (takeEvents ((takeEvents a).2 ++ b)).1,
        (takeEvents ((takeEvents a).2 ++ b)).2) := by
  induction hn : a.length using Nat.strongRecOn generalizing a with
  | ind n ih =>
    subst hn
    cases hi : indexOf ['\n', '\n'] a with
    | none => rw [takeEvents_of_none hi, List.nil_append]
    | some idx =>
      have hidx : idx + 2 ≤ a.length := indexOf_add_length_le hi
      have hlt : (a.drop (idx + 2)).length < a.length := by
        rw [List.length_drop]
        omega
      rw [takeEvents_of_some hi, takeEvents_of_some (indexOf_append hi b),
        List.take_append_of_le_length (by omega), List.drop_append_of_le_length hidx,
        ih _ hlt _ rfl, List.append_assoc]

/-- A line in an event is one data line. -/
theorem takeEvents_event {line : List Char} (h : '\n' ∉ line) (rest : List Char) :
    takeEvents ("data: ".toList ++ line ++ ['\n', '\n'] ++ rest) =
      (line :: (takeEvents rest).1, (takeEvents rest).2) := by
  have hn : '\n' ∉ "data: ".toList ++ line := by
    rw [List.mem_append, not_or]
    exact ⟨by decide +kernel, h⟩
  have hdata : sseData ("data: ".toList ++ line) = some line :=
    if_pos (List.prefix_append _ line)
  have hrest : ("data: ".toList ++ line ++ (['\n', '\n'] ++ rest)).drop
      (("data: ".toList ++ line).length + 2) = rest := by
    rw [← List.drop_drop, List.drop_left]
    rfl
  rw [List.append_assoc, takeEvents_of_some (indexOf_of_notMem hn ['\n'] rest), hrest,
    List.take_left, List.splitOn_eq_singleton hn, List.filterMap_cons_some hdata,
    List.filterMap_nil, List.singleton_append]

/-- The events of some lines are these lines, and no rest. -/
theorem takeEvents_events {lines : List (List Char)} (h : ∀ line ∈ lines, '\n' ∉ line) :
    takeEvents (lines.flatMap fun line ↦ "data: ".toList ++ line ++ ['\n', '\n']) =
      (lines, []) := by
  induction lines with
  | nil => exact takeEvents_of_none rfl
  | cons line lines ih =>
    rw [List.forall_mem_cons] at h
    rw [List.flatMap_cons, takeEvents_event h.1, ih h.2]

/-! ## The chunks of a body -/

namespace SseReader

/-- The events that a decoded chunk completes. -/
theorem read_of_decode {r : SseReader} {value : Bytes} {d : TextDecoder} {text : List Char}
    (h : r.decoder.decode value = (d, text)) :
    r.read value =
      (⟨d, (takeEvents (r.buffer ++ text)).2⟩, (takeEvents (r.buffer ++ text)).1) := by
  simp only [read, h]

/-- A chunk is read like its two parts. -/
theorem read_append (r : SseReader) (a b : Bytes) :
    r.read (a ++ b) =
      (((r.read a).1.read b).1, (r.read a).2 ++ ((r.read a).1.read b).2) := by
  simp only [read, TextDecoder.decode_append]
  rw [← List.append_assoc, takeEvents_append]

/-- After a chunk nothing more can be read without another one. -/
theorem read_nil_after (r : SseReader) (a : Bytes) :
    (r.read a).1.read [] = ((r.read a).1, []) := by
  have h := read_append r a []
  rw [List.append_nil] at h
  obtain ⟨hstate, hlines⟩ := Prod.ext_iff.mp h
  exact Prod.ext hstate.symm (List.self_eq_append_right.mp hlines)

/-- However the body is cut into chunks, it is read like one chunk. -/
theorem readAll_eq_read {r : SseReader} (h : r.read [] = (r, [])) (body : List Bytes) :
    r.readAll body = r.read body.flatten := by
  induction body generalizing r with
  | nil => exact h.symm
  | cons value body ih =>
    rw [readAll, ih (read_nil_after r value), List.flatten_cons, read_append]

/-- The reader waits at first. -/
theorem init_read_nil : init.read [] = (init, []) := by
  rw [read_of_decode (rfl : init.decoder.decode [] = (TextDecoder.init, [])),
    takeEvents_of_none rfl]
  rfl

end SseReader

/-! ## Both ends -/

/-- A line without a line feed is written as it is. -/
theorem escapeNewlines_of_notMem {line : Bytes} (h : newline ∉ line) :
    escapeNewlines line = line := by
  induction line with
  | nil => rfl
  | cons b line ih =>
    rw [List.mem_cons, not_or] at h
    rw [escapeNewlines] at ih
    rw [escapeNewlines, List.flatMap_cons, ih h.2, if_neg (Ne.symm h.1), List.singleton_append]

/-- The events of some lines, as a text. -/
theorem lineEvents_eq {lines : List (List Char)} (h : ∀ line ∈ lines, '\n' ∉ line) :
    (lines.map utf8Encode).flatMap lineEvent =
      utf8Encode (lines.flatMap fun line ↦ "data: ".toList ++ line ++ ['\n', '\n']) := by
  induction lines with
  | nil => rfl
  | cons line lines ih =>
    rw [List.forall_mem_cons] at h
    rw [List.map_cons, List.flatMap_cons, ih h.2, List.flatMap_cons, utf8Encode_append,
      utf8Encode_append, utf8Encode_append, lineEvent,
      escapeNewlines_of_notMem (newline_notMem_utf8Encode h.1)]

/-- The text of some events does not begin with a byte order mark. -/
theorem decode_lineEvents {lines : List (List Char)} (h : ∀ line ∈ lines, '\n' ∉ line) :
    TextDecoder.init.decode ((lines.map utf8Encode).flatMap lineEvent) =
      (⟨Utf8Decoder.init, !lines.isEmpty⟩,
        lines.flatMap fun line ↦ "data: ".toList ++ line ++ ['\n', '\n']) := by
  rw [lineEvents_eq h, TextDecoder.decode, TextDecoder.init, Utf8Decoder.run_utf8Encode]
  cases lines with
  | nil => rfl
  | cons line lines => rfl

/-- Server and client agree on the stream: however the events of the lines are cut into
chunks, the client yields exactly the lines, and holds nothing back. -/
theorem sseStream_lineEvents {lines : List (List Char)} {res : SseResponse}
    (hlines : ∀ line ∈ lines, '\n' ∉ line) (hok : res.status = 200)
    (hbody : res.body.flatten = (lines.map utf8Encode).flatMap lineEvent) :
    ∃ reader, sseStream res = .ok (lines, reader) ∧ reader.buffer = [] ∧
      reader.decoder.utf8 = Utf8Decoder.init := by
  have hok' : res.ok = true := by rw [SseResponse.ok, hok]; rfl
  have hread : SseReader.init.readAll res.body =
      (⟨⟨Utf8Decoder.init, !lines.isEmpty⟩, []⟩, lines) := by
    rw [SseReader.readAll_eq_read SseReader.init_read_nil, hbody,
      SseReader.read_of_decode (decode_lineEvents hlines), SseReader.init, List.nil_append,
      takeEvents_events hlines]
  refine ⟨⟨⟨Utf8Decoder.init, !lines.isEmpty⟩, []⟩, ?_, rfl, rfl⟩
  rw [sseStream, if_pos hok', hread]

/-- Two lines whose separator is cut in two, with an empty chunk between the halves. -/
theorem sseStream_lineEvents_cut :
    ∃ reader, sseStream ⟨200, "OK", [utf8Encode "data: data: é\n".toList, [],
        utf8Encode "\ndata: \n\n".toList]⟩ = .ok (["data: é".toList, []], reader) ∧
      reader.buffer = [] ∧ reader.decoder.utf8 = Utf8Decoder.init :=
  sseStream_lineEvents (by decide +kernel) rfl (by decide +kernel)

end Dockstack.Web
