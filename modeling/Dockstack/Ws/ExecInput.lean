import Dockstack.Ws.Exec
import Mathlib.Tactic.NormNum

/-!
# Terminal input

The client sends what is typed or pasted as text frames, and control frames as JSON texts
(`web/src/components/terminal/container-terminal.tsx:100–116`); the handler tells them apart by
parsing. An input passes through unless it is a JSON object with a known type, or too long a
message.
-/

namespace Dockstack.Ws

open Dockstack.Base Dockstack.Base.Json

/-- JavaScript's integers are exact below this. -/
def safeBound : Nat := 9007199254740992

/-- What the client sends once the terminal is open: an input, or its size, which is in JavaScript
integers. -/
inductive TerminalSend where
  | input (data : Bytes)
  | resize (cols rows : Fin safeBound)

/-- `JSON.stringify({ type: "resize", cols, rows })`; `container-terminal.tsx:103–116`. -/
def resizeFrame (cols rows : Nat) : Bytes :=
  text "\x7b\"type\":\"resize\",\"cols\":" ++ decimal cols ++
    (text ",\"rows\":" ++ (decimal rows ++ [ascii '}']))

namespace TerminalSend

/-- The text frame that is sent. -/
def data : TerminalSend → Bytes
  | .input data => data
  | .resize cols rows => resizeFrame cols rows

/-- The input, if it is one. -/
def input? : TerminalSend → Option Bytes
  | .input data => some data
  | .resize _ _ => none

end TerminalSend

/-- The handler takes what the client sends as it comes. With each frame stands what Docker would
answer if it started an exec. -/
def ExecWS.handleSends (s : ExecWS) (sends : List (TerminalSend × DockerExec)) : ExecWS :=
  sends.foldl (fun s p ↦ s.handleFrame .text p.1.data p.2) s

/-- The inputs. -/
def inputs (sends : List (TerminalSend × DockerExec)) : List Bytes :=
  sends.filterMap (·.1.input?)

/-- All but the inputs. -/
def resizes (sends : List (TerminalSend × DockerExec)) : List (TerminalSend × DockerExec) :=
  sends.filter (·.1.input?.isNone)

/-- The input is read, and is no JSON object whose type is that of a control frame. -/
def Plain (data : Bytes) : Prop :=
  data.length ≤ readLimit ∧ ∀ type ∈ unmarshalType data, type ∉ ["init", "resize", "close"]

instance (data : Bytes) : Decidable (Plain data) := inferInstanceAs (Decidable (_ ∧ _))

/-- What has been written to the connection of a session. -/
def ExecWS.written (s : ExecWS) (n : Nat) : Option Bytes :=
  (s.sessions[n]?.bind (·.conn)).map (·.written)

variable {s : ExecWS} {n : Nat} {data w : Bytes} {docker : DockerExec}
  {sends : List (TerminalSend × DockerExec)}

private theorem plain_nil : Plain [] := ⟨Nat.zero_le _, nofun⟩

private theorem length_decimal (n : Fin safeBound) : (decimal n).length ≤ 16 := by
  rw [decimal, List.length_map, Nat.length_toDigits_le_iff (by omega) (by omega)]
  exact lt_trans n.isLt (by norm_num [safeBound])

/-- The value of the client's resize frame. -/
theorem parseText_resizeFrame (cols rows : Nat) : parseText (resizeFrame cols rows) =
    some (.object [("type", .string "resize"), ("cols", .number (decimal cols)),
      ("rows", .number (decimal rows))]) := by
  have hprefix : Scanner.init.run (text "\x7b\"type\":\"resize\",\"cols\":") =
      some ⟨.beginValue, [.objectValue [("type", .string "resize")] "cols"]⟩ := rfl
  have hcut : text ",\"rows\":" = ascii ',' :: text "\"rows\":" := rfl
  have hcols := Scanner.run_decimal [.objectValue [("type", .string "resize")] "cols"] cols
    (b := ascii ',') (by decide) (by decide) (by decide) (by decide)
    (text "\"rows\":" ++ (decimal rows ++ [ascii '}']))
  have hcomma : Scanner.afterValue (.number (decimal cols))
      [.objectValue [("type", .string "resize")] "cols"] (ascii ',') = some ⟨.beginString,
        [.objectKey [("type", .string "resize"), ("cols", .number (decimal cols))]]⟩ := rfl
  have hmiddle : Scanner.run ⟨.beginString, [.objectKey [("type", .string "resize"),
      ("cols", .number (decimal cols))]]⟩ (text "\"rows\":") = some ⟨.beginValue,
        [.objectValue [("type", .string "resize"), ("cols", .number (decimal cols))] "rows"]⟩ := rfl
  have hrows := Scanner.run_decimal
    [.objectValue [("type", .string "resize"), ("cols", .number (decimal cols))] "rows"] rows
    (b := ascii '}') (by decide) (by decide) (by decide) (by decide) []
  rw [parseText, resizeFrame, List.append_assoc, Scanner.run_append, hprefix, Option.bind_some,
    hcut, List.cons_append, hcols, hcomma, Option.bind_some, Scanner.run_append, hmiddle,
    Option.bind_some, hrows]
  rfl

/-- The fields of the client's resize frame. -/
theorem unmarshal_resizeFrame (cols rows : Nat) : unmarshal (resizeFrame cols rows) =
    some [("type", .string "resize"), ("cols", .number (decimal cols)),
      ("rows", .number (decimal rows))] := by
  rw [unmarshal, parseText_resizeFrame]

/-- The client's resize frame is one to the handler. -/
theorem unmarshalType_resizeFrame (cols rows : Nat) :
    unmarshalType (resizeFrame cols rows) = some "resize" := by
  have hcols : foldName "cols" ≠ foldName "type" := by decide
  have hrows : foldName "rows" ≠ foldName "type" := by decide
  rw [unmarshalType, unmarshal_resizeFrame, Option.bind_some]
  simp only [stringField, field, List.foldlM_cons, List.foldlM_nil, if_true, if_neg hcols,
    if_neg hrows, readString]
  rfl

private theorem length_resizeFrame (cols rows : Fin safeBound) :
    (resizeFrame cols rows).length ≤ readLimit := by
  have hcols := length_decimal cols
  have hrows := length_decimal rows
  have hhead : (text "\x7b\"type\":\"resize\",\"cols\":").length = 24 := rfl
  have hmiddle : (text ",\"rows\":").length = 8 := rfl
  simp only [resizeFrame, List.length_append, List.length_singleton, hhead, hmiddle, readLimit]
  omega

namespace ExecWS

private theorem onSession_id (s : ExecWS) (m : Option Nat) : s.onSession m id = s := by
  cases m with
  | none => rfl
  | some m =>
    exact congrArg (fun l ↦ { s with sessions := l }) (List.modify_id m s.sessions)

/-- Nothing is written. -/
theorem write_nil (s : ExecWS) : s.write [] = s := by
  have hid : (fun e : ExecSession ↦ e.onConn (·.write [])) = id := by
    funext e
    cases e with
    | mk containerID options cancelled conn =>
      cases conn with
      | none => rfl
      | some c => simp [ExecSession.onConn, ExecConn.write]
  rw [write, hid, onSession_id]

/-- Two writes are one. -/
theorem write_write (s : ExecWS) (a b : Bytes) : (s.write a).write b = s.write (a ++ b) := by
  have hcomp : (fun e : ExecSession ↦ e.onConn (·.write b)) ∘
      (fun e : ExecSession ↦ e.onConn (·.write a)) = fun e ↦ e.onConn (·.write (a ++ b)) := by
    funext e
    simp [ExecSession.onConn, Function.comp_def, ExecConn.write]
  simp only [write, onSession]
  cases s.hijack with
  | none => rfl
  | some n => simp only [List.modify_modify_eq, hcomp]

/-- A plain input goes to the connection and nowhere else. -/
theorem handleFrame_plain (h : Plain data) (hs : s.returned = false) :
    s.handleFrame .text data docker = s.write data := by
  have htype : ∀ type ∈ unmarshalType data, type ≠ "init" ∧ type ≠ "resize" ∧ type ≠ "close" := by
    simpa using h.2
  simp only [handleFrame, hs, Bool.false_eq_true, if_false, if_neg (not_lt.mpr h.1), handleText]
  split
  · rfl
  · next type hdata =>
    obtain ⟨hinit, hresize, hclose⟩ := htype type hdata
    rw [if_neg hinit, if_neg hresize, if_neg hclose]

/-- The client's resize frame. -/
theorem handleFrame_resize (docker : DockerExec) (hs : s.returned = false)
    (cols rows : Fin safeBound) :
    s.handleFrame .text (resizeFrame cols rows) docker =
      s.handleResize (resizeFrame cols rows) := by
  have hne : ("resize" : String) ≠ "init" := by decide
  simp only [handleFrame, hs, Bool.false_eq_true, if_false,
    if_neg (not_lt.mpr (length_resizeFrame cols rows)), handleText,
    unmarshalType_resizeFrame, if_neg hne, if_true]

/-- Resizing is a matter of its own. -/
theorem handleResize_write (s : ExecWS) (frame data : Bytes) :
    (s.write data).handleResize frame = (s.handleResize frame).write data := by
  have hstarted : (s.write data).started = s.started := rfl
  simp only [handleResize, hstarted]
  split
  · split
    · rfl
    · split <;> rfl
  · rfl

/-- Resizing leaves the handler and its sessions as they are. -/
theorem handleResize_keeps (s : ExecWS) (frame : Bytes) :
    (s.handleResize frame).sessions = s.sessions ∧ (s.handleResize frame).hijack = s.hijack ∧
      (s.handleResize frame).returned = s.returned := by
  unfold handleResize
  split
  · split
    · exact ⟨rfl, rfl, rfl⟩
    · split <;> exact ⟨rfl, rfl, rfl⟩
  · exact ⟨rfl, rfl, rfl⟩

/-- Resize frames leave the sessions as they are. -/
theorem handleSends_resizes_keeps (sends : List (TerminalSend × DockerExec))
    (hs : s.returned = false) :
    (s.handleSends (resizes sends)).sessions = s.sessions ∧
      (s.handleSends (resizes sends)).hijack = s.hijack := by
  induction sends generalizing s with
  | nil => exact ⟨rfl, rfl⟩
  | cons p sends ih =>
    obtain ⟨send, docker⟩ := p
    cases send with
    | input input => exact ih hs
    | resize cols rows =>
      have hcons : s.handleSends (resizes ((.resize cols rows, docker) :: sends)) =
          (s.handleResize (resizeFrame cols rows)).handleSends (resizes sends) :=
        congrArg (handleSends · (resizes sends)) (handleFrame_resize docker hs cols rows)
      obtain ⟨hsessions, hhijack, hreturned⟩ := s.handleResize_keeps (resizeFrame cols rows)
      obtain ⟨hsessions', hhijack'⟩ := ih (hreturned.trans hs)
      rw [hcons]
      exact ⟨hsessions'.trans hsessions, hhijack'.trans hhijack⟩

/-- Resize frames and writes do not meet. -/
theorem handleSends_resizes_write (hs : s.returned = false) :
    (s.write data).handleSends (resizes sends) = (s.handleSends (resizes sends)).write data := by
  induction sends generalizing s with
  | nil => rfl
  | cons p sends ih =>
    obtain ⟨send, docker⟩ := p
    cases send with
    | input input => exact ih hs
    | resize cols rows =>
      have hcons (u : ExecWS) (hu : u.returned = false) :
          u.handleSends (resizes ((.resize cols rows, docker) :: sends)) =
            (u.handleResize (resizeFrame cols rows)).handleSends (resizes sends) :=
        congrArg (handleSends · (resizes sends)) (handleFrame_resize docker hu cols rows)
      rw [hcons s hs, hcons (s.write data) hs, handleResize_write, ih]
      rw [(s.handleResize_keeps _).2.2, hs]

/-- Plain inputs go to the connection, and the rest happens as without them. -/
theorem handleSends_plain (hs : s.returned = false) (h : ∀ data ∈ inputs sends, Plain data) :
    s.handleSends sends = (s.handleSends (resizes sends)).write (inputs sends).flatten := by
  induction sends generalizing s with
  | nil => exact s.write_nil.symm
  | cons p sends ih =>
    obtain ⟨send, docker⟩ := p
    cases send with
    | input input =>
      have hplain : Plain input := h input List.mem_cons_self
      calc s.handleSends ((.input input, docker) :: sends)
          = (s.write input).handleSends sends :=
            congrArg (handleSends · sends) (handleFrame_plain hplain hs)
        _ = ((s.write input).handleSends (resizes sends)).write (inputs sends).flatten :=
            ih hs fun data hdata ↦ h data (List.mem_cons_of_mem _ hdata)
        _ = ((s.handleSends (resizes sends)).write input).write (inputs sends).flatten := by
            rw [handleSends_resizes_write hs]
        _ = (s.handleSends (resizes sends)).write (input ++ (inputs sends).flatten) :=
            write_write _ _ _
    | resize cols rows =>
      have hstep := handleFrame_resize docker hs cols rows
      calc s.handleSends ((.resize cols rows, docker) :: sends)
          = (s.handleResize (resizeFrame cols rows)).handleSends sends :=
            congrArg (handleSends · sends) hstep
        _ = ((s.handleResize (resizeFrame cols rows)).handleSends (resizes sends)).write
              (inputs sends).flatten :=
            ih ((s.handleResize_keeps _).2.2.trans hs) h
        _ = (s.handleSends ((.resize cols rows, docker) :: resizes sends)).write
              (inputs sends).flatten :=
            congrArg (fun u : ExecWS ↦ (u.handleSends (resizes sends)).write (inputs sends).flatten)
              hstep.symm

/-- A change of a session that leaves what its connection has been written. -/
theorem written_onSession (m : Option Nat) {f : ExecSession → ExecSession}
    (hf : ∀ e, (f e).conn.map (·.written) = e.conn.map (·.written)) :
    (s.onSession m f).written n = s.written n := by
  cases m with
  | none => rfl
  | some m =>
    simp only [written, onSession, List.getElem?_modify]
    cases s.sessions[n]? with
    | none => rfl
    | some e =>
      simp only [Option.map_eq_map, Option.map_some, Option.bind_some]
      split
      · exact hf e
      · rfl

/-- A write to the connection in `hijack`. -/
theorem written_write (hw : s.written n = some w) : (s.write data).written n =
    some (w ++ if s.hijack = some n then data else []) := by
  unfold write
  cases hhijack : s.hijack with
  | none =>
    have hnone (f : ExecSession → ExecSession) : s.onSession none f = s := rfl
    rw [hnone, hw, if_neg nofun, List.append_nil]
  | some m =>
    simp only [written, onSession, List.getElem?_modify] at hw ⊢
    obtain ⟨c, hc, rfl⟩ := Option.map_eq_some_iff.mp hw
    obtain ⟨e, he, hconn⟩ := Option.bind_eq_some_iff.mp hc
    by_cases hm : m = n
    · simp [he, hm, ExecSession.onConn, hconn, ExecConn.write]
    · simp [he, hm, hconn]

/-- The handler writes nothing as it returns. -/
theorem written_stop : s.stop.written n = s.written n := by
  have hclose (u : ExecWS) : (u.onSession u.hijack (·.onConn (·.closeWrite))).written n =
      u.written n := written_onSession _ fun e ↦ by
    simp [ExecSession.onConn, Function.comp_def, ExecConn.closeWrite]
  exact (written_onSession s.cancel (f := ExecSession.cancel) fun _ ↦ rfl).trans (hclose s)

/-- A new session is another one. -/
theorem written_startSession (f : InitFrame) (docker : DockerExec) (hw : s.written n = some w) :
    (s.startSession f docker).written n = some w := by
  have hlt : n < s.sessions.length := by
    obtain ⟨c, hc, -⟩ := Option.map_eq_some_iff.mp hw
    obtain ⟨e, he, -⟩ := Option.bind_eq_some_iff.mp hc
    exact (List.getElem?_eq_some_iff.mp he).1
  have happend (e : ExecSession) (u : ExecWS) (hu : u.sessions = s.sessions ++ [e]) :
      u.written n = some w := by
    rw [written, hu, List.getElem?_append_left hlt]
    exact hw
  unfold startSession
  dsimp only
  split
  · exact happend _ _ rfl
  · exact happend _ _ rfl

/-- An `init` frame writes nothing to a connection that is there. -/
theorem written_handleInit (hw : s.written n = some w) :
    (s.handleInit data docker).written n = some w := by
  unfold handleInit
  split
  · exact hw
  · split
    · exact written_startSession _ _ hw
    · exact hw

/-- A text frame is written to a connection whole or not at all, and a control frame not at all. -/
theorem written_handleFrame (data : Bytes) (docker : DockerExec) (hw : s.written n = some w) :
    ∃ d, (s.handleFrame .text data docker).written n = some (w ++ d) ∧ d.length ≤ data.length ∧
      (¬ Plain data → d = []) := by
  have hnothing (u : ExecWS) (hu : u.written n = some w) :
      ∃ d, u.written n = some (w ++ d) ∧ d.length ≤ data.length ∧ (¬ Plain data → d = []) :=
    ⟨[], by rw [List.append_nil, hu], Nat.zero_le _, fun _ ↦ rfl⟩
  have hwritten (hplain : Plain data) : ∃ d, (s.write data).written n = some (w ++ d) ∧
      d.length ≤ data.length ∧ (¬ Plain data → d = []) := by
    refine ⟨_, written_write hw, ?_, fun hnot ↦ absurd hplain hnot⟩
    split
    · exact le_rfl
    · exact Nat.zero_le _
  unfold handleFrame
  split
  · exact hnothing s hw
  · split
    · exact hnothing _ (written_stop.trans hw)
    · next hlength =>
      dsimp only [handleText]
      split
      · next hdata => exact hwritten ⟨not_lt.mp hlength, by simp [hdata]⟩
      · next type hdata =>
        split
        · exact hnothing _ (written_handleInit hw)
        · split
          · refine hnothing _ ?_
            rw [written, (s.handleResize_keeps data).1]
            exact hw
          · split
            · exact hnothing _ (written_stop.trans hw)
            · exact hwritten ⟨not_lt.mp hlength, by simp_all⟩

/-- What is written is no longer than the inputs, and shorter if one of them is not plain. -/
theorem written_handleSends (sends : List (TerminalSend × DockerExec))
    (hw : s.written n = some w) :
    ∃ out, (s.handleSends sends).written n = some (w ++ out) ∧
      out.length ≤ (inputs sends).flatten.length ∧
      (out.length = (inputs sends).flatten.length → ∀ data ∈ inputs sends, Plain data) := by
  induction sends generalizing s w with
  | nil => exact ⟨[], by rw [List.append_nil]; exact hw, le_rfl, nofun⟩
  | cons p sends ih =>
    obtain ⟨send, docker⟩ := p
    obtain ⟨d, hd, hle, hplain⟩ := written_handleFrame send.data docker hw
    obtain ⟨out, hout, hle', hplain'⟩ := ih hd
    refine ⟨d ++ out, by rw [← List.append_assoc]; exact hout, ?_⟩
    cases send with
    | input input =>
      have hlength : (inputs ((.input input, docker) :: sends)).flatten.length =
          input.length + (inputs sends).flatten.length := List.length_append
      rw [hlength, List.length_append]
      have hle : d.length ≤ input.length := hle
      refine ⟨by omega, fun heq data hdata ↦ ?_⟩
      rcases List.mem_cons.mp hdata with rfl | hdata
      · by_contra hnot
        -- an input that is not plain is not empty, and nothing of it is written
        have hd : d = [] := hplain hnot
        have hdata : data ≠ [] := fun hnil ↦ hnot (hnil ▸ plain_nil)
        have hpos := List.length_pos_iff.mpr hdata
        rw [hd, List.length_nil] at heq
        omega
      · exact hplain' (by omega) data hdata
    | resize cols rows =>
      have hnot : ¬ Plain (resizeFrame cols rows) := fun h ↦
        h.2 "resize" (unmarshalType_resizeFrame cols rows) (by decide)
      have hd : d = [] := hplain hnot
      rw [hd, List.nil_append]
      exact ⟨hle', hplain'⟩

/-- The connection in `hijack` is attached. -/
def Attached (s : ExecWS) : Prop := ∀ n ∈ s.hijack, (s.written n).isSome = true

private theorem Attached.mono {s' : ExecWS} (h : s.Attached) (hhijack : s'.hijack = s.hijack)
    (hwritten : ∀ n, s'.written n = s.written n) : s'.Attached := by
  intro n hn
  rw [hwritten n]
  exact h n (hhijack ▸ hn)

private theorem Attached.write (h : s.Attached) (data : Bytes) : (s.write data).Attached := by
  intro n hn
  obtain ⟨w, hw⟩ := Option.isSome_iff_exists.mp (h n hn)
  rw [written_write hw, Option.isSome_some]

private theorem Attached.startSession (h : s.Attached) (f : InitFrame) (docker : DockerExec) :
    (s.startSession f docker).Attached := by
  intro n hn
  unfold ExecWS.startSession at hn ⊢
  cases hstart : startExec docker with
  | error message =>
    rw [hstart] at hn
    obtain ⟨w, hw⟩ := Option.isSome_iff_exists.mp (h n hn)
    have hkept := written_startSession f docker hw
    rw [ExecWS.startSession, hstart] at hkept
    exact Option.isSome_iff_exists.mpr ⟨w, hkept⟩
  | ok answer =>
    rw [hstart] at hn
    obtain rfl := Option.some.inj hn
    simp [written]

private theorem Attached.handleFrame (h : s.Attached) (typ : MessageType) (data : Bytes)
    (docker : DockerExec) : (s.handleFrame typ data docker).Attached := by
  have hstop : s.stop.Attached := h.mono rfl fun _ ↦ written_stop
  unfold ExecWS.handleFrame
  split
  · exact h
  · split
    · exact hstop
    · cases typ with
      | binary =>
        dsimp only
        split
        · exact h
        · exact h.write data
      | text =>
        dsimp only [handleText]
        split
        · exact h.write data
        · split
          · unfold handleInit
            split
            · exact h
            · split
              · exact h.startSession _ docker
              · exact h.mono rfl fun _ ↦ rfl
          · split
            · obtain ⟨hsessions, hhijack, -⟩ := s.handleResize_keeps data
              exact h.mono hhijack fun n ↦ by rw [written, hsessions, written]
            · split
              · exact hstop
              · exact h.write data

/-- A step keeps the connection in `hijack` attached. -/
theorem Attached.step {s' : ExecWS} {l : ExecStep} (h : s.Attached)
    (hs : execStep s l = some s') : s'.Attached := by
  have hendPump (n m : Nat) : (s.onSession n (·.onConn (·.endPump))).written m = s.written m :=
    written_onSession _ fun e ↦ by
      simp [ExecSession.onConn, Function.comp_def, ExecConn.endPump]
  cases l with
  | frame typ data docker =>
    obtain rfl := Option.some.inj hs
    exact h.handleFrame typ data docker
  | readError =>
    obtain rfl := Option.some.inj hs
    split
    · exact h
    · exact h.mono rfl fun _ ↦ written_stop
  | pump n data sends =>
    simp only [execStep] at hs
    split at hs
    · obtain rfl := Option.some.inj hs
      split
      · exact h.mono rfl fun _ ↦ rfl
      · exact h.mono rfl (hendPump n)
    · contradiction
  | pumpEnd n =>
    simp only [execStep] at hs
    split at hs
    · obtain rfl := Option.some.inj hs
      exact h.mono rfl (hendPump n)
    · contradiction

/-- The inputs are written to the connection of session `n` one after the other, and nothing else
happens than without them. -/
def Transparent (s : ExecWS) (n : Nat) (sends : List (TerminalSend × DockerExec)) : Prop :=
  (∃ w, s.written n = some w ∧
    (s.handleSends sends).written n = some (w ++ (inputs sends).flatten)) ∧
  s.handleSends sends = (s.handleSends (resizes sends)).write (inputs sends).flatten

/-- After a successful `init`, whatever has happened before: the terminal passes the inputs on if
and only if every one of them is plain. -/
theorem transparent_iff_plain (steps : List ExecStep) (hs : runSteps execStep .init steps = some s)
    (hhijack : s.hijack = some n) (hreturned : s.returned = false)
    (sends : List (TerminalSend × DockerExec)) :
    s.Transparent n sends ↔ ∀ data ∈ inputs sends, Plain data := by
  have hattached : s.Attached :=
    runSteps_invariant (fun _ _ _ h hs ↦ h.step hs)
      (fun _ hn ↦ absurd hn (Option.not_mem_none _)) hs
  obtain ⟨w, hw⟩ := Option.isSome_iff_exists.mp (hattached n hhijack)
  obtain ⟨out, hout, hle, hplain⟩ := written_handleSends sends hw
  constructor
  · rintro ⟨⟨w', hw', hwritten⟩, -⟩
    obtain rfl := Option.some.inj (hw.symm.trans hw')
    have heq := List.append_cancel_left (Option.some.inj (hout.symm.trans hwritten))
    exact hplain (congrArg List.length heq)
  · intro h
    have hsends := handleSends_plain hreturned h
    obtain ⟨hsessions, hkept⟩ := handleSends_resizes_keeps sends hreturned
    have hresizes : (s.handleSends (resizes sends)).written n = some w := by
      rw [written, hsessions]
      exact hw
    refine ⟨⟨w, hw, ?_⟩, hsends⟩
    rw [hsends, written_write hresizes, if_pos (hkept.trans hhijack)]

/-- A successful `init`. -/
def demoExec : ExecWS := init.handleFrame .text demoInit demoDocker

/-- Inputs that are JSON texts, and a resize frame. -/
def demoSends : List (TerminalSend × DockerExec) :=
  [.input (text "null"), .resize ⟨100, by decide⟩ ⟨40, by decide⟩,
    .input (text "\x7b\"type\":7\x7d")].map (·, demoDocker)

/-- The terminal passes them on. -/
theorem transparent_iff_plain_demo : demoExec.Transparent 0 demoSends := by
  have hplain : ∀ data ∈ inputs demoSends, Plain data := by decide +kernel
  exact (transparent_iff_plain [.frame .text demoInit demoDocker] rfl (by decide +kernel)
    (by decide +kernel) demoSends).mpr hplain

/-- Pasting a JSON object. -/
def pastedClose : List (TerminalSend × DockerExec) :=
  [(.input (text "\x7b\"type\":\"close\"\x7d"), demoDocker)]

/-- The pasted object is not written, and ends the session. -/
theorem not_transparent_close :
    ¬ demoExec.Transparent 0 pastedClose ∧ (demoExec.handleSends pastedClose).returned = true := by
  have hbefore : demoExec.written 0 = some [] := by decide +kernel
  have hafter : (demoExec.handleSends pastedClose).written 0 = some [] := by decide +kernel
  refine ⟨?_, by decide +kernel⟩
  rintro ⟨⟨w, hw, hw'⟩, -⟩
  obtain rfl := Option.some.inj (hbefore.symm.trans hw)
  rw [hafter] at hw'
  exact absurd hw' (by decide +kernel)

end ExecWS

end Dockstack.Ws
