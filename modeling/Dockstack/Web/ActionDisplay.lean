import Dockstack.Base.Utf8Lines
import Dockstack.Server.StackActions
import Dockstack.Web.ActionDialog

/-!
# What a stack action shows

From the commands of an action to the dialog: `handleStackActionStream` writes the lines as events,
the network cuts them into chunks and may lose the end, `sseStream` reads them back, and the dialog
shows them.
-/

namespace Dockstack.Server

open Dockstack.Base

/-- The error of a streamed command. -/
def StreamOutcome.error : StreamOutcome → Option String
  | .notStarted err _ => some err
  | .started _ exit _ => exit

/-- Everything that is written goes out. -/
def StreamOutcome.allTaken : StreamOutcome → Bool
  | .notStarted _ taken => taken
  | .started lines _ taken => lines.all (·.2) && taken

end Dockstack.Server

namespace Dockstack.Web

open Dockstack.Base Dockstack.Docker Dockstack.Server

/-- The text that the client reads of a line. -/
def lineText (line : Bytes) : List Char := Utf8Decoder.text (escapeNewlines line)

/-- The line of an error; `stacks.go:401` and `stacks.go:419`. -/
def errorLine (what err : String) : Bytes := goBytes ("Error: " ++ what ++ ": " ++ err)

/-- The lines of the commands of an action one after the other, and the error of the first that
fails. -/
def printedLines : (Nat → StreamOutcome) → List (List String) → List Bytes
  | _, [] => []
  | outcomes, _ :: cmds =>
    match outcomes 0 with
    | .notStarted err _ => [errorLine "failed to start compose command" err]
    | .started lines (some err) _ =>
      lines.map Prod.fst ++ [errorLine "compose command failed" err]
    | .started lines none _ =>
      lines.map Prod.fst ++ printedLines (fun i ↦ outcomes (i + 1)) cmds

/-! ## The lines that are written -/

private theorem newline_notMem_escapeNewlines (line : Bytes) : newline ∉ escapeNewlines line := by
  intro h
  obtain ⟨b, -, hb⟩ := List.mem_flatMap.mp h
  split at hb
  · revert hb
    decide
  · next hne => exact hne (List.mem_singleton.mp hb).symm

private theorem writeLines_eq (lines : List (Bytes × Bool)) :
    ∃ out, out <+: lines.map Prod.fst ∧ (writeLines lines).1 = out.map lineEvent ∧
      ((writeLines lines).2 = true → out = lines.map Prod.fst) ∧
      (lines.all (·.2) = true → (writeLines lines).2 = true) := by
  induction lines with
  | nil => exact ⟨[], List.prefix_refl [], rfl, fun _ ↦ rfl, fun _ ↦ rfl⟩
  | cons line lines ih =>
    obtain ⟨bytes, taken⟩ := line
    obtain ⟨out, hout, hevents, hall, htaken⟩ := ih
    cases taken with
    | false => exact ⟨[], List.nil_prefix, rfl, nofun, nofun⟩
    | true =>
      refine ⟨bytes :: out, List.cons_prefix_cons.mpr ⟨rfl, hout⟩, ?_, ?_, ?_⟩
      · exact congrArg (lineEvent bytes :: ·) hevents
      · intro hwritten
        exact congrArg (bytes :: ·) (hall hwritten)
      · intro hlines
        exact htaken hlines

private theorem writeError_eq {what err : String} (hwhat : '\n' ∉ what.toList)
    (herr : '\n' ∉ err.toList) (taken : Bool) :
    writeError what err taken = (if taken then [errorLine what err] else []).map lineEvent := by
  cases taken with
  | false => rfl
  | true =>
    have hline : newline ∉ errorLine what err := by
      apply newline_notMem_utf8Encode
      simp only [String.toList_append, List.mem_append, not_or]
      exact ⟨⟨⟨by decide +kernel, hwhat⟩, by decide +kernel⟩, herr⟩
    show [goBytes _] = [lineEvent _]
    rw [lineEvent, escapeNewlines_of_notMem hline, errorLine, goBytes, goBytes,
      ← utf8Encode_append, ← utf8Encode_append]
    simp only [String.toList_append, List.append_assoc]
    rfl

/-- What is written for an action: the events of a beginning of the lines, and of all of them if
every write goes out. -/
theorem streamCommands_body {outcomes : Nat → StreamOutcome} (cmds : List (List String))
    (herrors : ∀ i err, (outcomes i).error = some err → '\n' ∉ err.toList)
    (headersSet : Bool) :
    ∃ out, out <+: printedLines outcomes cmds ∧
      (streamCommands headersSet outcomes cmds).1.body = out.map lineEvent ∧
      ((streamCommands headersSet outcomes cmds).1.refused = none →
        (∀ i, (outcomes i).allTaken = true) →
          out = printedLines outcomes cmds) := by
  induction cmds generalizing outcomes headersSet with
  | nil => exact ⟨[], List.prefix_refl [], rfl, fun _ _ ↦ rfl⟩
  | cons args cmds ih =>
    have herr := herrors 0
    unfold streamCommands printedLines
    cases h : outcomes 0 with
    | notStarted err taken =>
      rw [h] at herr
      cases headersSet with
      | false => exact ⟨[], List.nil_prefix, rfl, nofun⟩
      | true =>
        refine ⟨if taken then [errorLine "failed to start compose command" err] else [], ?_, ?_, ?_⟩
        · split
          · exact List.prefix_refl _
          · exact List.nil_prefix
        · exact writeError_eq (by decide +kernel) (herr err rfl) taken
        · intro _ htaken
          have htaken := htaken 0
          rw [h] at htaken
          exact if_pos htaken
    | started lines exit taken =>
      rw [h] at herr
      obtain ⟨out, hout, hevents, hall, hwritten⟩ := writeLines_eq lines
      have htaken (htaken : ∀ i, (outcomes i).allTaken = true) :
          (writeLines lines).2 = true ∧ taken = true := by
        have h0 := htaken 0
        rw [h] at h0
        exact ⟨hwritten (Bool.and_eq_true_iff.mp h0).1, (Bool.and_eq_true_iff.mp h0).2⟩
      dsimp only
      by_cases hw : (writeLines lines).2 = true
      · have hnot : ¬ (writeLines lines).2 = false := by
          rw [hw]
          decide
        rw [if_neg hnot]
        rw [hall hw] at hevents
        cases exit with
        | some err =>
          refine ⟨lines.map Prod.fst ++
            if taken then [errorLine "compose command failed" err] else [], ?_, ?_, ?_⟩
          · rw [List.prefix_append_right_inj]
            split
            · exact List.prefix_refl _
            · exact List.nil_prefix
          · rw [List.map_append, ← hevents, ← writeError_eq (by decide +kernel) (herr err rfl)]
          · intro _ ht
            rw [if_pos (htaken ht).2]
        | none =>
          obtain ⟨rest, hrest, hbody, hfull⟩ :=
            @ih (fun i ↦ outcomes (i + 1)) (fun i ↦ herrors (i + 1)) true
          refine ⟨lines.map Prod.fst ++ rest, ?_, ?_, ?_⟩
          · rw [List.prefix_append_right_inj]
            exact hrest
          · rw [List.map_append, ← hevents, ← hbody]
          · intro hrefused ht
            rw [hfull hrefused fun i ↦ ht (i + 1)]
      · rw [if_pos (Bool.eq_false_of_not_eq_true hw)]
        refine ⟨out, ?_, hevents, fun _ ht ↦ absurd (htaken ht).1 hw⟩
        cases exit with
        | some err => exact hout.trans (List.prefix_append _ _)
        | none => exact hout.trans (List.prefix_append _ _)

/-! ## The lines that are read -/

private theorem run_lineEvent (line rest : Bytes) :
    Utf8Decoder.init.run (lineEvent line ++ rest) =
      ((Utf8Decoder.init.run rest).1,
        "data: ".toList ++ lineText line ++ ['\n', '\n'] ++ (Utf8Decoder.init.run rest).2) := by
  have hevent : lineEvent line ++ rest = utf8Encode "data: ".toList ++
      (escapeNewlines line ++ newline :: ([] ++ newline :: rest)) := by
    rw [lineEvent, List.append_assoc, List.append_assoc]
    rfl
  rw [hevent, Utf8Decoder.run_append, Utf8Decoder.run_utf8Encode, Utf8Decoder.run_line,
    Utf8Decoder.run_line, lineText]
  simp only [List.append_assoc]
  rfl

private theorem run_lineEvents (lines : List Bytes) :
    Utf8Decoder.init.run (lines.flatMap lineEvent) =
      (Utf8Decoder.init,
        (lines.map lineText).flatMap fun line ↦ "data: ".toList ++ line ++ ['\n', '\n']) := by
  induction lines with
  | nil => rfl
  | cons line lines ih =>
    rw [List.flatMap_cons, run_lineEvent, ih]
    rfl

/-- However the events of some lines are cut into chunks, the client reads the text of the lines,
whatever their bytes are. -/
theorem readAll_lineEvents {lines body : List Bytes} (h : body.flatten = lines.flatMap lineEvent) :
    (SseReader.init.readAll body).2 = lines.map lineText := by
  have hlines : ∀ line ∈ lines.map lineText, '\n' ∉ line := by
    rw [List.forall_mem_map]
    intro line _
    exact Utf8Decoder.newline_notMem_text (newline_notMem_escapeNewlines line)
  have hdecode : TextDecoder.init.decode (lines.flatMap lineEvent) =
      (⟨Utf8Decoder.init, !lines.isEmpty⟩,
        (lines.map lineText).flatMap fun line ↦ "data: ".toList ++ line ++ ['\n', '\n']) := by
    rw [TextDecoder.decode, TextDecoder.init, run_lineEvents]
    cases lines with
    | nil => rfl
    | cons line lines => rfl
  rw [SseReader.readAll_eq_read SseReader.init_read_nil, h, SseReader.read_of_decode hdecode,
    SseReader.init, List.nil_append, takeEvents_events hlines]

/-- Of the beginning of a body the client reads the beginning of what it reads of the body. -/
theorem readAll_prefix {body whole : List Bytes} (h : body.flatten <+: whole.flatten) :
    (SseReader.init.readAll body).2 <+: (SseReader.init.readAll whole).2 := by
  obtain ⟨rest, hrest⟩ := h
  rw [SseReader.readAll_eq_read SseReader.init_read_nil,
    SseReader.readAll_eq_read SseReader.init_read_nil, ← hrest, SseReader.read_append]
  exact List.prefix_append _ _

/-! ## Both ends -/

/-- What a dialog shows of an action once it is through. -/
def shownLines (outcomes : Nat → StreamOutcome) (cmds : List (List String)) : List (List Char) :=
  ((printedLines outcomes cmds).map lineText).filter (· ≠ heartbeat)

private theorem body_of_accepted {name : String} {flusher : Bool} {action : StackAction}
    {outcomes : Nat → StreamOutcome}
    (h : (handleStackActionStream name flusher action outcomes).1.refused = none) :
    (handleStackActionStream name flusher action outcomes).1 =
      (streamCommands false outcomes action.cmds).1 := by
  unfold handleStackActionStream at h ⊢
  split at h
  · contradiction
  · next hname =>
    rw [if_neg hname]
    split at h
    · contradiction
    · next hflusher => rw [if_neg hflusher]

/-- From the commands to the dialog. If the request is not refused and no error has a line feed in
its text, then in every run in which the dialog opens only when no loop is left, and whatever part
of the answer arrives in whatever chunks, the dialog shows a beginning of what the commands of the
last action print, without the heartbeats, and then that the action is done if its loop is through.
It shows everything if the loop was not stopped, the generator did not throw, every write went out
and the whole answer arrived. -/
theorem stackAction_displayed {name : String} {flusher : Bool} {action : StackAction}
    {outcomes : Nat → StreamOutcome} {res : SseResponse} {reader : SseReader}
    {ls : List DialogStep} {s : DialogState} {n : Nat}
    (herrors : ∀ i err, (outcomes i).error = some err → '\n' ∉ err.toList)
    (hanswer : (handleStackActionStream name flusher action outcomes).1.refused = none)
    (hbody : res.body.flatten <+:
      (handleStackActionStream name flusher action outcomes).1.body.flatten)
    (hopens : RunMeets dialogStep OpensAlone .init ls)
    (hrun : runSteps dialogStep .init ls = some s) (hlast : s.count = n + 1)
    (hvalues : sseStream res = .ok ((s.loop n).values, reader)) :
    ∃ part, part <+: shownLines outcomes action.cmds ∧
      s.lines = part ++ (if (s.loop n).isOver then [doneLine] else []) ∧
      ((s.loop n).isOver = true → (s.loop n).stopped = false → (s.loop n).threw = false →
        (∀ i, (outcomes i).allTaken = true) →
        res.body.flatten =
          (handleStackActionStream name flusher action outcomes).1.body.flatten →
        part = shownLines outcomes action.cmds) := by
  have h := Alone.init.of_run hopens hrun
  have hfaithful := h.faithful n (by omega)
  obtain ⟨out, hout, hwritten, hall⟩ := streamCommands_body action.cmds herrors false
  have haccepted := body_of_accepted hanswer
  rw [haccepted] at hanswer hbody ⊢
  rw [hwritten] at hbody ⊢
  have hwhole : (SseReader.init.readAll (out.map lineEvent)).2 = out.map lineText :=
    readAll_lineEvents rfl
  have hread : (s.loop n).values = (SseReader.init.readAll res.body).2 := by
    rw [sseStream] at hvalues
    split at hvalues
    · exact (congrArg Prod.fst (Except.ok.inj hvalues)).symm
    · contradiction
  have hfirst : (s.loop n).values <+: out.map lineText := by
    rw [hread, ← hwhole]
    exact readAll_prefix hbody
  refine ⟨(s.loop n).taken.filter (· ≠ heartbeat), ?_, h.shows.lines n hlast, ?_⟩
  · exact ((hfaithful.inOrder.trans hfirst).trans (hout.map lineText)).filter _
  · intro hover hstopped hthrew htaken hequal
    have hphase : (s.loop n).phase ≠ .racing := by
      rw [beq_iff_eq.mp hover]
      decide
    rw [hfaithful.all hstopped hthrew hphase, hread, shownLines, ← hall hanswer htaken,
      readAll_lineEvents (hequal.trans List.flatMap_def.symm)]

/-- A command that prints a line and fails. -/
def demoOutcome : StreamOutcome :=
  .started [(goBytes "$ docker compose up", true), (utf8Encode heartbeat, true)]
    (some "exit status 1") true

/-- The lines of the command. -/
def demoPrinted : List Bytes := printedLines (fun _ ↦ demoOutcome) [upArgs]

/-- Its answer in two chunks. -/
def demoBody : List Bytes :=
  [(demoPrinted.flatMap lineEvent).take 9, (demoPrinted.flatMap lineEvent).drop 9]

/-- The dialog opens on the action and stays open. -/
def demoDisplay : List DialogStep :=
  [.openDialog (demoPrinted.map lineText), .next 0, .next 0, .next 0, .next 0, .finish 0]

/-- The dialog shows the command, its error and the end. -/
theorem stackAction_displayed_demo :
    ∃ s, runSteps dialogStep .init demoDisplay = some s ∧
      s.lines = shownLines (fun _ ↦ demoOutcome) [upArgs] ++ [doneLine] := by
  have hbody : demoBody.flatten = demoPrinted.flatMap lineEvent := by decide +kernel
  obtain ⟨part, -, hlines, hall⟩ := @stackAction_displayed "web" true ⟨"up", [upArgs]⟩
    (fun _ ↦ demoOutcome) ⟨200, "OK", demoBody⟩ _ demoDisplay _ 0
    (fun _ err herr ↦ by
      obtain rfl := Option.some.inj herr
      decide +kernel)
    (by decide +kernel) (by decide +kernel) (by decide +kernel) rfl rfl
    (congrArg (fun values ↦ Except.ok (values, _)) (readAll_lineEvents hbody))
  refine ⟨_, rfl, ?_⟩
  have hpart := hall (by decide +kernel) rfl rfl (fun _ ↦ by decide +kernel) (by decide +kernel)
  rw [hpart] at hlines
  exact hlines

end Dockstack.Web
