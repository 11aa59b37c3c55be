import Mathlib.Logic.Function.Basic
import Dockstack.Base.Machine
import Dockstack.Web.SseStream

/-!
# The dialog of a stack action

`StackActionDialog` (`web/src/components/stacks/action-dialog.tsx`) reads the lines of an action
from a generator while it is open. Closing it stops the loop, but the loop ends only after the
generator has, which is not before its pending `next` is answered. A dialog that is opened again
before that has two loops, with one list of lines and one reference to a stop function.
-/

namespace Dockstack.Web

open Dockstack.Base

/-- `HEARTBEAT`; `sse.ts:1`. -/
def heartbeat : List Char := ['\u200b']

/-- The line that ends the display; `action-dialog.tsx:69`. -/
def doneLine : List Char := "Done.".toList

/-- Where a loop is: at the race between `iter.next()` and the stop, in `iter.return()` with a
`next` pending or with none, or through its `finally`; `action-dialog.tsx:55–71`. -/
inductive LoopPhase where
  | racing
  | draining
  | returning
  | through
  deriving DecidableEq

/-- A loop: what its generator yields in all, what of it is still to come, what the loop has taken,
whether its stop function was called, and whether the generator has thrown. -/
structure ActionLoop where
  values : List (List Char)
  left : List (List Char)
  taken : List (List Char)
  stopped : Bool
  threw : Bool
  phase : LoopPhase

/-- The loop of a generator at its start; `action-dialog.tsx:48–53`. -/
def ActionLoop.start (values : List (List Char)) : ActionLoop :=
  ⟨values, values, [], false, false, .racing⟩

/-- The loop is through. -/
def ActionLoop.isOver (r : ActionLoop) : Bool := r.phase == .through

/-- What the lines of a loop look like on their own. -/
def ActionLoop.shown (r : ActionLoop) : List (List Char) :=
  r.taken.filter (· ≠ heartbeat) ++ if r.isOver then [doneLine] else []

/-- The state of the component, its reference to a stop function (the number of the loop that it
stops), and the loops so far. -/
structure DialogState where
  isOpen : Bool
  lines : List (List Char)
  running : Bool
  stopRef : Option Nat
  count : Nat
  loop : Nat → ActionLoop

namespace DialogState

/-- The dialog is closed at first; `action-dialog.tsx:35–39`. -/
def init : DialogState := ⟨false, [], false, none, 0, fun _ ↦ .start []⟩

/-- The `n`-th loop is now `r`. -/
def withLoop (s : DialogState) (n : Nat) (r : ActionLoop) : DialogState :=
  { s with loop := Function.update s.loop n r }

/-- The dialog opens, and the effect starts a loop; `action-dialog.tsx:48–53` and `75`. -/
def opened (s : DialogState) (values : List (List Char)) : DialogState where
  isOpen := true
  lines := []
  running := true
  stopRef := some s.count
  count := s.count + 1
  loop := Function.update s.loop s.count (.start values)

/-- The dialog closes, and the effect calls the stop function; `action-dialog.tsx:76`. -/
def closed (s : DialogState) : DialogState :=
  match s.stopRef with
  | none => { s with isOpen := false }
  | some n => { s.withLoop n { s.loop n with stopped := true } with isOpen := false }

/-- The end of the `finally` of the `n`-th loop; `action-dialog.tsx:67–70`. -/
def finished (s : DialogState) (n : Nat) : DialogState :=
  { s.withLoop n { s.loop n with phase := .through } with
    lines := s.lines ++ [doneLine]
    running := false
    stopRef := none }

end DialogState

/-- What happens: the dialog opens on an action or closes; or a loop takes what its generator
yields next, finds it done, sees it throw, is stopped, has its pending `next` answered, or ends. -/
inductive DialogStep where
  | openDialog (values : List (List Char))
  | closeDialog
  | next (n : Nat)
  | throw (n : Nat)
  | stop (n : Nat)
  | settle (n : Nat)
  | finish (n : Nat)

/-- One step; `action-dialog.tsx:45–77`. -/
def dialogStep (s : DialogState) : DialogStep → Option DialogState
  | .openDialog values => if s.isOpen then none else some (s.opened values)
  | .closeDialog => if s.isOpen then some s.closed else none
  | .next n =>
    if n < s.count ∧ (s.loop n).phase = .racing then
      match (s.loop n).left with
      | [] => some (s.withLoop n { s.loop n with phase := .returning })
      | v :: left =>
        some { s.withLoop n { s.loop n with left := left, taken := (s.loop n).taken ++ [v] } with
          lines := if v = heartbeat then s.lines else s.lines ++ [v] }
    else none
  | .throw n =>
    if n < s.count ∧ ((s.loop n).phase = .racing ∨ (s.loop n).phase = .draining) then
      some (s.withLoop n { s.loop n with threw := true, phase := .returning })
    else none
  | .stop n =>
    if n < s.count ∧ (s.loop n).phase = .racing ∧ (s.loop n).stopped = true then
      some (s.withLoop n { s.loop n with phase := .draining })
    else none
  | .settle n =>
    if n < s.count ∧ (s.loop n).phase = .draining then
      some (s.withLoop n { s.loop n with left := (s.loop n).left.tail, phase := .returning })
    else none
  | .finish n =>
    if n < s.count ∧ (s.loop n).phase = .returning then some (s.finished n) else none

/-- The step opens the dialog. -/
def DialogStep.opens : DialogStep → Bool
  | .openDialog _ => true
  | _ => false

/-- No loop is left when the dialog opens. -/
def OpensAlone (s : DialogState) : DialogStep → Prop
  | .openDialog _ => ∀ n < s.count, (s.loop n).phase = .through
  | _ => True

instance (s : DialogState) : ∀ l, Decidable (OpensAlone s l)
  | .openDialog _ => inferInstanceAs (Decidable (∀ n < s.count, (s.loop n).phase = .through))
  | .closeDialog | .next _ | .throw _ | .stop _ | .settle _ | .finish _ =>
    inferInstanceAs (Decidable True)

/-- The component shows the last loop: its lines, whether it is running, and how it is stopped. -/
structure ShowsLast (s : DialogState) : Prop where
  empty : s.count = 0 → s.lines = [] ∧ s.running = false ∧ s.stopRef = none
  lines : ∀ n, s.count = n + 1 → s.lines = (s.loop n).shown
  running : ∀ n, s.count = n + 1 → s.running = !(s.loop n).isOver
  stopRef : ∀ n, s.count = n + 1 → s.stopRef = if (s.loop n).isOver then none else some n

/-- The component shows the last loop for as long as the dialog does not open again. -/
def KeepsShowing (s : DialogState) : Prop :=
  ∀ ls t, (∀ l ∈ ls, l.opens = false) → runSteps dialogStep s ls = some t → ShowsLast t

/-- A loop has taken the lines of its generator in order, and all of them unless it was stopped or
the generator threw. -/
structure ActionLoop.Faithful (r : ActionLoop) : Prop where
  inOrder : r.taken <+: r.values
  racing : r.phase = .racing → r.taken ++ r.left = r.values
  all : r.stopped = false → r.threw = false → r.phase ≠ .racing → r.taken = r.values

/-! ## One loop at a time -/

/-- The last loop is shown, is stopped once the dialog is closed, and the others are through. -/
structure Alone (s : DialogState) : Prop where
  shows : ShowsLast s
  older : ∀ n, n + 1 < s.count → (s.loop n).phase = .through
  stopped : s.isOpen = false → ∀ n, s.count = n + 1 →
    (s.loop n).phase = .through ∨ (s.loop n).stopped = true
  faithful : ∀ n < s.count, (s.loop n).Faithful

variable {s s' t : DialogState} {n : Nat}

private theorem faithful_start (values : List (List Char)) :
    (ActionLoop.start values).Faithful where
  inOrder := List.nil_prefix
  racing _ := rfl
  all _ _ hphase := absurd rfl hphase

private theorem isOver_eq_false {r : ActionLoop} (h : r.phase ≠ .through) : r.isOver = false :=
  beq_eq_false_iff_ne.mpr h

private theorem shown_of_live {r : ActionLoop} (h : r.phase ≠ .through) :
    r.shown = r.taken.filter (· ≠ heartbeat) := by
  rw [ActionLoop.shown, isOver_eq_false h, if_neg Bool.false_ne_true, List.append_nil]

namespace Alone

/-- At first there is no loop. -/
theorem init : Alone .init where
  shows := ⟨fun _ ↦ ⟨rfl, rfl, rfl⟩, nofun, nofun, nofun⟩
  older := nofun
  stopped := nofun
  faithful := nofun

private theorem of_last {s s' : DialogState} {r : ActionLoop} (hcount : s'.count = n + 1)
    (hloop : s'.loop = Function.update s.loop n r)
    (holder : ∀ m < n, (s.loop m).phase = .through ∧ (s.loop m).Faithful) (hr : r.Faithful)
    (hlines : s'.lines = r.shown) (hrunning : s'.running = !r.isOver)
    (hstopRef : s'.stopRef = if r.isOver then none else some n)
    (hstopped : s'.isOpen = false → r.phase = .through ∨ r.stopped = true) : Alone s' := by
  have hlast {m : Nat} (hm : s'.count = m + 1) : m = n := by omega
  have hself : s'.loop n = r := by rw [hloop, Function.update_self]
  have hother {m : Nat} (hm : m < n) : s'.loop m = s.loop m := by
    rw [hloop, Function.update_of_ne (Nat.ne_of_lt hm)]
  constructor
  · constructor
    · intro hzero
      omega
    · intro m hm
      rw [hlast hm, hself]
      exact hlines
    · intro m hm
      rw [hlast hm, hself]
      exact hrunning
    · intro m hm
      rw [hlast hm, hself]
      exact hstopRef
  · intro m hm
    have hlt : m < n := by omega
    rw [hother hlt]
    exact (holder m hlt).1
  · intro hclosed m hm
    rw [hlast hm, hself]
    exact hstopped hclosed
  · intro m hm
    by_cases hmn : m = n
    · rw [hmn, hself]
      exact hr
    · have hlt : m < n := by omega
      rw [hother hlt]
      exact (holder m hlt).2

private theorem count_eq (h : Alone s) (hn : n < s.count) (hlive : (s.loop n).phase ≠ .through) :
    s.count = n + 1 := by
  by_contra hne
  apply hlive
  apply h.older
  omega

private theorem before (h : Alone s) (hcount : s.count = n + 1) :
    ∀ m < n, (s.loop m).phase = .through ∧ (s.loop m).Faithful := by
  intro m hm
  exact ⟨h.older m (by omega), h.faithful m (by omega)⟩

private theorem lines_eq (h : Alone s) (hcount : s.count = n + 1)
    (hlive : (s.loop n).phase ≠ .through) :
    s.lines = (s.loop n).taken.filter (· ≠ heartbeat) :=
  (h.shows.lines n hcount).trans (shown_of_live hlive)

private theorem move {r : ActionLoop} {lines : List (List Char)} (h : Alone s)
    (hcount : s.count = n + 1) (hlive : (s.loop n).phase ≠ .through) (hr : r.Faithful)
    (hphase : r.phase ≠ .through) (hstopped : r.stopped = (s.loop n).stopped)
    (hlines : lines = r.taken.filter (· ≠ heartbeat)) :
    Alone { s.withLoop n r with lines := lines } := by
  have hrunning := h.shows.running n hcount
  have hstopRef := h.shows.stopRef n hcount
  rw [isOver_eq_false hlive] at hrunning hstopRef
  apply of_last (s := s) (n := n) (r := r)
  · exact hcount
  · rfl
  · exact h.before hcount
  · exact hr
  · rw [shown_of_live hphase]
    exact hlines
  · rw [isOver_eq_false hphase]
    exact hrunning
  · rw [isOver_eq_false hphase]
    exact hstopRef
  · intro hclosed
    right
    rw [hstopped]
    exact (h.stopped hclosed n hcount).resolve_left hlive

private theorem opened (h : Alone s) (hover : ∀ n < s.count, (s.loop n).phase = .through)
    (values : List (List Char)) : Alone (s.opened values) := by
  apply of_last (s := s) rfl rfl _ (faithful_start values) rfl rfl rfl
  · intro hclosed
    contradiction
  · intro m hm
    exact ⟨hover m hm, h.faithful m hm⟩

private theorem closed (h : Alone s) : Alone s.closed := by
  by_cases hlive : ∃ n, s.count = n + 1 ∧ (s.loop n).phase ≠ .through
  · obtain ⟨n, hcount, hlive⟩ := hlive
    have hfaithful := h.faithful n (by omega)
    have hstopRef := h.shows.stopRef n hcount
    rw [isOver_eq_false hlive, if_neg Bool.false_ne_true] at hstopRef
    rw [DialogState.closed, hstopRef]
    apply of_last (s := s) (n := n) (r := { s.loop n with stopped := true })
    · exact hcount
    · rfl
    · exact h.before hcount
    · exact ⟨hfaithful.inOrder, hfaithful.racing, nofun⟩
    · exact h.shows.lines n hcount
    · exact h.shows.running n hcount
    · exact h.shows.stopRef n hcount
    · exact fun _ ↦ .inr rfl
  · push Not at hlive
    have hstopRef : s.stopRef = none := by
      cases hcount : s.count with
      | zero => exact (h.shows.empty hcount).2.2
      | succ n =>
        have hover : (s.loop n).isOver = true := beq_iff_eq.mpr (hlive n hcount)
        rw [h.shows.stopRef n hcount, if_pos hover]
    have hclosed : s.closed = { s with isOpen := false } := by rw [DialogState.closed, hstopRef]
    rw [hclosed]
    exact ⟨⟨h.shows.empty, h.shows.lines, h.shows.running, h.shows.stopRef⟩, h.older,
      fun _ n hcount ↦ .inl (hlive n hcount), h.faithful⟩

private theorem finished (h : Alone s) (hcount : s.count = n + 1)
    (hphase : (s.loop n).phase = .returning) : Alone (s.finished n) := by
  have hlive : (s.loop n).phase ≠ .through := by
    rw [hphase]
    decide
  have hfaithful := h.faithful n (by omega)
  apply of_last (s := s) (n := n) (r := { s.loop n with phase := .through })
  · exact hcount
  · rfl
  · exact h.before hcount
  · refine ⟨hfaithful.inOrder, nofun, fun hstopped hthrew _ ↦ ?_⟩
    apply hfaithful.all hstopped hthrew
    rw [hphase]
    decide
  · show s.lines ++ [doneLine] = _
    rw [h.lines_eq hcount hlive]
    rfl
  · rfl
  · rfl
  · exact fun _ ↦ .inl rfl

/-- Every step keeps this, if the dialog opens only when no loop is left. -/
theorem step (h : Alone s) {l : DialogStep} (hopens : OpensAlone s l)
    (hstep : dialogStep s l = some s') : Alone s' := by
  cases l with
  | openDialog values =>
    obtain ⟨-, hs⟩ := Option.ite_none_left_eq_some.mp hstep
    obtain rfl := Option.some.inj hs
    exact h.opened hopens values
  | closeDialog =>
    obtain ⟨-, hs⟩ := Option.ite_none_right_eq_some.mp hstep
    obtain rfl := Option.some.inj hs
    exact h.closed
  | next n =>
    obtain ⟨⟨hn, hphase⟩, hs⟩ := Option.ite_none_right_eq_some.mp hstep
    have hlive : (s.loop n).phase ≠ .through := by
      rw [hphase]
      decide
    have hcount := h.count_eq hn hlive
    have hfaithful := h.faithful n hn
    have hracing := hfaithful.racing hphase
    cases hleft : (s.loop n).left with
    | nil =>
      rw [hleft] at hs hracing
      obtain rfl := Option.some.inj hs
      rw [List.append_nil] at hracing
      exact h.move hcount hlive ⟨hfaithful.inOrder, nofun, fun _ _ _ ↦ hracing⟩ nofun rfl
        (h.lines_eq hcount hlive)
    | cons v left =>
      rw [hleft] at hs hracing
      obtain rfl := Option.some.inj hs
      rw [List.append_cons] at hracing
      apply h.move (r := { s.loop n with left := left, taken := (s.loop n).taken ++ [v] }) hcount
        hlive _ _ rfl
      · rw [h.lines_eq hcount hlive, List.filter_append]
        by_cases hv : v = heartbeat
        · simp [hv]
        · simp [hv]
      · refine ⟨⟨left, hracing⟩, fun _ ↦ hracing, fun _ _ hne ↦ ?_⟩
        exact absurd hphase hne
      · exact hlive
  | throw n =>
    obtain ⟨⟨hn, hphase⟩, hs⟩ := Option.ite_none_right_eq_some.mp hstep
    have hlive : (s.loop n).phase ≠ .through := by
      rcases hphase with hphase | hphase
      · rw [hphase]
        decide
      · rw [hphase]
        decide
    have hcount := h.count_eq hn hlive
    obtain rfl := Option.some.inj hs
    exact h.move hcount hlive ⟨(h.faithful n hn).inOrder, nofun, nofun⟩ nofun rfl
      (h.lines_eq hcount hlive)
  | stop n =>
    obtain ⟨⟨hn, hphase, hstopped⟩, hs⟩ := Option.ite_none_right_eq_some.mp hstep
    have hlive : (s.loop n).phase ≠ .through := by
      rw [hphase]
      decide
    have hcount := h.count_eq hn hlive
    obtain rfl := Option.some.inj hs
    refine h.move hcount hlive ⟨(h.faithful n hn).inOrder, nofun, fun hnot ↦ ?_⟩ nofun rfl
      (h.lines_eq hcount hlive)
    exact absurd (hnot.symm.trans hstopped) Bool.false_ne_true
  | settle n =>
    obtain ⟨⟨hn, hphase⟩, hs⟩ := Option.ite_none_right_eq_some.mp hstep
    have hlive : (s.loop n).phase ≠ .through := by
      rw [hphase]
      decide
    have hcount := h.count_eq hn hlive
    have hfaithful := h.faithful n hn
    obtain rfl := Option.some.inj hs
    refine h.move hcount hlive ⟨hfaithful.inOrder, nofun, fun hstopped hthrew _ ↦ ?_⟩ nofun rfl
      (h.lines_eq hcount hlive)
    apply hfaithful.all hstopped hthrew
    rw [hphase]
    decide
  | finish n =>
    obtain ⟨⟨hn, hphase⟩, hs⟩ := Option.ite_none_right_eq_some.mp hstep
    have hlive : (s.loop n).phase ≠ .through := by
      rw [hphase]
      decide
    obtain rfl := Option.some.inj hs
    exact h.finished (h.count_eq hn hlive) hphase

/-- After a run in which the dialog opens only when no loop is left. -/
theorem of_run {ls : List DialogStep} (h : Alone s) (hopens : RunMeets dialogStep OpensAlone s ls)
    (hrun : runSteps dialogStep s ls = some t) : Alone t :=
  runSteps_invariant_of_meets (fun _ _ _ ha ho hs ↦ ha.step ho hs) h hopens hrun

end Alone

/-! ## A loop that is left -/

/-- A run that does not open the dialog breaks the display from here. -/
private def Breaks (s : DialogState) : Prop :=
  ∃ ls t, (∀ l ∈ ls, l.opens = false) ∧ runSteps dialogStep s ls = some t ∧ ¬ ShowsLast t

private theorem Breaks.cons {l : DialogStep} (hl : l.opens = false)
    (hstep : dialogStep s l = some s') (h : Breaks s') : Breaks s := by
  obtain ⟨ls, t, hopens, hrun, hnot⟩ := h
  refine ⟨l :: ls, t, ?_, runSteps_cons_eq_some.mpr ⟨s', hstep, hrun⟩, hnot⟩
  rw [List.forall_mem_cons]
  exact ⟨hl, hopens⟩

/-- The `n`-th loop is not the last one, which is the `m`-th and not through. -/
private structure Stale (s : DialogState) (n m : Nat) : Prop where
  count : s.count = m + 1
  before : n < m
  last : (s.loop m).phase ≠ .through

namespace Stale

variable {m : Nat}

private theorem move (h : Stale s n m) (r : ActionLoop) : Stale (s.withLoop n r) n m where
  count := h.count
  before := h.before
  last := by
    show (Function.update s.loop n r m).phase ≠ .through
    rw [Function.update_of_ne (Nat.ne_of_gt h.before)]
    exact h.last

private theorem breaks_of_returning (h : Stale s n m) (hphase : (s.loop n).phase = .returning) :
    Breaks s := by
  have hn : n < s.count := by
    rw [h.count]
    exact Nat.lt_succ_of_lt h.before
  apply Breaks.cons (l := .finish n) rfl (if_pos ⟨hn, hphase⟩)
  refine ⟨[], s.finished n, nofun, rfl, fun hshows ↦ ?_⟩
  have hrunning := hshows.running m h.count
  have hlast : (s.finished n).loop m = s.loop m :=
    Function.update_of_ne (Nat.ne_of_gt h.before) _ _
  rw [hlast, isOver_eq_false h.last] at hrunning
  contradiction

private theorem breaks_of_draining (h : Stale s n m) (hphase : (s.loop n).phase = .draining) :
    Breaks s := by
  have hn : n < s.count := by
    rw [h.count]
    exact Nat.lt_succ_of_lt h.before
  apply Breaks.cons (l := .settle n) rfl (if_pos ⟨hn, hphase⟩)
  apply (h.move _).breaks_of_returning
  show (Function.update s.loop n _ n).phase = _
  rw [Function.update_self]

private theorem breaks (h : Stale s n m) (hlive : (s.loop n).phase ≠ .through)
    (hstopped : (s.loop n).stopped = true) : Breaks s := by
  have hn : n < s.count := by
    rw [h.count]
    exact Nat.lt_succ_of_lt h.before
  cases hphase : (s.loop n).phase with
  | racing =>
    apply Breaks.cons (l := .stop n) rfl (if_pos ⟨hn, hphase, hstopped⟩)
    apply (h.move _).breaks_of_draining
    show (Function.update s.loop n _ n).phase = _
    rw [Function.update_self]
  | draining => exact h.breaks_of_draining hphase
  | returning => exact h.breaks_of_returning hphase
  | through => exact absurd hphase hlive

end Stale

/-- In every run in which the dialog opens only when the loops before are through, the component
shows the last loop, and every loop takes the lines of its action in order. Where such a run has left the
dialog closed, and it opens again, the component shows the new loop for as long as it is the last
one if and only if the loops before it were through. -/
theorem actionDialog_showsLast {ls : List DialogStep}
    (hopens : RunMeets dialogStep OpensAlone .init ls)
    (hrun : runSteps dialogStep .init ls = some s) :
    ShowsLast s ∧ (∀ n < s.count, (s.loop n).Faithful) ∧
      (s.isOpen = false → ∀ values,
        (KeepsShowing (s.opened values) ↔ ∀ n < s.count, (s.loop n).phase = .through)) := by
  have h := Alone.init.of_run hopens hrun
  refine ⟨h.shows, h.faithful, fun hclosed values ↦ ⟨?_, ?_⟩⟩
  · intro hkeeps n hn
    by_contra hlive
    have hstopped := (h.stopped hclosed n (h.count_eq hn hlive)).resolve_left hlive
    have hloop : (s.opened values).loop n = s.loop n :=
      Function.update_of_ne (Nat.ne_of_lt hn) _ _
    have hstale : Stale (s.opened values) n s.count := by
      refine ⟨rfl, hn, ?_⟩
      show (Function.update s.loop s.count _ s.count).phase ≠ _
      rw [Function.update_self]
      exact nofun
    rw [← hloop] at hlive hstopped
    obtain ⟨ls', t, hls', hrun', hnot⟩ := hstale.breaks hlive hstopped
    exact hnot (hkeeps ls' t hls' hrun')
  · intro hover ls' t hls' hrun'
    have hmeets : RunMeets dialogStep OpensAlone (s.opened values) ls' := by
      apply RunMeets.of_forall
      intro l hl u
      cases l with
      | openDialog _ =>
        have hnot := hls' _ hl
        contradiction
      | _ => trivial
    exact ((h.opened hover values).of_run hmeets hrun').shows

/-- A dialog that is closed in the middle of an action: its loop waits for the generator. -/
def demoDialog : List DialogStep :=
  [.openDialog ["$ docker compose up".toList, heartbeat, "Started".toList], .next 0, .next 0,
    .closeDialog, .stop 0]

/-- It shows the line that it took, and would not show another action. -/
theorem actionDialog_showsLast_demo :
    ∃ s, runSteps dialogStep .init demoDialog = some s ∧
      s.lines = ["$ docker compose up".toList] ∧ ShowsLast s ∧
      ∀ values, ¬ KeepsShowing (s.opened values) := by
  refine ⟨_, rfl, by decide +kernel, ?_⟩
  have h := @actionDialog_showsLast _ demoDialog (by decide +kernel) rfl
  refine ⟨h.1, fun values hkeeps ↦ ?_⟩
  have hover := (h.2.2 (by decide +kernel) values).mp hkeeps 0 (by decide +kernel)
  revert hover
  decide +kernel

end Dockstack.Web
