import Dockstack.Ws.Exec

/-!
# Exec sessions and their ends

When the handler returns it closes the connection in `hijack` and cancels the context in `cancel`.
Each `init` frame for an authorized shell overwrites these variables, so one that comes when a
connection is attached leaves that connection and its context to themselves.
-/

namespace Dockstack.Ws

open Dockstack.Base Dockstack.Base.Json

/-- What the handler owes a session: whether its context has been cancelled, and of its connection
whether it has `CloseWrite` and whether its write side has been closed. -/
def ExecSession.ends (e : ExecSession) : Bool × Option (Bool × Bool) :=
  (e.cancelled, e.conn.map fun c ↦ (c.closeWriter, c.writeClosed))

/-- The ends of the session at a position. -/
def ExecWS.ends (s : ExecWS) (n : Nat) : Option (Bool × Option (Bool × Bool)) :=
  s.sessions[n]?.map (·.ends)

/-- Every context has been cancelled, and every connection's write side closed. -/
def Released (s : ExecWS) : Prop :=
  ∀ e ∈ s.sessions, e.cancelled = true ∧ ∀ c ∈ e.conn, c.writeClosed = true

/-- One connection at most pumps output to the client. -/
def OnePump (s : ExecWS) : Prop := ∀ n m, s.pumping n = true → s.pumping m = true → n = m

/-- The step is an `init` frame for an authorized shell, and what Docker answers. -/
def ExecStep.starts (s : ExecWS) : ExecStep → Option (InitFrame × DockerExec)
  | .frame .text data docker =>
    if s.returned = false ∧ data.length ≤ readLimit ∧ unmarshalType data = some "init" then
      ((unmarshalInit data).filter (·.shell ∈ authorizedShells)).map (·, docker)
    else none
  | _ => none

/-- A session starts only when no connection is attached, and its connection has `CloseWrite`. -/
def OneSession (s : ExecWS) (l : ExecStep) : Prop :=
  ∀ p ∈ l.starts s, s.hijack = none ∧ ∀ answer ∈ (startExec p.2).toOption, answer.2 = true

instance (s : ExecWS) (l : ExecStep) : Decidable (OneSession s l) :=
  inferInstanceAs (Decidable (∀ p ∈ l.starts s, _))

/-- The invariant of a handler that has one session at most: the others have failed. -/
structure OneExec (s : ExecWS) : Prop where
  failed : ∀ n x, s.ends n = some x → s.hijack ≠ some n → x = (true, none)
  live : s.returned = false → ∀ n ∈ s.hijack, s.cancel = some n ∧
    s.ends n = some (false, some (true, false))
  released : s.returned = true → ∀ n ∈ s.hijack, s.ends n = some (true, some (true, true))

/-- A session that the handler will not end: its context is not the one in `cancel`, or its
connection has no `CloseWrite`. -/
def Orphaned (s : ExecWS) : Prop :=
  ∃ n x, s.ends n = some x ∧ ((x.1 = false ∧ s.cancel ≠ some n) ∨ x.2 = some (false, false))

variable {s s' t : ExecWS} {l : ExecStep} {n : Nat}

private theorem getElem?_onSession (s : ExecWS) (m : Option Nat) (f : ExecSession → ExecSession)
    (n : Nat) : (s.onSession m f).sessions[n]? =
      s.sessions[n]?.map (if m = some n then f else id) := by
  cases m with
  | none => simp [ExecWS.onSession]
  | some m =>
    simp only [ExecWS.onSession, List.getElem?_modify, Option.some.injEq]
    split <;> simp

private theorem ends_onSession (m : Option Nat) {f : ExecSession → ExecSession}
    (hf : ∀ e, (f e).ends = e.ends) (n : Nat) : (s.onSession m f).ends n = s.ends n := by
  rw [ExecWS.ends, getElem?_onSession, Option.map_map]
  refine Option.map_congr fun e _ ↦ ?_
  rw [Function.comp_apply]
  split
  · exact hf e
  · rfl

private theorem ends_onConn {f : ExecConn → ExecConn}
    (hf : ∀ c, (f c).closeWriter = c.closeWriter ∧ (f c).writeClosed = c.writeClosed)
    (e : ExecSession) : (e.onConn f).ends = e.ends := by
  simp [ExecSession.ends, ExecSession.onConn, Function.comp_def, hf]

private theorem ends_stop (s : ExecWS) (n : Nat) : s.stop.ends n = (s.ends n).map fun x ↦
    (x.1 || decide (s.cancel = some n),
      x.2.map fun c ↦ (c.1, c.2 || (decide (s.hijack = some n) && c.1))) := by
  have hsessions : s.stop.sessions[n]? = (s.sessions[n]?.map
      (if s.hijack = some n then (·.onConn (·.closeWrite)) else id)).map
        (if s.cancel = some n then (·.cancel) else id) := by
    rw [← getElem?_onSession, ← getElem?_onSession]
    rfl
  rw [ExecWS.ends, hsessions, ExecWS.ends, Option.map_map, Option.map_map, Option.map_map]
  refine Option.map_congr fun e _ ↦ ?_
  by_cases hc : s.cancel = some n <;> by_cases hh : s.hijack = some n <;>
    simp [hc, hh, ExecSession.ends, ExecSession.cancel, ExecSession.onConn, ExecConn.closeWrite,
      Function.comp_def]

private theorem startSession_spec (s : ExecWS) (f : InitFrame) (docker : DockerExec) :
    (s.startSession f docker).cancel = some s.sessions.length ∧
    (s.startSession f docker).returned = s.returned ∧
    (∀ n < s.sessions.length, (s.startSession f docker).ends n = s.ends n) ∧
    (∀ n x, (s.startSession f docker).ends n = some x → n ≤ s.sessions.length) ∧
    match startExec docker with
    | .error _ => (s.startSession f docker).hijack = s.hijack ∧
        (s.startSession f docker).ends s.sessions.length = some (true, none)
    | .ok answer => (s.startSession f docker).hijack = some s.sessions.length ∧
        (s.startSession f docker).ends s.sessions.length =
          some (false, some (answer.2, false)) := by
  have hends (u : ExecWS) (e : ExecSession) (hu : u.sessions = s.sessions ++ [e]) :
      (∀ n < s.sessions.length, u.ends n = s.ends n) ∧
      (∀ n x, u.ends n = some x → n ≤ s.sessions.length) ∧
      u.ends s.sessions.length = some e.ends := by
    refine ⟨fun n hn ↦ ?_, fun n x hx ↦ ?_, ?_⟩
    · rw [ExecWS.ends, hu, List.getElem?_append_left hn, ExecWS.ends]
    · obtain ⟨e, he, -⟩ := Option.map_eq_some_iff.mp hx
      have hlt := (List.getElem?_eq_some_iff.mp he).1
      rw [hu, List.length_append, List.length_singleton] at hlt
      omega
    · simp [ExecWS.ends, hu]
  unfold ExecWS.startSession
  dsimp only
  cases hstart : startExec docker with
  | error message =>
    exact ⟨rfl, rfl, (hends _ _ rfl).1, (hends _ _ rfl).2.1, rfl,
      (hends _ ⟨_, _, true, none⟩ rfl).2.2⟩
  | ok answer =>
    exact ⟨rfl, rfl, (hends _ _ rfl).1, (hends _ _ rfl).2.1, rfl,
      (hends _ ⟨_, _, false, some ⟨answer.1, answer.2, [], false, true⟩⟩ rfl).2.2⟩

/-- A step that starts no session and after which the handler still runs. -/
def SameEnds (s s' : ExecWS) : Prop :=
  s'.hijack = s.hijack ∧ s'.cancel = s.cancel ∧ s'.returned = s.returned ∧
    ∀ n, s'.ends n = s.ends n

private theorem sameEnds_write (s : ExecWS) (data : Bytes) : SameEnds s (s.write data) :=
  ⟨rfl, rfl, rfl, ends_onSession _ (ends_onConn fun _ ↦ ⟨rfl, rfl⟩)⟩

private theorem sameEnds_endPump (s : ExecWS) (n : Nat) :
    SameEnds s (s.onSession n (·.onConn (·.endPump))) :=
  ⟨rfl, rfl, rfl, ends_onSession _ (ends_onConn fun _ ↦ ⟨rfl, rfl⟩)⟩

private theorem sameEnds_handleResize (s : ExecWS) (data : Bytes) :
    SameEnds s (s.handleResize data) := by
  unfold ExecWS.handleResize
  split
  · split
    · exact ⟨rfl, rfl, rfl, fun _ ↦ rfl⟩
    · split <;> exact ⟨rfl, rfl, rfl, fun _ ↦ rfl⟩
  · exact ⟨rfl, rfl, rfl, fun _ ↦ rfl⟩

/-- What a step does: it starts a session, or the handler returns, or neither the variables nor
the ends of the sessions change. -/
inductive ExecEffect (s : ExecWS) : ExecStep → ExecWS → Prop where
  | started {l : ExecStep} {f : InitFrame} {docker : DockerExec}
      (hstarts : l.starts s = some (f, docker)) (hrunning : s.returned = false) :
      ExecEffect s l (s.startSession f docker)
  | stopped {l : ExecStep} (hstarts : l.starts s = none) (hrunning : s.returned = false) :
      ExecEffect s l s.stop
  | same {l : ExecStep} {s' : ExecWS} (hstarts : l.starts s = none) (hsame : SameEnds s s') :
      ExecEffect s l s'

private theorem sameEnds_refl (s : ExecWS) : SameEnds s s := ⟨rfl, rfl, rfl, fun _ ↦ rfl⟩

private theorem text_effect {data : Bytes} {docker : DockerExec} (hrunning : s.returned = false)
    (hlength : data.length ≤ readLimit) :
    ExecEffect s (.frame .text data docker) (s.handleText data docker) := by
  have hnone (htype : unmarshalType data ≠ some "init") :
      (ExecStep.frame .text data docker).starts s = none := if_neg fun h ↦ htype h.2.2
  unfold ExecWS.handleText
  split
  · next hdata => exact .same (hnone (by simp [hdata])) (sameEnds_write s data)
  · next type hdata =>
    split
    · next htype =>
      rw [htype] at hdata
      have hstarts : (ExecStep.frame .text data docker).starts s =
          ((unmarshalInit data).filter (·.shell ∈ authorizedShells)).map (·, docker) :=
        if_pos ⟨hrunning, hlength, hdata⟩
      unfold ExecWS.handleInit
      split
      · next hinit => exact .same (by simp [hstarts, hinit]) (sameEnds_refl s)
      · next f hinit =>
        split
        · next hshell => exact .started (by simp [hstarts, hinit, hshell]) hrunning
        · next hshell =>
          exact .same (by simp [hstarts, hinit, hshell]) ⟨rfl, rfl, rfl, fun _ ↦ rfl⟩
    · next htype =>
      have hstarts := hnone fun h ↦ htype (Option.some.inj (hdata.symm.trans h))
      split
      · exact .same hstarts (sameEnds_handleResize s data)
      · split
        · exact .stopped hstarts hrunning
        · exact .same hstarts (sameEnds_write s data)

private theorem frame_effect (s : ExecWS) (typ : MessageType) (data : Bytes)
    (docker : DockerExec) :
    ExecEffect s (.frame typ data docker) (s.handleFrame typ data docker) := by
  have hnone (hunread : s.returned = true ∨ ¬ data.length ≤ readLimit) :
      (ExecStep.frame typ data docker).starts s = none := by
    cases typ with
    | text => exact if_neg fun h ↦ hunread.elim (fun hr ↦ by simp [hr] at h) (· h.2.1)
    | binary => rfl
  unfold ExecWS.handleFrame
  by_cases hreturned : s.returned = true
  · rw [if_pos hreturned]
    exact .same (hnone (.inl hreturned)) (sameEnds_refl s)
  · have hrunning : s.returned = false := Bool.eq_false_iff.mpr hreturned
    rw [if_neg hreturned]
    split
    · next hlength => exact .stopped (hnone (.inr (not_le.mpr hlength))) hrunning
    · next hlength =>
      cases typ with
      | text => exact text_effect hrunning (not_lt.mp hlength)
      | binary =>
        dsimp only
        split
        · exact .same rfl (sameEnds_refl s)
        · exact .same rfl (sameEnds_write s data)

/-- Every step has one of these effects. -/
theorem execStep_effect (h : execStep s l = some s') : ExecEffect s l s' := by
  cases l with
  | frame typ data docker =>
    obtain rfl := Option.some.inj h
    exact frame_effect s typ data docker
  | readError =>
    obtain rfl := Option.some.inj h
    split
    · exact .same rfl (sameEnds_refl s)
    · next hreturned => exact .stopped rfl (Bool.eq_false_iff.mpr hreturned)
  | pump n data sends =>
    obtain ⟨-, hs⟩ := Option.ite_none_right_eq_some.mp h
    obtain rfl := Option.some.inj hs
    split
    · exact .same rfl ⟨rfl, rfl, rfl, fun _ ↦ rfl⟩
    · exact .same rfl (sameEnds_endPump s n)
  | pumpEnd n =>
    obtain ⟨-, hs⟩ := Option.ite_none_right_eq_some.mp h
    obtain rfl := Option.some.inj hs
    exact .same rfl (sameEnds_endPump s n)

private theorem OneExec.startSession {f : InitFrame} {docker : DockerExec} (h : OneExec s)
    (hrunning : s.returned = false) (hhijack : s.hijack = none)
    (hcloseWriter : ∀ answer ∈ (startExec docker).toOption, answer.2 = true) :
    OneExec (s.startSession f docker) := by
  obtain ⟨hcancel, hreturned, hold, hle, hnew⟩ := startSession_spec s f docker
  have hfailed : ∀ n x, n ≠ s.sessions.length → (s.startSession f docker).ends n = some x →
      x = (true, none) := by
    intro n x hn hx
    have hlt : n < s.sessions.length := lt_of_le_of_ne (hle n x hx) hn
    refine h.failed n x (by rw [← hold n hlt, hx]) ?_
    rw [hhijack]
    exact nofun
  cases hstart : startExec docker with
  | error message =>
    rw [hstart] at hnew
    refine ⟨fun n x hx _ ↦ ?_, ?_, ?_⟩
    · by_cases hn : n = s.sessions.length
      · rw [hn, hnew.2] at hx
        exact (Option.some.inj hx).symm
      · exact hfailed n x hn hx
    · rw [hnew.1, hhijack]
      exact fun _ _ ↦ nofun
    · rw [hnew.1, hhijack]
      exact fun _ _ ↦ nofun
  | ok answer =>
    rw [hstart] at hnew
    refine ⟨fun n x hx hn ↦ ?_, fun _ n hn ↦ ?_, fun hnot ↦ ?_⟩
    · refine hfailed n x (fun heq ↦ hn ?_) hx
      rw [heq, hnew.1]
    · obtain rfl : s.sessions.length = n := Option.some.inj (hnew.1.symm.trans hn)
      refine ⟨hcancel, ?_⟩
      rw [hnew.2, hcloseWriter answer (by rw [hstart]; rfl)]
    · rw [hreturned, hrunning] at hnot
      contradiction

private theorem OneExec.stop (h : OneExec s) (hrunning : s.returned = false) : OneExec s.stop := by
  refine ⟨fun n x hx hn ↦ ?_, nofun, fun _ n hn ↦ ?_⟩
  · rw [ends_stop] at hx
    obtain ⟨y, hy, rfl⟩ := Option.map_eq_some_iff.mp hx
    rw [h.failed n y hy hn]
    rfl
  · obtain ⟨hcancel, hends⟩ := h.live hrunning n hn
    have hhijack : s.hijack = some n := hn
    rw [ends_stop, hends]
    simp [hcancel, hhijack]

/-- A step that the condition allows keeps the invariant. -/
theorem OneExec.step (h : OneExec s) (hl : OneSession s l) (hs : execStep s l = some s') :
    OneExec s' := by
  cases execStep_effect hs with
  | started hstarts hrunning =>
    obtain ⟨hhijack, hcloseWriter⟩ := hl _ hstarts
    exact h.startSession hrunning hhijack hcloseWriter
  | stopped hstarts hrunning => exact h.stop hrunning
  | same hstarts hsame =>
    obtain ⟨hhijack, hcancel, hreturned, hends⟩ := hsame
    refine ⟨fun n x hx hn ↦ ?_, fun hrunning n hn ↦ ?_, fun hnot n hn ↦ ?_⟩
    · exact h.failed n x (hends n ▸ hx) (hhijack ▸ hn)
    · rw [hcancel, hends]
      exact h.live (hreturned ▸ hrunning) n (hhijack ▸ hn)
    · rw [hends]
      exact h.released (hreturned ▸ hnot) n (hhijack ▸ hn)

private theorem lt_of_ends {x : Bool × Option (Bool × Bool)} (h : s.ends n = some x) :
    n < s.sessions.length := by
  obtain ⟨e, he, -⟩ := Option.map_eq_some_iff.mp h
  exact (List.getElem?_eq_some_iff.mp he).1

/-- A step that the condition forbids leaves a session behind. -/
theorem OneExec.orphaned (h : OneExec s) (hl : ¬ OneSession s l) (hs : execStep s l = some s') :
    Orphaned s' := by
  cases execStep_effect hs with
  | @started f docker hstarts hrunning =>
    obtain ⟨hcancel, -, hold, -, hnew⟩ := startSession_spec s f docker
    cases hhijack : s.hijack with
    | some n =>
      -- the session that is attached loses the variable with its context
      obtain ⟨-, hends⟩ := h.live hrunning n hhijack
      have hlt := lt_of_ends hends
      refine ⟨n, _, (hold n hlt).trans hends, .inl ⟨rfl, ?_⟩⟩
      rw [hcancel]
      exact fun heq ↦ absurd (Option.some.inj heq) (by omega)
    | none =>
      cases hstart : startExec docker with
      | error message => exact absurd (fun p hp ↦ by
          obtain rfl := Option.some.inj (hstarts.symm.trans hp)
          exact ⟨hhijack, by rw [hstart]; exact nofun⟩) hl
      | ok answer =>
        rw [hstart] at hnew
        refine ⟨_, _, hnew.2, .inr ?_⟩
        have hcloseWriter : answer.2 = false := by
          by_contra htrue
          refine hl fun p hp ↦ ?_
          obtain rfl := Option.some.inj (hstarts.symm.trans hp)
          refine ⟨hhijack, fun answer' hanswer ↦ ?_⟩
          rw [hstart] at hanswer
          obtain rfl := Option.some.inj hanswer
          exact Bool.not_eq_false _ ▸ htrue
        rw [hcloseWriter]
  | stopped hstarts hrunning => exact absurd (fun p hp ↦ by rw [hstarts] at hp; contradiction) hl
  | same hstarts hsame => exact absurd (fun p hp ↦ by rw [hstarts] at hp; contradiction) hl

/-- A session that is left behind stays so. -/
theorem Orphaned.step (h : Orphaned s) (hs : execStep s l = some s') : Orphaned s' := by
  obtain ⟨n, x, hx, hlost⟩ := h
  cases execStep_effect hs with
  | @started f docker hstarts hrunning =>
    obtain ⟨hcancel, -, hold, -⟩ := startSession_spec s f docker
    have hlt := lt_of_ends hx
    refine ⟨n, x, (hold n hlt).trans hx, hlost.imp_left fun h ↦ ⟨h.1, ?_⟩⟩
    rw [hcancel]
    exact fun heq ↦ absurd (Option.some.inj heq) (by omega)
  | stopped hstarts hrunning =>
    refine ⟨n, _, by rw [ends_stop, hx, Option.map_some], ?_⟩
    rcases hlost with ⟨hfalse, hother⟩ | hclose
    · exact .inl ⟨by simp [hfalse, hother], hother⟩
    · exact .inr (by simp [hclose])
  | same hstarts hsame =>
    obtain ⟨-, hcancel, -, hends⟩ := hsame
    exact ⟨n, x, (hends n).trans hx, hlost.imp_left fun h ↦ ⟨h.1, hcancel ▸ h.2⟩⟩

private theorem OneExec.hijack_of_pumping (h : OneExec s) (hn : s.pumping n = true) :
    s.hijack = some n := by
  obtain ⟨c, hc, -⟩ := (Option.any_eq_true _ _).mp hn
  obtain ⟨e, he, hconn⟩ := Option.bind_eq_some_iff.mp hc
  by_contra hother
  have hends := h.failed n e.ends (by rw [ExecWS.ends, he, Option.map_some]) hother
  simp [ExecSession.ends, hconn] at hends

/-- One session at most pumps. -/
theorem OneExec.onePump (h : OneExec s) : OnePump s := by
  intro n m hn hm
  exact Option.some.inj ((h.hijack_of_pumping hn).symm.trans (h.hijack_of_pumping hm))

/-- A handler that has returned has released its one session. -/
theorem OneExec.allReleased (h : OneExec s) (hreturned : s.returned = true) : Released s := by
  intro e he
  obtain ⟨n, hn⟩ := List.mem_iff_getElem?.mp he
  have hends : s.ends n = some e.ends := by rw [ExecWS.ends, hn, Option.map_some]
  by_cases hhijack : s.hijack = some n
  · have hx := Option.some.inj (hends.symm.trans (h.released hreturned n hhijack))
    obtain ⟨hcancelled, hconn⟩ := Prod.ext_iff.mp hx
    refine ⟨hcancelled, fun c hc ↦ ?_⟩
    simp only [ExecSession.ends, Option.mem_def.mp hc, Option.map_some] at hconn
    exact (Prod.ext_iff.mp (Option.some.inj hconn)).2
  · obtain ⟨hcancelled, hconn⟩ := Prod.ext_iff.mp (h.failed n e.ends hends hhijack)
    refine ⟨hcancelled, fun c hc ↦ ?_⟩
    rw [ExecSession.ends, Option.mem_def.mp hc] at hconn
    contradiction

/-- A session that is left behind is not released. -/
theorem Orphaned.not_released (h : Orphaned s) : ¬ Released s := by
  intro hreleased
  obtain ⟨n, x, hx, hlost⟩ := h
  obtain ⟨e, he, rfl⟩ := Option.map_eq_some_iff.mp hx
  obtain ⟨hcancelled, hclosed⟩ := hreleased e (List.mem_of_getElem? he)
  rcases hlost with ⟨hfalse, -⟩ | hconn
  · exact absurd (hcancelled.symm.trans hfalse) nofun
  · obtain ⟨c, hc, hends⟩ := Option.map_eq_some_iff.mp hconn
    exact absurd ((hclosed c hc).symm.trans (Prod.ext_iff.mp hends).2) nofun

/-- When the handler returns, whatever has happened: every connection has been closed for writing
and every context cancelled, and no two connections have ever pumped at once, if and only if no
authorized `init` frame came when a connection was attached and each connection had `CloseWrite`. -/
theorem released_iff_oneSession (steps : List ExecStep)
    (h : runSteps execStep .init steps = some t) (hreturned : t.returned = true) :
    (Released t ∧ ∀ steps₁ steps₂ u, steps = steps₁ ++ steps₂ →
      runSteps execStep .init steps₁ = some u → OnePump u) ↔
        RunMeets execStep OneSession .init steps := by
  have hinit : OneExec .init := ⟨nofun, fun _ _ ↦ nofun, nofun⟩
  rcases runMeets_or_lost (fun _ _ _ hI hl hs ↦ OneExec.step hI hl hs)
    (fun _ _ _ hI hl hs ↦ OneExec.orphaned hI hl hs) (fun _ _ _ hL hs ↦ hL.step hs) hinit h with
    ⟨hmeets, hI⟩ | ⟨hnot, hL⟩
  · refine iff_of_true ⟨hI.allReleased hreturned, fun steps₁ steps₂ u hsteps hu ↦ ?_⟩ hmeets
    subst hsteps
    have hIu : OneExec u := runSteps_invariant_of_meets (fun _ _ _ hI hl hs ↦ OneExec.step hI hl hs)
      hinit hmeets.of_append hu
    exact hIu.onePump
  · exact iff_of_false (fun hreleased ↦ hL.not_released hreleased.1) hnot

/-- Docker does not find the container. -/
def demoNoDocker : DockerExec := ⟨.error "No such container: c1", .ok true⟩

/-- A client whose first `init` fails, and that leaves after the second. -/
def demoClient : List ExecStep :=
  [.frame .text demoInit demoNoDocker, .frame .text demoInit demoDocker, .pump 1 (text "$ ") true,
    .readError]

/-- A client that sends `init` again once it has a terminal, and closes it. -/
def secondInit : List ExecStep :=
  [.frame .text demoInit demoDocker, .frame .text demoInit demoDocker,
    .frame .text (text "\x7b\"type\":\"close\"\x7d") demoDocker]

/-- Its handler releases both sessions. -/
theorem released_iff_oneSession_demo :
    ∃ t, runSteps execStep .init demoClient = some t ∧ t.returned = true ∧ Released t := by
  obtain ⟨t, ht, hreturned⟩ := (Option.any_eq_true _ _).mp (by decide +kernel :
    (runSteps execStep .init demoClient).any (·.returned) = true)
  refine ⟨t, ht, hreturned, ?_⟩
  exact ((released_iff_oneSession demoClient ht hreturned).mpr (by decide +kernel)).1

/-- Both of its sessions pump at once, and the first is neither closed nor cancelled when the
handler returns. -/
theorem secondInit_not_released : ∃ t, runSteps execStep .init secondInit = some t ∧
    t.returned = true ∧ ¬ Released t ∧ ∃ u, runSteps execStep .init (secondInit.take 2) = some u ∧
      ¬ OnePump u := by
  obtain ⟨t, ht, hends⟩ := (Option.any_eq_true _ _).mp (by decide +kernel :
    (runSteps execStep .init secondInit).any
      (fun t ↦ t.returned = true ∧ t.ends 0 = some (false, some (true, false))) = true)
  obtain ⟨u, hu, hpumping⟩ := (Option.any_eq_true _ _).mp (by decide +kernel :
    (runSteps execStep .init (secondInit.take 2)).any
      (fun u ↦ u.pumping 0 = true ∧ u.pumping 1 = true) = true)
  obtain ⟨hreturned, hends⟩ := of_decide_eq_true hends
  obtain ⟨hfirst, hsecond⟩ := of_decide_eq_true hpumping
  refine ⟨t, ht, hreturned, fun hreleased ↦ ?_, u, hu, fun hone ↦ absurd (hone 0 1 hfirst hsecond)
    nofun⟩
  obtain ⟨e, he, hx⟩ := Option.map_eq_some_iff.mp hends
  have hcancelled := (hreleased e (List.mem_of_getElem? he)).1
  exact absurd (hcancelled.symm.trans (Prod.ext_iff.mp hx).1) nofun

end Dockstack.Ws
