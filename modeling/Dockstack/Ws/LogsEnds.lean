import Dockstack.Ws.Logs

/-!
# Which stream an end message ends

A client takes `end` for the end of the stream that it asked for last. `streamStackLogsToWS` sends
it when its channel is closed, whether or not its context was cancelled, so a stream that has a
channel when the next valid `init` comes sends an `end` that is not for that client's stream.
-/

namespace Dockstack.Ws

open Dockstack.Base Dockstack.Base.Json

/-- `StreamStackLogs` has returned a channel, and the stream has not sent its `end`. -/
def StreamPhase.holdsChannel : StreamPhase → Bool
  | .starting => false
  | .receiving => true
  | .sending (.error _) => false
  | .sending _ => true
  | .done => false

/-- The step is a valid `init` frame, for this stack. -/
def LogsStep.starts (s : LogsWS) : LogsStep → Option String
  | .frame .text data _ =>
    if s.returned = false ∧ data.length ≤ readLimit then
      (unmarshalLogs data).bind fun p ↦
        if p.1 = "init" ∧ p.2 ≠ "" ∧ Server.stackNameRe p.2 = true then some p.2 else none
    else none
  | _ => none

/-- A stream starts only when no earlier one holds a channel, and only the last is given one. -/
def Quiet (s : LogsWS) : LogsStep → Prop
  | .opened n (.ok _) => n + 1 = s.streams.length
  | l => ∀ _stackName ∈ l.starts s, ∀ x ∈ s.streams, x.phase.holdsChannel = false

instance (s : LogsWS) : ∀ l, Decidable (Quiet s l)
  | .opened n (.ok _) => inferInstanceAs (Decidable (n + 1 = s.streams.length))
  | .opened _ (.error _) | .frame _ _ _ | .readError | .receive _ _ | .closed _ | .send _ _ =>
    inferInstanceAs (Decidable (∀ _ ∈ _, ∀ x ∈ s.streams, x.phase.holdsChannel = false))

/-- The invariant of a client whose streams do not overlap. -/
structure Current (s : LogsWS) : Prop where
  last : ∀ n p, s.phase n = some p → p.holdsChannel = true → n + 1 = s.streams.length
  ends : ∀ m ∈ s.sent, m.message = .ended →
    ∃ n, m.sender = some n ∧ n + 1 = m.started ∧ s.phase n = some .done

/-- A superseded stream has sent its `end`, or holds its channel still. -/
def Bled (s : LogsWS) : Prop :=
  (∃ m ∈ s.sent, m.message = .ended ∧ ∃ n, m.sender = some n ∧ n + 1 ≠ m.started) ∨
    ∃ n p, s.phase n = some p ∧ p.holdsChannel = true ∧ n + 1 ≠ s.streams.length

variable {s s' t : LogsWS} {l : LogsStep} {n : Nat}

/-- Only the handler may have sent something, and no `end`. -/
def SameStreams (s s' : LogsWS) : Prop :=
  (∀ n, s'.phase n = s.phase n) ∧ s'.streams.length = s.streams.length ∧
    ∃ msgs, s'.sent = s.sent ++ msgs ∧ ∀ m ∈ msgs, m.message ≠ .ended

private theorem phase_cancelStream (s : LogsWS) (n : Nat) :
    s.cancelStream.phase n = s.phase n := by
  unfold LogsWS.phase LogsWS.cancelStream
  cases s.cancel with
  | none => rfl
  | some c =>
    rw [List.getElem?_modify, Option.map_eq_map, Option.map_map]
    refine Option.map_congr fun x _ ↦ ?_
    rw [Function.comp_apply]
    split <;> rfl

private theorem length_cancelStream (s : LogsWS) :
    s.cancelStream.streams.length = s.streams.length := by
  unfold LogsWS.cancelStream
  cases s.cancel with
  | none => rfl
  | some c => exact List.length_modify ..

private theorem phase_setPhase (s : LogsWS) (n k : Nat) (p : StreamPhase) :
    (s.setPhase n p).phase k = if n = k then (s.phase k).map fun _ ↦ p else s.phase k := by
  rw [LogsWS.phase, LogsWS.phase, LogsWS.setPhase, List.getElem?_modify, Option.map_eq_map,
    Option.map_map]
  split
  · rw [Option.map_map]
    rfl
  · rfl

private theorem length_setPhase (s : LogsWS) (n : Nat) (p : StreamPhase) :
    (s.setPhase n p).streams.length = s.streams.length := List.length_modify ..

private theorem phase_startStream (s : LogsWS) (stackName : String) (n : Nat) :
    (s.startStream stackName).phase n =
      if n = s.streams.length then some .starting else s.phase n := by
  rw [← phase_cancelStream s n, LogsWS.phase, LogsWS.startStream, List.getElem?_append,
    length_cancelStream]
  split
  · next hlt => rw [if_neg hlt.ne, LogsWS.phase]
  · next hle =>
    split
    · next heq => simp [heq]
    · next hne =>
      have hlt : s.streams.length < n := lt_of_le_of_ne (not_lt.mp hle) (Ne.symm hne)
      have hnone : s.cancelStream.streams[n]? = none := by
        rw [List.getElem?_eq_none_iff, length_cancelStream]
        exact hlt.le
      rw [LogsWS.phase, hnone, List.getElem?_eq_none (by simp; omega)]

private theorem length_startStream (s : LogsWS) (stackName : String) :
    (s.startStream stackName).streams.length = s.streams.length + 1 := by
  rw [LogsWS.startStream, List.length_append, length_cancelStream, List.length_singleton]

private theorem lt_of_phase {p : StreamPhase} (h : s.phase n = some p) : n < s.streams.length := by
  obtain ⟨x, hx, -⟩ := Option.map_eq_some_iff.mp h
  exact (List.getElem?_eq_some_iff.mp hx).1

/-- What a step does: a valid `init` starts a stream, or the streams stay as they are, or one of
them moves. -/
inductive LogsEffect (s : LogsWS) : LogsStep → LogsWS → Prop where
  | started {l : LogsStep} {stackName : String} (hstarts : l.starts s = some stackName) :
      LogsEffect s l (s.startStream stackName)
  | same {l : LogsStep} {s' : LogsWS} (hstarts : l.starts s = none)
      (hopened : ∀ n answer, l ≠ .opened n answer) (hsame : SameStreams s s') : LogsEffect s l s'
  | opened {n : Nat} {answer : Except String Unit} (hp : s.phase n = some .starting) :
      LogsEffect s (.opened n answer) (s.setPhase n (.afterOpen answer))
  | receive {n : Nat} {entry : Docker.LogEntry} (hp : s.phase n = some .receiving) :
      LogsEffect s (.receive n entry) (s.setPhase n (.sending (.log entry)))
  | closed {n : Nat} (hp : s.phase n = some .receiving) :
      LogsEffect s (.closed n) (s.setPhase n (.sending .ended))
  | sent {n : Nat} {delivered : Bool} {m : LogsMessage} (hp : s.phase n = some (.sending m)) :
      LogsEffect s (.send n delivered) ((s.setPhase n (.afterSend m)).send n m delivered)

private theorem sameStreams_refl (s : LogsWS) : SameStreams s s :=
  ⟨fun _ ↦ rfl, rfl, [], (List.append_nil _).symm, nofun⟩

private theorem sameStreams_stop (s : LogsWS) : SameStreams s s.stop :=
  ⟨phase_cancelStream s, length_cancelStream s, [], (List.append_nil _).symm, nofun⟩

private theorem sameStreams_error (s : LogsWS) (message : String) (delivered : Bool) :
    SameStreams s (s.send none (.error message) delivered) := by
  refine ⟨fun _ ↦ rfl, rfl, _, rfl, fun m hm ↦ ?_⟩
  rw [List.mem_singleton.mp hm]
  exact nofun

private theorem logsText_effect {data : Bytes} {delivered : Bool} (hreturned : s.returned = false)
    (hlength : data.length ≤ readLimit) :
    LogsEffect s (.frame .text data delivered) (s.handleFrame .text data delivered) := by
  have hstarts : (LogsStep.frame .text data delivered).starts s = (unmarshalLogs data).bind fun p ↦
      if p.1 = "init" ∧ p.2 ≠ "" ∧ Server.stackNameRe p.2 = true then some p.2 else none :=
    if_pos ⟨hreturned, hlength⟩
  simp only [LogsWS.handleFrame, hreturned, Bool.false_eq_true, if_false,
    if_neg (not_lt.mpr hlength)]
  split
  · next hdata => exact .same (by rw [hstarts, hdata]; rfl) nofun (sameStreams_refl s)
  · next type stackName hdata =>
    rw [hdata, Option.bind_some] at hstarts
    split
    · next htype =>
      unfold LogsWS.handleInit
      split
      · next hempty => exact .same (by simp [hstarts, hempty]) nofun (sameStreams_error ..)
      · next hne =>
        split
        · next hinvalid => exact .same (by simp [hstarts, hinvalid]) nofun (sameStreams_error ..)
        · next hvalid => exact .started (by simp_all)
    · next htype =>
      have hnone : (LogsStep.frame .text data delivered).starts s = none := by
        rw [hstarts, if_neg fun h ↦ htype h.1]
      split
      · exact .same hnone nofun (sameStreams_stop s)
      · exact .same hnone nofun (sameStreams_refl s)

private theorem logsFrame_effect (s : LogsWS) (typ : MessageType) (data : Bytes)
    (delivered : Bool) :
    LogsEffect s (.frame typ data delivered) (s.handleFrame typ data delivered) := by
  have hnone (hunread : s.returned = true ∨ ¬ data.length ≤ readLimit) :
      (LogsStep.frame typ data delivered).starts s = none := by
    cases typ with
    | text => exact if_neg fun h ↦ hunread.elim (fun hr ↦ by simp [hr] at h) (· h.2)
    | binary => rfl
  by_cases hreturned : s.returned = true
  · unfold LogsWS.handleFrame
    rw [if_pos hreturned]
    exact .same (hnone (.inl hreturned)) nofun (sameStreams_refl s)
  · by_cases hlength : data.length ≤ readLimit
    · cases typ with
      | text => exact logsText_effect (Bool.eq_false_iff.mpr hreturned) hlength
      | binary =>
        unfold LogsWS.handleFrame
        rw [if_neg hreturned, if_neg (not_lt.mpr hlength)]
        exact .same rfl nofun (sameStreams_refl s)
    · unfold LogsWS.handleFrame
      rw [if_neg hreturned, if_pos (not_le.mp hlength)]
      exact .same (hnone (.inr hlength)) nofun (sameStreams_stop s)

private theorem move_effect {p p' : StreamPhase} (h : s.move n p p' = some s') :
    s.phase n = some p ∧ s' = s.setPhase n p' := by
  obtain ⟨hp, hs⟩ := Option.ite_none_right_eq_some.mp h
  exact ⟨hp, (Option.some.inj hs).symm⟩

/-- Every step has the effect of its label. -/
theorem logsStep_effect (h : logsStep s l = some s') : LogsEffect s l s' := by
  cases l with
  | frame typ data delivered =>
    obtain rfl := Option.some.inj h
    exact logsFrame_effect s typ data delivered
  | readError =>
    obtain rfl := Option.some.inj h
    split
    · exact .same rfl nofun (sameStreams_refl s)
    · exact .same rfl nofun (sameStreams_stop s)
  | opened n answer =>
    obtain ⟨hp, rfl⟩ := move_effect h
    exact .opened hp
  | receive n entry =>
    obtain ⟨hp, rfl⟩ := move_effect h
    exact .receive hp
  | closed n =>
    obtain ⟨hp, rfl⟩ := move_effect h
    exact .closed hp
  | send n delivered =>
    simp only [logsStep] at h
    split at h
    · next m hp =>
      obtain rfl := Option.some.inj h
      exact .sent hp
    · contradiction

private theorem Current.setPhase {p p' : StreamPhase} (h : Current s) (hp : s.phase n = some p)
    (hdone : p ≠ .done) (hlast : p'.holdsChannel = true → n + 1 = s.streams.length) :
    Current (s.setPhase n p') where
  last k q hq hchannel := by
    rw [length_setPhase]
    rw [phase_setPhase] at hq
    split at hq
    · next heq =>
      subst heq
      rw [hp] at hq
      obtain rfl := Option.some.inj hq
      exact hlast hchannel
    · exact h.last k q hq hchannel
  ends m hm hended := by
    obtain ⟨k, hsender, hk, hphase⟩ := h.ends m hm hended
    refine ⟨k, hsender, hk, ?_⟩
    rw [phase_setPhase, if_neg, hphase]
    rintro rfl
    rw [hp] at hphase
    exact hdone (Option.some.inj hphase)

private theorem Current.send {m : LogsMessage} {delivered : Bool} (h : Current s)
    (hp : s.phase n = some (.sending m)) :
    Current ((s.setPhase n (.afterSend m)).send n m delivered) := by
  have hmoved : Current (s.setPhase n (.afterSend m)) := by
    refine h.setPhase hp nofun fun hchannel ↦ ?_
    cases m with
    | log entry => exact h.last n _ hp rfl
    | error message => contradiction
    | ended => contradiction
  refine ⟨hmoved.last, fun r hr hended ↦ ?_⟩
  rcases List.mem_append.mp hr with hr | hr
  · exact hmoved.ends r hr hended
  · obtain rfl := List.mem_singleton.mp hr
    obtain rfl : m = .ended := hended
    refine ⟨n, rfl, ?_, ?_⟩
    · rw [length_setPhase]
      exact h.last n _ hp rfl
    · have hphase := phase_setPhase s n n (.afterSend .ended)
      rw [if_pos rfl, hp] at hphase
      exact hphase

/-- A step that the condition allows keeps the invariant. -/
theorem Current.step (h : Current s) (hl : Quiet s l) (hs : logsStep s l = some s') :
    Current s' := by
  cases logsStep_effect hs with
  | @started _ stackName hstarts =>
    have hidle : ∀ x ∈ s.streams, x.phase.holdsChannel = false := by
      cases l with
      | frame typ data delivered => exact hl stackName hstarts
      | _ => contradiction
    refine ⟨fun k p hp hchannel ↦ ?_, fun m hm hended ↦ ?_⟩
    · rw [phase_startStream] at hp
      split at hp
      · obtain rfl := Option.some.inj hp
        contradiction
      · obtain ⟨x, hx, rfl⟩ := Option.map_eq_some_iff.mp hp
        rw [hidle x (List.mem_of_getElem? hx)] at hchannel
        contradiction
    · obtain ⟨k, hsender, hk, hphase⟩ := h.ends m hm hended
      refine ⟨k, hsender, hk, ?_⟩
      rw [phase_startStream, if_neg (lt_of_phase hphase).ne]
      exact hphase
  | same hstarts hopened hsame =>
    obtain ⟨hphase, hlength, msgs, hsent, hmsgs⟩ := hsame
    refine ⟨fun k p hp hchannel ↦ ?_, fun m hm hended ↦ ?_⟩
    · rw [hlength]
      exact h.last k p (hphase k ▸ hp) hchannel
    · rw [hsent] at hm
      rcases List.mem_append.mp hm with hm | hm
      · obtain ⟨k, hsender, hk, hdone⟩ := h.ends m hm hended
        exact ⟨k, hsender, hk, (hphase k).trans hdone⟩
      · exact absurd hended (hmsgs m hm)
  | @opened n answer hp =>
    refine h.setPhase hp nofun fun hchannel ↦ ?_
    cases answer with
    | error message => contradiction
    | ok _ => exact hl
  | receive hp => exact h.setPhase hp nofun fun _ ↦ h.last _ _ hp rfl
  | closed hp => exact h.setPhase hp nofun fun _ ↦ h.last _ _ hp rfl
  | sent hp => exact h.send hp

private theorem Bled.setPhase {p p' : StreamPhase} (h : Bled s) (hp : s.phase n = some p)
    (hkeep : p.holdsChannel = true → p'.holdsChannel = true) : Bled (s.setPhase n p') := by
  rcases h with hsent | ⟨k, q, hq, hchannel, hk⟩
  · exact .inl hsent
  · rw [← length_setPhase s n p'] at hk
    by_cases heq : n = k
    · subst heq
      obtain rfl := Option.some.inj (hp.symm.trans hq)
      refine .inr ⟨n, p', ?_, hkeep hchannel, hk⟩
      rw [phase_setPhase, if_pos rfl, hp, Option.map_some]
    · refine .inr ⟨k, q, ?_, hchannel, hk⟩
      rw [phase_setPhase, if_neg heq, hq]

private theorem Bled.send (h : Bled s) (sender : Option Nat) (m : LogsMessage) (delivered : Bool) :
    Bled (s.send sender m delivered) :=
  h.imp_left fun ⟨r, hr, hended⟩ ↦ ⟨r, List.mem_append_left _ hr, hended⟩

private theorem Bled.sendEnded {delivered : Bool} (h : Bled s) (n : Nat) :
    Bled ((s.setPhase n .done).send n .ended delivered) := by
  rcases h with hsent | ⟨k, q, hq, hchannel, hk⟩
  · exact Bled.send (s := s.setPhase n .done) (.inl hsent) _ _ _
  · rw [← length_setPhase s n .done] at hk
    by_cases heq : n = k
    · subst heq
      exact .inl ⟨_, List.mem_append_right _ (List.mem_singleton_self _), rfl, n, rfl, hk⟩
    · refine .inr ⟨k, q, ?_, hchannel, hk⟩
      exact (phase_setPhase s n k _).trans ((if_neg heq).trans hq)

/-- A superseded stream keeps its channel until it sends its `end`. -/
theorem Bled.step (h : Bled s) (hs : logsStep s l = some s') : Bled s' := by
  cases logsStep_effect hs with
  | started hstarts =>
    refine h.imp_right fun ⟨k, q, hq, hchannel, hk⟩ ↦ ?_
    have hlt := lt_of_phase hq
    refine ⟨k, q, by rw [phase_startStream, if_neg hlt.ne, hq], hchannel, ?_⟩
    rw [length_startStream]
    omega
  | same hstarts hopened hsame =>
    obtain ⟨hphase, hlength, msgs, hsent, -⟩ := hsame
    refine h.imp (fun ⟨m, hm, hended⟩ ↦ ⟨m, ?_, hended⟩) fun ⟨k, q, hq, hchannel, hk⟩ ↦
      ⟨k, q, (hphase k).trans hq, hchannel, hlength ▸ hk⟩
    rw [hsent]
    exact List.mem_append_left _ hm
  | opened hp => exact h.setPhase hp nofun
  | receive hp => exact h.setPhase hp fun _ ↦ rfl
  | closed hp => exact h.setPhase hp fun _ ↦ rfl
  | @sent n delivered m hp =>
    cases m with
    | log entry => exact (h.setPhase hp fun _ ↦ rfl).send ..
    | error message => exact (h.setPhase hp nofun).send ..
    | ended => exact h.sendEnded n

end Dockstack.Ws
