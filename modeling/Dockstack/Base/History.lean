import Mathlib.Data.List.Basic

/-!
# Past-time properties of histories

A history is the list of events so far, oldest first. `Since` is the past operator of
temporal logic: something started, and nothing has ended it since; `Always` says that
every event was in order when it happened. Each has a step rule, so that an invariant can
follow it through a run event by event.
-/

namespace Dockstack.Base

variable {E : Type}

/-- An event of `h` satisfies `start` and every later one satisfies `ok`. -/
def Since (ok start : E → Prop) (h : List E) : Prop :=
  ∃ pre e post, h = pre ++ e :: post ∧ start e ∧ ∀ e' ∈ post, ok e'

variable {ok start : E → Prop} {h : List E}

/-- Nothing has started in the empty history. -/
theorem not_since_nil : ¬ Since ok start [] := by
  rintro ⟨pre, e, post, heq, -⟩
  have hlen := congrArg List.length heq
  simp at hlen

/-- One more event starts it, or does not end it. -/
theorem since_append_singleton {e : E} :
    Since ok start (h ++ [e]) ↔ start e ∨ (Since ok start h ∧ ok e) := by
  constructor
  · rintro ⟨pre, e₀, post, heq, hstart, hok⟩
    rcases post.eq_nil_or_concat with rfl | ⟨post, e₁, rfl⟩
    · obtain ⟨-, rfl⟩ := List.append_singleton_inj.mp heq
      exact .inl hstart
    · rw [List.concat_eq_append, ← List.cons_append, ← List.append_assoc] at heq
      obtain ⟨rfl, rfl⟩ := List.append_singleton_inj.mp heq
      rw [List.concat_eq_append] at hok
      refine .inr ⟨⟨pre, e₀, post, rfl, hstart, ?_⟩, hok e (by simp)⟩
      exact fun e' he' ↦ hok e' (List.mem_append_left _ he')
  · rintro (hstart | ⟨⟨pre, e₀, post, rfl, hstart, hok⟩, he⟩)
    · exact ⟨h, e, [], rfl, hstart, fun e' he' ↦ nomatch he'⟩
    · refine ⟨pre, e₀, post ++ [e], by simp, hstart, fun e' he' ↦ ?_⟩
      rcases List.mem_append.mp he' with h' | h'
      · exact hok e' h'
      · obtain rfl := List.mem_singleton.mp h'
        exact he

/-- Later events that end nothing and start nothing change nothing. -/
theorem since_append {ext : List E} (hext : ∀ e ∈ ext, ok e ∧ ¬ start e) :
    Since ok start (h ++ ext) ↔ Since ok start h := by
  induction ext generalizing h with
  | nil => rw [List.append_nil]
  | cons e ext ih =>
    rw [← List.singleton_append, ← List.append_assoc,
      ih (fun e' he' ↦ hext e' (List.mem_cons_of_mem e he')), since_append_singleton]
    have he := hext e List.mem_cons_self
    simp [he.1, he.2]

/-- What holds since is in the history. -/
theorem Since.exists_mem (hs : Since ok start h) : ∃ e ∈ h, start e := by
  obtain ⟨pre, e, post, rfl, hstart, -⟩ := hs
  exact ⟨e, by simp, hstart⟩

/-- Only how the events of the history are judged matters. -/
theorem Since.imp {ok' start' : E → Prop} (hs : Since ok start h)
    (hstart : ∀ e ∈ h, start e → start' e) (hok : ∀ e ∈ h, ok e → ok' e) :
    Since ok' start' h := by
  obtain ⟨pre, e, post, rfl, he, hpost⟩ := hs
  refine ⟨pre, e, post, rfl, hstart e (by simp) he, fun e' he' ↦ ?_⟩
  exact hok e' (List.mem_append_right _ (List.mem_cons_of_mem e he')) (hpost e' he')

/-- Every event of `h` meets `P`, which also sees the events before it. -/
def Always (P : List E → E → Prop) (h : List E) : Prop :=
  ∀ pre e post, h = pre ++ e :: post → P pre e

/-- The empty history meets every condition. -/
theorem always_nil (P : List E → E → Prop) : Always P [] := by
  intro pre e post heq
  have hlen := congrArg List.length heq
  simp at hlen

/-- One more event must meet the condition itself. -/
theorem always_append_singleton {P : List E → E → Prop} {e : E} :
    Always P (h ++ [e]) ↔ Always P h ∧ P h e := by
  constructor
  · intro hall
    refine ⟨fun pre e₀ post heq ↦ hall pre e₀ (post ++ [e]) ?_, hall h e [] rfl⟩
    rw [heq, List.append_assoc, List.cons_append]
  · rintro ⟨hall, he⟩ pre e₀ post heq
    rcases post.eq_nil_or_concat with rfl | ⟨post, e₁, rfl⟩
    · obtain ⟨rfl, rfl⟩ := List.append_singleton_inj.mp heq
      exact he
    · rw [List.concat_eq_append, ← List.cons_append, ← List.append_assoc] at heq
      exact hall pre e₀ post (List.append_singleton_inj.mp heq).1

/-- Events that meet the condition meet a weaker one. -/
theorem Always.imp {P Q : List E → E → Prop} (hall : Always P h)
    (hPQ : ∀ pre e, P pre e → Q pre e) : Always Q h :=
  fun pre e post heq ↦ hPQ pre e (hall pre e post heq)

/-- The past operator follows the history from its oldest event. -/
theorem since_cons {e : E} :
    Since ok start (e :: h) ↔ (start e ∧ ∀ e' ∈ h, ok e') ∨ Since ok start h := by
  constructor
  · rintro ⟨pre, e₀, post, heq, hstart, hok⟩
    cases pre with
    | nil =>
      obtain ⟨rfl, rfl⟩ := List.cons.inj heq
      exact .inl ⟨hstart, hok⟩
    | cons e₁ pre => exact .inr ⟨pre, e₀, post, (List.cons.inj heq).2, hstart, hok⟩
  · rintro (⟨hstart, hok⟩ | ⟨pre, e₀, post, rfl, hstart, hok⟩)
    · exact ⟨[], e, h, rfl, hstart, hok⟩
    · exact ⟨e :: pre, e₀, post, rfl, hstart, hok⟩

/-- Whether something has held since is decided by one scan. -/
instance decidableSince [DecidablePred ok] [DecidablePred start] :
    ∀ h : List E, Decidable (Since ok start h)
  | [] => .isFalse not_since_nil
  | _ :: h =>
    have := decidableSince h
    decidable_of_iff _ since_cons.symm

/-- No `cut` comes after `a` and before `b`: one that comes before a `b` comes before an `a`. -/
def NoneBetween (cut a b : E) (h : List E) : Prop :=
  ∀ pre post, h = pre ++ cut :: post → b ∈ post → a ∈ post

variable {cut a b : E}

/-- Events other than `b` separate nothing. -/
theorem NoneBetween.append {ext : List E} (hn : NoneBetween cut a b h) (hext : b ∉ ext) :
    NoneBetween cut a b (h ++ ext) := by
  rintro pre post heq hb
  rcases List.append_eq_append_iff.mp heq with ⟨l, rfl, hl⟩ | ⟨l, rfl, hl⟩
  · exact absurd (hl ▸ List.mem_append_right l (List.mem_cons_of_mem cut hb)) hext
  · cases l with
    | nil => exact absurd ((List.nil_append _ ▸ hl) ▸ List.mem_cons_of_mem cut hb) hext
    | cons e l =>
      obtain ⟨rfl, rfl⟩ := List.cons.inj hl
      rcases List.mem_append.mp hb with hb | hb
      · exact List.mem_append_left ext (hn pre l rfl hb)
      · exact absurd hb hext

/-- What nothing has cut off since is separated from nothing. -/
theorem noneBetween_of_since (hne : a ≠ cut) (hs : Since (· ≠ cut) (· = a) h) :
    NoneBetween cut a b h := by
  obtain ⟨pre, _, post, rfl, rfl, hpost⟩ := hs
  intro pre' post' heq _
  rcases List.append_eq_append_iff.mp heq with ⟨l, rfl, hl⟩ | ⟨l, rfl, hl⟩
  · cases l with
    | nil => exact absurd (List.cons.inj hl).1 hne
    | cons e l =>
      obtain ⟨rfl, rfl⟩ := List.cons.inj hl
      exact absurd rfl (hpost cut (List.mem_append_right l List.mem_cons_self))
  · cases l with
    | nil => exact absurd (List.cons.inj hl).1.symm hne
    | cons e l =>
      obtain ⟨rfl, rfl⟩ := List.cons.inj hl
      exact List.mem_append_right l List.mem_cons_self

end Dockstack.Base
