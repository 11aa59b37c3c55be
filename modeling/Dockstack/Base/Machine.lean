import Mathlib.Data.List.Induction

/-!
# Runs of labelled machines

A machine is a partial step function: the label carries every choice (which party
moves, what the environment answers, the clock reading), and `none` means that the
label is not enabled. A run is a list of labels; all interleavings of concurrent
parties are all label lists.
-/

namespace Dockstack.Base

variable {S L : Type}

/-- The state after a run, `none` when some label was not enabled. -/
def runSteps (step : S → L → Option S) : S → List L → Option S
  | s, [] => some s
  | s, l :: ls =>
    match step s l with
    | none => none
    | some s' => runSteps step s' ls

/-- Every step that a run takes meets `P`, a condition on the state before it and its label. -/
def RunMeets (step : S → L → Option S) (P : S → L → Prop) : S → List L → Prop
  | _, [] => True
  | s, l :: ls => P s l ∧
    match step s l with
    | none => True
    | some s' => RunMeets step P s' ls

section

variable {step : S → L → Option S} {P : S → L → Prop}

/-- Whether a run meets a decidable condition is decided by taking its steps. -/
instance decidableRunMeets [∀ s l, Decidable (P s l)] :
    ∀ (s : S) (ls : List L), Decidable (RunMeets step P s ls)
  | _, [] => inferInstanceAs (Decidable True)
  | s, l :: ls =>
    match h : step s l with
    | none => decidable_of_iff (P s l) (by simp [RunMeets, h])
    | some s' =>
      have := decidableRunMeets s' ls
      decidable_of_iff (P s l ∧ RunMeets step P s' ls) (by simp [RunMeets, h])

/-- A run takes its first step, then the rest. -/
theorem runSteps_cons_eq_some {s t : S} {l : L} {ls : List L} :
    runSteps step s (l :: ls) = some t ↔
      ∃ s', step s l = some s' ∧ runSteps step s' ls = some t := by
  rw [runSteps]
  cases step s l with
  | none => simp
  | some s' => simp

/-- Runs compose. -/
theorem runSteps_append {s t u : S} {ls ls' : List L} (h : runSteps step s ls = some t)
    (h' : runSteps step t ls' = some u) : runSteps step s (ls ++ ls') = some u := by
  induction ls generalizing s with
  | nil =>
    obtain rfl := Option.some.inj h
    exact h'
  | cons l ls ih =>
    obtain ⟨s', hs, hr⟩ := runSteps_cons_eq_some.mp h
    exact runSteps_cons_eq_some.mpr ⟨s', hs, ih hr⟩

/-- A run of two parts passes through a state between them. -/
theorem runSteps_append_eq_some {s u : S} {ls ls' : List L} :
    runSteps step s (ls ++ ls') = some u ↔
      ∃ t, runSteps step s ls = some t ∧ runSteps step t ls' = some u := by
  constructor
  · intro h
    induction ls generalizing s with
    | nil => exact ⟨s, rfl, h⟩
    | cons l ls ih =>
      obtain ⟨s', hs, hr⟩ := runSteps_cons_eq_some.mp h
      obtain ⟨t, ht, hu⟩ := ih hr
      exact ⟨t, runSteps_cons_eq_some.mpr ⟨s', hs, ht⟩, hu⟩
  · rintro ⟨t, ht, hu⟩
    exact runSteps_append ht hu

/-- In the run of `ls` from `s₀`, the label `l` comes after the labels `pre`, in the state `s`. -/
def TakenAt (step : S → L → Option S) (s₀ : S) (ls pre : List L) (l : L) (s : S) : Prop :=
  (∃ post, ls = pre ++ l :: post) ∧ runSteps step s₀ pre = some s

/-- What holds at first and is kept by every step of a run holds at its end; it may speak of the
labels so far. -/
theorem runSteps_history {I : List L → S → Prop} {s t : S} {ls : List L} (hs : I [] s)
    (hstep : ∀ pre l s₁ s₂, TakenAt step s ls pre l s₁ → I pre s₁ → step s₁ l = some s₂ →
      I (pre ++ [l]) s₂) (h : runSteps step s ls = some t) : I ls t := by
  induction ls using List.reverseRecOn generalizing t with
  | nil =>
    obtain rfl := Option.some.inj h
    exact hs
  | append_singleton ls l ih =>
    obtain ⟨u, hu, hl⟩ := runSteps_append_eq_some.mp h
    obtain ⟨t', ht', hnil⟩ := runSteps_cons_eq_some.mp hl
    obtain rfl := Option.some.inj hnil
    refine hstep ls l u t' ⟨⟨[], rfl⟩, hu⟩ (ih ?_ hu) ht'
    rintro pre l' s₁ s₂ ⟨⟨post, rfl⟩, hpre⟩ hI hs₂
    exact hstep pre l' s₁ s₂ ⟨⟨post ++ [l], by simp⟩, hpre⟩ hI hs₂

/-- A condition on the labels alone is met wherever the run is. -/
theorem RunMeets.of_forall {ls : List L} (h : ∀ l ∈ ls, ∀ s, P s l) (s : S) :
    RunMeets step P s ls := by
  induction ls generalizing s with
  | nil => exact trivial
  | cons l ls ih =>
    refine ⟨h l (by simp) s, ?_⟩
    cases step s l with
    | none => exact trivial
    | some s' => exact ih (fun l' hl' ↦ h l' (List.mem_cons_of_mem l hl')) s'

/-- Conditions met separately are met together. -/
theorem RunMeets.and {Q : S → L → Prop} {s : S} {ls : List L} (hP : RunMeets step P s ls)
    (hQ : RunMeets step Q s ls) : RunMeets step (fun s l ↦ P s l ∧ Q s l) s ls := by
  induction ls generalizing s with
  | nil => exact trivial
  | cons l ls ih =>
    refine ⟨⟨hP.1, hQ.1⟩, ?_⟩
    have hP' := hP.2
    have hQ' := hQ.2
    cases hs : step s l with
    | none => exact trivial
    | some s' =>
      rw [hs] at hP' hQ'
      exact ih hP' hQ'

/-- The first part of a run meets the run's condition. -/
theorem RunMeets.of_append {s : S} {ls ls' : List L} (h : RunMeets step P s (ls ++ ls')) :
    RunMeets step P s ls := by
  induction ls generalizing s with
  | nil => exact trivial
  | cons l ls ih =>
    refine ⟨h.1, ?_⟩
    have h' := h.2
    cases hs : step s l with
    | none => exact trivial
    | some s' =>
      rw [hs] at h'
      exact ih h'

/-- A run meets its condition at each of its steps. -/
theorem RunMeets.at_step {s t : S} {ls ls' : List L} {l : L}
    (h : RunMeets step P s (ls ++ l :: ls')) (hrun : runSteps step s ls = some t) : P t l := by
  induction ls generalizing s with
  | nil =>
    obtain rfl := Option.some.inj hrun
    exact h.1
  | cons l' ls ih =>
    obtain ⟨s', hs', hr⟩ := runSteps_cons_eq_some.mp hrun
    have h' := h.2
    rw [hs'] at h'
    exact ih h' hr

/-- Two conditions that agree along a run are both met by it or neither. Where they fail there
is nothing more to agree on. -/
theorem RunMeets.congr {Q : S → L → Prop} {I : S → Prop} {s t : S} {ls : List L}
    (hstep : ∀ l ∈ ls, ∀ s s', I s → step s l = some s' → (P s l ↔ Q s l) ∧ (P s l → I s'))
    (hs : I s) (h : runSteps step s ls = some t) :
    RunMeets step P s ls ↔ RunMeets step Q s ls := by
  induction ls generalizing s with
  | nil => rfl
  | cons l ls ih =>
    obtain ⟨s', hs', hr⟩ := runSteps_cons_eq_some.mp h
    obtain ⟨hPQ, hI⟩ := hstep l List.mem_cons_self s s' hs hs'
    have hrest (hP : P s l) := ih (fun l' hl' ↦ hstep l' (List.mem_cons_of_mem l hl')) (hI hP) hr
    rw [RunMeets, RunMeets, hs']
    constructor
    · rintro ⟨hP, hPs⟩
      exact ⟨hPQ.mp hP, (hrest hP).mp hPs⟩
    · rintro ⟨hQ, hQs⟩
      exact ⟨hPQ.mpr hQ, (hrest (hPQ.mpr hQ)).mpr hQs⟩

/-- What every step preserves, under a condition that the run's steps meet, a run preserves. -/
theorem runSteps_invariant_of_meets {I : S → Prop}
    (hstep : ∀ s l s', I s → P s l → step s l = some s' → I s') {s t : S} {ls : List L}
    (hs : I s) (hP : RunMeets step P s ls) (h : runSteps step s ls = some t) : I t := by
  induction ls generalizing s with
  | nil =>
    obtain rfl := Option.some.inj h
    exact hs
  | cons l ls ih =>
    obtain ⟨s', hs', hr⟩ := runSteps_cons_eq_some.mp h
    have hP' := hP.2
    rw [hs'] at hP'
    exact ih (hstep s l s' hs hP.1 hs') hP' hr

/-- What every step preserves, a run preserves. -/
theorem runSteps_invariant {I : S → Prop} (hstep : ∀ s l s', I s → step s l = some s' → I s')
    {s t : S} {ls : List L} (hs : I s) (h : runSteps step s ls = some t) : I t := by
  induction ls generalizing s with
  | nil =>
    obtain rfl := Option.some.inj h
    exact hs
  | cons l ls ih =>
    obtain ⟨s', hs', hr⟩ := runSteps_cons_eq_some.mp h
    exact ih (hstep s l s' hs hs') hr

/-- A breach of a condition that no later step repairs: at the end of a run the condition was met
and the invariant holds, or it was not and the damage is there. -/
theorem runMeets_or_lost {I Lost : S → Prop}
    (hkeep : ∀ s l s', I s → P s l → step s l = some s' → I s')
    (hbreach : ∀ s l s', I s → ¬ P s l → step s l = some s' → Lost s')
    (hlost : ∀ s l s', Lost s → step s l = some s' → Lost s') {s t : S} {ls : List L} (hs : I s)
    (h : runSteps step s ls = some t) :
    (RunMeets step P s ls ∧ I t) ∨ (¬ RunMeets step P s ls ∧ Lost t) := by
  induction ls generalizing s with
  | nil =>
    obtain rfl := Option.some.inj h
    exact .inl ⟨trivial, hs⟩
  | cons l ls ih =>
    obtain ⟨s', hs', hr⟩ := runSteps_cons_eq_some.mp h
    rw [RunMeets, hs']
    by_cases hP : P s l
    · rcases ih (hkeep s l s' hs hP hs') hr with ⟨hmeets, hI⟩ | ⟨hnot, hL⟩
      · exact .inl ⟨⟨hP, hmeets⟩, hI⟩
      · exact .inr ⟨fun hmeets ↦ hnot hmeets.2, hL⟩
    · refine .inr ⟨fun hmeets ↦ hP hmeets.1, ?_⟩
      exact runSteps_invariant hlost (hbreach s l s' hs hP hs') hr

end

end Dockstack.Base
