import Dockstack.Base.Machine
import Mathlib.Order.Lattice

/-!
# Runs with silent steps

Two runs of a labelled machine whose labels agree up to silent ones. The states are compared by a
relation that is indexed by the clock, since a silent step may take away what counts no longer at
its reading. Such steps then change nothing of what the relation keeps.
-/

namespace Dockstack.Base

variable {S L T : Type} [LE T]

/-- How a machine's steps keep a relation between its states, at every instant of the clock. -/
structure Stutters (step : S → L → Option S) (readings : L → List T) (silent : L → Bool)
    (R : T → S → S → Prop) : Prop where
  later : ∀ {c c' : T} {s s' : S}, c ≤ c' → R c s s' → R c' s s'
  common : ∀ {l : L} {c : T} {s s' : S}, silent l = false → (∀ r ∈ readings l, c ≤ r) →
    R c s s' → Option.Rel (R c) (step s l) (step s' l)
  silent : ∀ {l : L} {c : T} {s s' : S}, silent l = true → (∀ r ∈ readings l, r ≤ c) →
    R c s s' → ∃ t, step s l = some t ∧ R c t s'

namespace Stutters

variable [Std.IsPreorder T] {step : S → L → Option S} {readings : L → List T}
  {silent : L → Bool} {R : T → S → S → Prop}

private theorem exists_latest (c : T) (rs : List T) (h : (c :: rs).Pairwise (· ≤ ·)) :
    ∃ c' ∈ c :: rs, c ≤ c' ∧ ∀ r ∈ rs, r ≤ c' := by
  induction rs generalizing c with
  | nil => exact ⟨c, List.mem_cons_self, Std.le_refl c, fun r hr ↦ absurd hr List.not_mem_nil⟩
  | cons r rs ih =>
    obtain ⟨hc, hrs⟩ := List.pairwise_cons.mp h
    obtain ⟨c', hmem, hle, hall⟩ := ih r hrs
    refine ⟨c', List.mem_cons_of_mem c hmem, hc c' hmem, fun r' hr' ↦ ?_⟩
    rcases List.mem_cons.mp hr' with rfl | hr'
    · exact hle
    · exact hall r' hr'

/-- A run is related to the one without its silent steps. -/
theorem rel_filter (h : Stutters step readings silent R) {c last : T} {s s' : S} {ls : List L}
    (hs : R c s s') (hclock : (c :: (ls.flatMap readings ++ [last])).Pairwise (· ≤ ·)) :
    Option.Rel (R last) (runSteps step s ls) (runSteps step s' (ls.filter (!silent ·))) := by
  induction ls generalizing c s s' with
  | nil => exact .some (h.later ((List.pairwise_cons.mp hclock).1 last (by simp)) hs)
  | cons l ls ih =>
    rw [List.flatMap_cons, List.append_assoc, ← List.cons_append, List.pairwise_append] at hclock
    obtain ⟨hl, hls, hbetween⟩ := hclock
    have hnext {c' : T} (hc' : c' ∈ c :: readings l) :
        (c' :: (ls.flatMap readings ++ [last])).Pairwise (· ≤ ·) :=
      List.pairwise_cons.mpr ⟨hbetween c' hc', hls⟩
    cases hsilent : silent l with
    | true =>
      obtain ⟨c', hmem, hle, hall⟩ := exists_latest c (readings l) hl
      obtain ⟨t, ht, hrel⟩ := h.silent hsilent hall (h.later hle hs)
      rw [List.filter_cons_of_neg (by simp [hsilent]), runSteps, ht]
      exact ih hrel (hnext hmem)
    | false =>
      have hstep := h.common hsilent (List.pairwise_cons.mp hl).1 hs
      rw [List.filter_cons_of_pos (by simp [hsilent]), runSteps, runSteps]
      generalize step s l = o, step s' l = o' at hstep
      cases hstep with
      | none => exact .none
      | some hrel => exact ih hrel (hnext List.mem_cons_self)

/-- A run can be taken with other silent steps, and what it then leads to is related. -/
theorem exists_run (h : Stutters step readings silent R) {c last : T} {s t : S} {ls ls' : List L}
    (hs : R c s s) (hsame : ls.filter (!silent ·) = ls'.filter (!silent ·))
    (hclock : (c :: (ls.flatMap readings ++ [last])).Pairwise (· ≤ ·))
    (hclock' : (c :: (ls'.flatMap readings ++ [last])).Pairwise (· ≤ ·))
    (hrun : runSteps step s ls = some t) :
    ∃ t' u, runSteps step s ls' = some t' ∧ R last t u ∧ R last t' u := by
  have hrel := h.rel_filter hs hclock
  have hrel' := h.rel_filter hs hclock'
  rw [hrun, hsame] at hrel
  generalize runSteps step s (ls'.filter (!silent ·)) = o at hrel hrel'
  cases hrel with
  | some hu =>
    generalize runSteps step s ls' = o' at hrel'
    cases hrel' with
    | some hu' => exact ⟨_, _, rfl, hu, hu'⟩

end Stutters

/-- Finitely many readings have one before them all. -/
theorem exists_le_readings {T : Type} [LinearOrder T] [Nonempty T] (rs : List T) :
    ∃ c, ∀ r ∈ rs, c ≤ r := by
  induction rs with
  | nil => exact ⟨Classical.arbitrary T, fun r hr ↦ absurd hr List.not_mem_nil⟩
  | cons r rs ih =>
    obtain ⟨c, hc⟩ := ih
    refine ⟨min r c, fun r' hr' ↦ ?_⟩
    rcases List.mem_cons.mp hr' with rfl | hr'
    · exact min_le_left _ _
    · exact (min_le_right _ _).trans (hc r' hr')

end Dockstack.Base
