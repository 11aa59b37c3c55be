import Dockstack.Server.StackName

/-!
# The guard on stack paths

What the string comparison of `isWithinStacksDir` (`internal/server/api/stacks.go:22–26`)
says about the paths: where it is the test for lying below, and where it is not.
-/

namespace Dockstack.Server

open Dockstack.Base

/-- The guard accepts `target` exactly when it is `base` or lies below it. -/
def GuardExact (base target : String) : Prop :=
  isWithinStacksDir base target = true ↔ Path.Within base target

/-- `base` is the current directory or the root and `target` lies properly below it: the
guard asks for the spelling `./…` or `//…`. -/
def RefusesBelow (base target : String) : Prop :=
  (Path.clean base = "." ∨ Path.clean base = "/") ∧
    (Path.parse target.toList).ups = 0 ∧ (Path.parse target.toList).names ≠ []

/-- `base` only goes up and `target` goes further up: its spelling goes on with `/..`. -/
def AcceptsAbove (base target : String) : Prop :=
  (Path.parse base.toList).names = [] ∧ 0 < (Path.parse base.toList).ups ∧
    (Path.parse base.toList).ups < (Path.parse target.toList).ups

instance (base target : String) : Decidable (RefusesBelow base target) := by
  unfold RefusesBelow
  infer_instance

instance (base target : String) : Decidable (AcceptsAbove base target) := by
  unfold AcceptsAbove
  infer_instance

/-- For paths of one kind the guard is exact unless it goes wrong in one of the two ways. -/
theorem guardExact_iff_of_isAbs_eq {base target : String}
    (h : Path.isAbs base = Path.isAbs target) :
    GuardExact base target ↔ ¬ RefusesBelow base target ∧ ¬ AcceptsAbove base target := by
  have hrooted : (Path.parse target.toList).rooted = (Path.parse base.toList).rooted := by
    rw [Path.rooted_parse, Path.rooted_parse, h]
  unfold GuardExact RefusesBelow AcceptsAbove
  rw [isWithinStacksDir_iff h, Path.within_iff_below, Path.Lexical.below_iff hrooted,
    Path.Lexical.comps_eq_append_iff, ← Path.comps_eq_nil_iff]
  generalize Path.parse base.toList = b
  generalize Path.parse target.toList = t
  have hcomps : b.comps = [] ↔ b.ups = 0 ∧ b.names = [] := by
    simp [Path.Lexical.comps]
  -- properly below: as many steps up, and more names
  have hnew : (t.ups = b.ups ∧ ∃ l, l ≠ [] ∧ t.names = b.names ++ l) → t ≠ b := by
    rintro ⟨-, l, hl, hnames⟩ rfl
    exact hl (List.self_eq_append_right.mp hnames)
  by_cases hb : b.comps = []
  · obtain ⟨hups, hnames⟩ := hcomps.mp hb
    have hbelow : (t.ups = b.ups ∧ ∃ l, l ≠ [] ∧ t.names = b.names ++ l) ↔
        t.ups = 0 ∧ t.names ≠ [] := by
      simp [hups, hnames]
    rw [hbelow] at hnew ⊢
    simp only [hb, hups, ne_eq, not_true_eq_false, false_and, or_false, true_and,
      lt_self_iff_false, and_false, not_false_eq_true, and_true]
    constructor
    · intro hexact hbelow
      exact hnew hbelow (hexact.mpr (.inr hbelow))
    · intro hnot
      rw [or_iff_left hnot]
  · have hfar : (b.names = [] ∧ b.ups < t.ups) ↔
        b.names = [] ∧ 0 < b.ups ∧ b.ups < t.ups := by
      apply and_congr_right
      intro hnames
      have hpos : 0 < b.ups := Nat.pos_of_ne_zero fun hups ↦ hb (hcomps.mpr ⟨hups, hnames⟩)
      exact (and_iff_right hpos).symm
    rw [← hfar]
    simp only [hb, ne_eq, not_false_eq_true, true_and, false_and]
    constructor
    · intro hexact habove
      rcases hexact.mp (.inr (.inl habove)) with rfl | hbelow
      · exact absurd habove.2 (lt_irrefl _)
      · exact absurd hbelow.1 habove.2.ne'
    · intro hnot
      rw [or_iff_right hnot]

/-- The guard is exact unless it refuses what lies below the current directory or the root, or
accepts what lies above. It lets a stack's directory pass exactly when the stacks directory is
neither of the two. -/
theorem guardExact_iff (base target : String) (h : Path.isAbs base = Path.isAbs target)
    (dir name : String) (hname : stackNameRe name = true) :
    (GuardExact base target ↔ ¬ RefusesBelow base target ∧ ¬ AcceptsAbove base target) ∧
      (isWithinStacksDir dir (Path.join [dir, name]) = true ↔
        Path.clean dir ≠ "." ∧ Path.clean dir ≠ "/") := by
  constructor
  · exact guardExact_iff_of_isAbs_eq h
  · exact isWithinStacksDir_join dir (isName_of_stackNameRe hname)

/-- For a stack in the default stacks directory the guard is exact, and lets it pass. -/
theorem guardExact_iff_default :
    GuardExact "./stacks" "stacks/app" ∧
      isWithinStacksDir "./stacks" (Path.join ["./stacks", "app"]) = true := by
  have hguard := guardExact_iff "./stacks" "stacks/app" (by decide) "./stacks" "app" (by decide)
  constructor
  · apply hguard.1.mpr
    decide +kernel
  · apply hguard.2.mpr
    decide +kernel

/-- The guard refuses a stack in the current directory, and accepts the parent of the parent as
lying in the parent. -/
theorem not_guardExact :
    (¬ ∀ base target, Path.isAbs base = Path.isAbs target → GuardExact base target) ∧
    ¬ ∀ dir name, stackNameRe name = true →
      isWithinStacksDir dir (Path.join [dir, name]) = true := by
  constructor
  · intro h
    have hexact := h ".." "../.." (by decide)
    have hbelow : ¬ Path.Within ".." "../.." := by
      rw [Path.within_iff_below]
      decide
    exact hbelow (hexact.mp (by decide +kernel))
  · intro h
    have haccepts := h "." "app" (by decide)
    have hrefuses : isWithinStacksDir "." (Path.join [".", "app"]) = false := by
      decide +kernel
    rw [hrefuses] at haccepts
    contradiction

end Dockstack.Server
