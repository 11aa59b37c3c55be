import Dockstack.Server.StackFileHandlers

/-!
# Where a save writes

Whether the checks of `handleStackFilesSave` keep its write in the stack's directory. That
the name is its own last element excludes all but names, `.`, `..` and `/`; the guard
excludes `..`.
-/

namespace Dockstack.Server

open Dockstack.Base Dockstack.Docker

/-- `path` is one component below `dir`. -/
def DirectChild (dir path : String) : Prop :=
  ∃ c h, Path.parse path.toList = (Path.parse dir.toList).child c h

private theorem not_directChild_self (dir : String) : ¬ DirectChild dir dir := by
  rintro ⟨c, h, heq⟩
  have hlength := congrArg (fun p : Path.Lexical ↦ p.names.length) heq
  simp [Path.Lexical.child] at hlength

/-- Every save with this composeFile that gets as far as its write writes a direct child of the
stack's directory, unless the composeFile is `.` or `/`. -/
theorem saveTarget_directChild_iff (s : Stacks) (name f : String) (h : stackNameRe name = true) :
    (∀ compose env path, saveTarget s name ⟨f, compose, env⟩ = .ok path →
      DirectChild (s.stackDir name) path) ↔ f ≠ "." ∧ f ≠ "/" := by
  constructor
  · intro hchild
    rw [← not_or]
    intro hf
    apply not_directChild_self (s.stackDir name)
    exact hchild "services: {}\n" none _ (saveTarget_dir s h hf (by decide) none)
  · rintro ⟨hdot, hslash⟩ compose env path hpath
    obtain ⟨-, -, hcases⟩ := saveTarget_cases hpath
    rcases hcases with ⟨hf, rfl⟩ | ⟨hf, -⟩
    · exact ⟨f.toList, hf, Path.parse_join_name _ hf⟩
    · exact absurd hf (not_or.mpr ⟨hdot, hslash⟩)

/-- In the default stacks directory `compose.yaml` is written where it belongs. -/
theorem saveTarget_directChild_iff_default :
    DirectChild (Stacks.stackDir ⟨"./stacks", "", false⟩ "app") "stacks/app/compose.yaml" := by
  apply (saveTarget_directChild_iff ⟨"./stacks", "", false⟩ "app" "compose.yaml" (by decide)).mpr
    ⟨by decide, by decide⟩ "services: {}\n" none
  decide +kernel

/-- With the composeFile `.` the path that is written is the stack's directory. -/
theorem not_saveTarget_directChild :
    ¬ ∀ (s : Stacks) (name f compose : String) (env : Option String) (path : String),
      stackNameRe name = true → saveTarget s name ⟨f, compose, env⟩ = .ok path →
      DirectChild (s.stackDir name) path := by
  intro h
  apply not_directChild_self (Stacks.stackDir ⟨"./stacks", "", false⟩ "app")
  apply h ⟨"./stacks", "", false⟩ "app" "." "services: {}\n" none _ (by decide)
  decide +kernel

end Dockstack.Server
