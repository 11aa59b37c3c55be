import Dockstack.Base.PathWithin
import Dockstack.Docker.ComposeProject

/-!
# Stack names

What the API accepts as a stack name, its guard on stack paths
(`internal/server/api/stacks.go:20–60`), and whether the names and the projects of
Docker Compose agree.
-/

namespace Dockstack.Server

open Dockstack.Base Dockstack.Docker

/-- A character of `[a-zA-Z0-9_-]`. -/
def isStackNameChar (c : Char) : Bool := c.isAlphanum || c == '_' || c == '-'

/-- `stackNameRe.MatchString`; `stacks.go:20`. -/
def stackNameRe (name : String) : Bool := name != "" && name.toList.all isStackNameChar

/-- `isWithinStacksDir`; `stacks.go:22–26`. -/
def isWithinStacksDir (base target : String) : Bool :=
  let base := Path.clean base
  let target := Path.clean target
  target == base || hasPrefix target (base ++ "/")

/-- The characters of an accepted name. -/
theorem mem_of_stackNameRe {name : String} (h : stackNameRe name = true) :
    ∀ c ∈ name.toList, c.isAlphanum = true ∨ c = '_' ∨ c = '-' := by
  intro c hc
  rw [stackNameRe, Bool.and_eq_true, List.all_eq_true] at h
  have hchar := h.2 c hc
  simpa only [isStackNameChar, Bool.or_eq_true, beq_iff_eq, or_assoc] using hchar

/-- An accepted name is an ordinary path component. -/
theorem isName_of_stackNameRe {name : String} (h : stackNameRe name = true) :
    Path.IsName name.toList := by
  have hchars := mem_of_stackNameRe h
  have hnot {c : Char} (hc : ¬ (c.isAlphanum = true ∨ c = '_' ∨ c = '-')) : c ∉ name.toList :=
    fun hmem ↦ hc (hchars c hmem)
  refine ⟨?_, hnot (by decide), ?_, ?_⟩
  · intro hnil
    rw [stackNameRe, Bool.and_eq_true, bne_iff_ne] at h
    exact h.1 (String.toList_inj.mp hnil)
  · intro hdot
    exact hnot (c := '.') (by decide) (hdot ▸ List.mem_cons_self)
  · intro hdots
    exact hnot (c := '.') (by decide) (hdots ▸ List.mem_cons_self)

/-- An accepted name does not start with a dot. -/
theorem not_hasPrefix_dot {name : String} (h : stackNameRe name = true) :
    hasPrefix name "." = false := by
  rw [Bool.eq_false_iff]
  intro hp
  obtain ⟨r, hr⟩ := hasPrefix_iff.mp hp
  have hdot : '.' ∈ name.toList := by rw [hr]; exact List.mem_append_left _ (by decide)
  have hfalse := mem_of_stackNameRe h '.' hdot
  revert hfalse
  decide

/-- What the guard compares, in normal form. -/
theorem isWithinStacksDir_iff {base target : String} (h : Path.isAbs base = Path.isAbs target) :
    isWithinStacksDir base target = true ↔
      Path.parse target.toList = Path.parse base.toList ∨
        ((Path.parse base.toList).comps ≠ [] ∧ ∃ l, l ≠ [] ∧
          (Path.parse target.toList).comps = (Path.parse base.toList).comps ++ l) := by
  have hrooted : (Path.parse target.toList).rooted = (Path.parse base.toList).rooted := by
    rw [Path.rooted_parse, Path.rooted_parse, h]
  have hslash : (Path.clean base ++ "/").toList = (Path.parse base.toList).render ++ ['/'] := by
    rw [String.toList_append, Path.clean, String.toList_ofList]
    rfl
  rw [isWithinStacksDir, Bool.or_eq_true, beq_iff_eq, Path.clean_eq_iff, hasPrefix,
    List.isPrefixOf_iff_prefix, hslash, Path.clean, String.toList_ofList,
    Path.Lexical.render_append_slash_isPrefix_iff hrooted]

/-- The guard lets a stack's directory pass unless the stacks directory is the current
directory or the root. -/
theorem isWithinStacksDir_join (dir : String) {name : String} (h : Path.IsName name.toList) :
    isWithinStacksDir dir (Path.join [dir, name]) = true ↔
      Path.clean dir ≠ "." ∧ Path.clean dir ≠ "/" := by
  have hparse := Path.parse_join_name dir h
  have habs : Path.isAbs dir = Path.isAbs (Path.join [dir, name]) := by
    rw [← Path.rooted_parse, ← Path.rooted_parse, hparse]
    rfl
  rw [isWithinStacksDir_iff habs, hparse, Path.Lexical.comps_child, ← not_or,
    ← Path.comps_eq_nil_iff]
  constructor
  · rintro (heq | ⟨hcomps, -⟩)
    · have hlonger := congrArg (fun p ↦ p.comps.length) heq
      simp at hlonger
    · exact hcomps
  · intro hcomps
    exact .inr ⟨hcomps, [name.toList], List.cons_ne_nil _ _, rfl⟩

end Dockstack.Server
