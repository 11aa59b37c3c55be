import Dockstack.Server.StackRename

/-!
# Destroying a stack

`handleStackDestroy` of `internal/server/api/stacks.go:313–330`. It brings the stack down
before anything else, and unlike `handleStackRename` also when there is no compose file.
-/

namespace Dockstack.Server

open Dockstack.Base Dockstack.Docker

variable {α : Type}

/-- What goes wrong during `handleStackDestroy`. -/
structure DestroyFaults where
  downFails : Bool
  removeFails : Bool

/-- `handleStackDestroy`; `stacks.go:313–330`. -/
def handleStackDestroy (s : Stacks) (w : World α) (name : String) (o : DestroyFaults) :
    Except ApiError Unit × World α :=
  match validateStackName name with
  | .error e => (.error e, w)
  | .ok () =>
    match runCompose s w name ["down"] o.downFails [] with
    | none => (.error ⟨500, "failed to bring stack down"⟩, w)
    | some w =>
      let dir := Path.join [s.stacksDir, name]
      if isWithinStacksDir s.stacksDir dir = false then
        (.error ⟨400, "invalid stack path"⟩, w)
      else
        match if o.removeFails then none else w.tree.removeAll (locate s.stacksDir dir) with
        | none => (.error ⟨500, "failed to remove stack directory"⟩, w)
        | some t => (.ok (), { w with tree := t })

/-- Nothing goes wrong during a destruction. -/
def noDestroyFaults : DestroyFaults := ⟨false, false⟩

/-- The stack is gone, and everything else is as it was. -/
structure Destroyed (w : World α) (name : String) (r : Except ApiError Unit × World α) : Prop where
  ok : r.1 = .ok ()
  gone : stackExists r.2.tree name = false
  others : ∀ n, n ≠ name → r.2.tree.get? n = w.tree.get? n

/-- Without a compose file the stack does not come down, and nothing is removed. -/
theorem handleStackDestroy_of_no_composeFile (s : Stacks) {w : World α} {name : String}
    (h : stackNameRe name = true) (hfile : composeFile? w.tree name = none) (o : DestroyFaults) :
    handleStackDestroy s w name o = (.error ⟨500, "failed to bring stack down"⟩, w) := by
  have hdown : runCompose s w name ["down"] o.downFails [] = none := by
    unfold runCompose
    split
    · rfl
    · next cmd hcmd =>
      unfold Stacks.composeCommand at hcmd
      rw [findComposePath_eq s w.tree (isName_of_stackNameRe h), hfile] at hcmd
      cases hcmd
  unfold handleStackDestroy validateStackName
  rw [if_pos h, hdown]

private theorem not_destroyed_of_error {w w' : World α} {name : String} (e : ApiError) :
    ¬ Destroyed w name (.error e, w') := by
  intro hdestroyed
  have hok := hdestroyed.ok
  contradiction

private theorem composeFile?_ne_none_iff {t : FileTree α} {name : String} :
    composeFile? t name ≠ none ↔ ∃ f ∈ composeFilenames, t.stat (.inner name f) = true := by
  rw [composeFile?, ne_eq, List.find?_eq_none]
  push Not
  rfl

/-- If nothing fails on its own, a stack is destroyed exactly when it has a compose file and the
guard lets its directory pass. -/
theorem destroyed_iff (s : Stacks) (w : World α) (name : String) (h : stackNameRe name = true) :
    Destroyed w name (handleStackDestroy s w name noDestroyFaults) ↔
      (∃ f ∈ composeFilenames, w.tree.stat (.inner name f) = true) ∧
        Path.clean s.stacksDir ≠ "." ∧ Path.clean s.stacksDir ≠ "/" := by
  have hname := isName_of_stackNameRe h
  rw [← composeFile?_ne_none_iff, ← isWithinStacksDir_join s.stacksDir hname]
  cases hfile : composeFile? w.tree name with
  | none =>
    rw [handleStackDestroy_of_no_composeFile s h hfile]
    apply iff_of_false
    · exact not_destroyed_of_error _
    · intro hboth
      exact hboth.1 rfl
  | some f =>
    have hpath : s.findComposePath w.tree name = .ok (Path.join [s.stackDir name, f]) := by
      rw [findComposePath_eq s w.tree hname, hfile]
    obtain ⟨w₁, hw₁⟩ := exists_runCompose hpath ["down"] []
    have htree := (runCompose_eq_some hname hw₁).2.1
    have hdown : runCompose s w name ["down"] noDestroyFaults.downFails [] = some w₁ := hw₁
    unfold handleStackDestroy validateStackName
    rw [if_pos h]
    dsimp only
    rw [hdown]
    dsimp only
    cases hguard : isWithinStacksDir s.stacksDir (Path.join [s.stacksDir, name]) with
    | false =>
      rw [if_pos rfl]
      apply iff_of_false
      · exact not_destroyed_of_error _
      · intro hboth
        exact Bool.false_ne_true hboth.2
    | true =>
      have hremove : (if noDestroyFaults.removeFails then none
          else w₁.tree.removeAll (locate s.stacksDir (Path.join [s.stacksDir, name]))) =
            some (w.tree.erase name) := by
        rw [if_neg (by decide), FileTree.locate_join _ hname, htree]
        rfl
      rw [if_neg (by decide), hremove]
      apply iff_of_true
      · refine ⟨rfl, ?_, ?_⟩
        · rw [Bool.eq_false_iff]
          intro hlisted
          obtain ⟨-, -, d, hd⟩ := (stackExists_iff _ name).mp hlisted
          rw [KeyMap.get?_erase, if_pos rfl] at hd
          cases hd
        · intro n hn
          exact (KeyMap.get?_erase w.tree name n).trans (if_neg hn)
      · exact ⟨Option.some_ne_none f, rfl⟩

/-- A stack with a compose file in the default directory can be destroyed. -/
theorem destroyed_iff_app :
    Destroyed demoWorld "app"
      (handleStackDestroy ⟨"./stacks", "", false⟩ demoWorld "app" noDestroyFaults) := by
  apply (destroyed_iff ⟨"./stacks", "", false⟩ demoWorld "app" (by decide)).mpr
  decide +kernel

/-- The stack that the create-env endpoint makes has no compose file and cannot be destroyed. -/
theorem not_destroyed_of_createEnv :
    ¬ ∀ (s : Stacks) (w : World Unit) (name : String), stackExists w.tree name = true →
      stackNameRe name = true →
      Destroyed w name (handleStackDestroy s w name noDestroyFaults) := by
  intro h
  let s : Stacks := ⟨"./stacks", "", false⟩
  let w : World Unit := ⟨(handleStackCreateEnv s ∅ "app" ⟨false, .done⟩).2, fun _ ↦ []⟩
  have hlisted : stackExists w.tree "app" = true := by
    decide +kernel
  have hfile : composeFile? w.tree "app" = none := by
    decide +kernel
  have hdestroyed := h s w "app" hlisted (by decide)
  rw [handleStackDestroy_of_no_composeFile s (by decide) hfile] at hdestroyed
  exact not_destroyed_of_error _ hdestroyed

end Dockstack.Server
