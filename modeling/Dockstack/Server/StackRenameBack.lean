import Dockstack.Server.StackRename
import Mathlib.Data.Prod.Basic

/-!
# Taking a rename back

The handlers accept names that start with `_`, and `ListStacks` hides the directories that
bear them. Which renames can be taken back.
-/

namespace Dockstack.Server

open Dockstack.Base Dockstack.Docker

variable {α : Type} {s : Stacks} {w w' : World α} {name newName : String} {o : RenameFaults}

/-- Nothing goes wrong during a rename, and the renamed stack starts some services. -/
def RenameFaults.none (started : List String) : RenameFaults :=
  ⟨false, false, false, false, false, started⟩

private theorem exists_bringDown (hdown : o.downFails = false) :
    ∃ w₁, bringDown s w name o = some w₁ := by
  unfold bringDown
  split
  · exact ⟨w, rfl⟩
  · next path hpath =>
    rw [hdown]
    exact exists_runCompose hpath _ _

private theorem exists_startRenamed (hup : o.upFails = false) :
    ∃ w₁, startRenamed s w newName o = some w₁ := by
  unfold startRenamed
  split
  · exact ⟨w, rfl⟩
  · next path hpath =>
    rw [hup]
    exact exists_runCompose hpath _ _

/-- An accepted rename succeeds if the compose commands do and the directory can be moved. -/
theorem handleStackRename_of_accepted (hacc : RenameAccepted w name newName o)
    (hgoes : ¬ MoveFails s w.tree newName o) (hdown : o.downFails = false)
    (hup : o.upFails = false) : (handleStackRename s w name newName o).1 = .ok () := by
  have hname := isName_of_stackNameRe hacc.valid
  have hnewName := isName_of_stackNameRe hacc.newValid
  obtain ⟨-, -, d, hd⟩ := (stackExists_iff w.tree name).mp hacc.listed
  unfold MoveFails at hgoes
  rw [not_or, not_or, not_or, not_not, Bool.not_eq_true] at hgoes
  obtain ⟨hdir, hrename, hfree⟩ := hgoes
  obtain ⟨w₁, hw₁⟩ : ∃ w₁, bringDown s w name o = some w₁ := exists_bringDown hdown
  have htree := bringDown_tree hname hw₁
  have hmove : w₁.tree.rename (.top name) (.top newName) =
      some ((w.tree.erase name).insert newName (.dir d)) := by
    simp only [FileTree.rename, htree, hd, hfree]
  obtain ⟨w₂, hw₂⟩ : ∃ w₂, startRenamed s
      { w₁ with tree := (w.tree.erase name).insert newName (.dir d) } newName o = some w₂ :=
    exists_startRenamed hup
  have hguard {n : String} (hn : Path.IsName n.toList) :
      isWithinStacksDir s.stacksDir (Path.join [s.stacksDir, n]) = true :=
    (isWithinStacksDir_join s.stacksDir hn).mpr hdir
  have hmoved : moveStack s w₁ name newName o = (.ok (), w₂) := by
    unfold moveStack
    dsimp only
    rw [hguard hname, hguard hnewName, if_neg (by simp), hrename,
      FileTree.locate_join _ hname, FileTree.locate_join _ hnewName, hmove]
    rw [if_neg Bool.false_ne_true]
    dsimp only
    rw [hw₂]
  unfold handleStackRename validateStackName
  rw [if_pos hacc.valid]
  dsimp only
  rw [hacc.newValid, hacc.listOk, hacc.listed, hacc.newListOk, hacc.notListed, if_neg (by simp),
    if_neg hacc.distinct, if_neg (by simp), if_neg (by simp), if_neg (by simp), if_neg (by simp),
    hw₁]
  dsimp only
  rw [hmoved]

/-- The rename can be taken back: the new name is listed and the old one is not, everything else
is as it was, and renaming back succeeds and restores the tree. -/
structure RenameTakenBack (s : Stacks) (w w' : World α) (name newName : String) : Prop where
  listed : stackExists w'.tree newName = true
  gone : stackExists w'.tree name = false
  others : ∀ n, n ≠ name → n ≠ newName → w'.tree.get? n = w.tree.get? n
  back : ∀ started, (handleStackRename s w' newName name (.none started)).1 = .ok () ∧
    ∀ n, (handleStackRename s w' newName name (.none started)).2.tree.get? n = w.tree.get? n

/-- A rename that succeeded can be taken back exactly when the new name does not start with
`_`. -/
theorem renameTakenBack_iff (hne : newName ≠ name)
    (h : handleStackRename s w name newName o = (.ok (), w')) :
    RenameTakenBack s w w' name newName ↔ hasPrefix newName "_" = false := by
  have heffect := handleStackRename_effect s w name newName o
  rw [h] at heffect
  cases heffect with
  | same eq => exact absurd eq hne
  | moved accepted w₁ down goes _ rename _ answer =>
    obtain ⟨-, hvisible, d, hd⟩ := (stackExists_iff w.tree name).mp accepted.listed
    obtain ⟨hfree, htree⟩ := FileTree.rename_dir hd rename
    have hold : w'.tree.get? name = none := by
      rw [htree, KeyMap.get?_insert, if_neg hne.symm, KeyMap.get?_erase, if_pos rfl]
    have hnew : w'.tree.get? newName = some (.dir d) := by
      rw [htree, KeyMap.get?_insert, if_pos rfl]
    have hothers (n : String) (hn : n ≠ name) (hn' : n ≠ newName) :
        w'.tree.get? n = w.tree.get? n := by
      rw [htree, KeyMap.get?_insert, if_neg hn', KeyMap.get?_erase, if_neg hn]
    have hgone : stackExists w'.tree name = false := by
      rw [Bool.eq_false_iff]
      intro hlisted
      obtain ⟨-, -, d', hd'⟩ := (stackExists_iff w'.tree name).mp hlisted
      rw [hold] at hd'
      contradiction
    constructor
    · intro hback
      exact ((stackExists_iff w'.tree newName).mp hback.listed).2.1
    · intro hshown
      have hlisted : stackExists w'.tree newName = true :=
        (stackExists_iff w'.tree newName).mpr
          ⟨not_hasPrefix_dot accepted.newValid, hshown, d, hnew⟩
      refine ⟨hlisted, hgone, hothers, fun started ↦ ?_⟩
      have hacc : RenameAccepted w' newName name (.none started) :=
        ⟨accepted.newValid, accepted.valid, hne.symm, rfl, hlisted, rfl, hgone⟩
      have hgoes : ¬ MoveFails s w'.tree name (.none started) := by
        rintro (hdir | hfails | htaken)
        · exact goes (.inl hdir)
        · contradiction
        · exact htaken hold
      have hok := handleStackRename_of_accepted hacc hgoes rfl rfl
      apply And.intro hok
      intro n
      have heffect := handleStackRename_effect s w' newName name (.none started)
      generalize handleStackRename s w' newName name (.none started) = r at heffect hok ⊢
      cases heffect with
      | refused e answer why => contradiction
      | same eq => exact absurd eq.symm hne
      | stuck accepted w₁ down e answer fails => contradiction
      | moved accepted' w₁ down goes w₂ rename res answer =>
        obtain ⟨-, hback⟩ := FileTree.rename_dir hnew rename
        rw [hback, KeyMap.get?_insert, KeyMap.get?_erase]
        by_cases hn : n = name
        · rw [if_pos hn, hn, hd]
        · rw [if_neg hn]
          by_cases hn' : n = newName
          · rw [if_pos hn', hn', hfree]
          · rw [if_neg hn', hothers n hn hn']

private theorem get?_demoWorld {n : String} (h : n ≠ "app") : demoWorld.tree.get? n = none := by
  rw [demoWorld, KeyMap.get?_insert, if_neg h, KeyMap.get?_empty]

private theorem stackExists_app : stackExists demoWorld.tree "app" = true :=
  (stackExists_iff _ _).mpr ⟨by decide, by decide, _, rfl⟩

private theorem handleStackRename_app {newName : String} (hvalid : stackNameRe newName = true)
    (hne : newName ≠ "app") :
    (handleStackRename ⟨"./stacks", "", false⟩ demoWorld "app" newName (.none [])).1 = .ok () := by
  have hfree := get?_demoWorld hne
  have hnotListed : stackExists demoWorld.tree newName = false := by
    rw [Bool.eq_false_iff]
    intro h
    obtain ⟨-, -, d, hd⟩ := (stackExists_iff _ _).mp h
    rw [hfree] at hd
    contradiction
  have hacc : RenameAccepted demoWorld "app" newName (.none []) :=
    ⟨by decide, hvalid, hne, rfl, stackExists_app, rfl, hnotListed⟩
  apply handleStackRename_of_accepted hacc _ rfl rfl
  rintro (hdir | hfails | htaken)
  · revert hdir
    decide +kernel
  · contradiction
  · exact htaken hfree

/-- The rename of `app` to `blog` can be taken back. -/
theorem renameTakenBack_iff_blog :
    RenameTakenBack ⟨"./stacks", "", false⟩ demoWorld
      (handleStackRename ⟨"./stacks", "", false⟩ demoWorld "app" "blog" (.none [])).2
      "app" "blog" := by
  have hok : (handleStackRename ⟨"./stacks", "", false⟩ demoWorld "app" "blog" (.none [])).1 =
      .ok () := handleStackRename_app (by decide) (by decide)
  apply (renameTakenBack_iff (by decide) (Prod.fst_eq_iff.mp hok)).mpr
  decide

/-- After the rename of `app` to `_app` the stack is not listed. -/
theorem not_renameTakenBack_of_hidden :
    ¬ ∀ (s : Stacks) (w w' : World Unit) (name newName : String) (o : RenameFaults),
      stackExists w.tree name = true → newName ≠ name → w.tree.get? newName = none →
      handleStackRename s w name newName o = (.ok (), w') →
      RenameTakenBack s w w' name newName := by
  intro h
  obtain ⟨w', hrenamed⟩ : ∃ w', handleStackRename ⟨"./stacks", "", false⟩ demoWorld "app" "_app"
      (.none []) = (.ok (), w') :=
    ⟨_, Prod.fst_eq_iff.mp (handleStackRename_app (by decide) (by decide))⟩
  have hback := h _ demoWorld w' "app" "_app" _ stackExists_app (by decide)
    (get?_demoWorld (by decide)) hrenamed
  obtain ⟨-, hvisible, -⟩ := (stackExists_iff w'.tree "_app").mp hback.listed
  revert hvisible
  decide

end Dockstack.Server
