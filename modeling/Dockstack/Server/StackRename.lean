import Dockstack.Server.StackHandlers

/-!
# What a rename does

Everything `handleStackRename` can do to the stacks directory and to the running
services, and when a failed rename leaves both as they were.
-/

namespace Dockstack.Server

open Dockstack.Base Dockstack.Docker

variable {α : Type} {s : Stacks} {w w' : World α} {name newName : String} {o : RenameFaults}

/-- The request gets past every check: the handler goes on to bring the stack down. -/
structure RenameAccepted (w : World α) (name newName : String) (o : RenameFaults) : Prop where
  valid : stackNameRe name = true
  newValid : stackNameRe newName = true
  distinct : newName ≠ name
  listOk : o.listFails = false
  listed : stackExists w.tree name = true
  newListOk : o.newListFails = false
  notListed : stackExists w.tree newName = false

/-- The directory cannot be moved: the guard refuses every stack of this stacks directory,
`os.Rename` fails on its own, or the new name is taken by an entry that is not listed. -/
def MoveFails (s : Stacks) (t : FileTree α) (newName : String) (o : RenameFaults) : Prop :=
  (Path.clean s.stacksDir = "." ∨ Path.clean s.stacksDir = "/") ∨ o.renameFails = true ∨
    t.get? newName ≠ none

/-- Everything a rename request can do. -/
inductive RenameEffect (s : Stacks) (w : World α) (name newName : String) (o : RenameFaults) :
    Except ApiError Unit × World α → Prop where
  | refused (e : ApiError) (answer : e ≠ renamedNotStarted)
      (why : RenameAccepted w name newName o → bringDown s w name o = none) :
      RenameEffect s w name newName o (.error e, w)
  | same (eq : newName = name) : RenameEffect s w name newName o (.ok (), w)
  | stuck (accepted : RenameAccepted w name newName o) (w₁ : World α)
      (down : bringDown s w name o = some w₁) (e : ApiError) (answer : e ≠ renamedNotStarted)
      (fails : MoveFails s w.tree newName o) : RenameEffect s w name newName o (.error e, w₁)
  | moved (accepted : RenameAccepted w name newName o) (w₁ : World α)
      (down : bringDown s w name o = some w₁) (goes : ¬ MoveFails s w.tree newName o)
      (w₂ : World α) (rename : w.tree.rename (.top name) (.top newName) = some w₂.tree)
      (res : Except ApiError Unit) (answer : res = .ok () ∨ res = .error renamedNotStarted) :
      RenameEffect s w name newName o (res, w₂)

/-- A compose command that succeeds changes the running services of its own project only. -/
theorem runCompose_eq_some {args services : List String} {fails : Bool}
    (hname : Path.IsName name.toList)
    (h : runCompose s w name args fails services = some w') :
    fails = false ∧ w'.tree = w.tree ∧
      w'.running = Function.update w.running (normalizeProjectName name) services := by
  unfold runCompose at h
  split at h
  · contradiction
  · next cmd hcmd =>
    split at h
    · contradiction
    · next hfails =>
      obtain rfl := Option.some.inj h
      rw [composeProject_composeCommand hname hcmd]
      exact ⟨Bool.eq_false_iff.mpr hfails, rfl, rfl⟩

/-- A compose command runs where a compose file is found. -/
theorem exists_runCompose {path : String} (h : s.findComposePath w.tree name = .ok path)
    (args services : List String) : ∃ w', runCompose s w name args false services = some w' := by
  unfold runCompose
  rw [composeCommand_of_findComposePath h]
  exact ⟨_, rfl⟩

/-- Bringing a stack down leaves the files alone, and everything if it has no compose file. -/
theorem bringDown_tree (hname : Path.IsName name.toList) (h : bringDown s w name o = some w') :
    w'.tree = w.tree := by
  unfold bringDown at h
  split at h
  · obtain rfl := Option.some.inj h
    rfl
  · exact (runCompose_eq_some hname h).2.1

/-- Starting a stack leaves the files alone. -/
theorem startRenamed_tree (hname : Path.IsName newName.toList)
    (h : startRenamed s w newName o = some w') : w'.tree = w.tree := by
  unfold startRenamed at h
  split at h
  · obtain rfl := Option.some.inj h
    rfl
  · exact (runCompose_eq_some hname h).2.1

private theorem moveStack_effect {w₁ : World α} (hacc : RenameAccepted w name newName o)
    (hdown : bringDown s w name o = some w₁) :
    RenameEffect s w name newName o (moveStack s w₁ name newName o) := by
  have hname := isName_of_stackNameRe hacc.valid
  have hnewName := isName_of_stackNameRe hacc.newValid
  have htree := bringDown_tree hname hdown
  obtain ⟨-, -, d, hd⟩ := (stackExists_iff w.tree name).mp hacc.listed
  unfold moveStack
  dsimp only
  split
  · next hguard =>
    refine .stuck hacc w₁ hdown _ (by decide) (.inl ?_)
    by_contra hdir
    rw [not_or] at hdir
    rcases hguard with hg | hg
    · rw [(isWithinStacksDir_join s.stacksDir hname).mpr hdir] at hg
      contradiction
    · rw [(isWithinStacksDir_join s.stacksDir hnewName).mpr hdir] at hg
      contradiction
  · next hguard =>
    rw [not_or, Bool.not_eq_false, Bool.not_eq_false] at hguard
    have hdir := (isWithinStacksDir_join s.stacksDir hname).mp hguard.1
    rw [FileTree.locate_join _ hname, FileTree.locate_join _ hnewName, htree]
    split
    · next hnone =>
      refine .stuck hacc w₁ hdown _ (by decide) (.inr ?_)
      split at hnone
      · next hfails => exact .inl hfails
      · refine .inr fun hfree ↦ ?_
        simp only [FileTree.rename, hd, hfree, reduceCtorEq] at hnone
    · next t hsome =>
      split at hsome
      · contradiction
      · next hfails =>
        have hfree := (FileTree.rename_dir hd hsome).1
        have hgoes : ¬ MoveFails s w.tree newName o := by
          rintro (hbad | hbad | hbad)
          · exact hbad.elim hdir.1 hdir.2
          · exact hfails hbad
          · exact hbad hfree
        split
        · exact .moved hacc w₁ hdown hgoes _ hsome _ (.inr rfl)
        · next w₂ hstart =>
          have htree₂ := startRenamed_tree hnewName hstart
          exact .moved hacc w₁ hdown hgoes w₂ (by rw [htree₂]; exact hsome) _ (.inl rfl)

/-- Every answer of the handler is one of the effects. -/
theorem handleStackRename_effect (s : Stacks) (w : World α) (name newName : String)
    (o : RenameFaults) :
    RenameEffect s w name newName o (handleStackRename s w name newName o) := by
  unfold handleStackRename validateStackName
  by_cases hvalid : stackNameRe name = true
  · rw [if_pos hvalid]
    dsimp only
    split
    · next h => exact .refused _ (by decide) fun hacc ↦ absurd hacc.newValid (by simp [h])
    · next hnew =>
      split
      · next h => exact .same h
      · next hne =>
        split
        · next h => exact .refused _ (by decide) fun hacc ↦ absurd hacc.listOk (by simp [h])
        · next hlist =>
          split
          · next h => exact .refused _ (by decide) fun hacc ↦ absurd hacc.listed (by simp [h])
          · next hlisted =>
            split
            · next h =>
              exact .refused _ (by decide) fun hacc ↦ absurd hacc.newListOk (by simp [h])
            · next hnewList =>
              split
              · next h =>
                exact .refused _ (by decide) fun hacc ↦ absurd hacc.notListed (by simp [h])
              · next hnotListed =>
                rw [Bool.not_eq_false] at hnew hlisted
                rw [Bool.not_eq_true] at hlist hnewList hnotListed
                split
                · next hdown => exact .refused _ (by decide) fun _ ↦ hdown
                · next w₁ hdown =>
                  exact moveStack_effect
                    ⟨hvalid, hnew, hne, hlist, hlisted, hnewList, hnotListed⟩ hdown
  · rw [if_neg hvalid]
    exact .refused _ (by decide) fun hacc ↦ absurd hacc.valid hvalid

/-- The old directory is gone and the new one holds its files. -/
def Renamed (w w' : World α) (name newName : String) : Prop :=
  ∃ d, w.tree.get? name = some (.dir d) ∧ w'.tree.get? name = none ∧
    w'.tree.get? newName = some (.dir d)

/-- The files are as before, and what was running in the stack's project still is. -/
def Untouched (w w' : World α) (name : String) : Prop :=
  w'.tree = w.tree ∧ ∀ service ∈ w.running (normalizeProjectName name),
    service ∈ w'.running (normalizeProjectName name)

/-- A rename either happened, which success and the one later error say, or did nothing. -/
def RenameAtomic (w : World α) (name newName : String) :
    Except ApiError Unit × World α → Prop
  | (.ok (), w') => Renamed w w' name newName
  | (.error e, w') =>
    if e = renamedNotStarted then Renamed w w' name newName else Untouched w w' name

/-- A stack with running services is brought down and then cannot be moved. -/
structure DownForNothing (s : Stacks) (w : World α) (name newName : String) (o : RenameFaults) :
    Prop where
  accepted : RenameAccepted w name newName o
  compose : ∃ path, s.findComposePath w.tree name = .ok path
  downOk : o.downFails = false
  running : w.running (normalizeProjectName name) ≠ []
  fails : MoveFails s w.tree newName o

private theorem bringDown_of_compose {path : String}
    (hpath : s.findComposePath w.tree name = .ok path) (hdown : o.downFails = false) :
    bringDown s w name o ≠ none := by
  obtain ⟨w', hw'⟩ := exists_runCompose hpath ["down"] []
  unfold bringDown
  rw [hpath, hdown]
  dsimp only
  rw [hw']
  exact Option.some_ne_none w'

private theorem bringDown_running (hname : Path.IsName name.toList)
    (h : bringDown s w name o = some w') :
    (w' = w ∧ ¬ ∃ path, s.findComposePath w.tree name = .ok path) ∨
      ((∃ path, s.findComposePath w.tree name = .ok path) ∧ o.downFails = false ∧
        w'.running (normalizeProjectName name) = []) := by
  unfold bringDown at h
  split at h
  · next e he =>
    obtain rfl := Option.some.inj h
    refine .inl ⟨rfl, ?_⟩
    rintro ⟨path, hpath⟩
    rw [he] at hpath
    contradiction
  · next path hpath =>
    obtain ⟨hdown, -, hrunning⟩ := runCompose_eq_some hname h
    exact .inr ⟨⟨path, hpath⟩, hdown, by rw [hrunning, Function.update_self]⟩

private theorem renamed_of_rename {t : FileTree α} (hne : newName ≠ name)
    (hlisted : stackExists w.tree name = true)
    (hrename : w.tree.rename (.top name) (.top newName) = some t) (hw' : w'.tree = t) :
    Renamed w w' name newName := by
  obtain ⟨-, -, d, hd⟩ := (stackExists_iff w.tree name).mp hlisted
  obtain ⟨-, rfl⟩ := FileTree.rename_dir hd hrename
  refine ⟨d, hd, ?_, ?_⟩
  · rw [hw', KeyMap.get?_insert, if_neg hne.symm, KeyMap.get?_erase, if_pos rfl]
  · rw [hw', KeyMap.get?_insert, if_pos rfl]

/-- A rename of a stack to another name is atomic exactly when it does not bring running
services down for a move that cannot succeed. -/
theorem renameAtomic_iff (s : Stacks) (w : World α) (name newName : String) (o : RenameFaults)
    (hne : newName ≠ name) :
    RenameAtomic w name newName (handleStackRename s w name newName o) ↔
      ¬ DownForNothing s w name newName o := by
  have heffect := handleStackRename_effect s w name newName o
  generalize handleStackRename s w name newName o = r at heffect ⊢
  cases heffect with
  | refused e answer why =>
    rw [RenameAtomic, if_neg answer]
    refine iff_of_true ⟨rfl, fun _ h ↦ h⟩ fun h ↦ ?_
    obtain ⟨path, hpath⟩ := h.compose
    exact bringDown_of_compose hpath h.downOk (why h.accepted)
  | same eq => exact absurd eq hne
  | stuck accepted w₁ down e answer fails =>
    have hname := isName_of_stackNameRe accepted.valid
    rw [RenameAtomic, if_neg answer]
    rcases bringDown_running hname down with ⟨rfl, hnone⟩ | ⟨hpath, hdown, hrunning⟩
    · exact iff_of_true ⟨rfl, fun _ h ↦ h⟩ fun h ↦ hnone h.compose
    · rw [Untouched, hrunning]
      constructor
      · intro h hlost
        obtain ⟨service, hservice⟩ := List.exists_mem_of_ne_nil _ hlost.running
        exact absurd (h.2 service hservice) List.not_mem_nil
      · intro h
        refine ⟨bringDown_tree hname down, fun service hservice ↦ absurd ?_ h⟩
        exact ⟨accepted, hpath, hdown, List.ne_nil_of_mem hservice, fails⟩
  | moved accepted w₁ down goes w₂ rename res answer =>
    have hmoved : Renamed w w₂ name newName :=
      renamed_of_rename hne accepted.listed rename rfl
    refine iff_of_true ?_ fun h ↦ goes h.fails
    rcases answer with rfl | rfl
    · exact hmoved
    · rw [RenameAtomic, if_pos rfl]
      exact hmoved

/-- One stack, `app`, with a running service. -/
def demoWorld : World Unit where
  tree := (∅ : FileTree Unit).insert "app"
    (.dir ((∅ : Folder Unit).insert "compose.yaml" (.file "services: {}\n")))
  running project := if project = "app" then ["web"] else []

/-- Nothing fails on its own; the renamed stack starts its service again. -/
def noRenameFaults : RenameFaults := ⟨false, false, false, false, false, ["web"]⟩

/-- In the default stacks directory the rename happens. -/
theorem renameAtomic_iff_default :
    RenameAtomic demoWorld "app" "blog"
      (handleStackRename ⟨"./stacks", "", false⟩ demoWorld "app" "blog" noRenameFaults) := by
  refine (renameAtomic_iff ⟨"./stacks", "", false⟩ demoWorld "app" "blog" noRenameFaults
    (by decide)).mpr fun h ↦ ?_
  rcases h.fails with (hbad | hbad) | hbad | hbad
  · exact absurd hbad (by decide +kernel)
  · exact absurd hbad (by decide +kernel)
  · exact absurd hbad (by decide)
  · exact hbad (by decide +kernel)

/-- With the current directory as stacks directory the guard refuses the move when the
services are already down. -/
theorem not_renameAtomic_of_currentDir :
    ¬ ∀ (s : Stacks) (w : World Unit) (name newName : String) (o : RenameFaults),
      stackNameRe name = true → stackNameRe newName = true → newName ≠ name →
      RenameAtomic w name newName (handleStackRename s w name newName o) := by
  intro h
  have hatomic := h ⟨".", "", false⟩ demoWorld "app" "blog" noRenameFaults (by decide)
    (by decide) (by decide)
  have hanswer : (handleStackRename ⟨".", "", false⟩ demoWorld "app" "blog" noRenameFaults).1 =
      .error ⟨400, "invalid stack path"⟩ := by decide +kernel
  have hrunning : (handleStackRename ⟨".", "", false⟩ demoWorld "app" "blog"
      noRenameFaults).2.running "app" = [] := by decide +kernel
  generalize handleStackRename ⟨".", "", false⟩ demoWorld "app" "blog" noRenameFaults = r at *
  obtain ⟨res, w'⟩ := r
  obtain rfl := hanswer
  have hlost := hatomic.2 "web"
  rw [show normalizeProjectName "app" = "app" by decide +kernel, hrunning] at hlost
  exact absurd (hlost (by decide)) List.not_mem_nil

end Dockstack.Server
