import Dockstack.Server.StackRename

/-!
# No clobbering

Which requests that create or rename stacks keep every file that existed before. Creation
asks `ListStacks` whether the stack exists, and `ListStacks` hides directories whose
names start with `_`; the starter `.env` is written without a look.
-/

namespace Dockstack.Server

open Dockstack.Base Dockstack.Docker

variable {α : Type}

/-- The three requests, each with what goes wrong during it. -/
inductive StackRequest where
  | create (name : String) (o : CreateFaults)
  | createEnv (name : String) (o : CreateEnvFaults)
  | rename (name newName : String) (o : RenameFaults)

/-- The stacks directory after a request. -/
def StackRequest.treeAfter (s : Stacks) (w : World α) : StackRequest → FileTree α
  | .create name o => (handleStackCreate s w.tree name o).2
  | .createEnv name o => (handleStackCreateEnv s w.tree name o).2
  | .rename name newName o => (handleStackRename s w name newName o).2.tree

/-- Where a request may have moved a directory: nowhere, or as the rename says. -/
def StackRequest.Moves (move : String → String) : StackRequest → Prop
  | .rename name newName _ => move = id ∨ move = fun n ↦ if n = name then newName else n
  | _ => move = id

/-- Every file has the content it had, under a rename at its moved path. -/
def StackRequest.NoClobber (s : Stacks) (w : World α) (req : StackRequest) : Prop :=
  ∃ move, req.Moves move ∧ w.tree.Keeps (req.treeAfter s w) move

/-- The write of `data` to `name/file` finds a file there and leaves something else in it. -/
def Overwrites (t : FileTree α) (name file data : String) (o : WriteOutcome) : Prop :=
  ∃ d c c', t.get? name = some (.dir d) ∧ d.get? file = some (.file c) ∧
    o.left data = some c' ∧ c' ≠ c

/-- The request gets to write over an existing file: `create` for a name that starts with `_`
and so hides its directory, `create-env` for any stack that has a `.env`. -/
def StackRequest.Clobbers (w : World α) : StackRequest → Prop
  | .create name o => stackNameRe name = true ∧ hasPrefix name "_" = true ∧
      o.listFails = false ∧ o.mkdirFails = false ∧
      Overwrites w.tree name "compose.yaml" (composeTemplate name) o.write
  | .createEnv name o => stackNameRe name = true ∧ o.mkdirFails = false ∧
      Overwrites w.tree name ".env" envTemplate o.write
  | .rename _ _ _ => False

private theorem isName_composeYaml : Path.IsName "compose.yaml".toList := by decide

private theorem isName_env : Path.IsName ".env".toList := by decide

private theorem keeps_mkdir_write {t t₁ : FileTree α} {name file data : String}
    {o : WriteOutcome} (h : t.mkdirAll (.top name) = some t₁) :
    t.Keeps (t₁.writeFile (.inner name file) data o).2 id ↔ ¬ Overwrites t name file data o := by
  by_cases hdir : ∃ d, t.get? name = some (.dir d)
  · obtain ⟨d, hd⟩ := hdir
    rw [FileTree.mkdirAll_of_dir hd] at h
    obtain rfl := Option.some.inj h
    exact t.keeps_writeFile_iff name file data o
  · rw [not_exists] at hdir
    refine iff_of_true ((FileTree.keeps_mkdirAll h).trans ?_) fun ⟨d, _, _, hd, _⟩ ↦ hdir d hd
    rw [FileTree.keeps_writeFile_iff]
    rintro ⟨d, c, c', hd, hf, -⟩
    rw [FileTree.get?_mkdirAll_of_ne_dir h hdir] at hd
    obtain rfl := Entry.dir.inj (Option.some.inj hd)
    contradiction

private theorem keeps_makeAndWrite_iff (s : Stacks) (t : FileTree α) {name file : String}
    (hname : Path.IsName name.toList) (hfile : Path.IsName file.toList) (data : String)
    (mkdirFails : Bool) (o : WriteOutcome) (mkdirDetail writeDetail : String) :
    t.Keeps (makeAndWrite s t name file data mkdirFails o mkdirDetail writeDetail).2 id ↔
      ¬ (mkdirFails = false ∧ Overwrites t name file data o) := by
  simp only [makeAndWrite, FileTree.locate_join _ hname, FileTree.locate_join_join _ hname hfile]
  cases mkdirFails with
  | true => simp [FileTree.Keeps.refl]
  | false =>
    simp only [Bool.false_eq_true, ↓reduceIte, true_and]
    split
    · next hnone =>
      apply iff_of_true (.refl t)
      rintro ⟨d, _, _, hd, _⟩
      rw [FileTree.mkdirAll_of_dir hd] at hnone
      contradiction
    · next t₁ hsome =>
      rw [← keeps_mkdir_write hsome]
      split <;> rfl

private theorem hasPrefix_of_not_stackExists {t : FileTree α} {name : String} {d : Folder α}
    (hvalid : stackNameRe name = true) (hnot : ¬ stackExists t name = true)
    (hd : t.get? name = some (.dir d)) : hasPrefix name "_" = true := by
  by_contra hp
  rw [Bool.not_eq_true] at hp
  exact hnot ((stackExists_iff t name).mpr ⟨not_hasPrefix_dot hvalid, hp, d, hd⟩)

private theorem keeps_create_iff (s : Stacks) (t : FileTree α) (name : String)
    (o : CreateFaults) :
    t.Keeps (handleStackCreate s t name o).2 id ↔
      ¬ (stackNameRe name = true ∧ hasPrefix name "_" = true ∧ o.listFails = false ∧
        o.mkdirFails = false ∧
          Overwrites t name "compose.yaml" (composeTemplate name) o.write) := by
  unfold handleStackCreate
  split
  · next h => exact iff_of_true (.refl t) (by simp [h])
  · next hvalid =>
    rw [Bool.not_eq_false] at hvalid
    split
    · next h => exact iff_of_true (.refl t) (by simp [h])
    · next hlist =>
      split
      · next hexists =>
        have hshown := ((stackExists_iff t name).mp hexists).2.1
        exact iff_of_true (.refl t) (by simp [hshown])
      · next hnot =>
        rw [keeps_makeAndWrite_iff s t (isName_of_stackNameRe hvalid) isName_composeYaml]
        apply not_congr
        constructor
        · rintro ⟨hmkdir, hover⟩
          have hhidden : hasPrefix name "_" = true := by
            obtain ⟨d, _, _, hd, _⟩ := hover
            exact hasPrefix_of_not_stackExists hvalid hnot hd
          exact ⟨hvalid, hhidden, Bool.not_eq_true _ ▸ hlist, hmkdir, hover⟩
        · rintro ⟨-, -, -, hmkdir, hover⟩
          exact ⟨hmkdir, hover⟩

private theorem keeps_createEnv_iff (s : Stacks) (t : FileTree α) (name : String)
    (o : CreateEnvFaults) :
    t.Keeps (handleStackCreateEnv s t name o).2 id ↔
      ¬ (stackNameRe name = true ∧ o.mkdirFails = false ∧
        Overwrites t name ".env" envTemplate o.write) := by
  unfold handleStackCreateEnv validateStackName
  by_cases hvalid : stackNameRe name = true
  · rw [if_pos hvalid]
    dsimp only
    rw [keeps_makeAndWrite_iff s t (isName_of_stackNameRe hvalid) isName_env]
    simp only [hvalid, true_and]
  · rw [if_neg hvalid]
    exact iff_of_true (.refl t) fun h ↦ hvalid h.1

private theorem exists_keeps_rename (s : Stacks) (w : World α) (name newName : String)
    (o : RenameFaults) :
    ∃ move : String → String, (move = id ∨ move = fun n ↦ if n = name then newName else n) ∧
      w.tree.Keeps (handleStackRename s w name newName o).2.tree move := by
  have heffect := handleStackRename_effect s w name newName o
  generalize handleStackRename s w name newName o = r at heffect ⊢
  cases heffect with
  | refused e answer why => exact ⟨id, .inl rfl, .refl w.tree⟩
  | same eq => exact ⟨id, .inl rfl, .refl w.tree⟩
  | stuck accepted w₁ down e answer fails =>
    refine ⟨id, .inl rfl, ?_⟩
    rw [bringDown_tree (isName_of_stackNameRe accepted.valid) down]
    exact .refl w.tree
  | moved accepted w₁ down goes w₂ rename res answer =>
    obtain ⟨-, -, d, hd⟩ := (stackExists_iff w.tree name).mp accepted.listed
    exact ⟨_, .inr rfl, FileTree.keeps_rename hd rename⟩

/-- A request keeps every file exactly when it does not get to write over one: a rename always
does, a creation unless the name hides an existing stack, a starter `.env` unless there is
one. -/
theorem noClobber_iff (s : Stacks) (w : World α) (req : StackRequest) :
    req.NoClobber s w ↔ ¬ req.Clobbers w := by
  cases req with
  | create name o =>
    simp only [StackRequest.NoClobber, StackRequest.Moves, exists_eq_left]
    exact keeps_create_iff s w.tree name o
  | createEnv name o =>
    simp only [StackRequest.NoClobber, StackRequest.Moves, exists_eq_left]
    exact keeps_createEnv_iff s w.tree name o
  | rename name newName o =>
    exact iff_of_true (exists_keeps_rename s w name newName o) not_false

/-- A hidden stack directory and a stack with secrets in its `.env`. -/
def clobberWorld : World Unit where
  tree := ((∅ : FileTree Unit).insert "_old"
      (.dir ((∅ : Folder Unit).insert "compose.yaml" (.file "services: {}\n")))).insert "app"
    (.dir ((∅ : Folder Unit).insert ".env" (.file "TOKEN=1\n")))
  running _ := []

/-- Creating `_old` replaces its compose file, and creating the `.env` of `app` its secrets. -/
theorem not_noClobber_of_hidden :
    (¬ ∀ (s : Stacks) (w : World Unit) (name : String) (o : CreateFaults),
      stackNameRe name = true → (StackRequest.create name o).NoClobber s w) ∧
    ¬ ∀ (s : Stacks) (w : World Unit) (name : String) (o : CreateEnvFaults),
      stackNameRe name = true → (StackRequest.createEnv name o).NoClobber s w := by
  constructor
  · intro h
    obtain ⟨_, rfl, hkeeps⟩ :=
      h ⟨"./stacks", "", false⟩ clobberWorld "_old" ⟨false, false, .done⟩ (by decide)
    exact (keeps_create_iff _ _ _ _).mp hkeeps ⟨by decide, by decide, rfl, rfl, _,
      "services: {}\n", composeTemplate "_old", rfl, rfl, rfl, by decide +kernel⟩
  · intro h
    obtain ⟨_, rfl, hkeeps⟩ :=
      h ⟨"./stacks", "", false⟩ clobberWorld "app" ⟨false, .done⟩ (by decide)
    exact (keeps_createEnv_iff _ _ _ _).mp hkeeps ⟨by decide, rfl, _, "TOKEN=1\n", envTemplate,
      rfl, rfl, rfl, by decide⟩

end Dockstack.Server
