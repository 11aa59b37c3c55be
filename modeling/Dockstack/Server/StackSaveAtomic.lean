import Dockstack.Server.StackFileHandlers
import Mathlib.Data.Prod.Basic

/-!
# Failed saves

A save truncates and writes the compose file, then the environment file, and puts nothing
back when one of the writes fails. Which failed saves leave both files as they were.
-/

namespace Dockstack.Server

open Dockstack.Base Dockstack.Docker

variable {α : Type}

/-- Where the compose file of a request is. -/
def composeLoc (s : Stacks) (name : String) (req : StackFilesSaveRequest) : Loc :=
  locate s.stacksDir (Path.join [s.stacksDir, name, req.composeFile])

/-- Where the environment file is. -/
def envLoc (s : Stacks) (name : String) : Loc := locate s.stacksDir (envTarget s name)

/-- If a save fails, the compose file and the environment file are as they were. -/
def SaveAtomic (s : Stacks) (t : FileTree α) (name : String) (req : StackFilesSaveRequest) :
    Except ApiError StackFilesSaveResponse × FileTree α → Prop
  | (.ok _, _) => True
  | (.error _, t') => t'.look (composeLoc s name req) = t.look (composeLoc s name req) ∧
      t'.look (envLoc s name) = t.look (envLoc s name)

/-- The write of `data` gets at the file and leaves something else in it than was there. -/
def Spoils (t : FileTree α) (loc : Loc) (data : String) (o : WriteOutcome) : Prop :=
  t.writable loc = true ∧ ∃ content, o.left data = some content ∧ t.look loc ≠ .file content

/-- The write of the compose file is cut off, and what is left is not what was there. -/
def ComposeSpoilt (s : Stacks) (t : FileTree α) (name : String) (req : StackFilesSaveRequest)
    (o : FilesSaveFaults) : Prop :=
  o.compose ≠ .done ∧ Spoils t (composeLoc s name req) req.compose o.compose

/-- The compose file is written, then the write of the environment file fails, and one of the two
is not what it was; with the composeFile `.env` they are one file. -/
structure EnvMissed (s : Stacks) (t : FileTree α) (name : String) (req : StackFilesSaveRequest)
    (o : FilesSaveFaults) (env : String) : Prop where
  written : t.writable (composeLoc s name req) = true ∧ o.compose = .done
  given : req.env = some env
  fails : ¬ (t.writable (envLoc s name) = true ∧ o.env = .done)
  differs : if composeLoc s name req = envLoc s name then
      t.look (envLoc s name) ≠ .file ((o.env.left env).getD req.compose)
    else t.look (composeLoc s name req) ≠ .file req.compose ∨ Spoils t (envLoc s name) env o.env

/-- A save gets to its writes, and they end half-way. -/
def HalfSaved (s : Stacks) (t : FileTree α) (name : String) (req : StackFilesSaveRequest)
    (o : FilesSaveFaults) : Prop :=
  (∃ path, saveTarget s name req = .ok path) ∧
    (ComposeSpoilt s t name req o ∨ ∃ env, EnvMissed s t name req o env)

private theorem look_writeFile_eq_iff (t : FileTree α) (loc : Loc) (data : String)
    (o : WriteOutcome) :
    (t.writeFile loc data o).2.look loc = t.look loc ↔ ¬ Spoils t loc data o := by
  rw [FileTree.look_writeFile, Spoils]
  by_cases hw : t.writable loc = true
  · rw [if_pos ⟨hw, rfl⟩]
    cases o.left data with
    | none => simp
    | some content => simp [hw, eq_comm]
  · simp [hw]

private theorem envMissed_iff {s : Stacks} {t : FileTree α} {name : String}
    {req : StackFilesSaveRequest} {o : FilesSaveFaults} {env : String}
    (hwritten : t.writable (composeLoc s name req) = true ∧ o.compose = .done)
    (hgiven : req.env = some env)
    (hfails : ¬ (t.writable (envLoc s name) = true ∧ o.env = .done)) :
    EnvMissed s t name req o env ↔
      ¬ ((((t.put req.compose (composeLoc s name req)).writeFile (envLoc s name) env
            o.env).2.look (composeLoc s name req) = t.look (composeLoc s name req)) ∧
          ((t.put req.compose (composeLoc s name req)).writeFile (envLoc s name) env
            o.env).2.look (envLoc s name) = t.look (envLoc s name)) := by
  have hmissed : EnvMissed s t name req o env ↔
      if composeLoc s name req = envLoc s name then
        t.look (envLoc s name) ≠ .file ((o.env.left env).getD req.compose)
      else t.look (composeLoc s name req) ≠ .file req.compose ∨
        Spoils t (envLoc s name) env o.env :=
    ⟨fun h ↦ h.differs, fun h ↦ ⟨hwritten, hgiven, hfails, h⟩⟩
  rw [hmissed]
  generalize composeLoc s name req = compose at hwritten ⊢
  generalize envLoc s name = dotEnv
  simp only [FileTree.look_writeFile, FileTree.writable_put hwritten.1,
    FileTree.look_put hwritten.1]
  by_cases heq : compose = dotEnv
  · subst heq
    cases o.env.left env with
    | none => simp [hwritten.1, eq_comm]
    | some content => simp [hwritten.1, eq_comm]
  · have hne : dotEnv ≠ compose := Ne.symm heq
    by_cases hw : t.writable dotEnv = true
    · cases hleft : o.env.left env with
      | none => simp [heq, hne, hw, Spoils, hleft, eq_comm]
      | some content =>
        simp [heq, hne, hw, Spoils, hleft, eq_comm, imp_iff_not_or]
    · simp [heq, hne, hw, Spoils, eq_comm]

private theorem look_writeFile_of_not_spoils {t : FileTree α} {loc : Loc} {data : String}
    {o : WriteOutcome} (h : ¬ Spoils t loc data o) (loc' : Loc) :
    (t.writeFile loc data o).2.look loc' = t.look loc' := by
  by_cases heq : loc' = loc
  · rw [heq]
    exact (look_writeFile_eq_iff t loc data o).mpr h
  · rw [FileTree.look_writeFile, if_neg (fun hw ↦ heq hw.2)]

/-- A failed save leaves both files as they were unless it is left half-way. -/
theorem saveAtomic_iff (s : Stacks) (t : FileTree α) (cli : DockerCLI α) (name : String)
    (req : StackFilesSaveRequest) (o : FilesSaveFaults) :
    SaveAtomic s t name req (handleStackFilesSave s t cli name req o) ↔
      ¬ HalfSaved s t name req o := by
  have heffect := handleStackFilesSave_effect s t cli name req o
  have hcompose {path : String} (h : saveTarget s name req = .ok path) :
      locate s.stacksDir path = composeLoc s name req := by
    rw [composeLoc, saveTarget_path h]
  have henv {path : String} (h : saveTarget s name req = .ok path) :
      envLoc s name = .inner name ".env" :=
    locate_envTarget s (isName_of_stackNameRe (saveTarget_cases h).1)
  generalize handleStackFilesSave s t cli name req o = r at heffect ⊢
  cases heffect with
  | refused e target =>
    apply iff_of_true
    · exact ⟨rfl, rfl⟩
    · rintro ⟨⟨path, hpath⟩, -⟩
      rw [target] at hpath
      contradiction
  | composeFailed path target fails e =>
    rw [hcompose target] at fails ⊢
    have hhalf : HalfSaved s t name req o ↔
        Spoils t (composeLoc s name req) req.compose o.compose := by
      constructor
      · rintro ⟨-, hspoilt | ⟨env, hmissed⟩⟩
        · exact hspoilt.2
        · exact absurd hmissed.written fails
      · intro hspoils
        exact ⟨⟨path, target⟩, .inl ⟨fun hdone ↦ fails ⟨hspoils.1, hdone⟩, hspoils⟩⟩
    rw [hhalf, SaveAtomic, look_writeFile_eq_iff]
    apply and_iff_left_of_imp
    intro hnot
    exact look_writeFile_of_not_spoils hnot _
  | envFailed path target writable done env given fails e =>
    rw [hcompose target] at writable ⊢
    rw [← henv target] at fails ⊢
    have hhalf : HalfSaved s t name req o ↔ EnvMissed s t name req o env := by
      constructor
      · rintro ⟨-, hspoilt | ⟨env', hmissed⟩⟩
        · exact absurd done hspoilt.1
        · rw [hmissed.given] at given
          rw [← Option.some.inj given]
          exact hmissed
      · intro hmissed
        exact ⟨⟨path, target⟩, .inr ⟨env, hmissed⟩⟩
    rw [hhalf, envMissed_iff ⟨writable, done⟩ given fails, not_not, SaveAtomic]
  | saved path target writable done given t' after =>
    apply iff_of_true trivial
    rintro ⟨-, hspoilt | ⟨env, hmissed⟩⟩
    · exact hspoilt.1 done
    · rw [hmissed.given] at given
      contradiction
  | savedEnv path target writable done env given envWritable envDone t' after =>
    apply iff_of_true trivial
    rintro ⟨-, hspoilt | ⟨env', hmissed⟩⟩
    · exact hspoilt.1 done
    · apply hmissed.fails
      rw [henv target]
      exact ⟨envWritable, envDone⟩

/-- A stack, `app`, with both files. -/
def filesTree : FileTree Unit :=
  (∅ : FileTree Unit).insert "app" (.dir (((∅ : Folder Unit).insert "compose.yaml"
    (.file "services: {}\n")).insert ".env" (.file "TAG=1\n")))

/-- A save of both files. -/
def bothFiles : StackFilesSaveRequest := ⟨"compose.yaml", "name: app\n", some "TAG=2\n"⟩

/-- The answer when the environment file cannot be opened, and the files after it. -/
def failedSave : Except ApiError StackFilesSaveResponse × FileTree Unit :=
  handleStackFilesSave ⟨"./stacks", "", false⟩ filesTree ⟨false, fun _ _ ↦ (none, [])⟩ "app"
    bothFiles ⟨.done, .refused⟩

/-- When the environment file cannot be opened the new compose file stays with the old `.env`. -/
theorem not_saveAtomic_of_env :
    ¬ ∀ (s : Stacks) (t : FileTree Unit) (cli : DockerCLI Unit) (name : String)
      (req : StackFilesSaveRequest) (o : FilesSaveFaults),
      SaveAtomic s t name req (handleStackFilesSave s t cli name req o) := by
  intro h
  have hatomic := h ⟨"./stacks", "", false⟩ filesTree ⟨false, fun _ _ ↦ (none, [])⟩ "app"
    bothFiles ⟨.done, .refused⟩
  rw [← failedSave] at hatomic
  have hloc : composeLoc ⟨"./stacks", "", false⟩ "app" bothFiles = .inner "app" "compose.yaml" := by
    rw [composeLoc, Path.join_concat_name _ (by decide) (by decide)]
    exact FileTree.locate_join_join "./stacks" (by decide) (by decide)
  obtain ⟨hfailed, hcompose⟩ : failedSave.1 = .error ⟨500, "failed to save env file"⟩ ∧
      failedSave.2.look (.inner "app" "compose.yaml") = .file "name: app\n" := by
    decide +kernel
  have hbefore : filesTree.look (.inner "app" "compose.yaml") = .file "services: {}\n" := by
    decide +kernel
  rw [Prod.fst_eq_iff.mp hfailed, SaveAtomic, hloc, hcompose, hbefore] at hatomic
  exact absurd hatomic.1 (by decide)

end Dockstack.Server
