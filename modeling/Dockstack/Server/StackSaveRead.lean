import Dockstack.Server.StackFileHandlers
import Mathlib.Data.Prod.Basic

/-!
# Reading what was saved

A save writes the file that the client names; reading and validation take the first of
`ComposeFilenames` that is there. Which saves are read back, and validated, as they were
written.
-/

namespace Dockstack.Server

open Dockstack.Base Dockstack.Docker

variable {α : Type} {s : Stacks} {t t' : FileTree α} {cli : DockerCLI α} {name : String}
  {req : StackFilesSaveRequest} {o : FilesSaveFaults} {resp : StackFilesSaveResponse}

/-- Nothing goes wrong while the files are read. -/
def noGetFaults : FilesGetFaults := ⟨false, false⟩

/-- The content of the stack's `.env`. -/
def envContent (t : FileTree α) (name : String) : Option String :=
  t.readFile (.inner name ".env")

private theorem readFile_eq_none_of_not_stat {loc : Loc} (h : ¬ t.stat loc = true) :
    t.readFile loc = none := by
  rw [FileTree.stat_iff, not_or, not_exists] at h
  rw [FileTree.readFile]
  split
  · next content hlook => exact absurd hlook (h.2 content)
  · rfl

/-- What a reader of the stack's files gets. -/
theorem handleStackFilesGet_eq (s : Stacks) (t : FileTree α) (hname : stackNameRe name = true) :
    handleStackFilesGet s t name noGetFaults =
      match composeFile? t name with
      | none => .error ⟨404, "no compose file found in " ++ name⟩
      | some f =>
        match t.readFile (.inner name f) with
        | none => .error ⟨500, "failed to read compose file"⟩
        | some compose => .ok ⟨compose, f, envContent t name⟩ := by
  have hisName := isName_of_stackNameRe hname
  have henv : (if s.findEnvPath t name = "" ∨ noGetFaults.envReadFails = true then none
      else t.readFile (locate s.stacksDir (s.findEnvPath t name))) = envContent t name := by
    rw [findEnvPath_eq s t hisName, envContent]
    by_cases hstat : t.stat (.inner name ".env") = true
    · have hne : Path.join [s.stackDir name, ".env"] ≠ "" := by
        intro hnil
        have hlist := Path.toList_join_name (s.stackDir name) (c := ".env") (by decide)
        simp [hnil] at hlist
      have hloc : locate s.stacksDir (Path.join [s.stackDir name, ".env"]) =
          .inner name ".env" :=
        FileTree.locate_join_join s.stacksDir hisName (by decide)
      rw [if_pos hstat, hloc, if_neg]
      rintro (hnil | hfails)
      · exact hne hnil
      · contradiction
    · rw [if_neg hstat, if_pos (.inl rfl), readFile_eq_none_of_not_stat hstat]
  unfold handleStackFilesGet validateStackName
  rw [if_pos hname, findComposePath_eq s t hisName]
  dsimp only
  rw [henv]
  cases hfile : composeFile? t name with
  | none => rfl
  | some f =>
    have hf := isName_of_mem_composeFilenames f (composeFile?_eq_some_iff.mp hfile).2.1
    dsimp only
    rw [Path.base_join_name _ hf, Stacks.stackDir, FileTree.locate_join_join _ hisName hf]
    rfl

private theorem of_saved (h : handleStackFilesSave s t cli name req o = (.ok resp, t')) :
    ∃ path, saveTarget s name req = .ok path ∧ resp = ⟨true, validateCompose s t' cli name⟩ ∧
      (∀ loc, t'.stat loc = true ↔ (req.env ≠ none ∧ loc = .inner name ".env") ∨
        loc = locate s.stacksDir path ∨ t.stat loc = true) ∧
      ∀ loc, t'.readFile loc = if req.env ≠ none ∧ loc = .inner name ".env" then req.env
        else if loc = locate s.stacksDir path then some req.compose else t.readFile loc := by
  have heffect := handleStackFilesSave_effect s t cli name req o
  rw [h] at heffect
  cases heffect with
  | saved path target writable done given _ after =>
    refine ⟨path, target, rfl, ?_, ?_⟩
    · intro loc
      rw [after, FileTree.stat_put writable]
      simp [given]
    · intro loc
      rw [after, FileTree.readFile_put writable]
      simp [given]
  | savedEnv path target writable done env given envWritable envDone _ after =>
    have henv := (FileTree.writable_put writable req.compose _).trans envWritable
    refine ⟨path, target, rfl, ?_, ?_⟩
    · intro loc
      rw [after, FileTree.stat_put henv, FileTree.stat_put writable]
      simp [given]
    · intro loc
      rw [after, FileTree.readFile_put henv, FileTree.readFile_put writable]
      simp [given]

/-- The files read after the save are those that were written, with the old environment if none
was given, and the validation is that of the compose file that was written. -/
def ReadsBack (s : Stacks) (t t' : FileTree α) (cli : DockerCLI α) (name : String)
    (req : StackFilesSaveRequest) (resp : StackFilesSaveResponse) : Prop :=
  handleStackFilesGet s t' name noGetFaults =
      .ok ⟨req.compose, req.composeFile, req.env.or (envContent t name)⟩ ∧
    resp.validation =
      validateComposeFile s t' cli name (Path.join [s.stackDir name, req.composeFile])

private theorem composeFile?_of_get_eq_ok {files : StackFilesResponse}
    (hname : stackNameRe name = true) (h : handleStackFilesGet s t name noGetFaults = .ok files) :
    composeFile? t name = some files.composeFile := by
  rw [handleStackFilesGet_eq s t hname] at h
  split at h
  · contradiction
  · next f hf =>
    split at h
    · contradiction
    · rw [hf, ← Except.ok.inj h]

/-- A save is read back as it was written exactly when the file is one of the compose files and
no earlier one of them is there. -/
theorem readsBack_iff (h : handleStackFilesSave s t cli name req o = (.ok resp, t')) :
    ReadsBack s t t' cli name req resp ↔
      req.composeFile ∈ composeFilenames ∧
        ∀ g ∈ composeFilenames.takeWhile (· != req.composeFile),
          t.stat (.inner name g) = false := by
  obtain ⟨path, htarget, rfl, hstat, hread⟩ := of_saved h
  obtain ⟨hname, -, hpath⟩ := saveTarget_cases htarget
  have hisName := isName_of_stackNameRe hname
  constructor
  · intro hback
    obtain ⟨-, hmem, hfirst⟩ :=
      composeFile?_eq_some_iff.mp (composeFile?_of_get_eq_ok hname hback.1)
    refine ⟨hmem, fun g hg ↦ ?_⟩
    by_contra hthere
    have hstat' := (hstat (.inner name g)).mpr (.inr (.inr (Bool.not_eq_false _ ▸ hthere)))
    rw [hfirst g hg] at hstat'
    contradiction
  · rintro ⟨hmem, hfirst⟩
    have hfile := isName_of_mem_composeFilenames _ hmem
    have hloc : locate s.stacksDir path = .inner name req.composeFile := by
      rcases hpath with ⟨hf, rfl⟩ | ⟨hf, -⟩
      · exact FileTree.locate_join_join s.stacksDir hisName hf
      · rcases hf with hf | hf <;> rw [hf] at hmem <;> contradiction
    have hnotEnv (g : String) (hg : g ∈ composeFilenames) : g ≠ ".env" := by
      rintro rfl
      revert hg
      decide
    have hfound : composeFile? t' name = some req.composeFile := by
      rw [composeFile?_eq_some_iff]
      refine ⟨(hstat _).mpr (.inr (.inl hloc.symm)), hmem, fun g hg ↦ ?_⟩
      have hgmem := (List.takeWhile_sublist _).mem hg
      have hne : g ≠ req.composeFile := by simpa using List.mem_takeWhile_imp hg
      rw [← Bool.not_eq_true, hstat, hloc, hfirst g hg]
      simp [hnotEnv g hgmem, hne]
    have hcompose : t'.readFile (.inner name req.composeFile) = some req.compose := by
      rw [hread, hloc, if_neg, if_pos rfl]
      simp [hnotEnv _ hmem]
    have henv : envContent t' name = req.env.or (envContent t name) := by
      rw [envContent, hread, hloc]
      cases req.env with
      | none => simp [envContent, (hnotEnv _ hmem).symm]
      | some env => simp
    constructor
    · rw [handleStackFilesGet_eq s t' hname, hfound]
      dsimp only
      rw [hcompose, henv]
    · apply validateCompose_of_findComposePath
      rw [findComposePath_eq s t' hisName, hfound]

/-- The default directories. -/
def defaultStacks : Stacks := ⟨"./stacks", "", false⟩

/-- One stack, `app`, with a `compose.yaml`. -/
def composeTree : FileTree Unit :=
  (∅ : FileTree Unit).insert "app"
    (.dir ((∅ : Folder Unit).insert "compose.yaml" (.file "services: {}\n")))

/-- A host without a `docker` command. -/
def noDocker : DockerCLI Unit := ⟨false, fun _ _ ↦ (none, [])⟩

/-- Nothing goes wrong while the files are written. -/
def noSaveFaults : FilesSaveFaults := ⟨.done, .done⟩

/-- Saving over `compose.yaml` is read back. -/
theorem readsBack_iff_composeYaml :
    ReadsBack defaultStacks composeTree
      (handleStackFilesSave defaultStacks composeTree noDocker "app"
        ⟨"compose.yaml", "name: app\n", none⟩ noSaveFaults).2 noDocker "app"
      ⟨"compose.yaml", "name: app\n", none⟩ ⟨true, validationSkipped⟩ := by
  have hsaved : (handleStackFilesSave defaultStacks composeTree noDocker "app"
      ⟨"compose.yaml", "name: app\n", none⟩ noSaveFaults).1 = .ok ⟨true, validationSkipped⟩ := by
    decide +kernel
  apply (readsBack_iff (Prod.fst_eq_iff.mp hsaved)).mpr
  decide

/-- A `docker-compose.yml` that is saved next to `compose.yaml` is not what is read. -/
theorem not_readsBack_of_earlier :
    ¬ ∀ (s : Stacks) (t t' : FileTree Unit) (cli : DockerCLI Unit) (name : String)
      (req : StackFilesSaveRequest) (o : FilesSaveFaults) (resp : StackFilesSaveResponse),
      stackExists t name = true → handleStackFilesSave s t cli name req o = (.ok resp, t') →
      ReadsBack s t t' cli name req resp := by
  intro h
  let req : StackFilesSaveRequest := ⟨"docker-compose.yml", "name: app\n", none⟩
  let after := handleStackFilesSave defaultStacks composeTree noDocker "app" req noSaveFaults
  have hsaved : after.1 = .ok ⟨true, validationSkipped⟩ := by
    decide +kernel
  have hread : handleStackFilesGet defaultStacks after.2 "app" noGetFaults =
      .ok ⟨"services: {}\n", "compose.yaml", none⟩ := by
    decide +kernel
  have hback := h defaultStacks composeTree after.2 noDocker "app" req noSaveFaults
    ⟨true, validationSkipped⟩ (by decide +kernel) (Prod.fst_eq_iff.mp hsaved)
  exact absurd (hread.symm.trans hback.1) (by decide +kernel)

end Dockstack.Server
