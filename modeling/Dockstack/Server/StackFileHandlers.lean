import Dockstack.Docker.ComposeValidate
import Dockstack.Server.StackGuard
import Dockstack.Server.StackHandlers

/-!
# Reading and saving the files of a stack

`handleStackFilesGet` and `handleStackFilesSave` of
`internal/server/api/stacks.go:127–207`. Every read and write that can fail on its own has
an outcome among the handler's arguments.
-/

namespace Dockstack.Server

open Dockstack.Base Dockstack.Docker

variable {α : Type}

/-- `stackFilesResponse`; `stacks.go:127–133`. -/
structure StackFilesResponse where
  compose : String
  composeFile : String
  env : Option String
  deriving DecidableEq

/-- What goes wrong during `handleStackFilesGet`. -/
structure FilesGetFaults where
  composeReadFails : Bool
  envReadFails : Bool

/-- `handleStackFilesGet`; `stacks.go:135–159`. -/
def handleStackFilesGet (s : Stacks) (t : FileTree α) (name : String) (o : FilesGetFaults) :
    Except ApiError StackFilesResponse :=
  match validateStackName name with
  | .error e => .error e
  | .ok () =>
    match s.findComposePath t name with
    | .error err => .error ⟨404, err⟩
    | .ok composePath =>
      match if o.composeReadFails then none else t.readFile (locate s.stacksDir composePath) with
      | none => .error ⟨500, "failed to read compose file"⟩
      | some compose =>
        let envPath := s.findEnvPath t name
        let env := if envPath = "" ∨ o.envReadFails = true then none
          else t.readFile (locate s.stacksDir envPath)
        .ok ⟨compose, Path.base composePath, env⟩

/-- `stackFilesSaveRequest`; `stacks.go:161–165`. -/
structure StackFilesSaveRequest where
  composeFile : String
  compose : String
  env : Option String

/-- `stackFilesSaveResponse`; `stacks.go:167–172`. -/
structure StackFilesSaveResponse where
  success : Bool
  validation : ComposeValidation
  deriving DecidableEq

/-- What becomes of the two writes of `handleStackFilesSave`. -/
structure FilesSaveFaults where
  compose : WriteOutcome
  env : WriteOutcome

/-- The checks of `handleStackFilesSave`, and the path that is written after them;
`stacks.go:178–192`. -/
def saveTarget (s : Stacks) (name : String) (req : StackFilesSaveRequest) :
    Except ApiError String :=
  match validateStackName name with
  | .error e => .error e
  | .ok () =>
    if req.composeFile = "" ∨ Path.base req.composeFile ≠ req.composeFile then
      .error ⟨400, "invalid compose file name"⟩
    else if req.compose = "" then .error ⟨400, "compose content is required"⟩
    else
      let composePath := Path.join [s.stacksDir, name, req.composeFile]
      if isWithinStacksDir (Path.join [s.stacksDir, name]) composePath = false then
        .error ⟨400, "invalid compose file path"⟩
      else .ok composePath

/-- The path of the environment file that is written; `stacks.go:198`. -/
def envTarget (s : Stacks) (name : String) : String := Path.join [s.stacksDir, name, ".env"]

/-- `handleStackFilesSave`; `stacks.go:174–207`. -/
def handleStackFilesSave (s : Stacks) (t : FileTree α) (cli : DockerCLI α) (name : String)
    (req : StackFilesSaveRequest) (o : FilesSaveFaults) :
    Except ApiError StackFilesSaveResponse × FileTree α :=
  match saveTarget s name req with
  | .error e => (.error e, t)
  | .ok composePath =>
    let r := t.writeFile (locate s.stacksDir composePath) req.compose o.compose
    if r.1 = false then (.error ⟨500, "failed to save compose file"⟩, r.2)
    else
      match req.env with
      | none => (.ok ⟨true, validateCompose s r.2 cli name⟩, r.2)
      | some env =>
        let r' := r.2.writeFile (locate s.stacksDir (envTarget s name)) env o.env
        if r'.1 = false then (.error ⟨500, "failed to save env file"⟩, r'.2)
        else (.ok ⟨true, validateCompose s r'.2 cli name⟩, r'.2)

/-! ## Where a save writes -/

private theorem ne_empty_of_isName {name : String} (h : Path.IsName name.toList) : name ≠ "" := by
  intro heq
  rw [heq] at h
  exact h.1 rfl

private theorem isWithinStacksDir_dots (dir : String) {name : String}
    (h : Path.IsName name.toList) :
    isWithinStacksDir (Path.join [dir, name]) (Path.join [dir, name, ".."]) = false := by
  have htarget : Path.parse (Path.join [dir, name, ".."]).toList =
      (Path.parse (Path.join [dir, name]).toList).parent := by
    rw [Path.join_concat dir (ne_empty_of_isName h), String.toList_ofList, Path.parse_render]
    rfl
  have hkind : Path.isAbs (Path.join [dir, name]) = Path.isAbs (Path.join [dir, name, ".."]) := by
    rw [← Path.rooted_parse, ← Path.rooted_parse, htarget]
    rfl
  have hlength : (Path.parse (Path.join [dir, name, ".."]).toList).names.length + 1 =
      (Path.parse (Path.join [dir, name]).toList).names.length := by
    rw [htarget, Path.parse_join_name dir h]
    simp [Path.Lexical.parent, Path.Lexical.child]
  have hexact : GuardExact (Path.join [dir, name]) (Path.join [dir, name, ".."]) := by
    apply (guardExact_iff_of_isAbs_eq hkind).mpr
    have hnames : (Path.parse (Path.join [dir, name]).toList).names ≠ [] := by
      intro hnil
      rw [hnil, List.length_nil] at hlength
      omega
    constructor
    · intro hrefuses
      have hcomps := (Path.comps_eq_nil_iff _).mpr hrefuses.1
      exact hnames (List.append_eq_nil_iff.mp hcomps).2
    · intro haccepts
      exact hnames haccepts.1
  rw [Bool.eq_false_iff]
  intro hin
  obtain ⟨-, -, hnames⟩ := (Path.within_iff_below _ _).mp (hexact.mp hin)
  have hle := hnames.length_le
  omega

/-- The path that is written is the one that the client's file name leads to. -/
theorem saveTarget_path {s : Stacks} {name : String} {req : StackFilesSaveRequest} {path : String}
    (h : saveTarget s name req = .ok path) :
    path = Path.join [s.stacksDir, name, req.composeFile] := by
  unfold saveTarget at h
  split at h
  · cases h
  · split at h
    · cases h
    · split at h
      · cases h
      · dsimp only at h
        split at h
        · cases h
        · exact (Except.ok.inj h).symm

/-- Where a save writes: a direct child of the stack's directory, or the directory itself. -/
theorem saveTarget_cases {s : Stacks} {name : String} {req : StackFilesSaveRequest} {path : String}
    (h : saveTarget s name req = .ok path) :
    stackNameRe name = true ∧ req.compose ≠ "" ∧
      ((Path.IsName req.composeFile.toList ∧
          path = Path.join [s.stackDir name, req.composeFile]) ∨
        ((req.composeFile = "." ∨ req.composeFile = "/") ∧ path = s.stackDir name)) := by
  unfold saveTarget validateStackName at h
  split at h
  · cases h
  · next hvalid =>
    have hname : stackNameRe name = true := by
      by_contra hnot
      rw [if_neg hnot] at hvalid
      contradiction
    have hisName := isName_of_stackNameRe hname
    split at h
    · cases h
    · next hfile =>
      rw [not_or, not_not] at hfile
      split at h
      · cases h
      · next hcompose =>
        dsimp only at h
        split at h
        · cases h
        · next hguard =>
          obtain rfl := Except.ok.inj h
          refine ⟨hname, hcompose, ?_⟩
          rcases Path.eq_of_base_eq_self hfile.1 hfile.2 with heq | heq | heq | hf
          · right
            rw [heq]
            exact ⟨.inl rfl, Path.join_concat_stay _ hisName (by decide)⟩
          · rw [heq, isWithinStacksDir_dots _ hisName] at hguard
            contradiction
          · right
            rw [heq]
            exact ⟨.inr rfl, Path.join_concat_stay _ hisName (by decide)⟩
          · exact .inl ⟨hf, Path.join_concat_name _ (ne_empty_of_isName hisName) hf⟩

/-- The environment file is a direct child of the stack's directory. -/
theorem envTarget_eq (s : Stacks) {name : String} (h : Path.IsName name.toList) :
    envTarget s name = Path.join [s.stackDir name, ".env"] :=
  Path.join_concat_name _ (ne_empty_of_isName h) (by decide)

/-- It leads to a file of the stack. -/
theorem locate_envTarget (s : Stacks) {name : String} (h : Path.IsName name.toList) :
    locate s.stacksDir (envTarget s name) = .inner name ".env" := by
  rw [envTarget_eq s h]
  exact FileTree.locate_join_join s.stacksDir h (by decide)

/-- A save with the composeFile `.` or `/` writes at the stack's directory itself. -/
theorem saveTarget_dir (s : Stacks) {name f : String} (hname : stackNameRe name = true)
    (hf : f = "." ∨ f = "/") {compose : String} (hcompose : compose ≠ "") (env : Option String) :
    saveTarget s name ⟨f, compose, env⟩ = .ok (s.stackDir name) := by
  have hstay : Path.join [s.stacksDir, name, f] = Path.join [s.stacksDir, name] := by
    apply Path.join_concat_stay _ (isName_of_stackNameRe hname)
    rcases hf with rfl | rfl <;> decide
  have hbase : ¬ (f = "" ∨ Path.base f ≠ f) := by
    rcases hf with rfl | rfl <;> decide +kernel
  have hguard (dir : String) : isWithinStacksDir dir dir = true := by
    simp [isWithinStacksDir]
  unfold saveTarget validateStackName
  rw [if_pos hname]
  dsimp only
  rw [if_neg hbase, if_neg hcompose, hstay, hguard]
  rfl

/-! ## What a save does -/

/-- Everything a save can do: it is refused, one of the writes fails, or both are done. -/
inductive SaveEffect (s : Stacks) (t : FileTree α) (cli : DockerCLI α) (name : String)
    (req : StackFilesSaveRequest) (o : FilesSaveFaults) :
    Except ApiError StackFilesSaveResponse × FileTree α → Prop where
  | refused (e : ApiError) (target : saveTarget s name req = .error e) :
      SaveEffect s t cli name req o (.error e, t)
  | composeFailed (path : String) (target : saveTarget s name req = .ok path)
      (fails : ¬ (t.writable (locate s.stacksDir path) = true ∧ o.compose = .done))
      (e : ApiError) :
      SaveEffect s t cli name req o
        (.error e, (t.writeFile (locate s.stacksDir path) req.compose o.compose).2)
  | envFailed (path : String) (target : saveTarget s name req = .ok path)
      (writable : t.writable (locate s.stacksDir path) = true) (done : o.compose = .done)
      (env : String) (given : req.env = some env)
      (fails : ¬ (t.writable (.inner name ".env") = true ∧ o.env = .done)) (e : ApiError) :
      SaveEffect s t cli name req o
        (.error e, ((t.put req.compose (locate s.stacksDir path)).writeFile
          (.inner name ".env") env o.env).2)
  | saved (path : String) (target : saveTarget s name req = .ok path)
      (writable : t.writable (locate s.stacksDir path) = true) (done : o.compose = .done)
      (given : req.env = none) (t' : FileTree α)
      (after : t' = t.put req.compose (locate s.stacksDir path)) :
      SaveEffect s t cli name req o (.ok ⟨true, validateCompose s t' cli name⟩, t')
  | savedEnv (path : String) (target : saveTarget s name req = .ok path)
      (writable : t.writable (locate s.stacksDir path) = true) (done : o.compose = .done)
      (env : String) (given : req.env = some env)
      (envWritable : t.writable (.inner name ".env") = true) (envDone : o.env = .done)
      (t' : FileTree α)
      (after : t' = (t.put req.compose (locate s.stacksDir path)).put env (.inner name ".env")) :
      SaveEffect s t cli name req o (.ok ⟨true, validateCompose s t' cli name⟩, t')

/-- Every answer of the handler is one of the effects. -/
theorem handleStackFilesSave_effect (s : Stacks) (t : FileTree α) (cli : DockerCLI α)
    (name : String) (req : StackFilesSaveRequest) (o : FilesSaveFaults) :
    SaveEffect s t cli name req o (handleStackFilesSave s t cli name req o) := by
  unfold handleStackFilesSave
  split
  · next e htarget => exact .refused e htarget
  · next path htarget =>
    have hname := isName_of_stackNameRe (saveTarget_cases htarget).1
    dsimp only
    rw [locate_envTarget s hname]
    split
    · next hfails =>
      rw [← Bool.not_eq_true, FileTree.writeFile_fst] at hfails
      exact .composeFailed path htarget hfails _
    · next hdone =>
      rw [Bool.not_eq_false, FileTree.writeFile_fst] at hdone
      obtain ⟨hwritable, hdone⟩ := hdone
      have hput : (t.writeFile (locate s.stacksDir path) req.compose o.compose).2 =
          t.put req.compose (locate s.stacksDir path) := by
        rw [hdone, FileTree.writeFile_done hwritable]
      rw [hput]
      split
      · next hgiven => exact .saved path htarget hwritable hdone hgiven _ rfl
      · next env hgiven =>
        split
        · next hfails =>
          rw [← Bool.not_eq_true, FileTree.writeFile_fst, FileTree.writable_put hwritable] at hfails
          exact .envFailed path htarget hwritable hdone env hgiven hfails _
        · next henv =>
          rw [Bool.not_eq_false, FileTree.writeFile_fst] at henv
          obtain ⟨henvWritable, henvDone⟩ := henv
          rw [henvDone, FileTree.writeFile_done henvWritable]
          rw [FileTree.writable_put hwritable] at henvWritable
          exact .savedEnv path htarget hwritable hdone env hgiven henvWritable henvDone _ rfl

end Dockstack.Server
