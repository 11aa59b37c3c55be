import Dockstack.Server.StackDestroy
import Dockstack.Server.StackFileHandlers

/-!
# What a request does to its stacks

The handlers of `internal/server/api/stacks.go:135–330` work with paths in the stacks
directory. Here is what each of them answers, what it leaves under the names in the
request, and what it does to the services of their projects, computed from what lies under
these names and nothing else.
-/

namespace Dockstack.Server

open Dockstack.Base Dockstack.Docker

variable {α : Type}

/-- What lies under a name in the stacks directory. -/
abbrev Slot (α : Type) := Option (Entry (Folder α))

namespace Slot

/-- `os.MkdirAll` at the name. -/
def mkdir : Slot α → Option (Slot α)
  | none => some (some (.dir ∅))
  | some (.dir d) => some (some (.dir d))
  | some (.file _) => none

/-- `os.WriteFile` of a file in the directory. -/
def write (e : Slot α) (file data : String) (o : WriteOutcome) : Bool × Slot α :=
  match e with
  | some (.dir d) =>
    match d.get? file with
    | some (.dir _) => (false, e)
    | _ =>
      match o.left data with
      | none => (false, e)
      | some content => (o == .done, some (.dir (d.insert file (.file content))))
  | _ => (false, e)

/-- `os.WriteFile` at the name itself. -/
def overwrite (e : Slot α) (data : String) (o : WriteOutcome) : Bool × Slot α :=
  match e with
  | some (.dir _) => (false, e)
  | _ =>
    match o.left data with
    | none => (false, e)
    | some content => (o == .done, some (.file content))

/-- `os.Stat` of a file in the directory. -/
def has (e : Slot α) (file : String) : Bool :=
  match e with
  | some (.dir d) => (d.get? file).isSome
  | _ => false

/-- `os.ReadFile` of a file in the directory. -/
def read (e : Slot α) (file : String) : Option String :=
  match e with
  | some (.dir d) =>
    match d.get? file with
    | some (.file content) => some content
    | _ => none
  | _ => none

/-- The compose file that is found in the directory. -/
def composeFile (e : Slot α) : Option String := composeFilenames.find? (has e)

/-- The name is one that `ListStacks` shows, and a directory lies under it. -/
def listed (name : String) (e : Slot α) : Bool :=
  !hasPrefix name "." && !hasPrefix name "_" &&
    match e with
    | some (.dir _) => true
    | _ => false

end Slot

/-- What is seen of the stacks directory and of Docker: what lies under each name, and the
services that run in each project. -/
structure Shelf (α : Type) where
  slot : String → Slot α
  running : String → List String

/-- What is seen of a world. -/
def World.shelf (w : World α) : Shelf α := ⟨w.tree.get?, w.running⟩

/-- An answer of one of the handlers. The validation in the answer to a save is left out: it is
what `docker compose config` says, which may read any file. -/
inductive StackReply where
  | done
  | files (r : StackFilesResponse)
  | refused (e : ApiError)
  deriving DecidableEq

/-- The answer of a handler that returns nothing. -/
def StackReply.ofResult {A : Type} : Except ApiError A → StackReply
  | .ok _ => .done
  | .error e => .refused e

/-- The requests about single stacks, each with what goes wrong during it. -/
inductive StackCall where
  | get (name : String) (o : FilesGetFaults)
  | create (name : String) (o : CreateFaults)
  | createEnv (name : String) (o : CreateEnvFaults)
  | save (name : String) (req : StackFilesSaveRequest) (o : FilesSaveFaults)
  | rename (name newName : String) (o : RenameFaults)
  | destroy (name : String) (o : DestroyFaults)

namespace StackCall

/-- The names in a request. -/
def names : StackCall → List String
  | .get name _ => [name]
  | .create name _ => [name]
  | .createEnv name _ => [name]
  | .save name _ _ => [name]
  | .rename name newName _ => [name, newName]
  | .destroy name _ => [name]

/-- The handlers. -/
def serve (s : Stacks) (cli : DockerCLI α) (w : World α) : StackCall → StackReply × World α
  | .get name o =>
    match handleStackFilesGet s w.tree name o with
    | .ok files => (.files files, w)
    | .error e => (.refused e, w)
  | .create name o =>
    let r := handleStackCreate s w.tree name o
    (.ofResult r.1, { w with tree := r.2 })
  | .createEnv name o =>
    let r := handleStackCreateEnv s w.tree name o
    (.ofResult r.1, { w with tree := r.2 })
  | .save name req o =>
    let r := handleStackFilesSave s w.tree cli name req o
    (.ofResult r.1, { w with tree := r.2 })
  | .rename name newName o =>
    let r := handleStackRename s w name newName o
    (.ofResult r.1, r.2)
  | .destroy name o =>
    let r := handleStackDestroy s w name o
    (.ofResult r.1, r.2)

end StackCall

/-- What a request does: its answer, what it leaves under names, and what it leaves running in
projects. -/
structure StackEffect (α : Type) where
  reply : StackReply
  slots : List (String × Slot α)
  services : List (String × List String)

namespace StackEffect

/-- The effect on what is seen. -/
def apply (e : StackEffect α) (σ : Shelf α) : Shelf α where
  slot := e.slots.foldl (fun f p ↦ Function.update f p.1 p.2) σ.slot
  running := e.services.foldl (fun f p ↦ Function.update f p.1 p.2) σ.running

/-- Refused, with nothing done. -/
def refuse (status : Nat) (detail : String) : StackEffect α := ⟨.refused ⟨status, detail⟩, [], []⟩

/-- Answered, with nothing done. -/
def answer (r : StackReply) : StackEffect α := ⟨r, [], []⟩

/-- `get`. -/
def get (e : Slot α) (name : String) (o : FilesGetFaults) : StackEffect α :=
  if stackNameRe name = false then refuse 400 "invalid stack name"
  else
    match Slot.composeFile e with
    | none => refuse 404 ("no compose file found in " ++ name)
    | some f =>
      match if o.composeReadFails then none else Slot.read e f with
      | none => refuse 500 "failed to read compose file"
      | some compose =>
        answer (.files ⟨compose, f, if o.envReadFails then none else Slot.read e ".env"⟩)

/-- Make the directory and write a starter file. -/
def starter (e : Slot α) (name file data : String) (mkdirFails : Bool) (o : WriteOutcome)
    (mkdirDetail writeDetail : String) : StackEffect α :=
  match if mkdirFails then none else Slot.mkdir e with
  | none => refuse 500 mkdirDetail
  | some e =>
    let r := Slot.write e file data o
    ⟨if r.1 then .done else .refused ⟨500, writeDetail⟩, [(name, r.2)], []⟩

/-- `create`. -/
def create (e : Slot α) (name : String) (o : CreateFaults) : StackEffect α :=
  if stackNameRe name = false then refuse 400 "invalid stack name (allowed: a-zA-Z0-9_-)"
  else if o.listFails then refuse 500 "failed to check stack"
  else if Slot.listed name e then refuse 409 "stack already exists"
  else
    starter e name "compose.yaml" (composeTemplate name) o.mkdirFails o.write
      "failed to create stack directory" "failed to write starter compose file"

/-- `createEnv`. -/
def createEnv (e : Slot α) (name : String) (o : CreateEnvFaults) : StackEffect α :=
  if stackNameRe name = false then refuse 400 "invalid stack name"
  else
    starter e name ".env" envTemplate o.mkdirFails o.write
      "failed to access stack directory" "failed to write env file"

/-- The write of the compose file by `save`: with the file name `.` or `/` it goes to the stack's
own place. -/
def saveCompose (e : Slot α) (req : StackFilesSaveRequest) (o : WriteOutcome) : Bool × Slot α :=
  if req.composeFile = "." ∨ req.composeFile = "/" then Slot.overwrite e req.compose o
  else Slot.write e req.composeFile req.compose o

/-- `save`. -/
def save (s : Stacks) (e : Slot α) (name : String) (req : StackFilesSaveRequest)
    (o : FilesSaveFaults) : StackEffect α :=
  match saveTarget s name req with
  | .error err => answer (.refused err)
  | .ok _ =>
    let r := saveCompose e req o.compose
    if r.1 = false then ⟨.refused ⟨500, "failed to save compose file"⟩, [(name, r.2)], []⟩
    else
      match req.env with
      | none => ⟨.done, [(name, r.2)], []⟩
      | some env =>
        let r' := Slot.write r.2 ".env" env o.env
        ⟨if r'.1 then .done else .refused ⟨500, "failed to save env file"⟩, [(name, r'.2)], []⟩

/-- The stacks directory is one whose stacks the guard lets pass. -/
def movable (s : Stacks) : Bool := Path.clean s.stacksDir != "." && Path.clean s.stacksDir != "/"

/-- The end of `rename`, when the directory has been moved and `down` are the services that were
taken down. -/
def moved (e : Slot α) (name newName : String) (o : RenameFaults)
    (down : List (String × List String)) : StackEffect α :=
  let slots := [(name, none), (newName, e)]
  if Slot.composeFile e = none then ⟨.done, slots, down⟩
  else if o.upFails then ⟨.refused renamedNotStarted, slots, down⟩
  else ⟨.done, slots, down ++ [(normalizeProjectName newName, o.started)]⟩

/-- `rename`. -/
def rename (s : Stacks) (e e' : Slot α) (name newName : String) (o : RenameFaults) :
    StackEffect α :=
  if stackNameRe name = false then refuse 400 "invalid stack name"
  else if stackNameRe newName = false then
    refuse 400 "invalid new stack name (allowed: a-zA-Z0-9_-)"
  else if newName = name then answer .done
  else if o.listFails then refuse 500 "failed to check stack"
  else if Slot.listed name e = false then refuse 404 "stack not found"
  else if o.newListFails then refuse 500 "failed to check stack"
  else if Slot.listed newName e' then refuse 409 "stack already exists"
  else if Slot.composeFile e ≠ none ∧ o.downFails = true then
    refuse 500 "failed to bring stack down"
  else
    let down := if Slot.composeFile e = none then [] else [(normalizeProjectName name, [])]
    if movable s = false then ⟨.refused ⟨400, "invalid stack path"⟩, [], down⟩
    else if o.renameFails = true ∨ e' ≠ none then
      ⟨.refused ⟨500, "failed to rename stack directory"⟩, [], down⟩
    else moved e name newName o down

/-- `destroy`. -/
def destroy (s : Stacks) (e : Slot α) (name : String) (o : DestroyFaults) : StackEffect α :=
  if stackNameRe name = false then refuse 400 "invalid stack name"
  else if Slot.composeFile e = none ∨ o.downFails = true then
    refuse 500 "failed to bring stack down"
  else
    let down := [(normalizeProjectName name, [])]
    if movable s = false then ⟨.refused ⟨400, "invalid stack path"⟩, [], down⟩
    else if o.removeFails then
      ⟨.refused ⟨500, "failed to remove stack directory"⟩, [], down⟩
    else ⟨.done, [(name, none)], down⟩

end StackEffect

/-- What a request does where `slot` lies under the names. -/
def StackCall.effect (s : Stacks) (slot : String → Slot α) : StackCall → StackEffect α
  | .get name o => .get (slot name) name o
  | .create name o => .create (slot name) name o
  | .createEnv name o => .createEnv (slot name) name o
  | .save name req o => .save s (slot name) name req o
  | .rename name newName o => .rename s (slot name) (slot newName) name newName o
  | .destroy name o => .destroy s (slot name) name o

/-! ## The stacks directory, name by name -/

variable {s : Stacks} {t t' : FileTree α} {name file : String}

private theorem get?_insert_eq (t : FileTree α) (name : String) (e : Entry (Folder α)) :
    KeyMap.get? (t.insert name e) = Function.update t.get? name (some e) := by
  funext n
  rw [KeyMap.get?_insert, Function.update_apply]

private theorem get?_erase_eq (t : FileTree α) (name : String) :
    KeyMap.get? (t.erase name) = Function.update t.get? name none := by
  funext n
  rw [KeyMap.get?_erase, Function.update_apply]

private theorem update_get?_self (t : FileTree α) (name : String) :
    t.get? = Function.update t.get? name (t.get? name) := (Function.update_eq_self name _).symm

/-- Making a directory. -/
theorem mkdirAll_top (t : FileTree α) (name : String) :
    (t.mkdirAll (.top name)).map KeyMap.get? =
      (Slot.mkdir (t.get? name)).map (Function.update t.get? name) := by
  simp only [FileTree.mkdirAll]
  split
  · next h => rw [h, Option.map_some, get?_insert_eq]; rfl
  · next d h => rw [h, Option.map_some, Slot.mkdir, Option.map_some, ← h, ← update_get?_self]
  · next c h => rw [h]; rfl

private theorem write_unchanged (t : FileTree α) (name : String) :
    (false, t).1 = (false, t.get? name).1 ∧
      KeyMap.get? (false, t).2 = Function.update t.get? name (false, t.get? name).2 :=
  ⟨rfl, update_get?_self t name⟩

/-- Writing a file of a directory. -/
theorem writeFile_inner (t : FileTree α) (name file data : String) (o : WriteOutcome) :
    (t.writeFile (.inner name file) data o).1 = (Slot.write (t.get? name) file data o).1 ∧
      KeyMap.get? (t.writeFile (.inner name file) data o).2 =
        Function.update t.get? name (Slot.write (t.get? name) file data o).2 := by
  have hkeep := write_unchanged t name
  rcases h : t.get? name with _ | ⟨c | d⟩
  · simpa only [FileTree.writeFile, Slot.write, h] using hkeep
  · simpa only [FileTree.writeFile, Slot.write, h] using hkeep
  · rcases hf : d.get? file with _ | ⟨c | d'⟩
    · cases hleft : o.left data with
      | none => simpa only [FileTree.writeFile, Slot.write, h, hf, hleft] using hkeep
      | some content =>
        simp only [FileTree.writeFile, Slot.write, h, hf, hleft, get?_insert_eq, and_self]
    · cases hleft : o.left data with
      | none => simpa only [FileTree.writeFile, Slot.write, h, hf, hleft] using hkeep
      | some content =>
        simp only [FileTree.writeFile, Slot.write, h, hf, hleft, get?_insert_eq, and_self]
    · simpa only [FileTree.writeFile, Slot.write, h, hf] using hkeep

/-- Writing at the place of a stack. -/
theorem writeFile_top (t : FileTree α) (name data : String) (o : WriteOutcome) :
    (t.writeFile (.top name) data o).1 = (Slot.overwrite (t.get? name) data o).1 ∧
      KeyMap.get? (t.writeFile (.top name) data o).2 =
        Function.update t.get? name (Slot.overwrite (t.get? name) data o).2 := by
  have hkeep := write_unchanged t name
  cases hleft : o.left data with
  | none =>
    rcases h : t.get? name with _ | ⟨c | d⟩ <;>
      simpa only [FileTree.writeFile, Slot.overwrite, h, hleft] using hkeep
  | some content =>
    rcases h : t.get? name with _ | ⟨c | d⟩
    · simp only [FileTree.writeFile, Slot.overwrite, h, hleft, get?_insert_eq, and_self]
    · simp only [FileTree.writeFile, Slot.overwrite, h, hleft, get?_insert_eq, and_self]
    · simpa only [FileTree.writeFile, Slot.overwrite, h] using hkeep

/-- Reading a file of a directory. -/
theorem readFile_inner (t : FileTree α) (name file : String) :
    t.readFile (.inner name file) = Slot.read (t.get? name) file := by
  rcases h : t.get? name with _ | ⟨c | d⟩
  · simp only [FileTree.readFile, FileTree.look, Slot.read, h]
  · simp only [FileTree.readFile, FileTree.look, Slot.read, h]
  · rcases hf : d.get? file with _ | ⟨c | d'⟩ <;>
      simp only [FileTree.readFile, FileTree.look, FileTree.Found.ofEntry, Slot.read, h, hf]

/-- Asking whether a stack exists. -/
theorem stackExists_eq (t : FileTree α) (name : String) :
    stackExists t name = Slot.listed name (t.get? name) := by
  rw [Bool.eq_iff_iff, stackExists_iff]
  unfold Slot.listed
  rcases h : t.get? name with _ | ⟨c | d⟩
  · simp
  · simp
  · simp

/-- `FindComposePath` finds what lies under the name. -/
theorem findComposePath_slot (s : Stacks) (t : FileTree α) (hname : Path.IsName name.toList) :
    s.findComposePath t name =
      match Slot.composeFile (t.get? name) with
      | some f => .ok (Path.join [s.stackDir name, f])
      | none => .error ("no compose file found in " ++ name) := findComposePath_eq s t hname

/-- A compose command needs a compose file. -/
theorem runCompose_eq (s : Stacks) (w : World α) (hname : Path.IsName name.toList)
    (args services : List String) (fails : Bool) :
    runCompose s w name args fails services =
      if Slot.composeFile (w.tree.get? name) = none ∨ fails = true then none
      else some { w with
        running := Function.update w.running (normalizeProjectName name) services } := by
  have hpath := findComposePath_slot s w.tree hname
  obtain hfile | ⟨f, hfile⟩ := Option.eq_none_or_eq_some (Slot.composeFile (w.tree.get? name))
  · rw [hfile] at hpath
    rw [if_pos (.inl hfile)]
    unfold runCompose Stacks.composeCommand
    rw [hpath]
  · rw [hfile] at hpath
    have hcmd := composeCommand_of_findComposePath hpath args
    have hne : Slot.composeFile (w.tree.get? name) ≠ none := by
      rw [hfile]
      exact Option.some_ne_none f
    unfold runCompose
    rw [hcmd]
    dsimp only
    rw [composeProject_composeCommand hname hcmd, Option.getD_some]
    exact if_congr (or_iff_right hne).symm rfl rfl

/-- The request did what the effect says. -/
structure StackEffect.Done (e : StackEffect α) (w : World α) (r : StackReply × World α) :
    Prop where
  reply : r.1 = e.reply
  shelf : r.2.shelf = e.apply w.shelf

namespace StackEffect

private theorem done_answer (w : World α) (r : StackReply) : (answer r).Done w (r, w) := ⟨rfl, rfl⟩

private theorem done_refuse (w : World α) (status : Nat) (detail : String) :
    (refuse status detail).Done w (.refused ⟨status, detail⟩, w) := ⟨rfl, rfl⟩

private theorem done_slot {w : World α} {e : Slot α} {r : StackReply}
    (h : t'.get? = Function.update w.tree.get? name e) :
    StackEffect.Done ⟨r, [(name, e)], []⟩ w (r, { w with tree := t' }) := by
  refine ⟨rfl, ?_⟩
  simp only [World.shelf, apply, List.foldl_cons, List.foldl_nil, h]

private theorem env_eq (s : Stacks) (t : FileTree α) (hname : Path.IsName name.toList)
    (fails : Bool) :
    (if s.findEnvPath t name = "" ∨ fails = true then none
      else t.readFile (locate s.stacksDir (s.findEnvPath t name))) =
        if fails = true then none else Slot.read (t.get? name) ".env" := by
  rw [findEnvPath_eq s t hname, ← readFile_inner]
  by_cases hstat : t.stat (.inner name ".env") = true
  · have hne : Path.join [s.stackDir name, ".env"] ≠ "" := by
      intro hnil
      have hlist := Path.toList_join_name (s.stackDir name) (c := ".env") (by decide)
      simp [hnil] at hlist
    rw [if_pos hstat, Stacks.stackDir, FileTree.locate_join_join _ hname (by decide),
      ← Stacks.stackDir]
    simp only [hne, false_or]
  · have hnone : t.readFile (.inner name ".env") = none := by
      rw [FileTree.stat_iff, not_or, not_exists] at hstat
      rw [FileTree.readFile]
      split
      · next content hlook => exact absurd hlook (hstat.2 content)
      · rfl
    rw [if_neg hstat, hnone, if_pos (.inl rfl), ite_self]

private theorem done_get (s : Stacks) (cli : DockerCLI α) (w : World α) (name : String)
    (o : FilesGetFaults) :
    (get (w.tree.get? name) name o).Done w (StackCall.serve s cli w (.get name o)) := by
  cases hvalid : stackNameRe name with
  | false =>
    have hcode : handleStackFilesGet s w.tree name o = .error ⟨400, "invalid stack name"⟩ := by
      unfold handleStackFilesGet validateStackName
      rw [if_neg (Bool.not_eq_true _ ▸ hvalid)]
    rw [get, if_pos hvalid, StackCall.serve, hcode]
    exact done_refuse w _ _
  | true =>
    have hname := isName_of_stackNameRe hvalid
    rw [get, if_neg (by simp [hvalid]), StackCall.serve, handleStackFilesGet, validateStackName,
      if_pos hvalid, findComposePath_slot s w.tree hname]
    dsimp only
    rw [env_eq s w.tree hname]
    obtain hfile | ⟨f, hfile⟩ := Option.eq_none_or_eq_some (Slot.composeFile (w.tree.get? name))
    · rw [hfile]
      exact done_refuse w _ _
    · have hf := isName_of_mem_composeFilenames f (List.mem_of_find?_eq_some hfile)
      rw [hfile]
      dsimp only
      rw [Path.base_join_name _ hf, Stacks.stackDir, FileTree.locate_join_join _ hname hf,
        readFile_inner]
      generalize (if o.composeReadFails = true then none else Slot.read (w.tree.get? name) f) =
        compose
      cases compose with
      | none => exact done_refuse w _ _
      | some content => exact done_answer w _

private theorem done_starter (s : Stacks) (w : World α) (hname : Path.IsName name.toList)
    (hfile : Path.IsName file.toList) (data : String) (mkdirFails : Bool) (o : WriteOutcome)
    (mkdirDetail writeDetail : String) :
    (starter (w.tree.get? name) name file data mkdirFails o mkdirDetail writeDetail).Done w
      (.ofResult (makeAndWrite s w.tree name file data mkdirFails o mkdirDetail writeDetail).1,
        { w with tree :=
          (makeAndWrite s w.tree name file data mkdirFails o mkdirDetail writeDetail).2 }) := by
  unfold makeAndWrite starter
  dsimp only
  rw [FileTree.locate_join _ hname, FileTree.locate_join_join _ hname hfile]
  cases mkdirFails with
  | true => exact done_refuse w _ _
  | false =>
    have hmkdir := mkdirAll_top w.tree name
    rw [if_neg Bool.false_ne_true, if_neg Bool.false_ne_true]
    cases hmade : w.tree.mkdirAll (.top name) with
    | none =>
      rw [hmade, Option.map_none, eq_comm, Option.map_eq_none_iff] at hmkdir
      rw [hmkdir]
      exact done_refuse w _ _
    | some t =>
      rw [hmade, Option.map_some, eq_comm, Option.map_eq_some_iff] at hmkdir
      obtain ⟨e, he, ht⟩ := hmkdir
      obtain ⟨hok, htree⟩ := writeFile_inner t name file data o
      rw [← ht, Function.update_self] at hok
      rw [← ht, Function.update_self, Function.update_idem] at htree
      rw [he]
      dsimp only
      rw [hok]
      cases (Slot.write e file data o).1 with
      | true => exact done_slot htree
      | false => exact done_slot htree

private theorem done_create (s : Stacks) (cli : DockerCLI α) (w : World α) (name : String)
    (o : CreateFaults) :
    (create (w.tree.get? name) name o).Done w (StackCall.serve s cli w (.create name o)) := by
  rw [create, StackCall.serve, handleStackCreate, stackExists_eq]
  split
  · exact done_refuse w _ _
  · next hvalid =>
    split
    · exact done_refuse w _ _
    · split
      · exact done_refuse w _ _
      · rw [Bool.not_eq_false] at hvalid
        exact done_starter s w (isName_of_stackNameRe hvalid) (by decide) _ _ _ _ _

private theorem done_createEnv (s : Stacks) (cli : DockerCLI α) (w : World α) (name : String)
    (o : CreateEnvFaults) :
    (createEnv (w.tree.get? name) name o).Done w
      (StackCall.serve s cli w (.createEnv name o)) := by
  rw [createEnv, StackCall.serve, handleStackCreateEnv, validateStackName]
  cases hvalid : stackNameRe name with
  | false => exact done_refuse w _ _
  | true => exact done_starter s w (isName_of_stackNameRe hvalid) (by decide) _ _ _ _ _

private theorem writeFile_saveTarget {req : StackFilesSaveRequest} {path : String}
    (h : saveTarget s name req = .ok path) (t : FileTree α) (o : WriteOutcome) :
    (t.writeFile (locate s.stacksDir path) req.compose o).1 =
        (saveCompose (t.get? name) req o).1 ∧
      KeyMap.get? (t.writeFile (locate s.stacksDir path) req.compose o).2 =
        Function.update t.get? name (saveCompose (t.get? name) req o).2 := by
  obtain ⟨hvalid, -, ⟨hf, rfl⟩ | ⟨hf, rfl⟩⟩ := saveTarget_cases h
  · have hname := isName_of_stackNameRe hvalid
    have hne : ¬ (req.composeFile = "." ∨ req.composeFile = "/") := by
      rintro (heq | heq)
      · rw [heq] at hf
        exact absurd hf (by decide)
      · rw [heq] at hf
        exact absurd hf (by decide)
    rw [saveCompose, if_neg hne, Stacks.stackDir, FileTree.locate_join_join _ hname hf]
    exact writeFile_inner t name req.composeFile req.compose o
  · rw [saveCompose, if_pos hf, Stacks.stackDir,
      FileTree.locate_join _ (isName_of_stackNameRe hvalid)]
    exact writeFile_top t name req.compose o

private theorem done_save (s : Stacks) (cli : DockerCLI α) (w : World α) (name : String)
    (req : StackFilesSaveRequest) (o : FilesSaveFaults) :
    (save s (w.tree.get? name) name req o).Done w
      (StackCall.serve s cli w (.save name req o)) := by
  rw [save, StackCall.serve, handleStackFilesSave]
  cases htarget : saveTarget s name req with
  | error err => exact done_answer w _
  | ok path =>
    obtain ⟨hok, htree⟩ := writeFile_saveTarget htarget w.tree o.compose
    dsimp only
    rw [hok]
    split
    · exact done_slot htree
    · cases req.env with
      | none => exact done_slot htree
      | some env =>
        have hname := isName_of_stackNameRe (saveTarget_cases htarget).1
        have henv := writeFile_inner
          (w.tree.writeFile (locate s.stacksDir path) req.compose o.compose).2 name ".env" env o.env
        rw [htree, Function.update_self, Function.update_idem] at henv
        dsimp only
        rw [locate_envTarget s hname, henv.1]
        cases (Slot.write (saveCompose (w.tree.get? name) req o.compose).2 ".env" env o.env).1 with
        | true => exact done_slot henv.2
        | false => exact done_slot henv.2

private theorem isWithinStacksDir_eq (s : Stacks) (hname : Path.IsName name.toList) :
    isWithinStacksDir s.stacksDir (Path.join [s.stacksDir, name]) = movable s := by
  rw [Bool.eq_iff_iff, isWithinStacksDir_join s.stacksDir hname, movable, Bool.and_eq_true,
    bne_iff_ne, bne_iff_ne]

private theorem done_destroy (s : Stacks) (cli : DockerCLI α) (w : World α) (name : String)
    (o : DestroyFaults) :
    (destroy s (w.tree.get? name) name o).Done w
      (StackCall.serve s cli w (.destroy name o)) := by
  rw [destroy, StackCall.serve, handleStackDestroy, validateStackName]
  cases hvalid : stackNameRe name with
  | false => exact done_refuse w _ _
  | true =>
    have hname := isName_of_stackNameRe hvalid
    rw [if_pos rfl, if_neg (by decide)]
    dsimp only
    rw [runCompose_eq s w hname]
    split
    · exact done_refuse w _ _
    · dsimp only
      rw [isWithinStacksDir_eq s hname, FileTree.locate_join _ hname]
      split
      · exact ⟨rfl, rfl⟩
      · cases o.removeFails with
        | true => exact ⟨rfl, rfl⟩
        | false =>
          refine ⟨rfl, ?_⟩
          simp only [World.shelf, apply, List.foldl_cons, List.foldl_nil, get?_erase_eq,
            FileTree.removeAll, Bool.false_eq_true, ↓reduceIte]

/-- The services after some of them were replaced, project by project. -/
private def replaceServices (running : String → List String)
    (services : List (String × List String)) : String → List String :=
  services.foldl (fun f p ↦ Function.update f p.1 p.2) running

private theorem bringDown_eq (s : Stacks) (w : World α) (hname : Path.IsName name.toList)
    (o : RenameFaults) :
    bringDown s w name o =
      if Slot.composeFile (w.tree.get? name) ≠ none ∧ o.downFails = true then none
      else
        some ⟨w.tree, replaceServices w.running
          (if Slot.composeFile (w.tree.get? name) = none then []
            else [(normalizeProjectName name, [])])⟩ := by
  unfold bringDown
  rw [findComposePath_slot s w.tree hname]
  obtain hfile | ⟨f, hfile⟩ := Option.eq_none_or_eq_some (Slot.composeFile (w.tree.get? name))
  · rw [if_neg (fun h ↦ h.1 hfile), if_pos hfile, hfile]
    rfl
  · have hne : Slot.composeFile (w.tree.get? name) ≠ none := by
      rw [hfile]
      exact Option.some_ne_none f
    rw [if_neg hne, hfile]
    dsimp only
    rw [runCompose_eq s w hname]
    apply if_congr _ rfl rfl
    rw [or_iff_right hne]
    exact (and_iff_right (Option.some_ne_none f)).symm

private theorem startRenamed_eq (s : Stacks) (w : World α) (hname : Path.IsName name.toList)
    (o : RenameFaults) :
    startRenamed s w name o =
      if Slot.composeFile (w.tree.get? name) = none then some w
      else if o.upFails = true then none
      else some { w with
        running := replaceServices w.running [(normalizeProjectName name, o.started)] } := by
  unfold startRenamed
  rw [findComposePath_slot s w.tree hname]
  obtain hfile | ⟨f, hfile⟩ := Option.eq_none_or_eq_some (Slot.composeFile (w.tree.get? name))
  · rw [if_pos hfile, hfile]
  · have hne : Slot.composeFile (w.tree.get? name) ≠ none := by
      rw [hfile]
      exact Option.some_ne_none f
    rw [if_neg hne, hfile]
    dsimp only
    rw [runCompose_eq s w hname]
    exact if_congr (or_iff_right hne) rfl rfl

private theorem rename_top {d : Folder α} (newName : String)
    (hold : t.get? name = some (.dir d)) :
    (t.rename (.top name) (.top newName)).map KeyMap.get? =
      if t.get? newName ≠ none then none
      else some (Function.update (Function.update t.get? name none) newName (t.get? name)) := by
  obtain hnew | ⟨e, hnew⟩ := Option.eq_none_or_eq_some (t.get? newName)
  · rw [if_neg (fun h ↦ h hnew)]
    simp only [FileTree.rename, hold, hnew, Option.map_some, get?_insert_eq, get?_erase_eq]
  · have hne : t.get? newName ≠ none := by
      rw [hnew]
      exact Option.some_ne_none e
    rw [if_pos hne]
    simp only [FileTree.rename, hold, hnew, Option.map_none]

private theorem done_moveStack (s : Stacks) (w : World α) {d : Folder α} {newName : String}
    (hname : Path.IsName name.toList) (hnewName : Path.IsName newName.toList)
    (hold : w.tree.get? name = some (.dir d)) (o : RenameFaults)
    (down : List (String × List String)) :
    StackEffect.Done
      (if movable s = false then ⟨.refused ⟨400, "invalid stack path"⟩, [], down⟩
        else if o.renameFails = true ∨ w.tree.get? newName ≠ none then
          ⟨.refused ⟨500, "failed to rename stack directory"⟩, [], down⟩
        else moved (w.tree.get? name) name newName o down) w
      (.ofResult (moveStack s { w with running := replaceServices w.running down }
        name newName o).1,
        (moveStack s { w with running := replaceServices w.running down } name newName o).2) := by
  unfold moveStack
  dsimp only
  simp only [isWithinStacksDir_eq s hname, isWithinStacksDir_eq s hnewName, or_self,
    FileTree.locate_join _ hname, FileTree.locate_join _ hnewName]
  split
  · exact ⟨rfl, rfl⟩
  · have hrename := rename_top newName hold
    cases o.renameFails with
    | true => exact ⟨rfl, rfl⟩
    | false =>
      simp only [Bool.false_eq_true, false_or, ↓reduceIte]
      split at hrename
      · next htaken =>
        rw [Option.map_eq_none_iff] at hrename
        rw [if_pos htaken, hrename]
        exact ⟨rfl, rfl⟩
      · next hfree =>
        rw [Option.map_eq_some_iff] at hrename
        obtain ⟨t, ht, hget⟩ := hrename
        have hmoved : t.get? newName = w.tree.get? name := by rw [hget, Function.update_self]
        rw [if_neg hfree, ht]
        dsimp only
        rw [startRenamed_eq s _ hnewName, moved]
        dsimp only
        rw [hmoved]
        split
        · refine ⟨rfl, ?_⟩
          simp only [World.shelf, apply, List.foldl_cons, List.foldl_nil, hget, replaceServices]
        · split
          · refine ⟨rfl, ?_⟩
            simp only [World.shelf, apply, List.foldl_cons, List.foldl_nil, hget, replaceServices]
          · refine ⟨rfl, ?_⟩
            simp only [World.shelf, apply, List.foldl_cons, List.foldl_nil, hget, replaceServices,
              List.foldl_append]

private theorem done_rename (s : Stacks) (cli : DockerCLI α) (w : World α)
    (name newName : String) (o : RenameFaults) :
    (rename s (w.tree.get? name) (w.tree.get? newName) name newName o).Done w
      (StackCall.serve s cli w (.rename name newName o)) := by
  rw [rename, StackCall.serve, handleStackRename, validateStackName, stackExists_eq,
    stackExists_eq]
  cases hvalid : stackNameRe name with
  | false => exact done_refuse w _ _
  | true =>
    have hname := isName_of_stackNameRe hvalid
    rw [if_pos rfl, if_neg (by decide)]
    dsimp only
    split
    · exact done_refuse w _ _
    · next hnew =>
      have hnewName := isName_of_stackNameRe (Bool.not_eq_false _ ▸ hnew)
      split
      · exact done_answer w _
      · split
        · exact done_refuse w _ _
        · split
          · exact done_refuse w _ _
          · next hlisted =>
            split
            · exact done_refuse w _ _
            · split
              · exact done_refuse w _ _
              · rw [Bool.not_eq_false, ← stackExists_eq, stackExists_iff] at hlisted
                obtain ⟨-, -, d, hd⟩ := hlisted
                rw [bringDown_eq s w hname]
                split
                · exact done_refuse w _ _
                · exact done_moveStack s w hname hnewName hd o _

end StackEffect

/-- What a request does is determined by what lies under its names. -/
theorem StackCall.done_effect (s : Stacks) (cli : DockerCLI α) (w : World α) (c : StackCall) :
    (c.effect s w.shelf.slot).Done w (StackCall.serve s cli w c) := by
  cases c with
  | get name o => exact StackEffect.done_get s cli w name o
  | create name o => exact StackEffect.done_create s cli w name o
  | createEnv name o => exact StackEffect.done_createEnv s cli w name o
  | save name req o => exact StackEffect.done_save s cli w name req o
  | rename name newName o => exact StackEffect.done_rename s cli w name newName o
  | destroy name o => exact StackEffect.done_destroy s cli w name o

end Dockstack.Server
