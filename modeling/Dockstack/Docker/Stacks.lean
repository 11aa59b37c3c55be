import Dockstack.Base.FileTree
import Dockstack.Base.Sorting
import Dockstack.Docker.Containers
import Mathlib.Data.List.Find

/-!
# Stacks

A stack is a directory of the stacks directory; what `internal/docker/stacks.go:21–147`
reads of it, the compose commands it builds, and the project that Docker Compose takes
from them. Every path is built with `filepath.Join` from the configured directory, whose
spelling is arbitrary.
-/

namespace Dockstack.Docker

open Dockstack.Base

/-- `ComposeFilenames`; `stacks.go:21–26`. -/
def composeFilenames : List String :=
  ["compose.yaml", "compose.yml", "docker-compose.yml", "docker-compose.yaml"]

/-- The directories of `Stacks`; `stacks.go:30–36`. `hasConfig` is whether the configuration
directory holds a `config.json`. -/
structure Stacks where
  stacksDir : String
  configDir : String
  hasConfig : Bool

namespace Stacks

variable {α : Type} (s : Stacks)

/-- `stackDir`; `stacks.go:50–52`. -/
def stackDir (name : String) : String := Path.join [s.stacksDir, name]

/-- `FindComposePath`; `stacks.go:54–63`. -/
def findComposePath (t : FileTree α) (stackName : String) : Except String String :=
  let dir := s.stackDir stackName
  match (composeFilenames.map (fun f ↦ Path.join [dir, f])).find?
      (fun path ↦ t.stat (locate s.stacksDir path)) with
  | some path => .ok path
  | none => .error ("no compose file found in " ++ stackName)

/-- `FindEnvPath`; `stacks.go:65–71`. -/
def findEnvPath (t : FileTree α) (stackName : String) : String :=
  let path := Path.join [s.stackDir stackName, ".env"]
  if t.stat (locate s.stacksDir path) then path else ""

/-- `hasConfigFile`; `stacks.go:121–127`. -/
def hasConfigFile : Bool := s.configDir != "" && s.hasConfig

/-- `composeCommandWithFile`; `stacks.go:137–147`. -/
def composeCommandWithFile (t : FileTree α) (stackName composePath : String)
    (args : List String) : List String :=
  (if s.hasConfigFile then ["--config", s.configDir] else []) ++
    ["compose", "--file", composePath] ++
    (if s.findEnvPath t stackName != "" then ["--env-file", s.findEnvPath t stackName] else []) ++
    args

/-- `composeCommand`; `stacks.go:129–135`. -/
def composeCommand (t : FileTree α) (stackName : String) (args : List String) :
    Except String (List String) :=
  match s.findComposePath t stackName with
  | .error err => .error err
  | .ok composePath => .ok (s.composeCommandWithFile t stackName composePath args)

end Stacks

/-- `ListStacks`; `stacks.go:73–91`. -/
def listStacks {α : Type} (t : FileTree α) : List String :=
  ((t.readDir.filter (fun e ↦
    !hasPrefix e.1 "." && !hasPrefix e.1 "_" && e.2)).map (·.1)).mergeSort (· ≤ ·)

/-- `StackExists`; `stacks.go:93–99`. -/
def stackExists {α : Type} (t : FileTree α) (name : String) : Bool := (listStacks t).contains name

/-- The stack that `ListStackUpdates` counts a container for: the listed one that its project
label names; `stacks.go:461–465`. -/
def updateStack (names : List String) (c : Summary) : Option String :=
  (c.labels.get? projectLabel).filter names.contains

/-- The compose file of a stack: the first of the four names that is there. -/
def composeFile? {α : Type} (t : FileTree α) (name : String) : Option String :=
  composeFilenames.find? (fun f ↦ t.stat (.inner name f))

/-- They are ordinary file names. -/
theorem isName_of_mem_composeFilenames : ∀ f ∈ composeFilenames, Path.IsName f.toList := by
  decide

/-- `FindComposePath` looks into the stack's directory. -/
theorem findComposePath_eq {α : Type} (s : Stacks) (t : FileTree α) {name : String}
    (h : Path.IsName name.toList) :
    s.findComposePath t name =
      match composeFile? t name with
      | some f => .ok (Path.join [s.stackDir name, f])
      | none => .error ("no compose file found in " ++ name) := by
  have hstat : composeFilenames.find?
        ((fun path ↦ t.stat (locate s.stacksDir path)) ∘
          fun f ↦ Path.join [s.stackDir name, f]) = composeFile? t name := by
    apply List.find?_congr
    intro f hf
    have hloc := FileTree.locate_join_join s.stacksDir h (isName_of_mem_composeFilenames f hf)
    exact congrArg t.stat hloc
  unfold Stacks.findComposePath
  dsimp only
  rw [List.find?_map, hstat]
  cases composeFile? t name with
  | none => rfl
  | some f => rfl

/-- `FindEnvPath` looks into the stack's directory. -/
theorem findEnvPath_eq {α : Type} (s : Stacks) (t : FileTree α) {name : String}
    (h : Path.IsName name.toList) :
    s.findEnvPath t name =
      if t.stat (.inner name ".env") then Path.join [s.stackDir name, ".env"] else "" := by
  rw [Stacks.findEnvPath, Stacks.stackDir, FileTree.locate_join_join _ h (by decide)]

private theorem find?_eq_some_iff {fs : List String} {p : String → Bool} {f : String} :
    fs.find? p = some f ↔
      p f = true ∧ f ∈ fs ∧ ∀ g ∈ fs.takeWhile (· != f), p g = false := by
  induction fs with
  | nil => simp
  | cons g fs ih =>
    rw [List.find?_cons, List.takeWhile_cons]
    by_cases hg : g = f
    · subst hg
      cases hp : p g with
      | true => simp
      | false =>
        simp only [Bool.false_eq_true, false_and, iff_false]
        intro h
        rw [List.find?_some h] at hp
        contradiction
    · have hne : (g != f) = true := bne_iff_ne.mpr hg
      cases hp : p g with
      | true => simp [hg, hne, hp]
      | false => simp [ih, hne, hp, Ne.symm hg]

/-- A compose file is the one that is found if the earlier names are not there. -/
theorem composeFile?_eq_some_iff {α : Type} {t : FileTree α} {name f : String} :
    composeFile? t name = some f ↔
      t.stat (.inner name f) = true ∧ f ∈ composeFilenames ∧
        ∀ g ∈ composeFilenames.takeWhile (· != f), t.stat (.inner name g) = false :=
  find?_eq_some_iff

/-- The listed stacks are the directories whose names start with neither `.` nor `_`. -/
theorem stackExists_iff {α : Type} (t : FileTree α) (name : String) :
    stackExists t name = true ↔
      hasPrefix name "." = false ∧ hasPrefix name "_" = false ∧
        ∃ d, t.get? name = some (.dir d) := by
  rw [stackExists, List.contains_iff_mem, listStacks, List.mem_mergeSort, ← t.mem_readDir]
  simp [and_comm, and_assoc, and_left_comm]

/-- They are listed in order, each once. -/
theorem pairwise_listStacks {α : Type} (t : FileTree α) : (listStacks t).Pairwise (· < ·) := by
  apply pairwise_lt_mergeSort
  have hkeys : (t.readDir.map (·.1)).Nodup := by
    have hsame : t.readDir.map (·.1) = t.keys := by
      rw [FileTree.readDir, List.map_map]
      apply List.map_congr_left
      intro e _
      simp only [Function.comp]
      split <;> rfl
    rw [hsame]
    exact t.nodupKeys
  exact hkeys.sublist (List.filter_sublist.map _)

end Dockstack.Docker
