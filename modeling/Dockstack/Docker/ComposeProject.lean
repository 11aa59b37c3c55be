import Dockstack.Base.Words
import Dockstack.Docker.Stacks

/-!
# The project of a compose command

With no `-p` flag, no `COMPOSE_PROJECT_NAME` and no top-level `name:`, Docker Compose
names the project after the directory of the compose file. The code never sees that
name: it asks the daemon for containers by the stack's own name.
-/

namespace Dockstack.Docker

open Dockstack.Base

/-- The value of `--file` in the arguments that `composeCommandWithFile` builds. -/
def composeFileArg : List String → Option String
  | "--config" :: _ :: "compose" :: "--file" :: path :: _ => some path
  | "compose" :: "--file" :: path :: _ => some path
  | _ => none

/-- The characters of a project name. -/
def isProjectChar (c : Char) : Bool := c.isLower || c.isDigit || c == '_' || c == '-'

/-- Compose's normalisation: lower case, other characters dropped, leading `_` and `-` stripped. -/
def normalizeProjectName (s : String) : String :=
  .ofList (((s.toList.map Char.toLower).filter isProjectChar).dropWhile
    (fun c ↦ c == '_' || c == '-'))

/-- The project of `docker compose --file DIR/compose.yaml`. -/
def composeProject (args : List String) : Option String :=
  (composeFileArg args).map (fun path ↦ normalizeProjectName (Path.base (Path.dir path)))

/-- A container that a compose command created carries the command's project. -/
def CreatedBy (cmd : List String) (c : Summary) : Prop :=
  ∃ project, composeProject cmd = some project ∧ c.labels.get? projectLabel = some project

/-- No capital letter, and neither `_` nor `-` in front. -/
def CanonicalName (name : String) : Prop :=
  (∀ c ∈ name.toList, c.isUpper = false) ∧ name.toList.head? ≠ some '_' ∧
    name.toList.head? ≠ some '-'

/-- A compose path is one of the four file names in the stack's directory. -/
theorem findComposePath_eq_ok {α : Type} {s : Stacks} {t : FileTree α} {name path : String}
    (h : s.findComposePath t name = .ok path) :
    ∃ f ∈ composeFilenames, path = Path.join [Path.join [s.stacksDir, name], f] := by
  unfold Stacks.findComposePath at h
  dsimp only at h
  split at h
  · next p hp =>
    obtain rfl := Except.ok.inj h
    obtain ⟨f, hf, rfl⟩ := List.mem_map.mp (List.mem_of_find?_eq_some hp)
    exact ⟨f, hf, rfl⟩
  · contradiction

/-- The file argument of a compose command is the path it was built with. -/
theorem composeFileArg_composeCommandWithFile {α : Type} (s : Stacks) (t : FileTree α)
    (name path : String) (args : List String) :
    composeFileArg (s.composeCommandWithFile t name path args) = some path := by
  unfold Stacks.composeCommandWithFile
  by_cases h : s.hasConfigFile = true
  · rw [if_pos h]
    rfl
  · rw [if_neg h]
    rfl

/-- A stack's compose commands run in the project named after it, normalised. -/
theorem composeProject_composeCommand {α : Type} {s : Stacks} {t : FileTree α} {name : String}
    (hname : Path.IsName name.toList) {args cmd : List String}
    (h : s.composeCommand t name args = .ok cmd) :
    composeProject cmd = some (normalizeProjectName name) := by
  unfold Stacks.composeCommand at h
  split at h
  · contradiction
  · next path hpath =>
    obtain rfl := Except.ok.inj h
    obtain ⟨f, hf, rfl⟩ := findComposePath_eq_ok hpath
    rw [composeProject, composeFileArg_composeCommandWithFile, Option.map_some,
      Path.dir_join_name _ (isName_of_mem_composeFilenames f hf), Path.clean_join_name _ hname,
      Path.base_join_name _ hname]

/-- Where a compose file exists, so do the compose commands. -/
theorem composeCommand_of_findComposePath {α : Type} {s : Stacks} {t : FileTree α}
    {name path : String} (h : s.findComposePath t name = .ok path) (args : List String) :
    s.composeCommand t name args = .ok (s.composeCommandWithFile t name path args) := by
  unfold Stacks.composeCommand
  split
  · next e he =>
    rw [h] at he
    contradiction
  · next p hp =>
    rw [h] at hp
    obtain rfl := Except.ok.inj hp
    rfl

private theorem toLower_eq_self {c : Char} (h : c.isUpper = false) : c.toLower = c :=
  dif_neg (of_decide_eq_false h)

private theorem not_isUpper_of_isProjectChar {c : Char} (h : isProjectChar c = true) :
    c.isUpper = false := by
  rw [Bool.eq_false_iff, ne_eq, isUpper_iff]
  simp only [isProjectChar, Bool.or_eq_true, beq_iff_eq, or_assoc, isLower_iff, isDigit_iff] at h
  rcases h with hl | hd | rfl | rfl
  · omega
  · omega
  · decide
  · decide

private theorem isProjectChar_of_not_isUpper {c : Char}
    (h : c.isAlphanum = true ∨ c = '_' ∨ c = '-') (hu : c.isUpper = false) :
    isProjectChar c = true := by
  have hnot : ¬ c.isUpper = true := by rwa [Bool.not_eq_true]
  rw [isAlphanum_iff, or_iff_right hnot] at h
  simpa only [isProjectChar, Bool.or_eq_true, beq_iff_eq, or_assoc] using h

/-- Normalisation leaves exactly the canonical names alone. -/
theorem normalizeProjectName_eq_self {name : String}
    (hchars : ∀ c ∈ name.toList, c.isAlphanum = true ∨ c = '_' ∨ c = '-') :
    normalizeProjectName name = name ↔ CanonicalName name := by
  constructor
  · intro h
    have hlist : ((name.toList.map Char.toLower).filter isProjectChar).dropWhile
        (fun c ↦ c == '_' || c == '-') = name.toList := by
      conv_rhs => rw [← h, normalizeProjectName, String.toList_ofList]
    have hhead := List.head?_dropWhile_not (fun c : Char ↦ c == '_' || c == '-')
      ((name.toList.map Char.toLower).filter isProjectChar)
    rw [hlist] at hhead
    refine ⟨fun c hc ↦ ?_, fun hu ↦ ?_, fun hd ↦ ?_⟩
    · rw [← hlist] at hc
      exact not_isUpper_of_isProjectChar
        (List.mem_filter.mp ((List.dropWhile_sublist _).subset hc)).2
    · rw [hu] at hhead
      contradiction
    · rw [hd] at hhead
      contradiction
  · rintro ⟨hupper, hu, hd⟩
    have hmap : name.toList.map Char.toLower = name.toList := by
      conv_rhs => rw [← List.map_id name.toList]
      exact List.map_congr_left (fun c hc ↦ toLower_eq_self (hupper c hc))
    have hfilter : name.toList.filter isProjectChar = name.toList :=
      List.filter_eq_self.mpr
        (fun c hc ↦ isProjectChar_of_not_isUpper (hchars c hc) (hupper c hc))
    have hdrop : name.toList.dropWhile (fun c ↦ c == '_' || c == '-') = name.toList := by
      cases hl : name.toList with
      | nil => rfl
      | cons c l =>
        rw [hl, List.head?_cons] at hu hd
        apply List.dropWhile_cons_of_neg
        simp only [Bool.or_eq_true, beq_iff_eq, not_or]
        exact ⟨fun hc ↦ hu (congrArg some hc), fun hc ↦ hd (congrArg some hc)⟩
    rw [normalizeProjectName, hmap, hfilter, hdrop, String.ofList_toList]

end Dockstack.Docker
