import Mathlib.Data.Set.Insert
import Dockstack.Server.StackName

/-!
# Stacks and their projects

The compose commands of a stack and the container listings for it never exchange the
project's name: one derives it from the path, the other takes the stack's name. They
agree, and stacks stay apart, exactly where the names are canonical.
-/

namespace Dockstack.Server

open Dockstack.Base Dockstack.Docker

variable {α : Type}

/-- Whatever a compose command of the stack creates is found under the stack's name: by both
listings and by the update check. -/
def ContainersFound (s : Stacks) (t : FileTree α) (name : String) : Prop :=
  ∀ args cmd c, s.composeCommand t name args = .ok cmd → CreatedBy cmd c →
    (∀ containers, c ∈ containers → c ∈ listContainers containers true name) ∧
    (∀ containers, c ∈ containers → c.state = "running" →
      c ∈ listRunningContainers containers name) ∧
    ∀ names, name ∈ names → updateStack names c = some name

/-- Some compose commands of the two stacks act on one project. -/
def ShareProject (s : Stacks) (t : FileTree α) (a b : String) : Prop :=
  ∃ args args' cmd cmd', s.composeCommand t a args = .ok cmd ∧
    s.composeCommand t b args' = .ok cmd' ∧ composeProject cmd = composeProject cmd'

private theorem ne_empty_of_stackNameRe {name : String} (h : stackNameRe name = true) :
    name ≠ "" := by
  rintro rfl
  exact (isName_of_stackNameRe h).1 rfl

private theorem containersFound_of_eq {s : Stacks} {t : FileTree α} {name : String}
    (h : stackNameRe name = true) (hproject : normalizeProjectName name = name) :
    ContainersFound s t name := by
  rintro args cmd c hcmd ⟨project, hp, hl⟩
  rw [composeProject_composeCommand (isName_of_stackNameRe h) hcmd, hproject] at hp
  obtain rfl := Option.some.inj hp
  have hne := ne_empty_of_stackNameRe h
  refine ⟨fun cs hc ↦ (mem_listContainers hne c).mpr ⟨hc, hl⟩,
    fun cs hc hs ↦ (mem_listRunningContainers hne c).mpr ⟨hc, hl, hs⟩, fun names hn ↦ ?_⟩
  rw [updateStack, hl]
  exact Option.filter_eq_some_iff.mpr ⟨rfl, List.contains_iff_mem.mpr hn⟩

/-- A container with no label but its project's. -/
private def labelled (project : String) : Summary where
  id := ""
  names := []
  image := ""
  imageID := ""
  state := "running"
  status := ""
  labels := (∅ : KeyMap String String).insert projectLabel project

private theorem get?_labelled (project : String) :
    (labelled project).labels.get? projectLabel = some project :=
  (KeyMap.get?_insert ∅ projectLabel projectLabel project).trans (if_pos rfl)

private theorem eq_of_containersFound {s : Stacks} {t : FileTree α} {name path : String}
    (h : stackNameRe name = true) (hpath : s.findComposePath t name = .ok path)
    (hfound : ContainersFound s t name) : normalizeProjectName name = name := by
  have hcmd := composeCommand_of_findComposePath hpath []
  have hproject := composeProject_composeCommand (isName_of_stackNameRe h) hcmd
  have hlisted := (hfound [] _ (labelled (normalizeProjectName name)) hcmd
    ⟨_, hproject, get?_labelled _⟩).1 [_] List.mem_cons_self
  have hlabel := ((mem_listContainers (ne_empty_of_stackNameRe h) _).mp hlisted).2
  rw [get?_labelled] at hlabel
  exact Option.some.inj hlabel

/-- In any set of stacks, every stack's containers are found under its name and no two stacks
share a project exactly when every name is canonical: without capital letters, and without
`_` or `-` in front. -/
theorem containersFound_iff_canonical (s : Stacks) (t : FileTree α) (names : Set String)
    (hvalid : ∀ name ∈ names, stackNameRe name = true)
    (hfile : ∀ name ∈ names, ∃ path, s.findComposePath t name = .ok path) :
    ((∀ name ∈ names, ContainersFound s t name) ∧
      ∀ a ∈ names, ∀ b ∈ names, a ≠ b → ¬ ShareProject s t a b) ↔
    ∀ name ∈ names, CanonicalName name := by
  constructor
  · rintro ⟨hfound, -⟩ name hname
    obtain ⟨path, hpath⟩ := hfile name hname
    apply (normalizeProjectName_eq_self (mem_of_stackNameRe (hvalid name hname))).mp
    exact eq_of_containersFound (hvalid name hname) hpath (hfound name hname)
  · intro hcanonical
    have hself (name : String) (hname : name ∈ names) : normalizeProjectName name = name :=
      (normalizeProjectName_eq_self (mem_of_stackNameRe (hvalid name hname))).mpr
        (hcanonical name hname)
    refine ⟨fun name hname ↦ containersFound_of_eq (hvalid name hname) (hself name hname), ?_⟩
    rintro a ha b hb hne ⟨args, args', cmd, cmd', hcmd, hcmd', hshare⟩
    rw [composeProject_composeCommand (isName_of_stackNameRe (hvalid a ha)) hcmd,
      composeProject_composeCommand (isName_of_stackNameRe (hvalid b hb)) hcmd',
      hself a ha, hself b hb] at hshare
    exact hne (Option.some.inj hshare)

/-- The default directories. -/
def demoStacks : Stacks := ⟨"./stacks", "", false⟩

/-- Two stacks whose names differ in one capital letter. -/
def demoTree : FileTree Unit :=
  let compose : Entry (Folder Unit) :=
    .dir ((∅ : Folder Unit).insert "compose.yaml" (.file "services: {}\n"))
  ((∅ : FileTree Unit).insert "App" compose).insert "app" compose

/-- Two stacks with canonical names. -/
def canonicalTree : FileTree Unit :=
  let compose : Entry (Folder Unit) :=
    .dir ((∅ : Folder Unit).insert "compose.yaml" (.file "services: {}\n"))
  ((∅ : FileTree Unit).insert "my_app-2" compose).insert "app" compose

/-- Both are handled consistently, and have a project each. -/
theorem containersFound_iff_canonical_two :
    ContainersFound demoStacks canonicalTree "app" ∧
      ContainersFound demoStacks canonicalTree "my_app-2" ∧
      ¬ ShareProject demoStacks canonicalTree "app" "my_app-2" := by
  have hcanonical : ∀ name ∈ ({"app", "my_app-2"} : Set String), CanonicalName name := by
    have hchars : ∀ name ∈ ({"app", "my_app-2"} : Set String),
        name.toList.all (fun c ↦ !c.isUpper) = true := by
      rintro name (rfl | rfl) <;> decide +kernel
    intro name hname
    refine ⟨fun c hc ↦ ?_, ?_⟩
    · simpa using List.all_eq_true.mp (hchars name hname) c hc
    · rcases hname with rfl | rfl <;> decide +kernel
  have hvalid : ∀ name ∈ ({"app", "my_app-2"} : Set String), stackNameRe name = true := by
    rintro name (rfl | rfl) <;> decide +kernel
  have hfile : ∀ name ∈ ({"app", "my_app-2"} : Set String),
      ∃ path, demoStacks.findComposePath canonicalTree name = .ok path := by
    rintro name (rfl | rfl)
    · exact ⟨"stacks/app/compose.yaml", by decide +kernel⟩
    · exact ⟨"stacks/my_app-2/compose.yaml", by decide +kernel⟩
  obtain ⟨hfound, happart⟩ := (containersFound_iff_canonical demoStacks canonicalTree
    {"app", "my_app-2"} hvalid hfile).mpr hcanonical
  exact ⟨hfound _ (.inl rfl), hfound _ (.inr rfl),
    happart _ (.inl rfl) _ (.inr rfl) (by decide)⟩

/-- The stack `App` runs in the project `app`: its containers are not found under its name, and
they are those of the stack `app`. -/
theorem not_containersFound_of_capital :
    (¬ ∀ (s : Stacks) (t : FileTree Unit) (name : String), stackNameRe name = true →
      ContainersFound s t name) ∧
    ¬ ∀ (s : Stacks) (t : FileTree Unit) (a b : String), stackNameRe a = true →
      stackNameRe b = true → a ≠ b → ¬ ShareProject s t a b := by
  constructor
  · intro h
    have hpath : demoStacks.findComposePath demoTree "App" = .ok "stacks/App/compose.yaml" := by
      decide +kernel
    have hok := h demoStacks demoTree "App" (by decide +kernel)
    have heq := eq_of_containersFound (by decide +kernel) hpath hok
    exact absurd heq (by decide +kernel)
  · intro h
    refine h demoStacks demoTree "App" "app" (by decide +kernel) (by decide +kernel)
      (by decide) ⟨["down"], ["down"],
      ["compose", "--file", "stacks/App/compose.yaml", "down"],
      ["compose", "--file", "stacks/app/compose.yaml", "down"], ?_, ?_, ?_⟩
    · decide +kernel
    · decide +kernel
    · decide +kernel

end Dockstack.Server
