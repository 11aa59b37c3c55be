import Dockstack.Base.Service
import Dockstack.Server.StackSaveRead
import Dockstack.Server.StackSlots

/-!
# Stacks do not see each other

The handlers of `internal/server/api/stacks.go:135–330` share one directory and one Docker.
Over whole runs, with every fault that can occur, the requests about some stacks are
answered as if the others had never been made, and leave the same files and services.
-/

namespace Dockstack.Server

open Dockstack.Base Dockstack.Docker

variable {α : Type}

private theorem foldl_update_congr {V : Type} (ps : List (String × V)) {f g : String → V}
    {n : String} (h : f n = g n) :
    ps.foldl (fun f p ↦ Function.update f p.1 p.2) f n =
      ps.foldl (fun f p ↦ Function.update f p.1 p.2) g n := by
  induction ps generalizing f g with
  | nil => exact h
  | cons p ps ih =>
    apply ih
    dsimp only
    rw [Function.update_apply, Function.update_apply, h]

private theorem foldl_update_of_ne {V : Type} {ps : List (String × V)} {n : String}
    (h : ∀ p ∈ ps, p.1 ≠ n) (f : String → V) :
    ps.foldl (fun f p ↦ Function.update f p.1 p.2) f n = f n := by
  induction ps generalizing f with
  | nil => rfl
  | cons p ps ih =>
    rw [List.foldl_cons, ih (fun q hq ↦ h q (List.mem_cons_of_mem p hq)),
      Function.update_of_ne (h p List.mem_cons_self).symm]

namespace StackCall

variable {s : Stacks} {c : StackCall}

/-- An effect depends only on what lies under the names in the request. -/
theorem effect_congr {slot slot' : String → Slot α} (h : ∀ n ∈ c.names, slot n = slot' n) :
    c.effect s slot = c.effect s slot' := by
  cases c with
  | rename name newName o =>
    rw [effect, effect, h name (by simp [names]), h newName (by simp [names])]
  | _ => rw [effect, effect, h _ (List.mem_singleton_self _)]

/-- What an effect is about: names in the request, and the projects of these names. -/
structure Confined (names : List String) (e : StackEffect α) : Prop where
  slots : ∀ p ∈ e.slots, p.1 ∈ names
  services : ∀ p ∈ e.services, ∃ n ∈ names, normalizeProjectName n = p.1

private theorem Confined.ite {p : Prop} [Decidable p] {names : List String}
    {e e' : StackEffect α} (h : Confined names e) (h' : Confined names e') :
    Confined names (if p then e else e') := by
  split
  · exact h
  · exact h'

private theorem confined_answer (names : List String) (r : StackReply) :
    Confined names (.answer r : StackEffect α) := by
  constructor
  · intro p hp
    contradiction
  · intro p hp
    contradiction

private theorem confined_refuse (names : List String) (status : Nat) (detail : String) :
    Confined names (.refuse status detail : StackEffect α) := confined_answer names _

private theorem confined_slot (name : String) (e : Slot α) (r : StackReply) :
    Confined [name] ⟨r, [(name, e)], []⟩ := by
  constructor
  · simp
  · simp

private theorem confined_get (e : Slot α) (name : String) (o : FilesGetFaults) :
    Confined [name] (StackEffect.get e name o) := by
  refine .ite (confined_refuse _ _ _) ?_
  split
  · exact confined_refuse _ _ _
  · split
    · exact confined_refuse _ _ _
    · exact confined_answer _ _

private theorem confined_starter (e : Slot α) (name file data : String) (mkdirFails : Bool)
    (o : WriteOutcome) (mkdirDetail writeDetail : String) :
    Confined [name]
      (StackEffect.starter e name file data mkdirFails o mkdirDetail writeDetail) := by
  unfold StackEffect.starter
  split
  · exact confined_refuse _ _ _
  · exact confined_slot _ _ _

private theorem confined_save (s : Stacks) (e : Slot α) (name : String)
    (req : StackFilesSaveRequest) (o : FilesSaveFaults) :
    Confined [name] (StackEffect.save s e name req o) := by
  unfold StackEffect.save
  split
  · exact confined_answer _ _
  · refine .ite (confined_slot _ _ _) ?_
    split
    · exact confined_slot _ _ _
    · exact confined_slot _ _ _

/-- Services of the stack's own project only. -/
private def Own (name : String) (services : List (String × List String)) : Prop :=
  ∀ p ∈ services, normalizeProjectName name = p.1

private theorem own_singleton (name : String) (services : List String) :
    Own name [(normalizeProjectName name, services)] := by
  simp [Own]

private theorem confined_own {names : List String} {name : String} (h : name ∈ names)
    {slots : List (String × Slot α)} (hslots : ∀ p ∈ slots, p.1 ∈ names)
    {services : List (String × List String)} (hservices : Own name services) (r : StackReply) :
    Confined names ⟨r, slots, services⟩ :=
  ⟨hslots, fun p hp ↦ ⟨name, h, hservices p hp⟩⟩

private theorem confined_moved (e : Slot α) (name newName : String) (o : RenameFaults)
    {down : List (String × List String)} (h : Own name down) :
    Confined [name, newName] (StackEffect.moved e name newName o down) := by
  have hslots : ∀ p ∈ [(name, none), (newName, e)], p.1 ∈ [name, newName] := by simp
  refine .ite (confined_own (by simp) hslots h _) (.ite (confined_own (by simp) hslots h _) ?_)
  refine ⟨hslots, fun p hp ↦ ?_⟩
  rcases List.mem_append.mp hp with hp | hp
  · exact ⟨name, by simp, h p hp⟩
  · exact ⟨newName, by simp, own_singleton newName o.started p hp⟩

private theorem confined_rename (s : Stacks) (e e' : Slot α) (name newName : String)
    (o : RenameFaults) :
    Confined [name, newName] (StackEffect.rename s e e' name newName o) := by
  have hdown : Own name
      (if Slot.composeFile e = none then [] else [(normalizeProjectName name, [])]) := by
    split
    · intro p hp
      contradiction
    · exact own_singleton name []
  have hstopped (r : StackReply) : Confined [name, newName] (⟨r, [], _⟩ : StackEffect α) :=
    confined_own (by simp) (by simp) hdown r
  refine .ite (confined_refuse _ _ _) (.ite (confined_refuse _ _ _) (.ite (confined_answer _ _) ?_))
  refine .ite (confined_refuse _ _ _)
    (.ite (confined_refuse _ _ _) (.ite (confined_refuse _ _ _) ?_))
  refine .ite (confined_refuse _ _ _) (.ite (confined_refuse _ _ _) ?_)
  exact .ite (hstopped _) (.ite (hstopped _) (confined_moved _ _ _ _ hdown))

private theorem confined_destroy (s : Stacks) (e : Slot α) (name : String) (o : DestroyFaults) :
    Confined [name] (StackEffect.destroy s e name o) := by
  have hdown := own_singleton name []
  refine .ite (confined_refuse _ _ _) (.ite (confined_refuse _ _ _) ?_)
  refine .ite (confined_own (by simp) (by simp) hdown _) ?_
  refine .ite (confined_own (by simp) (by simp) hdown _) ?_
  exact confined_own (by simp) (by simp) hdown _

/-- An effect is about the names in the request. -/
theorem confined_effect (s : Stacks) (c : StackCall) (slot : String → Slot α) :
    Confined c.names (c.effect s slot) := by
  cases c with
  | get name o => exact confined_get _ name o
  | create name o =>
    refine .ite (confined_refuse _ _ _) (.ite (confined_refuse _ _ _) ?_)
    exact .ite (confined_refuse _ _ _) (confined_starter _ _ _ _ _ _ _ _)
  | createEnv name o => exact .ite (confined_refuse _ _ _) (confined_starter _ _ _ _ _ _ _ _)
  | save name req o => exact confined_save s _ name req o
  | rename name newName o => exact confined_rename s _ _ name newName o
  | destroy name o => exact confined_destroy s _ name o

end StackCall

/-- Two worlds agree on the files of some stacks and on the services of some projects. -/
structure AgreeOn (stack : String → Bool) (project : String → Prop) (w w' : World α) : Prop where
  files : ∀ n, stack n = true → w.tree.get? n = w'.tree.get? n
  services : ∀ p, project p → w.running p = w'.running p

namespace StackCall

variable {stack : String → Bool} {project : String → Prop} {s : Stacks} {cli : DockerCLI α}

/-- All names in the request are among the given ones. -/
def About (stack : String → Bool) (c : StackCall) : Bool := c.names.all stack

private theorem alike_serve {c : StackCall} (h : c.About stack = true) (w w' : World α)
    (hagree : AgreeOn stack project w w') :
    Alike (AgreeOn stack project) (serve s cli w c) (serve s cli w' c) := by
  obtain ⟨hreply, hshelf⟩ := done_effect s cli w c
  obtain ⟨hreply', hshelf'⟩ := done_effect s cli w' c
  have hsame : c.effect s w.shelf.slot = c.effect s w'.shelf.slot :=
    effect_congr fun n hn ↦ hagree.files n (List.all_eq_true.mp h n hn)
  rw [hsame] at hreply hshelf
  refine ⟨hreply.trans hreply'.symm, fun n hn ↦ ?_, fun p hp ↦ ?_⟩
  · refine (congrFun (congrArg Shelf.slot hshelf) n).trans ?_
    refine Eq.trans ?_ (congrFun (congrArg Shelf.slot hshelf') n).symm
    exact foldl_update_congr _ (hagree.files n hn)
  · refine (congrFun (congrArg Shelf.running hshelf) p).trans ?_
    refine Eq.trans ?_ (congrFun (congrArg Shelf.running hshelf') p).symm
    exact foldl_update_congr _ (hagree.services p hp)

private theorem agreeOn_serve {c : StackCall} (hnames : ∀ n ∈ c.names, stack n = false)
    (hprojects : ∀ n ∈ c.names, ¬ project (normalizeProjectName n)) {w w' : World α}
    (hagree : AgreeOn stack project w w') : AgreeOn stack project (serve s cli w c).2 w' := by
  have hshelf := (done_effect s cli w c).shelf
  have hconfined := confined_effect s c w.shelf.slot
  constructor
  · intro n hn
    refine (congrFun (congrArg Shelf.slot hshelf) n).trans ?_
    refine Eq.trans (foldl_update_of_ne (fun p hp heq ↦ ?_) _) (hagree.files n hn)
    have hfalse := hnames p.1 (hconfined.slots p hp)
    rw [heq, hn] at hfalse
    contradiction
  · intro p hp
    refine (congrFun (congrArg Shelf.running hshelf) p).trans ?_
    refine Eq.trans (foldl_update_of_ne (fun q hq heq ↦ ?_) _) (hagree.services p hp)
    obtain ⟨n, hn, hproject⟩ := hconfined.services q hq
    rw [← heq, ← hproject] at hp
    exact hprojects n hn hp

/-- Stacks are isolated: in a run of requests, with any faults, in which no rename leads into or out
of a set of stacks, those about the set are answered as in the run without the others, from any
world that holds the same files for these stacks. They leave the same files and, in every project
that started with the same services and that no other request can touch, the same services. -/
theorem isolated (s : Stacks) (cli : DockerCLI α) (stack : String → Bool) (calls : List StackCall)
    (hsplit : ∀ c ∈ calls, (∀ n ∈ c.names, stack n = true) ∨ ∀ n ∈ c.names, stack n = false)
    (w w' : World α) (hfiles : ∀ n, stack n = true → w.tree.get? n = w'.tree.get? n) :
    let r := serveAll (serve s cli) w calls
    let r' := serveAll (serve s cli) w' (calls.filter (About stack))
    answersTo (About stack) calls r.1 = r'.1 ∧
      (∀ n, stack n = true → r.2.tree.get? n = r'.2.tree.get? n) ∧
      ∀ p, w.running p = w'.running p →
        (∀ c ∈ calls, About stack c = false → ∀ n ∈ c.names, normalizeProjectName n ≠ p) →
        r.2.running p = r'.2.running p := by
  let untouched (p : String) : Prop := w.running p = w'.running p ∧
    ∀ c ∈ calls, About stack c = false → ∀ n ∈ c.names, normalizeProjectName n ≠ p
  have hstart : AgreeOn stack untouched w w' := ⟨hfiles, fun p hp ↦ hp.1⟩
  have hstep : ∀ c ∈ calls, Isolated (serve s cli) (About stack) (AgreeOn stack untouched) c := by
    intro c hc
    refine ⟨fun hown ↦ alike_serve hown, fun hother u u' hagree ↦ ?_⟩
    refine agreeOn_serve ?_ (fun n hn hp ↦ hp.2 c hc hother n hn rfl) hagree
    refine (hsplit c hc).resolve_left fun hall ↦ ?_
    rw [About, List.all_eq_true.mpr hall] at hother
    contradiction
  have hrun := alike_filter hstep hstart
  exact ⟨hrun.answer, hrun.state.files, fun p hp hothers ↦ hrun.state.services p ⟨hp, hothers⟩⟩

/-- Creating and destroying `blog` is not seen by a reader of `app`. -/
theorem isolated_app :
    answersTo (About (· == "app"))
        [.create "blog" ⟨false, false, .done⟩, .get "app" ⟨false, false⟩,
          .destroy "blog" ⟨false, false⟩, .get "app" ⟨false, true⟩]
        (serveAll (serve defaultStacks noDocker) demoWorld
          [.create "blog" ⟨false, false, .done⟩, .get "app" ⟨false, false⟩,
            .destroy "blog" ⟨false, false⟩, .get "app" ⟨false, true⟩]).1 =
      (serveAll (serve defaultStacks noDocker) demoWorld
        [.get "app" ⟨false, false⟩, .get "app" ⟨false, true⟩]).1 := by
  have hrun := isolated defaultStacks noDocker (· == "app")
    [.create "blog" ⟨false, false, .done⟩, .get "app" ⟨false, false⟩,
      .destroy "blog" ⟨false, false⟩, .get "app" ⟨false, true⟩]
    (by simp [names]) demoWorld demoWorld (fun _ _ ↦ rfl)
  exact hrun.1

end StackCall

end Dockstack.Server
