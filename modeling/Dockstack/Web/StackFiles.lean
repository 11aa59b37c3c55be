import Dockstack.Base.History
import Dockstack.Base.KeyMap
import Dockstack.Base.Machine

/-!
# The stack editor

The state of `StackFiles` in `web/src/components/stacks/files.tsx:68–181` over any run of
stack switches, file-query results, edits and saves. The route renders it without a key,
so one instance lives on when only the stack changes. The query cache holds one result
for each stack; a result that is equal to the cached one keeps its identity, and the
effect runs when the identity of the shown result has changed.
-/

namespace Dockstack.Web

open Dockstack.Base

/-- The answer of the files query; `env` is `null` when the stack has no `.env`. -/
structure StackFilesData where
  compose : String
  composeFile : String
  env : Option String
  deriving DecidableEq

/-- A cached result with its object identity. -/
structure CachedFiles where
  ref : Nat
  data : StackFilesData
  deriving DecidableEq

/-- The body of a save request; an absent `env` is `undefined`. -/
structure SaveRequest where
  name : String
  compose : String
  composeFile : String
  env : Option String
  deriving DecidableEq

/-- What happened, for the history. -/
inductive FilesEvent where
  | arrived (name : String) (data : StackFilesData)
  | filled (name env : String)
  | typed (name env : String)
  | saved (req : SaveRequest)
  deriving DecidableEq

/-- The component's state (`compose`, `envContent`, the result its effect last ran for, a save
under way), the query cache, and the history oldest first. -/
structure FilesState where
  stackName : String
  cache : KeyMap String CachedFiles
  nextRef : Nat
  seen : Option (String × Nat)
  compose : String
  envContent : Option String
  isPending : Bool
  history : List FilesEvent

/-- What can happen to the component. -/
inductive FilesAction where
  | switchTo (name : String)
  | remount (name : String)
  | arrive (name : String) (data : StackFilesData)
  | evict (name : String)
  | editCompose (value : String)
  | editEnv (value : String)
  | save
  | settle
  deriving DecidableEq

namespace FilesState

/-- The first render, with an empty cache. -/
def init (name : String) : FilesState where
  stackName := name
  cache := ∅
  nextRef := 0
  seen := none
  compose := ""
  envContent := none
  isPending := false
  history := []

/-- `filesQuery`, for the shown stack. -/
def shown (s : FilesState) : Option CachedFiles := s.cache.get? s.stackName

/-- The identity of `filesQuery.data`, the dependency of the effect. -/
def shownRef (s : FilesState) : Option (String × Nat) :=
  s.shown.map (fun c ↦ (s.stackName, c.ref))

/-- `isDirty`; `files.tsx:104–105`. An undefined `envContent` differs from a `null` one. -/
def isDirty (s : FilesState) : Bool :=
  match s.shown with
  | none => false
  | some c => s.compose != c.data.compose ||
      !(s.envContent.isSome && s.envContent == c.data.env)

/-- The body of the effect for a result; `files.tsx:98–102`. -/
def fill (s : FilesState) (data : StackFilesData) : FilesState :=
  match data.env with
  | none | some "" => { s with compose := data.compose }
  | some env => { s with
      compose := data.compose, envContent := some env,
      history := s.history ++ [.filled s.stackName env] }

/-- Run the effect if the shown result is not the one it last ran for. -/
def flush (s : FilesState) : FilesState :=
  if s.shownRef = s.seen then s
  else
    match s.shown with
    | none => { s with seen := s.shownRef }
    | some c => fill { s with seen := s.shownRef } c.data

/-- A query result reaches the cache; `.ref` is kept for an equal one. -/
def receive (s : FilesState) (name : String) (data : StackFilesData) : FilesState :=
  let s := { s with history := s.history ++ [.arrived name data] }
  if (s.cache.get? name).map (·.data) = some data then s
  else { s with cache := s.cache.insert name ⟨s.nextRef, data⟩, nextRef := s.nextRef + 1 }

/-- The update of an action before the effect runs; `none` when the interface does not offer
it: the editors and the button need a result, the `.env` editor a defined content. -/
def apply (s : FilesState) : FilesAction → Option FilesState
  | .switchTo name => some { s with stackName := name }
  | .remount name => some { s with
      stackName := name, seen := none, compose := "", envContent := none, isPending := false }
  | .arrive name data => some (s.receive name data)
  | .evict name => if name = s.stackName then none else some { s with cache := s.cache.erase name }
  | .editCompose value => if s.shown.isSome then some { s with compose := value } else none
  | .editEnv value =>
    if s.shown.isSome && s.envContent.isSome then
      some { s with envContent := some value, history := s.history ++ [.typed s.stackName value] }
    else none
  | .save =>
    match s.shown with
    | none => none
    | some c =>
      if s.isDirty && !s.isPending then
        some { s with
          isPending := true
          history := s.history ++
            [.saved ⟨s.stackName, s.compose, c.data.composeFile, s.envContent⟩] }
      else none
  | .settle => some { s with isPending := false }

/-- One action, and the effect after it. -/
def step (s : FilesState) (a : FilesAction) : Option FilesState := (s.apply a).map flush

end FilesState

/-- `env` was loaded from the stack's own `.env` or typed while the stack was shown. -/
def Own (history : List FilesEvent) (name env : String) : Prop :=
  (∃ data, .arrived name data ∈ history ∧ data.env = some env) ∨ .typed name env ∈ history

/-- Every save so far sent an absent `env` or the stack's own. -/
def SavesOwn : List FilesEvent → Prop :=
  Always (fun before e ↦ ∀ req env, e = .saved req → req.env = some env → Own before req.name env)

/-- The stack whose text the env editor got last. -/
def envOwner (history : List FilesEvent) : Option String :=
  history.foldl (fun owner e ↦
    match e with
    | .filled name _ | .typed name _ => some name
    | _ => owner) none

/-- If files without env text come on display, the env editor is undefined or it got its text
while the same stack was shown. -/
def NoForeignEnv (s : FilesState) (a : FilesAction) : Prop :=
  ∀ s₁ ∈ s.apply a, ∀ c ∈ s₁.shown, s₁.shownRef ≠ s₁.seen →
    (c.data.env = none ∨ c.data.env = some "") →
      s₁.envContent = none ∨ envOwner s₁.history = some s₁.stackName

instance (s : FilesState) (a : FilesAction) : Decidable (NoForeignEnv s a) :=
  inferInstanceAs (Decidable (∀ s₁ ∈ s.apply a, ∀ c ∈ s₁.shown, s₁.shownRef ≠ s₁.seen →
    (c.data.env = none ∨ c.data.env = some "") →
      s₁.envContent = none ∨ envOwner s₁.history = some s₁.stackName))

private theorem Own.append {h : List FilesEvent} {name env : String} (ho : Own h name env)
    (ext : List FilesEvent) : Own (h ++ ext) name env := by
  rcases ho with ⟨data, hmem, henv⟩ | hmem
  · exact .inl ⟨data, List.mem_append_left _ hmem, henv⟩
  · exact .inr (List.mem_append_left _ hmem)

private theorem savesOwn_append {h : List FilesEvent} {e : FilesEvent} (hs : SavesOwn h)
    (he : ∀ req, e ≠ .saved req) : SavesOwn (h ++ [e]) :=
  always_append_singleton.mpr ⟨hs, fun req _ heq _ ↦ absurd heq (he req)⟩

private theorem envOwner_append (h : List FilesEvent) (e : FilesEvent) :
    envOwner (h ++ [e]) =
      match e with
      | .filled name _ | .typed name _ => some name
      | _ => envOwner h := by
  rw [envOwner, List.foldl_append]
  rfl

/-- What ties the editor to the history: cached results have arrived, the env editor's text is
that of the stack it was filled or typed for, and, once the effect has run for the shown
result, of the shown stack. -/
structure EnvInv (s : FilesState) : Prop where
  cached : ∀ name c, s.cache.get? name = some c → .arrived name c.data ∈ s.history
  owner : ∀ env, s.envContent = some env →
    ∃ name, envOwner s.history = some name ∧ Own s.history name env
  shown : s.shownRef = s.seen → s.shown.isSome = true → ∀ env, s.envContent = some env →
    Own s.history s.stackName env
  saves : SavesOwn s.history

namespace EnvInv

variable {s s₁ : FilesState}

private theorem init (name : String) : EnvInv (.init name) where
  cached _ _ h := nomatch h
  owner _ h := nomatch h
  shown _ _ _ h := nomatch h
  saves := always_nil _

private theorem flush (h : EnvInv s)
    (hown : ∀ c, s.shown = some c → s.shownRef ≠ s.seen →
      (c.data.env = none ∨ c.data.env = some "") →
        s.envContent = none ∨ envOwner s.history = some s.stackName) :
    EnvInv s.flush ∧ s.flush.shownRef = s.flush.seen := by
  unfold FilesState.flush
  by_cases heq : s.shownRef = s.seen
  · rw [if_pos heq]
    exact ⟨h, heq⟩
  · rw [if_neg heq]
    -- without env text in the result, what the editor holds must be the shown stack's
    have hkept (c : CachedFiles) (hc : s.shown = some c)
        (henv : c.data.env = none ∨ c.data.env = some "") (env : String)
        (hcontent : s.envContent = some env) : Own s.history s.stackName env := by
      rcases hown c hc heq henv with hnone | howner
      · rw [hnone] at hcontent
        contradiction
      · obtain ⟨name, hname, ho⟩ := h.owner env hcontent
        rw [howner] at hname
        obtain rfl := Option.some.inj hname
        exact ho
    cases hc : s.shown with
    | none =>
      refine ⟨⟨h.cached, h.owner, fun _ hsome ↦ ?_, h.saves⟩, rfl⟩
      have hnone : s.shown.isSome = true := hsome
      rw [hc] at hnone
      contradiction
    | some c =>
      dsimp only
      unfold FilesState.fill
      split
      · next hnone => exact ⟨⟨h.cached, h.owner, fun _ _ ↦ hkept c hc (.inl hnone), h.saves⟩, rfl⟩
      · next hempty =>
        exact ⟨⟨h.cached, h.owner, fun _ _ ↦ hkept c hc (.inr hempty), h.saves⟩, rfl⟩
      · next env hne henv =>
        have harrived := h.cached s.stackName c hc
        have hself : Own (s.history ++ [.filled s.stackName env]) s.stackName env :=
          Own.append (.inl ⟨c.data, harrived, henv⟩) _
        refine ⟨⟨fun n c' hc' ↦ List.mem_append_left _ (h.cached n c' hc'), ?_, ?_, ?_⟩, rfl⟩
        · rintro env' henv'
          obtain rfl := Option.some.inj henv'
          exact ⟨s.stackName, envOwner_append _ _, hself⟩
        · rintro - - env' henv'
          obtain rfl := Option.some.inj henv'
          exact hself
        · exact savesOwn_append h.saves fun _ ↦ FilesEvent.noConfusion

private theorem carry (h : EnvInv s) (hflushed : s.shownRef = s.seen) (hseen : s₁.seen = s.seen)
    (hcontent : s₁.envContent = s.envContent) (ext : List FilesEvent)
    (hhistory : s₁.history = s.history ++ ext) (heq : s₁.shownRef = s₁.seen)
    (hsome : s₁.shown.isSome = true) (env : String) (henv : s₁.envContent = some env) :
    Own s₁.history s₁.stackName env := by
  obtain ⟨c, hc⟩ := Option.isSome_iff_exists.mp hsome
  have href : s.shownRef = some (s₁.stackName, c.ref) := by
    rw [hflushed, ← hseen, ← heq, FilesState.shownRef, hc]
    rfl
  obtain ⟨c', hc', hpair⟩ := Option.map_eq_some_iff.mp href
  have hname : s.stackName = s₁.stackName := (Prod.mk.inj hpair).1
  rw [hhistory, ← hname]
  exact Own.append (h.shown hflushed (by rw [hc']; rfl) env (hcontent ▸ henv)) ext

private theorem apply (h : EnvInv s) (hflushed : s.shownRef = s.seen) {a : FilesAction}
    (ha : s.apply a = some s₁) : EnvInv s₁ := by
  cases a with
  | switchTo name =>
    obtain rfl := Option.some.inj ha
    exact ⟨h.cached, h.owner, h.carry hflushed rfl rfl [] (List.append_nil _).symm, h.saves⟩
  | remount name =>
    obtain rfl := Option.some.inj ha
    exact ⟨h.cached, fun _ henv ↦ (nomatch henv), fun _ _ _ henv ↦ (nomatch henv), h.saves⟩
  | arrive name data =>
    obtain rfl := Option.some.inj ha
    have howner (env : String) (henv : s.envContent = some env) :
        ∃ n, envOwner (s.history ++ [.arrived name data]) = some n ∧
          Own (s.history ++ [.arrived name data]) n env := by
      obtain ⟨n, hn, ho⟩ := h.owner env henv
      exact ⟨n, (envOwner_append _ _).trans hn, ho.append _⟩
    have hsaves : SavesOwn (s.history ++ [.arrived name data]) :=
      savesOwn_append h.saves fun _ ↦ FilesEvent.noConfusion
    unfold FilesState.receive
    dsimp only
    split
    · exact ⟨fun n c hc ↦ List.mem_append_left _ (h.cached n c hc), howner,
        h.carry hflushed rfl rfl _ rfl, hsaves⟩
    · refine ⟨fun n c hc ↦ ?_, howner, h.carry hflushed rfl rfl _ rfl, hsaves⟩
      rw [KeyMap.get?_insert] at hc
      split at hc
      · next hn =>
        obtain rfl := Option.some.inj hc
        exact List.mem_append_right _ (hn ▸ List.mem_cons_self)
      · exact List.mem_append_left _ (h.cached n c hc)
  | evict name =>
    simp only [FilesState.apply] at ha
    split at ha
    · contradiction
    · obtain rfl := Option.some.inj ha
      refine ⟨fun n c hc ↦ ?_, h.owner,
        h.carry hflushed rfl rfl [] (List.append_nil _).symm, h.saves⟩
      rw [KeyMap.get?_erase] at hc
      split at hc
      · contradiction
      · exact h.cached n c hc
  | editCompose value =>
    simp only [FilesState.apply] at ha
    split at ha
    · obtain rfl := Option.some.inj ha
      exact ⟨h.cached, h.owner, h.carry hflushed rfl rfl [] (List.append_nil _).symm, h.saves⟩
    · contradiction
  | editEnv value =>
    simp only [FilesState.apply] at ha
    split at ha
    · obtain rfl := Option.some.inj ha
      have htyped : Own (s.history ++ [.typed s.stackName value]) s.stackName value :=
        .inr (List.mem_append_right _ List.mem_cons_self)
      refine ⟨fun n c hc ↦ List.mem_append_left _ (h.cached n c hc), ?_, ?_, ?_⟩
      · rintro env henv
        obtain rfl := Option.some.inj henv
        exact ⟨s.stackName, envOwner_append _ _, htyped⟩
      · rintro - - env henv
        obtain rfl := Option.some.inj henv
        exact htyped
      · exact savesOwn_append h.saves fun _ ↦ FilesEvent.noConfusion
    · contradiction
  | save =>
    simp only [FilesState.apply] at ha
    split at ha
    · contradiction
    · next c hc =>
      split at ha
      · obtain rfl := Option.some.inj ha
        refine ⟨fun n c hc ↦ List.mem_append_left _ (h.cached n c hc), ?_,
          h.carry hflushed rfl rfl _ rfl, ?_⟩
        · rintro env henv
          obtain ⟨name, hname, ho⟩ := h.owner env henv
          exact ⟨name, (envOwner_append _ _).trans hname, ho.append _⟩
        · refine always_append_singleton.mpr ⟨h.saves, fun req env hreq henv ↦ ?_⟩
          obtain rfl := FilesEvent.saved.inj hreq
          exact h.shown hflushed (by rw [hc]; rfl) env henv
      · contradiction
  | settle =>
    obtain rfl := Option.some.inj ha
    exact ⟨h.cached, h.owner, h.carry hflushed rfl rfl [] (List.append_nil _).symm, h.saves⟩

end EnvInv

/-- In every run in which files without env text never come on display over another stack's
text, every save sends an absent `env`, or one that was loaded from the stack's own `.env`
or typed while the stack was shown. -/
theorem savesOwn_of_noForeignEnv (name : String) (actions : List FilesAction) (s : FilesState)
    (hrun : runSteps FilesState.step (.init name) actions = some s)
    (hown : RunMeets FilesState.step NoForeignEnv (.init name) actions) :
    SavesOwn s.history := by
  have hinv : EnvInv s ∧ s.shownRef = s.seen := by
    refine runSteps_invariant_of_meets (I := fun s ↦ EnvInv s ∧ s.shownRef = s.seen)
      ?_ ⟨EnvInv.init name, rfl⟩ hown hrun
    rintro s a s' ⟨h, hflushed⟩ hcond hstep
    obtain ⟨s₁, ha, rfl⟩ := Option.map_eq_some_iff.mp hstep
    exact (h.apply hflushed ha).flush (hcond s₁ ha)
  exact hinv.1.saves

/-- Two stacks, each with a `.env`; the second is edited and saved. -/
def ownEnvActions : List FilesAction :=
  [.arrive "app" ⟨"services: {}", "compose.yaml", some "TOKEN=1"⟩, .switchTo "blog",
    .arrive "blog" ⟨"services: {}", "compose.yaml", some "PORT=80"⟩, .editEnv "PORT=81", .save]

/-- The text that is saved for the second stack is its own. -/
theorem savesOwn_of_noForeignEnv_demo :
    ∃ s, runSteps FilesState.step (.init "app") ownEnvActions = some s ∧ SavesOwn s.history := by
  have hrun : (runSteps FilesState.step (.init "app") ownEnvActions).isSome = true := by
    decide +kernel
  obtain ⟨s, hs⟩ := Option.isSome_iff_exists.mp hrun
  exact ⟨s, hs, savesOwn_of_noForeignEnv "app" ownEnvActions s hs (by decide +kernel)⟩

/-- A stack with a `.env`, then one without, then a save. -/
def foreignEnvActions : List FilesAction :=
  [.arrive "app" ⟨"services: {}", "compose.yaml", some "TOKEN=1"⟩, .switchTo "blog",
    .arrive "blog" ⟨"services: {}", "compose.yaml", none⟩, .save]

/-- The save for the stack without a `.env` sends the text of the other stack's. -/
theorem not_savesOwn_of_noEnv :
    ¬ ∀ (name : String) (actions : List FilesAction) (s : FilesState),
      runSteps FilesState.step (.init name) actions = some s → SavesOwn s.history := by
  intro h
  have hhistory : (runSteps FilesState.step (.init "app") foreignEnvActions).map (·.history) =
      some ([.arrived "app" ⟨"services: {}", "compose.yaml", some "TOKEN=1"⟩,
          .filled "app" "TOKEN=1", .arrived "blog" ⟨"services: {}", "compose.yaml", none⟩] ++
        [.saved ⟨"blog", "services: {}", "compose.yaml", some "TOKEN=1"⟩]) := by
    decide +kernel
  obtain ⟨s, hs, hh⟩ := Option.map_eq_some_iff.mp hhistory
  have hsaves := h "app" foreignEnvActions s hs
  rw [hh] at hsaves
  rcases (always_append_singleton.mp hsaves).2 _ "TOKEN=1" rfl rfl with ⟨data, hmem, henv⟩ | hmem
  · simp only [List.mem_cons, FilesEvent.arrived.injEq, String.reduceEq, false_and, reduceCtorEq,
      true_and, List.not_mem_nil, or_false, false_or] at hmem
    rw [hmem] at henv
    contradiction
  · simp at hmem

end Dockstack.Web
