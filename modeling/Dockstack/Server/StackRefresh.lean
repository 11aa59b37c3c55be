import Dockstack.Server.StackActions
import Dockstack.Server.StackRename

/-!
# Pulls and remote digests

After a pull the digests of the registry have to be asked for again. The three requests that pull
follow one plan: commands up to the first after which they do not go on, then the invalidation if
they have come to the end.
-/

namespace Dockstack.Server

open Dockstack.Base Dockstack.Docker

variable {α : Type}

/-- A request that runs commands on a stack, with how they go. -/
inductive PullRequest (α : Type) where
  | action (name : String) (a : StackAction) (errors : Nat → Option String)
  | stream (name : String) (flusher : Bool) (a : StackAction)
      (outcomes : Nat → StreamOutcome)
  | redeploy (s : Stacks) (t : FileTree α) (env : RedeployEnv) (listFails : Bool)
      (redeploySkip : List String) (name : String)

/-- What the handler of a request does. -/
def PullRequest.events : PullRequest α → List RequestEvent
  | .action name a errors => (handleStackAction name a errors).2
  | .stream name flusher a outcomes => (handleStackActionStream name flusher a outcomes).2
  | .redeploy s t env listFails redeploySkip name =>
    (handleStackRedeploy s t env listFails redeploySkip name).2

/-- A compose pull command. -/
def isPull (args : List String) : Bool := args.head? == some "pull"

/-- The operation leaves no digest in the cache. -/
def Empties (op : DigestOp) : Prop :=
  ∀ s s' : DigestCache, s.act op = some s' → s'.digests = none

/-- After each pull that has succeeded the cache is emptied. -/
def Refreshes (events : List RequestEvent) : Prop :=
  ∀ pre args post, events = pre ++ .compose args none :: post → isPull args = true →
    ∃ op, .digest op ∈ post ∧ Empties op

/-! ## Plans -/

/-- The error of a command, and whether the request goes on after it. -/
structure CommandOutcome where
  error : Option String
  goesOn : Bool

/-- The commands that a request sets out to run, how they go, and whether it invalidates the
digests when it has come to the end. -/
structure RequestPlan where
  cmds : List (List String)
  outcomes : Nat → CommandOutcome
  invalidates : Bool

/-- Run commands up to the first after which the request does not go on. -/
def runUntil : (Nat → CommandOutcome) → List (List String) → List RequestEvent × Bool
  | _, [] => ([], true)
  | outcomes, args :: cmds =>
    let ran := RequestEvent.compose args (outcomes 0).error
    if (outcomes 0).goesOn then
      let rest := runUntil (fun i ↦ outcomes (i + 1)) cmds
      (ran :: rest.1, rest.2)
    else ([ran], false)

/-- What a request with a plan does. -/
def RequestPlan.events (p : RequestPlan) : List RequestEvent :=
  let run := runUntil p.outcomes p.cmds
  run.1 ++ invalidateIf (run.2 && p.invalidates)

/-- A pull succeeds, and then a command stops the request, or it does not invalidate at all. -/
def RequestPlan.LeavesStale (p : RequestPlan) : Prop :=
  ∃ i args, p.cmds[i]? = some args ∧ isPull args = true ∧ (p.outcomes i).error = none ∧
    (∀ j < i, (p.outcomes j).goesOn = true) ∧
    (p.invalidates = false ∨ ∃ k < p.cmds.length, (p.outcomes k).goesOn = false)

/-- Nothing is run. -/
def RequestPlan.nothing : RequestPlan := ⟨[], fun _ ↦ ⟨none, true⟩, false⟩

/-- A command goes on to the next unless it fails. -/
def plainOutcome (error : Option String) : CommandOutcome := ⟨error, error.isNone⟩

/-- A streamed command goes on when the client has taken all its lines and it has not failed. -/
def StreamOutcome.outcome : StreamOutcome → CommandOutcome
  | .notStarted err _ => ⟨some err, false⟩
  | .started lines exit _ => ⟨exit, lines.all (·.2) && exit.isNone⟩

/-- The plan of a request: nothing when it is refused, or when a redeploy finds nothing to do. -/
def PullRequest.plan : PullRequest α → RequestPlan
  | .action name a errors =>
    if stackNameRe name then
      ⟨a.cmds, fun i ↦ plainOutcome (errors i), a.invalidatesDigests⟩
    else .nothing
  | .stream name flusher a outcomes =>
    if stackNameRe name && flusher then
      ⟨a.cmds, fun i ↦ (outcomes i).outcome, a.invalidatesDigests⟩
    else .nothing
  | .redeploy s t env listFails redeploySkip name =>
    if stackNameRe name && !listFails && stackExists t name && !redeploySkip.contains name then
      match toBringUp env name with
      | none => .nothing
      | some services =>
        let pull := pullServices s t env name services
        let up := upServices s t env name services
        ⟨[pull.args, up.args], fun i ↦ plainOutcome (if i = 0 then pull.error else up.error),
          true⟩
    else .nothing

/-! ## The handlers follow their plans -/

private theorem runCommands_eq (errors : Nat → Option String) (cmds : List (List String)) :
    runUntil (fun i ↦ plainOutcome (errors i)) cmds =
      ((runCommands errors cmds).2, (runCommands errors cmds).1.isNone) := by
  induction cmds generalizing errors with
  | nil => rfl
  | cons args cmds ih =>
    rw [runCommands, runUntil, ih]
    cases errors 0 <;> rfl

private theorem writeLines_snd (lines : List (Bytes × Bool)) :
    (writeLines lines).2 = lines.all (·.2) := by
  induction lines with
  | nil => rfl
  | cons line lines ih =>
    rw [writeLines, List.all_cons, ← ih]
    cases line.2 <;> rfl

private theorem streamCommands_eq (headersSet : Bool) (outcomes : Nat → StreamOutcome)
    (cmds : List (List String)) :
    (streamCommands headersSet outcomes cmds).2 =
      runUntil (fun i ↦ (outcomes i).outcome) cmds := by
  induction cmds generalizing headersSet outcomes with
  | nil => rfl
  | cons args cmds ih =>
    rw [streamCommands, runUntil]
    cases outcomes 0 with
    | notStarted err taken => cases headersSet <;> rfl
    | started lines exit taken =>
      have hall : (StreamOutcome.started lines exit taken).outcome =
          ⟨exit, (writeLines lines).2 && exit.isNone⟩ := by
        rw [writeLines_snd]
        rfl
      rw [hall]
      dsimp only
      cases (writeLines lines).2 with
      | false => rfl
      | true =>
        cases exit with
        | some err => rfl
        | none =>
          have hrest := ih true fun i ↦ outcomes (i + 1)
          rw [← hrest]
          rfl

/-- Each request does what its plan says. -/
theorem PullRequest.events_eq (req : PullRequest α) : req.events = req.plan.events := by
  cases req with
  | action name a errors =>
    simp only [events, plan, handleStackAction, validateStackName]
    cases stackNameRe name with
    | false => rfl
    | true =>
      simp only [if_true, RequestPlan.events, runCommands_eq]
      cases runCommands errors a.cmds with
      | mk error events =>
        cases error with
        | none => rfl
        | some err => exact (List.append_nil _).symm
  | stream name flusher a outcomes =>
    simp only [events, plan, handleStackActionStream]
    cases stackNameRe name with
    | false => rfl
    | true =>
      cases flusher with
      | false => rfl
      | true =>
        simp only [Bool.true_eq_false, if_false, Bool.and_self, if_true, RequestPlan.events,
          streamCommands_eq]
  | redeploy s t env listFails redeploySkip name =>
    simp only [events, plan, handleStackRedeploy, validateStackName]
    cases stackNameRe name with
    | false => rfl
    | true =>
      cases listFails with
      | true => rfl
      | false =>
        cases stackExists t name with
        | false => rfl
        | true =>
          cases redeploySkip.contains name with
          | true => rfl
          | false =>
            cases hservices : toBringUp env name with
            | none =>
              have hnone := redeployStack_of_none (s := s) (t := t) hservices
              cases hr : redeployStack s t env name with
              | mk answer calls =>
                rw [hr] at hnone
                obtain rfl : calls = [] := hnone.1
                cases answer with
                | error err => rfl
                | ok res =>
                  have hskipped : res.action = .skipped := hnone.2 res rfl
                  simp only [hskipped]
                  rfl
            | some services =>
              rw [redeployStack_of_some hservices]
              cases hpull : (pullServices s t env name services).error with
              | some err =>
                simp [RequestPlan.events, runUntil, plainOutcome, callEvent, invalidateIf, hpull]
              | none =>
                cases hup : (upServices s t env name services).error <;>
                  simp [RequestPlan.events, runUntil, plainOutcome, callEvent, invalidateIf,
                    hpull, hup]

/-! ## When a plan refreshes -/

/-- The commands that succeed when they are run. -/
theorem compose_mem_runUntil {outcomes : Nat → CommandOutcome} {cmds : List (List String)}
    {args : List String} :
    .compose args none ∈ (runUntil outcomes cmds).1 ↔
      ∃ i, cmds[i]? = some args ∧ (outcomes i).error = none ∧
        ∀ j < i, (outcomes j).goesOn = true := by
  induction cmds generalizing outcomes with
  | nil => simp [runUntil]
  | cons args' cmds ih =>
    rw [runUntil]
    constructor
    · intro h
      cases hgoes : (outcomes 0).goesOn with
      | false =>
        simp only [hgoes, Bool.false_eq_true, if_false, List.mem_singleton,
          RequestEvent.compose.injEq] at h
        exact ⟨0, congrArg some h.1.symm, h.2.symm, nofun⟩
      | true =>
        simp only [hgoes, if_true, List.mem_cons, RequestEvent.compose.injEq] at h
        rcases h with h | h
        · exact ⟨0, congrArg some h.1.symm, h.2.symm, nofun⟩
        · obtain ⟨i, hargs, herror, hbefore⟩ := ih.mp h
          refine ⟨i + 1, hargs, herror, ?_⟩
          intro j hj
          cases j with
          | zero => exact hgoes
          | succ j => exact hbefore j (by omega)
    · rintro ⟨i, hargs, herror, hbefore⟩
      cases i with
      | zero =>
        rw [List.getElem?_cons_zero, Option.some.injEq] at hargs
        rw [hargs, herror]
        split
        · exact List.mem_cons_self
        · exact List.mem_cons_self
      | succ i =>
        rw [if_pos (hbefore 0 (by omega))]
        apply List.mem_cons_of_mem
        exact ih.mpr ⟨i, hargs, herror, fun j hj ↦ hbefore (j + 1) (by omega)⟩

/-- The request comes to the end when it goes on after every command. -/
theorem runUntil_snd {outcomes : Nat → CommandOutcome} {cmds : List (List String)} :
    (runUntil outcomes cmds).2 = true ↔ ∀ k < cmds.length, (outcomes k).goesOn = true := by
  induction cmds generalizing outcomes with
  | nil => simp [runUntil]
  | cons args cmds ih =>
    rw [runUntil]
    constructor
    · intro h k hk
      cases hgoes : (outcomes 0).goesOn with
      | false => simp [hgoes] at h
      | true =>
        cases k with
        | zero => exact hgoes
        | succ k =>
          simp only [hgoes, if_true] at h
          exact ih.mp h k (by simpa using hk)
    · intro h
      rw [if_pos (h 0 (by simp))]
      exact ih.mpr fun k hk ↦ h (k + 1) (by simpa using hk)

/-- Running commands does not touch the digests. -/
theorem digest_notMem_runUntil {outcomes : Nat → CommandOutcome} {cmds : List (List String)}
    {op : DigestOp} : .digest op ∉ (runUntil outcomes cmds).1 := by
  induction cmds generalizing outcomes with
  | nil => simp [runUntil]
  | cons args cmds ih =>
    rw [runUntil]
    split
    · simpa using ih
    · simp

/-- `InvalidateRemoteDigests` empties the cache. -/
theorem empties_invalidate : Empties .invalidate := by
  intro s s' h
  rw [← Option.some.inj h]

/-- Commands and an invalidation after them refresh. -/
theorem refreshes_of_invalidate {events : List RequestEvent} :
    Refreshes (events ++ [.digest .invalidate]) := by
  intro pre args post h hpull
  refine ⟨.invalidate, ?_, empties_invalidate⟩
  cases post using List.reverseRecOn with
  | nil =>
    have hlast := (List.append_inj' h rfl).2
    simp at hlast
  | append_singleton post e =>
    rw [← List.cons_append, ← List.append_assoc] at h
    have hlast := (List.append_inj' h rfl).2
    rw [← hlast]
    exact List.mem_append_right _ List.mem_cons_self

/-- A plan refreshes unless it leaves a pull behind. -/
theorem RequestPlan.refreshes_iff_not_leavesStale (p : RequestPlan) :
    Refreshes p.events ↔ ¬ p.LeavesStale := by
  have hevents : p.events = (runUntil p.outcomes p.cmds).1 ++
      invalidateIf ((runUntil p.outcomes p.cmds).2 && p.invalidates) := rfl
  rw [hevents]
  cases hend : (runUntil p.outcomes p.cmds).2 && p.invalidates with
  | true =>
    rw [Bool.and_eq_true, runUntil_snd] at hend
    refine iff_of_true refreshes_of_invalidate ?_
    rintro ⟨i, args, -, -, -, -, hstops | ⟨k, hk, hstops⟩⟩
    · rw [hend.2] at hstops
      contradiction
    · rw [hend.1 k hk] at hstops
      contradiction
  | false =>
    have hstops : p.invalidates = false ∨
        ∃ k < p.cmds.length, (p.outcomes k).goesOn = false := by
      rw [Bool.and_eq_false_iff, ← Bool.not_eq_true, runUntil_snd] at hend
      rcases hend with hend | hend
      · push Not at hend
        exact .inr (hend.imp fun k hk ↦ ⟨hk.1, Bool.eq_false_iff.mpr hk.2⟩)
      · exact .inl hend
    have hnothing : invalidateIf false = [] := rfl
    rw [hnothing, List.append_nil]
    constructor
    · rintro h ⟨i, args, hargs, hpull, herror, hbefore, -⟩
      obtain ⟨pre, post, hrun⟩ := List.append_of_mem
        (compose_mem_runUntil.mpr ⟨i, hargs, herror, hbefore⟩)
      obtain ⟨op, hop, -⟩ := h pre args post hrun hpull
      have hnot : .digest op ∉ (runUntil p.outcomes p.cmds).1 := digest_notMem_runUntil
      apply hnot
      rw [hrun]
      exact List.mem_append_right _ (List.mem_cons_of_mem _ hop)
    · intro h pre args post hrun hpull
      have hmem : .compose args none ∈ (runUntil p.outcomes p.cmds).1 := by
        rw [hrun]
        exact List.mem_append_right _ List.mem_cons_self
      obtain ⟨i, hargs, herror, hbefore⟩ := compose_mem_runUntil.mp hmem
      exact absurd ⟨i, args, hargs, hpull, herror, hbefore, hstops⟩ h

/-- Whatever the request and however its commands go: after each pull that has succeeded the cache
is emptied, unless the request stops after the pull, or its action is not one that invalidates. -/
theorem PullRequest.refreshes_iff (req : PullRequest α) :
    Refreshes req.events ↔ ¬ req.plan.LeavesStale := by
  rw [req.events_eq]
  exact req.plan.refreshes_iff_not_leavesStale

/-- The pull of an update succeeds and its `up` fails. -/
def updateErrors (i : Nat) : Option String := if i = 1 then some "exit status 1" else none

/-- The client is gone at the first line of a pull, which succeeds. -/
def lostClient (_ : Nat) : StreamOutcome := .started [(goBytes "Pulling", false)] none false

/-- The `up` of a redeploy fails. -/
def failedUp : RedeployEnv where
  containers name := [⟨name, [], "", "", "running", "",
    ((∅ : KeyMap String String).insert projectLabel name).insert serviceLabel "web"⟩]
  listError _ := none
  run cmd := if "up" ∈ cmd then some "exit status 1" else none

/-- The three ways in which a pull is left behind: a later command fails, the client goes away, and
a redeploy fails after its pull. -/
theorem update_not_refreshes :
    ¬ Refreshes (handleStackAction "app"
        ⟨"update", [["pull", "--ignore-buildable"], ["up", "-d", "--remove-orphans"]]⟩
        updateErrors).2 ∧
      ¬ Refreshes (handleStackActionStream "app" true ⟨"pull", [["pull"]]⟩ lostClient).2 ∧
      ¬ Refreshes (handleStackRedeploy ⟨"/stacks", "", false⟩ demoWorld.tree failedUp false []
        "app").2 := by
  have hfirst (args : List String) (post : List RequestEvent) (hpull : isPull args = true)
      (hnone : ∀ op, .digest op ∉ post) : ¬ Refreshes (.compose args none :: post) := by
    intro h
    obtain ⟨op, hop, -⟩ := h [] args post rfl hpull
    exact hnone op hop
  have hplain : (handleStackAction "app"
      ⟨"update", [["pull", "--ignore-buildable"], ["up", "-d", "--remove-orphans"]]⟩
      updateErrors).2 = [.compose ["pull", "--ignore-buildable"] none,
        .compose ["up", "-d", "--remove-orphans"] (some "exit status 1")] := by
    decide +kernel
  have hstream : (handleStackActionStream "app" true ⟨"pull", [["pull"]]⟩ lostClient).2 =
      [.compose ["pull"] none] := by
    decide +kernel
  have hredeploy : (handleStackRedeploy ⟨"/stacks", "", false⟩ demoWorld.tree failedUp false []
      "app").2 = [.compose ["pull", "--ignore-buildable", "web"] none,
        .compose ["up", "-d", "web"] (some "exit status 1")] := by
    decide +kernel
  rw [hplain, hstream, hredeploy]
  exact ⟨hfirst _ _ rfl (by simp), hfirst _ _ rfl (by simp), hfirst _ _ rfl (by simp)⟩

end Dockstack.Server
