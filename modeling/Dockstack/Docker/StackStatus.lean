import Dockstack.Docker.ContainerInfo

/-!
# The status of a stack

`GetStackStatus` of `internal/docker/stacks.go:285–332`, which reads the health of the containers
off their texts once more, beside `containerStateToStatus`, which it sorts them by.
-/

namespace Dockstack.Docker

/-- The status of a container; `stacks.go:295`. -/
def Summary.stackStatus (c : Summary) : StackStatus := containerStateToStatus c.state c.status

/-- `StackRunning`, `StackHealthy`, `StackUnhealthy` and `StackStarting`; `stacks.go:298`. -/
def StackStatus.isUp : StackStatus → Bool
  | .running | .healthy | .unhealthy | .starting => true
  | _ => false

/-- The status of running containers by their texts; `stacks.go:311–331`. -/
def healthStatus (running : List Summary) : StackStatus :=
  if running.any (contains ·.status "(unhealthy)") then .unhealthy
  else if running.any (contains ·.status "(health: starting)") then .starting
  else if running.all (contains ·.status "(healthy)") then .healthy
  else .running

/-- `GetStackStatus`, given the answer of `ListContainers`; `stacks.go:285–332`. -/
def getStackStatus (listed : Except String (List Summary)) : Except String StackStatus :=
  match listed with
  | .error err => .error err
  | .ok containers =>
    if containers.length = 0 then .ok .down
    else
      let restarting := containers.filter (·.stackStatus == .restarting)
      let running := containers.filter (·.stackStatus.isUp)
      if running.length = 0 ∧ restarting.length = 0 then .ok .stopped
      else if running.length = 0 then .ok .restarting
      else if running.length + restarting.length < containers.length ∨ 0 < restarting.length then
        .ok .partially
      else .ok (healthStatus running)

/-! ## The worst of the containers -/

/-- `unhealthy > starting > running > healthy`. -/
def StackStatus.severity : StackStatus → Nat
  | .unhealthy => 3
  | .starting => 2
  | .running => 1
  | _ => 0

/-- `s` is one of the statuses, and none is worse. -/
structure IsWorst (s : StackStatus) (ss : List StackStatus) : Prop where
  mem : s ∈ ss
  le : ∀ s' ∈ ss, s'.severity ≤ s.severity

/-- The text of a container's status names at most one state of health. -/
structure OneHealth (c : Summary) : Prop where
  healthy : contains c.status "(healthy)" = true → contains c.status "(unhealthy)" = false
  unhealthy : contains c.status "(unhealthy)" = true →
    contains c.status "(health: starting)" = false
  starting : contains c.status "(health: starting)" = true → contains c.status "(healthy)" = false

/-- A container is up exactly when its state is `running`. -/
theorem isUp_stackStatus (c : Summary) : c.stackStatus.isUp = true ↔ c.state = "running" := by
  unfold Summary.stackStatus containerStateToStatus
  by_cases h : c.state = "running"
  · rw [if_pos h]
    apply iff_of_true _ h
    split
    · rfl
    · split
      · rfl
      · split <;> rfl
  · rw [if_neg h]
    apply iff_of_false _ h
    split
    · exact Bool.false_ne_true
    · split
      · exact Bool.false_ne_true
      · split <;> exact Bool.false_ne_true

/-- A restarting container is not up. -/
theorem state_ne_running_of_restarting {c : Summary} (h : c.stackStatus = .restarting) :
    c.state ≠ "running" := by
  intro hrunning
  have hup := (isUp_stackStatus c).mpr hrunning
  rw [h] at hup
  contradiction

section

variable {containers containers' : List Summary}

/-- The order of the containers does not matter. -/
theorem getStackStatus_perm (h : containers.Perm containers') :
    getStackStatus (.ok containers) = getStackStatus (.ok containers') := by
  have hrestarting := h.filter (·.stackStatus == .restarting)
  have hrunning := h.filter (·.stackStatus.isUp)
  unfold getStackStatus healthStatus
  dsimp only
  rw [h.length_eq, hrestarting.length_eq, hrunning.length_eq, hrunning.any_eq,
    hrunning.any_eq, hrunning.all_eq]

private theorem stackStatus_of_running {c : Summary} (h : c.state = "running") : c.stackStatus =
    if contains c.status "(healthy)" then .healthy
    else if contains c.status "(unhealthy)" then .unhealthy
    else if contains c.status "(health: starting)" then .starting
    else .running := by
  rw [Summary.stackStatus, containerStateToStatus, if_pos h]

private theorem isWorst_of_mem {c : Summary} (hc : c ∈ containers)
    (hbound : ∀ c' ∈ containers, c'.stackStatus.severity ≤ c.stackStatus.severity) :
    IsWorst c.stackStatus (containers.map Summary.stackStatus) := by
  constructor
  · exact List.mem_map_of_mem hc
  · intro s' hs'
    obtain ⟨c', hc', rfl⟩ := List.mem_map.mp hs'
    exact hbound c' hc'

/-- The status of running containers is the worst of theirs. -/
theorem isWorst_healthStatus (hne : containers ≠ []) (hone : ∀ c ∈ containers, OneHealth c)
    (hrunning : ∀ c ∈ containers, c.state = "running") :
    IsWorst (healthStatus containers) (containers.map Summary.stackStatus) := by
  have hstatus (c : Summary) (hc : c ∈ containers) := stackStatus_of_running (hrunning c hc)
  unfold healthStatus
  split
  · next hunhealthy =>
    obtain ⟨c, hc, htext⟩ := List.any_eq_true.mp hunhealthy
    have hhealthy : contains c.status "(healthy)" = false := by
      rw [Bool.eq_false_iff]
      intro h
      rw [(hone c hc).healthy h] at htext
      contradiction
    have hc' : c.stackStatus = .unhealthy := by
      rw [hstatus c hc, hhealthy, htext]
      rfl
    rw [← hc']
    apply isWorst_of_mem hc
    intro c' _
    rw [hc']
    cases c'.stackStatus <;> decide
  · next hunhealthy =>
    rw [Bool.not_eq_true, List.any_eq_false] at hunhealthy
    split
    · next hstarting =>
      obtain ⟨c, hc, htext⟩ := List.any_eq_true.mp hstarting
      have hhealthy := (hone c hc).starting htext
      have hc' : c.stackStatus = .starting := by
        rw [hstatus c hc, hhealthy, if_neg (hunhealthy c hc), htext]
        rfl
      rw [← hc']
      apply isWorst_of_mem hc
      intro c'' hc''
      rw [hc', hstatus c'' hc'', if_neg (hunhealthy c'' hc'')]
      split
      · decide
      · split <;> decide
    · next hstarting =>
      rw [Bool.not_eq_true, List.any_eq_false] at hstarting
      have hcalm (c : Summary) (hc : c ∈ containers) : c.stackStatus =
          if contains c.status "(healthy)" then .healthy else .running := by
        rw [hstatus c hc, if_neg (hunhealthy c hc), if_neg (hstarting c hc)]
      split
      · next hhealthy =>
        rw [List.all_eq_true] at hhealthy
        obtain ⟨c, hc⟩ := List.exists_mem_of_ne_nil containers hne
        have hall (c : Summary) (hc : c ∈ containers) : c.stackStatus = .healthy := by
          rw [hcalm c hc, if_pos (hhealthy c hc)]
        rw [← hall c hc]
        apply isWorst_of_mem hc
        intro c' hc'
        rw [hall c hc, hall c' hc']
      · next hhealthy =>
        rw [Bool.not_eq_true, List.all_eq_false] at hhealthy
        obtain ⟨c, hc, htext⟩ := hhealthy
        have hc' : c.stackStatus = .running := by rw [hcalm c hc, if_neg htext]
        rw [← hc']
        apply isWorst_of_mem hc
        intro c'' hc''
        rw [hc', hcalm c'' hc'']
        split <;> decide

/-- If all containers run, the status of the stack is what their texts say. -/
theorem getStackStatus_of_running (hne : containers ≠ [])
    (hrunning : ∀ c ∈ containers, c.state = "running") :
    getStackStatus (.ok containers) = .ok (healthStatus containers) := by
  have hlength : containers.length ≠ 0 := fun h ↦ hne (List.length_eq_zero_iff.mp h)
  have hup : containers.filter (·.stackStatus.isUp) = containers := by
    rw [List.filter_eq_self]
    intro c hc
    exact (isUp_stackStatus c).mpr (hrunning c hc)
  have hrestarting : containers.filter (·.stackStatus == .restarting) = [] := by
    rw [List.filter_eq_nil_iff]
    intro c hc hstatus
    exact state_ne_running_of_restarting (beq_iff_eq.mp hstatus) (hrunning c hc)
  unfold getStackStatus
  dsimp only
  rw [hup, hrestarting, if_neg hlength, if_neg (fun h ↦ hlength h.1), if_neg hlength,
    if_neg (by simp)]

/-- If some container does not run, the stack is partly up exactly when some container runs, and
otherwise stopped or restarting. -/
theorem getStackStatus_of_not_running (hne : containers ≠ [])
    (hnot : ∃ c ∈ containers, c.state ≠ "running") :
    (getStackStatus (.ok containers) = .ok .partially ∧ ∃ c ∈ containers, c.state = "running") ∨
      ((getStackStatus (.ok containers) = .ok .stopped ∨
          getStackStatus (.ok containers) = .ok .restarting) ∧
        ¬ ∃ c ∈ containers, c.state = "running") := by
  have hlength : containers.length ≠ 0 := fun h ↦ hne (List.length_eq_zero_iff.mp h)
  have hnone : (containers.filter (·.stackStatus.isUp)).length = 0 ↔
      ¬ ∃ c ∈ containers, c.state = "running" := by
    rw [List.length_eq_zero_iff, List.filter_eq_nil_iff]
    push Not
    apply forall₂_congr
    intro c _
    exact not_congr (isUp_stackStatus c)
  have hfewer : (containers.filter (·.stackStatus.isUp)).length < containers.length := by
    obtain ⟨c, hc, hstate⟩ := hnot
    apply List.length_filter_lt_length_iff_exists.mpr
    exact ⟨c, hc, fun hup ↦ hstate ((isUp_stackStatus c).mp hup)⟩
  unfold getStackStatus
  dsimp only
  rw [if_neg hlength]
  by_cases hrunning : (containers.filter (·.stackStatus.isUp)).length = 0
  · right
    apply And.intro _ (hnone.mp hrunning)
    split
    · exact .inl rfl
    · exact .inr rfl
  · left
    rw [if_neg (fun h ↦ hrunning h.1), if_neg hrunning, if_pos (by omega)]
    exact ⟨rfl, not_not.mp fun h ↦ hrunning (hnone.mpr h)⟩

end

/-- The status of a stack does not depend on the order of its containers. If all of them run it is
the worst of theirs, and else it is none of the four statuses of a running container, and
`partially` exactly when some container runs. -/
theorem getStackStatus_worst (containers : List Summary) (hne : containers ≠ [])
    (hone : ∀ c ∈ containers, OneHealth c) :
    (∀ containers', containers'.Perm containers →
        getStackStatus (.ok containers') = getStackStatus (.ok containers)) ∧
      ((∀ c ∈ containers, c.state = "running") → ∃ s, getStackStatus (.ok containers) = .ok s ∧
        IsWorst s (containers.map Summary.stackStatus)) ∧
      ((∃ c ∈ containers, c.state ≠ "running") → ∃ s, getStackStatus (.ok containers) = .ok s ∧
        s.isUp = false ∧ (s = .partially ↔ ∃ c ∈ containers, c.state = "running")) := by
  refine ⟨?_, ?_, ?_⟩
  · intro containers' hperm
    exact getStackStatus_perm hperm
  · intro hrunning
    exact ⟨_, getStackStatus_of_running hne hrunning, isWorst_healthStatus hne hone hrunning⟩
  · intro hnot
    rcases getStackStatus_of_not_running hne hnot with ⟨hstatus, hsome⟩ | ⟨hstatus, hnone⟩
    · exact ⟨.partially, hstatus, rfl, iff_of_true rfl hsome⟩
    · rcases hstatus with hstatus | hstatus
      · exact ⟨.stopped, hstatus, rfl, iff_of_false (by decide) hnone⟩
      · exact ⟨.restarting, hstatus, rfl, iff_of_false (by decide) hnone⟩

/-- A container with these texts. -/
def statusContainer (state status : String) : Summary := ⟨"", [], "", "", state, status, ∅⟩

/-- A running container without a health check beside a healthy one. -/
theorem getStackStatus_worst_mixed :
    ∃ s, getStackStatus (.ok [statusContainer "running" "Up 2 hours (healthy)",
        statusContainer "running" "Up 2 hours"]) = .ok s ∧
      IsWorst s ([statusContainer "running" "Up 2 hours (healthy)",
        statusContainer "running" "Up 2 hours"].map Summary.stackStatus) := by
  refine (getStackStatus_worst _ (List.cons_ne_nil _ _) ?_).2.1 ?_
  · intro c hc
    rcases List.mem_pair.mp hc with rfl | rfl
    · exact ⟨by decide +kernel, by decide +kernel, by decide +kernel⟩
    · exact ⟨by decide +kernel, by decide +kernel, by decide +kernel⟩
  · intro c hc
    rcases List.mem_pair.mp hc with rfl | rfl <;> rfl

end Dockstack.Docker
