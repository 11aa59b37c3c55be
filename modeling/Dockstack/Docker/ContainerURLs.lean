import Dockstack.Docker.ContainerInfo
import Mathlib.Data.List.AList

/-!
# Addresses read off labels

`getContainerURLs` of `internal/docker/containers.go:56–94`. It returns from within its loop over
the labels, so that it depends on which label of a router comes first; and it looks for a host at
the beginnings of a rule's parts only.
-/

namespace Dockstack.Docker

open Dockstack.Base

/-- `labels'` is the map `labels` in the order in which a run ranges over it. -/
def Iterates (labels' labels : KeyMap String String) : Prop := labels'.entries.Perm labels.entries

/-- Any two runs give the same addresses. -/
def OrderIndependent (labels : KeyMap String String) (baseDomain : String) : Prop :=
  ∀ run₁ run₂, Iterates run₁ labels → Iterates run₂ labels →
    getContainerURLs run₁ baseDomain = getContainerURLs run₂ baseDomain

/-- The aliases of the labels are used. -/
def HasAliases (labels : KeyMap String String) (baseDomain : String) : Prop :=
  baseDomain ≠ "" ∧ (labels.get? "proxy.aliases").isSome = true

/-- The hosts at the beginnings of the parts of a rule. -/
def partHosts (rule : String) : List (List Char) :=
  (rule.toList.splitOn ',').filterMap fun part ↦ hostRuleRe (trimSpace part)

/-- The address of a host. -/
def hostURL (host : List Char) : String := "https://" ++ .ofList host

variable {labels run : KeyMap String String} {baseDomain : String}

/-! ## Runs in any order -/

private theorem hostURL_injective : Function.Injective hostURL := by
  intro host host' h
  rw [hostURL, hostURL, ← String.toList_inj, String.toList_append, String.toList_append] at h
  simpa using List.append_cancel_left h

/-- Without aliases the first router label counts. -/
theorem getContainerURLs_of_not_hasAliases (h : ¬ HasAliases labels baseDomain) :
    getContainerURLs labels baseDomain =
      match labels.entries.find? (fun e ↦ traefikRuleRe e.1) with
      | some e => (partHosts e.2).map hostURL
      | none => [] := by
  have hnone : (if baseDomain = "" then none else labels.get? "proxy.aliases") = none := by
    split
    · rfl
    · next hdomain =>
      rw [HasAliases, not_and, Bool.not_eq_true, Option.isSome_eq_false_iff,
        Option.isNone_iff_eq_none] at h
      exact h hdomain
  rw [getContainerURLs, hnone]
  cases labels.entries.find? (fun e ↦ traefikRuleRe e.1) with
  | none => rfl
  | some e =>
    simp only [partHosts, List.map_filterMap]
    rfl

private theorem Iterates.get? (h : Iterates run labels) (key : String) :
    run.get? key = labels.get? key := AList.perm_lookup h

private theorem Iterates.hasAliases_iff (h : Iterates run labels) :
    HasAliases run baseDomain ↔ HasAliases labels baseDomain := by
  rw [HasAliases, HasAliases, h.get?]

private theorem Iterates.getContainerURLs_of_hasAliases (h : Iterates run labels)
    (haliases : HasAliases labels baseDomain) :
    getContainerURLs run baseDomain = getContainerURLs labels baseDomain := by
  obtain ⟨aliases, hget⟩ := Option.isSome_iff_exists.mp haliases.2
  rw [getContainerURLs, getContainerURLs, if_neg haliases.1, if_neg haliases.1, h.get?, hget]

private theorem exists_run_first {e : (_ : String) × String} (he : e ∈ labels.entries) :
    ∃ run, Iterates run labels ∧ run.entries.head? = some e := by
  have hperm : (e :: labels.entries.erase e).Perm labels.entries :=
    (List.perm_cons_erase he).symm
  exact ⟨⟨e :: labels.entries.erase e, (List.perm_nodupKeys hperm).mpr labels.nodupKeys⟩, hperm,
    rfl⟩

private theorem getContainerURLs_of_first {e : (_ : String) × String}
    (hrun : run.entries.head? = some e) (he : traefikRuleRe e.1 = true)
    (haliases : ¬ HasAliases run baseDomain) :
    getContainerURLs run baseDomain = (partHosts e.2).map hostURL := by
  obtain ⟨entries, hentries⟩ := List.head?_eq_some_iff.mp hrun
  have hfind : (e :: entries).find? (fun e ↦ traefikRuleRe e.1) = some e :=
    List.find?_cons_of_pos he
  rw [getContainerURLs_of_not_hasAliases haliases, hentries, hfind]

private theorem Iterates.getContainerURLs_eq (hrun : Iterates run labels)
    (haliases : ¬ HasAliases labels baseDomain) {hosts : List (List Char)}
    (hhosts : ∀ e ∈ labels.entries, traefikRuleRe e.1 = true → partHosts e.2 = hosts)
    (hsome : hosts = [] ∨ ∃ e ∈ labels.entries, traefikRuleRe e.1 = true) :
    getContainerURLs run baseDomain = hosts.map hostURL := by
  rw [getContainerURLs_of_not_hasAliases (by rwa [hrun.hasAliases_iff])]
  cases hfind : run.entries.find? (fun e ↦ traefikRuleRe e.1) with
  | some e =>
    have he : e ∈ labels.entries := hrun.mem_iff.mp (List.mem_of_find?_eq_some hfind)
    have hrule := List.find?_some hfind
    simp only
    rw [hhosts e he hrule]
  | none =>
    rcases hsome with rfl | ⟨e, he, hrule⟩
    · rfl
    · exact absurd hrule (List.find?_eq_none.mp hfind e (hrun.mem_iff.mpr he))

/-- The addresses do not depend on the order exactly when there are aliases that are used, or any
two router labels have the same hosts at the beginnings of their parts. -/
theorem orderIndependent_iff (labels : KeyMap String String) (baseDomain : String) :
    OrderIndependent labels baseDomain ↔
      HasAliases labels baseDomain ∨
        ∀ e ∈ labels.entries, ∀ e' ∈ labels.entries, traefikRuleRe e.1 = true →
          traefikRuleRe e'.1 = true → partHosts e.2 = partHosts e'.2 := by
  constructor
  · intro h
    by_contra hcon
    rw [not_or] at hcon
    obtain ⟨haliases, hcon⟩ := hcon
    apply hcon
    intro e he e' he' hrule hrule'
    obtain ⟨run, hrun, hfirst⟩ := exists_run_first he
    obtain ⟨run', hrun', hfirst'⟩ := exists_run_first he'
    have heq := h run run' hrun hrun'
    rw [getContainerURLs_of_first hfirst hrule (by rwa [hrun.hasAliases_iff]),
      getContainerURLs_of_first hfirst' hrule' (by rwa [hrun'.hasAliases_iff])] at heq
    exact List.map_injective_iff.mpr hostURL_injective heq
  · rintro (haliases | hsame) run run' hrun hrun'
    · rw [hrun.getContainerURLs_of_hasAliases haliases,
        hrun'.getContainerURLs_of_hasAliases haliases]
    · by_cases haliases : HasAliases labels baseDomain
      · rw [hrun.getContainerURLs_of_hasAliases haliases,
          hrun'.getContainerURLs_of_hasAliases haliases]
      · by_cases hsome : ∃ e ∈ labels.entries, traefikRuleRe e.1 = true
        · obtain ⟨e, he, hrule⟩ := hsome
          have hhosts : ∀ e' ∈ labels.entries, traefikRuleRe e'.1 = true →
              partHosts e'.2 = partHosts e.2 :=
            fun e' he' hrule' ↦ hsame e' he' e he hrule' hrule
          rw [hrun.getContainerURLs_eq haliases hhosts (.inr ⟨e, he, hrule⟩),
            hrun'.getContainerURLs_eq haliases hhosts (.inr ⟨e, he, hrule⟩)]
        · have hhosts : ∀ e ∈ labels.entries, traefikRuleRe e.1 = true → partHosts e.2 = [] :=
            fun e he hrule ↦ absurd ⟨e, he, hrule⟩ hsome
          rw [hrun.getContainerURLs_eq haliases hhosts (.inl rfl),
            hrun'.getContainerURLs_eq haliases hhosts (.inl rfl)]

/-- A rule for one host. -/
def hostRule (host : String) : String :=
  .ofList ("Host(".toList ++ backtick :: (host.toList ++ [backtick, ')']))

/-- The labels of a service with two routers, one of them first. -/
def twoRouters (apiFirst : Bool) : KeyMap String String :=
  let web := ("traefik.http.routers.web.rule", hostRule "a")
  let api := ("traefik.http.routers.api.rule", hostRule "b")
  if apiFirst then (AList.insert web.1 web.2 ∅).insert api.1 api.2
  else (AList.insert api.1 api.2 ∅).insert web.1 web.2

/-- Each of them can come first. -/
theorem not_orderIndependent_twoRouters : ¬ OrderIndependent (twoRouters true) "" := by
  have hperm : Iterates (twoRouters false) (twoRouters true) := List.Perm.swap _ _ _
  intro h
  exact absurd (h _ _ (List.Perm.refl _) hperm) (by decide +kernel)

/-! ## The hosts of a rule -/

/-- A matcher of a rule, such as a path prefix; its argument stands between backticks. -/
structure Matcher where
  name : List Char
  arg : List Char
  name_plain : ∀ c ∈ name, isSpace c = false ∧ c ≠ ',' ∧ c ≠ '('
  arg_plain : backtick ∉ arg ∧ ',' ∉ arg

/-- The operators between matchers. -/
inductive RuleOp where
  | conj
  | disj
  deriving DecidableEq

/-- A rule: matchers joined by operators. -/
structure Rule where
  first : Matcher
  rest : List (RuleOp × Matcher)

/-- The text of an operator. -/
def RuleOp.text : RuleOp → List Char
  | .conj => " && ".toList
  | .disj => " || ".toList

/-- The text of a matcher. -/
def Matcher.text (m : Matcher) : List Char :=
  m.name ++ ("(".toList ++ backtick :: (m.arg ++ backtick :: ")".toList))

/-- The text of a rule. -/
def Rule.text (rule : Rule) : List Char :=
  rule.first.text ++ rule.rest.flatMap fun p ↦ p.1.text ++ p.2.text

/-- The matchers of a rule. -/
def Rule.matchers (rule : Rule) : List Matcher := rule.first :: rule.rest.map Prod.snd

/-- A matcher for a host. -/
def Matcher.IsHost (m : Matcher) : Prop := m.name = "Host".toList

instance (m : Matcher) : Decidable m.IsHost :=
  inferInstanceAs (Decidable (m.name = "Host".toList))

/-- The hosts of a rule, in order of appearance. -/
def Rule.hosts (rule : Rule) : List (List Char) :=
  (rule.matchers.filter fun m ↦ m.IsHost).map Matcher.arg

/-- All hosts of a rule are found. -/
def FindsHosts (labels : KeyMap String String) (baseDomain : String) (rule : Rule) : Prop :=
  getContainerURLs labels baseDomain = rule.hosts.map hostURL

private theorem Matcher.comma_notMem (m : Matcher) : ',' ∉ m.text := by
  simp only [Matcher.text, List.mem_append, List.mem_cons, not_or]
  exact ⟨fun hmem ↦ (m.name_plain _ hmem).2.1 rfl, by decide, by decide, m.arg_plain.2, by decide,
    by decide⟩

private theorem Rule.comma_notMem (rule : Rule) : ',' ∉ rule.text := by
  rw [Rule.text, List.mem_append, not_or]
  refine ⟨rule.first.comma_notMem, fun hmem ↦ ?_⟩
  obtain ⟨⟨op, m⟩, -, hp⟩ := List.mem_flatMap.mp hmem
  have hop : ',' ∉ op.text := by cases op <;> decide
  rcases List.mem_append.mp hp with hmem | hmem
  · exact hop hmem
  · exact m.comma_notMem hmem

private theorem Matcher.getLast?_text (m : Matcher) : m.text.getLast? = some ')' := by
  have htext : m.text = m.name ++ ("(".toList ++ backtick :: (m.arg ++ [backtick])) ++ [')'] := by
    simp [Matcher.text]
  rw [htext, List.getLast?_concat]

private theorem Matcher.head?_text (m : Matcher) :
    ∃ c, m.text.head? = some c ∧ isSpace c = false := by
  rw [Matcher.text]
  cases hname : m.name with
  | nil => exact ⟨'(', rfl, by decide⟩
  | cons c name => exact ⟨c, rfl, (m.name_plain c (hname ▸ List.mem_cons_self)).1⟩

private theorem Rule.trimSpace_text (rule : Rule) : trimSpace rule.text = rule.text := by
  obtain ⟨c, hc, hspace⟩ := rule.first.head?_text
  have hhead : rule.text.head? = some c := by rw [Rule.text, List.head?_append, hc, Option.some_or]
  have hlast : rule.text.getLast? = some ')' := by
    rw [Rule.text]
    rcases List.eq_nil_or_concat' rule.rest with hrest | ⟨rest, p, hrest⟩
    · rw [hrest, List.flatMap_nil, List.append_nil, rule.first.getLast?_text]
    · rw [hrest, List.flatMap_append, List.flatMap_singleton, ← List.append_assoc,
        ← List.append_assoc, List.getLast?_append, p.2.getLast?_text, Option.some_or]
  exact trimSpace_eq_self hhead hspace hlast (by decide)

private theorem Rule.hostRuleRe_text (rule : Rule) :
    hostRuleRe rule.text = if rule.first.IsHost then some rule.first.arg else none := by
  generalize hmore : (rule.rest.flatMap fun p ↦ p.1.text ++ p.2.text) = more
  have htext : rule.text =
      rule.first.name ++ '(' :: (backtick :: (rule.first.arg ++ backtick :: ')' :: more)) := by
    rw [Rule.text, hmore]
    simp [Matcher.text]
  have hhost : "Host(`".toList = "Host".toList ++ '(' :: [backtick] := by decide
  by_cases hfirst : rule.first.IsHost
  · rw [if_pos hfirst]
    rw [Matcher.IsHost] at hfirst
    have hrule : rule.text =
        "Host(`".toList ++ (rule.first.arg ++ backtick :: ')' :: more) := by
      rw [htext, hfirst, hhost]
      simp
    have harg : (rule.first.arg ++ backtick :: ')' :: more).takeWhile (· != backtick) =
        rule.first.arg :=
      takeWhile_append_cons rule.first.arg_plain.1 _
    have hdrop : rule.text.drop "Host(`".length =
        rule.first.arg ++ backtick :: ')' :: more := by
      rw [hrule]
      exact List.drop_left
    have hbegins : "Host(`".toList.isPrefixOf rule.text = true := by
      rw [List.isPrefixOf_iff_prefix, hrule]
      exact List.prefix_append _ _
    rw [hostRuleRe, if_pos hbegins]
    simp only [hdrop, harg, List.drop_left]
    rfl
  · rw [if_neg hfirst, hostRuleRe, if_neg]
    rw [List.isPrefixOf_iff_prefix, hhost]
    rintro ⟨u, hu⟩
    rw [htext, List.append_assoc] at hu
    have hname : '(' ∉ rule.first.name := fun hmem ↦ (rule.first.name_plain _ hmem).2.2 rfl
    exact hfirst (append_cons_inj (by decide) hname hu).1.symm

/-- Of the hosts of a rule the first matcher's is found. -/
theorem Rule.partHosts_text (rule : Rule) :
    partHosts (.ofList rule.text) =
      if rule.first.IsHost then [rule.first.arg] else [] := by
  rw [partHosts, String.toList_ofList, List.splitOn_eq_singleton rule.comma_notMem,
    List.filterMap_cons, rule.trimSpace_text, rule.hostRuleRe_text]
  by_cases hfirst : rule.first.IsHost
  · rw [if_pos hfirst, if_pos hfirst]
    rfl
  · rw [if_neg hfirst, if_neg hfirst]
    rfl

/-- All hosts of the only router rule are found exactly when no matcher after the first one is for a
host. -/
theorem findsHosts_iff (labels : KeyMap String String) (baseDomain label : String) (rule : Rule)
    (haliases : labels.get? "proxy.aliases" = none)
    (hone : labels.entries.filter (fun e ↦ traefikRuleRe e.1) = [⟨label, .ofList rule.text⟩]) :
    FindsHosts labels baseDomain rule ↔ ∀ p ∈ rule.rest, ¬ p.2.IsHost := by
  have hnone : ¬ HasAliases labels baseDomain := by
    rw [HasAliases, haliases]
    rintro ⟨-, ⟨⟩⟩
  have hfind : labels.entries.find? (fun e ↦ traefikRuleRe e.1) =
      some ⟨label, .ofList rule.text⟩ := by
    rw [← List.head?_filter, hone, List.head?_cons]
  have hrest : (∀ p ∈ rule.rest, ¬ p.2.IsHost) ↔
      (rule.rest.map Prod.snd).filter (fun m ↦ m.IsHost) = [] := by
    simp only [List.filter_eq_nil_iff, List.forall_mem_map, decide_eq_true_eq]
  rw [FindsHosts, getContainerURLs_of_not_hasAliases hnone, hfind, hrest]
  simp only [rule.partHosts_text, Rule.hosts, Rule.matchers]
  rw [(List.map_injective_iff.mpr hostURL_injective).eq_iff, List.filter_cons]
  by_cases hfirst : rule.first.IsHost
  · rw [if_pos hfirst, if_pos (decide_eq_true hfirst), List.map_cons, List.cons.injEq,
      and_iff_right rfl, eq_comm, List.map_eq_nil_iff]
  · rw [if_neg hfirst, if_neg (by rwa [decide_eq_true_eq]), eq_comm, List.map_eq_nil_iff]

private theorem name_plain_of_all {name : List Char}
    (h : name.all (fun c ↦ !isSpace c && c != ',' && c != '(') = true) :
    ∀ c ∈ name, isSpace c = false ∧ c ≠ ',' ∧ c ≠ '(' := by
  intro c hc
  have hplain := List.all_eq_true.mp h c hc
  simpa [and_assoc] using hplain

/-- A matcher for the host `a`. -/
def hostA : Matcher := ⟨"Host".toList, "a".toList, name_plain_of_all (by decide), by decide⟩

/-- A matcher for a path prefix. -/
def pathX : Matcher :=
  ⟨"PathPrefix".toList, "/x".toList, name_plain_of_all (by decide), by decide⟩

/-- The labels of a service with one router. -/
def oneRouter (rule : Rule) : KeyMap String String :=
  AList.insert "traefik.http.routers.web.rule" (String.ofList rule.text) ∅

/-- A host and a path prefix. -/
theorem findsHosts_first :
    FindsHosts (oneRouter ⟨hostA, [(.conj, pathX)]⟩) "" ⟨hostA, [(.conj, pathX)]⟩ :=
  (findsHosts_iff _ "" "traefik.http.routers.web.rule" _ (by decide +kernel)
    (by decide +kernel)).mpr (by decide)

/-- A host after a path prefix is lost. -/
theorem not_findsHosts_second :
    (oneRouter ⟨pathX, [(.conj, hostA)]⟩).get? "proxy.aliases" = none ∧
      (oneRouter ⟨pathX, [(.conj, hostA)]⟩).entries.filter (fun e ↦ traefikRuleRe e.1) =
        [⟨"traefik.http.routers.web.rule", .ofList (Rule.text ⟨pathX, [(.conj, hostA)]⟩)⟩] ∧
      ¬ FindsHosts (oneRouter ⟨pathX, [(.conj, hostA)]⟩) "" ⟨pathX, [(.conj, hostA)]⟩ := by
  refine ⟨by decide +kernel, by decide +kernel, fun h ↦ ?_⟩
  exact absurd h (by rw [FindsHosts]; decide +kernel)

end Dockstack.Docker
