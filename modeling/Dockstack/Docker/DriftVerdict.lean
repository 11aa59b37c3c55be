import Dockstack.Docker.DriftOneOff

/-!
# The verdict of a drift check

`parseServiceHashes` and `driftFromContainers` of `internal/docker/drift.go:43–78` on what
`docker compose config --hash=*` prints: one line for each service, in any order, among lines that
are no two words.
-/

namespace Dockstack.Docker

open Dockstack.Base

/-- The hashes of some services; names and hashes are words. -/
structure ServiceHashes where
  hashes : KeyMap String String
  words : ∀ svc hash, hashes.get? svc = some hash → IsWord svc.toList ∧ IsWord hash.toList

/-- The line of a service. -/
def hashLine (svc hash : String) : List Char := svc.toList ++ ' ' :: hash.toList

/-- `stdout` has the line of each service once, in any order, among lines that do not have two
words. -/
def Rendering (h : ServiceHashes) (stdout : List Char) : Prop :=
  ∃ lines noise : List (List Char),
    lines.Perm ((h.hashes.entries.map fun e ↦ hashLine e.1 e.2) ++ noise) ∧
      (∀ line ∈ noise, '\n' ∉ line ∧ (fields line).length ≠ 2) ∧
      stdout = ['\n'].intercalate lines

/-- A container that is compared with the hash `want`. -/
structure ComparedWith (h : ServiceHashes) (c : Summary) (want : String) : Prop where
  notOneOff : c.label oneOffLabel ≠ "True"
  service : h.hashes.get? (c.label serviceLabel) = some want
  hash : c.label configHashLabel ≠ ""

/-- Some container is compared. -/
def SomeCompared (h : ServiceHashes) (containers : List Summary) : Prop :=
  ∃ c ∈ containers, ∃ want, ComparedWith h c want

/-- Some container is compared with a hash that is not its own. -/
def SomeOutdated (h : ServiceHashes) (containers : List Summary) : Prop :=
  ∃ c ∈ containers, ∃ want, ComparedWith h c want ∧ c.label configHashLabel ≠ want

/-! ## Parsing -/

/-- The service and the hash of a line of two words. -/
def lineHash (line : List Char) : Option (String × String) :=
  match fields line with
  | [svc, hash] => some (.ofList svc, .ofList hash)
  | _ => none

/-- The lines that have two words give their services their hashes. -/
theorem parseServiceHashes_eq (stdout : List Char) :
    parseServiceHashes stdout =
      ((stdout.splitOn '\n').filterMap lineHash).foldl (fun out p ↦ out.insert p.1 p.2) ∅ := by
  rw [parseServiceHashes, List.foldl_filterMap]
  congr
  funext out line
  unfold putServiceHash lineHash
  generalize fields line = words
  rcases words with _ | ⟨svc, _ | ⟨hash, _ | ⟨word, words⟩⟩⟩ <;> rfl

variable {h : ServiceHashes}

private theorem lineHash_hashLine {svc hash : String} (hsvc : IsWord svc.toList)
    (hhash : IsWord hash.toList) : lineHash (hashLine svc hash) = some (svc, hash) := by
  have hfields : fields (hashLine svc hash) = [svc.toList, hash.toList] := by
    rw [hashLine, fields_append hsvc (by decide), fields_word hhash]
  rw [lineHash, hfields]
  simp only [String.ofList_toList]

private theorem newline_notMem_hashLine {svc hash : String} (hsvc : IsWord svc.toList)
    (hhash : IsWord hash.toList) : '\n' ∉ hashLine svc hash := by
  rw [hashLine, List.mem_append, List.mem_cons]
  rintro (hmem | heq | hmem)
  · exact absurd (hsvc.2 _ hmem) (by decide)
  · exact absurd heq (by decide)
  · exact absurd (hhash.2 _ hmem) (by decide)

private theorem lineHash_eq_none {line : List Char} (hline : (fields line).length ≠ 2) :
    lineHash line = none := by
  unfold lineHash
  split
  · next hfields =>
    rw [hfields] at hline
    contradiction
  · rfl

private theorem words_of_mem {e : (_ : String) × String} (he : e ∈ h.hashes.entries) :
    IsWord e.1.toList ∧ IsWord e.2.toList :=
  h.words e.1 e.2 (AList.mem_lookup_iff.mpr he)

/-- The lines of a rendering give the services their hashes. -/
theorem Rendering.lineHashes {stdout : List Char} (hr : Rendering h stdout) :
    ((stdout.splitOn '\n').filterMap lineHash).Perm
      (h.hashes.entries.map fun e ↦ (e.1, e.2)) := by
  obtain ⟨lines, noise, hperm, hnoise, rfl⟩ := hr
  have hentries : (h.hashes.entries.map fun e ↦ hashLine e.1 e.2).filterMap lineHash =
      h.hashes.entries.map fun e ↦ (e.1, e.2) := by
    rw [List.filterMap_map, ← List.filterMap_eq_map]
    apply List.filterMap_congr
    intro e he
    obtain ⟨hsvc, hhash⟩ := words_of_mem he
    exact lineHash_hashLine hsvc hhash
  have hnone : noise.filterMap lineHash = [] := by
    rw [List.filterMap_eq_nil_iff]
    intro line hline
    exact lineHash_eq_none (hnoise line hline).2
  have hlines := hperm.filterMap lineHash
  rw [List.filterMap_append, hentries, hnone, List.append_nil] at hlines
  by_cases hnil : lines = []
  · rw [hnil] at hlines ⊢
    exact hlines
  · rw [List.splitOn_intercalate '\n' _ hnil]
    · exact hlines
    · intro line hline
      rcases List.mem_append.mp (hperm.mem_iff.mp hline) with hmem | hmem
      · obtain ⟨e, he, rfl⟩ := List.mem_map.mp hmem
        obtain ⟨hsvc, hhash⟩ := words_of_mem he
        exact newline_notMem_hashLine hsvc hhash
      · exact (hnoise line hmem).1

/-- What is parsed are the hashes that were rendered. -/
theorem Rendering.get?_parse {stdout : List Char} (hr : Rendering h stdout) (svc : String) :
    (parseServiceHashes stdout).get? svc = h.hashes.get? svc := by
  have hperm := hr.lineHashes
  have hkeys : (((stdout.splitOn '\n').filterMap lineHash).map Prod.fst).Nodup := by
    rw [(hperm.map Prod.fst).nodup_iff, List.map_map]
    exact h.hashes.nodupKeys
  apply Option.ext
  intro hash
  rw [parseServiceHashes_eq, KeyMap.get?_foldl_insert_eq_some hkeys]
  have hentry : h.hashes.get? svc = some hash ↔ ⟨svc, hash⟩ ∈ h.hashes.entries :=
    AList.mem_lookup_iff
  rw [hentry]
  constructor
  · rintro ⟨p, hp, rfl, rfl⟩
    obtain ⟨e, he, rfl⟩ := List.mem_map.mp (hperm.mem_iff.mp hp)
    exact he
  · intro he
    exact ⟨(svc, hash), hperm.mem_iff.mpr (List.mem_map.mpr ⟨_, he, rfl⟩), rfl, rfl⟩

/-! ## Comparing -/

/-- The comparison stops exactly at a container whose hash is another one. -/
theorem driftLoop_eq_outdated_iff (hashes : KeyMap String String) (compared : Nat)
    (L : List Summary) :
    driftLoop hashes compared L = .outdated ↔
      ∃ c ∈ L, c.label oneOffLabel ≠ "True" ∧ c.label configHashLabel ≠ "" ∧
        ∃ want, hashes.get? (c.label serviceLabel) = some want ∧
          c.label configHashLabel ≠ want := by
  induction L generalizing compared with
  | nil =>
    rw [driftLoop]
    split <;> simp
  | cons c L ih =>
    rw [driftLoop, List.exists_mem_cons_iff]
    split
    · next honeOff => simp [ih, honeOff]
    · next honeOff =>
      split
      · next hnone => simp [ih, hnone]
      · next want hsome =>
        dsimp only
        split
        · next hempty => simp [ih, hempty]
        · next hempty =>
          split
          · next hother => simp [honeOff, hempty, hsome, hother]
          · next hsame =>
            rw [not_not] at hsame
            simp [ih, hsome, hsame]

namespace Rendering

variable {stdout : List Char} (hr : Rendering h stdout) (L : List Summary)

include hr

/-- A drift check finds the containers that have another hash than their service. -/
theorem drift_eq_outdated_iff :
    driftFromContainers L (parseServiceHashes stdout) = .outdated ↔ SomeOutdated h L := by
  rw [driftFromContainers, driftLoop_eq_outdated_iff]
  simp only [hr.get?_parse]
  apply exists_congr
  intro c
  apply and_congr_right
  intro _
  constructor
  · rintro ⟨honeOff, hhash, want, hwant, hother⟩
    exact ⟨want, ⟨honeOff, hwant, hhash⟩, hother⟩
  · rintro ⟨want, ⟨honeOff, hwant, hhash⟩, hother⟩
    exact ⟨honeOff, hhash, want, hwant, hother⟩

/-- It leaves the drift unknown when there is nothing to compare. -/
theorem drift_eq_unknown_iff :
    driftFromContainers L (parseServiceHashes stdout) = .unknown ↔ ¬ SomeCompared h L := by
  rw [driftFromContainers, driftLoop_eq_unknown_iff, SomeCompared]
  simp only [hr.get?_parse, true_and]
  push Not
  apply forall₂_congr
  intro c _
  constructor
  · rintro hskip want ⟨honeOff, hwant, hhash⟩
    rw [hwant] at hskip
    exact hskip.elim honeOff fun hskip ↦ hskip.elim hhash fun hnone ↦ by cases hnone
  · intro hnone
    by_contra hskip
    push Not at hskip
    obtain ⟨want, hwant⟩ := Option.ne_none_iff_exists'.mp hskip.2.2
    exact hnone want ⟨hskip.1, hwant, hskip.2.1⟩

/-- In the other cases the containers are in sync. -/
theorem drift_eq_inSync_iff :
    driftFromContainers L (parseServiceHashes stdout) = .inSync ↔
      ¬ SomeOutdated h L ∧ SomeCompared h L := by
  have hsome : SomeCompared h L ↔
      driftFromContainers L (parseServiceHashes stdout) ≠ .unknown := by
    rw [ne_eq, hr.drift_eq_unknown_iff L, not_not]
  rw [← hr.drift_eq_outdated_iff L, hsome]
  cases driftFromContainers L (parseServiceHashes stdout) <;> simp

end Rendering

/-- The verdict on containers: outdated if one of those that are compared has another hash than its
service, else in sync if one is compared at all, else unknown. It depends neither on the order of
the lines nor on that of the containers. -/
theorem drift_verdict (h : ServiceHashes) (stdout : List Char) (containers : List Summary)
    (hr : Rendering h stdout) :
    (driftFromContainers containers (parseServiceHashes stdout) = .outdated ↔
        SomeOutdated h containers) ∧
      (driftFromContainers containers (parseServiceHashes stdout) = .inSync ↔
        ¬ SomeOutdated h containers ∧ SomeCompared h containers) ∧
      (driftFromContainers containers (parseServiceHashes stdout) = .unknown ↔
        ¬ SomeOutdated h containers ∧ ¬ SomeCompared h containers) ∧
      ∀ stdout' containers', Rendering h stdout' → containers'.Perm containers →
        driftFromContainers containers' (parseServiceHashes stdout') =
          driftFromContainers containers (parseServiceHashes stdout) := by
  have hcompared : SomeOutdated h containers → SomeCompared h containers := by
    rintro ⟨c, hc, want, hwant, -⟩
    exact ⟨c, hc, want, hwant⟩
  refine ⟨hr.drift_eq_outdated_iff containers, hr.drift_eq_inSync_iff containers, ?_, ?_⟩
  · rw [hr.drift_eq_unknown_iff containers, ← not_or, or_iff_right_of_imp hcompared]
  · intro stdout' containers' hr' hperm
    have houtdated : SomeOutdated h containers' ↔ SomeOutdated h containers := by
      simp only [SomeOutdated, hperm.mem_iff]
    have hsome : SomeCompared h containers' ↔ SomeCompared h containers := by
      simp only [SomeCompared, hperm.mem_iff]
    cases hverdict : driftFromContainers containers (parseServiceHashes stdout) with
    | outdated =>
      rw [hr'.drift_eq_outdated_iff, houtdated]
      exact (hr.drift_eq_outdated_iff containers).mp hverdict
    | inSync =>
      rw [hr'.drift_eq_inSync_iff, houtdated, hsome]
      exact (hr.drift_eq_inSync_iff containers).mp hverdict
    | unknown =>
      rw [hr'.drift_eq_unknown_iff, hsome]
      exact (hr.drift_eq_unknown_iff containers).mp hverdict

/-- The hashes of one service. -/
def webHash : ServiceHashes where
  hashes := (∅ : KeyMap String String).insert "web" "f00ba4"
  words := by
    intro svc hash h
    rw [KeyMap.get?_insert, KeyMap.get?_empty] at h
    split at h
    · next hsvc =>
      rw [hsvc, ← Option.some.inj h]
      decide
    · contradiction

/-- A container with the service's hash and one with another, after a warning. -/
theorem drift_verdict_warning :
    driftFromContainers [demoContainer "a1" "web" "f00ba4", demoContainer "b2" "web" "0ld"]
      (parseServiceHashes "a warning first
web f00ba4
".toList) = .outdated := by
  have hr : Rendering webHash "a warning first
web f00ba4
".toList := by
    refine ⟨["a warning first".toList, "web f00ba4".toList, []],
      ["a warning first".toList, []], ?_, ?_, ?_⟩
    · exact .swap _ _ _
    · decide
    · decide
  apply (drift_verdict webHash _ _ hr).1.mpr
  refine ⟨demoContainer "b2" "web" "0ld", by simp, "f00ba4", ⟨?_, ?_, ?_⟩, ?_⟩ <;>
    decide +kernel

end Dockstack.Docker
