import Dockstack.Docker.Drift

/-!
# One-off containers and drift

`driftFromContainers` skips the containers of `docker compose run`, but the list that
`resolveServiceNetworkModes` takes the container ids from still holds them: they show in
the result of `stackDrift` as soon as one of them is the last container of a service that
a network mode refers to.
-/

namespace Dockstack.Docker

open Dockstack.Base

/-- `WithOneOffs L L'`: `L'` is `L` with one-off containers inserted anywhere. -/
inductive WithOneOffs : List Summary → List Summary → Prop where
  | nil : WithOneOffs [] []
  | keep {L L' : List Summary} (c : Summary) : WithOneOffs L L' → WithOneOffs (c :: L) (c :: L')
  | insert {L L' : List Summary} (c : Summary) (oneOff : c.label oneOffLabel = "True") :
      WithOneOffs L L' → WithOneOffs L (c :: L')

/-- A container that a drift check can compare with a hash. -/
def Comparable (c : Summary) : Prop :=
  c.label oneOffLabel ≠ "True" ∧ c.label configHashLabel ≠ "" ∧
    IsWord (c.label serviceLabel).toList

/-- Every service that a network mode of the compose file refers to has the same last
container id, or none, in both lists. -/
def SameTargets (compose : Bytes) (L L' : List Summary) : Prop :=
  ∀ line ∈ networkModeLines compose, ∀ svc ∈ lineService line,
    (serviceIDs L).get? svc = (serviceIDs L').get? svc

instance (compose : Bytes) (L L' : List Summary) : Decidable (SameTargets compose L L') :=
  inferInstanceAs (Decidable (∀ line ∈ networkModeLines compose, ∀ svc ∈ lineService line,
    (serviceIDs L).get? svc = (serviceIDs L').get? svc))

variable {L L' : List Summary}

/-! ## The comparison -/

/-- The comparison skips one-off containers. -/
theorem driftLoop_withOneOffs (h : WithOneOffs L L') (hashes : KeyMap String String)
    (compared : Nat) : driftLoop hashes compared L' = driftLoop hashes compared L := by
  induction h generalizing compared with
  | nil => rfl
  | keep c _ ih => simp only [driftLoop, ih]
  | insert c hc _ ih => rw [driftLoop, if_pos hc, ih]

/-- Drift stays unknown exactly when no container is compared. -/
theorem driftLoop_eq_unknown_iff (hashes : KeyMap String String) (compared : Nat)
    (L : List Summary) :
    driftLoop hashes compared L = .unknown ↔
      compared = 0 ∧ ∀ c ∈ L, c.label oneOffLabel = "True" ∨ c.label configHashLabel = "" ∨
        hashes.get? (c.label serviceLabel) = none := by
  induction L generalizing compared with
  | nil => simp [driftLoop]
  | cons c L ih =>
    rw [driftLoop, List.forall_mem_cons]
    split
    · next h1 => simp [ih, h1]
    · next h1 =>
      split
      · next h2 => simp [ih, h2]
      · next want h2 =>
        dsimp only
        split
        · next h3 => simp [ih, h3]
        · next h3 =>
          split
          · simp [h1, h2, h3]
          · simp [ih, h1, h2, h3]

/-- The services of the hashes are words. -/
theorem isWord_of_parseServiceHashes {stdout : List Char} {svc hash : String}
    (h : (parseServiceHashes stdout).get? svc = some hash) : IsWord svc.toList := by
  have hline (out : KeyMap String String)
      (hout : ∀ svc hash, out.get? svc = some hash → IsWord svc.toList) (line : List Char) :
      ∀ svc hash, (putServiceHash out line).get? svc = some hash → IsWord svc.toList := by
    intro svc hash h
    unfold putServiceHash at h
    split at h
    · next svc₀ hash₀ hfields =>
      rw [KeyMap.get?_insert] at h
      split at h
      · next heq =>
        have hword : IsWord svc₀ :=
          isWord_of_mem_fields (s := line) (hfields ▸ List.mem_cons_self)
        rwa [heq, String.toList_ofList]
      · exact hout svc hash h
    · exact hout svc hash h
  exact List.foldlRecOn (motive := fun out ↦ ∀ svc hash, KeyMap.get? out svc = some hash →
    IsWord svc.toList) _ putServiceHash (by simp)
    (fun out hout line _ ↦ hline out hout line) svc hash h

/-- The answer with one hash. -/
theorem parseServiceHashes_single {svc : String} (h : IsWord svc.toList) :
    (parseServiceHashes (svc.toList ++ [' ', 'x'])).get? svc = some "x" := by
  have hline : '\n' ∉ svc.toList ++ [' ', 'x'] := by
    intro hn
    rcases List.mem_append.mp hn with hn | hn
    · exact absurd (h.2 _ hn) (by decide)
    · exact absurd hn (by decide)
  have hfields : fields (svc.toList ++ [' ', 'x']) = [svc.toList, ['x']] := by
    rw [fields_append h (by decide) ['x'], fields_word (by decide)]
  rw [parseServiceHashes, List.splitOn_eq_singleton hline, List.foldl_cons, List.foldl_nil,
    putServiceHash, hfields]
  dsimp only
  rw [String.ofList_toList, KeyMap.get?_insert, if_pos rfl]

/-! ## The compose text -/

/-- Every id that a reference can resolve to is a container's. -/
theorem exists_of_serviceIDs {svc id : Bytes} (h : (serviceIDs L).get? svc = some id) :
    ∃ c ∈ L, goBytes c.id = id := by
  have hput (ids : KeyMap Bytes Bytes)
      (hids : ∀ svc id, ids.get? svc = some id → ∃ c ∈ L, goBytes c.id = id) (c : Summary)
      (hc : c ∈ L) :
      ∀ svc id, (putServiceID ids c).get? svc = some id → ∃ c ∈ L, goBytes c.id = id := by
    intro svc id h
    unfold putServiceID at h
    split at h
    · rw [KeyMap.get?_insert] at h
      split at h
      · exact ⟨c, hc, Option.some.inj h⟩
      · exact hids svc id h
    · exact hids svc id h
  exact List.foldlRecOn (motive := fun ids ↦ ∀ svc id, KeyMap.get? ids svc = some id →
    ∃ c ∈ L, goBytes c.id = id) _ putServiceID (by simp) hput svc id h

/-- A reference is a key, and a service up to the end of the line. -/
theorem networkMode_parts {bol : Bool} {s : Bytes} {m : RegexMatch UInt8}
    (h : m ∈ serviceNetworkModeRe.matchesAt newline bol s) :
    ∃ target, m.text = m.sub 1 ++ target ∧ newline ∉ target ∧ target ≠ [] ∧
      target.head? ≠ (goBytes "container:").head? := by
  obtain ⟨start, hstart, hm⟩ := List.mem_flatMap.mp h
  obtain ⟨rest, hrest, rfl⟩ := List.mem_map.mp hm
  obtain ⟨key, hkey, hm⟩ := List.mem_flatMap.mp hrest
  obtain ⟨target, htarget, rfl⟩ := List.mem_map.mp hm
  obtain ⟨keyText, hkeyText, rfl⟩ := List.mem_map.mp hkey
  obtain rfl : start = ⟨[], []⟩ := by
    rw [Regex.matchesAt] at hstart
    split at hstart
    · exact List.mem_singleton.mp hstart
    · simp at hstart
  have havoids : networkModeServiceRe.Avoids newline := by decide +kernel
  refine ⟨target.text, rfl, Regex.notMem_of_avoids havoids htarget, ?_⟩
  obtain ⟨quote, hquote, hm⟩ := List.mem_flatMap.mp htarget
  obtain ⟨svc, hsvc, rfl⟩ := List.mem_map.mp hm
  obtain ⟨word, hword, hm⟩ := List.mem_flatMap.mp hsvc
  obtain ⟨_, -, rfl⟩ := List.mem_map.mp hm
  obtain rfl := Regex.eq_of_mem_lit hword
  rcases List.mem_append.mp hquote with hquote | hquote
  · obtain ⟨q, hq, rfl⟩ := Regex.exists_of_mem_cls hquote
    refine ⟨by simp, fun hc ↦ ?_⟩
    obtain rfl : q = 99 := Option.some.inj hc
    exact absurd hq (by decide +kernel)
  · obtain rfl := List.mem_singleton.mp hquote
    obtain ⟨bytes, hbytes⟩ : ∃ bytes, goBytes "service:" = 115 :: bytes :=
      ⟨(goBytes "service:").tail, by decide +kernel⟩
    have hc : (goBytes "container:").head? = some 99 := by decide +kernel
    rw [hbytes, hc]
    exact ⟨by simp, by simp⟩

/-- References begin at the beginning of a line. -/
theorem networkMode_startsLine : serviceNetworkModeRe.StartsLine := trivial

/-- References end at the end of a line. -/
theorem networkMode_endsLine : serviceNetworkModeRe.EndsLine := trivial

/-- No reference is empty. -/
theorem networkMode_ne_nil (bol : Bool) (s : Bytes) (m : RegexMatch UInt8)
    (h : (serviceNetworkModeRe.matchesAt newline bol s).head? = some m) : m.text ≠ [] := by
  obtain ⟨target, htext, -, hne, -⟩ := networkMode_parts (List.mem_of_head? h)
  rw [htext]
  exact List.append_ne_nil_of_right_ne_nil _ hne

private theorem mem_networkModeLines {compose line : Bytes} :
    line ∈ networkModeLines compose ↔
      .matched line ∈ serviceNetworkModeRe.segments newline true 0 compose := by
  rw [networkModeLines, List.mem_filterMap]
  constructor
  · rintro ⟨segment, hmem, heq⟩
    cases segment with
    | char c => cases heq
    | matched text =>
      cases heq
      exact hmem
  · exact fun h ↦ ⟨_, h, rfl⟩

private theorem resolveLine_of_match {s : Bytes} {m : RegexMatch UInt8}
    (h : (serviceNetworkModeRe.matchesAt newline true s).head? = some m) :
    ∃ key target svc, m.text = key ++ target ∧ newline ∉ target ∧ target ≠ [] ∧
      target.head? ≠ (goBytes "container:").head? ∧ lineService m.text = some svc ∧
      ∀ ids, resolveLine ids m.text =
        match ids.get? svc with
        | none => key ++ target
        | some id => key ++ (goBytes "container:" ++ id) := by
  have hm := List.mem_of_head? h
  have hfind := Regex.find?_text h (Regex.atEol_of_mem_matchesAt networkMode_endsLine hm)
  obtain ⟨target, htext, hn, hne, hhead⟩ := networkMode_parts hm
  refine ⟨m.sub 1, target, m.sub 2, htext, hn, hne, hhead, ?_, fun ids ↦ ?_⟩
  · rw [lineService, hfind, Option.map_some]
  · rw [resolveLine, hfind, ← htext]
    dsimp only
    cases ids.get? (m.sub 2) with
    | none => rfl
    | some id => exact List.append_assoc _ _ _

/-- Where every reference resolves alike, so does the compose file. -/
theorem resolveServiceNetworkModes_congr {compose : Bytes} (h : SameTargets compose L L') :
    resolveServiceNetworkModes compose L = resolveServiceNetworkModes compose L' := by
  refine Prod.ext (Regex.replaceAllFunc_congr fun line hline ↦ ?_) ?_
  · have hids := h line (mem_networkModeLines.mpr hline)
    unfold resolveLine
    rw [lineService] at hids
    cases hfind : serviceNetworkModeRe.find? newline true line with
    | none => rfl
    | some m =>
      rw [hfind] at hids
      simp only [hids _ rfl]
  · have hbind (line : Bytes) (hline : line ∈ networkModeLines compose) :
        (lineService line).bind (serviceIDs L).get? =
          (lineService line).bind (serviceIDs L').get? := by
      cases hsvc : lineService line with
      | none => rfl
      | some svc => exact h line hline svc hsvc
    rw [Bool.eq_iff_iff, resolveServiceNetworkModes, resolveServiceNetworkModes,
      List.any_eq_true, List.any_eq_true]
    exact exists_congr fun line ↦ and_congr_right fun hline ↦ by rw [hbind line hline]

/-- The ids of the containers have no line feeds: Docker's are hexadecimal digits. -/
def PlainIDs (L : List Summary) : Prop := ∀ c ∈ L, '\n' ∉ c.id.toList

private theorem newline_notMem_id (hL : PlainIDs L) {svc id : Bytes}
    (h : (serviceIDs L).get? svc = some id) : newline ∉ goBytes "container:" ++ id := by
  obtain ⟨c, hc, rfl⟩ := exists_of_serviceIDs h
  rw [List.mem_append, not_or]
  exact ⟨by decide +kernel, newline_notMem_utf8Encode (hL c hc)⟩

private theorem WithOneOffs.plainIDs (h : WithOneOffs L L') (hL' : PlainIDs L') :
    PlainIDs L := by
  induction h with
  | nil => exact hL'
  | keep c _ ih =>
    obtain ⟨hc, hL'⟩ := List.forall_mem_cons.mp hL'
    exact List.forall_mem_cons.mpr ⟨hc, ih hL'⟩
  | insert c _ _ ih => exact ih (List.forall_mem_cons.mp hL').2

/-- Only then: with plain ids, another target shows in the text. -/
theorem sameTargets_of_eq {compose : Bytes} (hL : PlainIDs L) (hL' : PlainIDs L')
    (h : (resolveServiceNetworkModes compose L).1 = (resolveServiceNetworkModes compose L').1) :
    SameTargets compose L L' := by
  have hdiffer : Regex.DifferInLine newline serviceNetworkModeRe (resolveLine (serviceIDs L))
      (resolveLine (serviceIDs L')) := by
    intro s m hm
    obtain ⟨key, target, svc, htext, hn, hne, -, -, hresolve⟩ := resolveLine_of_match hm
    have hend (ids : KeyMap Bytes Bytes)
        (hids : ∀ id, ids.get? svc = some id → newline ∉ goBytes "container:" ++ id) :
        ∃ v, newline ∉ v ∧ resolveLine ids m.text = key ++ v := by
      rw [hresolve ids]
      cases hid : ids.get? svc with
      | none => exact ⟨target, hn, rfl⟩
      | some id => exact ⟨_, hids id hid, rfl⟩
    obtain ⟨v, hv, heq⟩ := hend (serviceIDs L) fun _ ↦ newline_notMem_id hL
    obtain ⟨v', hv', heq'⟩ := hend (serviceIDs L') fun _ ↦ newline_notMem_id hL'
    refine ⟨⟨target.getLast hne, ?_, ?_⟩, key, v, v', hv, hv', heq, heq'⟩
    · rw [htext, List.getLast?_append_of_ne_nil _ hne, List.getLast?_eq_some_getLast hne]
    · exact fun hlast ↦ hn (hlast ▸ List.getLast_mem hne)
  intro line hline svc hsvc
  have hmem := mem_networkModeLines.mp hline
  have heq := Regex.eq_of_replaceAllFunc_eq networkMode_startsLine networkMode_endsLine hdiffer
    h hmem
  obtain ⟨s, m, hm, rfl⟩ := Regex.exists_of_matched networkMode_startsLine networkMode_ne_nil hmem
  obtain ⟨key, target, svc', -, -, hne, hhead, hsvc', hresolve⟩ := resolveLine_of_match hm
  obtain rfl : svc' = svc := Option.some.inj (hsvc'.symm.trans hsvc)
  rw [hresolve, hresolve] at heq
  have hkept (id : Bytes) : target ≠ goBytes "container:" ++ id := by
    rintro rfl
    exact hhead (List.head?_append_of_ne_nil _ (by decide +kernel))
  cases hid : (serviceIDs L).get? svc' with
  | none =>
    cases hid' : (serviceIDs L').get? svc' with
    | none => rfl
    | some id' =>
      rw [hid, hid'] at heq
      exact absurd (List.append_cancel_left heq) (hkept id')
  | some id =>
    cases hid' : (serviceIDs L').get? svc' with
    | none =>
      rw [hid, hid'] at heq
      exact absurd (List.append_cancel_left heq).symm (hkept id)
    | some id' =>
      rw [hid, hid'] at heq
      rw [List.append_cancel_left (List.append_cancel_left heq)]

/-- Without a resolved reference the compose file stays as it is. -/
theorem resolveServiceNetworkModes_of_false {compose : Bytes}
    (h : (resolveServiceNetworkModes compose L).2 = false) :
    (resolveServiceNetworkModes compose L).1 = compose := by
  rw [resolveServiceNetworkModes, List.any_eq_false] at h
  refine Eq.trans (Regex.replaceAllFunc_congr fun line hline ↦ ?_)
    (Regex.flatMap_segments networkMode_ne_nil true compose)
  have hnone := h line (mem_networkModeLines.mpr hline)
  obtain ⟨s, m, hm, rfl⟩ :=
    Regex.exists_of_matched networkMode_startsLine networkMode_ne_nil hline
  obtain ⟨key, target, svc, htext, -, -, -, hsvc, hresolve⟩ := resolveLine_of_match hm
  rw [hsvc, Option.bind_some, Bool.not_eq_true, Option.isSome_eq_false_iff,
    Option.isNone_iff_eq_none] at hnone
  rw [hresolve, hnone, htext, id]

/-! ## The whole check -/

section

variable {α : Type} {s : Stacks} {t : FileTree α} {name path : String} {compose : Bytes}

/-- The command is given the resolved compose text. -/
theorem composeConfig_driftCommand (config : Bytes → Option (List Char)) :
    composeConfig config compose (driftCommand s t name path (some compose) L) =
      config (resolveServiceNetworkModes compose L).1 := by
  rw [driftCommand, composeConfig]
  split
  · rw [Option.getD_some]
  · next hresolved =>
    rw [Option.getD_none, resolveServiceNetworkModes_of_false (by simpa using hresolved)]

/-- The check of a list of containers: the hashes of the resolved compose text, compared. -/
theorem stackDrift_eq (hpath : s.findComposePath t name = .ok path) (hne : L ≠ [])
    (config : Bytes → Option (List Char)) :
    stackDrift s t (composeConfig config compose) (some L) (some compose) name =
      match config (resolveServiceNetworkModes compose L).1 with
      | none => .unknown
      | some stdout => driftFromContainers L (parseServiceHashes stdout) := by
  rw [stackDrift, if_neg (by simpa using hne), hpath]
  cases hconfig : config (resolveServiceNetworkModes compose L).1 with
  | none => simp only [composeConfig_driftCommand, hconfig]
  | some stdout => simp only [composeConfig_driftCommand, hconfig]

/-- A list that can be compared is not left unknown by every configuration. -/
theorem exists_config_known (hL : ∃ c ∈ L, Comparable c) :
    ∃ stdout, driftFromContainers L (parseServiceHashes stdout) ≠ .unknown := by
  obtain ⟨c, hc, honeoff, hhash, hword⟩ := hL
  refine ⟨(c.label serviceLabel).toList ++ [' ', 'x'], fun hunknown ↦ ?_⟩
  have hall := ((driftLoop_eq_unknown_iff _ _ _).mp hunknown).2 c hc
  rw [parseServiceHashes_single hword] at hall
  exact hall.elim honeoff fun h ↦ h.elim hhash nofun

/-- A list without a container to compare is unknown. -/
theorem driftFromContainers_of_not_comparable (hL : ∀ c ∈ L, ¬ Comparable c)
    (stdout : List Char) : driftFromContainers L (parseServiceHashes stdout) = .unknown := by
  refine (driftLoop_eq_unknown_iff _ _ _).mpr ⟨rfl, fun c hc ↦ ?_⟩
  by_cases honeoff : c.label oneOffLabel = "True"
  · exact .inl honeoff
  · by_cases hhash : c.label configHashLabel = ""
    · exact .inr (.inl hhash)
    · refine .inr (.inr (Option.eq_none_iff_forall_ne_some.mpr fun hash hget ↦ ?_))
      exact hL c hc ⟨honeoff, hhash, isWord_of_parseServiceHashes hget⟩

/-- One-off containers bring nothing to compare. -/
theorem not_comparable_of_withOneOffs (h : WithOneOffs L L') (hL : ∀ c ∈ L, ¬ Comparable c) :
    ∀ c ∈ L', ¬ Comparable c := by
  induction h with
  | nil => exact hL
  | keep c _ ih =>
    rw [List.forall_mem_cons] at hL ⊢
    exact ⟨hL.1, ih hL.2⟩
  | insert c hc _ ih => exact List.forall_mem_cons.mpr ⟨fun h ↦ h.1 hc, ih hL⟩

private theorem ne_nil_of_withOneOffs (h : WithOneOffs L L') (hne : L ≠ []) : L' ≠ [] := by
  rintro rfl
  cases h
  exact hne rfl

/-- One-off containers are invisible to the drift of a stack if every network mode still resolves
to the same container, or there is nothing to compare, whatever the ids are. -/
theorem stackDrift_withOneOffs (hpath : s.findComposePath t name = .ok path) (hne : L ≠ [])
    (h : WithOneOffs L L') (hsame : SameTargets compose L L' ∨ ∀ c ∈ L, ¬ Comparable c)
    (config : Bytes → Option (List Char)) :
    stackDrift s t (composeConfig config compose) (some L') (some compose) name =
      stackDrift s t (composeConfig config compose) (some L) (some compose) name := by
  have hne' := ne_nil_of_withOneOffs h hne
  rcases hsame with htargets | hnone
  · rw [stackDrift_eq hpath hne', stackDrift_eq hpath hne,
      resolveServiceNetworkModes_congr htargets]
    cases config (resolveServiceNetworkModes compose L').1 with
    | none => rfl
    | some stdout => exact driftLoop_withOneOffs h _ 0
  · have hunknown (L : List Summary) (hne : L ≠ []) (hL : ∀ c ∈ L, ¬ Comparable c) :
        stackDrift s t (composeConfig config compose) (some L) (some compose) name = .unknown := by
      rw [stackDrift_eq hpath hne]
      cases config (resolveServiceNetworkModes compose L).1 with
      | none => rfl
      | some stdout => exact driftFromContainers_of_not_comparable hL stdout
    rw [hunknown L' hne' (not_comparable_of_withOneOffs h hnone), hunknown L hne hnone]

/-- One-off containers are invisible to the drift of a stack, whatever the configuration hashes
to, exactly when every network mode still resolves to the same container, or there is
nothing to compare. -/
theorem stackDrift_withOneOffs_iff (hpath : s.findComposePath t name = .ok path) (hne : L ≠ [])
    (h : WithOneOffs L L') (hids : PlainIDs L') :
    (∀ config, stackDrift s t (composeConfig config compose) (some L') (some compose) name =
        stackDrift s t (composeConfig config compose) (some L) (some compose) name) ↔
      SameTargets compose L L' ∨ ∀ c ∈ L, ¬ Comparable c := by
  have hne' := ne_nil_of_withOneOffs h hne
  constructor
  · intro hsame
    by_contra hcon
    rw [not_or] at hcon
    obtain ⟨htargets, hcomparable⟩ := hcon
    obtain ⟨stdout, hknown⟩ := exists_config_known (L := L) (by simpa using hcomparable)
    have htext : (resolveServiceNetworkModes compose L').1 ≠
        (resolveServiceNetworkModes compose L).1 := fun heq ↦
      htargets (sameTargets_of_eq (h.plainIDs hids) hids heq.symm)
    -- a configuration that is only valid as it is resolved without the one-off containers
    have hdrift := hsame fun text ↦
      if text = (resolveServiceNetworkModes compose L).1 then some stdout else none
    rw [stackDrift_eq hpath hne', stackDrift_eq hpath hne, if_neg htext, if_pos rfl] at hdrift
    exact hknown hdrift.symm
  · exact stackDrift_withOneOffs hpath hne h

end

/-! ## A stack with a reference -/

/-- A container of a service, with its configuration hash. -/
def demoContainer (id service hash : String) : Summary where
  id := id
  names := []
  image := ""
  imageID := ""
  state := "running"
  status := ""
  labels := (AList.insert configHashLabel hash ∅).insert serviceLabel service

/-- A container of `docker compose run`. -/
def demoOneOff (id service : String) : Summary :=
  { demoContainer id service "run" with
    labels := (demoContainer id service "run").labels.insert oneOffLabel "True" }

/-- A service in the network of another one. -/
def demoCompose : Bytes :=
  goBytes "services:\n  app:\n    network_mode: service:vpn\n  vpn:\n    image: gluetun\n"

/-- A directory of stacks with one of them. -/
def demoTree : FileTree Unit :=
  AList.insert "media" (.dir ((∅ : Folder Unit).insert "compose.yaml" (.file ""))) ∅

/-- Its stacks. -/
def demoStacks : Stacks := ⟨"/stacks", "", false⟩

/-- Its containers. -/
def demoContainers : List Summary := [demoContainer "a1" "vpn" "h1", demoContainer "b2" "app" "h2"]

private theorem withOneOffs_demo (c : Summary) (h : c.label oneOffLabel = "True") :
    WithOneOffs demoContainers (demoContainers ++ [c]) :=
  .keep _ (.keep _ (.insert c h .nil))

/-- A one-off container of a service that nothing refers to keeps every target. -/
theorem stackDrift_withOneOffs_demo :
    SameTargets demoCompose demoContainers (demoContainers ++ [demoOneOff "c3" "app"]) ∧
      ((∀ config, stackDrift demoStacks demoTree (composeConfig config demoCompose)
          (some (demoContainers ++ [demoOneOff "c3" "app"])) (some demoCompose) "media" =
        stackDrift demoStacks demoTree (composeConfig config demoCompose)
          (some demoContainers) (some demoCompose) "media") ↔
        SameTargets demoCompose demoContainers (demoContainers ++ [demoOneOff "c3" "app"]) ∨
          ∀ c ∈ demoContainers, ¬ Comparable c) := by
  refine ⟨by decide +kernel, stackDrift_withOneOffs_iff
    (by decide +kernel : demoStacks.findComposePath demoTree "media" =
      .ok "/stacks/media/compose.yaml") (by decide +kernel) (withOneOffs_demo _ (by decide +kernel))
    ?_⟩
  exact (by decide +kernel : ∀ c ∈ demoContainers ++ [demoOneOff "c3" "app"],
    '\n' ∉ c.id.toList)

/-- The hashes that the containers were created with: the reference resolved to `a1`. -/
def demoConfig (text : Bytes) : Option (List Char) :=
  if text = goBytes
      "services:\n  app:\n    network_mode: container:a1\n  vpn:\n    image: gluetun\n" then
    some "app h2\nvpn h1\n".toList
  else some "app h3\nvpn h1\n".toList

/-- A one-off container of the service that is referred to makes the stack outdated. -/
theorem stackDrift_sees_oneOff :
    WithOneOffs demoContainers (demoContainers ++ [demoOneOff "c3" "vpn"]) ∧
      stackDrift demoStacks demoTree (composeConfig demoConfig demoCompose)
        (some demoContainers) (some demoCompose) "media" = .inSync ∧
      stackDrift demoStacks demoTree (composeConfig demoConfig demoCompose)
        (some (demoContainers ++ [demoOneOff "c3" "vpn"])) (some demoCompose) "media" =
          .outdated :=
  ⟨withOneOffs_demo _ (by decide +kernel), by decide +kernel, by decide +kernel⟩

end Dockstack.Docker
