import Dockstack.Docker.StackUpdates

/-!
# What the updates of stacks say

`listStackUpdates` in terms of whole image ids and digests: a stack with containers is
outdated when one of them runs an image that the registry has replaced, else unknown when
that could not be determined for one of them, else up to date. The order of the listings
does not matter.
-/

namespace Dockstack.Docker

open Dockstack.Base

/-! ## The statuses of a stack -/

private theorem aggregateStaleFrom_eq (out : StaleStatus) (statuses : List StaleStatus) :
    aggregateStaleFrom out statuses =
      if .outdated ∈ statuses then .outdated
      else if .unknown ∈ statuses then .unknown else out := by
  induction statuses generalizing out with
  | nil => rfl
  | cons status statuses ih =>
    cases status with
    | outdated => simp [aggregateStaleFrom]
    | unknown => simp [aggregateStaleFrom, ih]
    | upToDate => simp [aggregateStaleFrom, ih]

/-- One outdated container makes a stack outdated, else one unknown makes it unknown. -/
theorem aggregateStale_eq (statuses : List StaleStatus) :
    aggregateStale statuses =
      if .outdated ∈ statuses then .outdated
      else if .unknown ∈ statuses then .unknown else .upToDate :=
  aggregateStaleFrom_eq .upToDate statuses

section

variable {α : Type} (env : UpdateEnv) (s : Stacks) (t : FileTree α)

/-- The image of the compose file for a container of a stack. -/
def composeTag (name : String) (c : Summary) : String :=
  ((composeServiceImages env s t name).get? (c.label serviceLabel)).getD ""

/-- The status of a container of a stack. -/
def stackStatus (byID : KeyMap String ImageInfo) (name : String) (c : Summary) : StaleStatus :=
  containerStale env c byID (composeTag env s t name c)

/-- The containers of a listed stack. -/
def stackContainers (names : List String) (containers : List Summary) (name : String) :
    List Summary :=
  containers.filter (updateStack names · = some name)

/-- After some containers the loop has the statuses of theirs, by stack. -/
structure LoopTraced (names : List String) (byID : KeyMap String ImageInfo)
    (seen : List Summary) (loop : UpdateLoop) : Prop where
  perStack : ∀ name, (loop.perStack.get? name).getD [] =
    (stackContainers names seen name).map (stackStatus env s t byID name)
  serviceImages : ∀ name tags, loop.serviceImages.get? name = some tags →
    tags = composeServiceImages env s t name

variable {env s t} {names : List String} {byID : KeyMap String ImageInfo}

/-- A round adds the status of its container. -/
theorem loopTraced_updateRound {seen : List Summary} {loop : UpdateLoop}
    (h : LoopTraced env s t names byID seen loop) (c : Summary) :
    LoopTraced env s t names byID (seen ++ [c]) (updateRound env s t names byID loop c) := by
  rw [updateRound]
  cases hc : updateStack names c with
  | none =>
    refine ⟨fun name ↦ ?_, h.serviceImages⟩
    rw [h.perStack, stackContainers, stackContainers, List.filter_append, List.filter_singleton]
    simp [hc]
  | some project =>
    have htags : (loop.serviceImages.get? project).getD (composeServiceImages env s t project) =
        composeServiceImages env s t project := by
      cases hp : loop.serviceImages.get? project with
      | none => rfl
      | some tags => exact h.serviceImages project tags hp
    refine ⟨fun name ↦ ?_, fun name tags htag ↦ ?_⟩
    · rw [stackContainers, List.filter_append, List.filter_singleton, List.map_append]
      dsimp only
      rw [KeyMap.get?_insert, htags]
      by_cases hname : name = project
      · subst hname
        rw [if_pos rfl, Option.getD_some, h.perStack, stackContainers]
        simp [hc, stackStatus, composeTag]
      · rw [if_neg hname, h.perStack, stackContainers]
        simp [hc, Ne.symm hname]
    · dsimp only at htag
      split at htag
      · exact h.serviceImages name tags htag
      · rw [KeyMap.get?_insert, htags] at htag
        split at htag
        · next hname => exact hname ▸ (Option.some.inj htag).symm
        · exact h.serviceImages name tags htag

/-- The loop has the statuses of every container, by stack. -/
theorem perStack_foldl (containers : List Summary) (name : String) :
    ((containers.foldl (updateRound env s t names byID) ⟨∅, ∅⟩).perStack.get? name).getD [] =
      (stackContainers names containers name).map (stackStatus env s t byID name) := by
  have hloop (rest seen : List Summary) (loop : UpdateLoop)
      (h : LoopTraced env s t names byID seen loop) :
      LoopTraced env s t names byID (seen ++ rest)
        (rest.foldl (updateRound env s t names byID) loop) := by
    induction rest generalizing seen loop with
    | nil => rwa [List.append_nil]
    | cons c rest ih =>
      have hround := ih (seen ++ [c]) _ (loopTraced_updateRound h c)
      rwa [List.append_assoc] at hround
  exact (hloop containers [] ⟨∅, ∅⟩ ⟨fun _ ↦ rfl, fun _ _ h ↦ nomatch h⟩).perStack name

/-- The verdict of a stack is over its statuses, if there are any. -/
theorem updateVerdict_eq (perStack : KeyMap String (List StaleStatus)) (name : String) :
    updateVerdict perStack name =
      if (perStack.get? name).getD [] = [] then none
      else some (aggregateStale ((perStack.get? name).getD [])) := by
  rw [updateVerdict]
  cases perStack.get? name with
  | none => rfl
  | some statuses =>
    cases statuses with
    | nil => rfl
    | cons status statuses => rfl

/-- The verdicts are those of the listed stacks. -/
theorem get?_updateVerdicts (names : List String) (perStack : KeyMap String (List StaleStatus))
    (name : String) :
    (updateVerdicts names perStack).get? name =
      if name ∈ names then updateVerdict perStack name else none := by
  have hfold (names : List String) (out : KeyMap String StaleStatus) :
      KeyMap.get? (names.foldl (putVerdict perStack) out) name =
        if name ∈ names then (updateVerdict perStack name).or (out.get? name)
        else out.get? name := by
    induction names generalizing out with
    | nil => rfl
    | cons name' names ih =>
      rw [List.foldl_cons, ih, putVerdict]
      by_cases hname : name = name'
      · subst hname
        cases hv : updateVerdict perStack name with
        | none => simp
        | some status => simp [KeyMap.get?_insert]
      · have hmem : name ∈ name' :: names ↔ name ∈ names := by simp [hname]
        simp only [hmem]
        cases updateVerdict perStack name' with
        | none => rfl
        | some status => rw [KeyMap.get?_insert, if_neg hname]
  rw [updateVerdicts, hfold, KeyMap.get?_empty, Option.or_none]

/-- The verdicts only depend on the verdict of each stack. -/
theorem updateVerdicts_congr {perStack perStack' : KeyMap String (List StaleStatus)}
    (h : ∀ name, updateVerdict perStack name = updateVerdict perStack' name) :
    updateVerdicts names perStack = updateVerdicts names perStack' := by
  have hput : putVerdict perStack = putVerdict perStack' := by
    funext out name
    rw [putVerdict, putVerdict, h name]
  rw [updateVerdicts, updateVerdicts, hput]

end

/-! ## Whole ids -/

/-- What Docker and the registry promise: ids and digests have their forms, images are listed
once, and short ids tell the images apart that occur. -/
structure WellFormedListings (env : UpdateEnv) (containers : List Summary)
    (images : List ImageSummary) : Prop where
  imageIDs : ∀ id ∈ images.map (·.id) ++ containers.map (·.imageID), IsSha256 id
  listedOnce : (images.map (·.id)).Nodup
  shortIDs : ∀ id ∈ images.map (·.id) ++ containers.map (·.imageID),
    ∀ id' ∈ images.map (·.id) ++ containers.map (·.imageID),
      (id.toList.drop 7).take 12 = (id'.toList.drop 7).take 12 → id = id'
  repoDigests : ∀ img ∈ images, ∀ rd ∈ img.repoDigests, IsRepoDigest rd
  answers : ∀ tag digest, env.remoteDigestCached tag = some digest →
    digest = "" ∨ IsSha256 digest

/-- The tags that a container's image can be looked up by: its own, that of the compose file
if no variable is in it, and those of the image. -/
def candidateTags (c : Summary) (composeTag : String) (img : ImageSummary) : List String :=
  [c.image] ++ (if contains composeTag "$" then [] else [composeTag]) ++ img.repoTags

/-- The first usable tag. -/
def usableTag (c : Summary) (composeTag : String) (img : ImageSummary) : Option String :=
  (candidateTags c composeTag img).find? validImageTag

/-- The container runs an image that the registry has replaced: a known image with a usable
tag and with digests, none of which is the registry's. -/
def RunsOutdated (env : UpdateEnv) (images : List ImageSummary) (composeTag : String)
    (c : Summary) : Prop :=
  ∃ img ∈ images, img.id = c.imageID ∧ ∃ tag, usableTag c composeTag img = some tag ∧
    img.repoDigests ≠ [] ∧ ∃ digest, env.remoteDigestCached tag = some digest ∧ digest ≠ "" ∧
      ∀ rd ∈ img.repoDigests, afterAt rd ≠ digest.toList

/-- The container's image, its tag or its remote digest cannot be determined, or the image has
no digests. -/
def Undetermined (env : UpdateEnv) (images : List ImageSummary) (composeTag : String)
    (c : Summary) : Prop :=
  (∀ img ∈ images, img.id ≠ c.imageID) ∨
    ∃ img ∈ images, img.id = c.imageID ∧
      (usableTag c composeTag img = none ∨ img.repoDigests = [] ∨
        ∃ tag, usableTag c composeTag img = some tag ∧
          (env.remoteDigestCached tag = none ∨ env.remoteDigestCached tag = some ""))

variable {env : UpdateEnv} {containers : List Summary} {images : List ImageSummary}

/-- The tag of a container is the first usable one. -/
theorem containerImageTag_eq (c : Summary) (composeTag : String) (img : ImageSummary) :
    containerImageTag c composeTag (imageInfo img) = (usableTag c composeTag img).getD "" := by
  rw [containerImageTag, usableTag, candidateTags, List.singleton_append, List.cons_append,
    List.find?_cons]
  cases validImageTag c.image with
  | true => rfl
  | false =>
    cases contains composeTag "$" with
    | true => simp [imageInfo]
    | false => cases hcompose : validImageTag composeTag <;> simp [hcompose, imageInfo]

/-- A usable tag is not empty. -/
theorem ne_empty_of_usableTag {c : Summary} {composeTag tag : String} {img : ImageSummary}
    (h : usableTag c composeTag img = some tag) : tag ≠ "" := by
  rintro rfl
  have hvalid := List.find?_some h
  exact absurd hvalid (by decide +kernel)

private theorem formatImageTag_inj (h : WellFormedListings env containers images)
    {id id' : String} (hid : id ∈ images.map (·.id) ++ containers.map (·.imageID))
    (hid' : id' ∈ images.map (·.id) ++ containers.map (·.imageID))
    (heq : formatImageTag id = formatImageTag id') : id = id' := by
  rw [formatImageTag_of_isSha256 (h.imageIDs id hid),
    formatImageTag_of_isSha256 (h.imageIDs id' hid')] at heq
  apply h.shortIDs id hid id' hid'
  have hlist := congrArg String.toList heq
  rwa [String.toList_ofList, String.toList_ofList] at hlist

/-- The listing has the images, in another order. -/
theorem listImagesInfo_perm (images : List ImageSummary) :
    (listImagesInfo images).Perm (images.map imageInfo) := List.mergeSort_perm ..

/-- Images with different short ids are listed with different ids. -/
theorem nodup_listImagesInfo (h : (images.map fun img ↦ formatImageTag img.id).Nodup) :
    ((listImagesInfo images).map (·.id)).Nodup := by
  rw [((listImagesInfo_perm images).map _).nodup_iff, List.map_map]
  exact h

/-- Images with different short ids are found by them. -/
theorem get?_imagesByID_of_nodup (h : (images.map fun img ↦ formatImageTag img.id).Nodup)
    {id : String} {info : ImageInfo} :
    (imagesByID (listImagesInfo images)).get? id = some info ↔
      ∃ img ∈ images, formatImageTag img.id = id ∧ imageInfo img = info := by
  rw [imagesByID, KeyMap.get?_foldl_insert_eq_some (nodup_listImagesInfo h)]
  simp only [(listImagesInfo_perm images).mem_iff, List.mem_map]
  constructor
  · rintro ⟨_, ⟨img, himg, rfl⟩, hid, hinfo⟩
    exact ⟨img, himg, hid, hinfo⟩
  · rintro ⟨img, himg, hid, hinfo⟩
    exact ⟨_, ⟨img, himg, rfl⟩, hid, hinfo⟩

private theorem nodup_shortIDs (h : WellFormedListings env containers images) :
    (images.map fun img ↦ formatImageTag img.id).Nodup := by
  have hshort : images.map (fun img ↦ formatImageTag img.id) =
      (images.map (·.id)).map formatImageTag := by
    rw [List.map_map]
    rfl
  rw [hshort]
  apply List.Nodup.map_on _ h.listedOnce
  intro id hid id' hid' heq
  exact formatImageTag_inj h (List.mem_append_left _ hid) (List.mem_append_left _ hid') heq

/-- A container's image is found by its short id exactly when it is listed. -/
theorem get?_imagesByID (h : WellFormedListings env containers images) {c : Summary}
    (hc : c ∈ containers) {info : ImageInfo} :
    (imagesByID (listImagesInfo images)).get? (formatImageTag c.imageID) = some info ↔
      ∃ img ∈ images, img.id = c.imageID ∧ imageInfo img = info := by
  have hcontainer : c.imageID ∈ images.map (·.id) ++ containers.map (·.imageID) :=
    List.mem_append_right _ (List.mem_map_of_mem hc)
  rw [get?_imagesByID_of_nodup (nodup_shortIDs h)]
  apply exists_congr
  intro img
  apply and_congr_right
  intro himg
  have himage : img.id ∈ images.map (·.id) ++ containers.map (·.imageID) :=
    List.mem_append_left _ (List.mem_map_of_mem himg)
  exact and_congr_left' ⟨formatImageTag_inj h himage hcontainer, congrArg formatImageTag⟩

private theorem containerStale_none {c : Summary} {byID : KeyMap String ImageInfo}
    {composeTag : String} (h : byID.get? (formatImageTag c.imageID) = none) :
    containerStale env c byID composeTag = .unknown := by
  rw [containerStale, h]

private theorem containerStale_some {c : Summary} {byID : KeyMap String ImageInfo}
    {composeTag : String} {img : ImageSummary}
    (h : byID.get? (formatImageTag c.imageID) = some (imageInfo img)) :
    containerStale env c byID composeTag =
      match usableTag c composeTag img with
      | none => .unknown
      | some tag => staleFromDigest img.repoDigests (env.remoteDigestCached tag) := by
  rw [containerStale, h]
  dsimp only
  rw [containerImageTag_eq]
  cases htag : usableTag c composeTag img with
  | none => rfl
  | some tag =>
    rw [Option.getD_some, if_neg (ne_empty_of_usableTag htag)]
    rfl

/-- An image is outdated when the registry's digest is known and is none of its own. -/
theorem staleFromDigest_eq_outdated_iff {repoDigests : List String} {answer : Option String}
    (hrd : ∀ rd ∈ repoDigests, IsRepoDigest rd)
    (hanswer : ∀ digest, answer = some digest → digest = "" ∨ IsSha256 digest) :
    staleFromDigest repoDigests answer = .outdated ↔
      repoDigests ≠ [] ∧ ∃ digest, answer = some digest ∧ digest ≠ "" ∧
        ∀ rd ∈ repoDigests, afterAt rd ≠ digest.toList := by
  cases answer with
  | none => simp [staleFromDigest]
  | some digest =>
    by_cases hempty : digest = ""
    · simp [staleFromDigest, hempty]
    · have hdigest := (hanswer digest rfl).resolve_left hempty
      have hin := digestIn_iff hrd hdigest
      by_cases hnil : repoDigests = []
      · simp [staleFromDigest, hnil]
      · simp only [staleFromDigest, hempty, hnil, List.isEmpty_iff, decide_false, Bool.false_or,
          if_false, ne_eq, not_false_eq_true, true_and]
        by_cases hmem : digestIn repoDigests digest = true
        · obtain ⟨rd, hrd, heq⟩ := hin.mp hmem
          rw [if_pos hmem]
          constructor
          · nofun
          · rintro ⟨_, ⟨⟩, -, hnone⟩
            exact absurd heq (hnone rd hrd)
        · rw [if_neg hmem]
          refine ⟨fun _ ↦ ⟨digest, rfl, hempty, fun rd hrd heq ↦ ?_⟩, fun _ ↦ rfl⟩
          exact hmem (hin.mpr ⟨rd, hrd, heq⟩)

/-- It is unknown when it has no digests or the registry's is not known. -/
theorem staleFromDigest_eq_unknown_iff {repoDigests : List String} {answer : Option String} :
    staleFromDigest repoDigests answer = .unknown ↔
      repoDigests = [] ∨ answer = none ∨ answer = some "" := by
  cases answer with
  | none => simp [staleFromDigest]
  | some digest =>
    rw [staleFromDigest]
    by_cases hempty : digest = ""
    · simp [hempty]
    · by_cases hnil : repoDigests = []
      · simp [hnil]
      · cases hin : digestIn repoDigests digest <;> simp [hempty, hnil]

private theorem get?_imagesByID_eq_none (h : WellFormedListings env containers images)
    {c : Summary} (hc : c ∈ containers) :
    (imagesByID (listImagesInfo images)).get? (formatImageTag c.imageID) = none ↔
      ∀ img ∈ images, img.id ≠ c.imageID := by
  rw [Option.eq_none_iff_forall_ne_some]
  constructor
  · intro hnone img himg hid
    exact hnone _ ((get?_imagesByID h hc).mpr ⟨img, himg, hid, rfl⟩)
  · intro hall info hsome
    obtain ⟨img, himg, hid, -⟩ := (get?_imagesByID h hc).mp hsome
    exact hall img himg hid

private theorem image_unique (h : WellFormedListings env containers images)
    {img img' : ImageSummary} (himg : img ∈ images) (himg' : img' ∈ images)
    (hid : img.id = img'.id) : img = img' :=
  List.inj_on_of_nodup_map h.listedOnce himg himg' hid

private theorem exists_image_iff (h : WellFormedListings env containers images) {c : Summary}
    {img : ImageSummary} (himg : img ∈ images) (hid : img.id = c.imageID)
    (P : ImageSummary → Prop) : (∃ img ∈ images, img.id = c.imageID ∧ P img) ↔ P img := by
  constructor
  · rintro ⟨img', himg', hid', hP⟩
    rwa [image_unique h himg himg' (hid.trans hid'.symm)]
  · exact fun hP ↦ ⟨img, himg, hid, hP⟩

/-- A container's status is outdated exactly when it runs an outdated image. -/
theorem containerStale_eq_outdated_iff (h : WellFormedListings env containers images)
    {c : Summary} (hc : c ∈ containers) (composeTag : String) :
    containerStale env c (imagesByID (listImagesInfo images)) composeTag = .outdated ↔
      RunsOutdated env images composeTag c := by
  by_cases hlisted : ∀ img ∈ images, img.id ≠ c.imageID
  · rw [containerStale_none ((get?_imagesByID_eq_none h hc).mpr hlisted)]
    constructor
    · nofun
    · rintro ⟨img, himg, hid, -⟩
      exact absurd hid (hlisted img himg)
  · push Not at hlisted
    obtain ⟨img, himg, hid⟩ := hlisted
    rw [containerStale_some ((get?_imagesByID h hc).mpr ⟨img, himg, hid, rfl⟩), RunsOutdated,
      exists_image_iff h himg hid]
    cases usableTag c composeTag img with
    | none => simp
    | some tag =>
      simp only [Option.some.injEq, exists_eq_left']
      exact staleFromDigest_eq_outdated_iff (h.repoDigests img himg) (h.answers tag)

/-- A container's status is unknown exactly when something cannot be determined. -/
theorem containerStale_eq_unknown_iff (h : WellFormedListings env containers images)
    {c : Summary} (hc : c ∈ containers) (composeTag : String) :
    containerStale env c (imagesByID (listImagesInfo images)) composeTag = .unknown ↔
      Undetermined env images composeTag c := by
  by_cases hlisted : ∀ img ∈ images, img.id ≠ c.imageID
  · rw [containerStale_none ((get?_imagesByID_eq_none h hc).mpr hlisted)]
    exact ⟨fun _ ↦ .inl hlisted, fun _ ↦ rfl⟩
  · rw [Undetermined, or_iff_right hlisted]
    push Not at hlisted
    obtain ⟨img, himg, hid⟩ := hlisted
    rw [containerStale_some ((get?_imagesByID h hc).mpr ⟨img, himg, hid, rfl⟩),
      exists_image_iff h himg hid]
    cases usableTag c composeTag img with
    | none => simp
    | some tag =>
      simp only [Option.some.injEq, exists_eq_left', reduceCtorEq, false_or]
      exact staleFromDigest_eq_unknown_iff

/-! ## The result -/

section

variable {α : Type} (env : UpdateEnv) (s : Stacks) (t : FileTree α) (names : List String)
  (containers : List Summary) (images : List ImageSummary)

/-- A container of the stack has a property that depends on the image of its compose file. -/
def SomeContainer (P : String → Summary → Prop) (name : String) : Prop :=
  ∃ c ∈ containers, c.labels.get? projectLabel = some name ∧ P (composeTag env s t name c) c

open Classical in
/-- What a stack's entry should be. -/
noncomputable def stackVerdict (name : String) : Option StaleStatus :=
  if name ∈ names ∧ ∃ c ∈ containers, c.labels.get? projectLabel = some name then
    if SomeContainer env s t containers (RunsOutdated env images) name then some .outdated
    else if SomeContainer env s t containers (Undetermined env images) name then some .unknown
    else some .upToDate
  else none

end

section

variable {α : Type} {s : Stacks} {t : FileTree α} {names : List String}

private theorem mem_stackContainers {name : String} (hname : name ∈ names) {c : Summary} :
    c ∈ stackContainers names containers name ↔
      c ∈ containers ∧ c.labels.get? projectLabel = some name := by
  rw [stackContainers, List.mem_filter, decide_eq_true_eq, updateStack, Option.filter_eq_some_iff,
    List.contains_iff_mem, and_iff_left hname]

private theorem status_mem_iff {name : String} (hname : name ∈ names) {status : StaleStatus}
    {P : String → Summary → Prop}
    (hP : ∀ c ∈ containers, ∀ composeTag,
      containerStale env c (imagesByID (listImagesInfo images)) composeTag = status ↔
        P composeTag c) :
    status ∈ (stackContainers names containers name).map
        (stackStatus env s t (imagesByID (listImagesInfo images)) name) ↔
      SomeContainer env s t containers P name := by
  rw [List.mem_map]
  apply exists_congr
  intro c
  rw [mem_stackContainers hname, and_assoc]
  apply and_congr_right
  intro hc
  rw [stackStatus, hP c hc]

private theorem stackContainers_eq_nil {name : String} :
    stackContainers names containers name = [] ↔
      ¬ (name ∈ names ∧ ∃ c ∈ containers, c.labels.get? projectLabel = some name) := by
  by_cases hname : name ∈ names
  · rw [List.eq_nil_iff_forall_not_mem]
    simp only [mem_stackContainers hname, hname, true_and, not_exists, not_and]
  · rw [stackContainers, List.filter_eq_nil_iff]
    simp [updateStack, Option.filter_eq_some_iff, hname]

/-- The verdict of a stack is the one it should have. -/
theorem updateVerdict_foldl (h : WellFormedListings env containers images) (name : String) :
    updateVerdict (containers.foldl
        (updateRound env s t names (imagesByID (listImagesInfo images))) ⟨∅, ∅⟩).perStack name =
      stackVerdict env s t names containers images name := by
  rw [updateVerdict_eq, perStack_foldl, stackVerdict]
  by_cases hentry : name ∈ names ∧ ∃ c ∈ containers, c.labels.get? projectLabel = some name
  · have hne : stackContainers names containers name ≠ [] := fun hnil ↦
      stackContainers_eq_nil.mp hnil hentry
    rw [if_neg (by simpa using hne), if_pos hentry, aggregateStale_eq]
    have houtdated : .outdated ∈ (stackContainers names containers name).map
          (stackStatus env s t (imagesByID (listImagesInfo images)) name) ↔
        SomeContainer env s t containers (RunsOutdated env images) name :=
      status_mem_iff hentry.1 fun c hc tag ↦ containerStale_eq_outdated_iff h hc tag
    have hunknown : .unknown ∈ (stackContainers names containers name).map
          (stackStatus env s t (imagesByID (listImagesInfo images)) name) ↔
        SomeContainer env s t containers (Undetermined env images) name :=
      status_mem_iff hentry.1 fun c hc tag ↦ containerStale_eq_unknown_iff h hc tag
    by_cases hany : SomeContainer env s t containers (RunsOutdated env images) name
    · rw [if_pos (houtdated.mpr hany), if_pos hany]
    · rw [if_neg (houtdated.not.mpr hany), if_neg hany]
      by_cases hany' : SomeContainer env s t containers (Undetermined env images) name
      · rw [if_pos (hunknown.mpr hany'), if_pos hany']
      · rw [if_neg (hunknown.not.mpr hany'), if_neg hany']
  · rw [if_pos (List.map_eq_nil_iff.mpr (stackContainers_eq_nil.mpr hentry)), if_neg hentry]

/-- Well-formed listings stay so in another order. -/
theorem WellFormedListings.perm {containers' : List Summary} {images' : List ImageSummary}
    (h : WellFormedListings env containers images) (hc : containers'.Perm containers)
    (hi : images'.Perm images) : WellFormedListings env containers' images' := by
  have hids : (images'.map (·.id) ++ containers'.map (·.imageID)).Perm
      (images.map (·.id) ++ containers.map (·.imageID)) := (hi.map _).append (hc.map _)
  constructor
  · exact fun id hid ↦ h.imageIDs id (hids.mem_iff.mp hid)
  · exact (hi.map _).nodup_iff.mpr h.listedOnce
  · intro id hid id' hid'
    exact h.shortIDs id (hids.mem_iff.mp hid) id' (hids.mem_iff.mp hid')
  · exact fun img himg ↦ h.repoDigests img (hi.mem_iff.mp himg)
  · exact h.answers

/-- What a stack should say does not depend on the order of the listings. -/
theorem stackVerdict_perm {containers' : List Summary} {images' : List ImageSummary}
    (hc : containers'.Perm containers) (hi : images'.Perm images) (name : String) :
    stackVerdict env s t names containers' images' name =
      stackVerdict env s t names containers images name := by
  have hcontainers (P : Summary → Prop) : (∃ c ∈ containers', P c) ↔ ∃ c ∈ containers, P c := by
    simp only [hc.mem_iff]
  have houtdated : SomeContainer env s t containers' (RunsOutdated env images') name ↔
      SomeContainer env s t containers (RunsOutdated env images) name := by
    simp only [SomeContainer, RunsOutdated, hcontainers, hi.mem_iff]
  have hunknown : SomeContainer env s t containers' (Undetermined env images') name ↔
      SomeContainer env s t containers (Undetermined env images) name := by
    simp only [SomeContainer, Undetermined, hcontainers, hi.mem_iff]
  classical
  exact if_congr (and_congr_right fun _ ↦ hcontainers _)
    (if_congr houtdated rfl (if_congr hunknown rfl rfl)) rfl

/-- The updates of the stacks are the verdicts on their containers' images and tags, and no
order of the listings changes them. -/
theorem listStackUpdates_eq (h : WellFormedListings env containers images) :
    ∃ out, listStackUpdates env s t (.ok names) (.ok containers) (.ok images) = .ok out ∧
      (∀ name, out.get? name = stackVerdict env s t names containers images name) ∧
      ∀ containers' images', containers'.Perm containers → images'.Perm images →
        listStackUpdates env s t (.ok names) (.ok containers') (.ok images') = .ok out := by
  refine ⟨_, rfl, fun name ↦ ?_, fun containers' images' hc hi ↦ ?_⟩
  · rw [get?_updateVerdicts, updateVerdict_foldl h]
    by_cases hname : name ∈ names
    · rw [if_pos hname]
    · rw [if_neg hname, stackVerdict, if_neg fun hentry ↦ hname hentry.1]
  · apply congrArg Except.ok
    apply updateVerdicts_congr
    intro name
    rw [updateVerdict_foldl (h.perm hc hi), updateVerdict_foldl h, stackVerdict_perm hc hi]

end

/-! ## An outdated stack and an unknown one -/

/-- Sixty-four digits. -/
def demoHex (c : Char) : List Char := List.replicate 64 c

/-- An image id or a digest of these digits. -/
def demoSha256 (c : Char) : String := .ofList ("sha256:".toList ++ demoHex c)

/-- A running container of a stack. -/
def listedContainer (id stack image : String) (imageID : Char) : Summary where
  id := id
  names := []
  image := image
  imageID := demoSha256 imageID
  state := "running"
  status := ""
  labels := AList.insert projectLabel stack ∅

/-- An image with one tag and one digest. -/
def pulledImage (repo tag : String) (id digest : Char) (created : Int) : ImageSummary where
  id := demoSha256 id
  repoTags := [tag]
  repoDigests := [.ofList (repo.toList ++ '@' :: (demoSha256 digest).toList)]
  size := 0
  created := created

/-- A container of the stack `media`. -/
def demoWeb : Summary := listedContainer "c1" "media" "nginx:latest" 'a'

/-- The image that it runs. -/
def demoImage : ImageSummary := pulledImage "nginx" "nginx:latest" 'a' 'b' 3

/-- Containers of `media` and `blog`, and one of a stack without a directory. -/
def listedContainers : List Summary :=
  [listedContainer "c2" "blog" "caddy:2" '1', demoWeb, listedContainer "c3" "blog" "redis:7" '3',
    listedContainer "c4" "media" "postgres:16" '5', listedContainer "c5" "gone" "nginx:latest" 'a']

/-- Their images, but for that of `c4`. -/
def listedImages : List ImageSummary :=
  [demoImage, pulledImage "redis" "redis:7" '3' '4' 2, pulledImage "caddy" "caddy:2" '1' '2' 1]

/-- A registry that has a newer `nginx:latest`, the same `caddy:2` and no `redis:7`. -/
def demoEnv : UpdateEnv where
  remoteDigestCached tag :=
    if tag = "nginx:latest" then some (demoSha256 'c')
    else if tag = "caddy:2" then some (demoSha256 '2') else none
  readFile _ := none
  unmarshal _ := none

private theorem demoSha256_isSha256 {c : Char} (h : isHexDigit c = true) :
    IsSha256 (demoSha256 c) := by
  refine ⟨demoHex c, String.toList_ofList, List.length_replicate, ?_⟩
  rw [List.all_eq_true]
  intro d hd
  rwa [List.eq_of_mem_replicate hd]

private theorem pulledImage_isRepoDigest {repo tag : String} {id digest : Char} {created : Int}
    (hrepo : ¬ "sha256:".toList <:+: repo.toList) (h : isHexDigit digest = true) :
    ∀ rd ∈ (pulledImage repo tag id digest created).repoDigests, IsRepoDigest rd := by
  intro rd hrd
  obtain rfl := List.mem_singleton.mp hrd
  exact ⟨repo.toList, demoSha256 digest, String.toList_ofList, demoSha256_isSha256 h, hrepo⟩

private theorem demo_wellFormed : WellFormedListings demoEnv listedContainers listedImages where
  imageIDs := by
    have hids : listedImages.map (·.id) ++ listedContainers.map (·.imageID) =
        ['a', '3', '1', '1', 'a', '3', '5', 'a'].map demoSha256 := rfl
    rw [hids, List.forall_mem_map]
    intro c hc
    have hdigits : ['a', '3', '1', '1', 'a', '3', '5', 'a'].all isHexDigit = true := by decide
    exact demoSha256_isSha256 (List.all_eq_true.mp hdigits c hc)
  listedOnce := by decide +kernel
  shortIDs := by decide +kernel
  repoDigests img himg := by
    simp only [listedImages, List.mem_cons, List.not_mem_nil, or_false] at himg
    rcases himg with rfl | rfl | rfl
    · exact pulledImage_isRepoDigest (by decide) (by decide)
    · exact pulledImage_isRepoDigest (by decide) (by decide)
    · exact pulledImage_isRepoDigest (by decide) (by decide)
  answers tag digest h := by
    right
    dsimp only [demoEnv] at h
    split at h
    · obtain rfl := Option.some.inj h
      exact demoSha256_isSha256 (by decide)
    · split at h
      · obtain rfl := Option.some.inj h
        exact demoSha256_isSha256 (by decide)
      · contradiction

/-- Whatever the order of the listings, the stacks have the verdicts of their containers. -/
theorem listStackUpdates_demo :
    ∃ out, listStackUpdates demoEnv ⟨"/stacks", "", false⟩ (∅ : FileTree Unit)
        (.ok ["blog", "media", "wiki"]) (.ok listedContainers) (.ok listedImages) = .ok out ∧
      (∀ name, out.get? name = stackVerdict demoEnv ⟨"/stacks", "", false⟩ (∅ : FileTree Unit)
        ["blog", "media", "wiki"] listedContainers listedImages name) ∧
      ∀ containers' images', containers'.Perm listedContainers → images'.Perm listedImages →
        listStackUpdates demoEnv ⟨"/stacks", "", false⟩ (∅ : FileTree Unit)
          (.ok ["blog", "media", "wiki"]) (.ok containers') (.ok images') = .ok out :=
  listStackUpdates_eq demo_wellFormed

example : (listStackUpdates demoEnv ⟨"/stacks", "", false⟩ (∅ : FileTree Unit)
    (.ok ["blog", "media", "wiki"]) (.ok listedContainers) (.ok listedImages)).toOption.map
      (fun out ↦ ["blog", "media", "wiki", "gone"].map out.get?) =
    some [some .unknown, some .outdated, none, none] := by
  have hsorted : listImagesInfo listedImages = listedImages.map imageInfo :=
    List.mergeSort_of_pairwise (by decide +kernel)
  simp only [listStackUpdates, bind, Except.bind, hsorted]
  decide +kernel

end Dockstack.Docker
