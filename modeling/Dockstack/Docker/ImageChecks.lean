import Dockstack.Docker.StackVerdicts

/-!
# The Images page and the badge of a stack

`CheckImagesStale` of `internal/docker/system.go:159–184`, which looks an image up by its
first tag, beside `containerStale`, which looks it up by the tag that the container was
started from. The answers of `RemoteDigestCached` do not change while the two run.
-/

namespace Dockstack.Docker

open Dockstack.Base

section

variable (env : UpdateEnv)

/-- The status that is reported for an image; `system.go:168–176`. -/
def imageStale (img : ImageInfo) : StaleStatus :=
  match img.tags with
  | [] => .unknown
  | tag :: _ =>
    if img.repoDigests.isEmpty then .unknown
    else staleFromDigest img.repoDigests (env.remoteDigestCached tag)

/-- `results[img.ID] = status`; `system.go:169` and `178`. -/
def putImageStatus (results : KeyMap String StaleStatus) (img : ImageInfo) :
    KeyMap String StaleStatus :=
  results.insert img.id (imageStale env img)

/-- `CheckImagesStale`, given the listed images in the order in which the goroutines and the loop
write their statuses; `system.go:159–184`. An error of the listing leaves the result empty. -/
def checkImagesStale (written : Except String (List ImageInfo)) : KeyMap String StaleStatus :=
  match written with
  | .error _ => ∅
  | .ok images => images.foldl (putImageStatus env) ∅

end

variable {env : UpdateEnv} {images : List ImageSummary}

/-- Whatever the order of the writes, each image has its own status. -/
theorem get?_checkImagesStale {written : List ImageInfo} (hids : (written.map (·.id)).Nodup)
    {img : ImageInfo} (himg : img ∈ written) :
    (checkImagesStale env (.ok written)).get? img.id = some (imageStale env img) :=
  (KeyMap.get?_foldl_insert_eq_some hids).mpr ⟨img, himg, rfl, rfl⟩

/-! ## Two tags of one image -/

/-- The digest that is known for a tag; an empty one counts as none. -/
def knownDigest (env : UpdateEnv) (tag : String) : Option String :=
  (env.remoteDigestCached tag).filter (· != "")

/-- Both digests are known or neither is, and both are among an image's digests or neither is. -/
def Alike (repoDigests : List String) (known known' : Option String) : Prop :=
  known.isSome = known'.isSome ∧
    ∀ digest ∈ known, ∀ digest' ∈ known',
      digestIn repoDigests digest = digestIn repoDigests digest'

/-- The answers for the tag that a container is looked up by and for the first tag of its image
are alike. A container without a usable tag has no digest. -/
def SameAnswers (env : UpdateEnv) (c : Summary) (composeTag : String) (img : ImageSummary) : Prop :=
  Alike img.repoDigests ((usableTag c composeTag img).bind (knownDigest env))
    (img.repoTags.head?.bind (knownDigest env))

/-- The status of an image with digests, by the digest that is known for its tag. -/
private def knownStatus (repoDigests : List String) : Option String → StaleStatus
  | none => .unknown
  | some digest => if digestIn repoDigests digest then .upToDate else .outdated

private theorem staleFromDigest_eq_knownStatus {repoDigests : List String} (h : repoDigests ≠ [])
    (tag : String) :
    staleFromDigest repoDigests (env.remoteDigestCached tag) =
      knownStatus repoDigests (knownDigest env tag) := by
  rw [knownDigest]
  cases env.remoteDigestCached tag with
  | none => rfl
  | some digest =>
    by_cases hempty : digest = ""
    · simp [staleFromDigest, knownStatus, hempty, Option.filter]
    · simp [staleFromDigest, knownStatus, hempty, h, Option.filter]

private theorem knownStatus_eq_iff (repoDigests : List String) (known known' : Option String) :
    knownStatus repoDigests known = knownStatus repoDigests known' ↔
      Alike repoDigests known known' := by
  cases known with
  | none =>
    cases known' with
    | none => simp [Alike]
    | some digest' => cases h : digestIn repoDigests digest' <;> simp [knownStatus, Alike, h]
  | some digest =>
    cases known' with
    | none => cases h : digestIn repoDigests digest <;> simp [knownStatus, Alike, h]
    | some digest' =>
      cases h : digestIn repoDigests digest <;> cases h' : digestIn repoDigests digest' <;>
        simp [knownStatus, Alike, h, h']

private theorem imageStale_eq {img : ImageSummary} (htags : img.repoTags ≠ [])
    (hdigests : img.repoDigests ≠ []) :
    imageStale env (imageInfo img) =
      knownStatus img.repoDigests (img.repoTags.head?.bind (knownDigest env)) := by
  rw [imageStale, imageInfo]
  cases h : img.repoTags with
  | nil => exact absurd h htags
  | cons tag tags =>
    rw [List.isEmpty_eq_false_iff.mpr hdigests]
    exact staleFromDigest_eq_knownStatus hdigests tag

private theorem containerStale_eq {c : Summary} {composeTag : String} {img : ImageSummary}
    {byID : KeyMap String ImageInfo} (hdigests : img.repoDigests ≠ [])
    (h : byID.get? (formatImageTag c.imageID) = some (imageInfo img)) :
    containerStale env c byID composeTag =
      knownStatus img.repoDigests ((usableTag c composeTag img).bind (knownDigest env)) := by
  rw [containerStale, h]
  dsimp only
  rw [containerImageTag_eq]
  cases htag : usableTag c composeTag img with
  | none => rfl
  | some tag =>
    rw [Option.getD_some, if_neg (ne_empty_of_usableTag htag)]
    exact staleFromDigest_eq_knownStatus hdigests tag

/-- For a container of a listed image with a tag and a digest, the badge says what the Images page
says if and only if the answers for the two tags are alike. -/
theorem sameStatus_iff (hids : (images.map fun img ↦ formatImageTag img.id).Nodup)
    {written : List ImageInfo} (hwritten : written.Perm (listImagesInfo images)) (c : Summary)
    (composeTag : String) {img : ImageSummary} (himg : img ∈ images) (hid : img.id = c.imageID)
    (htags : img.repoTags ≠ []) (hdigests : img.repoDigests ≠ []) :
    (checkImagesStale env (.ok written)).get? (formatImageTag c.imageID) =
        some (containerStale env c (imagesByID (listImagesInfo images)) composeTag) ↔
      SameAnswers env c composeTag img := by
  have hpage : (checkImagesStale env (.ok written)).get? (formatImageTag c.imageID) =
      some (imageStale env (imageInfo img)) := by
    have hnodup : (written.map (·.id)).Nodup :=
      (hwritten.map _).nodup_iff.mpr (nodup_listImagesInfo hids)
    have hmem : imageInfo img ∈ written := by
      apply hwritten.mem_iff.mpr
      exact (listImagesInfo_perm images).mem_iff.mpr (List.mem_map_of_mem himg)
    rw [← hid]
    exact get?_checkImagesStale hnodup hmem
  have hfound : (imagesByID (listImagesInfo images)).get? (formatImageTag c.imageID) =
      some (imageInfo img) :=
    (get?_imagesByID_of_nodup hids).mpr ⟨img, himg, congrArg formatImageTag hid, rfl⟩
  rw [hpage, imageStale_eq htags hdigests, containerStale_eq hdigests hfound, Option.some_inj,
    eq_comm]
  exact knownStatus_eq_iff ..

/-- An image with two tags, and a container that was started from the second. -/
def twoTagsImage : ImageSummary :=
  { demoImage with repoTags := ["nginx:latest", "nginx:1.25"] }

/-- The container. -/
def pinnedWeb : Summary := { demoWeb with image := "nginx:1.25" }

/-- A registry in which `latest` has moved on to one image and `1.25` to another. -/
def rebuiltEnv : UpdateEnv :=
  { demoEnv with
    remoteDigestCached := fun tag ↦
      some (demoSha256 (if tag = "nginx:latest" then 'c' else 'd')) }

/-- The images of the page. -/
def pageImages : List ImageSummary :=
  [pulledImage "redis" "redis:7" '3' '4' 2, twoTagsImage, pulledImage "caddy" "caddy:2" '1' '2' 1]

/-- The container's own tag says of its image what the first one says. -/
theorem sameStatus_iff_demo :
    (checkImagesStale rebuiltEnv (.ok (listImagesInfo pageImages).reverse)).get?
        (formatImageTag pinnedWeb.imageID) =
      some (containerStale rebuiltEnv pinnedWeb (imagesByID (listImagesInfo pageImages)) "") := by
  have himg : twoTagsImage ∈ pageImages := by simp [pageImages]
  apply (sameStatus_iff (by decide +kernel) (List.reverse_perm _) pinnedWeb "" himg rfl
    (List.cons_ne_nil _ _) (List.cons_ne_nil _ _)).mpr
  have htag : usableTag pinnedWeb "" twoTagsImage = some "nginx:1.25" := by decide +kernel
  have hanswer : knownDigest rebuiltEnv "nginx:1.25" = some (demoSha256 'd') := by decide +kernel
  have hfirst : twoTagsImage.repoTags.head?.bind (knownDigest rebuiltEnv) =
      some (demoSha256 'c') := by decide +kernel
  rw [SameAnswers, htag, Option.bind_some, hanswer, hfirst]
  refine ⟨rfl, ?_⟩
  rintro _ ⟨⟩ _ ⟨⟩
  decide +kernel

/-- A registry in which `latest` has moved on and `1.25` has not. -/
def movedEnv : UpdateEnv :=
  { demoEnv with
    remoteDigestCached := fun tag ↦
      some (demoSha256 (if tag = "nginx:latest" then 'c' else 'b')) }

/-- The Images page says outdated and the badge up to date. -/
theorem movedEnv_not_same :
    (checkImagesStale movedEnv (.ok (listImagesInfo [twoTagsImage]))).get?
        (formatImageTag pinnedWeb.imageID) = some .outdated ∧
      containerStale movedEnv pinnedWeb (imagesByID (listImagesInfo [twoTagsImage])) "" =
        .upToDate := by
  decide +kernel

end Dockstack.Docker
