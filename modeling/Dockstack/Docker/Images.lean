import Dockstack.Base.Bytes
import Dockstack.Base.Path
import Mathlib.Data.List.Sort

/-!
# Images and their digests

The listing of images and the comparison of an image with a digest of the registry:
`internal/docker/system.go:121–157` and `formatImageTag` of `containers.go`. An image is
known to the rest of the code by the first twelve digits of its id.
-/

namespace Dockstack.Docker

open Dockstack.Base

/-- What the code reads of `image.Summary`. -/
structure ImageSummary where
  id : String
  repoTags : List String
  repoDigests : List String
  size : Int
  created : Int
  deriving DecidableEq

/-- `ImageInfo`; `models.go:42–48`. -/
structure ImageInfo where
  id : String
  tags : List String
  repoDigests : List String
  size : Int
  created : Int
  deriving DecidableEq

/-- `StaleStatus`; `models.go:50–56`. -/
inductive StaleStatus where
  | outdated
  | upToDate
  | unknown
  deriving DecidableEq

/-- Go's `strings.Contains`. -/
def contains (s substr : String) : Bool := (indexOf substr.toList s.toList).isSome

/-- `formatImageTag`; `containers.go:96–104`. -/
def formatImageTag (tag : String) : String :=
  if hasPrefix tag "sha256:" then .ofList ((tag.toList.drop 7).take 12) else tag

/-- An entry of `ListImagesInfo`; `system.go:128–134`. -/
def imageInfo (img : ImageSummary) : ImageInfo where
  id := formatImageTag img.id
  tags := img.repoTags
  repoDigests := img.repoDigests
  size := img.size
  created := img.created

/-- `ListImagesInfo`, newest first; `system.go:121–138`. -/
def listImagesInfo (images : List ImageSummary) : List ImageInfo :=
  (images.map imageInfo).mergeSort (fun i j ↦ j.created ≤ i.created)

/-- `digestIn`; `system.go:140–147`. -/
def digestIn (repoDigests : List String) (digest : String) : Bool :=
  repoDigests.any (contains · digest)

/-- `staleFromDigest`, where `none` is an answer that is not `ok`; `system.go:149–157`. -/
def staleFromDigest (repoDigests : List String) (digest : Option String) : StaleStatus :=
  match digest with
  | none => .unknown
  | some digest =>
    if digest = "" || repoDigests.isEmpty then .unknown
    else if digestIn repoDigests digest then .upToDate
    else .outdated

/-! ## Ids and digests -/

/-- A lower-case hexadecimal digit. -/
def isHexDigit (c : Char) : Bool := ('0' ≤ c && c ≤ '9') || ('a' ≤ c && c ≤ 'f')

/-- `sha256:` and 64 hexadecimal digits: an image id, or a digest. -/
def IsSha256 (s : String) : Prop :=
  ∃ hex : List Char, s.toList = "sha256:".toList ++ hex ∧ hex.length = 64 ∧ hex.all isHexDigit

/-- A repository and a digest, `repository@digest`; no repository has `sha256:` in its name. -/
def IsRepoDigest (s : String) : Prop :=
  ∃ (repository : List Char) (digest : String), s.toList = repository ++ '@' :: digest.toList ∧
    IsSha256 digest ∧ ¬ "sha256:".toList <:+: repository

/-- The part after `@`. -/
def afterAt (s : String) : List Char := s.toList.rtakeWhile (· != '@')

/-- An image id is known by its first twelve digits. -/
theorem formatImageTag_of_isSha256 {s : String} (h : IsSha256 s) :
    formatImageTag s = .ofList ((s.toList.drop 7).take 12) := by
  obtain ⟨hex, hs, -⟩ := h
  rw [formatImageTag, if_pos]
  exact hasPrefix_iff.mpr ⟨hex, hs⟩

/-- A digest has no `@`. -/
theorem at_notMem_of_isSha256 {s : String} (h : IsSha256 s) : '@' ∉ s.toList := by
  obtain ⟨hex, hs, -, hhex⟩ := h
  rw [hs, List.mem_append, not_or]
  refine ⟨by decide, fun hat ↦ ?_⟩
  exact absurd (List.all_eq_true.mp hhex _ hat) (by decide)

/-- The part after `@` is the digest. -/
theorem afterAt_eq {s : String} {repository digest : List Char}
    (hs : s.toList = repository ++ '@' :: digest) (h : '@' ∉ digest) : afterAt s = digest := by
  have hat : '@' ∉ digest.reverse := fun hat ↦ h (List.mem_reverse.mp hat)
  rw [afterAt, hs, List.rtakeWhile, List.reverse_append, List.reverse_cons, List.append_assoc,
    List.singleton_append, takeWhile_append_cons hat, List.reverse_reverse]

/-- A digest is part of `repository@digest` only as the part after `@`. -/
theorem contains_iff_afterAt {s digest : String} (hs : IsRepoDigest s) (hd : IsSha256 digest) :
    contains s digest = true ↔ afterAt s = digest.toList := by
  obtain ⟨repository, digest', hs, hd', hrepository⟩ := hs
  have hat := at_notMem_of_isSha256 hd
  rw [contains, isSome_indexOf, hs, infix_append_cons_iff hat,
    afterAt_eq hs (at_notMem_of_isSha256 hd')]
  obtain ⟨hex, hdigest, hlen, -⟩ := hd
  obtain ⟨hex', hdigest', hlen', -⟩ := hd'
  have hlength : digest.toList.length = digest'.toList.length := by
    rw [hdigest, hdigest', List.length_append, List.length_append, hlen, hlen']
  constructor
  · rintro (hin | hin)
    · exact absurd (List.IsInfix.trans (hdigest ▸ (List.prefix_append _ hex).isInfix) hin)
        hrepository
    · exact (hin.eq_of_length hlength).symm
  · intro heq
    exact .inr (heq ▸ List.infix_rfl)

/-- An image is up to date when one of its digests is the registry's. -/
theorem digestIn_iff {repoDigests : List String} {digest : String}
    (h : ∀ rd ∈ repoDigests, IsRepoDigest rd) (hd : IsSha256 digest) :
    digestIn repoDigests digest = true ↔ ∃ rd ∈ repoDigests, afterAt rd = digest.toList := by
  rw [digestIn, List.any_eq_true]
  exact exists_congr fun rd ↦ and_congr_right fun hrd ↦ contains_iff_afterAt (h rd hrd) hd

end Dockstack.Docker
