import Dockstack.Base.Base64Codec
import Dockstack.Base.Json
import Dockstack.Base.KeyMap

/-!
# Registry credentials

`registryFromTag` and `RegistryAuth` of `internal/docker/client.go:117–153`: the registry that an
image reference names, and its user name and password in `config.json`. The content of the file is
an argument. Docker's own rule also takes a leading `localhost` for a registry, which this one
takes for a user of Docker Hub.
-/

namespace Dockstack.Docker

open Dockstack.Base

/-- The entry of Docker Hub in `config.json`. -/
def dockerHub : String := "https://index.docker.io/v1/"

/-- `registryFromTag`; `client.go:117–123`. -/
def registryFromTag (tag : String) : String :=
  match tag.toList.splitOn '/' with
  | host :: _ :: _ => if '.' ∈ host ∨ ':' ∈ host then .ofList host else dockerHub
  | _ => dockerHub

/-- The `auth` of an entry of `auths`; `client.go:132–134`. -/
def readAuthEntry : Json → Option String
  | .null => some ""
  | .object fields => Json.stringField "auth" fields
  | _ => none

/-- The field `auths` into the map that it has so far; `null` empties it. -/
def readAuths (auths : KeyMap String String) : Json → Option (KeyMap String String)
  | .null => some ∅
  | .object fields =>
    fields.foldlM (fun auths f ↦ (readAuthEntry f.2).map fun auth ↦ auths.insert f.1 auth) auths
  | _ => none

/-- `json.Unmarshal` into `cfg`; `client.go:131–138`. `none` is an error. -/
def unmarshalAuths (data : Bytes) : Option (KeyMap String String) :=
  (Json.unmarshal data).bind fun fields ↦
    fields.foldlM
      (fun auths f ↦
        if Json.foldName f.1 = Json.foldName "auths" then readAuths auths f.2 else some auths)
      ∅

/-- The colon between a user name and a password. -/
def colon : UInt8 := 58

/-- `strings.SplitN(s, ":", 2)`, if there are two parts. -/
def splitCredentials (s : Bytes) : Option (Bytes × Bytes) :=
  if colon ∈ s then some (s.takeWhile (· != colon), (s.dropWhile (· != colon)).tail) else none

/-- `RegistryAuth`; `client.go:125–153`. `config` is the content of `config.json`, `none` if it
cannot be read. -/
def registryAuth (config : Option Bytes) (tag : String) : Option (Bytes × Bytes × String) := do
  let data ← config
  let auths ← unmarshalAuths data
  let registry := registryFromTag tag
  let auth ← auths.get? registry
  guard (auth ≠ "")
  let decoded ← Base64Alphabet.std.decode true (utf8Encode auth.toList)
  let (user, password) ← splitCredentials decoded
  some (user, password, registry)

/-! ## Whose credentials -/

/-- Docker's rule for the registry of a reference, as its entry in `config.json`. -/
def dockerRegistry (tag : String) : String :=
  let host := tag.toList.takeWhile (· != '/')
  if '/' ∈ tag.toList ∧ ('.' ∈ host ∨ ':' ∈ host ∨ host = "localhost".toList) then .ofList host
  else dockerHub

/-- The entry of the registry decodes to this user name and password. -/
def Credentials (config : Option Bytes) (registry : String) (user password : Bytes) : Prop :=
  ∃ data auths auth, config = some data ∧ unmarshalAuths data = some auths ∧
    auths.get? registry = some auth ∧ colon ∉ user ∧
    Base64Alphabet.std.decode true (utf8Encode auth.toList) = some (user ++ colon :: password)

/-- What is returned comes from the entry of the registry that the reference names, and is returned
whenever that entry has it. -/
def OwnCredentials (config : Option Bytes) (tag : String) : Prop :=
  (∀ user password server, registryAuth config tag = some (user, password, server) →
    server = dockerRegistry tag ∧ Credentials config (dockerRegistry tag) user password) ∧
  ∀ user password, Credentials config (dockerRegistry tag) user password →
    registryAuth config tag = some (user, password, dockerRegistry tag)

/-- A text splits at its first colon. -/
theorem splitCredentials_eq_some {s user password : Bytes} :
    splitCredentials s = some (user, password) ↔ colon ∉ user ∧ s = user ++ colon :: password := by
  have hcut {user : Bytes} (h : colon ∉ user) (password : Bytes) :
      splitCredentials (user ++ colon :: password) = some (user, password) := by
    rw [splitCredentials, if_pos (by simp), takeWhile_append_cons h, dropWhile_append_cons h,
      List.tail_cons]
  constructor
  · intro h
    have hmem : colon ∈ s := by
      by_contra hno
      rw [splitCredentials, if_neg hno] at h
      contradiction
    obtain ⟨user', password', rfl, huser⟩ := List.eq_append_cons_of_mem hmem
    rw [hcut huser] at h
    obtain ⟨rfl, rfl⟩ := Prod.mk.inj (Option.some.inj h)
    exact ⟨huser, rfl⟩
  · rintro ⟨huser, rfl⟩
    exact hcut huser password

/-- The credentials that are returned are those of the registry that the code takes. -/
theorem registryAuth_eq_some {config : Option Bytes} {tag : String} {user password : Bytes}
    {server : String} : registryAuth config tag = some (user, password, server) ↔
      server = registryFromTag tag ∧ Credentials config (registryFromTag tag) user password := by
  have hempty : Base64Alphabet.std.decode true (utf8Encode "".toList) = some [] := rfl
  constructor
  · intro h
    simp only [registryAuth, Option.bind_eq_bind, Option.bind_eq_some_iff] at h
    obtain ⟨data, hdata, auths, hauths, auth, hauth, -, -, decoded, hdecoded, r, hr, heq⟩ := h
    obtain ⟨rfl, rfl, rfl⟩ : r.1 = user ∧ r.2 = password ∧ registryFromTag tag = server := by
      simpa using heq
    obtain ⟨huser, rfl⟩ := splitCredentials_eq_some.mp hr
    exact ⟨rfl, data, auths, auth, hdata, hauths, hauth, huser, hdecoded⟩
  · rintro ⟨rfl, data, auths, auth, hdata, hauths, hauth, huser, hdecoded⟩
    have hne : auth ≠ "" := by
      rintro rfl
      rw [hempty] at hdecoded
      simp at hdecoded
    simp only [registryAuth, Option.bind_eq_bind, hdata, hauths, hauth, hdecoded,
      Option.bind_some, guard, hne, ne_eq, not_false_eq_true, if_true,
      splitCredentials_eq_some.mpr ⟨huser, rfl⟩]
    rfl

/-- The two rules differ on a leading `localhost/` only. -/
theorem registryFromTag_eq (tag : String) :
    registryFromTag tag =
      if "localhost/".toList <+: tag.toList then dockerHub else dockerRegistry tag := by
  unfold registryFromTag dockerRegistry
  generalize tag.toList = cs
  by_cases hslash : '/' ∈ cs
  · obtain ⟨host, rest, rfl, hhost⟩ := List.eq_append_cons_of_mem hslash
    have hlocal : "localhost/".toList <+: host ++ '/' :: rest ↔ host = "localhost".toList := by
      constructor
      · rintro ⟨rest', heq⟩
        have hcut : "localhost".toList ++ '/' :: rest' = host ++ '/' :: rest := heq
        exact (append_cons_inj (by decide) hhost hcut).1.symm
      · rintro rfl
        exact ⟨rest, rfl⟩
    obtain ⟨part, parts, hparts⟩ := List.exists_cons_of_ne_nil (List.splitOn_ne_nil '/' rest)
    rw [List.splitOn_append_cons_self, List.splitOn_eq_singleton hhost, hparts]
    simp only [List.singleton_append, takeWhile_append_cons hhost, hlocal, hslash, true_and]
    by_cases hh : host = "localhost".toList
    · rw [if_pos hh, hh]
      rfl
    · simp only [hh, or_false, if_false]
  · have hlocal : ¬ "localhost/".toList <+: cs := fun h ↦
      hslash (h.subset (by decide))
    rw [List.splitOn_eq_singleton hslash, if_neg hlocal]
    simp only [hslash, false_and, if_false]

/-- A reference to `localhost` is taken for one to Docker Hub. -/
theorem dockerRegistry_of_localhost {tag : String} (h : "localhost/".toList <+: tag.toList) :
    dockerRegistry tag = "localhost" := by
  obtain ⟨rest, heq⟩ := h
  have heq : tag.toList = "localhost".toList ++ '/' :: rest := heq.symm
  unfold dockerRegistry
  rw [heq, takeWhile_append_cons (by decide)]
  exact if_pos ⟨by simp, .inr (.inr rfl)⟩

/-- The credentials are those of the registry, but for a reference that begins with `localhost/`
and a configuration that has an entry for Docker Hub or for `localhost`. -/
theorem ownCredentials_iff (config : Option Bytes) (tag : String) :
    OwnCredentials config tag ↔ ¬ "localhost/".toList <+: tag.toList ∨
      ∀ user password, ¬ Credentials config dockerHub user password ∧
        ¬ Credentials config "localhost" user password := by
  by_cases hlocal : "localhost/".toList <+: tag.toList
  · have hcode : registryFromTag tag = dockerHub := by rw [registryFromTag_eq, if_pos hlocal]
    have hdocker : dockerRegistry tag = "localhost" := dockerRegistry_of_localhost hlocal
    simp only [OwnCredentials, hdocker, registryAuth_eq_some, hcode, hlocal, not_true_eq_false,
      false_or]
    constructor
    · rintro ⟨hsound, hcomplete⟩ user password
      constructor
      · intro hhub
        have hserver := (hsound user password dockerHub ⟨rfl, hhub⟩).1
        exact absurd hserver (by decide)
      · intro howned
        have hserver := (hcomplete user password howned).1
        exact absurd hserver (by decide)
    · intro hnone
      constructor
      · intro user password server h
        exact absurd h.2 (hnone user password).1
      · intro user password howned
        exact absurd howned (hnone user password).2
  · have hcode : registryFromTag tag = dockerRegistry tag := by
      rw [registryFromTag_eq, if_neg hlocal]
    simp only [OwnCredentials, registryAuth_eq_some, hcode, true_and]
    constructor
    · intro _
      exact .inl hlocal
    · intro _
      constructor
      · intro user password server h
        exact h
      · intro user password h
        exact h

/-- A `config.json` with an entry for Docker Hub alone. -/
def hubConfig (auth : String) : Bytes :=
  Json.text "\x7b\"auths\":\x7b\"https://index.docker.io/v1/\":\x7b\"auth\":\"" ++
    Json.text auth ++ Json.text "\"\x7d\x7d\x7d"

/-- The password for Docker Hub goes out for an image of the registry `localhost`. -/
theorem not_ownCredentials_localhost :
    ¬ OwnCredentials (some (hubConfig "dTpw")) "localhost/app" := by
  have hsent : registryAuth (some (hubConfig "dTpw")) "localhost/app" =
      some (Json.text "u", Json.text "p", dockerHub) := by
    decide +kernel
  rintro ⟨hsound, -⟩
  have hserver := (hsound _ _ _ hsent).1
  exact absurd hserver (by decide)

end Dockstack.Docker
