import Dockstack.Base.JsonEncode
import Dockstack.Docker.RegistryAuth

/-!
# The registry credentials at the daemon

`RemoteDigest` of `internal/docker/client.go:54–65` asks the daemon for an image and hands on the
credentials of its registry in the header `X-Registry-Auth`, a JSON object in base64. The daemon
takes the header for base64 in the alphabet for URLs, the code writes the standard one; they agree
on objects whose bytes need none of the letters in which the two differ.
-/

namespace Dockstack.Docker

open Dockstack.Base

/-- The map that is sent, by its sorted keys; `client.go:55–58`. -/
def authFields : Option (Bytes × Bytes × String) → List (Bytes × Bytes)
  | some (user, password, server) =>
    [(Json.text "password", password), (Json.text "serveraddress", utf8Encode server.toList),
      (Json.text "username", user)]
  | none => []

/-- The header `X-Registry-Auth` of `RemoteDigest`; `client.go:55–65`. -/
def registryAuthHeader (config : Option Bytes) (tag : String) : Bytes :=
  Base64Alphabet.std.encode true (Json.marshalMap (authFields (registryAuth config tag)))

/-- What the daemon reads in the header. -/
def daemonAuth (header : Bytes) : Option Json :=
  (Base64Alphabet.url.decode true header).bind Json.parseText

/-! ## What arrives -/

/-- The object with this user name, this password and this server address, and nothing else. -/
def IsAuthConfig (user password : Bytes) (server : String) (j : Json) : Prop :=
  ∃ fields userText passwordText, j = .object fields ∧
    fields.Perm [("username", .string userText), ("password", .string passwordText),
      ("serveraddress", .string server)] ∧
    utf8Encode userText.toList = user ∧ utf8Encode passwordText.toList = password

/-- The entry of the registry is base64 of this user name and password. -/
def HoldsCredentials (config : Option Bytes) (registry : String) (user password : Bytes) : Prop :=
  ∃ data auths auth, config = some data ∧ unmarshalAuths data = some auths ∧
    auths.get? registry = some auth ∧
    utf8Encode auth.toList = Base64Alphabet.std.encode true (user ++ colon :: password)

/-- None of the three values, written as JSON strings at their places in the object, has a byte that
needs a letter in which the two alphabets differ. -/
def SameLetters (user password : Bytes) (server : String) : Prop :=
  let p := Json.marshalString password
  let s := Json.marshalString (utf8Encode server.toList)
  let u := Json.marshalString user
  AllCommon 12 (Json.ascii ':') p ∧ AllCommon (29 + p.length) (Json.ascii ':') s ∧
    AllCommon (41 + p.length + s.length) (Json.ascii ':') u

instance (user password : Bytes) (server : String) : Decidable (SameLetters user password server) :=
  inferInstanceAs (Decidable (_ ∧ _ ∧ _))

/-- An entry in base64 is decoded. -/
theorem HoldsCredentials.credentials {config : Option Bytes} {registry : String}
    {user password : Bytes} (h : HoldsCredentials config registry user password)
    (huser : colon ∉ user) : Credentials config registry user password := by
  obtain ⟨data, auths, auth, hdata, hauths, hauth, hencoded⟩ := h
  refine ⟨data, auths, auth, hdata, hauths, hauth, huser, ?_⟩
  rw [hencoded, Base64Alphabet.decode_encode]

private theorem allCommon_text {f : String}
    (hf : (Json.text f).all fun b ↦ b < 128 && b.toNat % 64 < 62) (n : Nat) (before : UInt8) :
    AllCommon n before (Json.text f) := by
  refine allCommon_of_ascii (fun b hb ↦ ?_) n before
  simpa using List.all_eq_true.mp hf b hb

private theorem allCommon_value {f : String}
    (hf : (Json.text f).all fun b ↦ b < 128 && b.toNat % 64 < 62) {n n' : Nat}
    (hn : n + (Json.text f).length = n') (before : UInt8) (s t : Bytes) :
    AllCommon n before (Json.text f ++ (Json.marshalString s ++ t)) ↔
      AllCommon n' (Json.ascii ':') (Json.marshalString s) ∧
        AllCommon (n' + (Json.marshalString s).length)
          ((Json.marshalString s).getLastD (Json.ascii ':')) t := by
  have hquote (a : UInt8) : AllCommon n' a (Json.marshalString s ++ t) ↔
      AllCommon n' (Json.ascii ':') (Json.marshalString s ++ t) :=
    allCommon_cons_of_ascii (by decide) n' a (Json.ascii ':') _
  rw [allCommon_append, hn, hquote, allCommon_append]
  exact and_iff_right (allCommon_text hf n before)

/-- The object is written with its values at these places, between texts of common letters. -/
theorem allCommon_marshalMap_iff (user password : Bytes) (server : String) :
    AllCommon 0 0 (Json.marshalMap (authFields (some (user, password, server)))) ↔
      SameLetters user password server := by
  have hpassword : Json.marshalString (Json.text "password") = Json.text "\"password\"" := by
    decide
  have hserver : Json.marshalString (Json.text "serveraddress") =
      Json.text "\"serveraddress\"" := by
    decide
  have huser : Json.marshalString (Json.text "username") = Json.text "\"username\"" := by decide
  have hcut : Json.marshalMap (authFields (some (user, password, server))) =
      Json.text "\x7b\"password\":" ++ (Json.marshalString password ++
        (Json.text ",\"serveraddress\":" ++ (Json.marshalString (utf8Encode server.toList) ++
          (Json.text ",\"username\":" ++ (Json.marshalString user ++ Json.text "\x7d"))))) := by
    simp only [authFields, Json.marshalMap, Json.marshalRest, Json.marshalMember, hpassword,
      hserver, huser, List.flatMap_cons, List.flatMap_nil, List.append_assoc, List.append_nil,
      List.cons_append]
    rfl
  have hend (n : Nat) (before : UInt8) : AllCommon n before (Json.text "\x7d") :=
    allCommon_text rfl n before
  have hfirst : 0 + (Json.text "\x7b\"password\":").length = 12 := rfl
  have hplace (k : Nat) : 12 + k + 17 = 29 + k := by omega
  have hplace' (k l : Nat) : 29 + k + l + 12 = 41 + k + l := by omega
  rw [hcut, allCommon_value rfl hfirst, allCommon_value rfl (hplace _),
    allCommon_value rfl (hplace' _ _), iff_true_intro (hend _ _), and_true, SameLetters]

/-- The object that is written is that of the credentials exactly when they are text. -/
theorem isAuthConfig_iff (user password : Bytes) (server : String) :
    IsAuthConfig user password server
      (.object ((authFields (some (user, password, server))).map Json.memberValue)) ↔
        Json.ValidUtf8 user ∧ Json.ValidUtf8 password := by
  have hfields : (authFields (some (user, password, server))).map Json.memberValue =
      [("password", .string (.ofList (Json.runes password))), ("serveraddress", .string server),
        ("username", .string (.ofList (Json.runes user)))] := by
    have hkey : Json.runes (Json.text "password") = "password".toList := by decide
    have hkey' : Json.runes (Json.text "serveraddress") = "serveraddress".toList := by decide
    have hkey'' : Json.runes (Json.text "username") = "username".toList := by decide
    simp only [authFields, List.map_cons, List.map_nil, Json.memberValue, hkey, hkey', hkey'',
      Json.runes_utf8Encode, String.ofList_toList]
  rw [hfields, ← Json.utf8Encode_runes_iff, ← Json.utf8Encode_runes_iff]
  constructor
  · rintro ⟨-, userText, passwordText, -, -, rfl, rfl⟩
    simp only [Json.runes_utf8Encode, and_self]
  · rintro ⟨huser, hpassword⟩
    refine ⟨_, .ofList (Json.runes user), .ofList (Json.runes password), rfl, ?_, ?_, ?_⟩
    · exact @List.perm_append_comm _ [_, _] [_]
    · rwa [String.toList_ofList]
    · rwa [String.toList_ofList]

/-- The daemon reads the credentials exactly when they are text and need no other letters. -/
theorem daemonAuth_registryAuthHeader_iff {config : Option Bytes} {tag : String}
    {user password : Bytes} (huser : colon ∉ user)
    (h : HoldsCredentials config (registryFromTag tag) user password) :
    (∃ j, daemonAuth (registryAuthHeader config tag) = some j ∧
      IsAuthConfig user password (registryFromTag tag) j) ↔
        Json.ValidUtf8 user ∧ Json.ValidUtf8 password ∧
          SameLetters user password (registryFromTag tag) := by
  have hauth : registryAuth config tag = some (user, password, registryFromTag tag) :=
    registryAuth_eq_some.mpr ⟨rfl, h.credentials huser⟩
  have hletters (t : Bytes) : Base64Alphabet.url.decode true (registryAuthHeader config tag) =
      some t ↔ t = Json.marshalMap (authFields (some (user, password, registryFromTag tag))) ∧
        SameLetters user password (registryFromTag tag) := by
    rw [registryAuthHeader, hauth, Base64Alphabet.decode_encode_eq_some rfl rfl,
      forall_sextets_lt_iff _ 0 rfl 0, allCommon_marshalMap_iff]
  rw [← and_assoc, ← isAuthConfig_iff user password (registryFromTag tag)]
  constructor
  · rintro ⟨j, hj, hconfig⟩
    obtain ⟨t, ht, hparse⟩ := Option.bind_eq_some_iff.mp hj
    obtain ⟨rfl, hsame⟩ := (hletters t).mp ht
    rw [Json.parseText_marshalMap] at hparse
    obtain rfl := Option.some.inj hparse
    exact ⟨hconfig, hsame⟩
  · rintro ⟨hconfig, hsame⟩
    refine ⟨_, ?_, hconfig⟩
    rw [daemonAuth, (hletters _).mpr ⟨rfl, hsame⟩, Option.bind_some, Json.parseText_marshalMap]

private theorem holdsCredentials_hubConfig {auth : String} {user password : Bytes}
    (hentry : (unmarshalAuths (hubConfig auth)).bind (·.get? dockerHub) = some auth)
    (hencoded : utf8Encode auth.toList =
      Base64Alphabet.std.encode true (user ++ colon :: password)) :
    HoldsCredentials (some (hubConfig auth)) dockerHub user password := by
  obtain ⟨auths, hauths, hauth⟩ := Option.bind_eq_some_iff.mp hentry
  exact ⟨_, auths, auth, rfl, hauths, hauth, hencoded⟩

/-- The password `p` arrives. -/
theorem daemonAuth_registryAuthHeader_demo :
    ∃ j, daemonAuth (registryAuthHeader (some (hubConfig "dTpw")) "nginx") = some j ∧
      IsAuthConfig (Json.text "u") (Json.text "p") (registryFromTag "nginx") j := by
  have hholds : HoldsCredentials (some (hubConfig "dTpw")) (registryFromTag "nginx")
      (Json.text "u") (Json.text "p") :=
    holdsCredentials_hubConfig (by decide +kernel) (by decide)
  exact (daemonAuth_registryAuthHeader_iff (by decide) hholds).mpr
    ⟨⟨['u'], rfl⟩, ⟨['p'], rfl⟩, by decide +kernel⟩

/-- The password `a?` does not: the daemon cannot decode the header. -/
theorem daemonAuth_question :
    HoldsCredentials (some (hubConfig "dTphPw==")) (registryFromTag "nginx") (Json.text "u")
        (Json.text "a?") ∧
      daemonAuth (registryAuthHeader (some (hubConfig "dTphPw==")) "nginx") = none :=
  ⟨holdsCredentials_hubConfig (by decide +kernel) (by decide), by decide +kernel⟩

end Dockstack.Docker
