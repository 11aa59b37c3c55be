import Dockstack.Auth.Session

/-!
# Passkeys

`internal/auth/passkeys.go` with `internal/db/queries/passkeys.sql`, `webauthn_challenges.sql`
and the schema in `internal/db/migrations/0001_init.sql:49–69`. The WebAuthn library and the JSON
encoding of its values are the functions of a `WebAuthn`. New identifiers, clock readings and the
queries that the database fails are arguments. Credential ids are byte strings, as in Go.
-/

namespace Dockstack.Auth

open Dockstack.Base

/-- A row of `passkeys`; `0001_init.sql:49–59`. -/
structure PasskeyRow where
  id : String
  userID : String
  name : String
  credentialID : Bytes
  publicKey : Bytes
  counter : Int
  aaguid : Bytes
  transports : String
  createdAt : Int
  deriving DecidableEq

/-- A row of `webauthn_challenges`; `0001_init.sql:62–69`. -/
structure ChallengeRow where
  id : String
  challenge : Bytes
  userID : Option String
  kind : String
  expiresAt : Int
  createdAt : Int
  deriving DecidableEq

/-- `passkeys` has unique ids and credential ids. -/
def PasskeyRow.clash (a b : PasskeyRow) : Bool :=
  a.id == b.id || a.credentialID == b.credentialID

/-- `webauthn_challenges` has unique ids. -/
def ChallengeRow.clash (a b : ChallengeRow) : Bool := a.id == b.id

/-- Passkeys clash when one of the unique columns agrees. -/
theorem PasskeyRow.clash_iff {a b : PasskeyRow} :
    a.clash b = true ↔ a.id = b.id ∨ a.credentialID = b.credentialID := by
  simp [clash]

/-- The tables of the passkey calls. -/
structure PasskeyDB where
  users : Table UserRow UserRow.clash
  passkeys : Table PasskeyRow PasskeyRow.clash
  challenges : Table ChallengeRow ChallengeRow.clash

/-- What the store reads of a `webauthn.Credential`; `material` is what only the library reads. -/
structure Credential where
  id : Bytes
  signCount : UInt32
  aaguid : Bytes
  transport : List String
  material : Bytes
  deriving DecidableEq

/-- `passkeyUser`; `passkeys.go:23–27`. -/
structure PasskeyUser where
  id : String
  name : String
  creds : List Credential
  deriving DecidableEq

/-- The WebAuthn library, over its session data `D`, parsed creation responses `C` and parsed
assertions `A`, and `encoding/json` on its values. `none` is an error. -/
structure WebAuthn (D C A : Type) where
  marshalSession : D → Option Bytes
  unmarshalSession : Bytes → Option D
  marshalCredential : Credential → Option Bytes
  unmarshalCredential : Bytes → Option Credential
  marshalTransport : List String → String
  parseCreation : Bytes → Option C
  createCredential : PasskeyUser → D → C → Option Credential
  parseAssertion : Bytes → Option A
  rawID : A → Bytes
  userHandle : A → String
  signCount : A → UInt32
  validatePasskeyLogin :
    (Bytes → String → Option PasskeyUser) → D → A → Option (PasskeyUser × Credential)

/-- The queries of the passkey calls. -/
inductive PasskeyQuery where
  | getUserByID
  | listPasskeyPublicKeys
  | insertPasskey
  | updatePasskeyCounter
  | insertChallenge
  | getChallenge
  | deleteChallenge
  deriving DecidableEq

/-- The queries that the database fails. -/
abbrev PasskeyFailures := PasskeyQuery → Bool

/-- Errors of the passkey calls, by where they arise. -/
inductive PasskeyError where
  | invalidOrExpiredChallenge
  | invalidChallenge
  | user
  | response
  | validation
  | marshal
  | database
  deriving DecidableEq

/-- `Passkey`; `passkeys.go:15–21`. -/
structure Passkey where
  id : String
  userID : String
  name : String
  credentialID : Bytes
  createdAt : Int
  deriving DecidableEq

variable {D C A : Type}

/-- `userCredentials`; `passkeys.go:35–49`, `passkeys.sql:5–6`. -/
def userCredentials (w : WebAuthn D C A) (db : PasskeyDB) (userID : String) : List Credential :=
  (db.passkeys.rows.filter (fun r ↦ r.userID == userID)).filterMap
    (fun r ↦ w.unmarshalCredential r.publicKey)

/-- `userFor`; `passkeys.go:51–61`. -/
def userFor (w : WebAuthn D C A) (db : PasskeyDB) (fails : PasskeyFailures) (userID : String) :
    Option PasskeyUser :=
  if fails .getUserByID then none
  else
    match db.users.rows.find? (fun u ↦ u.id == userID) with
    | none => none
    | some row =>
      if fails .listPasskeyPublicKeys then none
      else some ⟨userID, row.name, userCredentials w db userID⟩

/-! ## Challenges -/

/-- `saveChallenge`; `passkeys.go:201–221`, `webauthn_challenges.sql:1–3`. An insertion fails on a
taken id and on an unknown user. -/
def saveChallenge (w : WebAuthn D C A) (db : PasskeyDB) (fails : PasskeyFailures)
    (userID kind : String) (session : D) (id : String) (now now' : Int) : Option PasskeyDB :=
  match w.marshalSession session with
  | none => none
  | some raw =>
    let uid := if userID ≠ "" then some userID else none
    let row : ChallengeRow :=
      { id := id, challenge := raw, userID := uid, kind := kind,
        expiresAt := unixMilli (now' + 5 * minute), createdAt := unixMilli now }
    if fails .insertChallenge || uid.any (fun u ↦ db.users.rows.all (·.id != u)) then none
    else (db.challenges.insert row).map fun challenges ↦ { db with challenges := challenges }

/-- `loadChallenge`; `passkeys.go:223–240`, `webauthn_challenges.sql:5–7`. -/
def loadChallenge (w : WebAuthn D C A) (db : PasskeyDB) (fails : PasskeyFailures)
    (id kind userID : String) (now : Int) : Except PasskeyError D :=
  if fails .getChallenge then .error .invalidOrExpiredChallenge
  else
    match db.challenges.rows.find?
      (fun r ↦ r.id == id && r.kind == kind && unixMilli now < r.expiresAt) with
    | none => .error .invalidOrExpiredChallenge
    | some row =>
      if userID ≠ "" ∧ row.userID ≠ some userID then .error .invalidChallenge
      else
        match w.unmarshalSession row.challenge with
        | none => .error .invalidChallenge
        | some session => .ok session

/-- `deleteChallenge`; `passkeys.go:242–244`, `webauthn_challenges.sql:9–10`. -/
def deleteChallenge (db : PasskeyDB) (fails : PasskeyFailures) (id : String) : PasskeyDB :=
  if fails .deleteChallenge then db
  else { db with challenges := db.challenges.delete (fun r ↦ r.id == id) }

/-- `DeleteExpiredChallenges`; `passkeys.go:246–248`, `webauthn_challenges.sql:12–13`. -/
def deleteExpiredChallenges (db : PasskeyDB) (now : Int) : PasskeyDB :=
  { db with challenges := db.challenges.delete (fun r ↦ r.expiresAt < unixMilli now) }

/-! ## Registration -/

/-- `BeginRegistration`; `passkeys.go:63–84`. `session` is the library's session data. -/
def beginRegistration (w : WebAuthn D C A) (db : PasskeyDB) (fails : PasskeyFailures)
    (userID : String) (session : Option D) (id : String) (now now' : Int) : Option PasskeyDB :=
  match userFor w db fails userID, session with
  | some _, some session => saveChallenge w db fails userID "registration" session id now now'
  | _, _ => none

/-- The row that `FinishRegistration` inserts, once the response is validated;
`passkeys.go:93–127`. -/
def registrationRow (w : WebAuthn D C A) (db : PasskeyDB) (fails : PasskeyFailures)
    (userID : String) (response : Bytes) (session : D) (id : String) (now : Int) :
    Except PasskeyError PasskeyRow :=
  match userFor w db fails userID with
  | none => .error .user
  | some user =>
    match w.parseCreation response with
    | none => .error .response
    | some parsed =>
      match w.createCredential user session parsed with
      | none => .error .validation
      | some cred =>
        match w.marshalCredential cred with
        | none => .error .marshal
        | some raw =>
          .ok { id := id, userID := userID, name := "Passkey", credentialID := cred.id,
                publicKey := raw, counter := cred.signCount.toNat, aaguid := cred.aaguid,
                transports := w.marshalTransport cred.transport, createdAt := unixMilli now }

/-- `InsertPasskey`; `passkeys.sql:1–3`. It fails on a taken id or credential id and on an unknown
user. -/
def insertPasskey (db : PasskeyDB) (fails : PasskeyFailures) (row : PasskeyRow) :
    Option PasskeyDB :=
  if fails .insertPasskey || db.users.rows.all (·.id != row.userID) then none
  else (db.passkeys.insert row).map fun passkeys ↦ { db with passkeys := passkeys }

/-- The passkey that is returned for a row; `passkeys.go:109–115`. -/
def passkeyOfRow (row : PasskeyRow) : Passkey where
  id := row.id
  userID := row.userID
  name := row.name
  credentialID := row.credentialID
  createdAt := row.createdAt

/-- `FinishRegistration`; `passkeys.go:86–131`. The challenge is deleted on every return after its
load. -/
def finishRegistration (w : WebAuthn D C A) (db : PasskeyDB) (fails : PasskeyFailures)
    (userID challengeID : String) (response : Bytes) (id : String) (now now' : Int) :
    Except PasskeyError Passkey × PasskeyDB :=
  match loadChallenge w db fails challengeID "registration" userID now with
  | .error e => (.error e, db)
  | .ok session =>
    match registrationRow w db fails userID response session id now' with
    | .error e => (.error e, deleteChallenge db fails challengeID)
    | .ok row =>
      match insertPasskey db fails row with
      | none => (.error .database, deleteChallenge db fails challengeID)
      | some db => (.ok (passkeyOfRow row), deleteChallenge db fails challengeID)

/-! ## Authentication -/

/-- `BeginAuthentication`; `passkeys.go:133–143`. -/
def beginAuthentication (w : WebAuthn D C A) (db : PasskeyDB) (fails : PasskeyFailures)
    (session : Option D) (id : String) (now now' : Int) : Option PasskeyDB :=
  match session with
  | none => none
  | some session => saveChallenge w db fails "" "authentication" session id now now'

/-- The user and the credential of a login, once the response is validated;
`passkeys.go:152–166`. -/
def passkeyLogin (w : WebAuthn D C A) (db : PasskeyDB) (fails : PasskeyFailures)
    (response : Bytes) (session : D) : Except PasskeyError (PasskeyUser × Credential) :=
  match w.parseAssertion response with
  | none => .error .response
  | some parsed =>
    match w.validatePasskeyLogin (fun _ uid ↦ userFor w db fails uid) session parsed with
    | none => .error .validation
    | some r => .ok r

/-- `UpdatePasskeyCounter`; `passkeys.sql:8–9`. -/
def updatePasskeyCounter (db : PasskeyDB) (fails : PasskeyFailures) (counter : Int)
    (userID : String) (credentialID : Bytes) : Option PasskeyDB :=
  if fails .updatePasskeyCounter then none
  else some { db with
    passkeys := db.passkeys.update (fun r ↦ r.userID == userID && r.credentialID == credentialID)
      (fun r ↦ { r with counter := counter }) fun _ _ ↦ ⟨rfl, rfl⟩ }

/-- `FinishAuthentication`; `passkeys.go:145–177`. -/
def finishAuthentication (w : WebAuthn D C A) (db : PasskeyDB) (fails : PasskeyFailures)
    (challengeID : String) (response : Bytes) (now : Int) :
    Except PasskeyError String × PasskeyDB :=
  match loadChallenge w db fails challengeID "authentication" "" now with
  | .error e => (.error e, db)
  | .ok session =>
    match passkeyLogin w db fails response session with
    | .error e => (.error e, deleteChallenge db fails challengeID)
    | .ok (user, cred) =>
      match updatePasskeyCounter db fails cred.signCount.toNat user.id cred.id with
      | none => (.error .database, deleteChallenge db fails challengeID)
      | some db => (.ok user.id, deleteChallenge db fails challengeID)

/-- `DeletePasskey`; `passkeys.go:197–199`, `passkeys.sql:14–15`. -/
def deletePasskey (db : PasskeyDB) (userID id : String) : PasskeyDB :=
  { db with passkeys := db.passkeys.delete (fun r ↦ r.id == id && r.userID == userID) }

/-! ## What the queries change -/

variable {w : WebAuthn D C A} {db db' : PasskeyDB} {fails : PasskeyFailures}

/-- Deleting a challenge leaves the passkeys alone. -/
@[simp] theorem deleteChallenge_passkeys (db : PasskeyDB) (fails : PasskeyFailures)
    (id : String) : (deleteChallenge db fails id).passkeys = db.passkeys := by
  unfold deleteChallenge
  split <;> rfl

/-- A saved challenge is added to the challenges, and nothing else changes. -/
theorem saveChallenge_eq_some {userID kind id : String} {session : D} {now now' : Int}
    (h : saveChallenge w db fails userID kind session id now now' = some db') :
    db'.passkeys = db.passkeys ∧
      ∀ r ∈ db'.challenges.rows, r.id = id ∨ r ∈ db.challenges.rows := by
  unfold saveChallenge at h
  split at h
  · contradiction
  · dsimp only at h
    generalize (if userID ≠ "" then some userID else none) = uid at h
    split at h
    · contradiction
    · obtain ⟨challenges, hinsert, rfl⟩ := Option.map_eq_some_iff.mp h
      refine ⟨rfl, fun r hr ↦ ?_⟩
      exact ((Table.mem_insert hinsert r).mp hr).imp_left (congrArg ChallengeRow.id)

private theorem getD_of_saveChallenge {o : Option PasskeyDB} {id : String} {now now' : Int}
    (h : ∀ db', o = some db' → ∃ userID kind session,
      saveChallenge w db fails userID kind session id now now' = some db') :
    (o.getD db).passkeys = db.passkeys ∧
      ∀ r ∈ (o.getD db).challenges.rows, r.id = id ∨ r ∈ db.challenges.rows := by
  cases o with
  | none => exact ⟨rfl, fun r hr ↦ .inr hr⟩
  | some db' =>
    obtain ⟨userID, kind, session, hsave⟩ := h db' rfl
    exact saveChallenge_eq_some hsave

/-- `BeginRegistration` adds its own challenge at most. -/
theorem beginRegistration_getD (w : WebAuthn D C A) (db : PasskeyDB) (fails : PasskeyFailures)
    (userID : String) (session : Option D) (id : String) (now now' : Int) :
    let db' := (beginRegistration w db fails userID session id now now').getD db
    db'.passkeys = db.passkeys ∧
      ∀ r ∈ db'.challenges.rows, r.id = id ∨ r ∈ db.challenges.rows := by
  apply getD_of_saveChallenge
  intro db' h
  unfold beginRegistration at h
  split at h
  · exact ⟨_, _, _, h⟩
  · contradiction

/-- `BeginAuthentication` adds its own challenge at most. -/
theorem beginAuthentication_getD (w : WebAuthn D C A) (db : PasskeyDB) (fails : PasskeyFailures)
    (session : Option D) (id : String) (now now' : Int) :
    let db' := (beginAuthentication w db fails session id now now').getD db
    db'.passkeys = db.passkeys ∧
      ∀ r ∈ db'.challenges.rows, r.id = id ∨ r ∈ db.challenges.rows := by
  apply getD_of_saveChallenge
  intro db' h
  unfold beginAuthentication at h
  split at h
  · contradiction
  · exact ⟨_, _, _, h⟩

/-- An inserted passkey is added to the passkeys, and nothing else changes. -/
theorem insertPasskey_eq_some {row : PasskeyRow} (h : insertPasskey db fails row = some db') :
    db'.challenges = db.challenges ∧
      ∀ a, a ∈ db'.passkeys.rows ↔ a = row ∨ a ∈ db.passkeys.rows := by
  unfold insertPasskey at h
  split at h
  · contradiction
  · obtain ⟨passkeys, hinsert, rfl⟩ := Option.map_eq_some_iff.mp h
    exact ⟨rfl, Table.mem_insert hinsert⟩

/-- An update sets the counter of the passkey that it names, and nothing else changes. -/
theorem updatePasskeyCounter_eq_some {counter : Int} {userID : String} {credentialID : Bytes}
    (h : updatePasskeyCounter db fails counter userID credentialID = some db') :
    db'.challenges = db.challenges ∧ ∀ a, a ∈ db'.passkeys.rows ↔
      ∃ row ∈ db.passkeys.rows, (if row.userID = userID ∧ row.credentialID = credentialID then
        { row with counter := counter } else row) = a := by
  unfold updatePasskeyCounter at h
  split at h
  · contradiction
  · obtain rfl := Option.some.inj h
    refine ⟨rfl, fun a ↦ ?_⟩
    rw [Table.mem_update]
    simp only [Bool.and_eq_true, beq_iff_eq]

end Dockstack.Auth
