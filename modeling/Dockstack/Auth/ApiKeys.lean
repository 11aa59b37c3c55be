import Dockstack.Auth.Session

/-!
# API keys

`internal/auth/apikeys.go` with `internal/db/queries/api_keys.sql` and the schema in
`internal/db/migrations/0001_init.sql`. New identifiers and clock readings are arguments.
-/

namespace Dockstack.Auth

open Dockstack.Base

/-- A row of `api_keys`; `0001_init.sql:33–46`. -/
structure ApiKeyRow where
  id : String
  userID : String
  name : String
  keyHash : Bytes
  enabled : Bool
  expiresAt : Option Int
  requestCount : Int
  lastRequestAt : Option Int
  rateLimitMax : Int
  rateLimitWindow : Int
  createdAt : Int
  updatedAt : Int
  deriving DecidableEq

/-- `api_keys` has unique ids and key hashes. -/
def ApiKeyRow.clash (a b : ApiKeyRow) : Bool := a.id == b.id || a.keyHash == b.keyHash

/-- Keys clash when one of the unique columns agrees. -/
theorem ApiKeyRow.clash_iff {a b : ApiKeyRow} :
    a.clash b = true ↔ a.id = b.id ∨ a.keyHash = b.keyHash := by
  simp [clash]

/-- The table `api_keys`. -/
abbrev ApiKeyTable := Table ApiKeyRow ApiKeyRow.clash

/-- `APIKey`; `apikeys.go:13–24`. -/
structure APIKey where
  id : String
  userID : String
  name : String
  keyHash : Bytes
  enabled : Bool
  expiresAt : Option Int
  createdAt : Int
  rateLimitMax : Int
  rateLimitWindow : Int
  deriving DecidableEq

/-- `RateLimitMax`; `apikeys.go:26–31`. -/
def APIKey.RateLimitMax (k : APIKey) : Int := if k.rateLimitMax ≤ 0 then 100 else k.rateLimitMax

/-- `RateLimitWindow`; `apikeys.go:33–38`. -/
def APIKey.RateLimitWindow (k : APIKey) : Int :=
  if k.rateLimitWindow ≤ 0 then 60000 else k.rateLimitWindow

/-- `NewAPIKey`; `apikeys.go:40–45`. -/
structure NewAPIKey where
  userID : String
  name : String
  keyHash : Bytes
  expiresAt : Option Int
  deriving DecidableEq

/-- Errors of `VerifyKey`. -/
inductive VerifyKeyError where
  | invalid
  | disabled
  | expired
  | database (msg : String)
  deriving DecidableEq

/-- The texts of the errors; `apikeys.go:108–117`. -/
def VerifyKeyError.text : VerifyKeyError → String
  | .invalid => "invalid API key"
  | .disabled => "API key is disabled"
  | .expired => "API key has expired"
  | .database msg => msg

/-- `apiKeyFromRow`; `apikeys.go:47–60`. -/
def apiKeyFromRow (r : ApiKeyRow) : APIKey where
  id := r.id
  userID := r.userID
  name := r.name
  keyHash := r.keyHash
  enabled := r.enabled
  expiresAt := r.expiresAt
  createdAt := r.createdAt
  rateLimitMax := r.rateLimitMax
  rateLimitWindow := r.rateLimitWindow

/-- `CreateAPIKey`; `apikeys.go:62–86`, `api_keys.sql:1–3` and the defaults of the schema. The
insertion fails on a taken id or key hash and on an unknown user. -/
def createAPIKey (users : Table UserRow UserRow.clash) (keys : ApiKeyTable) (new : NewAPIKey)
    (id : String) (now : Int) : Option (ApiKeyTable × APIKey) :=
  let row : ApiKeyRow :=
    { id := id, userID := new.userID, name := new.name, keyHash := new.keyHash, enabled := true,
      expiresAt := new.expiresAt, requestCount := 0, lastRequestAt := none, rateLimitMax := 100,
      rateLimitWindow := 60000, createdAt := unixMilli now, updatedAt := unixMilli now }
  if users.rows.any (fun u ↦ u.id == new.userID) then
    match keys.insert row with
    | none => none
    | some keys =>
      some (keys,
        { id := id, userID := new.userID, name := new.name, keyHash := new.keyHash,
          enabled := true, expiresAt := new.expiresAt, createdAt := unixMilli now,
          rateLimitMax := 0, rateLimitWindow := 0 })
  else none

/-- `DeleteAPIKey`; `apikeys.go:100–102`, `api_keys.sql:11–12`. -/
def deleteAPIKey (keys : ApiKeyTable) (userID id : String) : ApiKeyTable :=
  keys.delete (fun r ↦ r.id == id && r.userID == userID)

/-- `GetAPIKeyByHash`; `api_keys.sql:8–9`. -/
def getAPIKeyByHash (keys : ApiKeyTable) (keyHash : Bytes) : Option ApiKeyRow :=
  keys.rows.find? (fun r ↦ r.keyHash == keyHash)

/-- `VerifyKey`; `apikeys.go:104–120`. `failure` is the error of a failing database. -/
def Store.verifyKey (st : Store) (keys : ApiKeyTable) (failure : Option String) (rawKey : Bytes)
    (now : Int) : Except VerifyKeyError APIKey :=
  match failure with
  | some msg => .error (.database msg)
  | none =>
    match getAPIKeyByHash keys (st.hashToken rawKey) with
    | none => .error .invalid
    | some row =>
      let key := apiKeyFromRow row
      if !key.enabled then .error .disabled
      else if key.expiresAt.any (unixMilli now > ·) then .error .expired
      else .ok key

/-! ## Rate limit -/

/-- Whether the last request is unknown or before the window. `api_keys.sql:17`, `:23`. -/
def ApiKeyRow.idle (r : ApiKeyRow) (windowStart : Int) : Bool :=
  match r.lastRequestAt with
  | none => true
  | some last => last < windowStart

/-- The row is charged. `api_keys.sql:16–20`. -/
def ApiKeyRow.charge (r : ApiKeyRow) (windowStart now : Int) : ApiKeyRow :=
  { r with
    requestCount := if r.idle windowStart then 1 else r.requestCount + 1
    lastRequestAt := some now }

/-- The row is the key's and may be charged. `api_keys.sql:21–24`. -/
def ApiKeyRow.chargeable (r : ApiKeyRow) (windowStart : Int) (id : String) (max : Int) : Bool :=
  r.id == id && (r.requestCount < max || r.idle windowStart)

/-- `UpdateAPIKeyRateLimit` and the number of rows it changed; `api_keys.sql:14–24`. -/
def updateAPIKeyRateLimit (keys : ApiKeyTable) (windowStart now : Int) (id : String) (max : Int) :
    ApiKeyTable × Nat :=
  (keys.update (·.chargeable windowStart id max) (·.charge windowStart now) fun _ _ ↦ ⟨rfl, rfl⟩,
    keys.rows.countP (·.chargeable windowStart id max))

/-- `RateLimit`; `apikeys.go:122–135`. -/
def rateLimit (keys : ApiKeyTable) (keyID : String) (max windowMs now : Int) :
    Bool × ApiKeyTable :=
  let now := unixMilli now
  let windowStart := now - windowMs
  let (keys, n) := updateAPIKeyRateLimit keys windowStart now keyID max
  (0 < n, keys)

/-! ## Rows -/

/-- Keys with one id are one row. -/
theorem eq_of_id_eq {keys : ApiKeyTable} {a b : ApiKeyRow} (ha : a ∈ keys.rows)
    (hb : b ∈ keys.rows) (h : a.id = b.id) : a = b := by
  have hsymm (a b : ApiKeyRow) : a.clash b = b.clash a := by
    rw [Bool.eq_iff_iff, ApiKeyRow.clash_iff, ApiKeyRow.clash_iff]
    exact or_congr eq_comm eq_comm
  exact keys.eq_of_clash hsymm ha hb (ApiKeyRow.clash_iff.mpr (.inl h))

/-- A created key is returned as it is stored, and its row is added. -/
theorem createAPIKey_eq_some {users : Table UserRow UserRow.clash} {keys keys' : ApiKeyTable}
    {new : NewAPIKey} {id : String} {now : Int} {key : APIKey}
    (h : createAPIKey users keys new id now = some (keys', key)) :
    ∃ row : ApiKeyRow, row.keyHash = new.keyHash ∧ row.id = key.id ∧ row.userID = key.userID ∧
      row.expiresAt = key.expiresAt ∧ ∀ a, a ∈ keys'.rows ↔ a = row ∨ a ∈ keys.rows := by
  unfold createAPIKey at h
  dsimp only at h
  split at h
  · split at h
    · contradiction
    · next hinsert =>
      obtain ⟨rfl, rfl⟩ := Prod.mk.inj (Option.some.inj h)
      exact ⟨_, rfl, rfl, rfl, rfl, Table.mem_insert hinsert⟩
  · contradiction

/-- A verified key has a row that is enabled and not past its expiry. -/
theorem Store.verifyKey_eq_ok {st : Store} {keys : ApiKeyTable} {failure : Option String}
    {rawKey : Bytes} {now : Int} {key : APIKey}
    (h : st.verifyKey keys failure rawKey now = .ok key) :
    ∃ row ∈ keys.rows, row.keyHash = st.hashToken rawKey ∧ key = apiKeyFromRow row ∧
      row.enabled = true ∧ ∀ e ∈ row.expiresAt, unixMilli now ≤ e := by
  unfold Store.verifyKey at h
  split at h
  · contradiction
  · split at h
    · contradiction
    · next row hrow =>
      dsimp only at h
      split at h
      · contradiction
      · next henabled =>
        split at h
        · contradiction
        · next hexpired =>
          obtain rfl := Except.ok.inj h
          have hhash := List.find?_some hrow
          refine ⟨row, List.mem_of_find?_eq_some hrow, by simpa using hhash, rfl, ?_, ?_⟩
          · simpa [apiKeyFromRow] using henabled
          · intro e he
            simp only [apiKeyFromRow, Option.mem_def.mp he] at hexpired
            simpa using hexpired

end Dockstack.Auth
