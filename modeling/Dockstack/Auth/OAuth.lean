import Dockstack.Auth.Session

/-!
# OAuth accounts

The store calls of `internal/auth/oauth.go:38–72` on `users` and `oauth_accounts`
(`internal/db/migrations/0001_init.sql:71–79`, `internal/db/queries/oauth_accounts.sql`), with
`GetUserByID`, `UserByEmail` and `ChangeEmail` of `internal/auth/session.go`. New identifiers,
clock readings and the queries that the database fails are arguments.
-/

namespace Dockstack.Auth

open Dockstack.Base

/-- A row of `oauth_accounts`; `0001_init.sql:71–79`. -/
structure OAuthAccountRow where
  id : String
  userID : String
  providerID : String
  providerUserID : String
  email : String
  createdAt : Int
  deriving DecidableEq

/-- `oauth_accounts` has unique ids and unique pairs of a provider and its user. -/
def OAuthAccountRow.clash (a b : OAuthAccountRow) : Bool :=
  a.id == b.id || (a.providerID == b.providerID && a.providerUserID == b.providerUserID)

/-- Accounts clash when the ids agree, or both columns of the pair do. -/
theorem OAuthAccountRow.clash_iff {a b : OAuthAccountRow} : a.clash b = true ↔
    a.id = b.id ∨ (a.providerID = b.providerID ∧ a.providerUserID = b.providerUserID) := by
  simp [clash]

/-- Clashing is mutual. -/
theorem OAuthAccountRow.clash_comm (a b : OAuthAccountRow) : a.clash b = b.clash a := by
  rw [Bool.eq_iff_iff, clash_iff, clash_iff]
  exact or_congr eq_comm (and_congr eq_comm eq_comm)

/-- The tables of an OAuth login. -/
structure OAuthDB where
  users : Table UserRow UserRow.clash
  accounts : Table OAuthAccountRow OAuthAccountRow.clash

/-- The queries of an OAuth login, and that of `ChangeEmail`. -/
inductive OAuthQuery where
  | getOAuthAccountUser
  | getUserByID
  | getUserByEmail
  | createUser
  | insertOAuthAccount
  | changeUserEmail
  deriving DecidableEq

/-- The queries that the database fails. -/
abbrev OAuthFailures := OAuthQuery → Bool

/-- `OAuthUserID`; `oauth.go:38–44`, `oauth_accounts.sql:1–2`. `none` is an error, no row
included. -/
def oauthUserID (db : OAuthDB) (fails : OAuthFailures) (providerID providerUserID : String) :
    Option String :=
  if fails .getOAuthAccountUser then none
  else (db.accounts.rows.find? fun r ↦ r.providerID == providerID &&
    r.providerUserID == providerUserID).map (·.userID)

/-- `GetUserByID`; `session.go:246–252`, `users.sql:8–9`. `none` is an error, no row included. -/
def oauthGetUserByID (db : OAuthDB) (fails : OAuthFailures) (id : String) : Option User :=
  if fails .getUserByID then none
  else (db.users.rows.find? (·.id == id)).map Store.userOfRow

/-- `UserByEmail`; `session.go:305–314`, `users.sql:11–12`. The outer `none` is an error, the inner
one that there is no such user. -/
def userByEmail (db : OAuthDB) (fails : OAuthFailures) (email : String) : Option (Option User) :=
  if fails .getUserByEmail then none
  else some ((db.users.rows.find? (·.email == email)).map Store.userOfRow)

/-- The row that `CreateOAuthUser` inserts; `oauth.go:46–57`. Its name is what comes before the
first `@`. -/
def oauthUserRow (email id : String) (now : Int) : UserRow where
  id := id
  name := .ofList (email.toList.takeWhile (· ≠ '@'))
  email := email
  emailVerified := true
  username := none
  avatar := ""
  role := ""
  createdAt := unixMilli now
  updatedAt := unixMilli now

/-- `CreateUser`; `users.sql:4–6`. It fails on a taken id or email. -/
def createUser (db : OAuthDB) (fails : OAuthFailures) (row : UserRow) : Option OAuthDB :=
  if fails .createUser then none
  else (db.users.insert row).map fun users ↦ { db with users := users }

/-- `LinkOAuthAccount`; `oauth.go:63–72`, `oauth_accounts.sql:4–6`. It fails on a taken id or pair
and on an unknown user. -/
def linkOAuthAccount (db : OAuthDB) (fails : OAuthFailures)
    (userID providerID providerUserID email id : String) (now : Int) : Option OAuthDB :=
  let row : OAuthAccountRow :=
    { id := id, userID := userID, providerID := providerID, providerUserID := providerUserID,
      email := email, createdAt := unixMilli now }
  if fails .insertOAuthAccount || db.users.rows.all (·.id != userID) then none
  else (db.accounts.insert row).map fun accounts ↦ { db with accounts := accounts }

/-- `ChangeEmail`; `session.go:274–280`, `users.sql:28–29`. It fails on a taken email. -/
def changeEmail (db : OAuthDB) (fails : OAuthFailures) (userID email : String) (now : Int) :
    Option OAuthDB :=
  if fails .changeUserEmail then none
  else (db.users.update? (·.id == userID)
    (fun r ↦ { r with email := email, updatedAt := unixMilli now })).map
      fun users ↦ { db with users := users }

variable {db db' : OAuthDB} {fails : OAuthFailures} {userID : String}

/-- The user that is found has a row for the pair. -/
theorem oauthUserID_eq_some {providerID providerUserID : String}
    (h : oauthUserID db fails providerID providerUserID = some userID) :
    ∃ r ∈ db.accounts.rows, r.providerID = providerID ∧ r.providerUserID = providerUserID ∧
      r.userID = userID := by
  obtain ⟨-, h⟩ := Option.ite_none_left_eq_some.mp h
  obtain ⟨r, hr, rfl⟩ := Option.map_eq_some_iff.mp h
  have hpair := List.find?_some hr
  simp only [Bool.and_eq_true, beq_iff_eq] at hpair
  exact ⟨r, List.mem_of_find?_eq_some hr, hpair.1, hpair.2, rfl⟩

/-- The user that is loaded has the id, and is in the table. -/
theorem oauthGetUserByID_eq_some {user : User}
    (h : oauthGetUserByID db fails userID = some user) :
    user.id = userID ∧ ∃ r ∈ db.users.rows, r.id = userID := by
  obtain ⟨-, h⟩ := Option.ite_none_left_eq_some.mp h
  obtain ⟨r, hr, rfl⟩ := Option.map_eq_some_iff.mp h
  have hid : r.id = userID := by simpa using List.find?_some hr
  exact ⟨hid, r, List.mem_of_find?_eq_some hr, hid⟩

/-- A user that is found by email is in the table. -/
theorem userByEmail_eq_some {email : String} {user : User}
    (h : userByEmail db fails email = some (some user)) :
    ∃ r ∈ db.users.rows, r.id = user.id := by
  obtain ⟨-, h⟩ := Option.ite_none_left_eq_some.mp h
  obtain ⟨r, hr, rfl⟩ := Option.map_eq_some_iff.mp (Option.some.inj h)
  exact ⟨r, List.mem_of_find?_eq_some hr, rfl⟩

/-- A user that is created is added to the users; the accounts stay. -/
theorem createUser_eq_some {row : UserRow} (h : createUser db fails row = some db') :
    db'.accounts = db.accounts ∧ ∀ r, r ∈ db'.users.rows ↔ r = row ∨ r ∈ db.users.rows := by
  obtain ⟨-, h⟩ := Option.ite_none_left_eq_some.mp h
  obtain ⟨users, hinsert, rfl⟩ := Option.map_eq_some_iff.mp h
  exact ⟨rfl, Table.mem_insert hinsert⟩

/-- A new user is not created exactly when the database fails, or its id or email is taken. -/
theorem createUser_oauthUserRow_eq_none {email id : String} {now : Int} :
    createUser db fails (oauthUserRow email id now) = none ↔
      fails .createUser = true ∨ ∃ r ∈ db.users.rows, r.id = id ∨ r.email = email := by
  have hclash (r : UserRow) :
      (oauthUserRow email id now).clash r = true ↔ r.id = id ∨ r.email = email := by
    rw [UserRow.clash_iff, oauthUserRow]
    simp only [Option.isSome_none, Bool.false_eq_true, false_and, or_false]
    exact or_congr eq_comm eq_comm
  rw [createUser]
  constructor
  · intro h
    by_contra hnot
    rw [not_or, Bool.not_eq_true] at hnot
    obtain ⟨hfails, hnone⟩ := hnot
    obtain ⟨users, husers⟩ := Table.exists_insert (t := db.users)
      (r := oauthUserRow email id now) fun r hr ↦ by
        rw [Bool.eq_false_iff, ne_eq, hclash]
        exact fun hrow ↦ hnone ⟨r, hr, hrow⟩
    rw [hfails, husers] at h
    contradiction
  · rintro (hfails | ⟨r, hr, hrow⟩)
    · rw [if_pos hfails]
    · split
      · rfl
      · refine Option.map_eq_none_iff.mpr (Option.eq_none_iff_forall_ne_some.mpr ?_)
        intro users hinsert
        have hfalse := Table.clash_of_insert hinsert r hr
        rw [(hclash r).mpr hrow] at hfalse
        contradiction

/-- A link adds one account for its pair; the users stay. -/
theorem linkOAuthAccount_eq_some {providerID providerUserID email id : String} {now : Int}
    (h : linkOAuthAccount db fails userID providerID providerUserID email id now = some db') :
    db'.users = db.users ∧ (∀ r ∈ db.accounts.rows, r ∈ db'.accounts.rows) ∧
      ∃ r ∈ db'.accounts.rows, r.providerID = providerID ∧ r.providerUserID = providerUserID ∧
        r.userID = userID := by
  obtain ⟨-, h⟩ := Option.ite_none_left_eq_some.mp h
  obtain ⟨accounts, hinsert, rfl⟩ := Option.map_eq_some_iff.mp h
  exact ⟨rfl, fun r hr ↦ (Table.mem_insert hinsert r).mpr (.inr hr),
    _, (Table.mem_insert hinsert _).mpr (.inl rfl), rfl, rfl, rfl⟩

/-- A link that succeeds was not failed by the database, and its id and pair were new. -/
theorem linkOAuthAccount_succeeds {providerID providerUserID email id : String} {now : Int}
    (h : linkOAuthAccount db fails userID providerID providerUserID email id now = some db') :
    fails .insertOAuthAccount = false ∧ ∀ r ∈ db.accounts.rows, r.id ≠ id ∧
      ¬ (r.providerID = providerID ∧ r.providerUserID = providerUserID) := by
  obtain ⟨hok, h⟩ := Option.ite_none_left_eq_some.mp h
  obtain ⟨accounts, hinsert, rfl⟩ := Option.map_eq_some_iff.mp h
  have hfails : fails .insertOAuthAccount = false := by
    cases hf : fails .insertOAuthAccount with
    | false => rfl
    | true => simp [hf] at hok
  refine ⟨hfails, fun r hr ↦ ?_⟩
  have hclash := Table.clash_of_insert hinsert r hr
  rw [Bool.eq_false_iff, ne_eq, OAuthAccountRow.clash_iff, not_or] at hclash
  exact ⟨fun heq ↦ hclash.1 heq.symm, fun ⟨hprovider, hsub⟩ ↦
    hclash.2 ⟨hprovider.symm, hsub.symm⟩⟩

/-- A link of a known user under a new id and pair succeeds, unless the database fails. -/
theorem exists_linkOAuthAccount {providerID providerUserID id : String} (email : String)
    (now : Int) (hfails : fails .insertOAuthAccount = false)
    (huser : ∃ r ∈ db.users.rows, r.id = userID)
    (hnew : ∀ r ∈ db.accounts.rows, r.id ≠ id ∧
      ¬ (r.providerID = providerID ∧ r.providerUserID = providerUserID)) :
    ∃ db', linkOAuthAccount db fails userID providerID providerUserID email id now = some db' := by
  obtain ⟨r, hr, hid⟩ := huser
  have hknown : db.users.rows.all (·.id != userID) = false :=
    List.all_eq_false.mpr ⟨r, hr, by simp [hid]⟩
  unfold linkOAuthAccount
  simp only [hfails, hknown, Bool.or_false, Bool.false_eq_true, if_false]
  obtain ⟨accounts, haccounts⟩ := Table.exists_insert (t := db.accounts)
    (r := ⟨id, userID, providerID, providerUserID, email, unixMilli now⟩) fun a ha ↦ by
      obtain ⟨hne, hpair⟩ := hnew a ha
      rw [Bool.eq_false_iff, ne_eq, OAuthAccountRow.clash_iff]
      rintro (heq | ⟨hprovider, hsub⟩)
      · exact hne heq.symm
      · exact hpair ⟨hprovider.symm, hsub.symm⟩
  exact ⟨_, Option.map_eq_some_iff.mpr ⟨accounts, haccounts, rfl⟩⟩

/-- A changed email leaves the accounts and the ids of the users alone. -/
theorem changeEmail_eq_some {email : String} {now : Int}
    (h : changeEmail db fails userID email now = some db') :
    db'.accounts = db.accounts ∧ (∀ r ∈ db.users.rows, ∃ r' ∈ db'.users.rows, r'.id = r.id) ∧
      ∀ r' ∈ db'.users.rows, ∃ r ∈ db.users.rows, r.id = r'.id := by
  obtain ⟨-, h⟩ := Option.ite_none_left_eq_some.mp h
  obtain ⟨users, hupdate, rfl⟩ := Option.map_eq_some_iff.mp h
  have hmem := Table.mem_update? hupdate
  refine ⟨rfl, fun r hr ↦ ⟨_, (hmem _).mpr ⟨r, hr, rfl⟩, ?_⟩, fun r' hr' ↦ ?_⟩
  · split <;> rfl
  · obtain ⟨r, hr, rfl⟩ := (hmem r').mp hr'
    refine ⟨r, hr, ?_⟩
    split <;> rfl

end Dockstack.Auth
