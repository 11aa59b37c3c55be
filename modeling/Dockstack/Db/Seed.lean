import Dockstack.Auth.Credentials

/-!
# Seeding the admin user

`Seed` of `internal/db/seed.go:14–53` counts the users and, if there are none, inserts the admin and
its credential in two statements without a transaction. A start-up that ends between the two leaves
an admin without a password, and every later start-up finds a user and does nothing.
-/

namespace Dockstack.Db

open Dockstack.Base Dockstack.Auth

/-- Where a call of `Seed` is: its next statement, with what it has so far. -/
inductive SeedPhase where
  | counting
  | hashing
  | creating (hash : String)
  | upserting (userID hash : String) (now : Int)
  | returned (ok : Bool)
  deriving DecidableEq

/-- The tables, the email and the phase of the call in progress or last returned, `none` after a
kill, and whether some call has returned nil. -/
structure SeedState where
  users : Table UserRow UserRow.clash
  credentials : Table CredentialRow CredentialRow.clash
  run : Option (String × SeedPhase)
  seeded : Bool

/-- A database without users, and so without credentials. -/
def SeedState.init : SeedState := ⟨Table.empty, Table.empty, none, false⟩

/-- What happens: a start-up calls `Seed`, the call takes its next step, or the process is killed.
`fails` says that the statement fails, `hash` is the answer of `HashPassword`, `id` the new UUID. -/
inductive SeedStep where
  | start (adminEmail : String)
  | advance (fails : Bool) (hash : Option String) (id : String) (now : Int)
  | kill
  deriving DecidableEq

/-- The admin's row; `seed.go:30–39`. -/
def adminRow (adminEmail id : String) (now : Int) : UserRow where
  id := id
  name := "Admin"
  email := adminEmail
  emailVerified := true
  username := some "admin"
  avatar := ""
  role := "admin"
  createdAt := unixMilli now
  updatedAt := unixMilli now

/-- The call returns. -/
def SeedState.finish (s : SeedState) (adminEmail : String) (ok : Bool) : SeedState :=
  { s with run := some (adminEmail, .returned ok), seeded := s.seeded || ok }

/-- The next step of the call in progress; `seed.go:15–52`. -/
def SeedState.advance (s : SeedState) (fails : Bool) (hash : Option String) (id : String)
    (now : Int) (adminEmail : String) : SeedPhase → Option SeedState
  | .counting =>
    if fails then some (s.finish adminEmail false)
    else if 0 < s.users.rows.length then some (s.finish adminEmail true)
    else some { s with run := some (adminEmail, .hashing) }
  | .hashing =>
    match hash with
    | none => some (s.finish adminEmail false)
    | some hash => some { s with run := some (adminEmail, .creating hash) }
  | .creating hash =>
    if fails then some (s.finish adminEmail false)
    else
      match s.users.insert (adminRow adminEmail id now) with
      | none => some (s.finish adminEmail false)
      | some users =>
        some { s with users := users, run := some (adminEmail, .upserting id hash now) }
  | .upserting userID hash now =>
    if fails then some (s.finish adminEmail false)
    else
      match upsertCredential s.users s.credentials ⟨userID, hash, unixMilli now⟩ with
      | none => some (s.finish adminEmail false)
      | some credentials => some ({ s with credentials := credentials }.finish adminEmail true)
  | .returned _ => none

/-- One step. The start-ups come one after the other. -/
def seedStep (s : SeedState) : SeedStep → Option SeedState
  | .start adminEmail =>
    match s.run with
    | none => some { s with run := some (adminEmail, .counting) }
    | some (_, .returned _) => some { s with run := some (adminEmail, .counting) }
    | some _ => none
  | .advance fails hash id now =>
    match s.run with
    | none => none
    | some (adminEmail, phase) => s.advance fails hash id now adminEmail phase
  | .kill => some { s with run := none }

/-- There is an admin with a credential, so that the default login works. -/
def AdminCanLogIn (s : SeedState) : Prop :=
  ∃ u ∈ s.users.rows, u.role = "admin" ∧ ∃ c ∈ s.credentials.rows, c.userID = u.id

/-- The call has inserted the admin and not yet its credential. -/
def SeedState.halfway (s : SeedState) : Bool :=
  match s.run with
  | some (_, .upserting ..) => true
  | _ => false

/-- The step neither ends nor fails a call that has inserted the admin and not yet its
credential. -/
def Uninterrupted (s : SeedState) : SeedStep → Prop
  | .start _ => True
  | .advance fails _ _ _ => s.halfway = true → fails = false
  | .kill => s.halfway = false

instance (s : SeedState) : ∀ l, Decidable (Uninterrupted s l)
  | .start _ => .isTrue trivial
  | .advance fails _ _ _ => inferInstanceAs (Decidable (_ → fails = false))
  | .kill => inferInstanceAs (Decidable (_ = _))

/-- What an uninterrupted run has come to. -/
inductive Seeding : SeedState → Prop where
  /-- No call is past its count. -/
  | before {s : SeedState} (husers : s.users.rows = []) (hcredentials : s.credentials.rows = [])
      (hseeded : s.seeded = false) (hrun : s.halfway = false) : Seeding s
  /-- A call has inserted the admin. -/
  | halfway {s : SeedState} {adminEmail id hash : String} {now : Int}
      (husers : s.users.rows = [adminRow adminEmail id now])
      (hcredentials : s.credentials.rows = []) (hseeded : s.seeded = false)
      (hrun : s.run = some (adminEmail, .upserting id hash now)) : Seeding s
  /-- The admin can log in, and no call inserts another. -/
  | after {s : SeedState} (hadmin : AdminCanLogIn s)
      (hrun : ∀ adminEmail phase, s.run = some (adminEmail, phase) →
        phase = .counting ∨ ∃ ok, phase = .returned ok) : Seeding s

/-- The admin is there without a credential, and no call will give it one. -/
def LockedOut (s : SeedState) : Prop :=
  s.users.rows ≠ [] ∧ s.credentials.rows = [] ∧
    ∀ adminEmail phase, s.run = some (adminEmail, phase) →
      phase = .counting ∨ ∃ ok, phase = .returned ok

variable {s s' t : SeedState} {l : SeedStep} {adminEmail : String}

private theorem upserting_of_halfway (h : s.halfway = true) :
    ∃ adminEmail id hash now, s.run = some (adminEmail, .upserting id hash now) := by
  unfold SeedState.halfway at h
  split at h
  · next adminEmail id hash now hrun => exact ⟨adminEmail, id, hash, now, hrun⟩
  · contradiction

private theorem AdminCanLogIn.seeding_finish (h : AdminCanLogIn s) (adminEmail : String)
    (ok : Bool) : Seeding (s.finish adminEmail ok) := by
  refine .after h fun email phase hrun ↦ .inr ⟨ok, ?_⟩
  obtain ⟨-, rfl⟩ := Prod.ext_iff.mp (Option.some.inj hrun)
  rfl

private theorem Seeding.advance_before (fails : Bool) (hash : Option String) (id : String)
    (now : Int) {phase : SeedPhase} (husers : s.users.rows = [])
    (hcredentials : s.credentials.rows = []) (hseeded : s.seeded = false)
    (hphase : ∀ id hash now, phase ≠ .upserting id hash now)
    (hs : s.advance fails hash id now adminEmail phase = some s') : Seeding s' := by
  have hfail : Seeding (s.finish adminEmail false) :=
    .before husers hcredentials (by simpa [SeedState.finish] using hseeded) rfl
  cases phase with
  | counting =>
    simp only [SeedState.advance, husers, List.length_nil, lt_irrefl, if_false] at hs
    split at hs
    · exact Option.some.inj hs ▸ hfail
    · obtain rfl := Option.some.inj hs
      exact .before husers hcredentials hseeded rfl
  | hashing =>
    simp only [SeedState.advance] at hs
    split at hs
    · exact Option.some.inj hs ▸ hfail
    · obtain rfl := Option.some.inj hs
      exact .before husers hcredentials hseeded rfl
  | creating hash =>
    simp only [SeedState.advance] at hs
    split at hs
    · exact Option.some.inj hs ▸ hfail
    · split at hs
      · exact Option.some.inj hs ▸ hfail
      · next users hinsert =>
        obtain rfl := Option.some.inj hs
        have hadmin : users.rows = [adminRow adminEmail id now] := by
          rw [Table.rows_insert hinsert, husers]
        exact .halfway hadmin hcredentials hseeded rfl
  | upserting id hash now => exact absurd rfl (hphase id hash now)
  | returned ok => contradiction

private theorem Seeding.advance_halfway {id hash : String} {now : Int} (hash' : Option String)
    (id' : String) (now' : Int) (husers : s.users.rows = [adminRow adminEmail id now])
    (hcredentials : s.credentials.rows = [])
    (hs : s.advance false hash' id' now' adminEmail (.upserting id hash now) = some s') :
    Seeding s' := by
  have hknown : ¬ s.users.rows.all (·.id != id) = true := by simp [husers, adminRow]
  obtain ⟨credentials, hinsert⟩ := Table.exists_insert (t := s.credentials)
    (r := ⟨id, hash, unixMilli now⟩) (by simp [hcredentials])
  have hupsert : upsertCredential s.users s.credentials ⟨id, hash, unixMilli now⟩ =
      some credentials := by
    rw [upsertCredential, if_neg hknown, if_neg (by simp [hcredentials]), hinsert]
  simp only [SeedState.advance, hupsert] at hs
  obtain rfl := Option.some.inj hs
  refine AdminCanLogIn.seeding_finish ⟨adminRow adminEmail id now, ?_, rfl, ?_⟩ adminEmail true
  · simp [husers]
  · exact ⟨⟨id, hash, unixMilli now⟩, (Table.mem_insert hinsert _).mpr (.inl rfl), rfl⟩

private theorem advance_of_users (fails : Bool) (hash : Option String) (id : String) (now : Int)
    {phase : SeedPhase} (husers : s.users.rows ≠ [])
    (hphase : phase = .counting ∨ ∃ ok, phase = .returned ok)
    (hs : s.advance fails hash id now adminEmail phase = some s') :
    ∃ ok, s' = s.finish adminEmail ok := by
  rcases hphase with rfl | ⟨ok, rfl⟩
  · simp only [SeedState.advance, List.length_pos_iff.mpr husers, if_true] at hs
    split at hs
    · exact ⟨false, (Option.some.inj hs).symm⟩
    · exact ⟨true, (Option.some.inj hs).symm⟩
  · contradiction

private theorem seedStep_start (hs : seedStep s (.start adminEmail) = some s') :
    s.halfway = false ∧ s' = { s with run := some (adminEmail, .counting) } := by
  simp only [seedStep] at hs
  split at hs
  · next hrun => exact ⟨by rw [SeedState.halfway, hrun], (Option.some.inj hs).symm⟩
  · next hrun => exact ⟨by rw [SeedState.halfway, hrun], (Option.some.inj hs).symm⟩
  · contradiction

private theorem seedStep_advance {fails : Bool} {hash : Option String} {id : String} {now : Int}
    (hs : seedStep s (.advance fails hash id now) = some s') : ∃ adminEmail phase,
      s.run = some (adminEmail, phase) ∧
        s.advance fails hash id now adminEmail phase = some s' := by
  simp only [seedStep] at hs
  split at hs
  · contradiction
  · next adminEmail phase hphase => exact ⟨adminEmail, phase, hphase, hs⟩

/-- A step leaves the users alone, or inserts the admin. -/
theorem seedStep_users (hs : seedStep s l = some s') :
    s'.users = s.users ∨
      ∃ adminEmail id now, s.users.insert (adminRow adminEmail id now) = some s'.users := by
  cases l with
  | start adminEmail =>
    obtain ⟨-, rfl⟩ := seedStep_start hs
    exact .inl rfl
  | advance fails hash id now =>
    obtain ⟨adminEmail, phase, hphase, hs⟩ := seedStep_advance hs
    cases phase with
    | counting =>
      simp only [SeedState.advance] at hs
      repeat' split at hs
      all_goals exact .inl (Option.some.inj hs ▸ rfl)
    | hashing =>
      simp only [SeedState.advance] at hs
      split at hs <;> exact .inl (Option.some.inj hs ▸ rfl)
    | creating hash =>
      simp only [SeedState.advance] at hs
      split at hs
      · exact .inl (Option.some.inj hs ▸ rfl)
      · split at hs
        · exact .inl (Option.some.inj hs ▸ rfl)
        · next users hinsert =>
          obtain rfl := Option.some.inj hs
          exact .inr ⟨adminEmail, id, now, hinsert⟩
    | upserting userID hash now =>
      simp only [SeedState.advance] at hs
      repeat' split at hs
      all_goals exact .inl (Option.some.inj hs ▸ rfl)
    | returned ok => contradiction
  | kill =>
    obtain rfl := Option.some.inj hs
    exact .inl rfl

/-- An uninterrupted step. -/
theorem Seeding.step (h : Seeding s) (hl : Uninterrupted s l) (hs : seedStep s l = some s') :
    Seeding s' := by
  cases l with
  | start adminEmail =>
    obtain ⟨hnot, rfl⟩ := seedStep_start hs
    cases h with
    | before husers hcredentials hseeded hrun => exact .before husers hcredentials hseeded rfl
    | halfway husers hcredentials hseeded hrun =>
      rw [SeedState.halfway, hrun] at hnot
      contradiction
    | after hadmin hrun =>
      refine .after hadmin fun email phase hphase ↦ .inl ?_
      exact (Prod.ext_iff.mp (Option.some.inj hphase)).2.symm
  | advance fails hash id now =>
    obtain ⟨adminEmail, phase, hphase, hs⟩ := seedStep_advance hs
    cases h with
    | before husers hcredentials hseeded hrun =>
      refine Seeding.advance_before fails hash id now husers hcredentials hseeded ?_ hs
      rintro id' hash' now' rfl
      rw [SeedState.halfway, hphase] at hrun
      contradiction
    | halfway husers hcredentials hseeded hrun =>
      obtain rfl : fails = false := hl (by rw [SeedState.halfway, hrun])
      rw [hrun] at hphase
      obtain ⟨rfl, rfl⟩ := Prod.ext_iff.mp (Option.some.inj hphase)
      exact Seeding.advance_halfway hash id now husers hcredentials hs
    | after hadmin hrun =>
      have husers : s.users.rows ≠ [] :=
        hadmin.elim fun u hu ↦ List.ne_nil_of_mem hu.1
      obtain ⟨ok, rfl⟩ := advance_of_users fails hash id now husers
        (hrun adminEmail phase hphase) hs
      exact hadmin.seeding_finish adminEmail ok
  | kill =>
    obtain rfl := Option.some.inj hs
    cases h with
    | before husers hcredentials hseeded hrun => exact .before husers hcredentials hseeded rfl
    | halfway husers hcredentials hseeded hrun =>
      have hnot : s.halfway = false := hl
      rw [SeedState.halfway, hrun] at hnot
      contradiction
    | after hadmin hrun => exact .after hadmin nofun

/-- A call that ends after its insertion leaves an admin that cannot log in. -/
theorem Seeding.lockedOut (h : Seeding s) (hl : ¬ Uninterrupted s l)
    (hs : seedStep s l = some s') : LockedOut s' := by
  have hhalfway : s.halfway = true := by
    cases l with
    | start adminEmail => exact absurd trivial hl
    | advance fails hash id now => exact (Classical.not_imp.mp hl).1
    | kill => simpa [Uninterrupted] using hl
  cases h with
  | before husers hcredentials hseeded hrun =>
    rw [hhalfway] at hrun
    contradiction
  | halfway husers hcredentials hseeded hrun =>
    have husers' : s.users.rows ≠ [] := by simp [husers]
    cases l with
    | start adminEmail => exact absurd trivial hl
    | advance fails hash id now =>
      obtain rfl : fails = true := by simpa [Uninterrupted, hhalfway] using hl
      simp only [seedStep, hrun, SeedState.advance, if_true] at hs
      obtain rfl := Option.some.inj hs
      refine ⟨husers', hcredentials, fun email phase hphase ↦ .inr ⟨false, ?_⟩⟩
      exact (Prod.ext_iff.mp (Option.some.inj hphase)).2.symm
    | kill =>
      obtain rfl := Option.some.inj hs
      exact ⟨husers', hcredentials, nofun⟩
  | after hadmin hrun =>
    obtain ⟨email, id, hash, now, hphase⟩ := upserting_of_halfway hhalfway
    rcases hrun _ _ hphase with h | ⟨ok, h⟩ <;> contradiction

/-- No later start-up helps. -/
theorem LockedOut.step (h : LockedOut s) (hs : seedStep s l = some s') : LockedOut s' := by
  obtain ⟨husers, hcredentials, hrun⟩ := h
  cases l with
  | start adminEmail =>
    obtain ⟨-, rfl⟩ := seedStep_start hs
    refine ⟨husers, hcredentials, fun email phase hphase ↦ .inl ?_⟩
    exact (Prod.ext_iff.mp (Option.some.inj hphase)).2.symm
  | advance fails hash id now =>
    obtain ⟨adminEmail, phase, hphase, hs⟩ := seedStep_advance hs
    obtain ⟨ok, rfl⟩ := advance_of_users fails hash id now husers (hrun _ _ hphase) hs
    refine ⟨husers, hcredentials, fun email phase hphase ↦ .inr ⟨ok, ?_⟩⟩
    exact (Prod.ext_iff.mp (Option.some.inj hphase)).2.symm
  | kill =>
    obtain rfl := Option.some.inj hs
    exact ⟨husers, hcredentials, nofun⟩

/-- Once a call has returned nil, the admin can log in if and only if no call has failed or been
killed after it had inserted the admin and before its credential was there. -/
theorem adminCanLogIn_iff_uninterrupted (steps : List SeedStep)
    (h : runSteps seedStep .init steps = some t) (hseeded : t.seeded = true) :
    AdminCanLogIn t ↔ RunMeets seedStep Uninterrupted .init steps := by
  rcases runMeets_or_lost (fun _ _ _ hI hl hs ↦ Seeding.step hI hl hs)
    (fun _ _ _ hI hl hs ↦ Seeding.lockedOut hI hl hs) (fun _ _ _ hL hs ↦ hL.step hs)
    (.before rfl rfl rfl rfl) h with ⟨hmeets, hI⟩ | ⟨hnot, -, hcredentials, -⟩
  · refine iff_of_true ?_ hmeets
    cases hI with
    | before husers hcredentials hnot hrun => exact absurd hseeded (by simp [hnot])
    | halfway husers hcredentials hnot hrun => exact absurd hseeded (by simp [hnot])
    | after hadmin hrun => exact hadmin
  · refine iff_of_false ?_ hnot
    rintro ⟨u, -, -, c, hc, -⟩
    rw [hcredentials] at hc
    contradiction

/-- The next step of a call that the store does not fail. -/
def demoAdvanceSeed : SeedStep := .advance false (some "hash") "u1" 0

/-- A start-up whose call returns at its fourth step, and a second one. -/
def demoSeeds : List SeedStep :=
  .start "admin@example.com" :: List.replicate 4 demoAdvanceSeed ++
    [.start "admin@example.com", demoAdvanceSeed]

/-- A start-up is killed once it has inserted the admin. -/
def killedSeed : List SeedStep :=
  .start "admin@example.com" :: List.replicate 3 demoAdvanceSeed ++
    [.kill, .start "admin@example.com", demoAdvanceSeed]

/-- The second start-up finds the admin that the first has inserted. -/
theorem adminCanLogIn_iff_uninterrupted_demo :
    ∃ t, runSteps seedStep .init demoSeeds = some t ∧ t.seeded = true ∧
      (AdminCanLogIn t ↔ RunMeets seedStep Uninterrupted .init demoSeeds) := by
  obtain ⟨t, ht, hseeded⟩ := (Option.any_eq_true _ _).mp (by decide +kernel :
    (runSteps seedStep .init demoSeeds).any (·.seeded) = true)
  exact ⟨t, ht, hseeded, adminCanLogIn_iff_uninterrupted demoSeeds ht hseeded⟩

/-- After a kill between the two insertions the next start-up returns nil, and there is no
credential. -/
theorem seeded_without_credential :
    ∃ t, runSteps seedStep .init killedSeed = some t ∧ t.seeded = true ∧ ¬ AdminCanLogIn t := by
  obtain ⟨t, ht, hseeded⟩ := (Option.any_eq_true _ _).mp (by decide +kernel :
    (runSteps seedStep .init killedSeed).any
      (fun t ↦ t.seeded && t.credentials.rows.isEmpty) = true)
  obtain ⟨hseeded, hcredentials⟩ := Bool.and_eq_true_iff.mp hseeded
  refine ⟨t, ht, hseeded, ?_⟩
  rintro ⟨u, -, -, c, hc, -⟩
  rw [List.isEmpty_iff.mp hcredentials] at hc
  contradiction

end Dockstack.Db
