import Dockstack.Db.Migrate
import Mathlib.Data.List.Nodup
import Mathlib.Data.List.Pairwise

/-!
# Runs of Migrate

Over every sequence of start-ups no script is committed twice, `schema_migrations` holds the
versions of the committed scripts, and a call that returns nil leaves nothing to do. The invariant
says what the loop knows of the snapshot that it took of the applied versions.
-/

namespace Dockstack.Db

open Dockstack.Base

namespace MigrationsFS

variable {fs : MigrationsFS} {f g : MigrationFile}

/-- A name belongs to one file. -/
theorem eq_of_name (hf : f ∈ fs.files) (hg : g ∈ fs.files) (h : f.name = g.name) : f = g :=
  List.inj_on_of_nodup_map fs.names_nodup hf hg h

/-- A version belongs to one file. -/
theorem eq_of_version {v : Int} (hf : f ∈ fs.files) (hg : g ∈ fs.files)
    (hfv : parseMigrationVersion f.name = some v) (hgv : parseMigrationVersion g.name = some v) :
    f = g := by
  have hdistinct := List.pairwise_filterMap.mp fs.versions_nodup
  have hsymm : Std.Symm fun f g : MigrationFile ↦ ∀ v, parseMigrationVersion f.name = some v →
      ∀ w, parseMigrationVersion g.name = some w → v ≠ w :=
    ⟨fun f g h v hv w hw ↦ (h w hw v hv).symm⟩
  by_contra hne
  exact hdistinct.forall hf hg hne v hfv v hgv rfl

/-- What is read is the content of a file. -/
theorem mem_of_readFile {name content : String} (h : fs.readFile name = some content) :
    ⟨name, content⟩ ∈ fs.files := by
  obtain ⟨f, hf, rfl⟩ := Option.map_eq_some_iff.mp h
  obtain rfl : f.name = name := by simpa using List.find?_some hf
  exact List.mem_of_find?_eq_some hf

/-- The sorted names are the files' names. -/
theorem mem_sortedNames {name : String} :
    name ∈ fs.sortedNames ↔ ∃ f ∈ fs.files, f.name = name := by
  rw [sortedNames, List.mem_insertionSort, List.mem_map]

/-- The sorted names ascend. -/
theorem pairwise_sortedNames : fs.sortedNames.Pairwise (· < ·) := by
  have hle : fs.sortedNames.Pairwise (· ≤ ·) := List.pairwise_insertionSort _ _
  have hne : fs.sortedNames.Pairwise (· ≠ ·) :=
    (List.perm_insertionSort _ _).nodup_iff.mpr fs.names_nodup
  exact hle.imp₂ (fun a b hab hne ↦ lt_of_le_of_ne hab hne) hne

end MigrationsFS

namespace MigrateDB

/-- What the loop knows when `names` are left: they ascend and come after the scripts of this
start-up, the snapshot has the versions of the scripts before it, and every other file is done. -/
structure Looping (db : MigrateDB) (applied : List Int) (names : List String) : Prop where
  created : db.versions.isSome = true
  sorted : names.Pairwise (· < ·)
  after : ∀ f ∈ db.since, ∀ name ∈ names, f.name < name
  sound : ∀ v ∈ applied, v ∈ db.versions.getD []
  complete : ∀ f ∈ db.committed, f ∈ db.since ∨
    ∃ v ∈ applied, parseMigrationVersion f.name = some v
  left : ∀ f ∈ db.fs.files, f ∈ db.committed ∨ f.name ∈ names

/-- What the loop knows while it applies a migration. -/
structure Applying (db : MigrateDB) (m : PendingMigration) : Prop where
  looping : db.Looping m.applied (m.name :: m.names)
  version : parseMigrationVersion m.name = some m.version
  fresh : m.version ∉ m.applied

/-- Nothing is left to do. -/
def Complete (db : MigrateDB) : Prop :=
  db.versions.isSome = true ∧ ∀ f ∈ db.fs.files, f ∈ db.committed

/-- What a call knows at each of its phases. -/
def Knows (db : MigrateDB) : MigratePhase → Prop
  | .creating => db.since = []
  | .querying => db.since = []
  | .scanning applied unread => db.since = [] ∧ db.versions.isSome = true ∧
      ∀ v, v ∈ applied ∨ v ∈ unread ↔ v ∈ db.versions.getD []
  | .listing applied => db.since = [] ∧ db.versions.isSome = true ∧
      ∀ v, v ∈ applied ↔ v ∈ db.versions.getD []
  | .looping applied names => db.Looping applied names
  | .opening m => db.Applying m
  | .applying _ m content => db.Applying m ∧ ⟨m.name, content⟩ ∈ db.fs.files
  | .returned ok => ok = true → db.Complete

/-- What holds of the database at any time. -/
structure Migrating (db : MigrateDB) : Prop where
  embedded : ∀ f ∈ db.committed, f ∈ db.fs.files
  once : (db.committed.map (·.name)).Nodup
  recorded : db.committed.map (fun f ↦ parseMigrationVersion f.name) =
    (db.versions.getD []).map some
  runStart : db.runStart ≤ db.committed.length
  ordered : db.since.Pairwise (fun f g ↦ f.name < g.name)

variable {db : MigrateDB} {m : PendingMigration} {content : String} {v : Int}

/-- A version is recorded if and only if a committed script has it. -/
theorem Migrating.mem_versions (h : db.Migrating) : v ∈ db.versions.getD [] ↔
    ∃ f ∈ db.committed, parseMigrationVersion f.name = some v := by
  have hmem : v ∈ db.versions.getD [] ↔ some v ∈ (db.versions.getD []).map some := by simp
  rw [hmem, ← h.recorded, List.mem_map]

/-- The version of a committed script is recorded. -/
theorem Migrating.exists_version (h : db.Migrating) {f : MigrationFile} (hf : f ∈ db.committed) :
    ∃ v ∈ db.versions.getD [], parseMigrationVersion f.name = some v := by
  have hmem : parseMigrationVersion f.name ∈ (db.versions.getD []).map some :=
    h.recorded ▸ List.mem_map_of_mem hf
  obtain ⟨v, hv, heq⟩ := List.mem_map.mp hmem
  exact ⟨v, hv, heq.symm⟩

/-- A file whose version is recorded is committed. -/
theorem Migrating.mem_of_recorded (h : db.Migrating) {f : MigrationFile} (hf : f ∈ db.fs.files)
    (hv : parseMigrationVersion f.name = some v) (hrec : v ∈ db.versions.getD []) :
    f ∈ db.committed := by
  obtain ⟨g, hg, hgv⟩ := h.mem_versions.mp hrec
  rwa [MigrationsFS.eq_of_version hf (h.embedded g hg) hv hgv]

/-- The script that is being applied has not been committed before. -/
theorem Applying.not_committed (hm : db.Applying m) : ∀ f ∈ db.committed, f.name ≠ m.name := by
  intro f hf hname
  rcases hm.looping.complete f hf with hsince | ⟨v, hv, hfv⟩
  · have hlt := hm.looping.after f hsince m.name List.mem_cons_self
    rw [hname] at hlt
    exact lt_irrefl _ hlt
  · rw [hname, hm.version] at hfv
    exact hm.fresh (Option.some.inj hfv ▸ hv)

private theorem Knows.next (phase : MigratePhase) (h : db.Knows phase) (outcome : CallOutcome) :
    db.Knows (outcome.next phase) := by
  unfold CallOutcome.next
  split
  · exact h
  · exact nofun

private theorem Migrating.looping_sortedNames (h : db.Migrating) {applied : List Int}
    (hsince : db.since = []) (hcreated : db.versions.isSome = true)
    (happlied : ∀ v, v ∈ applied ↔ v ∈ db.versions.getD []) :
    db.Looping applied db.fs.sortedNames where
  created := hcreated
  sorted := MigrationsFS.pairwise_sortedNames
  after f hf := by
    rw [hsince] at hf
    contradiction
  sound v hv := (happlied v).mp hv
  complete f hf := by
    obtain ⟨v, hv, hfv⟩ := h.exists_version hf
    exact .inr ⟨v, (happlied v).mpr hv, hfv⟩
  left f hf := .inr (MigrationsFS.mem_sortedNames.mpr ⟨f, hf, rfl⟩)

private theorem Migrating.skip (h : db.Migrating) {applied : List Int} {name : String}
    {names : List String} (hl : db.Looping applied (name :: names))
    (hv : parseMigrationVersion name = some v) (happlied : v ∈ applied) :
    db.Looping applied names where
  created := hl.created
  sorted := (List.pairwise_cons.mp hl.sorted).2
  after f hf name' hname := hl.after f hf name' (List.mem_cons_of_mem _ hname)
  sound := hl.sound
  complete := hl.complete
  left f hf := by
    rcases hl.left f hf with hdone | hleft
    · exact .inl hdone
    · rcases List.mem_cons.mp hleft with rfl | hleft
      · exact .inl (h.mem_of_recorded hf hv (hl.sound v happlied))
      · exact .inr hleft

private theorem since_commit (h : db.runStart ≤ db.committed.length) :
    (db.commit m content).since = db.since ++ [⟨m.name, content⟩] :=
  List.drop_append_of_le_length h

private theorem Applying.commit (hm : db.Applying m) (hmem : ⟨m.name, content⟩ ∈ db.fs.files)
    (hstart : db.runStart ≤ db.committed.length) :
    (db.commit m content).Looping m.applied m.names where
  created := rfl
  sorted := (List.pairwise_cons.mp hm.looping.sorted).2
  after f hf name hname := by
    rw [since_commit hstart] at hf
    rcases List.mem_append.mp hf with hf | hf
    · exact hm.looping.after f hf name (List.mem_cons_of_mem _ hname)
    · obtain rfl := List.mem_singleton.mp hf
      exact (List.pairwise_cons.mp hm.looping.sorted).1 name hname
  sound v hv := List.mem_append_left _ (hm.looping.sound v hv)
  complete f hf := by
    rw [since_commit hstart]
    rcases List.mem_append.mp hf with hf | hf
    · exact (hm.looping.complete f hf).imp_left (List.mem_append_left _)
    · exact .inl (List.mem_append_right _ hf)
  left f hf := by
    rcases hm.looping.left f hf with hdone | hleft
    · exact .inl (List.mem_append_left _ hdone)
    · rcases List.mem_cons.mp hleft with hname | hleft
      · refine .inl (List.mem_append_right _ (List.mem_singleton.mpr ?_))
        exact MigrationsFS.eq_of_name hf hmem hname
      · exact .inr hleft

private theorem Migrating.commit (h : db.Migrating) (hm : db.Applying m)
    (hmem : ⟨m.name, content⟩ ∈ db.fs.files) : (db.commit m content).Migrating where
  embedded f hf := by
    rcases List.mem_append.mp hf with hf | hf
    · exact h.embedded f hf
    · rwa [List.mem_singleton.mp hf]
  once := by
    rw [MigrateDB.commit, List.map_append, List.nodup_append]
    refine ⟨h.once, List.nodup_singleton _, fun name hname name' hname' ↦ ?_⟩
    obtain ⟨f, hf, rfl⟩ := List.mem_map.mp hname
    obtain rfl := List.mem_singleton.mp hname'
    exact hm.not_committed f hf
  recorded := by simp [MigrateDB.commit, h.recorded, hm.version]
  runStart := by
    have hstart := h.runStart
    simp only [MigrateDB.commit, List.length_append, List.length_singleton]
    omega
  ordered := by
    rw [since_commit h.runStart, List.pairwise_append]
    refine ⟨h.ordered, List.pairwise_singleton _ _, fun f hf g hg ↦ ?_⟩
    rw [List.mem_singleton.mp hg]
    exact hm.looping.after f hf m.name List.mem_cons_self

private theorem Migrating.apply (h : db.Migrating) (outcome : CallOutcome)
    (hm : db.Applying m) (hmem : ⟨m.name, content⟩ ∈ db.fs.files) (stmt : MigrationStmt) :
    (db.apply outcome m content stmt).1.Migrating ∧
      (db.apply outcome m content stmt).1.Knows (db.apply outcome m content stmt).2 := by
  cases stmt with
  | begin => exact ⟨h, Knows.next (.applying .exec m content) ⟨hm, hmem⟩ outcome⟩
  | exec => exact ⟨h, Knows.next (.applying .insert m content) ⟨hm, hmem⟩ outcome⟩
  | insert =>
    simp only [MigrateDB.apply]
    split
    · exact ⟨h, nofun⟩
    · exact ⟨h, Knows.next (.applying .commit m content) ⟨hm, hmem⟩ outcome⟩
  | commit =>
    simp only [MigrateDB.apply]
    split
    · exact ⟨h, nofun⟩
    · exact ⟨h.commit hm hmem, Knows.next (.looping m.applied m.names)
        (hm.commit hmem h.runStart) outcome⟩

/-- The next call of `Migrate`. -/
theorem Migrating.advance (h : db.Migrating) (outcome : CallOutcome) {phase : MigratePhase}
    (hphase : db.Knows phase) : (db.advance outcome phase).1.Migrating ∧
      (db.advance outcome phase).1.Knows (db.advance outcome phase).2 := by
  cases phase with
  | creating =>
    simp only [MigrateDB.advance]
    split
    · exact ⟨h, nofun⟩
    · have hquerying : ({ db with versions := some (db.versions.getD []) } : MigrateDB).Knows
          .querying := hphase
      exact ⟨⟨h.embedded, h.once, h.recorded, h.runStart, h.ordered⟩,
        hquerying.next .querying outcome⟩
  | querying =>
    simp only [MigrateDB.advance]
    split
    · exact ⟨h, nofun⟩
    · next versions hversions =>
      refine ⟨h, Knows.next (.scanning [] versions) ⟨hphase, ?_, fun v ↦ ?_⟩ outcome⟩
      · rw [hversions, Option.isSome_some]
      · simp [hversions]
  | scanning applied unread =>
    obtain ⟨hsince, hcreated, happlied⟩ := hphase
    cases unread with
    | nil =>
      refine ⟨h, Knows.next (.listing applied) ⟨hsince, hcreated, fun v ↦ ?_⟩ outcome⟩
      simpa using happlied v
    | cons w unread =>
      refine ⟨h, Knows.next (.scanning (w :: applied) unread)
        ⟨hsince, hcreated, fun v ↦ ?_⟩ outcome⟩
      rw [← happlied v, List.mem_cons, List.mem_cons, or_assoc, or_left_comm]
  | listing applied =>
    obtain ⟨hsince, hcreated, happlied⟩ := hphase
    exact ⟨h, Knows.next (.looping applied db.fs.sortedNames)
      (h.looping_sortedNames hsince hcreated happlied) outcome⟩
  | looping applied names =>
    have hl : db.Looping applied names := hphase
    cases names with
    | nil =>
      refine ⟨h, fun _ ↦ ⟨hl.created, fun f hf ↦ ?_⟩⟩
      exact (hl.left f hf).resolve_right (List.not_mem_nil)
    | cons name names =>
      simp only [MigrateDB.advance]
      split
      · exact ⟨h, nofun⟩
      · next version hversion =>
        split
        · next happlied => exact ⟨h, h.skip hl hversion happlied⟩
        · next hfresh => exact ⟨h, ⟨hl, hversion, hfresh⟩⟩
  | opening m =>
    simp only [MigrateDB.advance]
    split
    · exact ⟨h, nofun⟩
    · next content hread =>
      exact ⟨h, Knows.next (.applying .begin m content)
        ⟨hphase, MigrationsFS.mem_of_readFile hread⟩ outcome⟩
  | applying stmt m content => exact h.apply outcome hphase.1 hphase.2 stmt
  | returned ok => exact ⟨h, hphase⟩

/-- Where nothing is left to do, a call changes nothing. -/
theorem Complete.advance (h : db.Complete) (outcome : CallOutcome) {phase : MigratePhase}
    (hphase : db.Knows phase) : (db.advance outcome phase).1 = db := by
  cases phase with
  | creating =>
    obtain ⟨versions, hversions⟩ := Option.isSome_iff_exists.mp h.1
    simp only [MigrateDB.advance]
    split
    · rfl
    · rw [hversions, Option.getD_some, ← hversions]
  | querying =>
    simp only [MigrateDB.advance]
    split <;> rfl
  | scanning applied unread => cases unread <;> rfl
  | listing applied => rfl
  | looping applied names =>
    cases names with
    | nil => rfl
    | cons name names =>
      simp only [MigrateDB.advance]
      split
      · rfl
      · split <;> rfl
  | opening m =>
    simp only [MigrateDB.advance]
    split <;> rfl
  | applying stmt m content =>
    exact absurd rfl (hphase.1.not_committed _ (h.2 _ hphase.2))
  | returned ok => rfl

end MigrateDB

/-- The invariant of all start-ups. -/
structure Migrating (s : MigrateState) : Prop where
  db : s.db.Migrating
  knows : ∀ phase ∈ s.run, s.db.Knows phase

variable {s s' t : MigrateState} {l : MigrateStep}

/-- Nothing is committed at first. -/
theorem Migrating.init : Migrating .init where
  db := ⟨fun _ hf ↦ absurd hf List.not_mem_nil, List.nodup_nil, rfl, le_rfl, List.Pairwise.nil⟩
  knows _ hphase := absurd hphase (Option.not_mem_none _)

private theorem migrateStep_start {fs : MigrationsFS} (hs : migrateStep s (.start fs) = some s') :
    (∀ f ∈ s.db.fs.files, f ∈ fs.files) ∧
      s' = ⟨{ s.db with fs := fs, runStart := s.db.committed.length }, some .creating⟩ := by
  simp only [migrateStep] at hs
  split at hs
  · next hstart => exact ⟨hstart.2, (Option.some.inj hs).symm⟩
  · contradiction

private theorem migrateStep_advance {outcome : CallOutcome}
    (hs : migrateStep s (.advance outcome) = some s') : ∃ phase, s.run = some phase ∧
      s' = ⟨(s.db.advance outcome phase).1, some (s.db.advance outcome phase).2⟩ := by
  simp only [migrateStep] at hs
  split at hs
  · contradiction
  · next phase hphase => exact ⟨phase, hphase, (Option.some.inj hs).symm⟩

/-- A step keeps the invariant. -/
theorem Migrating.step (h : Migrating s) (hs : migrateStep s l = some s') : Migrating s' := by
  cases l with
  | start fs =>
    obtain ⟨hfiles, rfl⟩ := migrateStep_start hs
    have hsince : ({ s.db with fs := fs, runStart := s.db.committed.length } :
        MigrateDB).since = [] := List.drop_length
    refine ⟨⟨fun f hf ↦ hfiles f (h.db.embedded f hf), h.db.once, h.db.recorded, le_rfl, ?_⟩,
      fun phase hphase ↦ ?_⟩
    · rw [hsince]
      exact List.Pairwise.nil
    · obtain rfl := Option.some.inj hphase
      exact hsince
  | advance outcome =>
    obtain ⟨phase, hphase, rfl⟩ := migrateStep_advance hs
    obtain ⟨hdb, hknows⟩ := h.db.advance outcome (h.knows phase hphase)
    refine ⟨hdb, fun phase' hphase' ↦ ?_⟩
    obtain rfl := Option.some.inj hphase'
    exact hknows
  | kill =>
    obtain rfl := Option.some.inj hs
    exact ⟨h.db, nofun⟩

/-- Where nothing is left to do, a step changes neither `schema_migrations` nor the scripts that
are committed, unless it embeds more files. -/
theorem Migrating.step_of_complete (h : Migrating s) (hcomplete : s.db.Complete)
    (hl : ∀ fs, l = .start fs → ∀ f ∈ fs.files, f ∈ s.db.fs.files)
    (hs : migrateStep s l = some s') : s'.db.Complete ∧ s'.db.versions = s.db.versions ∧
      s'.db.committed = s.db.committed ∧ ∀ f ∈ s.db.fs.files, f ∈ s'.db.fs.files := by
  cases l with
  | start fs =>
    obtain ⟨hfiles, rfl⟩ := migrateStep_start hs
    exact ⟨⟨hcomplete.1, fun f hf ↦ hcomplete.2 f (hl fs rfl f hf)⟩, rfl, rfl, hfiles⟩
  | advance outcome =>
    obtain ⟨phase, hphase, rfl⟩ := migrateStep_advance hs
    rw [hcomplete.advance outcome (h.knows phase hphase)]
    exact ⟨hcomplete, rfl, rfl, fun f hf ↦ hf⟩
  | kill =>
    obtain rfl := Option.some.inj hs
    exact ⟨hcomplete, rfl, rfl, fun f hf ↦ hf⟩

/-- Whatever fails and whenever the process is killed: no script is committed twice,
`schema_migrations` holds the versions of the committed scripts, the scripts of one start-up are
committed in the order of their names, and after a call that returns nil every embedded script is
committed and further start-ups with these files change nothing. -/
theorem migrations_exactly_once (steps : List MigrateStep)
    (hs : runSteps migrateStep .init steps = some s) :
    (s.db.committed.map (·.name)).Nodup ∧
    (∀ v, v ∈ s.db.versions.getD [] ↔
      ∃ f ∈ s.db.committed, parseMigrationVersion f.name = some v) ∧
    s.db.since.Pairwise (fun f g ↦ f.name < g.name) ∧
    (s.run = some (.returned true) → (∀ f ∈ s.db.fs.files, f ∈ s.db.committed) ∧
      ∀ steps' t, (∀ fs, MigrateStep.start fs ∈ steps' → ∀ f ∈ fs.files, f ∈ s.db.fs.files) →
        runSteps migrateStep s steps' = some t →
        t.db.versions = s.db.versions ∧ t.db.committed = s.db.committed) := by
  have hinv : Migrating s := runSteps_invariant (fun _ _ _ h hs ↦ h.step hs)
    .init hs
  refine ⟨hinv.db.once, fun v ↦ hinv.db.mem_versions, hinv.db.ordered, fun hreturned ↦ ?_⟩
  have hcomplete : s.db.Complete := hinv.knows _ hreturned rfl
  refine ⟨hcomplete.2, fun steps' t hfiles ht ↦ ?_⟩
  have hmeets : RunMeets migrateStep (fun _ l ↦ ∀ fs, l = .start fs →
      ∀ f ∈ fs.files, f ∈ s.db.fs.files) s steps' := by
    refine RunMeets.of_forall (fun l hl _ fs hfs ↦ hfiles fs ?_) s
    exact hfs ▸ hl
  obtain ⟨-, -, hversions, hcommitted, -⟩ : Migrating t ∧ t.db.Complete ∧
      t.db.versions = s.db.versions ∧ t.db.committed = s.db.committed ∧
      ∀ f ∈ s.db.fs.files, f ∈ t.db.fs.files := by
    refine runSteps_invariant_of_meets (I := fun u ↦ Migrating u ∧ u.db.Complete ∧
      u.db.versions = s.db.versions ∧ u.db.committed = s.db.committed ∧
      ∀ f ∈ s.db.fs.files, f ∈ u.db.fs.files) ?_ ⟨hinv, hcomplete, rfl, rfl, fun f hf ↦ hf⟩
      hmeets ht
    rintro u l u' ⟨hu, hdone, hversions, hcommitted, hkept⟩ hl hstep
    obtain ⟨hdone', hversions', hcommitted', hkept'⟩ :=
      hu.step_of_complete hdone (fun fs hfs f hf ↦ hkept f (hl fs hfs f hf)) hstep
    exact ⟨hu.step hstep, hdone', hversions'.trans hversions, hcommitted'.trans hcommitted,
      fun f hf ↦ hkept' f (hkept f hf)⟩
  exact ⟨hversions, hcommitted⟩

/-- Two scripts. -/
def demoMigrationsFS : MigrationsFS where
  files := [⟨"0002_keys.sql", "CREATE TABLE keys"⟩, ⟨"0001_init.sql", "CREATE TABLE users"⟩]
  names_nodup := by decide +kernel
  versions_nodup := by decide +kernel

/-- A start-up that is killed in the transaction of the second script, and another one. -/
def demoMigrations : List MigrateStep :=
  .start demoMigrationsFS :: List.replicate 13 (.advance .ok) ++
    .kill :: .start demoMigrationsFS :: List.replicate 14 (.advance .ok)

/-- The second start-up commits the script that the kill has rolled back, and no other. -/
theorem migrations_exactly_once_demo :
    ∃ s, runSteps migrateStep .init demoMigrations = some s ∧ s.run = some (.returned true) ∧
      (s.db.committed.map (·.name)).Nodup ∧ ∀ f ∈ s.db.fs.files, f ∈ s.db.committed := by
  obtain ⟨s, hs, hrun⟩ := (Option.any_eq_true _ _).mp (by decide +kernel :
    (runSteps migrateStep .init demoMigrations).any
      (fun s ↦ s.run = some (.returned true)) = true)
  obtain ⟨honce, -, -, hreturned⟩ := migrations_exactly_once demoMigrations hs
  exact ⟨s, hs, of_decide_eq_true hrun, honce, (hreturned (of_decide_eq_true hrun)).1⟩

/-- The scripts of the second start-up. -/
example : (runSteps migrateStep .init demoMigrations).map (fun s ↦ s.db.since.map (·.name)) =
    some ["0002_keys.sql"] := by
  decide +kernel

end Dockstack.Db
