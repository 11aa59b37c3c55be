import Dockstack.Server.OAuthLink

/-!
# Users without an account

`findOrLinkOAuthUser` (`internal/server/api/auth/oauth.go:178–197`) creates a user and links the
account in two statements without a transaction. If a statement after the creation fails, the call
returns an error and its user stays behind, with the email. A statement fails when the database
does, and the link also when another call has linked the pair in between.
-/

namespace Dockstack.Server

open Dockstack.Base Dockstack.Auth

/-- The call has returned an error. -/
def OAuthLogin.Failed (a : OAuthLogin) : Prop := ∃ e, a.phase = .returned (.error e)

/-- The next statement of the call succeeds, if it comes after the creation of a user: the database
does not fail, the new account id is not taken, and nobody has linked the pair. -/
def LinkSucceeds (db : OAuthDB) (fails : OAuthFailures) (id : String) (a : OAuthLogin) : Prop :=
  match a.phase with
  | .loadingNew _ => fails .getUserByID = false
  | .linking _ => fails .insertOAuthAccount = false ∧ ∀ r ∈ db.accounts.rows, r.id ≠ id ∧
      ¬ (r.providerID = a.call.providerID ∧ r.providerUserID = a.call.sub)
  | _ => True

/-- A step of a call that has created its user does not fail. -/
def KeepsCreated (s : OAuthState) : OAuthStep → Prop
  | .advance n fails id _ =>
    ∀ a ∈ s.logins[n]?, a.created.isSome = true → LinkSucceeds s.db fails id a
  | _ => True

instance (db : OAuthDB) (fails : OAuthFailures) (id : String) :
    ∀ a, Decidable (LinkSucceeds db fails id a)
  | ⟨_, .loadingNew _, _⟩ => inferInstanceAs (Decidable (_ = _))
  | ⟨_, .linking _, _⟩ => inferInstanceAs (Decidable (_ ∧ _))
  | ⟨_, .lookingUp, _⟩ => .isTrue trivial
  | ⟨_, .loading _, _⟩ => .isTrue trivial
  | ⟨_, .finding, _⟩ => .isTrue trivial
  | ⟨_, .creating, _⟩ => .isTrue trivial
  | ⟨_, .returned _, _⟩ => .isTrue trivial

instance (s : OAuthState) : ∀ l, Decidable (KeepsCreated s l)
  | .advance n fails id _ => inferInstanceAs (Decidable (∀ a ∈ s.logins[n]?,
      a.created.isSome = true → LinkSucceeds s.db fails id a))
  | .login _ => .isTrue trivial
  | .changeEmail .. => .isTrue trivial

/-- A user that a failed call has added and that no successful call returns. -/
def Orphan (s : OAuthState) (userID : String) : Prop :=
  (∃ a ∈ s.logins, a.Failed ∧ a.created = some userID) ∧
    ∀ a ∈ s.logins, ∀ user, a.phase = .returned (.ok user) → user.id ≠ userID

/-- A user has this id. -/
def HasUser (db : OAuthDB) (userID : String) : Prop := ∃ r ∈ db.users.rows, r.id = userID

/-- The user that the call needs to be there. -/
def OAuthPhase.needs : OAuthPhase → Option String
  | .loadingNew userID => some userID
  | .linking user => some user.id
  | _ => none

/-- The call is past the creation of its user, or has returned. -/
def OAuthPhase.late : OAuthPhase → Bool
  | .loadingNew _ => true
  | .linking _ => true
  | .returned _ => true
  | _ => false

/-- What a call that has not failed knows of the users. -/
structure OAuthLogin.Sound (db : OAuthDB) (a : OAuthLogin) : Prop where
  needs : ∀ userID ∈ a.phase.needs, HasUser db userID
  late : a.created.isSome = true → a.phase.late = true
  kept : a.Failed → a.created = none

/-- No failed call has added a user. -/
def NoneLeft (s : OAuthState) : Prop := ∀ a ∈ s.logins, a.Sound s.db

/-- A failed call has added a user. -/
def UserLeft (s : OAuthState) : Prop := ∃ a ∈ s.logins, a.Failed ∧ a.created.isSome = true

variable {s s' t : OAuthState} {db db' : OAuthDB} {l : OAuthStep}

/-- Users are not taken away. -/
theorem OAuthLogin.Sound.mono {a : OAuthLogin} (h : a.Sound db)
    (husers : ∀ userID, HasUser db userID → HasUser db' userID) : a.Sound db' where
  needs userID hu := husers userID (h.needs userID hu)
  late := h.late
  kept := h.kept

private theorem OAuthLogin.Sound.created_eq_none {a : OAuthLogin} (h : a.Sound db)
    (hlate : a.phase.late = false) : a.created = none := by
  cases hc : a.created with
  | none => rfl
  | some userID =>
    have htrue := h.late (by rw [hc]; rfl)
    rw [hlate] at htrue
    contradiction

section

variable {fails : OAuthFailures} {id : String} {now : Int} {a a' : OAuthLogin}

/-- A statement takes no user away and adds the one that its call creates at most. -/
theorem LoginEffect.users (he : LoginEffect db fails id now a db' a') :
    (∀ userID, HasUser db userID → HasUser db' userID) ∧
      (∀ userID, HasUser db' userID → HasUser db userID ∨ a'.created = some userID) ∧
      (a.phase.late = true → a'.created = a.created) := by
  cases he with
  | created hp hq =>
    have hmem := (createUser_eq_some hq).2
    refine ⟨fun userID ⟨r, hr, hid⟩ ↦ ⟨r, (hmem r).mpr (.inr hr), hid⟩, ?_, ?_⟩
    · rintro userID ⟨r, hr, rfl⟩
      rcases (hmem r).mp hr with rfl | hr
      · exact .inr rfl
      · exact .inl ⟨r, hr, rfl⟩
    · rw [hp]
      exact nofun
  | linked hp hq =>
    simp only [HasUser, (linkOAuthAccount_eq_some hq).1]
    exact ⟨fun _ hu ↦ hu, fun _ hu ↦ .inl hu, fun _ ↦ trivial⟩
  | _ => exact ⟨fun _ hu ↦ hu, fun _ hu ↦ .inl hu, fun _ ↦ rfl⟩

/-- A call stays past the creation. -/
theorem LoginEffect.late (he : LoginEffect db fails id now a db' a')
    (h : a.created.isSome = true → a.phase.late = true) :
    a'.created.isSome = true → a'.phase.late = true := by
  cases he with
  | found hp hq =>
    rw [hp] at h
    exact fun hc ↦ absurd (h hc) nofun
  | notFound hp =>
    rw [hp] at h
    exact fun hc ↦ absurd (h hc) nofun
  | loaded hp hq => exact fun _ ↦ rfl
  | unknown hp =>
    rw [hp] at h
    exact fun hc ↦ absurd (h hc) nofun
  | returned hp => exact h
  | _ => exact fun _ ↦ rfl

/-- A call that has created its user and whose next statement succeeds has not failed. -/
theorem LoginEffect.sound (he : LoginEffect db fails id now a db' a') (h : a.Sound db)
    (hkeeps : a.created.isSome = true → LinkSucceeds db fails id a) : a'.Sound db' := by
  have hlate := he.late h.late
  cases he with
  | found hp hq => exact ⟨nofun, hlate, nofun⟩
  | notFound hp => exact ⟨nofun, hlate, nofun⟩
  | loaded hp hq => exact ⟨nofun, hlate, nofun⟩
  | unknown hp => exact ⟨nofun, hlate, nofun⟩
  | known hp hq =>
    refine ⟨fun userID hu ↦ ?_, hlate, nofun⟩
    obtain rfl := Option.some.inj hu
    exact userByEmail_eq_some hq
  | created hp hq =>
    refine ⟨fun userID hu ↦ ?_, hlate, nofun⟩
    obtain rfl := Option.some.inj hu
    exact ⟨_, ((createUser_eq_some hq).2 _).mpr (.inl rfl), rfl⟩
  | loadedNew hp hq =>
    refine ⟨fun userID hu ↦ ?_, hlate, nofun⟩
    obtain rfl := Option.some.inj hu
    obtain ⟨hid, hmem⟩ := oauthGetUserByID_eq_some hq
    rw [hid]
    exact hmem
  | linked hp hq => exact ⟨nofun, hlate, nofun⟩
  | failed hp =>
    refine ⟨nofun, hlate, fun _ ↦ h.created_eq_none ?_⟩
    rcases hp with ⟨userID, hp⟩ | hp | hp
    · rw [hp]
      rfl
    · rw [hp]
      rfl
    · rw [hp]
      rfl
  | @failedNew userID hp hq =>
    refine ⟨nofun, hlate, fun _ ↦ Option.not_isSome_iff_eq_none.mp fun hc ↦ ?_⟩
    -- the user is there, so only a failing query keeps it from being loaded
    have hfails := hkeeps hc
    simp only [LinkSucceeds, hp] at hfails
    obtain ⟨r, hr, hid⟩ := h.needs userID (by rw [hp]; rfl)
    simp only [oauthGetUserByID, hfails, Bool.false_eq_true, if_false, Option.map_eq_none_iff,
      List.find?_eq_none] at hq
    exact absurd (beq_iff_eq.mpr hid) (hq r hr)
  | @failedLink user hp hq =>
    refine ⟨nofun, hlate, fun _ ↦ Option.not_isSome_iff_eq_none.mp fun hc ↦ ?_⟩
    have hsucceeds := hkeeps hc
    simp only [LinkSucceeds, hp] at hsucceeds
    have huser := h.needs user.id (by rw [hp]; rfl)
    obtain ⟨db', hdb'⟩ := exists_linkOAuthAccount a.call.email now hsucceeds.1 huser hsucceeds.2
    rw [hdb'] at hq
    contradiction
  | returned hp => exact h

/-- A call that has created its user and whose next statement does not succeed fails. -/
theorem LoginEffect.breaks (he : LoginEffect db fails id now a db' a')
    (hbreach : ¬ LinkSucceeds db fails id a) : a'.Failed := by
  cases he with
  | loadedNew hp hq =>
    simp only [LinkSucceeds, hp, Bool.not_eq_false] at hbreach
    rw [oauthGetUserByID, if_pos hbreach] at hq
    contradiction
  | linked hp hq =>
    simp only [LinkSucceeds, hp] at hbreach
    exact absurd (linkOAuthAccount_succeeds hq) hbreach
  | failed hp => exact ⟨_, rfl⟩
  | failedNew hp hq => exact ⟨_, rfl⟩
  | failedLink hp hq => exact ⟨_, rfl⟩
  | found hp hq => simp [LinkSucceeds, hp] at hbreach
  | notFound hp => simp [LinkSucceeds, hp] at hbreach
  | loaded hp hq => simp [LinkSucceeds, hp] at hbreach
  | unknown hp => simp [LinkSucceeds, hp] at hbreach
  | known hp hq => simp [LinkSucceeds, hp] at hbreach
  | created hp hq => simp [LinkSucceeds, hp] at hbreach
  | returned hp => simp [LinkSucceeds, hp] at hbreach

end

/-- A call that has failed stays where it is. -/
theorem advance_of_failed {a : OAuthLogin} (h : a.Failed) (fails : OAuthFailures) (id : String)
    (now : Int) : (a.advance db fails id now).2 = a := by
  obtain ⟨e, he⟩ := h
  obtain ⟨call, phase, created⟩ := a
  obtain rfl : phase = .returned (.error e) := he
  rfl

private theorem changeEmail_users (db : OAuthDB) (fails : OAuthFailures) (userID email : String)
    (now : Int) (userID' : String) :
    HasUser ((changeEmail db fails userID email now).getD db) userID' ↔ HasUser db userID' := by
  cases hchange : changeEmail db fails userID email now with
  | none => rfl
  | some db' =>
    obtain ⟨-, hkept, hold⟩ := changeEmail_eq_some hchange
    constructor
    · rintro ⟨r, hr, rfl⟩
      exact hold r hr
    · rintro ⟨r, hr, rfl⟩
      exact hkept r hr

/-- A step that keeps to the condition leaves no user of a failed call. -/
theorem NoneLeft.step (h : NoneLeft s) (hkeeps : KeepsCreated s l)
    (hs : oauthStep s l = some s') : NoneLeft s' := by
  cases l with
  | login call =>
    obtain rfl := Option.some.inj hs
    intro a ha
    rcases List.mem_append.mp ha with ha | ha
    · exact h a ha
    · rw [List.mem_singleton.mp ha]
      exact ⟨nofun, nofun, fun _ ↦ rfl⟩
  | advance n fails id now =>
    obtain ⟨a, hn, rfl⟩ := oauthStep_advance hs
    intro b hb
    rcases List.mem_or_eq_of_mem_set hb with hb | rfl
    · exact (h b hb).mono (advance_effect a s.db fails id now).users.1
    · have ha := h a (List.mem_of_getElem? hn)
      exact (advance_effect a s.db fails id now).sound ha (hkeeps a hn)
  | changeEmail fails userID email now =>
    obtain rfl := Option.some.inj hs
    exact fun a ha ↦ (h a ha).mono fun _ hu ↦ (changeEmail_users ..).mpr hu

/-- A step that breaks it leaves one. -/
theorem NoneLeft.breach (h : NoneLeft s) (hbreach : ¬ KeepsCreated s l)
    (hs : oauthStep s l = some s') : UserLeft s' := by
  cases l with
  | login call => exact absurd trivial hbreach
  | advance n fails id now =>
    simp only [KeepsCreated, not_forall] at hbreach
    obtain ⟨a, hn, hcreated, hnot⟩ := hbreach
    simp only [oauthStep, Option.mem_def.mp hn] at hs
    obtain rfl := Option.some.inj hs
    obtain ⟨hlt, -⟩ := List.getElem?_eq_some_iff.mp (Option.mem_def.mp hn)
    have he := advance_effect a s.db fails id now
    refine ⟨_, List.mem_set hlt _, he.breaks hnot, ?_⟩
    rw [he.users.2.2 ((h a (List.mem_of_getElem? hn)).late hcreated)]
    exact hcreated
  | changeEmail fails userID email now => exact absurd trivial hbreach

/-- A failed call and its user stay. -/
theorem UserLeft.step (h : UserLeft s) (hs : oauthStep s l = some s') : UserLeft s' := by
  obtain ⟨a, ha, hfailed, hcreated⟩ := h
  cases l with
  | login call =>
    obtain rfl := Option.some.inj hs
    exact ⟨a, List.mem_append_left _ ha, hfailed, hcreated⟩
  | advance n fails id now =>
    simp only [oauthStep] at hs
    split at hs
    · contradiction
    · next b hn =>
      obtain rfl := Option.some.inj hs
      refine ⟨a, ?_, hfailed, hcreated⟩
      obtain ⟨i, hi⟩ := List.mem_iff_getElem?.mp ha
      refine List.mem_iff_getElem?.mpr ⟨i, ?_⟩
      rw [List.getElem?_set]
      by_cases hni : n = i
      · subst hni
        obtain rfl := Option.some.inj (hn.symm.trans hi)
        obtain ⟨hlt, -⟩ := List.getElem?_eq_some_iff.mp hi
        rw [if_pos rfl, if_pos hlt, advance_of_failed hfailed]
      · rw [if_neg hni]
        exact hi
  | changeEmail fails userID email now =>
    obtain rfl := Option.some.inj hs
    exact ⟨a, ha, hfailed, hcreated⟩

/-- Every user was there at first or was created by a call. -/
def Accounted (db₀ : OAuthDB) (s : OAuthState) : Prop :=
  (∀ a ∈ s.logins, a.created.isSome = true → a.phase.late = true) ∧
    ∀ userID, HasUser s.db userID →
      HasUser db₀ userID ∨ ∃ a ∈ s.logins, a.created = some userID

/-- Every step keeps account of the users. -/
theorem Accounted.step {db₀ : OAuthDB} (h : Accounted db₀ s) (hs : oauthStep s l = some s') :
    Accounted db₀ s' := by
  cases l with
  | login call =>
    obtain rfl := Option.some.inj hs
    refine ⟨fun a ha ↦ ?_, fun userID hu ↦ ?_⟩
    · rcases List.mem_append.mp ha with ha | ha
      · exact h.1 a ha
      · rw [List.mem_singleton.mp ha]
        nofun
    · refine (h.2 userID hu).imp_right fun ⟨a, ha, hc⟩ ↦ ?_
      exact ⟨a, List.mem_append_left _ ha, hc⟩
  | advance n fails id now =>
    simp only [oauthStep] at hs
    split at hs
    · contradiction
    · next b hn =>
      obtain rfl := Option.some.inj hs
      have hb := h.1 b (List.mem_of_getElem? hn)
      have he := advance_effect b s.db fails id now
      obtain ⟨-, hnew, hcreated⟩ := he.users
      obtain ⟨hlt, -⟩ := List.getElem?_eq_some_iff.mp hn
      refine ⟨fun a ha ↦ ?_, fun userID hu ↦ ?_⟩
      · rcases List.mem_or_eq_of_mem_set ha with ha | rfl
        · exact h.1 a ha
        · exact he.late hb
      · rcases hnew userID hu with hu | hc
        · refine (h.2 userID hu).imp_right fun ⟨a, ha, hc⟩ ↦ ?_
          obtain ⟨i, hi⟩ := List.mem_iff_getElem?.mp ha
          by_cases hni : n = i
          · subst hni
            obtain rfl := Option.some.inj (hn.symm.trans hi)
            refine ⟨_, List.mem_set hlt _, ?_⟩
            rw [hcreated (hb (by rw [hc]; rfl)), hc]
          · refine ⟨a, List.mem_iff_getElem?.mpr ⟨i, ?_⟩, hc⟩
            rw [List.getElem?_set, if_neg hni]
            exact hi
        · exact .inr ⟨_, List.mem_set hlt _, hc⟩
  | changeEmail fails userID email now =>
    obtain rfl := Option.some.inj hs
    exact ⟨h.1, fun userID' hu ↦ h.2 userID' ((changeEmail_users ..).mp hu)⟩

/-- In every run, each user was there at first or was created by a call; and the calls that have
failed have created none exactly if no statement after the creation of a user fails. In such a run
no user is an orphan. -/
theorem failed_logins_leave_no_user (db : OAuthDB) (steps : List OAuthStep)
    (hrun : runSteps oauthStep (.init db) steps = some t) :
    (∀ userID, HasUser t.db userID →
      HasUser db userID ∨ ∃ a ∈ t.logins, a.created = some userID) ∧
    (RunMeets oauthStep KeepsCreated (.init db) steps ↔
      ∀ a ∈ t.logins, a.Failed → a.created = none) ∧
    (RunMeets oauthStep KeepsCreated (.init db) steps → ∀ userID, ¬ Orphan t userID) := by
  have haccounted : Accounted db t := by
    refine runSteps_invariant (I := Accounted db) (fun _ _ _ h hs ↦ h.step hs) ?_ hrun
    exact ⟨fun _ ha ↦ absurd ha List.not_mem_nil, fun _ hu ↦ .inl hu⟩
  have hcases : (RunMeets oauthStep KeepsCreated (.init db) steps ∧ NoneLeft t) ∨
      (¬ RunMeets oauthStep KeepsCreated (.init db) steps ∧ UserLeft t) := by
    refine runMeets_or_lost (fun _ _ _ h hP hs ↦ NoneLeft.step h hP hs)
      (fun _ _ _ h hP hs ↦ NoneLeft.breach h hP hs) (fun _ _ _ h hs ↦ UserLeft.step h hs) ?_ hrun
    exact fun _ ha ↦ absurd ha List.not_mem_nil
  refine ⟨haccounted.2, ?_, ?_⟩
  · rcases hcases with ⟨hmeets, hnone⟩ | ⟨hnot, a, ha, hfailed, hcreated⟩
    · exact iff_of_true hmeets fun a ha ↦ (hnone a ha).kept
    · refine iff_of_false hnot fun hall ↦ ?_
      rw [hall a ha hfailed] at hcreated
      contradiction
  · rcases hcases with ⟨-, hnone⟩ | ⟨hnot, -⟩
    · rintro - userID ⟨⟨a, ha, hfailed, hcreated⟩, -⟩
      rw [(hnone a ha).kept hfailed] at hcreated
      contradiction
    · exact fun hmeets ↦ absurd hmeets hnot

/-- Two first logins of one subject with different emails; each creates its user before either
links the pair. -/
def demoRace : List OAuthStep :=
  [.login ⟨"oidc", "sub", "a@example.com"⟩, .login ⟨"oidc", "sub", "b@example.com"⟩] ++
    [0, 0, 0, 0].map (demoAdvanceLogin (fun _ ↦ false) "u1") ++
    [1, 1, 1, 1, 1].map (demoAdvanceLogin (fun _ ↦ false) "u2") ++
    [demoAdvanceLogin (fun _ ↦ false) "l1" 0]

/-- One after the other, the logins leave nothing behind. -/
theorem failed_logins_leave_no_user_demo :
    ∃ t, runSteps oauthStep (.init ⟨Table.empty, Table.empty⟩) demoLogins = some t ∧
      ∀ userID, ¬ Orphan t userID := by
  obtain ⟨t, ht⟩ := Option.isSome_iff_exists.mp (by decide +kernel :
    (runSteps oauthStep (.init ⟨Table.empty, Table.empty⟩) demoLogins).isSome = true)
  exact ⟨t, ht, (failed_logins_leave_no_user _ demoLogins ht).2.2 (by decide +kernel)⟩

/-- The login that loses the race leaves a user that no login returns. -/
theorem race_leaves_orphan : ∃ t,
    runSteps oauthStep (.init ⟨Table.empty, Table.empty⟩) demoRace = some t ∧
      HasUser t.db "u1" ∧ Orphan t "u1" := by
  have hothers : ∀ t ∈ runSteps oauthStep (.init ⟨Table.empty, Table.empty⟩) demoRace,
      ∀ a ∈ t.logins, a.phase.user ≠ some "u1" := by
    decide +kernel
  refine ⟨_, rfl, ⟨_, List.mem_cons_of_mem _ List.mem_cons_self, rfl⟩,
    ⟨_, List.mem_cons_self, ⟨_, rfl⟩, rfl⟩, fun a ha user hphase hid ↦ ?_⟩
  refine hothers _ rfl a ha ?_
  rw [hphase, ← hid]
  rfl

end Dockstack.Server
