import Dockstack.Auth.PasskeyChallenges

/-!
# What a challenge is bound to

One table holds the challenges of registrations, which have an owner, and of logins, which have
none (`internal/auth/passkeys.go:201–248`). A finishing call gets past `loadChallenge` only with a
challenge that was issued to it: for its kind and its user, less than five minutes earlier, and
with the session data that was saved then. Once a deletion has succeeded, no call does.
-/

namespace Dockstack.Auth

open Dockstack.Base

variable {D C A : Type}

/-- The clock readings of a step, in the order in which they are taken. -/
def ChallengeStep.readings : ChallengeStep D → List Int
  | .beginCeremony _ _ _ _ now now' => [now, now']
  | .call _ => []
  | .advance _ _ _ now => [now]
  | .deletePasskey .. => []
  | .deleteExpiredChallenges now => [now]

/-- The kind of the challenges that a ceremony saves and loads; `passkeys.go:79`, `:88`, `:138`,
`:146`. -/
def FinishKind.name : FinishKind → String
  | .registration _ => "registration"
  | .authentication => "authentication"

/-- The user that a ceremony saves and loads challenges for, empty for none. -/
def FinishKind.userID : FinishKind → String
  | .registration userID => userID
  | .authentication => ""

/-- The row that a ceremony saves; `passkeys.go:202–219`. -/
def FinishKind.savedRow (kind : FinishKind) (raw : Bytes) (id : String) (now now' : Int) :
    ChallengeRow where
  id := id
  challenge := raw
  userID := if kind.userID ≠ "" then some kind.userID else none
  kind := kind.name
  expiresAt := unixMilli (now' + 5 * minute)
  createdAt := unixMilli now

/-- After the steps `pre` from `s₀`, a ceremony of this kind has begun and returned the challenge
`id`, with this session data; `issue` is the instant that its five minutes count from. -/
def Issued (w : WebAuthn D C A) (s₀ : ChallengeState D) (pre : List (ChallengeStep D))
    (kind : FinishKind) (id : String) (session : D) (issue : Int) : Prop :=
  ∃ before fails now s, TakenAt (challengeStep w) s₀ pre before
      (.beginCeremony kind fails (some session) id now issue) s ∧
    (kind.begin w s.db fails (some session) id now issue).isSome = true

/-- The row is the one that a ceremony has saved. -/
def SavedBy (w : WebAuthn D C A) (s₀ : ChallengeState D) (pre : List (ChallengeStep D))
    (r : ChallengeRow) : Prop :=
  ∃ kind session raw now issue, Issued w s₀ pre kind r.id session issue ∧
    w.marshalSession session = some raw ∧ r = kind.savedRow raw r.id now issue

/-- The call has loaded its challenge and has not deleted it yet. -/
def FinishPhase.inUse : FinishPhase D → Bool
  | .validating _ => true
  | .writing _ => true
  | .deleting _ => true
  | _ => false

/-- Where the challenges and the loaded session data come from. -/
structure Bound (w : WebAuthn D C A) (s₀ : ChallengeState D) (pre : List (ChallengeStep D))
    (s : ChallengeState D) : Prop where
  rows : ∀ r ∈ s.db.challenges.rows, SavedBy w s₀ pre r
  known : ∀ r ∈ s.db.challenges.rows, r.id ∈ s.issued
  named : ∀ a ∈ s.calls, a.1.kind ≠ .registration ""
  inUse : ∀ a ∈ s.calls, a.2.inUse = true → a.1.challengeID ∈ s.issued
  loaded : ∀ call session, (call, .validating session) ∈ s.calls →
    ∃ issue, Issued w s₀ pre call.kind call.challengeID session issue

variable {w : WebAuthn D C A} {s₀ s s' : ChallengeState D} {pre : List (ChallengeStep D)}

/-- What was issued stays issued. -/
theorem Issued.append {kind : FinishKind} {id : String} {session : D} {issue : Int}
    (h : Issued w s₀ pre kind id session issue) (l : ChallengeStep D) :
    Issued w s₀ (pre ++ [l]) kind id session issue := by
  obtain ⟨before, fails, now, s, ⟨⟨after, rfl⟩, hrun⟩, hsome⟩ := h
  exact ⟨before, fails, now, s, ⟨⟨after ++ [l], by simp⟩, hrun⟩, hsome⟩

/-- The instant of an issue is among the clock readings. -/
theorem Issued.mem_readings {kind : FinishKind} {id : String} {session : D} {issue : Int}
    (h : Issued w s₀ pre kind id session issue) :
    issue ∈ pre.flatMap ChallengeStep.readings := by
  obtain ⟨before, fails, now, s, ⟨⟨after, rfl⟩, -⟩, -⟩ := h
  simp [ChallengeStep.readings]

/-- A ceremony that succeeds adds its row to the challenges. -/
theorem begin_eq_some {kind : FinishKind} {db db' : PasskeyDB} {fails : PasskeyFailures}
    {session : Option D} {id : String} {now now' : Int}
    (h : kind.begin w db fails session id now now' = some db') :
    ∃ d raw, session = some d ∧ w.marshalSession d = some raw ∧
      ∀ r ∈ db'.challenges.rows, r = kind.savedRow raw id now now' ∨ r ∈ db.challenges.rows := by
  have hsave {d : D} (h : saveChallenge w db fails kind.userID kind.name d id now now' = some db') :
      ∃ raw, w.marshalSession d = some raw ∧
        ∀ r ∈ db'.challenges.rows, r = kind.savedRow raw id now now' ∨ r ∈ db.challenges.rows := by
    unfold saveChallenge at h
    split at h
    · contradiction
    · next raw hraw =>
      dsimp only at h
      generalize huid : (if kind.userID ≠ "" then some kind.userID else none) = uid at h
      split at h
      · contradiction
      · obtain ⟨challenges, hinsert, rfl⟩ := Option.map_eq_some_iff.mp h
        subst huid
        exact ⟨raw, hraw, fun r hr ↦ (Table.mem_insert hinsert r).mp hr⟩
  cases kind with
  | registration userID =>
    simp only [FinishKind.begin, beginRegistration] at h
    split at h
    · next d _ _ =>
      obtain ⟨raw, hraw, hrows⟩ := hsave h
      exact ⟨_, raw, rfl, hraw, hrows⟩
    · contradiction
  | authentication =>
    simp only [FinishKind.begin, beginAuthentication] at h
    split at h
    · contradiction
    · obtain ⟨raw, hraw, hrows⟩ := hsave h
      exact ⟨_, raw, rfl, hraw, hrows⟩

/-- What a call loads is in the table, under its id and kind, for its user, and not expired. -/
theorem load_eq_ok {db : PasskeyDB} {fails : PasskeyFailures} {call : FinishCall} {now : Int}
    {session : D} (h : call.load w db fails now = .ok session) :
    ∃ r ∈ db.challenges.rows, r.id = call.challengeID ∧ r.kind = call.kind.name ∧
      unixMilli now < r.expiresAt ∧
      (call.kind.userID ≠ "" → r.userID = some call.kind.userID) ∧
      w.unmarshalSession r.challenge = some session := by
  have hload (h : loadChallenge w db fails call.challengeID call.kind.name call.kind.userID now =
      .ok session) :
      ∃ r ∈ db.challenges.rows, r.id = call.challengeID ∧ r.kind = call.kind.name ∧
        unixMilli now < r.expiresAt ∧
        (call.kind.userID ≠ "" → r.userID = some call.kind.userID) ∧
        w.unmarshalSession r.challenge = some session := by
    unfold loadChallenge at h
    split at h
    · contradiction
    · split at h
      · contradiction
      · next r hr =>
        split at h
        · contradiction
        · next huser =>
          split at h
          · contradiction
          · next d hd =>
            obtain rfl := Except.ok.inj h
            have hfound := List.find?_some hr
            simp only [Bool.and_eq_true, beq_iff_eq, decide_eq_true_eq] at hfound
            refine ⟨r, List.mem_of_find?_eq_some hr, hfound.1.1, hfound.1.2, hfound.2, ?_, hd⟩
            intro hne
            by_contra hother
            exact huser ⟨hne, hother⟩
  unfold FinishCall.load at h
  split at h
  · next userID hkind => exact hload (by rw [hkind]; exact h)
  · next hkind => exact hload (by rw [hkind]; exact h)

/-- A challenge that a call loads was issued to it, with the loaded session data. -/
theorem Bound.issued_of_load (h : Bound w s₀ pre s)
    (hround : ∀ session raw, w.marshalSession session = some raw →
      w.unmarshalSession raw = some session) {call : FinishCall}
    (hcall : call.kind ≠ .registration "") {fails : PasskeyFailures} {now : Int} {session : D}
    (hload : call.load w s.db fails now = .ok session) :
    ∃ issue, Issued w s₀ pre call.kind call.challengeID session issue ∧
      now < issue + 5 * minute := by
  obtain ⟨r, hr, hid, hkind, hlive, huser, hsession⟩ := load_eq_ok hload
  obtain ⟨kind, session', raw, now₀, issue, hissued, hraw, hrow⟩ := h.rows r hr
  rw [hrow] at hkind hlive huser hsession
  obtain rfl := Option.some.inj ((hround session' raw hraw).symm.trans hsession)
  have heq : kind = call.kind := by
    cases hk : call.kind with
    | registration userID =>
      rw [hk] at hkind huser hcall
      have hne : userID ≠ "" := fun he ↦ hcall (congrArg _ he)
      cases kind with
      | registration userID' =>
        exact congrArg _ (Option.some.inj (Option.ite_none_right_eq_some.mp (huser hne)).2)
      | authentication => simp [FinishKind.savedRow, FinishKind.name] at hkind
    | authentication =>
      rw [hk] at hkind
      cases kind with
      | registration userID' => simp [FinishKind.savedRow, FinishKind.name] at hkind
      | authentication => rfl
  refine ⟨issue, heq ▸ hid ▸ hissued, ?_⟩
  by_contra hle
  have hmono := unixMilli_mono (Int.not_lt.mp hle)
  exact absurd hlive (Int.not_lt.mpr hmono)

private theorem advance_spec (call : FinishCall) (db : PasskeyDB) (fails : PasskeyFailures)
    (id : String) (now : Int) (phase : FinishPhase D) :
    (∀ r ∈ (call.advance w db fails id now phase).1.challenges.rows, r ∈ db.challenges.rows) ∧
      ((call.advance w db fails id now phase).2.inUse = true →
        phase.inUse = true ∨ ∃ session, call.load w db fails now = .ok session) ∧
      ∀ session, (call.advance w db fails id now phase).2 = .validating session →
        call.load w db fails now = .ok session := by
  cases phase with
  | loading =>
    simp only [FinishCall.advance]
    cases hload : call.load w db fails now with
    | error e => exact ⟨fun r hr ↦ hr, (fun hu ↦ by cases hu), fun _ heq ↦ by cases heq⟩
    | ok session =>
      refine ⟨fun r hr ↦ hr, fun _ ↦ .inr ⟨session, rfl⟩, fun session' heq ↦ ?_⟩
      rw [FinishPhase.validating.inj heq]
  | validating session =>
    simp only [FinishCall.advance]
    cases call.validate w db fails session id now with
    | error e => exact ⟨fun r hr ↦ hr, fun _ ↦ .inl rfl, fun _ heq ↦ by cases heq⟩
    | ok write => exact ⟨fun r hr ↦ hr, fun _ ↦ .inl rfl, fun _ heq ↦ by cases heq⟩
  | writing write =>
    simp only [FinishCall.advance]
    cases happly : write.apply db fails with
    | none => exact ⟨fun r hr ↦ hr, fun _ ↦ .inl rfl, fun _ heq ↦ by cases heq⟩
    | some res =>
      exact ⟨fun r hr ↦ apply_challenges happly ▸ hr, fun _ ↦ .inl rfl, fun _ heq ↦ by cases heq⟩
  | deleting result =>
    exact ⟨fun r hr ↦ (mem_deleteChallenge hr).1, (fun hu ↦ by cases hu), fun _ heq ↦ by cases heq⟩
  | returned result => exact ⟨fun r hr ↦ hr, (fun hu ↦ by cases hu), fun _ heq ↦ by cases heq⟩

namespace Bound

private theorem mono (h : Bound w s₀ pre s) (l : ChallengeStep D) {db : PasskeyDB}
    (hrows : ∀ r ∈ db.challenges.rows, r ∈ s.db.challenges.rows) :
    Bound w s₀ (pre ++ [l]) { s with db := db } where
  rows r hr := by
    obtain ⟨kind, session, raw, now, issue, hissued, hraw, heq⟩ := h.rows r (hrows r hr)
    exact ⟨kind, session, raw, now, issue, hissued.append l, hraw, heq⟩
  known r hr := h.known r (hrows r hr)
  named := h.named
  inUse := h.inUse
  loaded call session hmem := by
    obtain ⟨issue, hissued⟩ := h.loaded call session hmem
    exact ⟨issue, hissued.append l⟩

private theorem begin (h : Bound w s₀ pre s) (hrun : runSteps (challengeStep w) s₀ pre = some s)
    {kind : FinishKind} {fails : PasskeyFailures} {session : Option D} {id : String}
    {now now' : Int} :
    Bound w s₀ (pre ++ [.beginCeremony kind fails session id now now'])
      { s with
        db := (kind.begin w s.db fails session id now now').getD s.db
        issued := id :: s.issued } := by
  have h' : Bound w s₀ (pre ++ [.beginCeremony kind fails session id now now']) s :=
    h.mono _ fun r hr ↦ hr
  refine { h' with
    rows := fun r hr ↦ ?_, known := fun r hr ↦ ?_
    inUse := fun a ha hu ↦ List.mem_cons_of_mem id (h.inUse a ha hu) }
  · cases hbegin : kind.begin w s.db fails session id now now' with
    | none =>
      rw [hbegin] at hr
      exact h'.rows r hr
    | some db' =>
      rw [hbegin] at hr
      obtain ⟨d, raw, rfl, hraw, hnew⟩ := begin_eq_some hbegin
      rcases hnew r hr with rfl | hr
      · refine ⟨kind, d, raw, now, now', ⟨pre, fails, now, s, ⟨⟨[], rfl⟩, hrun⟩, ?_⟩, hraw, rfl⟩
        exact Option.isSome_of_eq_some hbegin
      · exact h'.rows r hr
  · rcases mem_begin_challenges hr with rfl | hr
    · exact List.mem_cons_self
    · exact List.mem_cons_of_mem id (h.known r hr)

private theorem advance (h : Bound w s₀ pre s)
    (hround : ∀ session raw, w.marshalSession session = some raw →
      w.unmarshalSession raw = some session) {n : Nat} {fails : PasskeyFailures} {id : String}
    {now : Int} {call : FinishCall} {phase : FinishPhase D}
    (hn : s.calls[n]? = some (call, phase)) :
    Bound w s₀ (pre ++ [.advance n fails id now]) { s with
      db := (call.advance w s.db fails id now phase).1
      calls := s.calls.set n (call, (call.advance w s.db fails id now phase).2) } := by
  have hmem : (call, phase) ∈ s.calls := List.mem_of_getElem? hn
  obtain ⟨hrows, huse, hloaded⟩ := advance_spec (w := w) call s.db fails id now phase
  have h' := h.mono (.advance n fails id now) hrows
  refine { h' with
    named := fun a ha ↦ ?_, inUse := fun a ha hu ↦ ?_, loaded := fun call' session hc ↦ ?_ }
  · rcases List.mem_or_eq_of_mem_set ha with ha | rfl
    · exact h.named a ha
    · exact h.named (call, phase) hmem
  · rcases List.mem_or_eq_of_mem_set ha with ha | rfl
    · exact h.inUse a ha hu
    · rcases huse hu with hu | ⟨session, hload⟩
      · exact h.inUse (call, phase) hmem hu
      · obtain ⟨r, hr, hid⟩ := exists_of_load hload
        exact hid ▸ h.known r hr
  · rcases List.mem_or_eq_of_mem_set hc with hc | heq
    · exact h'.loaded call' session hc
    · obtain ⟨rfl, hphase⟩ := Prod.mk.inj heq
      obtain ⟨issue, hissued, -⟩ :=
        h.issued_of_load hround (h.named _ hmem) (hloaded session hphase.symm)
      exact ⟨issue, hissued.append _⟩

/-- Every step keeps account of the challenges. -/
theorem step (h : Bound w s₀ pre s)
    (hround : ∀ session raw, w.marshalSession session = some raw →
      w.unmarshalSession raw = some session) {l : ChallengeStep D}
    (hl : ∀ call, l = .call call → call.kind ≠ .registration "")
    (hrun : runSteps (challengeStep w) s₀ pre = some s) (hs : challengeStep w s l = some s') :
    Bound w s₀ (pre ++ [l]) s' := by
  cases l with
  | beginCeremony kind fails session id now now' =>
    obtain ⟨-, hs⟩ := Option.ite_none_left_eq_some.mp hs
    obtain rfl := Option.some.inj hs
    exact h.begin hrun
  | call call =>
    obtain rfl := Option.some.inj hs
    have h' := h.mono (.call call) fun r hr ↦ hr
    have hold {a : FinishCall × FinishPhase D} (ha : a ∈ s.calls ++ [(call, .loading)]) :
        a ∈ s.calls ∨ a = (call, .loading) :=
      (List.mem_append.mp ha).imp_right List.mem_singleton.mp
    refine { h' with
      named := fun a ha ↦ ?_, inUse := fun a ha hu ↦ ?_, loaded := fun call' session hc ↦ ?_ }
    · rcases hold ha with ha | rfl
      · exact h.named a ha
      · exact hl call rfl
    · rcases hold ha with ha | rfl
      · exact h.inUse a ha hu
      · contradiction
    · rcases hold hc with hc | heq
      · exact h'.loaded call' session hc
      · cases heq
  | advance n fails id now =>
    simp only [challengeStep] at hs
    split at hs
    · contradiction
    · next hn =>
      obtain rfl := Option.some.inj hs
      exact h.advance hround hn
  | deletePasskey userID id =>
    obtain rfl := Option.some.inj hs
    exact h.mono _ fun r hr ↦ hr
  | deleteExpiredChallenges now =>
    obtain rfl := Option.some.inj hs
    exact h.mono _ fun r hr ↦ ((Table.mem_delete _ _ r).mp hr).1

/-- Before any call there is nothing to account for. -/
theorem init (users : Table UserRow UserRow.clash) (passkeys : Table PasskeyRow PasskeyRow.clash) :
    Bound w s₀ [] (ChallengeState.init users passkeys : ChallengeState D) where
  rows _ hr := absurd hr List.not_mem_nil
  known _ hr := absurd hr List.not_mem_nil
  named _ ha := absurd ha List.not_mem_nil
  inUse _ ha := absurd ha List.not_mem_nil
  loaded _ _ hc := absurd hc List.not_mem_nil

end Bound

/-- The challenge was issued and is not in the table any more. -/
def Gone (s : ChallengeState D) (id : String) : Prop :=
  id ∈ s.issued ∧ ∀ r ∈ s.db.challenges.rows, r.id ≠ id

private theorem Gone.of_delete {n : Nat} {fails : PasskeyFailures} {id : String} {now : Int}
    {call : FinishCall} {result : Except PasskeyError FinishResult}
    (hissued : call.challengeID ∈ s.issued) (hn : s.calls[n]? = some (call, .deleting result))
    (hdelete : fails .deleteChallenge = false)
    (hs : challengeStep w s (.advance n fails id now) = some s') : Gone s' call.challengeID := by
  simp only [challengeStep, hn, FinishCall.advance] at hs
  obtain rfl := Option.some.inj hs
  exact ⟨hissued, fun r hr ↦ (mem_deleteChallenge hr).2 hdelete⟩

private theorem Gone.not_isOk {id : String} (h : Gone s id) {call : FinishCall}
    (hid : call.challengeID = id) (fails : PasskeyFailures) (now : Int) :
    (call.load w s.db fails now).isOk = false := by
  cases hload : call.load w s.db fails now with
  | error e => rfl
  | ok session =>
    obtain ⟨r, hr, hrid⟩ := exists_of_load hload
    exact absurd (hrid.trans hid) (h.2 r hr)

/-- No id is given out twice, so a challenge that is gone stays gone. -/
theorem Gone.step {id : String} (h : Gone s id) {l : ChallengeStep D}
    (hs : challengeStep w s l = some s') : Gone s' id := by
  cases l with
  | beginCeremony kind fails session id' now now' =>
    obtain ⟨hfresh, hs⟩ := Option.ite_none_left_eq_some.mp hs
    obtain rfl := Option.some.inj hs
    refine ⟨List.mem_cons_of_mem id' h.1, fun r hr ↦ ?_⟩
    rcases mem_begin_challenges hr with rfl | hr
    · rintro rfl
      exact hfresh h.1
    · exact h.2 r hr
  | call call =>
    obtain rfl := Option.some.inj hs
    exact h
  | advance n fails id' now =>
    simp only [challengeStep] at hs
    split at hs
    · contradiction
    · next call phase _ =>
      obtain rfl := Option.some.inj hs
      have hrows := (advance_spec (w := w) call s.db fails id' now phase).1
      exact ⟨h.1, fun r hr ↦ h.2 r (hrows r hr)⟩
  | deletePasskey userID id' =>
    obtain rfl := Option.some.inj hs
    exact h
  | deleteExpiredChallenges now =>
    obtain rfl := Option.some.inj hs
    exact ⟨h.1, fun r hr ↦ h.2 r ((Table.mem_delete _ _ r).mp hr).1⟩

/-- In every run with non-decreasing clock readings, a call that gets past its load has a challenge
that a ceremony of its kind and user issued less than five minutes before, and validates against
the session data of that issue; and after a call has deleted its challenge, no call gets past a
load of it. -/
theorem finishing_calls_bound (w : WebAuthn D C A)
    (hround : ∀ session raw, w.marshalSession session = some raw →
      w.unmarshalSession raw = some session)
    (users : Table UserRow UserRow.clash) (passkeys : Table PasskeyRow PasskeyRow.clash)
    (steps : List (ChallengeStep D)) (t : ChallengeState D)
    (hrun : runSteps (challengeStep w) (.init users passkeys) steps = some t)
    (hclock : (steps.flatMap ChallengeStep.readings).Pairwise (· ≤ ·))
    (hnamed : ∀ call, .call call ∈ steps → call.kind ≠ .registration "") :
    (∀ pre n fails id now s call session,
      TakenAt (challengeStep w) (.init users passkeys) steps pre (.advance n fails id now) s →
      s.calls[n]? = some (call, .loading) → call.load w s.db fails now = .ok session →
      ∃ issue, Issued w (.init users passkeys) pre call.kind call.challengeID session issue ∧
        issue ≤ now ∧ now < issue + 5 * minute) ∧
    (∀ pre n fails id now s call session,
      TakenAt (challengeStep w) (.init users passkeys) steps pre (.advance n fails id now) s →
      s.calls[n]? = some (call, .validating session) →
      ∃ issue, Issued w (.init users passkeys) pre call.kind call.challengeID session issue) ∧
    (∀ pre n fails id now s call result mid m fails' id' now' u call',
      runSteps (challengeStep w) (.init users passkeys) pre = some s →
      s.calls[n]? = some (call, .deleting result) → fails .deleteChallenge = false →
      TakenAt (challengeStep w) (.init users passkeys) steps
        (pre ++ .advance n fails id now :: mid) (.advance m fails' id' now') u →
      u.calls[m]? = some (call', .loading) → call'.challengeID = call.challengeID →
      (call'.load w u.db fails' now').isOk = false) := by
  have bound {pre l s}
      (h : TakenAt (challengeStep w) (.init users passkeys) steps pre l s) :
      Bound w (.init users passkeys) pre s := by
    obtain ⟨⟨post, rfl⟩, hpre⟩ := h
    refine runSteps_history (.init users passkeys) ?_ hpre
    rintro pre' l' s₁ s₂ ⟨⟨post', rfl⟩, hpre'⟩ hbound hstep
    exact hbound.step hround (fun call hl ↦ hnamed call (by simp [hl])) hpre' hstep
  refine ⟨?_, ?_, ?_⟩
  · intro pre n fails id now s call session hat hn hload
    have hb := bound hat
    have hcall := hb.named _ (List.mem_of_getElem? hn)
    obtain ⟨issue, hissued, hlt⟩ := hb.issued_of_load hround hcall hload
    refine ⟨issue, hissued, ?_, hlt⟩
    obtain ⟨⟨post, rfl⟩, -⟩ := hat
    rw [List.flatMap_append, List.pairwise_append] at hclock
    exact hclock.2.2 issue hissued.mem_readings now (by simp [ChallengeStep.readings])
  · intro pre n fails id now s call session hat hn
    exact (bound hat).loaded call session (List.mem_of_getElem? hn)
  · intro pre n fails id now s call result mid m fails' id' now' u call' hpre hn hdelete hat hm hid
    obtain ⟨⟨post, hsteps⟩, hmid⟩ := hat
    have hat' : TakenAt (challengeStep w) (.init users passkeys) steps pre
        (.advance n fails id now) s :=
      ⟨⟨mid ++ .advance m fails' id' now' :: post, by simp [hsteps]⟩, hpre⟩
    have hissued := (bound hat').inUse _ (List.mem_of_getElem? hn) rfl
    obtain ⟨s₁, hs₁, hrest⟩ := runSteps_append_eq_some.mp hmid
    obtain rfl := Option.some.inj (hpre.symm.trans hs₁)
    obtain ⟨s₂, hs₂, hrest⟩ := runSteps_cons_eq_some.mp hrest
    have hgone : Gone s₂ call.challengeID := .of_delete hissued hn hdelete hs₂
    have hu : Gone u call.challengeID :=
      runSteps_invariant (I := fun s ↦ Gone s call.challengeID) (fun _ _ _ h hs ↦ h.step hs)
        hgone hrest
    exact hu.not_isOk hid fails' now'

/-- Both kinds of ceremony begin, then a login comes in for the second challenge. -/
def demoCeremonies : List (ChallengeStep Bytes) :=
  [.beginCeremony (.registration "u1") (fun _ ↦ false) (some [1]) "c1" 0 0,
    .beginCeremony .authentication (fun _ ↦ false) (some [2]) "c2" minute minute,
    .call ⟨.authentication, "c2", [1]⟩]

/-- Four minutes later the login loads the session data of its challenge. -/
theorem finishing_calls_bound_demo : ∃ issue,
    Issued demoWebAuthn demoInit demoCeremonies .authentication "c2" [2] issue ∧
      issue ≤ 5 * minute ∧ 5 * minute < issue + 5 * minute := by
  refine (finishing_calls_bound demoWebAuthn (fun _ _ h ↦ h.symm) demoUsers Table.empty
    (demoCeremonies ++ [.advance 0 (fun _ ↦ false) "p1" (5 * minute)]) _ rfl (by decide) ?_).1
    demoCeremonies 0 (fun _ ↦ false) "p1" (5 * minute) _ _ _ ⟨⟨[], rfl⟩, rfl⟩ rfl rfl
  intro call hcall
  simp only [demoCeremonies, List.mem_append, List.mem_cons, ChallengeStep.call.injEq,
    List.not_mem_nil, or_false, reduceCtorEq, false_or] at hcall
  rw [hcall]
  nofun

end Dockstack.Auth
