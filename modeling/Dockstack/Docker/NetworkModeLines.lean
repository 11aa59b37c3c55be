import Dockstack.Base.LineBreaks
import Dockstack.Docker.NetworkModes

/-!
# Network modes and line breaks

`resolveServiceNetworkModes` of `internal/docker/drift.go:19–41` on a compose file with carriage
returns. `$` stands before a line feed only and `[ \t]*` takes no carriage return, so that a
reference is found there only if a comment takes it.
-/

namespace Dockstack.Docker

open Dockstack.Base

/-- A reference with a comment: it has a `#`. -/
def HasComment (m : RegexMatch UInt8) : Prop := 35 ∈ m.text

instance (m : RegexMatch UInt8) : Decidable (HasComment m) :=
  inferInstanceAs (Decidable (35 ∈ m.text))

/-- Each reference that is resolved has a comment, or is the last part; and its id, which is
hexadecimal, has no carriage return at a line feed. -/
def ResolvedAnyway (ids : Bytes → Option Bytes) (parts : List (Regex.Part UInt8)) : Prop :=
  ∀ m rest, (.found m :: rest) <:+ parts → ∀ id, ids (m.sub 2) = some id →
    rest = [] ∧ ¬ [carriageReturn, newline] <:+: id ∨
      HasComment m ∧ ¬ [carriageReturn, newline] <:+: id ++ [newline]

/-- A compose file is resolved alike with line feeds and with carriage returns before them. -/
def SameWithCRLF (compose : Bytes) (L : List Summary) : Prop :=
  (resolveServiceNetworkModes (toCRLF compose) L).2 = (resolveServiceNetworkModes compose L).2 ∧
    ofCRLF (resolveServiceNetworkModes (toCRLF compose) L).1 =
      (resolveServiceNetworkModes compose L).1

variable {key line name rest s : Bytes} {bol : Bool} {m : RegexMatch UInt8}
  {ids : Bytes → Option Bytes}

/-! ## References before a carriage return -/

private theorem carriageReturn_spaceByte : spaceByte carriageReturn = true := by decide

private theorem forall_spaceByte_toCRLF (h : ∀ b ∈ s, spaceByte b = true) :
    ∀ b ∈ toCRLF s, spaceByte b = true := by
  rw [← List.dropWhile_eq_nil_iff] at h ⊢
  rw [dropWhile_toCRLF carriageReturn_spaceByte newline_spaceByte, h]
  rfl

private theorem IsKey.toCRLF (h : IsKey key) : IsKey (toCRLF key) := by
  obtain ⟨before, after, rfl, hbefore, hafter⟩ := h
  rw [toCRLF_append, toCRLF_append, toCRLF_of_notMem newline_notMem_networkModeKey]
  exact ⟨_, _, rfl, forall_spaceByte_toCRLF hbefore, forall_spaceByte_toCRLF hafter⟩

private theorem IsKey.comment_notMem (h : IsKey key) : 35 ∉ key := by
  obtain ⟨before, after, rfl, hbefore, hafter⟩ := h
  have hspace : spaceByte 35 = false := by decide
  simp only [List.mem_append, not_or]
  refine ⟨fun hmem ↦ ?_, by decide, fun hmem ↦ ?_⟩
  · rw [hbefore _ hmem] at hspace
    cases hspace
  · rw [hafter _ hmem] at hspace
    cases hspace

private theorem notMem_of_comment_nil {q q' blanks : Bytes} (hq : IsQuote q)
    (hname : IsServiceName name) (hq' : IsQuote q') (hblanks : ∀ b ∈ blanks, oneOf " \t" b = true)
    {b : UInt8} (hb : b = 35 ∨ b = carriageReturn) :
    b ∉ q ++ (goBytes "service:" ++ (name ++ (q' ++ blanks))) := by
  have hclasses : oneOf "\"'" b = false ∧ b ∉ goBytes "service:" ∧ isServiceByte b = false ∧
      oneOf " \t" b = false := by
    rcases hb with rfl | rfl
    · decide
    · decide
  obtain ⟨hquote, hservice, hbyte, hblank⟩ := hclasses
  have hnot {p : UInt8 → Bool} {v : Bytes} (hv : ∀ b ∈ v, p b = true) (hp : p b = false) :
      b ∉ v := by
    intro hmem
    rw [hv b hmem] at hp
    cases hp
  simp only [List.mem_append, not_or]
  exact ⟨hnot hq.forall_mem hquote, hservice, hnot hname.2 hbyte,
    hnot hq'.forall_mem hquote, hnot hblanks hblank⟩

/-- Before a carriage return a value needs a comment. -/
theorem isTarget_append_carriageReturn (hline : carriageReturn ∉ line) :
    IsTarget name (line ++ [carriageReturn]) ↔ IsTarget name line ∧ 35 ∈ line := by
  constructor
  · rintro ⟨q, q', blanks, comment, heq, hq, hname, hq', hblanks, hcomment⟩
    have hregroup : q ++ (goBytes "service:" ++ (name ++ (q' ++ (blanks ++ comment)))) =
        q ++ (goBytes "service:" ++ (name ++ (q' ++ blanks))) ++ comment := by
      simp only [List.append_assoc]
    have hnot := notMem_of_comment_nil hq hname hq' hblanks (.inr rfl)
    rcases hcomment with rfl | ⟨text, htext, rfl⟩
    · rw [hregroup, List.append_nil] at heq
      rw [← heq] at hnot
      simp at hnot
    · -- the carriage return ends the comment
      rcases List.eq_nil_or_concat' text with rfl | ⟨text, b, rfl⟩
      · rw [hregroup, List.append_nil] at heq
        have hlast := (List.append_inj' heq rfl).2
        exact absurd hlast (by decide)
      · rw [List.mem_append, not_or] at htext
        rw [hregroup, ← List.append_assoc, ← List.append_assoc] at heq
        obtain ⟨rfl, -⟩ := List.append_inj' heq rfl
        refine ⟨⟨q, q', blanks, goBytes "#" ++ text, ?_, hq, hname, hq', hblanks,
          .inr ⟨text, htext.1, rfl⟩⟩, ?_⟩
        · simp only [List.append_assoc]
        · have hsign : 35 ∈ goBytes "#" := by decide
          exact List.mem_append_left _ (List.mem_append_right _ hsign)
  · rintro ⟨⟨q, q', blanks, comment, rfl, hq, hname, hq', hblanks, hcomment⟩, hmem⟩
    rcases hcomment with rfl | ⟨text, htext, rfl⟩
    · rw [List.append_nil] at hmem
      exact absurd hmem (notMem_of_comment_nil hq hname hq' hblanks (.inl rfl))
    · refine ⟨q, q', blanks, goBytes "#" ++ (text ++ [carriageReturn]), ?_, hq, hname, hq',
        hblanks, .inr ⟨_, ?_, rfl⟩⟩
      · simp only [List.append_assoc]
      · rw [List.mem_append, not_or]
        exact ⟨htext, by decide⟩

private theorem eq_nil_or_newline (heol : Regex.atEol newline rest = true) :
    rest = [] ∨ ∃ s, rest = newline :: s := by
  cases rest with
  | nil => exact .inl rfl
  | cons c s =>
    rw [Regex.atEol, beq_iff_eq] at heol
    exact .inr ⟨s, by rw [heol]⟩

private theorem restOfLine_toCRLF (hline : newline ∉ line)
    (heol : Regex.atEol newline rest = true) :
    rest = [] ∧ restOfLine (line ++ toCRLF rest) = line ∨
      rest ≠ [] ∧ restOfLine (line ++ toCRLF rest) = line ++ [carriageReturn] := by
  rcases eq_nil_or_newline heol with rfl | ⟨s, rfl⟩
  · exact .inl ⟨rfl, restOfLine_append hline rfl⟩
  · refine .inr ⟨List.cons_ne_nil _ _, ?_⟩
    rw [toCRLF_newline, List.append_cons]
    apply restOfLine_append _ (beq_self_eq_true _)
    rw [List.mem_append, not_or]
    exact ⟨hline, by decide⟩

/-- Carriage returns make no reference. -/
theorem hasReference_of_toCRLF (hs : carriageReturn ∉ s) (h : HasReference (toCRLF s)) :
    HasReference s := by
  obtain ⟨t, ht, name, htarget⟩ := hasReference_iff.mp h
  rw [dropWhile_toCRLF carriageReturn_spaceByte newline_spaceByte] at ht
  obtain ⟨u, hu, rfl⟩ := exists_of_toCRLF_eq_append (by decide)
    newline_notMem_networkModeKey ht
  refine hasReference_iff.mpr ⟨u, hu, name, ?_⟩
  rw [dropWhile_toCRLF carriageReturn_spaceByte newline_spaceByte] at htarget
  obtain ⟨rest, hrest, hline, heol⟩ := exists_restOfLine (u.dropWhile spaceByte)
  have hcr : carriageReturn ∉ restOfLine (u.dropWhile spaceByte) := by
    intro hmem
    have hmem' := List.dropWhile_subset _ (List.takeWhile_subset _ hmem)
    have hsub := hu ▸ List.mem_append_right networkModeKey hmem'
    exact hs (List.dropWhile_subset _ hsub)
  rw [hrest, toCRLF_append, toCRLF_of_notMem hline] at htarget
  rcases restOfLine_toCRLF hline heol with ⟨-, heq⟩ | ⟨-, heq⟩
  · rwa [heq] at htarget
  · rw [heq, isTarget_append_carriageReturn hcr] at htarget
    exact htarget.1

/-! ## The parts of a compose file with carriage returns -/

private theorem networkModeParts_false_cons (c : UInt8) (s : Bytes) :
    networkModeParts false (c :: s) = .char c :: networkModeParts (c == newline) s :=
  networkModeParts_of_none (head?_matchesAt_eq_none_iff.mpr fun h ↦ by cases h)

private theorem networkModeParts_toCRLF_of_none {c : UInt8} (hcr : carriageReturn ∉ c :: s)
    (h : (serviceNetworkModeRe.matchesAt newline bol (c :: s)).head? = none) :
    networkModeParts bol (toCRLF (c :: s)) =
      (toCRLF [c]).map .char ++ networkModeParts (c == newline) (toCRLF s) := by
  have hnone : (serviceNetworkModeRe.matchesAt newline bol (toCRLF (c :: s))).head? = none := by
    rw [head?_matchesAt_eq_none_iff] at h ⊢
    exact fun hbol hreference ↦ h hbol (hasReference_of_toCRLF hcr hreference)
  by_cases hc : c = newline
  · rw [hc, toCRLF_newline] at hnone ⊢
    rw [networkModeParts_of_none hnone]
    exact congrArg _ (networkModeParts_false_cons newline (toCRLF s))
  · rw [toCRLF_cons hc] at hnone ⊢
    rw [networkModeParts_of_none hnone, toCRLF_cons hc]
    rfl

private theorem networkModeParts_toCRLF_of_lost (hcr : carriageReturn ∉ m.text ++ rest)
    (h : (serviceNetworkModeRe.matchesAt newline bol (m.text ++ rest)).head? = some m)
    (hcomment : ¬ HasComment m) (hrest : rest ≠ []) :
    networkModeParts bol (toCRLF (m.text ++ rest)) =
      (toCRLF m.text).map .char ++ networkModeParts false (toCRLF rest) := by
  obtain ⟨-, heol, key, name, line, hkey, htarget, rfl⟩ :=
    accepts_serviceNetworkModeRe.mp (List.mem_of_head? h)
  rw [HasComment, List.mem_append, not_or] at hcomment
  simp only [List.mem_append, not_or] at hcr
  obtain ⟨b, hhead, hb⟩ := htarget.spaceByte_head
  have hn : b ≠ 110 := by
    rintro rfl
    obtain ⟨b', hb', hhead'⟩ := htarget.head?
    rw [hhead] at hhead'
    rw [← Option.some.inj hhead'] at hb'
    exact absurd hb' (by decide)
  have hno : ∀ name', ¬ IsTarget name' (restOfLine (line ++ toCRLF rest)) := by
    intro name' htarget'
    rcases restOfLine_toCRLF htarget.newline_notMem heol with ⟨hnil, -⟩ | ⟨-, heq⟩
    · exact hrest hnil
    · rw [heq, isTarget_append_carriageReturn hcr.1.2] at htarget'
      exact hcomment.2 htarget'.2
  rw [toCRLF_append, toCRLF_append, toCRLF_of_notMem htarget.newline_notMem, List.append_assoc]
  exact networkModeParts_value hkey.toCRLF hhead hb hn htarget.newline_notMem hno bol

private theorem networkModeParts_toCRLF_of_match (hcr : carriageReturn ∉ m.text ++ rest)
    (h : (serviceNetworkModeRe.matchesAt newline bol (m.text ++ rest)).head? = some m)
    (hcomment : HasComment m ∨ rest = []) :
    ∃ m' : RegexMatch UInt8, m'.sub 1 = toCRLF (m.sub 1) ∧ m'.sub 2 = m.sub 2 ∧
      (rest = [] ∧ m'.text = toCRLF m.text ∧
          networkModeParts bol (toCRLF (m.text ++ rest)) = [.found m'] ∨
        ∃ s, rest = newline :: s ∧ m'.text = toCRLF m.text ++ [carriageReturn] ∧
          networkModeParts bol (toCRLF (m.text ++ rest)) =
            .found m' :: networkModeParts false (newline :: toCRLF s)) := by
  obtain ⟨rfl, heol, key, name, line, hkey, htarget, rfl⟩ :=
    accepts_serviceNetworkModeRe.mp (List.mem_of_head? h)
  simp only [List.mem_append, not_or] at hcr
  have hmatch (line' rest' : Bytes) (htarget' : IsTarget name line')
      (heol' : Regex.atEol newline rest' = true) :
      networkModeParts true (toCRLF key ++ line' ++ rest') =
        .found ⟨toCRLF key ++ line', [(1, toCRLF key), (2, name)]⟩ ::
          networkModeParts false rest' := by
    have haccepts : serviceNetworkModeRe.Accepts newline true
        ⟨toCRLF key ++ line', [(1, toCRLF key), (2, name)]⟩ rest' :=
      accepts_serviceNetworkModeRe.mpr
        ⟨rfl, heol', toCRLF key, name, line', hkey.toCRLF, htarget', rfl⟩
    exact networkModeParts_of_match (head?_matchesAt_of_accepts haccepts)
  have htext : toCRLF (key ++ line) = toCRLF key ++ line := by
    rw [toCRLF_append, toCRLF_of_notMem htarget.newline_notMem]
  rcases eq_nil_or_newline heol with rfl | ⟨s, rfl⟩
  · refine ⟨⟨toCRLF key ++ line, [(1, toCRLF key), (2, name)]⟩, rfl, rfl, .inl
      ⟨rfl, htext.symm, ?_⟩⟩
    rw [toCRLF_append, htext]
    exact hmatch line [] htarget rfl
  · have hmem : 35 ∈ line := by
      rcases hcomment with hmem | hnil
      · exact (List.mem_append.mp hmem).resolve_left hkey.comment_notMem
      · cases hnil
    refine ⟨⟨toCRLF key ++ (line ++ [carriageReturn]), [(1, toCRLF key), (2, name)]⟩, rfl, rfl,
      .inr ⟨s, rfl, ?_, ?_⟩⟩
    · rw [htext, List.append_assoc]
    · rw [toCRLF_append, htext, toCRLF_newline, List.append_cons, List.append_assoc (toCRLF key)]
      exact hmatch _ _ ((isTarget_append_carriageReturn hcr.1.2).mpr ⟨htarget, hmem⟩)
        (beq_self_eq_true _)

/-! ## Resolving with carriage returns -/

private theorem resolvedAnyway_char {c : UInt8} {parts : List (Regex.Part UInt8)} :
    ResolvedAnyway ids (.char c :: parts) ↔ ResolvedAnyway ids parts := by
  unfold ResolvedAnyway
  simp [List.suffix_cons_iff]

private theorem resolvedAnyway_found {parts : List (Regex.Part UInt8)} :
    ResolvedAnyway ids (.found m :: parts) ↔
      (∀ id, ids (m.sub 2) = some id →
        parts = [] ∧ ¬ [carriageReturn, newline] <:+: id ∨
          HasComment m ∧ ¬ [carriageReturn, newline] <:+: id ++ [newline]) ∧
      ResolvedAnyway ids parts := by
  constructor
  · intro h
    exact ⟨h m parts (List.suffix_refl _), fun m' rest hsuffix ↦
      h m' rest (hsuffix.trans (List.suffix_cons _ _))⟩
  · rintro ⟨hm, hparts⟩ m' rest hsuffix
    rcases List.suffix_cons_iff.mp hsuffix with heq | hsuffix
    · obtain ⟨hm', rfl⟩ := List.cons.inj heq
      obtain rfl := Regex.Part.found.inj hm'
      exact hm
    · exact hparts m' rest hsuffix

private theorem resolveParts_toCRLF_of_none {c : UInt8} (hcr : carriageReturn ∉ c :: s)
    (h : (serviceNetworkModeRe.matchesAt newline bol (c :: s)).head? = none) :
    ofCRLF (resolveParts ids bol (toCRLF (c :: s))) =
      c :: ofCRLF (resolveParts ids (c == newline) (toCRLF s)) := by
  rw [List.mem_cons, not_or] at hcr
  have hbyte : carriageReturn ∉ [c] := by
    rw [List.mem_singleton]
    exact hcr.1
  rw [resolveParts, networkModeParts_toCRLF_of_none (by simp [hcr]) h, List.flatMap_append,
    flatMap_resolvePart_char, ofCRLF_toCRLF_append hbyte]
  rfl

private theorem resolveParts_toCRLF_of_lost (hcr : carriageReturn ∉ m.text ++ rest)
    (h : (serviceNetworkModeRe.matchesAt newline bol (m.text ++ rest)).head? = some m)
    (hcomment : ¬ HasComment m) (hrest : rest ≠ []) :
    ofCRLF (resolveParts ids bol (toCRLF (m.text ++ rest))) =
      m.text ++ ofCRLF (resolveParts ids false (toCRLF rest)) := by
  have htext : carriageReturn ∉ m.text := fun hmem ↦ hcr (List.mem_append_left _ hmem)
  rw [resolveParts, networkModeParts_toCRLF_of_lost hcr h hcomment hrest, List.flatMap_append,
    flatMap_resolvePart_char, ofCRLF_toCRLF_append htext]
  rfl

private theorem resolveParts_newline (s : Bytes) :
    resolveParts ids false (newline :: s) = newline :: resolveParts ids true s :=
  resolveParts_of_none (head?_matchesAt_eq_none_iff.mpr fun h ↦ by cases h)

private theorem ofCRLF_resolvePart {m' : RegexMatch UInt8} {e : Bytes} (u v : Bytes)
    (hkey : m'.sub 1 = toCRLF (m.sub 1)) (hname : m'.sub 2 = m.sub 2)
    (htext : m'.text = toCRLF m.text ++ e) (he : ofCRLF (e ++ u) = ofCRLF u)
    (hcr : carriageReturn ∉ m.text) (hcr' : carriageReturn ∉ m.sub 1)
    (huv : u.take 1 = v.take 1) :
    ofCRLF (resolvePart ids (.found m') ++ u) = resolvePart ids (.found m) ++ v ↔
      (∀ id, ids (m.sub 2) = some id → ¬ [carriageReturn, newline] <:+: id ++ u.take 1) ∧
        ofCRLF u = v := by
  rw [resolvePart, resolvePart, hname]
  cases hid : ids (m.sub 2) with
  | none =>
    simp only [htext, List.append_assoc, ofCRLF_toCRLF_append hcr, he,
      List.append_cancel_left_eq]
    simp
  | some id =>
    have hcontainer : carriageReturn ∉ goBytes "container:" := by decide
    simp only [hkey, List.append_assoc, ofCRLF_toCRLF_append hcr', ofCRLF_append hcontainer,
      List.append_cancel_left_eq, ofCRLF_append_eq_iff huv]
    simp

private theorem networkModeParts_eq_nil_iff : networkModeParts bol s = [] ↔ s = [] := by
  have htext := Regex.flatMap_parts networkMode_ne_nil bol s
  constructor
  · intro h
    rw [networkModeParts] at h
    rw [← htext, h]
    rfl
  · rintro rfl
    rfl

private theorem ofCRLF_resolvePart_newline {m' : RegexMatch UInt8}
    (hkey : m'.sub 1 = toCRLF (m.sub 1)) (hname : m'.sub 2 = m.sub 2)
    (htext : m'.text = toCRLF m.text ++ [carriageReturn])
    (hcr : carriageReturn ∉ m.text) (hcr' : carriageReturn ∉ m.sub 1)
    (hrest : carriageReturn ∉ newline :: s) :
    ofCRLF (resolvePart ids (.found m') ++ resolveParts ids false (newline :: toCRLF s)) =
        resolvePart ids (.found m) ++ resolveParts ids false (newline :: s) ↔
      (∀ id, ids (m.sub 2) = some id → ¬ [carriageReturn, newline] <:+: id ++ [newline]) ∧
        ofCRLF (resolveParts ids false (toCRLF (newline :: s))) =
          resolveParts ids false (newline :: s) := by
  have hnone : (serviceNetworkModeRe.matchesAt newline false (newline :: s)).head? = none :=
    head?_matchesAt_eq_none_iff.mpr fun h ↦ by cases h
  have hbreak (u : Bytes) : ofCRLF ([carriageReturn] ++ newline :: u) = ofCRLF (newline :: u) :=
    (ofCRLF_crlf u).trans (ofCRLF_cons (by decide) u).symm
  have hu : resolveParts ids false (newline :: toCRLF s) =
      newline :: resolveParts ids true (toCRLF s) := resolveParts_newline (toCRLF s)
  have hv : resolveParts ids false (newline :: s) = newline :: resolveParts ids true s :=
    resolveParts_newline s
  have htake : (resolveParts ids false (newline :: toCRLF s)).take 1 =
      (resolveParts ids false (newline :: s)).take 1 := by
    rw [hu, hv]
    rfl
  have he : ofCRLF ([carriageReturn] ++ resolveParts ids false (newline :: toCRLF s)) =
      ofCRLF (resolveParts ids false (newline :: toCRLF s)) := by rw [hu, hbreak]
  refine (ofCRLF_resolvePart _ _ hkey hname htext he hcr hcr' htake).trans (and_congr ?_ ?_)
  · rw [hu]
    rfl
  · rw [resolveParts_toCRLF_of_none hrest hnone, hu, ofCRLF_cons (by decide)]
    rfl

/-- With carriage returns a text is resolved as it is with line feeds alone exactly when each
reference is found anyway. -/
theorem ofCRLF_resolveParts_iff (ids : Bytes → Option Bytes) (bol : Bool) (s : Bytes)
    (hcr : carriageReturn ∉ s) :
    ofCRLF (resolveParts ids bol (toCRLF s)) = resolveParts ids bol s ↔
      ResolvedAnyway ids (networkModeParts bol s) := by
  induction bol, s using Regex.parts_induction networkMode_ne_nil with
  | nil bol => exact iff_of_true rfl fun m rest hsuffix ↦ by cases List.suffix_nil.mp hsuffix
  | char bol c s hnone ih =>
    rw [resolveParts_toCRLF_of_none hcr hnone, resolveParts_of_none hnone,
      networkModeParts_of_none hnone, resolvedAnyway_char,
      ← ih fun hmem ↦ hcr (List.mem_cons_of_mem c hmem), List.cons.injEq, and_iff_right rfl]
  | found bol m rest hhead ih =>
    obtain ⟨hbol, heol⟩ := end_of_match hhead
    rw [hbol] at ih
    have ih := ih fun hmem ↦ hcr (List.mem_append_right _ hmem)
    obtain ⟨target, htext, -, hne, htarget⟩ := networkMode_parts (List.mem_of_head? hhead)
    have hcrText : carriageReturn ∉ m.text := fun hmem ↦ hcr (List.mem_append_left _ hmem)
    have hcrKey : carriageReturn ∉ m.sub 1 := by
      rw [htext, List.mem_append, not_or] at hcrText
      exact hcrText.1
    rw [resolveParts_of_match hhead, networkModeParts_of_match hhead, resolvedAnyway_found]
    by_cases hcomment : HasComment m ∨ rest = []
    · obtain ⟨m', hkey, hname, ⟨rfl, htext', hparts⟩ | ⟨s, rfl, htext', hparts⟩⟩ :=
        networkModeParts_toCRLF_of_match hcr hhead hcomment
      · -- at the end of the text
        have htext'' : m'.text = toCRLF m.text ++ [] := by rw [htext', List.append_nil]
        rw [resolveParts, hparts, List.flatMap_cons]
        refine (ofCRLF_resolvePart [] [] hkey hname htext'' rfl hcrText hcrKey rfl).trans
          (and_congr (forall₂_congr fun id _ ↦ ?_) ih)
        have hnil : networkModeParts false [] = [] := rfl
        rw [hnil, List.take_nil, List.append_nil, eq_self_iff_true, true_and]
        refine (or_iff_left_of_imp ?_).symm
        rintro ⟨-, hplain⟩ hcrlf
        exact hplain (hcrlf.trans (List.prefix_append _ _).isInfix)
      · -- before a line break
        have hrest : carriageReturn ∉ newline :: s := fun hmem ↦
          hcr (List.mem_append_right _ hmem)
        have hparts' : networkModeParts false (newline :: s) ≠ [] := fun hnil ↦ by
          cases networkModeParts_eq_nil_iff.mp hnil
        have hmem : HasComment m := hcomment.resolve_right (List.cons_ne_nil _ _)
        rw [resolveParts, hparts, List.flatMap_cons]
        refine (ofCRLF_resolvePart_newline hkey hname htext' hcrText hcrKey hrest).trans
          (and_congr (forall₂_congr fun id _ ↦ ?_) ih)
        simp only [hparts', hmem, false_and, true_and, false_or]
    · rw [not_or] at hcomment
      rw [resolveParts_toCRLF_of_lost hcr hhead hcomment.1 hcomment.2, resolvePart]
      cases hid : ids (m.sub 2) with
      | none =>
        simp only [List.append_cancel_left_eq, ih]
        simp
      | some id =>
        -- the reference is resolved with line feeds only
        apply iff_of_false
        · intro heq
          simp only [htext, List.append_assoc, List.append_cancel_left_eq] at heq
          apply htarget
          have hheads := congrArg List.head? heq
          rwa [List.head?_append_of_ne_nil _ hne,
            List.head?_append_of_ne_nil _ (by decide)] at hheads
        · rintro ⟨hfound, -⟩
          rcases hfound id rfl with ⟨hnil, -⟩ | ⟨hmem, -⟩
          · exact hcomment.2 (networkModeParts_eq_nil_iff.mp hnil)
          · exact hcomment.1 hmem

/-- There is a reference to resolve. -/
private def Resolves (ids : Bytes → Option Bytes) (parts : List (Regex.Part UInt8)) : Prop :=
  ∃ m, .found m ∈ parts ∧ (ids (m.sub 2)).isSome = true

private theorem resolves_found {parts : List (Regex.Part UInt8)} :
    Resolves ids (.found m :: parts) ↔ (ids (m.sub 2)).isSome = true ∨ Resolves ids parts := by
  simp only [Resolves, List.mem_cons, Regex.Part.found.injEq, or_and_right, exists_or,
    exists_eq_left]

private theorem resolves_chars {v : Bytes} {parts : List (Regex.Part UInt8)} :
    Resolves ids (v.map .char ++ parts) ↔ Resolves ids parts := by
  simp [Resolves]

private theorem resolves_toCRLF_iff (bol : Bool) (s : Bytes) (hcr : carriageReturn ∉ s)
    (hanyway : ResolvedAnyway ids (networkModeParts bol s)) :
    Resolves ids (networkModeParts bol (toCRLF s)) ↔ Resolves ids (networkModeParts bol s) := by
  induction bol, s using Regex.parts_induction networkMode_ne_nil with
  | nil bol => rfl
  | char bol c s hnone ih =>
    rw [networkModeParts_of_none hnone, resolvedAnyway_char] at hanyway
    have hparts : networkModeParts bol (c :: s) =
        [c].map .char ++ networkModeParts (c == newline) s := networkModeParts_of_none hnone
    rw [networkModeParts_toCRLF_of_none hcr hnone, hparts, resolves_chars, resolves_chars]
    exact ih (fun hmem ↦ hcr (List.mem_cons_of_mem c hmem)) hanyway
  | found bol m rest hhead ih =>
    obtain ⟨hbol, heol⟩ := end_of_match hhead
    rw [hbol] at ih
    have hrest : carriageReturn ∉ rest := fun hmem ↦ hcr (List.mem_append_right _ hmem)
    rw [networkModeParts_of_match hhead, resolvedAnyway_found] at hanyway
    have ih := ih hrest hanyway.2
    rw [networkModeParts_of_match hhead, resolves_found]
    by_cases hcomment : HasComment m ∨ rest = []
    · obtain ⟨m', -, hname, ⟨rfl, -, hparts⟩ | ⟨s, rfl, -, hparts⟩⟩ :=
        networkModeParts_toCRLF_of_match hcr hhead hcomment
      · rw [hparts, resolves_found, hname]
        rfl
      · rw [hparts, resolves_found, hname]
        refine or_congr_right (Iff.trans ?_ ih)
        rw [toCRLF_newline, networkModeParts_false_cons carriageReturn]
        exact (resolves_chars (v := [carriageReturn])).symm
    · rw [not_or] at hcomment
      have hnone : ids (m.sub 2) = none := by
        rw [Option.eq_none_iff_forall_ne_some]
        intro id hid
        rcases hanyway.1 id hid with ⟨hnil, -⟩ | ⟨hmem, -⟩
        · exact hcomment.2 (networkModeParts_eq_nil_iff.mp hnil)
        · exact hcomment.1 hmem
      rw [networkModeParts_toCRLF_of_lost hcr hhead hcomment.1 hcomment.2, resolves_chars, ih,
        hnone]
      simp

/-- A compose file is resolved alike with both line breaks exactly when each reference to a service
that has a container has a comment, or ends the file. -/
theorem sameWithCRLF_iff (compose : Bytes) (hcr : carriageReturn ∉ compose) (L : List Summary) :
    SameWithCRLF compose L ↔ ResolvedAnyway (serviceID L) (networkModeParts true compose) := by
  rw [SameWithCRLF, resolveServiceNetworkModes_fst, resolveServiceNetworkModes_fst,
    ofCRLF_resolveParts_iff _ _ _ hcr, and_iff_right_iff_imp]
  intro hanyway
  rw [Bool.eq_iff_iff, resolveServiceNetworkModes_snd, resolveServiceNetworkModes_snd]
  exact resolves_toCRLF_iff true compose hcr hanyway

/-- A reference with a comment. -/
theorem sameWithCRLF_comment :
    SameWithCRLF (goBytes "network_mode: service:vpn # tunnel\nrestart: always\n")
        demoContainers ↔
      ResolvedAnyway (serviceID demoContainers) (networkModeParts true
        (goBytes "network_mode: service:vpn # tunnel\nrestart: always\n")) :=
  sameWithCRLF_iff _ (by decide) demoContainers

/-- A reference before a carriage return stays as it is. -/
theorem not_sameWithCRLF :
    carriageReturn ∉ goBytes "network_mode: service:vpn\n" ∧
      ¬ SameWithCRLF (goBytes "network_mode: service:vpn\n") demoContainers := by
  refine ⟨by decide, fun h ↦ ?_⟩
  exact absurd h.1 (by decide)

end Dockstack.Docker
