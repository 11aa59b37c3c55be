import Dockstack.Docker.DriftOneOff

/-!
# Rewriting network modes

`resolveServiceNetworkModes` of `internal/docker/drift.go:19–41`: what a reference to a service
is, what becomes of the parts of a compose file, and that nothing is left to resolve afterwards.
-/

namespace Dockstack.Docker

open Dockstack.Base

/-! ## References -/

/-- `\s`. -/
def spaceByte : UInt8 → Bool := oneOf "\t\n\x0c\r "

/-- `network_mode:`. -/
def networkModeKey : Bytes := goBytes "network_mode:"

/-- An optional quote. -/
def IsQuote (q : Bytes) : Prop := q = [] ∨ ∃ b, oneOf "\"'" b = true ∧ q = [b]

/-- An optional comment. -/
def IsComment (comment : Bytes) : Prop :=
  comment = [] ∨ ∃ text, newline ∉ text ∧ comment = goBytes "#" ++ text

/-- `name` is the name of a service. -/
def IsServiceName (name : Bytes) : Prop := name ≠ [] ∧ ∀ b ∈ name, isServiceByte b = true

/-- `key` is a key up to its value; it may begin and end with line feeds. -/
def IsKey (key : Bytes) : Prop :=
  ∃ before after, key = before ++ (networkModeKey ++ after) ∧
    (∀ b ∈ before, spaceByte b = true) ∧ ∀ b ∈ after, spaceByte b = true

/-- `line` is a value that refers to the service `name`, up to the end of the line. -/
def IsTarget (name line : Bytes) : Prop :=
  ∃ q q' blanks comment, line = q ++ (goBytes "service:" ++ (name ++ (q' ++ (blanks ++ comment)))) ∧
    IsQuote q ∧ IsServiceName name ∧ IsQuote q' ∧ (∀ b ∈ blanks, oneOf " \t" b = true) ∧
    IsComment comment

variable {key line name rest : Bytes} {bol : Bool} {m : RegexMatch UInt8}

private theorem accepts_networkModeKeyRe :
    networkModeKeyRe.Accepts newline bol m rest ↔ IsKey m.text ∧ m.groups = [] := by
  constructor
  · intro h
    obtain ⟨a, b, ha, hb, rfl⟩ := Regex.accepts_seq.mp h
    obtain ⟨c, d, hc, hd, rfl⟩ := Regex.accepts_seq.mp hb
    obtain ⟨before, hbefore, rfl⟩ := Regex.accepts_star.mp ha
    obtain rfl := Regex.accepts_lit.mp hc
    obtain ⟨after, hafter, rfl⟩ := Regex.accepts_star.mp hd
    exact ⟨⟨before, after, rfl, hbefore, hafter⟩, rfl⟩
  · rintro ⟨⟨before, after, htext, hbefore, hafter⟩, hgroups⟩
    obtain ⟨text, groups⟩ := m
    obtain rfl : text = _ := htext
    obtain rfl : groups = [] := hgroups
    exact Regex.accepts_seq.mpr ⟨_, _, Regex.accepts_star.mpr ⟨before, hbefore, rfl⟩,
      Regex.accepts_seq.mpr ⟨_, _, Regex.accepts_lit.mpr rfl,
        Regex.accepts_star.mpr ⟨after, hafter, rfl⟩, rfl⟩, rfl⟩

private theorem accepts_quote :
    (Regex.opt (.cls (oneOf "\"'"))).Accepts newline bol m rest ↔
      IsQuote m.text ∧ m.groups = [] := by
  rw [Regex.accepts_opt, Regex.accepts_cls]
  constructor
  · rintro (⟨b, hb, rfl⟩ | rfl)
    · exact ⟨.inr ⟨b, hb, rfl⟩, rfl⟩
    · exact ⟨.inl rfl, rfl⟩
  · obtain ⟨text, groups⟩ := m
    rintro ⟨rfl | ⟨b, hb, rfl⟩, rfl⟩
    · exact .inr rfl
    · exact .inl ⟨b, hb, rfl⟩

private theorem accepts_serviceName :
    (Regex.seq (.cls isServiceByte) (.star isServiceByte)).Accepts newline bol m rest ↔
      IsServiceName m.text ∧ m.groups = [] := by
  constructor
  · intro h
    obtain ⟨a, b, ha, hb, rfl⟩ := Regex.accepts_seq.mp h
    obtain ⟨c, hc, rfl⟩ := Regex.accepts_cls.mp ha
    obtain ⟨t, ht, rfl⟩ := Regex.accepts_star.mp hb
    exact ⟨⟨by simp, List.forall_mem_cons.mpr ⟨hc, ht⟩⟩, rfl⟩
  · obtain ⟨text, groups⟩ := m
    rintro ⟨⟨hne, hall⟩, rfl⟩
    cases text with
    | nil => exact absurd rfl hne
    | cons c t =>
      obtain ⟨hc, ht⟩ := List.forall_mem_cons.mp hall
      exact Regex.accepts_seq.mpr ⟨_, _, Regex.accepts_cls.mpr ⟨c, hc, rfl⟩,
        Regex.accepts_star.mpr ⟨t, ht, rfl⟩, rfl⟩

private theorem accepts_comment :
    (Regex.opt (.seq (.lit (goBytes "#")) (.star (· != newline)))).Accepts newline bol m rest ↔
      IsComment m.text ∧ m.groups = [] := by
  have hplain (t : Bytes) : (∀ b ∈ t, (b != newline) = true) ↔ newline ∉ t := by
    simp only [bne_iff_ne, ne_eq]
    exact ⟨fun h hmem ↦ h newline hmem rfl, fun h b hb heq ↦ h (heq ▸ hb)⟩
  rw [Regex.accepts_opt]
  constructor
  · rintro (h | rfl)
    · obtain ⟨a, b, ha, hb, rfl⟩ := Regex.accepts_seq.mp h
      obtain rfl := Regex.accepts_lit.mp ha
      obtain ⟨t, ht, rfl⟩ := Regex.accepts_star.mp hb
      exact ⟨.inr ⟨t, (hplain t).mp ht, rfl⟩, rfl⟩
    · exact ⟨.inl rfl, rfl⟩
  · obtain ⟨text, groups⟩ := m
    rintro ⟨rfl | ⟨t, ht, rfl⟩, rfl⟩
    · exact .inr rfl
    · exact .inl (Regex.accepts_seq.mpr ⟨_, _, Regex.accepts_lit.mpr rfl,
        Regex.accepts_star.mpr ⟨t, (hplain t).mpr ht, rfl⟩, rfl⟩)

private theorem accepts_networkModeServiceRe :
    networkModeServiceRe.Accepts newline bol m rest ↔
      ∃ name, IsTarget name m.text ∧ Regex.atEol newline rest = true ∧ m.groups = [(2, name)] := by
  constructor
  · intro h
    obtain ⟨q, m₁, hq, h₁, rfl⟩ := Regex.accepts_seq.mp h
    obtain ⟨svc, m₂, hsvc, h₂, rfl⟩ := Regex.accepts_seq.mp h₁
    obtain ⟨g, m₃, hg, h₃, rfl⟩ := Regex.accepts_seq.mp h₂
    obtain ⟨q', m₄, hq', h₄, rfl⟩ := Regex.accepts_seq.mp h₃
    obtain ⟨bl, m₅, hbl, h₅, rfl⟩ := Regex.accepts_seq.mp h₄
    obtain ⟨com, e, hcom, he, rfl⟩ := Regex.accepts_seq.mp h₅
    obtain ⟨n, hn, rfl⟩ := Regex.accepts_group.mp hg
    obtain ⟨hquote, hqg⟩ := accepts_quote.mp hq
    obtain rfl := Regex.accepts_lit.mp hsvc
    obtain ⟨hname, hng⟩ := accepts_serviceName.mp hn
    obtain ⟨hquote', hqg'⟩ := accepts_quote.mp hq'
    obtain ⟨blanks, hblanks, rfl⟩ := Regex.accepts_star.mp hbl
    obtain ⟨hcomment, hcg⟩ := accepts_comment.mp hcom
    obtain ⟨heol, rfl⟩ := Regex.accepts_lineEnd.mp he
    refine ⟨n.text, ⟨q.text, q'.text, blanks, com.text, ?_, hquote, hname, hquote', hblanks,
      hcomment⟩, heol, ?_⟩
    · simp only [List.append_nil]
    · simp only [hqg, hng, hqg', hcg, List.nil_append, List.append_nil]
  · obtain ⟨text, groups⟩ := m
    rintro ⟨name, ⟨q, q', blanks, comment, rfl, hq, hn, hq', hblanks, hcomment⟩, heol, rfl⟩
    refine Regex.accepts_seq.mpr ⟨⟨q, []⟩, _, accepts_quote.mpr ⟨hq, rfl⟩,
      Regex.accepts_seq.mpr ⟨_, _, Regex.accepts_lit.mpr rfl,
      Regex.accepts_seq.mpr ⟨_, _, Regex.accepts_group.mpr
        ⟨⟨name, []⟩, accepts_serviceName.mpr ⟨hn, rfl⟩, rfl⟩,
      Regex.accepts_seq.mpr ⟨⟨q', []⟩, _, accepts_quote.mpr ⟨hq', rfl⟩,
      Regex.accepts_seq.mpr ⟨_, _, Regex.accepts_star.mpr ⟨blanks, hblanks, rfl⟩,
      Regex.accepts_seq.mpr ⟨⟨comment, []⟩, _, accepts_comment.mpr ⟨hcomment, rfl⟩,
        Regex.accepts_lineEnd.mpr ⟨heol, rfl⟩, rfl⟩, rfl⟩, rfl⟩, rfl⟩, rfl⟩, ?_⟩
    simp only [List.append_nil, List.nil_append]

/-- A reference is a key and a value that names a service, at the beginning of a line and up to the
end of one. -/
theorem accepts_serviceNetworkModeRe :
    serviceNetworkModeRe.Accepts newline bol m rest ↔
      bol = true ∧ Regex.atEol newline rest = true ∧
        ∃ key name line, IsKey key ∧ IsTarget name line ∧
        m = ⟨key ++ line, [(1, key), (2, name)]⟩ := by
  constructor
  · intro h
    obtain ⟨a, m₁, ha, h₁, rfl⟩ := Regex.accepts_seq.mp h
    obtain ⟨g, t, hg, ht, rfl⟩ := Regex.accepts_seq.mp h₁
    obtain ⟨k, hk, rfl⟩ := Regex.accepts_group.mp hg
    obtain ⟨rfl, rfl⟩ := Regex.accepts_lineStart.mp ha
    obtain ⟨hkey, hkg⟩ := accepts_networkModeKeyRe.mp hk
    obtain ⟨name, htarget, heol, htg⟩ := accepts_networkModeServiceRe.mp ht
    refine ⟨rfl, heol, k.text, name, t.text, hkey, htarget, ?_⟩
    simp only [hkg, htg, List.nil_append, List.cons_append]
  · rintro ⟨rfl, heol, key, name, line, hkey, htarget, rfl⟩
    exact Regex.accepts_seq.mpr ⟨_, _, Regex.accepts_lineStart.mpr ⟨rfl, rfl⟩,
      Regex.accepts_seq.mpr ⟨_, ⟨line, [(2, name)]⟩, Regex.accepts_group.mpr
        ⟨⟨key, []⟩, accepts_networkModeKeyRe.mpr ⟨hkey, rfl⟩, rfl⟩,
        accepts_networkModeServiceRe.mpr ⟨name, htarget, heol, rfl⟩, rfl⟩, rfl⟩

/-! ## Where references are -/

/-- There is a reference at `s`, if `s` begins a line. -/
def HasReference (s : Bytes) : Prop := ∃ m, m ∈ serviceNetworkModeRe.matchesAt newline true s

/-- The rest of the line. -/
def restOfLine (s : Bytes) : Bytes := s.takeWhile (· != newline)

private theorem dropWhile_append_of_head {p : UInt8 → Bool} {u : Bytes} {b : UInt8}
    (hu : u.head? = some b) (hb : p b = false) (v : Bytes) : (u ++ v).dropWhile p = u ++ v := by
  obtain ⟨u, rfl⟩ := List.head?_eq_some_iff.mp hu
  rw [List.cons_append, List.dropWhile_cons_of_neg (by simp [hb])]

/-- A line ends where the text does, or at a line feed. -/
theorem restOfLine_append {v : Bytes} (hv : newline ∉ v)
    (hrest : Regex.atEol newline rest = true) : restOfLine (v ++ rest) = v := by
  have hall : ∀ b ∈ v, (b != newline) = true := by
    intro b hb
    rw [bne_iff_ne]
    exact fun heq ↦ hv (heq ▸ hb)
  rw [restOfLine, List.takeWhile_append_of_pos hall]
  cases rest with
  | nil => rw [List.takeWhile_nil, List.append_nil]
  | cons c rest =>
    rw [Regex.atEol] at hrest
    rw [List.takeWhile_cons_of_neg (by simp [bne, hrest]), List.append_nil]

/-- A text is its first line and a rest. -/
theorem exists_restOfLine (s : Bytes) :
    ∃ rest, s = restOfLine s ++ rest ∧ newline ∉ restOfLine s ∧
      Regex.atEol newline rest = true := by
  refine ⟨s.dropWhile (· != newline), (List.takeWhile_append_dropWhile).symm, ?_, ?_⟩
  · intro hmem
    have := List.mem_takeWhile_imp hmem
    simp at this
  · cases hrest : s.dropWhile (· != newline) with
    | nil => rfl
    | cons c rest =>
      have hc := List.head?_dropWhile_not (· != newline) s
      rw [hrest] at hc
      simpa [Regex.atEol] using hc

private theorem head?_networkModeKey : networkModeKey.head? = some 110 := by decide

/-- The key is within a line. -/
theorem newline_notMem_networkModeKey : newline ∉ networkModeKey := by decide

private theorem of_oneOf (p : UInt8 → Bool) {chars : String} (h : (goBytes chars).all p = true)
    {b : UInt8} (hb : oneOf chars b = true) : p b = true :=
  List.all_eq_true.mp h b (List.contains_iff_mem.mp hb)

/-- A value that refers to a service begins with a quote or with `service:`. -/
theorem IsTarget.head? (h : IsTarget name line) : ∃ b ∈ goBytes "\"'s", line.head? = some b := by
  obtain ⟨q, q', blanks, comment, rfl, hq, -⟩ := h
  rcases hq with rfl | ⟨b, hb, rfl⟩
  · refine ⟨115, by decide, ?_⟩
    rw [List.nil_append, List.head?_append_of_ne_nil _ (by decide)]
    decide
  · have hquote : (goBytes "\"'s").contains b = true := of_oneOf _ (by decide) hb
    exact ⟨b, List.contains_iff_mem.mp hquote, rfl⟩

/-- It lies in a line. -/
theorem IsTarget.newline_notMem (h : IsTarget name line) : newline ∉ line := by
  obtain ⟨q, q', blanks, comment, rfl, hq, hname, hq', hblanks, hcomment⟩ := h
  have hquote (q : Bytes) (hq : IsQuote q) : newline ∉ q := by
    rcases hq with rfl | ⟨b, hb, rfl⟩
    · exact List.not_mem_nil
    · rw [List.mem_singleton]
      rintro rfl
      exact absurd hb (by decide)
  simp only [List.mem_append, not_or]
  refine ⟨hquote q hq, by decide, fun hmem ↦ ?_, hquote q' hq', fun hmem ↦ ?_, ?_⟩
  · exact absurd (hname.2 _ hmem) (by decide)
  · exact absurd (hblanks _ hmem) (by decide)
  · rcases hcomment with rfl | ⟨text, htext, rfl⟩
    · exact List.not_mem_nil
    · rw [List.mem_append, not_or]
      exact ⟨by decide, htext⟩

/-- A quote is one. -/
theorem IsQuote.forall_mem {q : Bytes} (hq : IsQuote q) :
    ∀ b ∈ q, oneOf "\"'" b = true := by
  rcases hq with rfl | ⟨b, hb, rfl⟩
  · simp
  · simpa using hb

private theorem takeWhile_serviceByte_eq_nil {q blanks comment : Bytes} (hq : IsQuote q)
    (hblanks : ∀ b ∈ blanks, oneOf " \t" b = true) (hcomment : IsComment comment) :
    (q ++ (blanks ++ comment)).takeWhile isServiceByte = [] := by
  have hcons (b : UInt8) (hb : (!isServiceByte b) = true) (u : Bytes) :
      (b :: u).takeWhile isServiceByte = [] := List.takeWhile_cons_of_neg (by simpa using hb)
  rcases hq with rfl | ⟨b, hb, rfl⟩
  · cases blanks with
    | nil =>
      rcases hcomment with rfl | ⟨text, -, rfl⟩
      · rfl
      · exact hcons 35 (by decide) text
    | cons b blanks =>
      exact hcons b (of_oneOf (!isServiceByte ·) (by decide) (hblanks b List.mem_cons_self)) _
  · exact hcons b (of_oneOf (!isServiceByte ·) (by decide) hb) _

/-- A value names one service. -/
theorem IsTarget.name_eq (h : IsTarget name line) :
    name = ((line.dropWhile (oneOf "\"'")).drop (goBytes "service:").length).takeWhile
      isServiceByte := by
  obtain ⟨q, q', blanks, comment, rfl, hq, hname, hq', hblanks, hcomment⟩ := h
  have hservice : (goBytes "service:").head? = some 115 := by decide
  rw [List.dropWhile_append_of_pos hq.forall_mem,
    dropWhile_append_of_head hservice (by decide), List.drop_left,
    List.takeWhile_append_of_pos hname.2, takeWhile_serviceByte_eq_nil hq' hblanks hcomment,
    List.append_nil]

/-- Such a value does not begin with a space. -/
theorem IsTarget.spaceByte_head (h : IsTarget name line) :
    ∃ b, line.head? = some b ∧ spaceByte b = false := by
  obtain ⟨b, hb, hhead⟩ := h.head?
  have hspace := of_oneOf (!spaceByte ·) (by decide) (List.contains_iff_mem.mpr hb)
  exact ⟨b, hhead, by simpa using hspace⟩

private theorem dropWhile_key {before after u : Bytes} {b : UInt8}
    (hbefore : ∀ b ∈ before, spaceByte b = true) (hafter : ∀ b ∈ after, spaceByte b = true)
    (hu : u.head? = some b) (hb : spaceByte b = false) (v : Bytes) :
    ((before ++ (networkModeKey ++ after)) ++ (u ++ v)).dropWhile spaceByte =
        networkModeKey ++ (after ++ (u ++ v)) ∧
      (after ++ (u ++ v)).dropWhile spaceByte = u ++ v := by
  constructor
  · rw [List.append_assoc, List.append_assoc, List.dropWhile_append_of_pos hbefore,
      dropWhile_append_of_head head?_networkModeKey (by decide)]
  · rw [List.dropWhile_append_of_pos hafter, dropWhile_append_of_head hu hb]

/-- There is a reference where a key stands after spaces, and its value names a service. -/
theorem hasReference_iff {s : Bytes} :
    HasReference s ↔ ∃ t, s.dropWhile spaceByte = networkModeKey ++ t ∧
      ∃ name, IsTarget name (restOfLine (t.dropWhile spaceByte)) := by
  constructor
  · rintro ⟨m, hm⟩
    obtain ⟨rest, rfl, h⟩ := Regex.mem_matchesAt_iff.mp hm
    obtain ⟨-, heol, _, name, line, ⟨before, after, rfl, hbefore, hafter⟩, htarget, rfl⟩ :=
      accepts_serviceNetworkModeRe.mp h
    obtain ⟨b, hhead, hb⟩ := htarget.spaceByte_head
    obtain ⟨hkey, hvalue⟩ := dropWhile_key hbefore hafter hhead hb rest
    refine ⟨after ++ (line ++ rest), ?_, name, ?_⟩
    · rw [List.append_assoc, hkey]
    · rwa [hvalue, restOfLine_append htarget.newline_notMem heol]
  · rintro ⟨t, ht, name, htarget⟩
    obtain ⟨rest, hrest, -, heol⟩ := exists_restOfLine (t.dropWhile spaceByte)
    have hall (u : Bytes) : ∀ b ∈ u.takeWhile spaceByte, spaceByte b = true := fun b hb ↦
      List.mem_takeWhile_imp hb
    refine ⟨_, Regex.mem_matchesAt_iff.mpr ⟨rest, ?_, accepts_serviceNetworkModeRe.mpr
      ⟨rfl, heol, _, name, _, ⟨s.takeWhile spaceByte, t.takeWhile spaceByte, rfl, hall s, hall t⟩,
        htarget, rfl⟩⟩⟩
    simp only [List.append_assoc]
    rw [← hrest, List.takeWhile_append_dropWhile, ← ht, List.takeWhile_append_dropWhile]

private theorem key_value_inj {key' line' name' rest' : Bytes} (hkey : IsKey key)
    (hkey' : IsKey key') (htarget : IsTarget name line) (htarget' : IsTarget name' line')
    (heol : Regex.atEol newline rest = true) (heol' : Regex.atEol newline rest' = true)
    (h : key ++ (line ++ rest) = key' ++ (line' ++ rest')) :
    key = key' ∧ name = name' ∧ line = line' := by
  obtain ⟨before, after, hk, hbefore, hafter⟩ := hkey
  obtain ⟨before', after', hk', hbefore', hafter'⟩ := hkey'
  obtain ⟨b, hhead, hb⟩ := htarget.spaceByte_head
  obtain ⟨b', hhead', hb'⟩ := htarget'.spaceByte_head
  have hvalues : line ++ rest = line' ++ rest' := by
    obtain ⟨hdrop, hvalue⟩ := dropWhile_key hbefore hafter hhead hb rest
    obtain ⟨hdrop', hvalue'⟩ := dropWhile_key hbefore' hafter' hhead' hb' rest'
    rw [← hk, h, hk', hdrop'] at hdrop
    rw [← hvalue, ← List.append_cancel_left hdrop, hvalue']
  have hline : line = line' := by
    rw [← restOfLine_append htarget.newline_notMem heol, hvalues,
      restOfLine_append htarget'.newline_notMem heol']
  refine ⟨?_, ?_, hline⟩
  · rw [hvalues] at h
    exact List.append_cancel_right h
  · rw [htarget.name_eq, hline, ← htarget'.name_eq]

/-- There is at most one. -/
theorem eq_of_mem_matchesAt {s : Bytes} {m m' : RegexMatch UInt8}
    (h : m ∈ serviceNetworkModeRe.matchesAt newline true s)
    (h' : m' ∈ serviceNetworkModeRe.matchesAt newline true s) : m = m' := by
  obtain ⟨rest, hrest, h⟩ := Regex.mem_matchesAt_iff.mp h
  obtain ⟨rest', hrest', h'⟩ := Regex.mem_matchesAt_iff.mp h'
  obtain ⟨-, heol, key, name, line, hkey, htarget, rfl⟩ := accepts_serviceNetworkModeRe.mp h
  obtain ⟨-, heol', key', name', line', hkey', htarget', rfl⟩ :=
    accepts_serviceNetworkModeRe.mp h'
  rw [hrest, List.append_assoc, List.append_assoc] at hrest'
  obtain ⟨rfl, rfl, rfl⟩ := key_value_inj hkey hkey' htarget htarget' heol heol' hrest'
  rfl

/-- Outside the beginnings of lines, and where no reference is, nothing is found. -/
theorem head?_matchesAt_eq_none_iff {s : Bytes} :
    (serviceNetworkModeRe.matchesAt newline bol s).head? = none ↔
      bol = true → ¬ HasReference s := by
  rw [List.head?_eq_none_iff]
  cases bol with
  | false => simp [Regex.matchesAt_false networkMode_startsLine]
  | true => simp [HasReference, List.eq_nil_iff_forall_not_mem]

/-- What is a reference is found. -/
theorem head?_matchesAt_of_accepts (h : serviceNetworkModeRe.Accepts newline bol m rest) :
    (serviceNetworkModeRe.matchesAt newline bol (m.text ++ rest)).head? = some m := by
  have hmem : m ∈ serviceNetworkModeRe.matchesAt newline bol (m.text ++ rest) := h
  obtain ⟨rfl, -⟩ := accepts_serviceNetworkModeRe.mp h
  cases hhead : (serviceNetworkModeRe.matchesAt newline true (m.text ++ rest)).head? with
  | none => exact absurd ⟨m, hmem⟩ (head?_matchesAt_eq_none_iff.mp hhead rfl)
  | some m' => rw [eq_of_mem_matchesAt (List.mem_of_head? hhead) hmem]

/-- A reference is found as it is, whatever follows its line. -/
theorem head?_matchesAt_append {s : Bytes}
    (h : (serviceNetworkModeRe.matchesAt newline bol s).head? = some m)
    (heol : Regex.atEol newline rest = true) :
    (serviceNetworkModeRe.matchesAt newline bol (m.text ++ rest)).head? = some m := by
  obtain ⟨rest', -, haccepts⟩ := Regex.mem_matchesAt_iff.mp (List.mem_of_head? h)
  obtain ⟨hbol, -, hparts⟩ := accepts_serviceNetworkModeRe.mp haccepts
  exact head?_matchesAt_of_accepts (accepts_serviceNetworkModeRe.mpr ⟨hbol, heol, hparts⟩)

/-! ## The parts of a compose file -/

/-- The references of a compose file, and the other bytes. -/
def networkModeParts (bol : Bool) (s : Bytes) : List (Regex.Part UInt8) :=
  serviceNetworkModeRe.parts newline bol 0 s

/-- What becomes of a part, when services have the ids `ids`. -/
def resolvePart (ids : Bytes → Option Bytes) : Regex.Part UInt8 → Bytes
  | .char c => [c]
  | .found m =>
    match ids (m.sub 2) with
    | none => m.text
    | some id => m.sub 1 ++ goBytes "container:" ++ id

/-- What becomes of the rest `s` of a compose file. -/
def resolveParts (ids : Bytes → Option Bytes) (bol : Bool) (s : Bytes) : Bytes :=
  (networkModeParts bol s).flatMap (resolvePart ids)

variable {ids : Bytes → Option Bytes}

/-- A byte where nothing is found is a part. -/
theorem networkModeParts_of_none {c : UInt8} {s : Bytes}
    (h : (serviceNetworkModeRe.matchesAt newline bol (c :: s)).head? = none) :
    networkModeParts bol (c :: s) = .char c :: networkModeParts (c == newline) s :=
  Regex.parts_of_none h

/-- After a reference its line ends. -/
theorem end_of_match
    (h : (serviceNetworkModeRe.matchesAt newline bol (m.text ++ rest)).head? = some m) :
    Regex.bolAfter newline bol m.text = false ∧ Regex.atEol newline rest = true := by
  obtain ⟨-, heol, key, name, line, -, htarget, heq⟩ :=
    accepts_serviceNetworkModeRe.mp (List.mem_of_head? h)
  refine ⟨?_, heol⟩
  obtain ⟨b, -, hhead⟩ := htarget.head?
  have hne : line ≠ [] := by
    rintro rfl
    cases hhead
  rw [heq, Regex.bolAfter, List.getLast?_append_of_ne_nil _ hne, List.getLast?_eq_some_getLast hne]
  exact beq_eq_false_iff_ne.mpr fun hlast ↦
    htarget.newline_notMem (hlast ▸ List.getLast_mem hne)

/-- A reference is one part. -/
theorem networkModeParts_of_match
    (h : (serviceNetworkModeRe.matchesAt newline bol (m.text ++ rest)).head? = some m) :
    networkModeParts bol (m.text ++ rest) = .found m :: networkModeParts false rest := by
  rw [networkModeParts, Regex.parts_of_match h (networkMode_ne_nil bol _ m h), (end_of_match h).1,
    List.drop_left]
  rfl

/-- Where nothing is found a byte stays. -/
theorem resolveParts_of_none {c : UInt8} {s : Bytes}
    (h : (serviceNetworkModeRe.matchesAt newline bol (c :: s)).head? = none) :
    resolveParts ids bol (c :: s) = c :: resolveParts ids (c == newline) s := by
  rw [resolveParts, networkModeParts_of_none h]
  rfl

/-- A reference is resolved as a whole. -/
theorem resolveParts_of_match
    (h : (serviceNetworkModeRe.matchesAt newline bol (m.text ++ rest)).head? = some m) :
    resolveParts ids bol (m.text ++ rest) =
      resolvePart ids (.found m) ++ resolveParts ids false rest := by
  rw [resolveParts, networkModeParts_of_match h]
  rfl

/-- Bytes outside references stay. -/
theorem flatMap_resolvePart_char (v : Bytes) :
    (v.map Regex.Part.char).flatMap (resolvePart ids) = v := by
  rw [List.flatMap_map]
  exact List.flatMap_singleton' v

/-- The rest of a line stays. -/
theorem resolveParts_line {v : Bytes} (hv : newline ∉ v) (s : Bytes) :
    resolveParts ids false (v ++ s) = v ++ resolveParts ids false s := by
  rw [resolveParts, networkModeParts, Regex.parts_append_of_notMem networkMode_startsLine hv,
    List.flatMap_append, flatMap_resolvePart_char]
  rfl

private theorem atEol_resolveParts {s : Bytes} (h : Regex.atEol newline s = true) :
    Regex.atEol newline (resolveParts ids false s) = true := by
  cases s with
  | nil => rfl
  | cons c s =>
    have hnone : (serviceNetworkModeRe.matchesAt newline false (c :: s)).head? = none := by
      rw [Regex.matchesAt_false networkMode_startsLine, List.head?_nil]
    rw [resolveParts_of_none hnone]
    exact h

/-! ## Nothing is left to resolve -/

theorem newline_spaceByte : spaceByte newline = true := by decide

private theorem HasReference.cons {c : UInt8} (hc : spaceByte c = true) {s : Bytes}
    (h : HasReference s) : HasReference (c :: s) := by
  rw [hasReference_iff, List.dropWhile_cons_of_pos hc]
  exact hasReference_iff.mp h

private theorem dropWhile_resolveParts (ids : Bytes → Option Bytes) (bol : Bool) (s : Bytes) :
    (HasReference s ∧ ∃ t, (resolveParts ids bol s).dropWhile spaceByte = networkModeKey ++ t) ∨
      ∃ line rest, newline ∉ line ∧ Regex.atEol newline rest = true ∧
        s.dropWhile spaceByte = line ++ rest ∧
        (resolveParts ids bol s).dropWhile spaceByte = line ++ resolveParts ids false rest := by
  induction bol, s using Regex.parts_induction networkMode_ne_nil with
  | nil bol => exact .inr ⟨[], [], List.not_mem_nil, rfl, rfl, rfl⟩
  | char bol c s hnone ih =>
    rw [resolveParts_of_none hnone]
    by_cases hc : spaceByte c = true
    · rw [List.dropWhile_cons_of_pos hc, List.dropWhile_cons_of_pos hc]
      exact ih.imp_left (And.imp_left (HasReference.cons hc))
    · -- the line goes on with `c`
      have hne : c ≠ newline := fun heq ↦ hc (heq ▸ newline_spaceByte)
      obtain ⟨rest, hs, hline, heol⟩ := exists_restOfLine s
      right
      refine ⟨c :: restOfLine s, rest, ?_, heol, ?_, ?_⟩
      · rw [List.mem_cons, not_or]
        exact ⟨Ne.symm hne, hline⟩
      · rw [List.dropWhile_cons_of_neg hc, List.cons_append, ← hs]
      · rw [List.dropWhile_cons_of_neg hc, beq_eq_false_iff_ne.mpr hne, List.cons_append,
          ← resolveParts_line hline, ← hs]
  | found bol m rest hhead ih =>
    left
    have hmem := List.mem_of_head? hhead
    obtain ⟨rfl, -, key, name, line, ⟨before, after, rfl, hbefore, -⟩, -, heq⟩ :=
      accepts_serviceNetworkModeRe.mp hmem
    refine ⟨⟨m, hmem⟩, ?_⟩
    have hdrop (u : Bytes) : ((before ++ (networkModeKey ++ after)) ++ u).dropWhile spaceByte =
        networkModeKey ++ (after ++ u) := by
      rw [List.append_assoc, List.append_assoc, List.dropWhile_append_of_pos hbefore,
        dropWhile_append_of_head head?_networkModeKey (by decide)]
    rw [resolveParts_of_match hhead, resolvePart]
    split
    · rw [heq, List.append_assoc, hdrop]
      exact ⟨_, rfl⟩
    · have hsub : m.sub 1 = before ++ (networkModeKey ++ after) := by
        rw [heq]
        rfl
      rw [hsub, List.append_assoc, List.append_assoc, hdrop]
      exact ⟨_, rfl⟩

private theorem not_isTarget_of_head {u v : Bytes} {b : UInt8} (hu : u.head? = some b)
    (hb : b ∉ goBytes "\"'s") (hne : b ≠ newline) : ¬ IsTarget name (restOfLine (u ++ v)) := by
  intro h
  obtain ⟨u, rfl⟩ := List.head?_eq_some_iff.mp hu
  obtain ⟨b', hb', hhead⟩ := h.head?
  rw [List.cons_append, restOfLine, List.takeWhile_cons_of_pos (by simpa using hne)] at hhead
  rw [← Option.some.inj hhead] at hb'
  exact hb hb'

private theorem prefix_of_append_eq {u line rest v : Bytes} (hu : newline ∉ u)
    (hrest : Regex.atEol newline rest = true) (h : line ++ rest = u ++ v) : u <+: line := by
  rcases List.append_eq_append_iff.mp h with ⟨w, hw, hrest'⟩ | ⟨w, hw, -⟩
  · cases w with
    | nil => exact ⟨[], by rw [hw, List.append_nil, List.append_nil]⟩
    | cons c w =>
      rw [hrest', List.cons_append, Regex.atEol, beq_iff_eq] at hrest
      rw [hw, hrest] at hu
      simp at hu
  · exact ⟨w, hw.symm⟩

/-- Resolving makes no reference. -/
theorem hasReference_of_resolveParts (ids : Bytes → Option Bytes) {s : Bytes}
    (h : HasReference (resolveParts ids true s)) :
    HasReference s := by
  obtain ⟨t, ht, name, htarget⟩ := hasReference_iff.mp h
  rcases dropWhile_resolveParts ids true s with ⟨h, -⟩ | ⟨line, rest, hline, heol, hs, hout⟩
  · exact h
  rw [hout] at ht
  -- the key lies in the line
  obtain ⟨v, rfl⟩ : networkModeKey <+: line :=
    prefix_of_append_eq newline_notMem_networkModeKey (atEol_resolveParts heol) ht
  rw [List.append_assoc] at ht hs
  obtain rfl := List.append_cancel_left ht
  refine hasReference_iff.mpr ⟨v ++ rest, hs, name, ?_⟩
  -- so the value is the same, in this line or in a later one
  have hv : newline ∉ v.dropWhile spaceByte := fun hmem ↦
    hline (List.mem_append_right _ (List.dropWhile_subset _ hmem))
  rw [List.dropWhile_append] at htarget ⊢
  by_cases hspaces : (v.dropWhile spaceByte).isEmpty = true
  · rw [if_pos hspaces] at htarget ⊢
    rcases dropWhile_resolveParts ids false rest with
      ⟨-, t, ht⟩ | ⟨line', rest', hline', heol', hrest, hout'⟩
    · rw [ht] at htarget
      exact absurd htarget
        (not_isTarget_of_head head?_networkModeKey (by decide) (by decide))
    · rw [hout', restOfLine_append hline' (atEol_resolveParts heol')] at htarget
      rwa [hrest, restOfLine_append hline' heol']
  · rw [if_neg hspaces] at htarget ⊢
    rw [restOfLine_append hv (atEol_resolveParts heol)] at htarget
    rwa [restOfLine_append hv heol]

private theorem networkModeParts_spaces {spaces s : Bytes}
    (hspaces : ∀ b ∈ spaces, spaceByte b = true) (hs : ¬ HasReference s) (bol : Bool) :
    networkModeParts bol (spaces ++ s) =
      spaces.map .char ++ networkModeParts (Regex.bolAfter newline bol spaces) s := by
  induction spaces generalizing bol with
  | nil => rfl
  | cons c spaces ih =>
    obtain ⟨hc, hspaces⟩ := List.forall_mem_cons.mp hspaces
    have hno : ¬ HasReference (c :: (spaces ++ s)) := by
      rw [hasReference_iff, ← List.cons_append,
        List.dropWhile_append_of_pos (List.forall_mem_cons.mpr ⟨hc, hspaces⟩), ← hasReference_iff]
      exact hs
    rw [List.cons_append,
      networkModeParts_of_none (head?_matchesAt_eq_none_iff.mpr fun _ ↦ hno), ih hspaces,
      Regex.bolAfter_cons]
    rfl

private theorem networkModeParts_line {v s : Bytes} (hne : v ≠ []) (hv : newline ∉ v)
    (hs : ¬ HasReference (v ++ s)) (bol : Bool) :
    networkModeParts bol (v ++ s) = v.map .char ++ networkModeParts false s := by
  obtain ⟨c, v, rfl⟩ := List.exists_cons_of_ne_nil hne
  rw [List.mem_cons, not_or] at hv
  rw [List.cons_append] at hs ⊢
  rw [networkModeParts_of_none (head?_matchesAt_eq_none_iff.mpr fun _ ↦ hs),
    beq_eq_false_iff_ne.mpr (Ne.symm hv.1), networkModeParts,
    Regex.parts_append_of_notMem networkMode_startsLine hv.2]
  rfl

/-- A key whose value names no service stays as it is, and its line, too. -/
theorem networkModeParts_value (hkey : IsKey key) {u s : Bytes} {b : UInt8}
    (hhead : u.head? = some b) (hspace : spaceByte b = false) (hb : b ≠ 110) (hu : newline ∉ u)
    (hno : ∀ name, ¬ IsTarget name (restOfLine (u ++ s))) (bol : Bool) :
    networkModeParts bol (key ++ (u ++ s)) =
      (key ++ u).map .char ++ networkModeParts false s := by
  obtain ⟨before, after, rfl, hbefore, hafter⟩ := hkey
  have hvalue : ¬ HasReference (u ++ s) := by
    rw [hasReference_iff, dropWhile_append_of_head hhead hspace]
    rintro ⟨t, ht, -⟩
    have hheads := congrArg List.head? ht
    rw [List.head?_append, hhead, List.head?_append, head?_networkModeKey] at hheads
    exact hb (Option.some.inj hheads)
  have hkey : ¬ HasReference (networkModeKey ++ (after ++ (u ++ s))) := by
    rw [hasReference_iff, dropWhile_append_of_head head?_networkModeKey (by decide)]
    rintro ⟨t, ht, name, htarget⟩
    rw [← List.append_cancel_left ht, List.dropWhile_append_of_pos hafter,
      dropWhile_append_of_head hhead hspace] at htarget
    exact hno name htarget
  have hne : u ≠ [] := by
    rintro rfl
    cases hhead
  rw [List.append_assoc, List.append_assoc, networkModeParts_spaces hbefore hkey,
    networkModeParts_line (by decide) newline_notMem_networkModeKey hkey,
    networkModeParts_spaces hafter hvalue, networkModeParts_line hne hu hvalue]
  simp only [List.map_append, List.append_assoc]

private theorem networkModeParts_resolved (hkey : IsKey key) {id : Bytes}
    (hid : newline ∉ goBytes "container:" ++ id) (s : Bytes) (bol : Bool) :
    networkModeParts bol (key ++ ((goBytes "container:" ++ id) ++ s)) =
      (key ++ (goBytes "container:" ++ id)).map .char ++ networkModeParts false s := by
  have hhead : (goBytes "container:" ++ id).head? = some 99 := by
    rw [List.head?_append_of_ne_nil _ (by decide)]
    decide
  exact networkModeParts_value hkey hhead (by decide) (by decide) hid
    (fun name ↦ not_isTarget_of_head hhead (by decide) (by decide)) bol

/-- What is found in a resolved text are references to services without a container. -/
theorem ids_eq_none_of_found (hids : ∀ svc id, ids svc = some id → newline ∉ id) {s : Bytes}
    {m' : RegexMatch UInt8} (h : .found m' ∈ networkModeParts bol (resolveParts ids bol s)) :
    ids (m'.sub 2) = none := by
  induction bol, s using Regex.parts_induction networkMode_ne_nil with
  | nil bol => cases h
  | char bol c s hnone ih =>
    have hnone' : (serviceNetworkModeRe.matchesAt newline bol
        (c :: resolveParts ids (c == newline) s)).head? = none := by
      rw [head?_matchesAt_eq_none_iff] at hnone ⊢
      rintro rfl hreference
      apply hnone rfl
      apply hasReference_of_resolveParts ids
      rwa [resolveParts_of_none (head?_matchesAt_eq_none_iff.mpr hnone)]
    rw [resolveParts_of_none hnone, networkModeParts_of_none hnone'] at h
    exact ih ((List.mem_cons.mp h).resolve_left nofun)
  | found bol m rest hhead ih =>
    obtain ⟨hbol, heol⟩ := end_of_match hhead
    rw [hbol] at ih
    rw [resolveParts_of_match hhead, resolvePart] at h
    split at h
    · next hid =>
      rw [networkModeParts_of_match (head?_matchesAt_append hhead (atEol_resolveParts heol))] at h
      rcases List.mem_cons.mp h with h | h
      · rwa [Regex.Part.found.inj h]
      · exact ih h
    · next id hid =>
      obtain ⟨-, -, key, name, line, hkey, -, heq⟩ :=
        accepts_serviceNetworkModeRe.mp (List.mem_of_head? hhead)
      have hsub : m.sub 1 = key := by
        rw [heq]
        rfl
      have hline : newline ∉ goBytes "container:" ++ id := by
        rw [List.mem_append, not_or]
        exact ⟨by decide, hids _ id hid⟩
      rw [hsub, List.append_assoc, List.append_assoc, ← List.append_assoc (goBytes _),
        networkModeParts_resolved hkey hline] at h
      rcases List.mem_append.mp h with h | h
      · obtain ⟨c, -, hc⟩ := List.mem_map.mp h
        cases hc
      · exact ih h

/-! ## The rewriting -/

/-- The last container of a service. -/
def serviceContainer (L : List Summary) (svc : Bytes) : Option Summary :=
  L.reverse.find? fun c ↦ (c.labels.get? serviceLabel).map goBytes == some svc

/-- The id that is recorded for a service. -/
def serviceID (L : List Summary) (svc : Bytes) : Option Bytes :=
  (serviceContainer L svc).map (goBytes ·.id)

variable {L : List Summary}

/-- The id of a service is that of its last container. -/
theorem serviceIDs_get? (L : List Summary) : (serviceIDs L).get? = serviceID L := by
  funext svc
  induction L using List.reverseRecOn with
  | nil => rfl
  | append_singleton L c ih =>
    rw [serviceIDs, List.foldl_append, List.foldl_cons, List.foldl_nil, serviceID,
      serviceContainer, List.reverse_append, List.reverse_singleton, List.singleton_append,
      List.find?_cons, putServiceID]
    rw [serviceIDs, serviceID, serviceContainer] at ih
    cases hservice : c.labels.get? serviceLabel with
    | none => exact ih
    | some service =>
      simp only [Option.map_some]
      rw [KeyMap.get?_insert]
      by_cases heq : svc = goBytes service
      · rw [if_pos heq, heq, beq_self_eq_true]
        rfl
      · rw [if_neg heq, ih, beq_eq_false_iff_ne.mpr fun h ↦ heq (Option.some.inj h).symm]

private theorem find?_of_found {s : Bytes} (h : .found m ∈ networkModeParts bol s) :
    serviceNetworkModeRe.find? newline true m.text = some m := by
  obtain ⟨s', hs'⟩ := Regex.exists_of_found networkMode_startsLine networkMode_ne_nil h
  exact Regex.find?_text hs'
    (Regex.atEol_of_mem_matchesAt networkMode_endsLine (List.mem_of_head? hs'))

/-- The rewritten text. -/
theorem resolveServiceNetworkModes_fst (compose : Bytes) (L : List Summary) :
    (resolveServiceNetworkModes compose L).1 = resolveParts (serviceID L) true compose := by
  rw [resolveServiceNetworkModes, Regex.replaceAllFunc, Regex.segments_eq_map_parts,
    List.flatMap_map, resolveParts, ← serviceIDs_get?]
  apply List.flatMap_congr
  intro part hpart
  cases part with
  | char c => rfl
  | found m =>
    rw [Regex.Part.segment, Regex.Segment.replace, resolveLine, find?_of_found hpart]
    rfl

/-- The flag. -/
theorem resolveServiceNetworkModes_snd (compose : Bytes) (L : List Summary) :
    (resolveServiceNetworkModes compose L).2 = true ↔
      ∃ m, .found m ∈ networkModeParts true compose ∧
        (serviceID L (m.sub 2)).isSome = true := by
  rw [resolveServiceNetworkModes, List.any_eq_true, ← serviceIDs_get?]
  simp only [networkModeLines, Regex.segments_eq_map_parts, List.filterMap_map, List.mem_filterMap]
  constructor
  · rintro ⟨line, ⟨part, hpart, hline⟩, hid⟩
    cases part with
    | char c => cases hline
    | found m =>
      obtain rfl : m.text = line := Option.some.inj hline
      rw [lineService, find?_of_found hpart] at hid
      exact ⟨m, hpart, hid⟩
  · rintro ⟨m, hm, hid⟩
    refine ⟨m.text, ⟨.found m, hm, rfl⟩, ?_⟩
    rw [lineService, find?_of_found hm]
    exact hid

private theorem serviceID_eq_some {svc id : Bytes} (h : serviceID L svc = some id) :
    ∃ c ∈ L, goBytes c.id = id := by
  obtain ⟨c, hc, rfl⟩ := Option.map_eq_some_iff.mp h
  exact ⟨c, List.mem_reverse.mp (List.mem_of_find?_eq_some hc), rfl⟩

/-- Rewriting changes exactly the references to services that have a container: a reference becomes
its key, `container:` and the id of the service's last container, and all other parts of the text
stay. The flag says whether there was one. A second time nothing changes. -/
theorem resolveServiceNetworkModes_exact (compose : Bytes) (L : List Summary)
    (hids : PlainIDs L) :
    (networkModeParts true compose).flatMap Regex.Part.text = compose ∧
      (resolveServiceNetworkModes compose L).1 =
        (networkModeParts true compose).flatMap (resolvePart (serviceID L)) ∧
      ((resolveServiceNetworkModes compose L).2 = true ↔
        ∃ m, .found m ∈ networkModeParts true compose ∧
          (serviceContainer L (m.sub 2)).isSome = true) ∧
      resolveServiceNetworkModes (resolveServiceNetworkModes compose L).1 L =
        ((resolveServiceNetworkModes compose L).1, false) := by
  have hplain : ∀ svc id, serviceID L svc = some id → newline ∉ id := by
    intro svc id h
    obtain ⟨c, hc, rfl⟩ := serviceID_eq_some h
    exact newline_notMem_utf8Encode (hids c hc)
  have hagain : (resolveServiceNetworkModes (resolveServiceNetworkModes compose L).1 L).2 =
      false := by
    rw [Bool.eq_false_iff, ne_eq, resolveServiceNetworkModes_snd, resolveServiceNetworkModes_fst]
    rintro ⟨m, hm, hsome⟩
    rw [ids_eq_none_of_found hplain hm] at hsome
    cases hsome
  refine ⟨Regex.flatMap_parts networkMode_ne_nil true compose,
    resolveServiceNetworkModes_fst compose L, ?_, ?_⟩
  · simp only [resolveServiceNetworkModes_snd, serviceID, Option.isSome_map]
  · exact Prod.ext (resolveServiceNetworkModes_of_false hagain) hagain

/-- A service in the network of another one, rewritten twice. -/
theorem resolveServiceNetworkModes_exact_demo :
    resolveServiceNetworkModes (resolveServiceNetworkModes demoCompose demoContainers).1
        demoContainers =
      (goBytes "services:\n  app:\n    network_mode: container:a1\n  vpn:\n    image: gluetun\n",
        false) := by
  have hplain : ∀ c ∈ demoContainers, '\n' ∉ c.id.toList := by decide
  rw [(resolveServiceNetworkModes_exact demoCompose demoContainers hplain).2.2.2]
  decide +kernel

end Dockstack.Docker
