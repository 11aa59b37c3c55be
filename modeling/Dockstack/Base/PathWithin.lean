import Dockstack.Base.Path

/-!
# Paths below other paths

When one path lies below another lexically, and what the spellings say about it: for clean
paths, that one spelling starts with the other and a slash.
-/

namespace Dockstack.Base.Path

open Lexical

/-- `filepath.IsAbs`. -/
def isAbs (s : String) : Bool := hasPrefix s "/"

/-- `target` is `base` or lies below it: some relative path without `..` leads there. -/
def Within (base target : String) : Prop :=
  ∃ r : String, isAbs r = false ∧ ['.', '.'] ∉ r.toList.splitOn '/' ∧
    clean target = clean (join [base, r])

/-- The same in normal form: the names of `b` are the first names of `t`. -/
def Lexical.Below (b t : Lexical) : Prop :=
  t.rooted = b.rooted ∧ t.ups = b.ups ∧ b.names <+: t.names

instance (b t : Lexical) : Decidable (b.Below t) := by
  unfold Lexical.Below
  infer_instance

private theorem isAbs_eq (s : String) : isAbs s = (s.toList.head? == some '/') := by
  rw [Bool.eq_iff_iff, isAbs, hasPrefix_iff, beq_iff_eq]
  change (∃ r, s.toList = '/' :: r) ↔ _
  cases s.toList with
  | nil => simp
  | cons c cs => simp

/-! ## Parsing -/

namespace Lexical

theorem rooted_push (p : Lexical) (c : List Char) : (p.push c).rooted = p.rooted := by
  unfold push
  split
  · rfl
  · split <;> rfl

theorem rooted_foldl_push (cs : List (List Char)) (p : Lexical) :
    (cs.foldl push p).rooted = p.rooted := by
  induction cs generalizing p with
  | nil => rfl
  | cons c cs ih => rw [List.foldl_cons, ih, rooted_push]

/-- Without `..` a path only leads down. -/
theorem below_foldl_push {cs : List (List Char)} (h : ['.', '.'] ∉ cs) (p : Lexical) :
    p.Below (cs.foldl push p) := by
  induction cs generalizing p with
  | nil => exact ⟨rfl, rfl, List.prefix_rfl⟩
  | cons c cs ih =>
    rw [List.mem_cons, not_or] at h
    obtain ⟨hrooted, hups, hnames⟩ := ih h.2 (p.push c)
    have hpush : p.Below (p.push c) := by
      rw [push]
      split
      · exact ⟨rfl, rfl, List.prefix_append _ _⟩
      · rw [if_neg (Ne.symm h.1)]
        exact ⟨rfl, rfl, List.prefix_rfl⟩
    rw [List.foldl_cons]
    exact ⟨hrooted.trans hpush.1, hups.trans hpush.2.1, hpush.2.2.trans hnames⟩

end Lexical

/-- A parsed path is rooted when the path is absolute. -/
@[simp] theorem rooted_parse (s : String) : (parse s.toList).rooted = isAbs s := by
  rw [parse, rooted_foldl_push, isAbs_eq]
  rfl

/-- Clean paths are equal when they say the same. -/
theorem clean_eq_iff {s t : String} : clean s = clean t ↔ parse s.toList = parse t.toList := by
  constructor
  · intro h
    have hrender := congrArg (fun u : String ↦ parse u.toList) h
    simpa only [clean, String.toList_ofList, parse_render] using hrender
  · intro h
    rw [clean, clean, h]

/-- A relative path that is joined goes on from where the directory leads. -/
theorem parse_join (d : String) {r : String} (h : isAbs r = false) :
    parse (join [d, r]).toList = (r.toList.splitOn '/').foldl push (parse d.toList) := by
  have hclean (u : String) : parse (clean u).toList = parse u.toList := by
    rw [clean, String.toList_ofList, parse_render]
  rw [isAbs_eq] at h
  by_cases hd : d = ""
  · have hempty : parse d.toList = start false := by
      rw [hd]
      rfl
    by_cases hr : r = ""
    · rw [hd, hr]
      rfl
    · have hjoin : join [d, r] = clean r := by
        simp [join, hd, hr]
      rw [hjoin, hclean, hempty, parse, h]
  · have hjoin : join [d, r] = clean (d ++ "/" ++ r) := by
      simp [join, hd]
    have hne : d.toList ≠ [] := fun hnil ↦ hd (String.toList_inj.mp hnil)
    have hlist : (d ++ "/" ++ r).toList = d.toList ++ '/' :: r.toList := by
      simp
    rw [hjoin, hclean, hlist, parse_append_slash hne]

/-- Lying below is a matter of the normal forms. -/
theorem within_iff_below (base target : String) :
    Within base target ↔ (parse base.toList).Below (parse target.toList) := by
  constructor
  · rintro ⟨r, habs, hdots, hclean⟩
    rw [clean_eq_iff, parse_join base habs] at hclean
    rw [hclean]
    exact below_foldl_push hdots _
  · rintro ⟨hrooted, hups, ns, hnames⟩
    have hns : ∀ c ∈ ns, IsName c :=
      fun c hc ↦ (parse target.toList).isName c (hnames ▸ List.mem_append_right _ hc)
    have habs : isAbs (.ofList (['/'].intercalate ns)) = false := by
      rw [isAbs_eq, String.toList_ofList, beq_eq_false_iff_ne]
      by_cases hnil : ns = []
      · rw [hnil]
        decide
      · exact head?_intercalate hnil fun c hc ↦ ⟨(hns c hc).1, (hns c hc).2.1⟩
    have hsplit : (['/'].intercalate ns).splitOn '/' = if ns = [] then [[]] else ns := by
      split
      · next hnil => rw [hnil]; rfl
      · next hnil => exact List.splitOn_intercalate '/' (fun c hc ↦ (hns c hc).2.1) hnil
    refine ⟨.ofList (['/'].intercalate ns), habs, ?_, ?_⟩
    · rw [String.toList_ofList, hsplit]
      split
      · decide
      · exact fun hdots ↦ (hns _ hdots).2.2.2 rfl
    · rw [clean_eq_iff, parse_join base habs, String.toList_ofList, hsplit]
      have hfold : (if ns = [] then [[]] else ns).foldl push (parse base.toList) =
          ns.foldl push (parse base.toList) := by
        split
        · next hnil => rw [hnil]; rfl
        · rfl
      obtain ⟨hr, hu, hn⟩ := foldl_push_names (parse base.toList) hns
      rw [hfold]
      ext1
      · rw [hr, hrooted]
      · rw [hu, hups]
      · rw [hn, hnames]

/-! ## Spellings -/

/-- What starts with `s` and a slash has the components of `s` and more. -/
theorem append_slash_isPrefix_iff {s t : List Char} :
    s ++ ['/'] <+: t ↔ ∃ l, l ≠ [] ∧ t.splitOn '/' = s.splitOn '/' ++ l := by
  constructor
  · rintro ⟨r, rfl⟩
    refine ⟨r.splitOn '/', List.splitOn_ne_nil _ _, ?_⟩
    rw [List.append_assoc, List.singleton_append, List.splitOn_append_cons_self]
  · rintro ⟨l, hl, ht⟩
    have hs := List.splitOn_ne_nil '/' s
    have hspell : ['/'].intercalate (t.splitOn '/') = t := List.intercalate_splitOn '/'
    rw [ht, intercalate_append _ hs hl, List.intercalate_splitOn] at hspell
    rw [← hspell]
    exact List.prefix_append _ _

namespace Lexical

/-- The one component that is spelt where there are none. -/
private def placeholder (rooted : Bool) : List Char := if rooted then [] else ['.']

private theorem placeholder_notMem_comps (p : Lexical) (rooted : Bool) :
    placeholder rooted ∉ p.comps := by
  intro h
  cases rooted with
  | true => exact p.ne_nil_of_mem_comps _ h rfl
  | false =>
    rcases List.mem_append.mp h with h | h
    · exact absurd (List.eq_of_mem_replicate h) (by decide)
    · exact (p.isName _ h).2.2.1 rfl

private theorem splitOn_render (p : Lexical) :
    p.render.splitOn '/' = (if p.rooted then [[]] else []) ++
      if p.comps = [] then [placeholder p.rooted] else p.comps := by
  have hsplit (hne : p.comps ≠ []) : (['/'].intercalate p.comps).splitOn '/' = p.comps :=
    List.splitOn_intercalate '/' p.slash_notMem_comps hne
  rw [render]
  cases p.rooted with
  | true =>
    have hslash : ('/' :: ['/'].intercalate p.comps).splitOn '/' =
        [] :: (['/'].intercalate p.comps).splitOn '/' :=
      List.splitOn_append_cons_self [] _
    rw [if_pos rfl, if_pos rfl, hslash, List.singleton_append]
    split
    · next h =>
      rw [h]
      rfl
    · next h => rw [hsplit h]
  | false =>
    rw [if_neg Bool.false_ne_true, if_neg Bool.false_ne_true, List.nil_append]
    split
    · rfl
    · next h => exact hsplit h

/-- The spelling of a path starts with that of another one and a slash when its components
do, unless the other one is the root or the current directory. -/
theorem render_append_slash_isPrefix_iff {b t : Lexical} (h : t.rooted = b.rooted) :
    b.render ++ ['/'] <+: t.render ↔ b.comps ≠ [] ∧ ∃ l, l ≠ [] ∧ t.comps = b.comps ++ l := by
  simp only [append_slash_isPrefix_iff, splitOn_render, h, List.append_assoc,
    List.append_cancel_left_eq]
  by_cases hb : b.comps = []
  · simp only [hb, ne_eq, not_true_eq_false, false_and, iff_false, ↓reduceIte]
    rintro ⟨l, hl, ht⟩
    split at ht
    · exact hl (List.self_eq_append_right.mp ht)
    · exact t.placeholder_notMem_comps b.rooted (ht ▸ List.mem_cons_self)
  · simp only [hb, ne_eq, not_false_eq_true, true_and, ↓reduceIte]
    apply exists_congr
    intro l
    apply and_congr_right
    intro hl
    split
    · next ht =>
      rw [ht]
      apply iff_of_false
      · intro heq
        have hlength := congrArg List.length heq
        have hbpos := List.length_pos_iff.mpr hb
        have hlpos := List.length_pos_iff.mpr hl
        rw [List.length_singleton, List.length_append] at hlength
        omega
      · intro heq
        exact hb (List.append_eq_nil_iff.mp heq.symm).1
    · rfl

private theorem dots_notMem_names (p : Lexical) : ['.', '.'] ∉ p.names :=
  fun h ↦ (p.isName _ h).2.2.2 rfl

/-- The components of `t` continue those of `b` when its names do, and also when `b` only goes
up and `t` goes further up. -/
theorem comps_eq_append_iff {b t : Lexical} :
    (∃ l, l ≠ [] ∧ t.comps = b.comps ++ l) ↔
      (b.names = [] ∧ b.ups < t.ups) ∨
        (t.ups = b.ups ∧ ∃ l, l ≠ [] ∧ t.names = b.names ++ l) := by
  have hsplit {m n : Nat} (h : m ≤ n) : List.replicate n ['.', '.'] =
      List.replicate m ['.', '.'] ++ List.replicate (n - m) ['.', '.'] := by
    rw [List.replicate_append_replicate, Nat.add_sub_cancel' h]
  have hmem {n : Nat} (h : 0 < n) : ['.', '.'] ∈ List.replicate n ['.', '.'] :=
    List.mem_replicate.mpr ⟨by omega, rfl⟩
  constructor
  · rintro ⟨l, hl, h⟩
    rw [comps, comps] at h
    rcases lt_trichotomy b.ups t.ups with hlt | heq | hgt
    · rw [hsplit hlt.le, List.append_assoc, List.append_assoc, List.append_cancel_left_eq] at h
      cases hb : b.names with
      | nil => exact .inl ⟨rfl, hlt⟩
      | cons c ns =>
        obtain ⟨k, hk⟩ := Nat.exists_eq_succ_of_ne_zero (Nat.sub_pos_of_lt hlt).ne'
        rw [hb, hk, List.replicate_succ, List.cons_append, List.cons_append,
          List.cons.injEq] at h
        exact absurd (hb ▸ h.1 ▸ List.mem_cons_self) b.dots_notMem_names
    · rw [heq, List.append_assoc, List.append_cancel_left_eq] at h
      exact .inr ⟨heq.symm, l, hl, h⟩
    · rw [hsplit hgt.le, List.append_assoc, List.append_assoc, List.append_cancel_left_eq] at h
      have hdots := List.mem_append_left (b.names ++ l) (hmem (Nat.sub_pos_of_lt hgt))
      exact absurd (h ▸ hdots) t.dots_notMem_names
  · rintro (⟨hb, hlt⟩ | ⟨heq, l, hl, h⟩)
    · refine ⟨List.replicate (t.ups - b.ups) ['.', '.'] ++ t.names, ?_, ?_⟩
      · exact List.ne_nil_of_mem (List.mem_append_left _ (hmem (Nat.sub_pos_of_lt hlt)))
      · rw [comps, comps, hb, List.append_nil, hsplit hlt.le, List.append_assoc]
    · exact ⟨l, hl, by rw [comps, comps, heq, h, List.append_assoc]⟩

/-- Lying below is being the same or having more names. -/
theorem below_iff {b t : Lexical} (h : t.rooted = b.rooted) :
    b.Below t ↔ t = b ∨ (t.ups = b.ups ∧ ∃ l, l ≠ [] ∧ t.names = b.names ++ l) := by
  constructor
  · rintro ⟨-, hups, l, hl⟩
    by_cases hnil : l = []
    · left
      ext1
      · exact h
      · exact hups
      · rw [← hl, hnil, List.append_nil]
    · exact .inr ⟨hups, l, hnil, hl.symm⟩
  · rintro (rfl | ⟨hups, l, -, hl⟩)
    · exact ⟨rfl, rfl, List.prefix_rfl⟩
    · exact ⟨h, hups, l, hl.symm⟩

end Lexical

end Dockstack.Base.Path
