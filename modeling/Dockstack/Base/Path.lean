import Mathlib.Data.List.Basic
import Mathlib.Data.List.DropRight
import Mathlib.Data.List.Induction

/-!
# Lexical paths

Go's `path/filepath` on Unix. `Lexical` is what a path says without a look at the file
system: absolute or not, a number of leading `..`, then ordinary names. `Clean` parses a
string to it and renders it back; parsing undoes rendering, so what `Join`, `Base` and
`Dir` do to clean paths is read off the parsed form.
-/

namespace Dockstack.Base

/-- Go's `strings.HasPrefix`. -/
def hasPrefix (s p : String) : Bool := p.toList.isPrefixOf s.toList

/-- A string has the prefixes that it continues. -/
theorem hasPrefix_iff {s p : String} : hasPrefix s p = true ↔ ∃ r, s.toList = p.toList ++ r := by
  rw [hasPrefix, List.isPrefixOf_iff_prefix]
  exact ⟨fun ⟨r, h⟩ ↦ ⟨r, h.symm⟩, fun ⟨r, h⟩ ↦ ⟨r, h.symm⟩⟩

namespace Path

/-- An ordinary path component. -/
def IsName (c : List Char) : Prop := c ≠ [] ∧ '/' ∉ c ∧ c ≠ ['.'] ∧ c ≠ ['.', '.']

instance (c : List Char) : Decidable (IsName c) := by
  unfold IsName
  infer_instance

/-- A path in normal form; an absolute one has no leading `..`. -/
@[ext] structure Lexical where
  rooted : Bool
  ups : Nat
  names : List (List Char)
  isName : ∀ c ∈ names, IsName c
  ups_eq_zero : rooted = true → ups = 0

namespace Lexical

/-- The root, or the current directory. -/
def start (rooted : Bool) : Lexical := ⟨rooted, 0, [], by simp, fun _ ↦ rfl⟩

/-- Go down to `c`. -/
def child (p : Lexical) (c : List Char) (h : IsName c) : Lexical where
  rooted := p.rooted
  ups := p.ups
  names := p.names ++ [c]
  isName := by
    intro d hd
    rcases List.mem_append.mp hd with hd | hd
    · exact p.isName d hd
    · rw [List.mem_singleton.mp hd]
      exact h
  ups_eq_zero := p.ups_eq_zero

/-- Go up; the parent of the root is the root. -/
def parent (p : Lexical) : Lexical where
  rooted := p.rooted
  ups := if p.names = [] ∧ p.rooted = false then p.ups + 1 else p.ups
  names := p.names.dropLast
  isName c hc := p.isName c (List.dropLast_subset _ hc)
  ups_eq_zero h := by rw [h]; simpa using p.ups_eq_zero h

/-- Take one component of a path into account: `..` goes up, the empty one and `.` stay. -/
def push (p : Lexical) (c : List Char) : Lexical :=
  if h : IsName c then p.child c h
  else if c = ['.', '.'] then p.parent
  else p

/-- All components. -/
def comps (p : Lexical) : List (List Char) := List.replicate p.ups ['.', '.'] ++ p.names

/-- The shortest spelling of a path. -/
def render (p : Lexical) : List Char :=
  if p.rooted then '/' :: ['/'].intercalate p.comps
  else if p.comps = [] then ['.']
  else ['/'].intercalate p.comps

end Lexical

open Lexical

/-- What a path says. -/
def parse (s : List Char) : Lexical :=
  (s.splitOn '/').foldl push (start (s.head? == some '/'))

/-- `filepath.Clean`. -/
def clean (s : String) : String := .ofList (parse s.toList).render

/-- `filepath.Join`: leading empty elements are ignored. -/
def join (elems : List String) : String :=
  match elems.dropWhile (· == "") with
  | [] => ""
  | es => clean ("/".intercalate es)

/-- `filepath.Base`: trailing slashes are stripped, then the last element is returned. -/
def base (s : String) : String :=
  if s = "" then "."
  else
    match (s.toList.rdropWhile (· == '/')).rtakeWhile (· != '/') with
    | [] => "/"
    | c => .ofList c

/-- `filepath.Dir`. -/
def dir (s : String) : String := clean (.ofList (s.toList.rdropWhile (· != '/')))

namespace Lexical

/-- A name leads down. -/
theorem push_of_isName (p : Lexical) {c : List Char} (h : IsName c) :
    p.push c = p.child c h := dif_pos h

/-- Names lead down one after the other. -/
theorem foldl_push_names (p : Lexical) {ns : List (List Char)} (h : ∀ c ∈ ns, IsName c) :
    (ns.foldl push p).rooted = p.rooted ∧ (ns.foldl push p).ups = p.ups ∧
      (ns.foldl push p).names = p.names ++ ns := by
  induction ns generalizing p with
  | nil => exact ⟨rfl, rfl, (List.append_nil _).symm⟩
  | cons c ns ih =>
    have hc := h c List.mem_cons_self
    rw [List.foldl_cons, push_of_isName p hc]
    obtain ⟨hr, hu, hn⟩ := ih (p.child c hc) (fun d hd ↦ h d (List.mem_cons_of_mem c hd))
    exact ⟨hr, hu, by rw [hn, child, List.append_assoc, List.singleton_append]⟩

private theorem foldl_push_ups (k : Nat) (p : Lexical) (hr : p.rooted = false)
    (hn : p.names = []) :
    ((List.replicate k ['.', '.']).foldl push p).rooted = false ∧
      ((List.replicate k ['.', '.']).foldl push p).ups = p.ups + k ∧
      ((List.replicate k ['.', '.']).foldl push p).names = [] := by
  induction k generalizing p with
  | zero => exact ⟨hr, rfl, hn⟩
  | succ k ih =>
    have hpush : p.push ['.', '.'] = p.parent := by
      rw [push, dif_neg (by decide), if_pos rfl]
    rw [List.replicate_succ, List.foldl_cons, hpush]
    obtain ⟨hr', hu', hn'⟩ := ih p.parent hr (by simp [parent, hn])
    have hup : p.parent.ups = p.ups + 1 := if_pos ⟨hn, hr⟩
    refine ⟨hr', ?_, hn'⟩
    rw [hu', hup]
    omega

private theorem foldl_push_comps (p : Lexical) : p.comps.foldl push (start p.rooted) = p := by
  rw [comps, List.foldl_append]
  have hups : ((List.replicate p.ups ['.', '.']).foldl push (start p.rooted)).rooted = p.rooted ∧
      ((List.replicate p.ups ['.', '.']).foldl push (start p.rooted)).ups = p.ups ∧
      ((List.replicate p.ups ['.', '.']).foldl push (start p.rooted)).names = [] := by
    cases hr : p.rooted with
    | true =>
      rw [p.ups_eq_zero hr]
      exact ⟨rfl, rfl, rfl⟩
    | false =>
      obtain ⟨h, hu, hn⟩ := foldl_push_ups p.ups (start false) rfl rfl
      exact ⟨h, by rw [hu, start, Nat.zero_add], hn⟩
  obtain ⟨hr, hu, hn⟩ := foldl_push_names
    ((List.replicate p.ups ['.', '.']).foldl push (start p.rooted)) p.isName
  ext1
  · exact hr.trans hups.1
  · exact hu.trans hups.2.1
  · rw [hn, hups.2.2, List.nil_append]

/-- Components have no slash. -/
theorem slash_notMem_comps (p : Lexical) : ∀ c ∈ p.comps, '/' ∉ c := by
  intro c hc
  rcases List.mem_append.mp hc with hc | hc
  · rw [List.eq_of_mem_replicate hc]
    decide
  · exact (p.isName c hc).2.1

/-- Components are not empty. -/
theorem ne_nil_of_mem_comps (p : Lexical) : ∀ c ∈ p.comps, c ≠ [] := by
  intro c hc
  rcases List.mem_append.mp hc with hc | hc
  · rw [List.eq_of_mem_replicate hc]
    exact List.cons_ne_nil _ _
  · exact (p.isName c hc).1

/-- Only the root and the current directory have no components. -/
theorem comps_eq_nil (p : Lexical) (h : p.comps = []) : p = start p.rooted := by
  rw [← foldl_push_comps p, h]
  rfl

@[simp] theorem comps_child (p : Lexical) (c : List Char) (h : IsName c) :
    (p.child c h).comps = p.comps ++ [c] := by
  simp [comps, child]

/-- Components that are put together do not start with a slash. -/
theorem head?_intercalate {cs : List (List Char)} (hne : cs ≠ [])
    (h : ∀ c ∈ cs, c ≠ [] ∧ '/' ∉ c) : (['/'].intercalate cs).head? ≠ some '/' := by
  cases cs with
  | nil => exact absurd rfl hne
  | cons c cs =>
    obtain ⟨hc, hslash⟩ := h c List.mem_cons_self
    cases c with
    | nil => exact absurd rfl hc
    | cons x c =>
      have hx : x ≠ '/' := fun hx ↦ hslash (hx ▸ List.mem_cons_self)
      cases cs with
      | nil => simpa using hx
      | cons d cs => simpa [List.intercalate_cons_cons] using hx

end Lexical

/-- Parsing undoes rendering. -/
@[simp] theorem parse_render (p : Lexical) : parse p.render = p := by
  have hcomps : ∀ c ∈ p.comps, c ≠ [] ∧ '/' ∉ c :=
    fun c hc ↦ ⟨p.ne_nil_of_mem_comps c hc, p.slash_notMem_comps c hc⟩
  have hsplit (hne : p.comps ≠ []) : (['/'].intercalate p.comps).splitOn '/' = p.comps :=
    List.splitOn_intercalate '/' p.slash_notMem_comps hne
  rw [parse, render]
  cases hr : p.rooted with
  | true =>
    have hslash : ('/' :: ['/'].intercalate p.comps).splitOn '/' =
        [] :: (['/'].intercalate p.comps).splitOn '/' :=
      List.splitOn_append_cons_self [] _
    rw [if_pos rfl, hslash, List.foldl_cons, List.head?_cons]
    have hskip : (start (some '/' == some '/')).push [] = start p.rooted := by
      rw [hr]
      rfl
    rw [hskip]
    by_cases hne : p.comps = []
    · rw [hne]
      exact (p.comps_eq_nil hne).symm
    · rw [hsplit hne, p.foldl_push_comps]
  | false =>
    rw [if_neg Bool.false_ne_true]
    by_cases hne : p.comps = []
    · rw [if_pos hne, p.comps_eq_nil hne, hr]
      rfl
    · rw [if_neg hne, hsplit hne]
      have hhead : ((['/'].intercalate p.comps).head? == some '/') = p.rooted := by
        rw [hr]
        exact beq_eq_false_iff_ne.mpr (head?_intercalate hne hcomps)
      rw [hhead, p.foldl_push_comps]

/-- A further part of a path goes on from where the first part leads. -/
theorem parse_append_slash {a : List Char} (h : a ≠ []) (b : List Char) :
    parse (a ++ '/' :: b) = (b.splitOn '/').foldl push (parse a) := by
  rw [parse, parse, List.splitOn_append_cons_self, List.foldl_append,
    List.head?_append_of_ne_nil a h]

/-- What comes before the name in the spelling of a child. -/
def Lexical.lead (p : Lexical) : List Char :=
  if p.comps = [] then (if p.rooted then ['/'] else []) else p.render ++ ['/']

/-- Putting two lists together puts a separator between them. -/
theorem intercalate_append (sep : List Char) {cs ds : List (List Char)} (hc : cs ≠ [])
    (hd : ds ≠ []) :
    sep.intercalate (cs ++ ds) = sep.intercalate cs ++ sep ++ sep.intercalate ds := by
  induction cs with
  | nil => exact absurd rfl hc
  | cons c cs ih =>
    cases cs with
    | nil =>
      obtain ⟨d, ds, rfl⟩ := List.exists_cons_of_ne_nil hd
      rw [List.singleton_append, List.intercalate_cons_cons, List.intercalate_singleton]
    | cons e cs =>
      rw [List.cons_append, List.cons_append, List.intercalate_cons_cons, ← List.cons_append,
        ih (List.cons_ne_nil e cs), List.intercalate_cons_cons]
      simp only [List.append_assoc]

/-- The spelling of a child ends in its name. -/
theorem Lexical.render_child (p : Lexical) (c : List Char) (h : IsName c) :
    (p.child c h).render = p.lead ++ c := by
  rw [render, comps_child, if_neg (by simp : p.comps ++ [c] ≠ []), lead]
  have hrooted : (p.child c h).rooted = p.rooted := rfl
  by_cases hne : p.comps = []
  · rw [hrooted, if_pos hne, hne, List.nil_append, List.intercalate_singleton]
    split <;> rfl
  · rw [hrooted, if_neg hne, render, if_neg hne,
      intercalate_append _ hne (List.cons_ne_nil c []), List.intercalate_singleton]
    split
    · simp
    · simp

/-- What comes before a name leads to the parent. -/
theorem Lexical.parse_lead (p : Lexical) : parse p.lead = p := by
  rw [lead]
  by_cases hne : p.comps = []
  · rw [if_pos hne, p.comps_eq_nil hne]
    cases p.rooted <;> rfl
  · have hrender : p.render ≠ [] := by
      rw [render, if_neg hne]
      split
      · exact List.cons_ne_nil _ _
      · intro hnil
        cases hc : p.comps with
        | nil => exact hne hc
        | cons c cs =>
          have hcne : c ≠ [] := p.ne_nil_of_mem_comps c (hc ▸ List.mem_cons_self)
          rw [hc] at hnil
          cases cs with
          | nil => exact hcne (by simpa using hnil)
          | cons d cs => simp at hnil
    rw [if_neg hne, parse_append_slash hrender, parse_render]
    rfl

private theorem lead_eq (p : Lexical) : p.lead = [] ∨ ∃ q, p.lead = q ++ ['/'] := by
  rw [Lexical.lead]
  split
  · split
    · exact .inr ⟨[], rfl⟩
    · exact .inl rfl
  · exact .inr ⟨p.render, rfl⟩

private theorem rtakeWhile_lead (p : Lexical) {c : List Char} (h : IsName c) :
    (p.lead ++ c).rtakeWhile (· != '/') = c := by
  have hc : ∀ x ∈ c.reverse, (x != '/') = true := by
    intro x hx
    exact bne_iff_ne.mpr (fun heq ↦ h.2.1 (heq ▸ List.mem_reverse.mp hx))
  rw [List.rtakeWhile, List.reverse_append, List.takeWhile_append_of_pos hc]
  rcases lead_eq p with hl | ⟨q, hl⟩
  · rw [hl]
    simp
  · rw [hl]
    simp

private theorem rdropWhile_lead (p : Lexical) {c : List Char} (h : IsName c) :
    (p.lead ++ c).rdropWhile (· != '/') = p.lead := by
  have hc : ∀ x ∈ c.reverse, (x != '/') = true := by
    intro x hx
    exact bne_iff_ne.mpr (fun heq ↦ h.2.1 (heq ▸ List.mem_reverse.mp hx))
  rw [List.rdropWhile, List.reverse_append, List.dropWhile_append_of_pos hc]
  rcases lead_eq p with hl | ⟨q, hl⟩
  · rw [hl]
    rfl
  · rw [hl]
    simp

private theorem parse_name {c : List Char} (h : IsName c) :
    parse c = (start false).child c h := by
  have hhead : (c.head? == some '/') = false := by
    apply beq_eq_false_iff_ne.mpr
    intro hc
    exact h.2.1 (List.mem_of_mem_head? hc)
  rw [parse, List.splitOn_eq_singleton h.2.1, hhead]
  exact Lexical.push_of_isName _ h

/-- A name joined to a directory is its child. -/
theorem join_name (d : String) {c : String} (h : IsName c.toList) :
    join [d, c] = .ofList ((parse d.toList).child c.toList h).render := by
  have hc : (c == "") = false := by
    apply beq_eq_false_iff_ne.mpr
    rintro rfl
    exact h.1 rfl
  by_cases hd : d = ""
  · have hjoin : join [d, c] = clean c := by
      simp [join, hd, hc]
    rw [hjoin, clean, parse_name h, hd]
    rfl
  · have hjoin : join [d, c] = clean (d ++ "/" ++ c) := by
      simp [join, hd]
    have hne : d.toList ≠ [] := fun hnil ↦ hd (String.toList_inj.mp hnil)
    have hlist : (d ++ "/" ++ c).toList = d.toList ++ '/' :: c.toList := by
      simp
    rw [hjoin, clean, hlist, parse_append_slash hne, List.splitOn_eq_singleton h.2.1]
    exact congrArg (fun p ↦ String.ofList p.render) (Lexical.push_of_isName _ h)

/-- Joining a name goes down by that name. -/
theorem parse_join_name (d : String) {c : String} (h : IsName c.toList) :
    parse (join [d, c]).toList = (parse d.toList).child c.toList h := by
  rw [join_name d h, String.toList_ofList, parse_render]

/-- A joined path is clean. -/
theorem clean_join_name (d : String) {c : String} (h : IsName c.toList) :
    clean (join [d, c]) = join [d, c] := by
  rw [join_name d h]
  simp [clean]

/-- A third element of a joined path goes on from where the first two lead. -/
theorem join_concat (d : String) {n : String} (h : n ≠ "") (f : String) :
    join [d, n, f] =
      .ofList ((f.toList.splitOn '/').foldl push (parse (join [d, n]).toList)).render := by
  have hgo (u : String) (hu : u ≠ "") : clean (u ++ "/" ++ f) =
      .ofList ((f.toList.splitOn '/').foldl push (parse (clean u).toList)).render := by
    have hne : u.toList ≠ [] := fun hnil ↦ hu (String.toList_inj.mp hnil)
    have hlist : (u ++ "/" ++ f).toList = u.toList ++ '/' :: f.toList := by
      simp
    rw [clean, hlist, parse_append_slash hne, clean, String.toList_ofList, parse_render]
  by_cases hd : d = ""
  · have hjoin : join [d, n, f] = clean (n ++ "/" ++ f) := by
      simp [join, hd, h]
    have hdir : join [d, n] = clean n := by
      simp [join, hd, h]
    rw [hjoin, hdir, hgo n h]
  · have hjoin : join [d, n, f] = clean (d ++ "/" ++ n ++ "/" ++ f) := by
      simp [join, hd, String.append_assoc]
    have hdir : join [d, n] = clean (d ++ "/" ++ n) := by
      simp [join, hd]
    rw [hjoin, hdir, hgo]
    intro hnil
    have hlist := congrArg String.toList hnil
    simp at hlist

/-- A name as the third element is the child of the first two. -/
theorem join_concat_name (d : String) {n f : String} (h : n ≠ "") (hf : IsName f.toList) :
    join [d, n, f] = join [join [d, n], f] := by
  rw [join_concat d h, join_name _ hf, List.splitOn_eq_singleton hf.2.1, List.foldl_cons,
    List.foldl_nil, push_of_isName _ hf]

/-- A third element that does not lead on leads to the first two. -/
theorem join_concat_stay (d : String) {n f : String} (h : IsName n.toList)
    (hf : ∀ c ∈ f.toList.splitOn '/', c = [] ∨ c = ['.']) : join [d, n, f] = join [d, n] := by
  have hn : n ≠ "" := by
    intro hnil
    rw [hnil] at h
    exact h.1 rfl
  have hpush (p : Lexical) (cs : List (List Char)) (hcs : ∀ c ∈ cs, c = [] ∨ c = ['.']) :
      cs.foldl push p = p := by
    induction cs with
    | nil => rfl
    | cons c cs ih =>
      have hc : p.push c = p := by
        rcases hcs c List.mem_cons_self with rfl | rfl
        · rfl
        · rfl
      rw [List.foldl_cons, hc]
      exact ih fun d hd ↦ hcs d (List.mem_cons_of_mem c hd)
  rw [join_concat d hn, hpush _ _ hf]
  exact clean_join_name d h

/-- The last element of a joined path is the name. -/
theorem base_join_name (d : String) {c : String} (h : IsName c.toList) :
    base (join [d, c]) = c := by
  have hlast : ∀ x ∈ c.toList.getLast?, x ≠ '/' := by
    rintro x hx rfl
    exact h.2.1 (List.mem_of_getLast? hx)
  have hrdrop : ((parse d.toList).lead ++ c.toList).rdropWhile (· == '/') =
      (parse d.toList).lead ++ c.toList := by
    apply List.rdropWhile_eq_self_iff.mpr
    intro hne
    rw [List.getLast_append_of_ne_nil _ h.1]
    have hl := hlast (c.toList.getLast h.1) (List.getLast?_eq_some_getLast h.1)
    simpa using hl
  have hne : join [d, c] ≠ "" := by
    intro hnil
    have hl := congrArg String.toList hnil
    rw [join_name d h, String.toList_ofList, Lexical.render_child] at hl
    exact h.1 (List.append_eq_nil_iff.mp hl).2
  rw [base, if_neg hne, join_name d h, String.toList_ofList, Lexical.render_child, hrdrop,
    rtakeWhile_lead _ h]
  split
  · next hnil => exact absurd hnil h.1
  · exact String.ofList_toList

/-- The paths that are their own last element. -/
theorem eq_of_base_eq_self {f : String} (h : f ≠ "") (hbase : base f = f) :
    f = "." ∨ f = ".." ∨ f = "/" ∨ IsName f.toList := by
  rw [base, if_neg h] at hbase
  split at hbase
  · exact .inr (.inr (.inl hbase.symm))
  · next c hc =>
    have hslash : '/' ∉ f.toList := by
      rw [← hbase, String.toList_ofList]
      intro hmem
      have hall := List.mem_rtakeWhile_imp hmem
      simp at hall
    by_cases hdot : f = "."
    · exact .inl hdot
    · by_cases hdots : f = ".."
      · exact .inr (.inl hdots)
      · refine .inr (.inr (.inr ⟨?_, hslash, ?_, ?_⟩))
        · exact fun hnil ↦ h (String.toList_inj.mp hnil)
        · exact fun hnil ↦ hdot (String.toList_inj.mp hnil)
        · exact fun hnil ↦ hdots (String.toList_inj.mp hnil)

/-- The directory of a joined path is the directory joined to. -/
theorem dir_join_name (d : String) {c : String} (h : IsName c.toList) :
    dir (join [d, c]) = clean d := by
  rw [dir, join_name d h, String.toList_ofList, Lexical.render_child, rdropWhile_lead _ h, clean,
    String.toList_ofList, Lexical.parse_lead, clean]

/-- The spellings of the root and of the current directory. -/
theorem clean_of_comps_eq_nil {s : String} (h : (parse s.toList).comps = []) :
    clean s = if (parse s.toList).rooted then "/" else "." := by
  rw [clean, (parse s.toList).comps_eq_nil h]
  cases (parse s.toList).rooted <;> rfl

/-- The paths without components are the current directory and the root. -/
theorem comps_eq_nil_iff (s : String) :
    (parse s.toList).comps = [] ↔ clean s = "." ∨ clean s = "/" := by
  constructor
  · intro h
    rw [clean_of_comps_eq_nil h]
    split
    · exact .inr rfl
    · exact .inl rfl
  · intro h
    rw [← parse_render (parse s.toList), ← String.toList_ofList (l := (parse s.toList).render)]
    change (parse (clean s).toList).comps = []
    rcases h with h | h
    · rw [h]
      decide
    · rw [h]
      decide

/-- The spelling of a joined path. -/
theorem toList_join_name (d : String) {c : String} (h : IsName c.toList) :
    (join [d, c]).toList = (parse d.toList).lead ++ c.toList := by
  rw [join_name d h, String.toList_ofList, Lexical.render_child]

end Path

end Dockstack.Base
