import Mathlib.Data.List.Basic

/-!
# Regular expressions with leftmost-first matching

Go's `regexp` for expressions whose repetitions are of single characters, in multi-line
mode: an expression lists its matches at a position in the order of preference, and the
first one counts. `nl` is the character that separates lines. Matching is local: an
expression matches in a part that ends with a line as it does in the whole text.
-/

namespace Dockstack.Base

/-- An expression over the characters `α`; `star` is greedy, `lineStart` and `lineEnd` are
`^` and `$` in multi-line mode. -/
inductive Regex (α : Type) where
  | empty
  | cls (p : α → Bool)
  | star (p : α → Bool)
  | seq (r r' : Regex α)
  | opt (r : Regex α)
  | group (n : Nat) (r : Regex α)
  | lineStart
  | lineEnd

/-- A match: its text, and the texts of its groups. -/
structure RegexMatch (α : Type) where
  text : List α
  groups : List (Nat × List α)
  deriving DecidableEq

namespace Regex

variable {α : Type}

/-- Some given characters. -/
def lit [BEq α] : List α → Regex α
  | [] => .empty
  | c :: w => .seq (.cls (· == c)) (lit w)

/-- The matches of a greedy repetition, longest first. -/
def repeats (p : α → Bool) : List α → List (List α)
  | [] => [[]]
  | c :: s => if p c then (repeats p s).map (c :: ·) ++ [[]] else [[]]

variable [DecidableEq α] (nl : α)

/-- Whether the position after `text` begins a line. -/
def bolAfter (bol : Bool) (text : List α) : Bool :=
  match text.getLast? with
  | none => bol
  | some c => c == nl

/-- Whether the position before `s` ends a line. -/
def atEol : List α → Bool
  | [] => true
  | c :: _ => c == nl

/-- The matches at the beginning of `s`, in the order of preference. -/
def matchesAt : Regex α → Bool → List α → List (RegexMatch α)
  | .empty, _, _ => [⟨[], []⟩]
  | .cls _, _, [] => []
  | .cls p, _, c :: _ => if p c then [⟨[c], []⟩] else []
  | .star p, _, s => (repeats p s).map (⟨·, []⟩)
  | .seq r r', bol, s =>
    (r.matchesAt bol s).flatMap fun m ↦
      (r'.matchesAt (bolAfter nl bol m.text) (s.drop m.text.length)).map fun m' ↦
        ⟨m.text ++ m'.text, m.groups ++ m'.groups⟩
  | .opt r, bol, s => r.matchesAt bol s ++ [⟨[], []⟩]
  | .group n r, bol, s => (r.matchesAt bol s).map fun m ↦ ⟨m.text, (n, m.text) :: m.groups⟩
  | .lineStart, bol, _ => if bol then [⟨[], []⟩] else []
  | .lineEnd, _, s => if atEol nl s then [⟨[], []⟩] else []

/-- The leftmost match. -/
def find? (r : Regex α) : Bool → List α → Option (RegexMatch α)
  | bol, [] => (r.matchesAt nl bol []).head?
  | bol, c :: s =>
    match (r.matchesAt nl bol (c :: s)).head? with
    | some m => some m
    | none => r.find? (c == nl) s

/-- A part of a text: a character outside the matches, or the text of a match. -/
inductive Segment (α : Type) where
  | char (c : α)
  | matched (text : List α)
  deriving DecidableEq

/-- The text of a part whose matches are replaced. -/
def Segment.replace (repl : List α → List α) : Segment α → List α
  | .char c => [c]
  | .matched text => repl text

/-- The parts of a text, by its successive leftmost matches; `skip` characters belong to the
last one. The expression has no empty match. -/
def segments (r : Regex α) : Bool → Nat → List α → List (Segment α)
  | _, _, [] => []
  | _, skip + 1, c :: s => r.segments (c == nl) skip s
  | bol, 0, c :: s =>
    match (r.matchesAt nl bol (c :: s)).head? with
    | some m => .matched m.text :: r.segments (c == nl) (m.text.length - 1) s
    | none => .char c :: r.segments (c == nl) 0 s

/-- Go's `ReplaceAllFunc`. -/
def replaceAllFunc (r : Regex α) (s : List α) (repl : List α → List α) : List α :=
  (r.segments nl true 0 s).flatMap (Segment.replace repl)

end Regex

/-- The text of a group; `m[n]` of Go's `FindSubmatch`. -/
def RegexMatch.sub {α : Type} (m : RegexMatch α) (n : Nat) : List α := (m.groups.lookup n).getD []

namespace Regex

/-- A part of a text with what was found: a character outside the matches, or a match. -/
inductive Part (α : Type) where
  | char (c : α)
  | found (m : RegexMatch α)
  deriving DecidableEq

namespace Part

variable {α : Type}

/-- The text of a part. -/
def text : Part α → List α
  | .char c => [c]
  | .found m => m.text

/-- A part without the groups of the match. -/
def segment : Part α → Segment α
  | .char c => .char c
  | .found m => .matched m.text

end Part

variable {α : Type}

/-- The parts of a text, like `segments`, with the matches. -/
def parts [DecidableEq α] (nl : α) (r : Regex α) : Bool → Nat → List α → List (Part α)
  | _, _, [] => []
  | _, skip + 1, c :: s => r.parts nl (c == nl) skip s
  | bol, 0, c :: s =>
    match (r.matchesAt nl bol (c :: s)).head? with
    | some m => .found m :: r.parts nl (c == nl) (m.text.length - 1) s
    | none => .char c :: r.parts nl (c == nl) 0 s

/-! ## Where matches are -/

private theorem eq_of_mem_ite {m a : RegexMatch α} {b : Bool}
    (h : m ∈ if b then [a] else []) : m = a := by
  cases b with
  | false => simp at h
  | true => exact List.mem_singleton.mp h

private theorem prefix_of_mem_repeats {p : α → Bool} {s t : List α} (h : t ∈ repeats p s) :
    t <+: s := by
  induction s generalizing t with
  | nil => simp_all [repeats]
  | cons c s ih =>
    rw [repeats] at h
    split at h
    · rcases List.mem_append.mp h with h | h
      · obtain ⟨u, hu, rfl⟩ := List.mem_map.mp h
        exact List.cons_prefix_cons.mpr ⟨rfl, ih hu⟩
      · simp [List.mem_singleton.mp h]
    · simp [List.mem_singleton.mp h]

private theorem forall_of_mem_repeats {p : α → Bool} {s t : List α} (h : t ∈ repeats p s) :
    ∀ c ∈ t, p c = true := by
  induction s generalizing t with
  | nil => simp_all [repeats]
  | cons c s ih =>
    rw [repeats] at h
    split at h
    · next hp =>
      rcases List.mem_append.mp h with h | h
      · obtain ⟨u, hu, rfl⟩ := List.mem_map.mp h
        exact List.forall_mem_cons.mpr ⟨hp, ih hu⟩
      · simp [List.mem_singleton.mp h]
    · simp [List.mem_singleton.mp h]

private theorem mem_repeats_append {p : α → Bool} {t : List α} (ht : ∀ c ∈ t, p c = true)
    (s : List α) : t ∈ repeats p (t ++ s) := by
  induction t with
  | nil =>
    cases s with
    | nil => exact List.mem_singleton_self _
    | cons c s =>
      rw [List.nil_append, repeats]
      split <;> simp
  | cons c t ih =>
    obtain ⟨hc, ht⟩ := List.forall_mem_cons.mp ht
    rw [List.cons_append, repeats, if_pos hc]
    exact List.mem_append_left _ (List.mem_map_of_mem (ih ht))

private theorem filter_map_cons_length (c : α) (ts : List (List α)) (n : Nat) :
    (ts.map (c :: ·)).filter (·.length ≤ n + 1) = (ts.filter (·.length ≤ n)).map (c :: ·) := by
  rw [List.filter_map]
  congr 2
  funext t
  simp

private theorem repeats_take (p : α → Bool) (s : List α) (n : Nat) :
    repeats p (s.take n) = (repeats p s).filter (·.length ≤ n) := by
  induction s generalizing n with
  | nil => simp [repeats]
  | cons c s ih =>
    cases n with
    | zero =>
      rw [List.take_zero, repeats, repeats]
      split
      · have hnone : ((repeats p s).map (c :: ·)).filter (·.length ≤ 0) = [] := by simp
        rw [List.filter_append, hnone]
        rfl
      · rfl
    | succ n =>
      rw [List.take_succ_cons, repeats, repeats]
      split
      · rw [List.filter_append, filter_map_cons_length, ih]
        rfl
      · rfl

variable [DecidableEq α] {nl : α}

/-- A match at a position is what follows it. -/
theorem prefix_of_mem_matchesAt {r : Regex α} {bol : Bool} {s : List α} {m : RegexMatch α}
    (h : m ∈ r.matchesAt nl bol s) : m.text <+: s := by
  induction r generalizing bol s m with
  | empty => simp_all [matchesAt]
  | cls p =>
    cases s with
    | nil => simp [matchesAt] at h
    | cons c s =>
      rw [matchesAt] at h
      simp [eq_of_mem_ite h]
  | star p =>
    obtain ⟨t, ht, rfl⟩ := List.mem_map.mp h
    exact prefix_of_mem_repeats ht
  | seq r r' ih ih' =>
    obtain ⟨a, ha, hm⟩ := List.mem_flatMap.mp h
    obtain ⟨b, hb, rfl⟩ := List.mem_map.mp hm
    obtain ⟨u, rfl⟩ := ih ha
    rw [List.drop_left] at hb
    exact List.prefix_append_right_inj a.text |>.mpr (ih' hb)
  | opt r ih =>
    rcases List.mem_append.mp h with h | h
    · exact ih h
    · simp [List.mem_singleton.mp h]
  | group n r ih =>
    obtain ⟨a, ha, rfl⟩ := List.mem_map.mp h
    have htext := ih ha
    exact htext
  | lineStart =>
    rw [matchesAt] at h
    simp [eq_of_mem_ite h]
  | lineEnd =>
    rw [matchesAt] at h
    simp [eq_of_mem_ite h]

/-- A character of a class matches alone. -/
theorem exists_of_mem_cls {p : α → Bool} {bol : Bool} {s : List α} {m : RegexMatch α}
    (h : m ∈ (cls p).matchesAt nl bol s) : ∃ c, p c = true ∧ m = ⟨[c], []⟩ := by
  cases s with
  | nil => simp [matchesAt] at h
  | cons c s =>
    rw [matchesAt] at h
    split at h
    · next hp => exact ⟨c, hp, List.mem_singleton.mp h⟩
    · simp at h

/-- No character of the expression is `c`. -/
def Avoids (c : α) : Regex α → Prop
  | .cls p | .star p => p c = false
  | .seq r r' => r.Avoids c ∧ r'.Avoids c
  | .opt r | .group _ r => r.Avoids c
  | .empty | .lineStart | .lineEnd => True

/-- Whether an expression avoids a character is decided by its structure. -/
instance decidableAvoids (c : α) : ∀ r : Regex α, Decidable (r.Avoids c)
  | .cls p | .star p => inferInstanceAs (Decidable (p c = false))
  | .seq r r' =>
    have := decidableAvoids c r
    have := decidableAvoids c r'
    inferInstanceAs (Decidable (r.Avoids c ∧ r'.Avoids c))
  | .opt r | .group _ r => decidableAvoids c r
  | .empty | .lineStart | .lineEnd => inferInstanceAs (Decidable True)

/-- What the expression avoids is in no match. -/
theorem notMem_of_avoids {c : α} {r : Regex α} {bol : Bool} {s : List α} {m : RegexMatch α}
    (ha : r.Avoids c) (h : m ∈ r.matchesAt nl bol s) : c ∉ m.text := by
  induction r generalizing bol s m with
  | empty => simp_all [matchesAt]
  | cls p =>
    obtain ⟨d, hd, rfl⟩ := exists_of_mem_cls h
    rw [List.mem_singleton]
    rintro rfl
    rw [Avoids, hd] at ha
    cases ha
  | star p =>
    obtain ⟨t, ht, rfl⟩ := List.mem_map.mp h
    intro hc
    rw [Avoids, forall_of_mem_repeats ht c hc] at ha
    cases ha
  | seq r r' ih ih' =>
    obtain ⟨a, ha', hm⟩ := List.mem_flatMap.mp h
    obtain ⟨b, hb, rfl⟩ := List.mem_map.mp hm
    rw [List.mem_append, not_or]
    exact ⟨ih ha.1 ha', ih' ha.2 hb⟩
  | opt r ih =>
    rcases List.mem_append.mp h with h | h
    · exact ih ha h
    · simp [List.mem_singleton.mp h]
  | group n r ih =>
    obtain ⟨a, ha', rfl⟩ := List.mem_map.mp h
    have htext := ih ha ha'
    exact htext
  | lineStart =>
    rw [matchesAt] at h
    simp [eq_of_mem_ite h]
  | lineEnd =>
    rw [matchesAt] at h
    simp [eq_of_mem_ite h]

/-! ## Matching is local -/

/-- In a part of a text that ends with a line, an expression has the matches that lie in it. -/
theorem matchesAt_take (r : Regex α) (bol : Bool) {s : List α} {n : Nat}
    (heol : atEol nl (s.drop n) = true) :
    r.matchesAt nl bol (s.take n) = (r.matchesAt nl bol s).filter (·.text.length ≤ n) := by
  induction r generalizing bol s n with
  | empty => rfl
  | cls p =>
    cases s with
    | nil => simp [matchesAt]
    | cons c s =>
      cases n with
      | zero =>
        rw [List.take_zero, matchesAt, matchesAt]
        split <;> rfl
      | succ n =>
        rw [List.take_succ_cons, matchesAt, matchesAt]
        split <;> simp
  | star p =>
    rw [matchesAt, matchesAt, repeats_take, List.filter_map]
    rfl
  | seq r r' ih ih' =>
    rw [matchesAt, matchesAt, ih bol heol, List.filter_flatMap]
    generalize r.matchesAt nl bol s = ms
    induction ms with
    | nil => rfl
    | cons m ms ihm =>
      rw [List.flatMap_cons, ← ihm, List.filter_cons]
      by_cases hm : m.text.length ≤ n
      · -- the rest of the match lies in the rest of the part
        have hdrop : (s.drop m.text.length).drop (n - m.text.length) = s.drop n := by
          rw [List.drop_drop, Nat.add_sub_cancel' hm]
        have hfilter : (fun m' : RegexMatch α ↦ decide (m'.text.length ≤ n - m.text.length)) =
            fun m' ↦ decide ((m.text ++ m'.text).length ≤ n) := by
          funext m'
          rw [List.length_append, decide_eq_decide]
          omega
        rw [if_pos (decide_eq_true hm), List.flatMap_cons, List.drop_take,
          ih' _ (hdrop ▸ heol), List.filter_map, hfilter]
        rfl
      · have hnone : (((r'.matchesAt nl (bolAfter nl bol m.text) (s.drop m.text.length)).map
            fun m' ↦ (⟨m.text ++ m'.text, m.groups ++ m'.groups⟩ : RegexMatch α)).filter
              (·.text.length ≤ n)) = [] := by
          rw [List.filter_eq_nil_iff]
          intro t ht
          obtain ⟨m', -, rfl⟩ := List.mem_map.mp ht
          rw [List.length_append, decide_eq_true_eq]
          omega
        rw [if_neg (by simpa using hm), hnone, List.nil_append]
  | opt r ih => rw [matchesAt, matchesAt, ih bol heol, List.filter_append]; rfl
  | group n r ih =>
    rw [matchesAt, matchesAt, ih bol heol, List.filter_map]
    rfl
  | lineStart =>
    rw [matchesAt, matchesAt]
    split <;> rfl
  | lineEnd =>
    rw [matchesAt, matchesAt]
    cases n with
    | zero =>
      rw [List.drop_zero] at heol
      rw [heol]
      rfl
    | succ n =>
      cases s with
      | nil => rfl
      | cons c s =>
        rw [List.take_succ_cons, atEol, atEol]
        split <;> rfl

/-- A match that ends with a line is found again in its own text. -/
theorem find?_text {r : Regex α} {s : List α} {m : RegexMatch α}
    (h : (r.matchesAt nl true s).head? = some m)
    (heol : atEol nl (s.drop m.text.length) = true) : r.find? nl true m.text = some m := by
  obtain ⟨ms, hms⟩ := List.head?_eq_some_iff.mp h
  have hprefix : m.text <+: s := prefix_of_mem_matchesAt (hms ▸ List.mem_cons_self)
  have hhead : (r.matchesAt nl true m.text).head? = some m := by
    rw [List.prefix_iff_eq_take.mp hprefix, matchesAt_take r true heol, hms,
      List.filter_cons_of_pos (by simp), List.head?_cons]
  cases htext : m.text with
  | nil => rwa [htext] at hhead
  | cons c text =>
    rw [htext] at hhead
    rw [find?, hhead]

/-! ## Expressions for the end of a line -/

/-- The expression begins with `^`. -/
def StartsLine : Regex α → Prop
  | .lineStart => True
  | .seq r _ => r.StartsLine
  | _ => False

/-- The expression ends with `$`. -/
def EndsLine : Regex α → Prop
  | .lineEnd => True
  | .seq _ r' => r'.EndsLine
  | _ => False

/-- After `^` there are matches at the beginning of a line only. -/
theorem matchesAt_false {r : Regex α} (h : r.StartsLine) (s : List α) :
    r.matchesAt nl false s = [] := by
  induction r with
  | seq r r' ih ih' => rw [matchesAt, ih h, List.flatMap_nil]
  | lineStart => rfl
  | empty | cls p | star p | opt r ih | group n r ih | lineEnd => exact h.elim

/-- With `$` a match ends where a line does. -/
theorem atEol_of_mem_matchesAt {r : Regex α} (h : r.EndsLine) {bol : Bool} {s : List α}
    {m : RegexMatch α} (hm : m ∈ r.matchesAt nl bol s) :
    atEol nl (s.drop m.text.length) = true := by
  induction r generalizing bol s m with
  | seq r r' ih ih' =>
    obtain ⟨a, ha, hm⟩ := List.mem_flatMap.mp hm
    obtain ⟨b, hb, rfl⟩ := List.mem_map.mp hm
    rw [List.length_append, ← List.drop_drop]
    exact ih' h hb
  | lineEnd =>
    rw [matchesAt] at hm
    split at hm
    · next heol => rwa [List.mem_singleton.mp hm]
    · simp at hm
  | empty | cls p | star p | opt r ih | group n r ih | lineStart => exact h.elim

/-- Given characters match themselves. -/
theorem eq_of_mem_lit {w s : List α} {bol : Bool} {m : RegexMatch α}
    (h : m ∈ (lit w).matchesAt nl bol s) : m = ⟨w, []⟩ := by
  induction w generalizing bol s m with
  | nil => exact List.mem_singleton.mp h
  | cons c w ih =>
    obtain ⟨a, ha, hm⟩ := List.mem_flatMap.mp h
    obtain ⟨b, hb, rfl⟩ := List.mem_map.mp hm
    obtain rfl := ih hb
    obtain ⟨d, hd, rfl⟩ := exists_of_mem_cls ha
    rw [beq_iff_eq.mp hd]
    rfl

/-! ## What an expression accepts -/

/-- The expression has the match `m` before `rest`. -/
def Accepts (nl : α) (r : Regex α) (bol : Bool) (m : RegexMatch α) (rest : List α) : Prop :=
  m ∈ r.matchesAt nl bol (m.text ++ rest)

/-- The matches at a position are those that the expression accepts before what follows. -/
theorem mem_matchesAt_iff {r : Regex α} {bol : Bool} {s : List α} {m : RegexMatch α} :
    m ∈ r.matchesAt nl bol s ↔ ∃ rest, s = m.text ++ rest ∧ r.Accepts nl bol m rest := by
  constructor
  · intro h
    obtain ⟨rest, rfl⟩ := prefix_of_mem_matchesAt h
    exact ⟨rest, rfl, h⟩
  · rintro ⟨rest, rfl, h⟩
    exact h

section

variable {bol : Bool} {m : RegexMatch α} {rest : List α}

theorem accepts_cls {p : α → Bool} :
    (cls p).Accepts nl bol m rest ↔ ∃ c, p c = true ∧ m = ⟨[c], []⟩ := by
  constructor
  · exact exists_of_mem_cls
  · rintro ⟨c, hc, rfl⟩
    rw [Accepts, List.singleton_append, matchesAt, if_pos hc]
    exact List.mem_singleton_self _

theorem accepts_star {p : α → Bool} :
    (star p).Accepts nl bol m rest ↔ ∃ t, (∀ c ∈ t, p c = true) ∧ m = ⟨t, []⟩ := by
  constructor
  · intro h
    obtain ⟨t, ht, rfl⟩ := List.mem_map.mp h
    exact ⟨t, forall_of_mem_repeats ht, rfl⟩
  · rintro ⟨t, ht, rfl⟩
    exact List.mem_map_of_mem (mem_repeats_append ht rest)

theorem accepts_seq {r r' : Regex α} :
    (seq r r').Accepts nl bol m rest ↔ ∃ a b, r.Accepts nl bol a (b.text ++ rest) ∧
      r'.Accepts nl (bolAfter nl bol a.text) b rest ∧
      m = ⟨a.text ++ b.text, a.groups ++ b.groups⟩ := by
  constructor
  · intro h
    obtain ⟨a, ha, hm⟩ := List.mem_flatMap.mp h
    obtain ⟨b, hb, rfl⟩ := List.mem_map.mp hm
    rw [List.append_assoc] at ha hb
    rw [List.drop_left] at hb
    exact ⟨a, b, ha, hb, rfl⟩
  · rintro ⟨a, b, ha, hb, rfl⟩
    rw [Accepts, List.append_assoc, matchesAt]
    refine List.mem_flatMap.mpr ⟨a, ha, List.mem_map.mpr ⟨b, ?_, rfl⟩⟩
    rwa [List.drop_left]

theorem accepts_opt {r : Regex α} :
    (opt r).Accepts nl bol m rest ↔ r.Accepts nl bol m rest ∨ m = ⟨[], []⟩ := by
  rw [Accepts, matchesAt, List.mem_append, List.mem_singleton]
  rfl

theorem accepts_group {n : Nat} {r : Regex α} :
    (group n r).Accepts nl bol m rest ↔
      ∃ a, r.Accepts nl bol a rest ∧ m = ⟨a.text, (n, a.text) :: a.groups⟩ := by
  constructor
  · intro h
    obtain ⟨a, ha, rfl⟩ := List.mem_map.mp h
    exact ⟨a, ha, rfl⟩
  · rintro ⟨a, ha, rfl⟩
    exact List.mem_map_of_mem ha

theorem accepts_lineStart :
    (lineStart : Regex α).Accepts nl bol m rest ↔ bol = true ∧ m = ⟨[], []⟩ := by
  rw [Accepts, matchesAt]
  cases bol <;> simp

theorem accepts_lineEnd :
    (lineEnd : Regex α).Accepts nl bol m rest ↔ atEol nl rest = true ∧ m = ⟨[], []⟩ := by
  rw [Accepts, matchesAt]
  constructor
  · intro h
    split at h
    · next heol =>
      obtain rfl := List.mem_singleton.mp h
      exact ⟨heol, rfl⟩
    · cases h
  · rintro ⟨heol, rfl⟩
    rw [List.nil_append, if_pos heol]
    exact List.mem_singleton_self _

theorem accepts_lit {w : List α} :
    (lit w).Accepts nl bol m rest ↔ m = ⟨w, []⟩ := by
  constructor
  · exact eq_of_mem_lit
  · rintro rfl
    induction w generalizing bol with
    | nil => exact List.mem_singleton_self _
    | cons c w ih =>
      exact accepts_seq.mpr ⟨⟨[c], []⟩, ⟨w, []⟩,
        accepts_cls.mpr ⟨c, beq_self_eq_true c, rfl⟩, ih, rfl⟩

end

/-! ## Parts -/

/-- After some text a position begins a line as after its last character. -/
theorem bolAfter_cons (bol : Bool) (c : α) (text : List α) :
    bolAfter nl bol (c :: text) = bolAfter nl (c == nl) text := by
  rw [bolAfter, List.getLast?_cons, bolAfter]
  cases text.getLast? with
  | none => rfl
  | some d => rfl

private theorem parts_skip (r : Regex α) (bol : Bool) (s : List α) (skip : Nat) :
    r.parts nl bol skip s = r.parts nl (bolAfter nl bol (s.take skip)) 0 (s.drop skip) := by
  induction skip generalizing bol s with
  | zero => rfl
  | succ skip ih =>
    cases s with
    | nil => simp only [parts, List.take_nil, List.drop_nil]
    | cons c s =>
      rw [parts, ih, List.take_succ_cons, List.drop_succ_cons, bolAfter_cons]

/-- A match is one part. -/
theorem parts_of_match {r : Regex α} {bol : Bool} {s : List α} {m : RegexMatch α}
    (h : (r.matchesAt nl bol s).head? = some m) (hne : m.text ≠ []) :
    r.parts nl bol 0 s =
      .found m :: r.parts nl (bolAfter nl bol m.text) 0 (s.drop m.text.length) := by
  obtain ⟨ms, hms⟩ := List.head?_eq_some_iff.mp h
  obtain ⟨u, rfl⟩ : m.text <+: s := prefix_of_mem_matchesAt (hms ▸ List.mem_cons_self)
  obtain ⟨c, text, htext⟩ := List.exists_cons_of_ne_nil hne
  rw [htext, List.cons_append] at h
  rw [List.drop_left, htext, List.cons_append, parts, h]
  simp only [htext, List.length_cons, Nat.add_sub_cancel]
  rw [parts_skip, List.take_left, List.drop_left, bolAfter_cons]

/-- Outside a match a character is a part. -/
theorem parts_of_none {r : Regex α} {bol : Bool} {c : α} {s : List α}
    (h : (r.matchesAt nl bol (c :: s)).head? = none) :
    r.parts nl bol 0 (c :: s) = .char c :: r.parts nl (c == nl) 0 s := by
  rw [parts, h]

/-- A property of all positions: at the end of the text, at a character outside the matches, and
at a match, when it holds after it. -/
theorem parts_induction {r : Regex α}
    (hne : ∀ bol s m, (r.matchesAt nl bol s).head? = some m → m.text ≠ [])
    {motive : Bool → List α → Prop} (nil : ∀ bol, motive bol [])
    (char : ∀ bol c s, (r.matchesAt nl bol (c :: s)).head? = none → motive (c == nl) s →
      motive bol (c :: s))
    (found : ∀ bol m rest, (r.matchesAt nl bol (m.text ++ rest)).head? = some m →
      motive (bolAfter nl bol m.text) rest → motive bol (m.text ++ rest))
    (bol : Bool) (s : List α) : motive bol s := by
  induction hn : s.length using Nat.strongRecOn generalizing bol s with
  | ind n ih =>
    subst hn
    cases s with
    | nil => exact nil bol
    | cons c s =>
      cases hhead : (r.matchesAt nl bol (c :: s)).head? with
      | none => exact char bol c s hhead (ih s.length (Nat.lt_succ_self _) _ s rfl)
      | some m =>
        obtain ⟨rest, hrest⟩ := prefix_of_mem_matchesAt (List.mem_of_head? hhead)
        have hlt : rest.length < (c :: s).length := by
          have hpos := List.length_pos_iff.mpr (hne bol _ m hhead)
          rw [← hrest, List.length_append]
          omega
        rw [← hrest] at hhead ⊢
        exact found bol m rest hhead (ih rest.length hlt _ rest rfl)

/-- What is found is the first match somewhere at the beginning of a line. -/
theorem exists_of_found {r : Regex α} (hstart : r.StartsLine)
    (hne : ∀ bol s m, (r.matchesAt nl bol s).head? = some m → m.text ≠ []) {bol : Bool} {s : List α}
    {m : RegexMatch α} (h : .found m ∈ r.parts nl bol 0 s) :
    ∃ s', (r.matchesAt nl true s').head? = some m := by
  induction bol, s using parts_induction hne with
  | nil bol => simp [parts] at h
  | char bol c s hnone ih =>
    rw [parts_of_none hnone] at h
    exact ih ((List.mem_cons.mp h).resolve_left (by simp))
  | found bol m' rest hhead ih =>
    rw [parts_of_match hhead (hne bol _ m' hhead), List.drop_left] at h
    rcases List.mem_cons.mp h with h | h
    · obtain rfl := Part.found.inj h
      cases bol with
      | false =>
        rw [matchesAt_false hstart] at hhead
        cases hhead
      | true => exact ⟨_, hhead⟩
    · exact ih h

/-- The parts make up the text. -/
theorem flatMap_parts {r : Regex α}
    (hne : ∀ bol s m, (r.matchesAt nl bol s).head? = some m → m.text ≠ []) (bol : Bool)
    (s : List α) :
    (r.parts nl bol 0 s).flatMap Part.text = s := by
  induction bol, s using parts_induction hne with
  | nil bol => rfl
  | char bol c s hnone ih =>
    rw [parts_of_none hnone, List.flatMap_cons, ih]
    rfl
  | found bol m rest hhead ih =>
    rw [parts_of_match hhead (hne bol _ m hhead), List.drop_left,
      List.flatMap_cons, ih]
    rfl

/-- After `^` nothing is found before the next line. -/
theorem parts_append_of_notMem {r : Regex α} (hstart : r.StartsLine) {v : List α} (hv : nl ∉ v)
    (s : List α) : r.parts nl false 0 (v ++ s) = v.map .char ++ r.parts nl false 0 s := by
  induction v with
  | nil => rfl
  | cons c v ih =>
    rw [List.mem_cons, not_or] at hv
    have hnone : (r.matchesAt nl false (c :: (v ++ s))).head? = none := by
      rw [matchesAt_false hstart, List.head?_nil]
    rw [List.cons_append, parts_of_none hnone, beq_eq_false_iff_ne.mpr (Ne.symm hv.1), ih hv.2]
    rfl

/-- The parts are the segments with what was found. -/
theorem segments_eq_map_parts (r : Regex α) (bol : Bool) (skip : Nat) (s : List α) :
    r.segments nl bol skip s = (r.parts nl bol skip s).map Part.segment := by
  induction s generalizing bol skip with
  | nil => simp only [segments, parts, List.map_nil]
  | cons c s ih =>
    cases skip with
    | succ skip => rw [segments, parts, ih]
    | zero =>
      rw [segments, parts]
      cases (r.matchesAt nl bol (c :: s)).head? with
      | none => simp only [ih, List.map_cons, Part.segment]
      | some m => simp only [ih, List.map_cons, Part.segment]

/-! ## Replacing -/

/-- A match is replaced as a whole. -/
theorem segments_of_match {r : Regex α} {bol : Bool} {s : List α} {m : RegexMatch α}
    (h : (r.matchesAt nl bol s).head? = some m) (hne : m.text ≠ []) :
    r.segments nl bol 0 s =
      .matched m.text :: r.segments nl (bolAfter nl bol m.text) 0 (s.drop m.text.length) := by
  rw [segments_eq_map_parts, parts_of_match h hne, List.map_cons, ← segments_eq_map_parts]
  rfl

/-- Outside a match a character stays. -/
theorem segments_of_none {r : Regex α} {bol : Bool} {c : α} {s : List α}
    (h : (r.matchesAt nl bol (c :: s)).head? = none) :
    r.segments nl bol 0 (c :: s) = .char c :: r.segments nl (c == nl) 0 s := by
  rw [segments, h]

/-- The parts of a text make it up. -/
theorem flatMap_segments {r : Regex α}
    (hne : ∀ bol s m, (r.matchesAt nl bol s).head? = some m → m.text ≠ []) (bol : Bool)
    (s : List α) :
    (r.segments nl bol 0 s).flatMap (Segment.replace id) = s := by
  rw [segments_eq_map_parts, List.flatMap_map]
  refine Eq.trans (List.flatMap_congr fun part _ ↦ ?_) (flatMap_parts hne bol s)
  cases part <;> rfl

/-- Only the matched parts are replaced. -/
theorem replaceAllFunc_congr {r : Regex α} {s : List α} {repl repl' : List α → List α}
    (h : ∀ text, .matched text ∈ r.segments nl true 0 s → repl text = repl' text) :
    r.replaceAllFunc nl s repl = r.replaceAllFunc nl s repl' := by
  refine List.flatMap_congr fun segment hmem ↦ ?_
  cases segment with
  | char c => rfl
  | matched text => exact h text hmem

/-- A matched part of a text is the first match somewhere at the beginning of a line. -/
theorem exists_of_matched {r : Regex α} (hstart : r.StartsLine)
    (hne : ∀ bol s m, (r.matchesAt nl bol s).head? = some m → m.text ≠ []) {bol : Bool}
    {s text : List α}
    (h : .matched text ∈ r.segments nl bol 0 s) :
    ∃ s' m, (r.matchesAt nl true s').head? = some m ∧ m.text = text := by
  rw [segments_eq_map_parts] at h
  obtain ⟨part, hpart, heq⟩ := List.mem_map.mp h
  cases part with
  | char c => cases heq
  | found m =>
    obtain ⟨s', hs'⟩ := exists_of_found hstart hne hpart
    exact ⟨s', m, hs', Segment.matched.inj heq⟩

private theorem eq_of_append_eq {v v' u u' : List α} (hv : nl ∉ v) (hv' : nl ∉ v')
    (hu : atEol nl u = true) (hu' : atEol nl u' = true) (h : v ++ u = v' ++ u') :
    v = v' ∧ u = u' := by
  induction v generalizing v' with
  | nil =>
    cases v' with
    | nil => exact ⟨rfl, h⟩
    | cons c v' =>
      rw [List.nil_append, List.cons_append] at h
      rw [h, atEol, beq_iff_eq] at hu
      exact absurd (hu ▸ List.mem_cons_self) hv'
  | cons c v ih =>
    rw [List.mem_cons, not_or] at hv
    cases v' with
    | nil =>
      rw [List.nil_append, List.cons_append] at h
      rw [← h, atEol, beq_iff_eq] at hu'
      exact absurd hu'.symm hv.1
    | cons c' v' =>
      rw [List.mem_cons, not_or] at hv'
      obtain ⟨rfl, htail⟩ := List.cons.inj h
      obtain ⟨rfl, rfl⟩ := ih hv.2 hv'.2 htail
      exact ⟨rfl, rfl⟩

private theorem atEol_replace {r : Regex α} (hstart : r.StartsLine) (repl : List α → List α)
    {s : List α} (h : atEol nl s = true) :
    atEol nl ((r.segments nl false 0 s).flatMap (Segment.replace repl)) = true := by
  cases s with
  | nil => rfl
  | cons c s =>
    have hnone : (r.matchesAt nl false (c :: s)).head? = none := by
      rw [matchesAt_false hstart, List.head?_nil]
    rw [segments_of_none hnone]
    exact h

/-- Two replacements of the same matches differ before the ends of their lines only. -/
def DifferInLine (nl : α) (r : Regex α) (repl repl' : List α → List α) : Prop :=
  ∀ s m, (r.matchesAt nl true s).head? = some m → (∃ c, m.text.getLast? = some c ∧ c ≠ nl) ∧
    ∃ u v v', nl ∉ v ∧ nl ∉ v' ∧ repl m.text = u ++ v ∧ repl' m.text = u ++ v'

/-- Then they agree on each match if they agree on the text. -/
theorem eq_of_replaceAllFunc_eq {r : Regex α} (hstart : r.StartsLine) (hend : r.EndsLine)
    {repl repl' : List α → List α} (hrepl : DifferInLine nl r repl repl') {s : List α}
    (h : r.replaceAllFunc nl s repl = r.replaceAllFunc nl s repl') {text : List α}
    (ht : .matched text ∈ r.segments nl true 0 s) : repl text = repl' text := by
  have hne : ∀ bol s m, (r.matchesAt nl bol s).head? = some m → m.text ≠ [] := by
    intro bol s m hhead hnil
    cases bol with
    | false =>
      rw [matchesAt_false hstart] at hhead
      cases hhead
    | true =>
      obtain ⟨⟨d, hd, -⟩, -⟩ := hrepl _ m hhead
      rw [hnil] at hd
      cases hd
  unfold replaceAllFunc at h
  generalize true = bol at h ht
  induction bol, s using parts_induction hne with
  | nil bol => simp [segments] at ht
  | char bol c s hnone ih =>
    rw [segments_of_none hnone] at h ht
    rw [List.flatMap_cons, List.flatMap_cons] at h
    have hrest := List.append_cancel_left h
    exact ih hrest ((List.mem_cons.mp ht).resolve_left (by simp))
  | found bol m rest hhead ih =>
    cases bol with
    | false =>
      rw [matchesAt_false hstart] at hhead
      cases hhead
    | true =>
      have heol := atEol_of_mem_matchesAt hend (List.mem_of_head? hhead)
      obtain ⟨⟨d, hd, hdne⟩, u, v, v', hv, hv', hu, hu'⟩ := hrepl _ m hhead
      have hbol : bolAfter nl true m.text = false := by
        rw [bolAfter, hd]
        exact beq_eq_false_iff_ne.mpr hdne
      rw [hbol] at ih
      rw [segments_of_match hhead (hne true _ m hhead), hbol, List.drop_left] at h ht
      rw [List.drop_left] at heol
      rw [List.flatMap_cons, List.flatMap_cons, Segment.replace, Segment.replace, hu, hu',
        List.append_assoc, List.append_assoc] at h
      obtain ⟨rfl, hrest⟩ := eq_of_append_eq hv hv' (atEol_replace hstart repl heol)
        (atEol_replace hstart repl' heol) (List.append_cancel_left h)
      rcases List.mem_cons.mp ht with ht | ht
      · obtain rfl := Segment.matched.inj ht
        rw [hu, hu']
      · exact ih hrest ht

end Regex

end Dockstack.Base
