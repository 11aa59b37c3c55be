import Mathlib.Data.List.Basic

/-!
# Byte strings

A Go string is a sequence of bytes. Where the code only compares strings the models
use `String`; where it cuts them up they use `Bytes`.
-/

namespace Dockstack.Base

/-- A Go string, as its bytes. -/
abbrev Bytes := List UInt8

variable {α : Type} [DecidableEq α]

/-- The last position of `c`, Go's `strings.LastIndex` with a one-byte separator;
`none` is Go's `-1`. -/
def lastIndex (c : α) : List α → Option Nat
  | [] => none
  | b :: s =>
    match lastIndex c s with
    | some i => some (i + 1)
    | none => if b = c then some 0 else none

/-- What comes before a first separator. -/
theorem takeWhile_append_cons {c : α} {s : List α} (h : c ∉ s) (t : List α) :
    (s ++ c :: t).takeWhile (· != c) = s := by
  have hall : ∀ b ∈ s, (b != c) = true := fun b hb ↦ bne_iff_ne.mpr fun heq ↦ h (heq ▸ hb)
  rw [List.takeWhile_append_of_pos hall, List.takeWhile_cons_of_neg (by simp), List.append_nil]

/-- A first separator and what comes after it. -/
theorem dropWhile_append_cons {c : α} {s : List α} (h : c ∉ s) (t : List α) :
    (s ++ c :: t).dropWhile (· != c) = c :: t := by
  have hall : ∀ b ∈ s, (b != c) = true := fun b hb ↦ bne_iff_ne.mpr fun heq ↦ h (heq ▸ hb)
  rw [List.dropWhile_append_of_pos hall, List.dropWhile_cons_of_neg (by simp)]

/-- There is no last position of what does not occur. -/
theorem lastIndex_eq_none {c : α} {s : List α} (h : c ∉ s) : lastIndex c s = none := by
  induction s with
  | nil => rfl
  | cons b s ih =>
    rw [List.mem_cons, not_or] at h
    rw [lastIndex, ih h.2]
    exact if_neg (Ne.symm h.1)

/-- The separator before a part without it is the last one. -/
theorem lastIndex_append_cons (s : List α) {c : α} {t : List α} (h : c ∉ t) :
    lastIndex c (s ++ c :: t) = some s.length := by
  induction s with
  | nil =>
    rw [List.nil_append, lastIndex, lastIndex_eq_none h]
    exact if_pos rfl
  | cons b s ih => rw [List.cons_append, lastIndex, ih, List.length_cons]

/-- What comes before the last separator, the separator and what follows it are the whole text. -/
theorem eq_of_lastIndex {c : α} {s : List α} {i : Nat} (h : lastIndex c s = some i) :
    s = s.take i ++ c :: s.drop (i + 1) := by
  induction s generalizing i with
  | nil => contradiction
  | cons b s ih =>
    rw [lastIndex] at h
    split at h
    · next j hj =>
      obtain rfl := Option.some.inj h
      rw [List.take_succ_cons, List.drop_succ_cons, List.cons_append, ← ih hj]
    · split at h
      · next hb =>
        obtain rfl := Option.some.inj h
        rw [hb]
        rfl
      · contradiction

/-- The first position of `pat`, Go's `strings.Index` and JavaScript's `indexOf`; `none` is
their `-1`. -/
def indexOf (pat : List α) : List α → Option Nat
  | [] => if pat = [] then some 0 else none
  | b :: s => if pat <+: b :: s then some 0 else (indexOf pat s).map (· + 1)

/-- A part that was found lies inside the text. -/
theorem indexOf_add_length_le {pat s : List α} {i : Nat} (h : indexOf pat s = some i) :
    i + pat.length ≤ s.length := by
  induction s generalizing i with
  | nil =>
    obtain ⟨rfl, ⟨⟩⟩ := Option.ite_none_right_eq_some.mp h
    exact Nat.le_refl _
  | cons b s ih =>
    rw [indexOf] at h
    split at h
    · next hp =>
      cases h
      simpa using hp.length_le
    · next hp =>
      obtain ⟨j, hj, rfl⟩ := Option.map_eq_some_iff.mp h
      have := ih hj
      rw [List.length_cons]
      omega

/-- What follows does not change where the first occurrence is. -/
theorem indexOf_append {pat s : List α} {i : Nat} (h : indexOf pat s = some i) (t : List α) :
    indexOf pat (s ++ t) = some i := by
  induction s generalizing i with
  | nil =>
    obtain ⟨rfl, ⟨⟩⟩ := Option.ite_none_right_eq_some.mp h
    cases t with
    | nil => rfl
    | cons b t => exact if_pos List.nil_prefix
  | cons b s ih =>
    rw [indexOf] at h
    rw [List.cons_append, indexOf]
    split at h
    · next hp =>
      cases h
      exact if_pos (hp.trans (List.prefix_append (b :: s) t))
    · next hp =>
      obtain ⟨j, hj, rfl⟩ := Option.map_eq_some_iff.mp h
      have hlen := indexOf_add_length_le hj
      have hlong : pat.length ≤ (b :: s).length := by
        rw [List.length_cons]
        omega
      rw [if_neg, ih hj, Option.map_some]
      intro hpre
      exact hp (List.prefix_of_prefix_length_le hpre (List.prefix_append (b :: s) t) hlong)

/-- A separator after a part without its first letter is found there. -/
theorem indexOf_of_notMem {c : α} {s : List α} (h : c ∉ s) (pat t : List α) :
    indexOf (c :: pat) (s ++ (c :: pat ++ t)) = some s.length := by
  induction s with
  | nil => exact if_pos (List.prefix_append (c :: pat) t)
  | cons b s ih =>
    rw [List.mem_cons, not_or] at h
    rw [List.cons_append, indexOf, if_neg, ih h.2, Option.map_some, List.length_cons]
    rintro hp
    exact h.1 (List.cons_prefix_cons.mp hp).1

/-- A part is found exactly when it is one; Go's `strings.Contains`. -/
theorem isSome_indexOf {pat s : List α} : (indexOf pat s).isSome ↔ pat <:+: s := by
  induction s with
  | nil =>
    rw [indexOf, List.infix_nil]
    split
    · next h => simp [h]
    · next h => simp [h]
  | cons b s ih =>
    rw [indexOf, List.infix_cons_iff, ← ih]
    split
    · next h => simp [h]
    · next h => simp [h]

omit [DecidableEq α] in
/-- A part without the separator lies on one side of it. -/
theorem infix_append_cons_iff {c : α} {d : List α} (h : c ∉ d) (a b : List α) :
    d <:+: a ++ c :: b ↔ d <:+: a ∨ d <:+: b := by
  constructor
  · rintro ⟨u, v, heq⟩
    rcases List.append_eq_append_iff.mp heq with ⟨l, rfl, -⟩ | ⟨l, hl, hr⟩
    · exact .inl ⟨u, l, rfl⟩
    · cases l with
      | nil => exact .inl ⟨u, [], by rw [List.append_nil, hl, List.append_nil]⟩
      | cons e l =>
        obtain ⟨rfl, rfl⟩ := List.cons.inj hr
        rcases List.append_eq_append_iff.mp hl with ⟨m, rfl, hm⟩ | ⟨m, rfl, hm⟩
        · exact absurd (hm ▸ List.mem_append_right m List.mem_cons_self) h
        · cases m with
          | nil => exact absurd ((List.nil_append d ▸ hm) ▸ List.mem_cons_self) h
          | cons e m =>
            obtain ⟨rfl, rfl⟩ := List.cons.inj hm
            exact .inr ⟨m, v, rfl⟩
  · rintro (⟨u, v, rfl⟩ | ⟨u, v, rfl⟩)
    · exact ⟨u, v ++ c :: b, by simp only [List.append_assoc]⟩
    · exact ⟨a ++ c :: u, v, by simp only [List.append_assoc, List.cons_append]⟩

/-- A part is found where it stands first. -/
theorem indexOf_of_first {pat s : List α} (h : ¬ pat <:+: s ++ pat.dropLast) (t : List α) :
    indexOf pat (s ++ (pat ++ t)) = some s.length := by
  induction s with
  | nil =>
    cases hpat : pat with
    | nil =>
      rw [hpat] at h
      exact absurd List.nil_infix h
    | cons c pat => exact if_pos (List.prefix_append (c :: pat) t)
  | cons b s ih =>
    rw [List.cons_append, List.infix_cons_iff, not_or] at h
    rw [List.cons_append, indexOf, if_neg, ih h.2, Option.map_some, List.length_cons]
    intro hpat
    apply h.1
    have hwhole : b :: (s ++ (pat ++ t)) =
        (b :: (s ++ pat.dropLast)) ++ (pat.drop (pat.length - 1) ++ t) := by
      have hlast : pat.dropLast ++ pat.drop (pat.length - 1) = pat := by
        rw [List.dropLast_eq_take, List.take_append_drop]
      simp only [List.cons_append, List.append_assoc]
      rw [← List.append_assoc pat.dropLast, hlast]
    rw [hwhole] at hpat
    refine List.prefix_of_prefix_length_le hpat (List.prefix_append _ _) ?_
    rw [List.length_cons, List.length_append, List.length_dropLast]
    omega

omit [DecidableEq α] in
/-- A text is cut at its first separator in one way. -/
theorem append_cons_inj {c : α} {s s' t t' : List α} (hs : c ∉ s) (hs' : c ∉ s')
    (h : s ++ c :: t = s' ++ c :: t') : s = s' ∧ t = t' := by
  induction s generalizing s' with
  | nil =>
    cases s' with
    | nil => exact ⟨rfl, (List.cons.inj h).2⟩
    | cons b s' => exact absurd ((List.cons.inj h).1 ▸ List.mem_cons_self) hs'
  | cons b s ih =>
    rw [List.mem_cons, not_or] at hs
    cases s' with
    | nil => exact absurd (List.cons.inj h).1.symm hs.1
    | cons b' s' =>
      rw [List.mem_cons, not_or] at hs'
      obtain ⟨rfl, htail⟩ := List.cons.inj h
      obtain ⟨rfl, rfl⟩ := ih hs.2 hs'.2 htail
      exact ⟨rfl, rfl⟩

omit [DecidableEq α] in
/-- A part with the separator lies around the first one, or after it. -/
theorem infix_append_cons_cases {c : α} {a b u v : List α} (ha : c ∉ a) (hu : c ∉ u)
    (h : u ++ c :: v <:+: a ++ c :: b) : u <:+ a ∧ v <+: b ∨ u ++ c :: v <:+: b := by
  obtain ⟨x, y, h⟩ := h
  by_cases hx : c ∈ x
  · obtain ⟨x₁, x₂, rfl, hx₁⟩ := List.eq_append_cons_of_mem hx
    simp only [List.append_assoc, List.cons_append] at h
    obtain ⟨-, rfl⟩ := append_cons_inj hx₁ ha h
    exact .inr ⟨x₂, y, by simp only [List.append_assoc, List.cons_append]⟩
  · have hxu : c ∉ x ++ u := by
      rw [List.mem_append, not_or]
      exact ⟨hx, hu⟩
    rw [← List.append_assoc, List.append_assoc _ _ y, List.cons_append] at h
    obtain ⟨rfl, rfl⟩ := append_cons_inj hxu ha h
    exact .inl ⟨List.suffix_append x u, List.prefix_append v y⟩

end Dockstack.Base
