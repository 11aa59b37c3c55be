import Dockstack.Base.Bytes

/-!
# Lines of a byte stream

What Go's `bufio.Scanner` with `ScanLines` yields for a whole input: the parts between
line feeds, without a trailing carriage return, the last one only if it is not empty. A
scanner with a buffer of `max` bytes reads an input whose line-feed-free stretches are all
shorter.
-/

namespace Dockstack.Base

/-- The line feed. -/
def newline : UInt8 := 10

/-- Strip a trailing carriage return. -/
def dropCR (l : Bytes) : Bytes := if l.getLast? = some 13 then l.dropLast else l

/-- Drop an empty last part. -/
def dropLastEmpty (parts : List Bytes) : List Bytes :=
  if parts.getLast? = some [] then parts.dropLast else parts

/-- The lines of an input. -/
def scanLines (s : Bytes) : List Bytes := (dropLastEmpty (s.splitOn newline)).map dropCR

/-- No stretch without a line feed fills a buffer of `max` bytes. -/
def Fits (max : Nat) (s : Bytes) : Prop :=
  ∀ a l b, s = a ++ l ++ b → newline ∉ l → l.length < max

/-- What a scanner with a buffer of `max` bytes can return as a line. -/
def IsLine (max : Nat) (l : Bytes) : Prop := newline ∉ l ∧ l.length < max

/-- A line is still one without its carriage return. -/
theorem isLine_dropCR {max : Nat} {l : Bytes} (h : IsLine max l) : IsLine max (dropCR l) := by
  have hsub : List.Sublist (dropCR l) l := by
    unfold dropCR
    split
    · exact List.dropLast_sublist l
    · exact List.Sublist.refl l
  exact ⟨fun hmem ↦ h.1 (hsub.subset hmem), Nat.lt_of_le_of_lt hsub.length_le h.2⟩

/-- A line of two bytes or more is not empty without its carriage return. -/
theorem dropCR_ne_nil {l : Bytes} (h : 1 < l.length) : dropCR l ≠ [] := by
  apply List.ne_nil_of_length_pos
  unfold dropCR
  split
  · rw [List.length_dropLast]
    omega
  · omega

/-- An empty input has no lines. -/
@[simp] theorem scanLines_nil : scanLines [] = [] := rfl

/-- An input without a line feed is one line. -/
theorem scanLines_of_notMem {l : Bytes} (h : newline ∉ l) (hne : l ≠ []) :
    scanLines l = [dropCR l] := by
  rw [scanLines, List.splitOn_eq_singleton h, dropLastEmpty, if_neg]
  · rfl
  · simpa using hne

/-- A line feed ends a line. -/
theorem scanLines_append {l : Bytes} (h : newline ∉ l) (rest : Bytes) :
    scanLines (l ++ newline :: rest) = dropCR l :: scanLines rest := by
  have hne : rest.splitOn newline ≠ [] := List.splitOn_ne_nil newline rest
  have hlast : (l :: rest.splitOn newline).getLast? = (rest.splitOn newline).getLast? := by
    rw [List.getLast?_cons, List.getLast?_eq_some_getLast hne, Option.getD_some]
  rw [scanLines, List.splitOn_append_cons_self, List.splitOn_eq_singleton h, List.singleton_append,
    dropLastEmpty, hlast, scanLines, dropLastEmpty]
  split
  · rw [List.dropLast_cons_of_ne_nil hne, List.map_cons]
  · rw [List.map_cons]

/-- The lines before a line feed and those after it. -/
theorem scanLines_append_newline (s rest : Bytes) :
    scanLines (s ++ newline :: rest) = scanLines (s ++ [newline]) ++ scanLines rest := by
  have hcut (rest : Bytes) : dropLastEmpty ((s ++ newline :: rest).splitOn newline) =
      s.splitOn newline ++ dropLastEmpty (rest.splitOn newline) := by
    have hne : rest.splitOn newline ≠ [] := List.splitOn_ne_nil newline rest
    rw [List.splitOn_append_cons_self, dropLastEmpty, dropLastEmpty,
      List.getLast?_append_of_ne_nil _ hne]
    split
    · rw [List.dropLast_append_of_ne_nil hne]
    · rfl
  have hend : dropLastEmpty (([] : Bytes).splitOn newline) = [] := rfl
  rw [scanLines, scanLines, scanLines, hcut, hcut, hend, List.append_nil, List.map_append]

/-- The lines of two inputs, the first of which ends in a line feed. -/
theorem scanLines_append_of_ends {s : Bytes} (hend : s = [] ∨ s.getLast? = some newline)
    (rest : Bytes) : scanLines (s ++ rest) = scanLines s ++ scanLines rest := by
  rcases hend with rfl | hlast
  · rfl
  · obtain ⟨s, rfl⟩ := List.getLast?_eq_some_iff.mp hlast
    rw [List.append_assoc, List.singleton_append, scanLines_append_newline]

/-- Every stretch of an input that fits does. -/
theorem Fits.stretch {max : Nat} {s l : Bytes} (h : Fits max s) (hl : l <:+: s) :
    Fits max l := by
  obtain ⟨a, b, rfl⟩ := hl
  rintro a' l' b' rfl hn
  exact h (a ++ a') l' (b' ++ b) (by simp only [List.append_assoc]) hn

/-- An input shorter than the buffer fits. -/
theorem fits_of_length_lt {max : Nat} {s : Bytes} (h : s.length < max) : Fits max s := by
  rintro a l b rfl -
  simp only [List.length_append] at h
  omega

/-- Two inputs that fit do so with a line feed between them. -/
theorem Fits.append_newline {max : Nat} {s rest : Bytes} (hs : Fits max s) (hrest : Fits max rest) :
    Fits max (s ++ newline :: rest) := by
  intro a l b heq hn
  rcases (infix_append_cons_iff hn s rest).mp ⟨a, b, heq.symm⟩ with ⟨u, v, h⟩ | ⟨u, v, h⟩
  · exact hs u l v h.symm hn
  · exact hrest u l v h.symm hn

/-- Two inputs that fit do so together if the first one ends in a line feed. -/
theorem Fits.append_of_ends {max : Nat} {s rest : Bytes} (hs : Fits max s) (hrest : Fits max rest)
    (hend : s = [] ∨ s.getLast? = some newline) : Fits max (s ++ rest) := by
  rcases hend with rfl | hlast
  · exact hrest
  · obtain ⟨s, rfl⟩ := List.getLast?_eq_some_iff.mp hlast
    rw [List.append_assoc, List.singleton_append]
    exact (hs.stretch ⟨[], [newline], rfl⟩).append_newline hrest

end Dockstack.Base
