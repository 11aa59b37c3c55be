import Mathlib.Data.List.Basic

/-!
# Services

A service answers one request after the other and keeps a state between them. What two
services answer to the same requests is compared step by step, through a relation between
their states; and what one service answers to some of its requests can be independent of
the others.
-/

namespace Dockstack.Base

variable {S T C R : Type}

/-- Serve the requests in order: the answers, and the state after the last. -/
def serveAll (serve : S → C → R × S) : S → List C → List R × S
  | s, [] => ([], s)
  | s, c :: cs =>
    let r := serve s c
    let rest := serveAll serve r.2 cs
    (r.1 :: rest.1, rest.2)

/-- The answers to the requests that `mine` selects. -/
def answersTo (mine : C → Bool) (cs : List C) (rs : List R) : List R :=
  ((cs.zip rs).filter (fun cr ↦ mine cr.1)).map (·.2)

/-- Two services answer a request alike, and their states stay related. -/
structure Alike (Rel : S → T → Prop) (r : R × S) (r' : R × T) : Prop where
  answer : r.1 = r'.1
  state : Rel r.2 r'.2

variable {serve : S → C → R × S} {spec : T → C → R × T} {Rel : S → T → Prop}

/-- Services that answer every request alike answer all of them alike. -/
theorem alike_serveAll {cs : List C}
    (hstep : ∀ c ∈ cs, ∀ s t, Rel s t → Alike Rel (serve s c) (spec t c)) {s : S} {t : T}
    (h : Rel s t) : Alike Rel (serveAll serve s cs) (serveAll spec t cs) := by
  induction cs generalizing s t with
  | nil => exact ⟨rfl, h⟩
  | cons c cs ih =>
    have hfirst := hstep c List.mem_cons_self s t h
    have hrest := ih (fun c' hc' ↦ hstep c' (List.mem_cons_of_mem c hc')) hfirst.state
    exact ⟨congrArg₂ List.cons hfirst.answer hrest.answer, hrest.state⟩

/-- A view of the state that every request keeps or writes is what was written last. -/
theorem view_serveAll {V : Type} (view : S → V) (write : C → R → Option V) (s : S) (cs : List C)
    (hstep : ∀ s c, view (serve s c).2 = (write c (serve s c).1).getD (view s)) :
    view (serveAll serve s cs).2 =
      ((cs.zip (serveAll serve s cs).1).filterMap fun cr ↦ write cr.1 cr.2).getLastD (view s) := by
  induction cs generalizing s with
  | nil => rfl
  | cons c cs ih =>
    rw [serveAll, List.zip_cons_cons, List.filterMap_cons]
    refine (ih (serve s c).2).trans ?_
    rw [hstep s c]
    cases write c (serve s c).1 with
    | none => rfl
    | some v => exact List.getLastD_cons.symm

/-- How the requests that `mine` selects do not depend on the others: they are answered alike in
states that agree, and the others keep the agreement with a state that does not see them. -/
structure Isolated (serve : S → C → R × S) (mine : C → Bool) (Agree : S → S → Prop) (c : C) :
    Prop where
  own : mine c = true → ∀ s t, Agree s t → Alike Agree (serve s c) (serve t c)
  other : mine c = false → ∀ s t, Agree s t → Agree (serve s c).2 t

/-- Without the other requests, the isolated ones get the answers that they get with them. -/
theorem alike_filter {mine : C → Bool} {Agree : S → S → Prop} {cs : List C}
    (hstep : ∀ c ∈ cs, Isolated serve mine Agree c) {s t : S} (h : Agree s t) :
    Alike Agree (answersTo mine cs (serveAll serve s cs).1, (serveAll serve s cs).2)
      (serveAll serve t (cs.filter mine)) := by
  induction cs generalizing s t with
  | nil => exact ⟨rfl, h⟩
  | cons c cs ih =>
    have hfirst := hstep c List.mem_cons_self
    have hrest {s t : S} := ih (s := s) (t := t) fun c' hc' ↦
      hstep c' (List.mem_cons_of_mem c hc')
    cases hmine : mine c with
    | true =>
      have hown := hfirst.own hmine s t h
      have hlast := hrest hown.state
      rw [List.filter_cons_of_pos hmine]
      refine ⟨?_, hlast.state⟩
      simp only [answersTo, serveAll, List.zip_cons_cons, List.filter_cons_of_pos, hmine,
        List.map_cons]
      exact congrArg₂ List.cons hown.answer hlast.answer
    | false =>
      have hlast := hrest (hfirst.other hmine s t h)
      rw [List.filter_cons_of_neg (Bool.not_eq_true _ ▸ hmine)]
      refine ⟨?_, hlast.state⟩
      simp only [answersTo, serveAll, List.zip_cons_cons, hmine, List.filter_cons_of_neg,
        Bool.false_eq_true, not_false_eq_true]
      exact hlast.answer

end Dockstack.Base
