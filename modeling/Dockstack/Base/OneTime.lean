import Mathlib.Data.List.Basic

/-!
# One-time tickets

Tickets are issued into a store, each once. A party takes a ticket that is stored, and is live from
then on unless it fails; it holds the ticket until it has removed it from the store. If nobody
takes a ticket that another party holds, each ticket makes one party live at most.
-/

namespace Dockstack.Base

/-- One live party for each ticket, whose ticket is out of the store once it is not held. -/
structure OneTime {C K : Type} (ticket : C → K) (live holds : C → Bool) (parties : List C)
    (issued : List K) (stored : K → Prop) : Prop where
  one : ∀ (i j : Nat) a b, parties[i]? = some a → parties[j]? = some b →
    ticket a = ticket b → live a = true → live b = true → i = j
  ofStored : ∀ k, stored k → k ∈ issued
  ofLive : ∀ a ∈ parties, live a = true → ticket a ∈ issued
  gone : ∀ a ∈ parties, live a = true → holds a = false → ¬ stored (ticket a)

variable {C K : Type} {ticket : C → K} {live holds : C → Bool} {parties : List C} {issued : List K}
  {stored stored' : K → Prop} {a a' : C}

/-- An entry of a list after an assignment is the assigned one, or an old one. -/
theorem of_getElem?_set {α : Type} {l : List α} {n i : Nat} {x y : α}
    (h : (l.set n x)[i]? = some y) : (n = i ∧ x = y) ∨ l[i]? = some y := by
  rw [List.getElem?_set] at h
  by_cases hi : n = i
  · rw [if_pos hi] at h
    exact .inl ⟨hi, Option.some.inj (Option.ite_none_right_eq_some.mp h).2⟩
  · rw [if_neg hi] at h
    exact .inr h

namespace OneTime

/-- Without parties or tickets nobody is live. -/
theorem empty (h : ∀ k, ¬ stored k) : OneTime ticket live holds [] issued stored where
  one _ _ _ _ ha := absurd ha (by simp)
  ofStored k hk := absurd hk (h k)
  ofLive _ ha := absurd ha List.not_mem_nil
  gone _ ha := absurd ha List.not_mem_nil

/-- Tickets may go out of the store. -/
theorem shrink (h : OneTime ticket live holds parties issued stored)
    (hstored : ∀ k, stored' k → stored k) : OneTime ticket live holds parties issued stored' where
  one := h.one
  ofStored k hk := h.ofStored k (hstored k hk)
  ofLive := h.ofLive
  gone a ha hla hha hk := h.gone a ha hla hha (hstored _ hk)

/-- A ticket that is issued is nobody's. -/
theorem issue (h : OneTime ticket live holds parties issued stored) {k : K} (hfresh : k ∉ issued)
    (hstored : ∀ k', stored' k' → k' = k ∨ stored k') :
    OneTime ticket live holds parties (k :: issued) stored' where
  one := h.one
  ofStored k' hk' := by
    rcases hstored k' hk' with rfl | hk'
    · exact List.mem_cons_self
    · exact List.mem_cons_of_mem k (h.ofStored k' hk')
  ofLive a ha hla := List.mem_cons_of_mem k (h.ofLive a ha hla)
  gone a ha hla hha hk := by
    rcases hstored _ hk with heq | hk
    · exact hfresh (heq ▸ h.ofLive a ha hla)
    · exact h.gone a ha hla hha hk

/-- A new party is not live. -/
theorem join (h : OneTime ticket live holds parties issued stored) (ha : live a = false) :
    OneTime ticket live holds (parties ++ [a]) issued stored := by
  have hold {b : C} (hb : b ∈ parties ++ [a]) (hlb : live b = true) : b ∈ parties := by
    rcases List.mem_append.mp hb with hb | hb
    · exact hb
    · rw [List.mem_singleton.mp hb, ha] at hlb
      contradiction
  have hat {i : Nat} {b : C} (hb : (parties ++ [a])[i]? = some b) (hlb : live b = true) :
      parties[i]? = some b := by
    rw [List.getElem?_append] at hb
    split at hb
    · exact hb
    · rw [List.mem_singleton.mp (List.mem_of_getElem? hb), ha] at hlb
      contradiction
  exact ⟨fun i j b c hb hc heq hlb hlc ↦ h.one i j b c (hat hb hlb) (hat hc hlc) heq hlb hlc,
    h.ofStored, fun b hb hlb ↦ h.ofLive b (hold hb hlb) hlb,
    fun b hb hlb ↦ h.gone b (hold hb hlb) hlb⟩

/-- A party goes on without taking a ticket; if it stays live and holds its ticket no longer, the
ticket is out of the store. -/
theorem move (h : OneTime ticket live holds parties issued stored) {n : Nat}
    (hn : parties[n]? = some a) (hticket : ticket a' = ticket a)
    (hlive : live a' = true → live a = true) (hstored : ∀ k, stored' k → stored k)
    (hgone : live a' = true → holds a' = false → ¬ stored' (ticket a)) :
    OneTime ticket live holds (parties.set n a') issued stored' := by
  have hmem : a ∈ parties := List.mem_of_getElem? hn
  have hold {i : Nat} {b : C} (hb : (parties.set n a')[i]? = some b) :
      ∃ b₀, parties[i]? = some b₀ ∧ ticket b₀ = ticket b ∧ (live b = true → live b₀ = true) := by
    rcases of_getElem?_set hb with ⟨rfl, rfl⟩ | hb
    · exact ⟨a, hn, hticket.symm, hlive⟩
    · exact ⟨b, hb, rfl, fun hlb ↦ hlb⟩
  refine ⟨fun i j b c hb hc heq hlb hlc ↦ ?_, fun k hk ↦ h.ofStored k (hstored k hk),
    fun b hb hlb ↦ ?_, fun b hb hlb hhb ↦ ?_⟩
  · obtain ⟨b₀, hb₀, htb, hlb₀⟩ := hold hb
    obtain ⟨c₀, hc₀, htc, hlc₀⟩ := hold hc
    exact h.one i j b₀ c₀ hb₀ hc₀ (by rw [htb, htc, heq]) (hlb₀ hlb) (hlc₀ hlc)
  · rcases List.mem_or_eq_of_mem_set hb with hb | rfl
    · exact h.ofLive b hb hlb
    · exact hticket ▸ h.ofLive a hmem (hlive hlb)
  · rcases List.mem_or_eq_of_mem_set hb with hb | rfl
    · exact fun hk ↦ h.gone b hb hlb hhb (hstored _ hk)
    · exact hticket ▸ hgone hlb hhb

/-- A party takes a stored ticket that nobody holds. -/
theorem take (h : OneTime ticket live holds parties issued stored) (n : Nat)
    (hstored : stored (ticket a')) (hholds : holds a' = true)
    (hfree : ∀ b ∈ parties, ticket b = ticket a' → holds b = false) :
    OneTime ticket live holds (parties.set n a') issued stored := by
  -- a live party that does not hold the ticket would have removed it
  have hnone (b : C) (hb : b ∈ parties) (heq : ticket b = ticket a') : ¬ live b = true :=
    fun hlb ↦ h.gone b hb hlb (hfree b hb heq) (heq ▸ hstored)
  refine ⟨fun i j b c hb hc heq hlb hlc ↦ ?_, h.ofStored, fun b hb hlb ↦ ?_,
    fun b hb hlb hhb ↦ ?_⟩
  · rcases of_getElem?_set hb with ⟨rfl, rfl⟩ | hb₀
    · rcases of_getElem?_set hc with ⟨rfl, -⟩ | hc₀
      · rfl
      · exact absurd hlc (hnone c (List.mem_of_getElem? hc₀) heq.symm)
    · rcases of_getElem?_set hc with ⟨rfl, rfl⟩ | hc₀
      · exact absurd hlb (hnone b (List.mem_of_getElem? hb₀) heq)
      · exact h.one i j b c hb₀ hc₀ heq hlb hlc
  · rcases List.mem_or_eq_of_mem_set hb with hb | rfl
    · exact h.ofLive b hb hlb
    · exact h.ofStored _ hstored
  · rcases List.mem_or_eq_of_mem_set hb with hb | rfl
    · exact h.gone b hb hlb hhb
    · rw [hholds] at hhb
      contradiction

end OneTime

end Dockstack.Base
