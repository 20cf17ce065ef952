import Mathlib.Data.List.Basic

/-!
# Deliveries in publication order

Values with keys are published one after another, and some of them are delivered, possibly more
than once. As long as only the latest value of a key is delivered, no value of a key is ever
delivered after a newer one.
-/

namespace Daku.Base

variable {α κ : Type} {key : α → Option κ} {published more : List α} {i : Nat} {a : α}

/-- The publication at a position, and no later one has its key. -/
structure Latest (key : α → Option κ) (published : List α) (i : Nat) (a : α) : Prop where
  at_position : published[i]? = some a
  no_later : ∀ j b, published[j]? = some b → key a ≠ none → key b = key a → j ≤ i

/-- Deliveries with the positions of their publications; those of one key never go back. -/
structure Follows (key : α → Option κ) (published : List α) (delivered : List (Nat × α)) :
    Prop where
  at_position : ∀ d ∈ delivered, published[d.1]? = some d.2
  forward : delivered.Pairwise fun d e ↦ key d.2 ≠ none → key e.2 = key d.2 → d.1 ≤ e.1

/-- Every value received was published, and after a value no older one of its key was received. -/
def InOrder (key : α → Option κ) (published received : List α) : Prop :=
  ∃ delivered, delivered.map Prod.snd = received ∧ Follows key published delivered

/-- The last publication is the latest one of its key. -/
theorem latest_concat (key : α → Option κ) (published : List α) (a : α) :
    Latest key (published ++ [a]) published.length a where
  at_position := List.getElem?_concat_length
  no_later j b hj _ _ := by
    have hlt := (List.getElem?_eq_some_iff.mp hj).1
    rw [List.length_append, List.length_singleton] at hlt
    omega

/-- Publishing another value leaves the latest of the other keys. -/
theorem Latest.publish {b : α} (h : Latest key published i a)
    (hkey : key a ≠ none → key b ≠ key a) : Latest key (published ++ [b]) i a where
  at_position := by
    rw [List.getElem?_append_left (List.getElem?_eq_some_iff.mp h.at_position).1]
    exact h.at_position
  no_later j c hj hsome hsame := by
    by_cases hlt : j < published.length
    · rw [List.getElem?_append_left hlt] at hj
      exact h.no_later j c hj hsome hsame
    · have hc : c ∈ [b] := by
        rw [List.getElem?_append_right (Nat.not_lt.mp hlt)] at hj
        exact List.mem_of_getElem? hj
      rw [List.mem_singleton.mp hc] at hsame
      exact absurd hsame (hkey hsome)

namespace Follows

variable {delivered : List (Nat × α)}

/-- More may be published. -/
theorem publish (h : Follows key published delivered) (more : List α) :
    Follows key (published ++ more) delivered where
  at_position d hd := by
    rw [List.getElem?_append_left (List.getElem?_eq_some_iff.mp (h.at_position d hd)).1]
    exact h.at_position d hd
  forward := h.forward

/-- Some deliveries may be left out. -/
theorem sublist {fewer : List (Nat × α)} (h : Follows key published delivered)
    (hfewer : fewer.Sublist delivered) : Follows key published fewer :=
  ⟨fun d hd ↦ h.at_position d (hfewer.subset hd), h.forward.sublist hfewer⟩

/-- The latest value of a key may be delivered. -/
theorem deliver (h : Follows key published delivered) (hlatest : Latest key published i a) :
    Follows key published (delivered ++ [(i, a)]) where
  at_position d hd := by
    rcases List.mem_append.mp hd with hd | hd
    · exact h.at_position d hd
    · rw [List.mem_singleton.mp hd]
      exact hlatest.at_position
  forward := by
    rw [List.pairwise_append]
    refine ⟨h.forward, List.pairwise_singleton _ _, fun d hd e he hsome hsame ↦ ?_⟩
    rw [List.mem_singleton.mp he] at hsame ⊢
    exact hlatest.no_later d.1 d.2 (h.at_position d hd) (hsame ▸ hsome) hsame.symm

end Follows

namespace InOrder

variable {received : List α}

theorem nil (key : α → Option κ) (published : List α) : InOrder key published [] :=
  ⟨[], rfl, fun _ h ↦ absurd h List.not_mem_nil, List.Pairwise.nil⟩

/-- Whatever was received was published. -/
theorem mem (h : InOrder key published received) (ha : a ∈ received) : a ∈ published := by
  obtain ⟨delivered, rfl, hfollows⟩ := h
  obtain ⟨d, hd, rfl⟩ := List.mem_map.mp ha
  exact List.mem_of_getElem? (hfollows.at_position d hd)

/-- More may be published. -/
theorem publish (h : InOrder key published received) (more : List α) :
    InOrder key (published ++ more) received := by
  obtain ⟨delivered, hmap, hfollows⟩ := h
  exact ⟨delivered, hmap, hfollows.publish more⟩

/-- The latest value of a key may be delivered. -/
theorem deliver (h : InOrder key published received) (hlatest : Latest key published i a) :
    InOrder key published (received ++ [a]) := by
  obtain ⟨delivered, hmap, hfollows⟩ := h
  exact ⟨delivered ++ [(i, a)], by rw [List.map_append, hmap]; rfl, hfollows.deliver hlatest⟩

/-- The latest values of several keys may be delivered. -/
theorem deliverAll (h : InOrder key published received) {values : List α}
    (hlatest : ∀ a ∈ values, ∃ i, Latest key published i a) :
    InOrder key published (received ++ values) := by
  induction values generalizing received with
  | nil => rwa [List.append_nil]
  | cons a values ih =>
    obtain ⟨i, hi⟩ := hlatest a List.mem_cons_self
    rw [List.append_cons]
    exact ih (h.deliver hi) fun b hb ↦ hlatest b (List.mem_cons_of_mem _ hb)

end InOrder

end Daku.Base
