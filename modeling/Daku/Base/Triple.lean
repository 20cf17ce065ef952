import Mathlib.Tactic.Common

/-!
# Triples for stateful programs that can fail

Total correctness of `EStateM` programs: from a precondition, a result is left in the
postcondition and an error in the error condition. One rule for each way such programs are
built here.
-/

namespace Daku.Base

variable {ε σ α β : Type} {P P' : σ → Prop} {Q Q' : α → σ → Prop} {E E' : ε → σ → Prop}

/-- From `P` the program ends with a result in `Q` or with an error in `E`. -/
def Triple (P : σ → Prop) (x : EStateM ε σ α) (Q : α → σ → Prop) (E : ε → σ → Prop) : Prop :=
  ∀ s, P s → match x s with
    | .ok a t => Q a t
    | .error e t => E e t

namespace Triple

theorem pure {a : α} (h : ∀ s, P s → Q a s) : Triple P (pure a : EStateM ε σ α) Q E :=
  fun s hs ↦ h s hs

theorem throw {e : ε} (h : ∀ s, P s → E e s) : Triple P (throw e : EStateM ε σ α) Q E :=
  fun s hs ↦ h s hs

theorem get_bind {f : σ → EStateM ε σ α} (h : ∀ s, P s → Triple (fun t ↦ t = s) (f s) Q E) :
    Triple P (get >>= f) Q E :=
  fun s hs ↦ h s hs s rfl

theorem set_bind {s : σ} {f : PUnit → EStateM ε σ α}
    (h : Triple (fun t ↦ t = s) (f ⟨⟩) Q E) : Triple P (set s >>= f) Q E :=
  fun _ _ ↦ h s rfl

theorem modify_bind {g : σ → σ} {f : PUnit → EStateM ε σ α}
    (h : Triple (fun t ↦ ∃ s, P s ∧ t = g s) (f ⟨⟩) Q E) :
    Triple P (modify g >>= f) Q E :=
  fun s hs ↦ h (g s) ⟨s, hs, rfl⟩

/-- The rule of composition, with the condition in between. -/
theorem bind {x : EStateM ε σ α} {f : α → EStateM ε σ β} (M : α → σ → Prop) {R : β → σ → Prop}
    (hx : Triple P x M E) (hf : ∀ a, Triple (M a) (f a) R E) : Triple P (x >>= f) R E := by
  intro s hs
  have h := hx s hs
  change match EStateM.bind x f s with
    | .ok b t => R b t
    | .error e t => E e t
  unfold EStateM.bind
  cases hxs : x s with
  | ok a t =>
    rw [hxs] at h
    exact hf a t h
  | error e t =>
    rw [hxs] at h
    exact h

/-- The rule of consequence. -/
theorem weaken {x : EStateM ε σ α} (h : Triple P x Q E) (hP : ∀ s, P' s → P s)
    (hQ : ∀ a s, Q a s → Q' a s) (hE : ∀ e s, E e s → E' e s) : Triple P' x Q' E' := by
  intro s hs
  have h := h s (hP s hs)
  cases hxs : x s with
  | ok a t =>
    rw [hxs] at h
    exact hQ a t h
  | error e t =>
    rw [hxs] at h
    exact hE e t h

/-- A step that only reads a computed result. -/
theorem ofExcept_bind {x : Except ε α} {f : α → EStateM ε σ β} {R : β → σ → Prop}
    (hok : ∀ a, x = .ok a → Triple P (f a) R E) (herror : ∀ e, x = .error e → ∀ s, P s → E e s) :
    Triple P (ofExcept x >>= f) R E := by
  cases x with
  | ok a => exact hok a rfl
  | error e => exact herror e rfl

/-- From one state a program ends as it does. -/
theorem self (x : EStateM ε σ α) (s : σ) :
    Triple (fun t ↦ t = s) x (fun a t ↦ x s = .ok a t) (fun e t ↦ x s = .error e t) := by
  rintro s rfl
  cases hxs : x s with
  | ok a t => rfl
  | error e t => rfl

/-- A computed result as the last step. -/
theorem ofExcept {x : Except ε α} (hok : ∀ a, x = .ok a → ∀ s, P s → Q a s)
    (herror : ∀ e, x = .error e → ∀ s, P s → E e s) :
    Triple P (ofExcept x : EStateM ε σ α) Q E := by
  cases x with
  | ok a => exact hok a rfl
  | error e => exact herror e rfl

/-- A program that leaves no errors ends with a result. -/
theorem ends {x : EStateM ε σ α} (h : Triple P x Q fun _ _ ↦ False) {s : σ} (hs : P s) :
    ∃ a t, x s = .ok a t ∧ Q a t := by
  have h := h s hs
  cases hxs : x s with
  | ok a t =>
    rw [hxs] at h
    exact ⟨a, t, rfl, h⟩
  | error e t =>
    rw [hxs] at h
    exact h.elim

/-- A triple may be shown for each state of its precondition. -/
theorem of_forall {x : EStateM ε σ α} (h : ∀ s, P s → Triple (fun t ↦ t = s) x Q E) :
    Triple P x Q E :=
  fun s hs ↦ h s hs s rfl

end Triple

end Daku.Base
