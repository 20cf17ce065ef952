import Mathlib.Data.List.Basic

/-!
# Machines

A machine takes one action at a time and refuses the actions its state does not admit. What
holds at the start and is kept by every step of a run holds after the run, and the property may
speak of the actions taken so far as well as of the state.
-/

namespace Daku.Base

/-- The next state after an action, where the state admits it. -/
structure Machine (σ α : Type) where
  step : σ → α → Option σ

namespace Machine

variable {σ α : Type} {M : Machine σ α}

/-- The state after a list of actions, if each one is admitted. -/
def run (M : Machine σ α) : σ → List α → Option σ
  | s, [] => some s
  | s, a :: actions => (M.step s a).bind fun t ↦ M.run t actions

/-- Every action of a run is taken in a state that is good for it. -/
def Meets (M : Machine σ α) (good : σ → α → Prop) : σ → List α → Prop
  | _, [] => True
  | s, a :: actions => good s a ∧ ∀ t ∈ M.step s a, M.Meets good t actions

/-- Whether a run is good is decided step by step. -/
def decideMeets (M : Machine σ α) (good : σ → α → Prop) [∀ s a, Decidable (good s a)] :
    (s : σ) → (actions : List α) → Decidable (M.Meets good s actions)
  | _, [] => instDecidableTrue
  | s, a :: actions =>
    match h : M.step s a with
    | none => decidable_of_iff (good s a) (by simp [Meets, h])
    | some t =>
      have := decideMeets M good t actions
      decidable_of_iff (good s a ∧ M.Meets good t actions) (by simp [Meets, h])

instance {good : σ → α → Prop} [∀ s a, Decidable (good s a)] (s : σ) (actions : List α) :
    Decidable (M.Meets good s actions) :=
  decideMeets M good s actions

@[simp] theorem run_nil (s : σ) : M.run s [] = some s := rfl

theorem run_cons {s t : σ} {a : α} {actions : List α} :
    M.run s (a :: actions) = some t ↔ ∃ u, M.step s a = some u ∧ M.run u actions = some t := by
  rw [run, Option.bind_eq_some_iff]

/-- A run is cut anywhere into two. -/
theorem run_append {s t : σ} {before after : List α} :
    M.run s (before ++ after) = some t ↔
      ∃ u, M.run s before = some u ∧ M.run u after = some t := by
  induction before generalizing s with
  | nil => simp
  | cons a before ih =>
    rw [List.cons_append, run_cons]
    constructor
    · rintro ⟨u, hu, hrest⟩
      obtain ⟨v, hv, hafter⟩ := ih.mp hrest
      exact ⟨v, run_cons.mpr ⟨u, hu, hv⟩, hafter⟩
    · rintro ⟨v, hv, hafter⟩
      obtain ⟨u, hu, hbefore⟩ := run_cons.mp hv
      exact ⟨u, hu, ih.mpr ⟨v, hbefore, hafter⟩⟩

/-- What a run of good steps does to a property of the actions taken and the state. -/
theorem run_induction {good : σ → α → Prop} {I : List α → σ → Prop} {s t : σ}
    {actions : List α} (hstart : I [] s)
    (hstep : ∀ {done u a v}, I done u → good u a → M.step u a = some v → I (done ++ [a]) v)
    (hgood : M.Meets good s actions) (hrun : M.run s actions = some t) : I actions t := by
  suffices H : ∀ (rest done : List α) (u : σ), I done u → M.Meets good u rest →
      M.run u rest = some t → I (done ++ rest) t from H actions [] s hstart hgood hrun
  intro rest
  induction rest with
  | nil =>
    intro done u hI _ hrun
    rw [run_nil, Option.some.injEq] at hrun
    rwa [List.append_nil, ← hrun]
  | cons a rest ih =>
    intro done u hI hgood hrun
    obtain ⟨v, hv, hrest⟩ := run_cons.mp hrun
    have hnext := ih (done ++ [a]) v (hstep hI hgood.1 hv) (hgood.2 v hv) hrest
    rwa [List.append_assoc] at hnext

/-- Actions that are good in every state make good runs. -/
theorem meets_of_forall {good : σ → α → Prop} {actions : List α}
    (h : ∀ a ∈ actions, ∀ s, good s a) (s : σ) : M.Meets good s actions := by
  induction actions generalizing s with
  | nil => trivial
  | cons a actions ih =>
    exact ⟨h a List.mem_cons_self s, fun t _ ↦ ih (fun b hb ↦ h b (List.mem_cons_of_mem _ hb)) t⟩

/-- What every step keeps holds after every run. -/
theorem run_invariant {I : σ → Prop} {s t : σ} {actions : List α} (hstart : I s)
    (hstep : ∀ {u a v}, I u → M.step u a = some v → I v)
    (hrun : M.run s actions = some t) : I t :=
  run_induction (I := fun _ ↦ I) hstart (fun hI (_ : True) hstep' ↦ hstep hI hstep')
    (meets_of_forall (fun _ _ _ ↦ trivial) s) hrun

/-- A run is no longer than a measure that every step lowers. -/
theorem length_run_le {I : σ → Prop} (f : σ → ℕ) {s t : σ} {actions : List α} (hstart : I s)
    (hstep : ∀ {u a v}, I u → M.step u a = some v → I v ∧ f v < f u)
    (hrun : M.run s actions = some t) : actions.length + f t ≤ f s := by
  induction actions generalizing s with
  | nil =>
    rw [run_nil, Option.some.injEq] at hrun
    rw [hrun, List.length_nil]
    omega
  | cons a actions ih =>
    obtain ⟨u, hu, hrest⟩ := run_cons.mp hrun
    obtain ⟨hnext, hlt⟩ := hstep hstart hu
    have hle := ih hnext hrest
    rw [List.length_cons]
    omega

end Machine

end Daku.Base
