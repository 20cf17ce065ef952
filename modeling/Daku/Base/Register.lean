import Mathlib.Data.List.Basic

/-!
# Registers that survive crashes

A register holds one value. Replacing it takes effect at once, but the medium follows later: a
crash goes back to any of the values since the last one that was settled. Nothing between two
values is ever read.
-/

namespace Daku.Base

/-- The value on the medium, and the values it has had since, the current one last. -/
structure Register (β : Type) where
  settled : β
  unsettled : List β
  deriving DecidableEq, Repr

namespace Register

variable {β : Type} {r s t : Register β} {v : β}

/-- What is read. -/
def current (r : Register β) : β := r.unsettled.getLastD r.settled

/-- What a crash may leave. -/
def values (r : Register β) : List β := r.settled :: r.unsettled

/-- A register of what the values mean. -/
def map {γ : Type} (f : β → γ) (r : Register β) : Register γ :=
  ⟨f r.settled, r.unsettled.map f⟩

/-- One atomic change of a register. -/
inductive Op (β : Type) where
  | replace (v : β)
  /-- The current value reaches the medium. -/
  | settle
  /-- Some of the older values can come back no more. -/
  | narrow
  | crash
  deriving DecidableEq, Repr

/-- What an operation leaves. -/
inductive Step : Register β → Op β → Register β → Prop where
  | replace (r : Register β) (v : β) : Step r (.replace v) ⟨r.settled, r.unsettled ++ [v]⟩
  | settle (r : Register β) : Step r .settle ⟨r.current, []⟩
  | narrow {r s : Register β} : s.values.Sublist r.values → s.current = r.current →
      Step r .narrow s
  | crash (r : Register β) (v : β) : v ∈ r.values → Step r .crash ⟨v, []⟩

/-- What a list of operations leaves. -/
inductive Steps : Register β → List (Op β) → Register β → Prop where
  | refl (r : Register β) : Steps r [] r
  | head {r s t : Register β} {op : Op β} {ops : List (Op β)} :
      Step r op s → Steps s ops t → Steps r (op :: ops) t

/-- The values that were put into the register. -/
def replaced (ops : List (Op β)) : List β :=
  ops.filterMap fun
    | .replace v => some v
    | _ => none

theorem mem_replaced {ops : List (Op β)} : v ∈ replaced ops ↔ .replace v ∈ ops := by
  constructor
  · intro h
    obtain ⟨op, hop, hv⟩ := List.mem_filterMap.mp h
    cases op with
    | replace w =>
      obtain rfl := Option.some.inj hv
      exact hop
    | settle => cases hv
    | narrow => cases hv
    | crash => cases hv
  · exact fun h ↦ List.mem_filterMap.mpr ⟨_, h, rfl⟩

@[simp] theorem current_concat (settled : β) (unsettled : List β) (v : β) :
    current ⟨settled, unsettled ++ [v]⟩ = v := by
  rw [current, List.getLastD_concat]

@[simp] theorem current_nil (v : β) : current ⟨v, []⟩ = v := rfl

/-- What is read is one of the values a crash may leave. -/
theorem current_mem_values (r : Register β) : r.current ∈ r.values :=
  List.getLastD_mem_cons

@[simp] theorem current_map {γ : Type} (f : β → γ) (r : Register β) :
    (r.map f).current = f r.current := by
  obtain ⟨settled, unsettled⟩ := r
  rcases List.eq_nil_or_concat unsettled with rfl | ⟨before, v, rfl⟩
  · rfl
  · rw [List.concat_eq_append, map, List.map_append, List.map_singleton, current_concat,
      current_concat]

theorem values_map {γ : Type} (f : β → γ) (r : Register β) :
    (r.map f).values = r.values.map f := rfl

/-- An operation other than a replacement means the same for what the values mean. -/
theorem Step.map {γ : Type} (f : β → γ) (h : Step r .settle s) :
    Step (r.map f) .settle (s.map f) := by
  cases h
  rw [Register.map, Register.map, ← current_map f r]
  exact .settle _

theorem Step.map_narrow {γ : Type} (f : β → γ) (h : Step r .narrow s) :
    Step (r.map f) .narrow (s.map f) := by
  cases h with
  | narrow hsub hcurrent =>
    refine .narrow ?_ ?_
    · rw [values_map, values_map]
      exact hsub.map f
    · rw [current_map, current_map, hcurrent]

theorem Step.map_crash {γ : Type} (f : β → γ) (h : Step r .crash s) :
    Step (r.map f) .crash (s.map f) := by
  cases h with
  | crash v hv => exact .crash _ _ (List.mem_map_of_mem (f := f) hv)

theorem Steps.single {op : Op β} (h : Step r op s) : Steps r [op] s :=
  .head h (.refl s)

theorem Steps.append {ops more : List (Op β)} (h : Steps r ops s) (hmore : Steps s more t) :
    Steps r (ops ++ more) t := by
  induction h with
  | refl r => exact hmore
  | head hstep _ ih => exact .head hstep (ih hmore)

theorem Steps.eq_of_nil (h : Steps r [] t) : t = r := by
  cases h
  rfl

theorem Steps.of_single {op : Op β} (h : Steps r [op] t) : Step r op t := by
  cases h with
  | head hstep hrest => exact hrest.eq_of_nil ▸ hstep

/-- An operation leaves old values and the one it puts in. -/
theorem Step.values_subset {op : Op β} (h : Step r op s) :
    ∀ v ∈ s.values, v ∈ r.values ∨ op = .replace v := by
  cases h with
  | replace w =>
    intro v hv
    simp only [values, List.mem_cons, List.mem_append, List.not_mem_nil, or_false] at hv ⊢
    rcases hv with rfl | hv | rfl
    · exact Or.inl (Or.inl rfl)
    · exact Or.inl (Or.inr hv)
    · exact Or.inr rfl
  | settle =>
    intro v hv
    rw [values, List.mem_singleton] at hv
    exact Or.inl (hv ▸ current_mem_values r)
  | narrow hsub => exact fun v hv ↦ Or.inl (hsub.subset hv)
  | crash w hw =>
    intro v hv
    rw [values, List.mem_singleton] at hv
    exact Or.inl (hv ▸ hw)

/-- **No value out of nowhere.** Whatever is read or left by a crash was there at the start or was
put in whole. -/
theorem Steps.values_subset {ops : List (Op β)} (h : Steps r ops s) :
    ∀ v ∈ s.values, v ∈ r.values ∨ v ∈ replaced ops := by
  induction h with
  | refl r => exact fun v hv ↦ Or.inl hv
  | @head r s t op ops hstep _ ih =>
    intro v hv
    rcases ih v hv with hv | hv
    · rcases hstep.values_subset v hv with hv | rfl
      · exact Or.inl hv
      · exact Or.inr (mem_replaced.mpr List.mem_cons_self)
    · exact Or.inr (mem_replaced.mpr (List.mem_cons_of_mem _ (mem_replaced.mp hv)))

/-- Only replacements and crashes change what is read. -/
theorem Steps.current_eq {ops : List (Op β)} (h : Steps r ops s) (hops : ∀ w, Op.replace w ∉ ops)
    (hcrash : Op.crash ∉ ops) : s.current = r.current := by
  induction h with
  | refl r => rfl
  | head hstep _ ih =>
    rw [ih (fun w hw ↦ hops w (List.mem_cons_of_mem _ hw)) fun h ↦
      hcrash (List.mem_cons_of_mem _ h)]
    cases hstep with
    | replace w => exact absurd List.mem_cons_self (hops w)
    | settle => rfl
    | narrow _ hcurrent => exact hcurrent
    | crash w => exact absurd List.mem_cons_self hcrash

end Register

end Daku.Base
