import Daku.Base.Int64
import Mathlib.Data.List.Induction

/-!
# Two-in-a-row confirmation

A debouncer keeps a confirmed value and changes it only when another value is seen twice in a
row. The usual implementation does not keep the confirmed value: it counts the current streak
and remembers the value before it. This module states both machines over any type of values
and says exactly on which sequences they report the same changes.
-/

namespace Daku.Base

variable {α : Type} [DecidableEq α]

/-- The counting machine: the last value, the length of its streak and the value before it. -/
structure Streak (α : Type) where
  last : α
  consecutive : Int
  previous : Option α
  deriving DecidableEq, Repr

/-- The purpose of the machine: a confirmed value beside the last one seen. -/
structure Debounce (α : Type) where
  confirmed : α
  last : α
  deriving DecidableEq, Repr

namespace Streak

/-- The first value starts a streak that follows nothing. -/
def start (v : α) : Streak α := ⟨v, 1, none⟩

/-- Extend the streak, or start one that remembers the value it replaces. -/
def advance (s : Streak α) (v : α) : Streak α :=
  if v = s.last then { s with consecutive := satAdd s.consecutive 1 }
  else ⟨v, 1, some s.last⟩

/-- The value a change to `v` is reported from, when this sighting of `v` is its second. -/
def reports (s : Streak α) (v : α) : Option α :=
  if v = s.last ∧ satAdd s.consecutive 1 = 2 then s.previous.filter (· ≠ v) else none

/-- One more sighting of the last value would report a change. -/
def pending (s : Streak α) : Prop := s.reports s.last ≠ none

/-- The machine after one more value, from scratch when there is no state yet. -/
def next : Option (Streak α) → α → Streak α
  | none, v => start v
  | some s, v => s.advance v

/-- What one more value reports; the first value reports nothing. -/
def emits : Option (Streak α) → α → Option α
  | none, _ => none
  | some s, v => s.reports v

/-- The machine after a whole sequence. -/
def after (vs : List α) : Option (Streak α) := vs.foldl (fun s v ↦ some (next s v)) none

/-- A second sighting is what a report needs, and the value before the streak is what it says. -/
theorem reports_eq_some_iff (s : Streak α) (v p : α) :
    s.reports v = some p ↔ v = s.last ∧ s.consecutive = 1 ∧ s.previous = some p ∧ p ≠ v := by
  simp only [reports, satAdd_one_eq_two_iff]
  split
  · next h => simp [Option.filter_eq_some_iff, h.1, h.2]
  · next h =>
    simp only [reduceCtorEq, false_iff]
    rintro ⟨hv, hc, -, -⟩
    exact h ⟨hv, hc⟩

@[simp] theorem last_advance (s : Streak α) (v : α) : (s.advance v).last = v := by
  simp only [advance]
  split
  · next h => exact h.symm
  · rfl

/-- Nothing is reported for a value that is not the last one. -/
theorem reports_of_ne {s : Streak α} {v : α} (h : v ≠ s.last) : s.reports v = none := by
  simp [reports, h]

theorem after_nil : after ([] : List α) = none := rfl

theorem after_concat (vs : List α) (v : α) : after (vs ++ [v]) = some (next (after vs) v) := by
  simp [after]

/-- What a sighting of `v` reports when only some changes are announced: `ok v p` says whether
the change from `p` to `v` is. -/
def dueReport (ok : α → α → Bool) (s : Streak α) (v : α) : Option α := (s.reports v).filter (ok v)

/-- A longer streak reports nothing. -/
theorem reports_eq_none_of_two_le {s : Streak α} (h : 2 ≤ s.consecutive) (v : α) :
    s.reports v = none := by
  rw [Option.eq_none_iff_forall_ne_some]
  intro p hp
  have := ((reports_eq_some_iff s v p).mp hp).2.1
  omega

/-- Two machines that nothing published from now on can tell apart: they remember the same
values and would report the same next. Their counts may differ. -/
structure Alike (ok : α → α → Bool) (s t : Streak α) : Prop where
  last : s.last = t.last
  previous : s.previous = t.previous
  counts : 1 ≤ s.consecutive ∧ 1 ≤ t.consecutive
  due : ∀ v, s.dueReport ok v = t.dueReport ok v

variable {ok : α → α → Bool} {s t u : Streak α}

theorem Alike.refl (h : 1 ≤ s.consecutive) : Alike ok s s := ⟨rfl, rfl, ⟨h, h⟩, fun _ ↦ rfl⟩

theorem Alike.trans (h : Alike ok s t) (h' : Alike ok t u) : Alike ok s u :=
  ⟨h.last.trans h'.last, h.previous.trans h'.previous, ⟨h.counts.1, h'.counts.2⟩,
    fun v ↦ (h.due v).trans (h'.due v)⟩

/-- A streak counts at least one sighting. -/
theorem one_le_consecutive_advance (h : 1 ≤ s.consecutive) (v : α) :
    1 ≤ (s.advance v).consecutive := by
  rw [advance]
  split
  · have := two_le_satAdd_one h
    simp only
    omega
  · exact le_refl _

private theorem dueReport_extend (ok : α → α → Bool) (h : 1 ≤ s.consecutive) (v : α) :
    dueReport ok { s with consecutive := satAdd s.consecutive 1 } v = none := by
  rw [dueReport, reports_eq_none_of_two_le (two_le_satAdd_one h)]
  rfl

/-- Machines that cannot be told apart stay so. -/
theorem Alike.advance (h : Alike ok s t) (v : α) : Alike ok (s.advance v) (t.advance v) := by
  obtain ⟨hlast, hprev, ⟨hs, ht⟩, -⟩ := h
  have hs' := one_le_consecutive_advance hs v
  have ht' := one_le_consecutive_advance ht v
  refine ⟨by simp, ?_, ⟨hs', ht'⟩, fun w ↦ ?_⟩
  · simp only [Streak.advance, hlast]
    split
    · exact hprev
    · rfl
  · simp only [Streak.advance, hlast]
    split
    · have hsw := dueReport_extend ok hs w
      have htw := dueReport_extend ok ht w
      rw [hlast] at hsw
      exact hsw.trans htw.symm
    · rfl

/-- Seeing the last value once more changes nothing when nothing is due for it. -/
theorem alike_advance_last (h : 1 ≤ s.consecutive) (hdue : s.dueReport ok s.last = none) :
    Alike ok s (s.advance s.last) := by
  have hext := two_le_satAdd_one h
  have hadv : s.advance s.last = { s with consecutive := satAdd s.consecutive 1 } := by
    rw [Streak.advance, if_pos rfl]
  rw [hadv]
  refine ⟨rfl, rfl, ⟨h, by simp only; omega⟩, fun v ↦ ?_⟩
  rw [dueReport_extend ok h]
  by_cases hv : v = s.last
  · rw [hv, hdue]
  · rw [dueReport, reports_of_ne hv]
    rfl

/-- What each value of a sequence reports, from a given state on. -/
def reportsAlong : Option (Streak α) → List α → List (Option α)
  | _, [] => []
  | s, v :: vs => emits s v :: reportsAlong (some (next s v)) vs

@[simp] theorem reportsAlong_nil (s : Option (Streak α)) : reportsAlong s [] = [] := rfl

@[simp] theorem reportsAlong_cons (s : Option (Streak α)) (v : α) (vs : List α) :
    reportsAlong s (v :: vs) = emits s v :: reportsAlong (some (next s v)) vs := rfl

theorem reportsAlong_concat (s : Option (Streak α)) (vs : List α) (v : α) :
    reportsAlong s (vs ++ [v]) =
      reportsAlong s vs ++ [emits (vs.foldl (fun t w ↦ some (next t w)) s) v] := by
  induction vs generalizing s with
  | nil => rfl
  | cons w vs ih => simp only [List.cons_append, reportsAlong_cons, ih, List.foldl_cons]

/-- The machine over encoded values. -/
def map {β : Type} (f : α → β) (s : Streak α) : Streak β :=
  ⟨f s.last, s.consecutive, s.previous.map f⟩

section Map

variable {β : Type} [DecidableEq β] {f : α → β}

/-- Encoding commutes with a step of the machine. -/
theorem map_advance (hf : Function.Injective f) (s : Streak α) (v : α) :
    (s.advance v).map f = (s.map f).advance (f v) := by
  simp only [advance, map, hf.eq_iff]
  split <;> rfl

/-- Encoding commutes with what is reported. -/
theorem reports_map (hf : Function.Injective f) (s : Streak α) (v : α) :
    (s.map f).reports (f v) = (s.reports v).map f := by
  cases hp : s.previous with
  | none => simp [reports, map, hp]
  | some p =>
    simp only [reports, map, hp, hf.eq_iff, Option.map_some]
    split
    · by_cases hpv : p = v
      · simp [Option.filter, hpv]
      · have hfpv : f p ≠ f v := fun h ↦ hpv (hf h)
        simp [Option.filter, hpv, hfpv]
    · rfl

end Map

end Streak

namespace Debounce

/-- The first value is confirmed at once. -/
def start (v : α) : Debounce α := ⟨v, v⟩

/-- The confirmed value changes on the second sighting of a different value. -/
def advance (d : Debounce α) (v : α) : Debounce α :=
  if v = d.last then ⟨v, v⟩ else { d with last := v }

/-- The confirmed value a change to `v` is reported from. -/
def reports (d : Debounce α) (v : α) : Option α :=
  if v = d.last ∧ v ≠ d.confirmed then some d.confirmed else none

/-- The debouncer after one more value. -/
def next : Option (Debounce α) → α → Debounce α
  | none, v => start v
  | some d, v => d.advance v

/-- What one more value reports; the first value reports nothing. -/
def emits : Option (Debounce α) → α → Option α
  | none, _ => none
  | some d, v => d.reports v

/-- The debouncer after a whole sequence. -/
def after (vs : List α) : Option (Debounce α) := vs.foldl (fun d v ↦ some (next d v)) none

/-- The confirmed value after a sequence; there is none before the first value. -/
def confirmedAfter (vs : List α) : Option α := (after vs).map Debounce.confirmed

theorem after_nil : after ([] : List α) = none := rfl

theorem after_concat (vs : List α) (v : α) : after (vs ++ [v]) = some (next (after vs) v) := by
  simp [after]

/-- What each value of a sequence reports, from a given state on. -/
def reportsAlong : Option (Debounce α) → List α → List (Option α)
  | _, [] => []
  | d, v :: vs => emits d v :: reportsAlong (some (next d v)) vs

theorem reportsAlong_concat (d : Option (Debounce α)) (vs : List α) (v : α) :
    reportsAlong d (vs ++ [v]) =
      reportsAlong d vs ++ [emits (vs.foldl (fun t w ↦ some (next t w)) d) v] := by
  induction vs generalizing d with
  | nil => rfl
  | cons w vs ih => simp only [List.cons_append, reportsAlong, ih, List.foldl_cons]

end Debounce

/-- Every streak that is confirmed starts right after the confirmed value: whenever a value is
seen twice in a row after a different one, that different one was the confirmed value. -/
def ConfirmedBeforeStreaks (vs : List α) : Prop :=
  ∀ (qs : List α) (x v : α), qs ++ [x, v, v] <+: vs → x ≠ v →
    Debounce.confirmedAfter (qs ++ [x]) = some x

/-- What the two machines remember of one and the same sequence. Either the current streak is
one sighting long and the value before it is remembered, or its value is the confirmed one. -/
private def Agrees (vs : List α) (s : Streak α) (d : Debounce α) : Prop :=
  s.last = d.last ∧ 1 ≤ s.consecutive ∧
  ((s.consecutive = 1 ∧ ∃ qs x, vs = qs ++ [x, s.last] ∧ x ≠ s.last ∧ s.previous = some x) ∨
    (d.confirmed = s.last ∧ (s.previous = none ∨ 2 ≤ s.consecutive)))

private theorem agrees_concat (vs : List α) (s : Streak α) (d : Debounce α) (v : α)
    (hlast : ∃ qs, vs = qs ++ [s.last]) (h : Agrees vs s d) :
    Agrees (vs ++ [v]) (s.advance v) (d.advance v) := by
  obtain ⟨hl, hc, hcases⟩ := h
  by_cases hv : v = s.last
  · subst hv
    have hd : d.advance s.last = ⟨s.last, s.last⟩ := by simp [Debounce.advance, hl]
    simp only [Agrees, Streak.advance, if_true, hd]
    have htwo := two_le_satAdd_one hc
    exact ⟨trivial, by omega, Or.inr ⟨trivial, Or.inr htwo⟩⟩
  · obtain ⟨qs, rfl⟩ := hlast
    have hvd : v ≠ d.last := hl ▸ hv
    simp only [Agrees, Streak.advance, hv, if_false, Debounce.advance, hvd]
    exact ⟨trivial, le_refl _, Or.inl ⟨trivial, qs, s.last, by simp, Ne.symm hv, rfl⟩⟩

private theorem agrees_after (vs : List α) (h : vs ≠ []) :
    ∃ s d, Streak.after vs = some s ∧ Debounce.after vs = some d ∧
      (∃ qs, vs = qs ++ [s.last]) ∧ Agrees vs s d := by
  induction vs using List.reverseRecOn with
  | nil => exact absurd rfl h
  | append_singleton vs v ih =>
    rw [Streak.after_concat, Debounce.after_concat]
    by_cases hvs : vs = []
    · subst hvs
      exact ⟨_, _, rfl, rfl, ⟨[], rfl⟩, rfl, le_refl _, Or.inr ⟨rfl, Or.inl rfl⟩⟩
    · obtain ⟨s, d, hs, hd, hlast, ha⟩ := ih hvs
      refine ⟨s.advance v, d.advance v, by rw [hs]; rfl, by rw [hd]; rfl, ⟨vs, ?_⟩,
        agrees_concat vs s d v hlast ha⟩
      rw [Streak.last_advance]

/-- One more value is reported alike by both machines exactly when, if it confirms a streak,
the value before the streak was the confirmed one. -/
theorem emits_eq_iff (vs : List α) (v : α) :
    Streak.emits (Streak.after vs) v = Debounce.emits (Debounce.after vs) v ↔
      ∀ qs x, vs = qs ++ [x, v] → x ≠ v → Debounce.confirmedAfter (qs ++ [x]) = some x := by
  by_cases hvs : vs = []
  · subst hvs
    simp [Streak.after_nil, Debounce.after_nil, Streak.emits, Debounce.emits]
  obtain ⟨s, d, hs, hd, ⟨ps, hps⟩, hl, hc, hcases⟩ := agrees_after vs hvs
  rw [hs, hd]
  simp only [Streak.emits, Debounce.emits]
  rcases hcases with ⟨hone, qs, x, hq, hx, hp⟩ | ⟨hconf, hlong⟩
  · -- The streak is one sighting long: `x` is remembered, whatever is confirmed.
    have hkeep : Debounce.confirmedAfter (qs ++ [x]) = some d.confirmed := by
      have hstep : Debounce.after vs =
          some (Debounce.next (Debounce.after (qs ++ [x])) s.last) := by
        rw [hq, ← Debounce.after_concat]
        simp
      obtain ⟨s', d', -, hd', ⟨ts, hts⟩, hl', -⟩ := agrees_after (qs ++ [x]) (by simp)
      have hx' : s'.last = x := by
        have := List.append_inj_right' hts rfl
        simpa using this.symm
      rw [hd, hd', Option.some.injEq] at hstep
      have hne : s.last ≠ d'.last := by rw [← hl', hx']; exact Ne.symm hx
      rw [hstep, Debounce.confirmedAfter, hd']
      simp [Debounce.next, Debounce.advance, hne]
    constructor
    · intro he qs' x' hq' hx'
      have hsplit : qs' ++ [x', v] = qs ++ [x, s.last] := hq'.symm.trans hq
      obtain ⟨rfl, htail⟩ := List.append_inj' hsplit rfl
      simp only [List.cons.injEq, and_true] at htail
      obtain ⟨rfl, rfl⟩ := htail
      have hrep : s.reports s.last = some x' :=
        (Streak.reports_eq_some_iff _ _ _).mpr ⟨rfl, hone, hp, hx⟩
      rw [hrep, Debounce.reports] at he
      split at he
      · rw [hkeep, ← Option.some.inj he]
      · exact absurd he (by simp)
    · intro hcond
      by_cases hv : v = s.last
      · subst hv
        have hdx : d.confirmed = x := by
          have := hcond qs x hq hx
          rw [hkeep] at this
          exact Option.some.inj this
        have hrep : s.reports s.last = some x :=
          (Streak.reports_eq_some_iff _ _ _).mpr ⟨rfl, hone, hp, hx⟩
        rw [hrep, Debounce.reports, if_pos ⟨hl, by rw [hdx]; exact Ne.symm hx⟩, hdx]
      · have hvd : v ≠ d.last := hl ▸ hv
        rw [Streak.reports_of_ne hv, Debounce.reports, if_neg (fun h ↦ hvd h.1)]
  · -- The streak's value is confirmed already: neither machine reports anything.
    have hs' : s.reports v = none := by
      rw [Option.eq_none_iff_forall_ne_some]
      intro p hp
      obtain ⟨-, h1, h2, -⟩ := (Streak.reports_eq_some_iff _ _ _).mp hp
      rcases hlong with h | h
      · rw [h] at h2; cases h2
      · omega
    have hd' : d.reports v = none := by
      rw [Debounce.reports, if_neg]
      rintro ⟨h1, h2⟩
      exact h2 (by rw [hconf, hl, h1])
    rw [hs', hd']
    simp only [true_iff]
    intro qs x hq hx
    have hlast : s.last = v := by
      have hsplit : ps ++ [s.last] = (qs ++ [x]) ++ [v] := by
        rw [← hps, hq]
        simp
      have htail := List.append_inj_right' hsplit rfl
      simpa using htail
    subst hlast
    -- Before this sighting the last value was `x ≠ s.last`, so the streak is one sighting long.
    obtain ⟨s₀, d₀, hs₀, -, ⟨ts, hts⟩, -⟩ := agrees_after (qs ++ [x]) (by simp)
    have hx₀ : s₀.last = x := by
      have := List.append_inj_right' hts rfl
      simpa using this.symm
    have hstep : s = s₀.advance s.last := by
      have hs₁ : Streak.after vs = some (Streak.next (Streak.after (qs ++ [x])) s.last) := by
        rw [hq, ← Streak.after_concat]
        simp
      rw [hs, hs₀] at hs₁
      exact Option.some.inj hs₁
    have hne : s.last ≠ s₀.last := by rw [hx₀]; exact Ne.symm hx
    rw [Streak.advance, if_neg hne] at hstep
    rcases hlong with h | h
    · rw [hstep] at h; cases h
    · rw [hstep] at h; simp at h

private theorem confirmedBeforeStreaks_concat (vs : List α) (v : α) :
    ConfirmedBeforeStreaks (vs ++ [v]) ↔ ConfirmedBeforeStreaks vs ∧
      ∀ qs x, vs = qs ++ [x, v] → x ≠ v → Debounce.confirmedAfter (qs ++ [x]) = some x := by
  constructor
  · intro h
    refine ⟨fun qs x w hp ↦ h qs x w (hp.trans (List.prefix_append vs [v])), ?_⟩
    rintro qs x rfl
    exact h qs x v (by simp)
  · rintro ⟨hpre, hlast⟩ qs x w hp hx
    rcases List.prefix_concat_iff.mp hp with heq | hp'
    · have hsplit : (qs ++ [x, w]) ++ [w] = vs ++ [v] := by simpa using heq
      obtain ⟨hvs, hw⟩ := List.append_inj' hsplit rfl
      obtain rfl : w = v := by simpa using hw
      exact hlast qs x hvs.symm hx
    · exact hpre qs x w hp' hx

/-- Over a whole sequence both machines report the same changes exactly when every confirmed
streak starts right after the confirmed value. -/
theorem reportsAlong_eq_iff (vs : List α) :
    Streak.reportsAlong none vs = Debounce.reportsAlong none vs ↔ ConfirmedBeforeStreaks vs := by
  induction vs using List.reverseRecOn with
  | nil => simp [Debounce.reportsAlong, ConfirmedBeforeStreaks]
  | append_singleton vs v ih =>
    rw [Streak.reportsAlong_concat, Debounce.reportsAlong_concat, confirmedBeforeStreaks_concat,
      ← ih, ← emits_eq_iff]
    constructor
    · intro h
      obtain ⟨hvs, hv⟩ := List.append_inj' h rfl
      exact ⟨hvs, List.head_eq_of_cons_eq hv⟩
    · rintro ⟨hvs, hv⟩
      exact congrArg₂ (· ++ ·) hvs (congrArg (fun r ↦ [r]) hv)

instance (vs : List α) : Decidable (ConfirmedBeforeStreaks vs) :=
  decidable_of_iff _ (reportsAlong_eq_iff vs)

/-- A report names the confirmed value, and moves it to the reported one. -/
theorem Debounce.reports_eq_some_iff (d : Debounce α) (v p : α) :
    d.reports v = some p ↔ p = d.confirmed ∧ v = d.last ∧ v ≠ d.confirmed := by
  rw [Debounce.reports]
  split
  · next h =>
    rw [Option.some.injEq]
    exact ⟨fun hp ↦ ⟨hp.symm, h⟩, fun hp ↦ hp.1.symm⟩
  · next h =>
    simp only [reduceCtorEq, false_iff]
    exact fun hp ↦ h hp.2

/-- Without a report the confirmed value stays. -/
theorem Debounce.confirmed_advance (d : Debounce α) (v : α) :
    (d.advance v).confirmed = if d.reports v = none then d.confirmed else v := by
  by_cases hv : v = d.last
  · by_cases hc : v = d.confirmed
    · simp [Debounce.advance, Debounce.reports, hv, ← hc]
    · simp [Debounce.advance, Debounce.reports, hv, hv ▸ hc]
  · simp [Debounce.advance, Debounce.reports, hv]

end Daku.Base
