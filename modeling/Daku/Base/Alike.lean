import Daku.Base.Interference

/-!
# Two runs of a program

Two programs are alike if they issue the same statements and return related results whenever
what the one reads is similar to what the other reads. Alike programs stay alike step by step,
whatever others do to the two stores in between, as long as the stores stay similar.
-/

namespace Daku.Base.Prog

variable {σ κ α β γ δ ι : Type}

/-- The programs issue the same statements over similar stores and end in related results. -/
inductive Alike (sim : σ → σ → Prop) (R : α → β → Prop) : Prog σ κ α → Prog σ κ β → Prop where
  | done {a : α} {b : β} (h : R a b) : Alike sim R (done a) (done b)
  | read {k : σ → Prog σ κ α} {l : σ → Prog σ κ β}
      (h : ∀ s t, sim s t → Alike sim R (k s) (l t)) : Alike sim R (read k) (read l)
  | exec {c : κ} {p : Prog σ κ α} {q : Prog σ κ β} (h : Alike sim R p q) :
      Alike sim R (exec c p) (exec c q)

/-- The result of a program at its end. -/
def answer : Prog σ κ α → Option α
  | done a => some a
  | _ => none

section Rules

variable {sim : σ → σ → Prop} {R : α → β → Prop} {S : γ → δ → Prop}

theorem alike_query {q : σ → α} {r : σ → β} (h : ∀ s t, sim s t → R (q s) (r t)) :
    Alike sim R (query q : Prog σ κ α) (query r) :=
  .read fun s t hst ↦ .done (h s t hst)

theorem alike_issue (c : κ) : Alike sim Eq (issue c) (issue c) :=
  .exec (.done rfl)

theorem Alike.bind {p : Prog σ κ α} {q : Prog σ κ β} {f : α → Prog σ κ γ} {g : β → Prog σ κ δ}
    (h : Alike sim R p q) (hfg : ∀ a b, R a b → Alike sim S (f a) (g b)) :
    Alike sim S (p >>= f) (q >>= g) := by
  change Alike sim S (p.bind f) (q.bind g)
  induction h with
  | done h => exact hfg _ _ h
  | read _ ih => exact .read fun s t hst ↦ ih s t hst
  | exec _ ih => exact .exec ih

theorem alike_ite {c : Prop} [Decidable c] {p p' : Prog σ κ α} {q q' : Prog σ κ β}
    (hp : Alike sim R p q) (hq : Alike sim R p' q') :
    Alike sim R (if c then p else p') (if c then q else q') := by
  split
  · exact hp
  · exact hq

/-- A loop without results whose turns are alike. -/
theorem alike_each {f g : ι → Prog σ κ Unit} (bs : List ι)
    (h : ∀ b ∈ bs, Alike sim Eq (f b) (g b)) : Alike sim Eq (each bs f) (each bs g) := by
  induction bs with
  | nil => exact .done rfl
  | cons b bs ih =>
    exact (h b List.mem_cons_self).bind fun _ _ _ ↦
      ih fun c hc ↦ h c (List.mem_cons_of_mem _ hc)

/-- A loop whose turns have related results has the lists of them related. -/
theorem alike_collect {f : ι → Prog σ κ α} {g : ι → Prog σ κ β} (bs : List ι)
    (h : ∀ b ∈ bs, Alike sim R (f b) (g b)) :
    Alike sim (List.Forall₂ R) (collect bs f) (collect bs g) := by
  induction bs with
  | nil => exact .done .nil
  | cons b bs ih =>
    refine (h b List.mem_cons_self).bind fun _ _ hR ↦ ?_
    exact (ih fun c hc ↦ h c (List.mem_cons_of_mem _ hc)).bind fun _ _ hRs ↦
      .done (.cons hR hRs)

theorem Alike.mono {R' : α → β → Prop} {p : Prog σ κ α} {q : Prog σ κ β} (h : Alike sim R p q)
    (hR : ∀ a b, R a b → R' a b) : Alike sim R' p q := by
  induction h with
  | done h => exact .done (hR _ _ h)
  | read _ ih => exact .read ih
  | exec _ ih => exact .exec ih

/-- Either both are at their end or none. -/
theorem Alike.answer {p : Prog σ κ α} {q : Prog σ κ β} (h : Alike sim R p q) :
    Option.Rel R p.answer q.answer := by
  cases h with
  | done h => exact .some h
  | read => exact .none
  | exec => exact .none

end Rules

section Runs

variable {ω : Type} [Commits κ σ] {sim : σ → σ → Prop} {R : α → β → Prop}

/-- A run of a program among others: `none` is its next step, `some o` what another does. -/
def among (act : ω → σ → σ) : List (Option ω) → Prog σ κ α × σ → Prog σ κ α × σ
  | [], c => c
  | none :: schedule, (p, s) => among act schedule (p.next s)
  | some o :: schedule, (p, s) => among act schedule (p, act o s)

/-- One step of alike programs over similar stores. -/
theorem Alike.next {p : Prog σ κ α} {q : Prog σ κ β} {s t : σ} (h : Alike sim R p q)
    (hsim : sim s t) (hcommit : ∀ c : κ, sim (commit c s) (commit c t)) :
    Alike sim R (p.next s).1 (q.next t).1 ∧ sim (p.next s).2 (q.next t).2 := by
  cases h with
  | done h => exact ⟨.done h, hsim⟩
  | read h => exact ⟨h s t hsim, hsim⟩
  | exec h => exact ⟨h, hcommit _⟩

/-- Leaving out of a run what others do invisibly leaves an alike program and a similar
store. -/
theorem Alike.among (act : ω → σ → σ) (hidden : ω → Bool)
    (hcommit : ∀ (c : κ) (s t : σ), sim s t → sim (commit c s) (commit c t))
    (hact : ∀ o s t, sim s t → hidden o = false → sim (act o s) (act o t))
    (hhidden : ∀ o s t, sim s t → hidden o = true → sim (act o s) t)
    (schedule : List (Option ω)) {p : Prog σ κ α} {q : Prog σ κ β} {s t : σ}
    (h : Alike sim R p q) (hsim : sim s t) :
    Alike sim R (Prog.among act schedule (p, s)).1
        (Prog.among act (schedule.filter fun o ↦ !o.any hidden) (q, t)).1 ∧
      sim (Prog.among act schedule (p, s)).2
        (Prog.among act (schedule.filter fun o ↦ !o.any hidden) (q, t)).2 := by
  induction schedule generalizing p q s t with
  | nil => exact ⟨h, hsim⟩
  | cons o schedule ih =>
    cases o with
    | none =>
      obtain ⟨hnext, hstores⟩ := h.next hsim fun c ↦ hcommit c s t hsim
      exact ih hnext hstores
    | some o =>
      cases ho : hidden o with
      | false =>
        rw [List.filter_cons_of_pos (by simp [ho])]
        exact ih h (hact o s t hsim ho)
      | true =>
        rw [List.filter_cons_of_neg (by simp [ho])]
        exact ih h (hhidden o s t hsim ho)

end Runs

end Daku.Base.Prog
