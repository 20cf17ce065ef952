import Daku.Base.Prog
import Mathlib.Logic.Function.Iterate

/-!
# Programs under interference

A program advances one read or one statement at a time, and between two of its steps others
may change the store. What the others can do is a preorder; what everybody keeps is an
invariant; and a run may be known to contain only some of the program's statements. `Safe` is
the program logic over these three, with one rule for each way a program is built, and `next`
is the small-step semantics it is sound for.
-/

namespace Daku.Base

/-- What a program may count on while it shares a store with others. -/
structure Interference (σ κ : Type) where
  /-- What others can have done between two steps. -/
  rely : σ → σ → Prop
  rely_refl : ∀ s, rely s s
  rely_trans : ∀ {s t u}, rely s t → rely t u → rely s u
  /-- What holds whenever a step is taken. -/
  inv : σ → Prop
  /-- The statements the run may contain, and the stores they may run on. -/
  allowed : κ → σ → Prop

namespace Prog

variable {σ κ α β : Type} [Commits κ σ]

/-- One read or one statement of a program, and the store it leaves. -/
def next : Prog σ κ α → σ → Prog σ κ α × σ
  | done a, s => (done a, s)
  | read k, s => (k s, s)
  | exec c p, s => (p, commit c s)

/-- Left alone, a program gets to its end by single steps, and leaves what a run leaves. -/
theorem next_iterate (p : Prog σ κ α) (s : σ) :
    ∃ n, (fun c : Prog σ κ α × σ ↦ c.1.next c.2)^[n] (p, s) = (done (p.result s), p.run s) := by
  induction p generalizing s with
  | done a => exact ⟨0, rfl⟩
  | read k ih =>
    obtain ⟨n, hn⟩ := ih s s
    exact ⟨n + 1, hn⟩
  | exec c p ih =>
    obtain ⟨n, hn⟩ := ih (commit c s)
    exact ⟨n + 1, hn⟩

/-- The statement a program is about to issue may run on the store. -/
def NextAllowed (allowed : κ → σ → Prop) : Prog σ κ α → σ → Prop
  | exec c _, s => allowed c s
  | _, _ => True

instance {allowed : κ → σ → Prop} [∀ c s, Decidable (allowed c s)] (p : Prog σ κ α) (s : σ) :
    Decidable (NextAllowed allowed p s) :=
  match p with
  | exec c _ => inferInstanceAs (Decidable (allowed c s))
  | done _ => instDecidableTrue
  | read _ => instDecidableTrue

/-- Whatever the others do, every statement of the program keeps the invariant, and the
program ends in `Q`. -/
def Safe (ρ : Interference σ κ) : Prog σ κ α → (α → σ → Prop) → σ → Prop
  | done a, Q, s => Q a s
  | read k, Q, s => ∀ t, ρ.rely s t → ρ.inv t → Safe ρ (k t) Q t
  | exec c p, Q, s => ∀ t, ρ.rely s t → ρ.inv t → ρ.allowed c t →
      ρ.inv (commit c t) ∧ Safe ρ p Q (commit c t)

variable {ρ : Interference σ κ}

theorem safe_bind {p : Prog σ κ α} {f : α → Prog σ κ β} {Q : β → σ → Prop} {s : σ}
    (h : Safe ρ p (fun a t ↦ Safe ρ (f a) Q t) s) : Safe ρ (p >>= f) Q s := by
  change Safe ρ (p.bind f) Q s
  induction p generalizing s with
  | done a => exact h
  | read k ih => exact fun t hrely hinv ↦ ih t (h t hrely hinv)
  | exec c p ih =>
    intro t hrely hinv hallowed
    exact ⟨(h t hrely hinv hallowed).1, ih (h t hrely hinv hallowed).2⟩

theorem safe_query {q : σ → α} {Q : α → σ → Prop} {s : σ}
    (h : ∀ t, ρ.rely s t → ρ.inv t → Q (q t) t) : Safe ρ (query q) Q s :=
  h

theorem safe_issue {c : κ} {Q : Unit → σ → Prop} {s : σ}
    (h : ∀ t, ρ.rely s t → ρ.inv t → ρ.allowed c t → ρ.inv (commit c t) ∧ Q () (commit c t)) :
    Safe ρ (issue c) Q s :=
  h

theorem safe_mono {p : Prog σ κ α} {Q Q' : α → σ → Prop} {s : σ} (h : Safe ρ p Q s)
    (hQ : ∀ a t, Q a t → Q' a t) : Safe ρ p Q' s := by
  induction p generalizing s with
  | done a => exact hQ a s h
  | read k ih => exact fun t hrely hinv ↦ ih t (h t hrely hinv)
  | exec c p ih =>
    intro t hrely hinv hallowed
    exact ⟨(h t hrely hinv hallowed).1, ih (h t hrely hinv hallowed).2⟩

/-- The loop rule: `J` speaks of the elements that are still to come. -/
theorem safe_each {f : β → Prog σ κ Unit} (J : List β → σ → Prop)
    (hstep : ∀ b bs s, J (b :: bs) s → Safe ρ (f b) (fun _ ↦ J bs) s) (bs : List β) {s : σ}
    (h : J bs s) : Safe ρ (each bs f) (fun _ ↦ J []) s := by
  induction bs generalizing s with
  | nil => exact h
  | cons b bs ih =>
    exact safe_bind (safe_mono (hstep b bs s h) fun _ _ hJ ↦ ih hJ)

/-- A safe program stays safe while others act, if they keep what it ends in. -/
theorem safe_of_rely {p : Prog σ κ α} {Q : α → σ → Prop} {s t : σ} (h : Safe ρ p Q s)
    (hrely : ρ.rely s t) (hQ : ∀ a, Q a s → Q a t) : Safe ρ p Q t := by
  cases p with
  | done a => exact hQ a h
  | read k => exact fun u hu hinv ↦ h u (ρ.rely_trans hrely hu) hinv
  | exec c p => exact fun u hu hinv hallowed ↦ h u (ρ.rely_trans hrely hu) hinv hallowed

/-- A step of a safe program keeps the invariant and leaves a safe program. -/
theorem safe_next {p : Prog σ κ α} {Q : α → σ → Prop} {s : σ} (h : Safe ρ p Q s)
    (hinv : ρ.inv s) (hallowed : NextAllowed ρ.allowed p s) :
    ρ.inv (p.next s).2 ∧ Safe ρ (p.next s).1 Q (p.next s).2 := by
  cases p with
  | done a => exact ⟨hinv, h⟩
  | read k => exact ⟨hinv, h s (ρ.rely_refl s) hinv⟩
  | exec c p => exact h s (ρ.rely_refl s) hinv hallowed

end Prog

end Daku.Base
