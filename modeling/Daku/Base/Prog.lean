import Mathlib.Data.List.Basic

/-!
# Programs of atomic statements

A program reads a store and issues statements against it. Every statement commits on its own
and is durable, so the only states a crash can leave behind are those after a prefix of the
statements an uninterrupted run would have issued. The library names no particular store:
`Commits` says what one statement does, and everything else follows from the statement trace.
-/

namespace Daku.Base

/-- What one committed statement `κ` does to a store `σ`. -/
class Commits (κ : Type) (σ : outParam Type) where
  /-- The store after the statement. -/
  commit : κ → σ → σ

export Commits (commit)

/-- A program over a store `σ` that issues statements `κ` and returns an `α`.
A reading continuation sees the store as earlier statements left it. -/
inductive Prog (σ κ α : Type) where
  | done (a : α)
  | read (k : σ → Prog σ κ α)
  | exec (stmt : κ) (rest : Prog σ κ α)

namespace Prog

variable {σ κ α β ω : Type}

/-- Sequential composition. -/
def bind : Prog σ κ α → (α → Prog σ κ β) → Prog σ κ β
  | done a, f => f a
  | read k, f => read fun s ↦ (k s).bind f
  | exec c p, f => exec c (p.bind f)

instance : Monad (Prog σ κ) where
  pure := done
  bind := bind

/-- A query: the value of a pure function of the current store. -/
def query (q : σ → α) : Prog σ κ α := read fun s ↦ done (q s)

/-- One statement. -/
def issue (c : κ) : Prog σ κ Unit := exec c (done ())

/-- The same program for every element in turn: a `for` loop without results. -/
def each : List β → (β → Prog σ κ Unit) → Prog σ κ Unit
  | [], _ => done ()
  | b :: bs, f => (f b).bind fun _ ↦ each bs f

/-- The same program for every element in turn, with the list of its results. -/
def collect : List β → (β → Prog σ κ α) → Prog σ κ (List α)
  | [], _ => done []
  | b :: bs, f => (f b).bind fun a ↦ (collect bs f).bind fun as ↦ done (a :: as)

end Prog

section Semantics

variable {σ κ α β ω : Type} [Commits κ σ]

/-- The store after a list of committed statements. -/
def commitAll : List κ → σ → σ
  | [], s => s
  | c :: cs, s => commitAll cs (commit c s)

/-- What the statements of a list report, each seen against the store it ran on. -/
def observed (out : κ → σ → List ω) : List κ → σ → List ω
  | [], _ => []
  | c :: cs, s => out c s ++ observed out cs (commit c s)

@[simp] theorem commitAll_nil (s : σ) : commitAll ([] : List κ) s = s := rfl

@[simp] theorem commitAll_cons (c : κ) (cs : List κ) (s : σ) :
    commitAll (c :: cs) s = commitAll cs (commit c s) := rfl

@[simp] theorem observed_nil (out : κ → σ → List ω) (s : σ) :
    observed out ([] : List κ) s = [] := rfl

@[simp] theorem observed_cons (out : κ → σ → List ω) (c : κ) (cs : List κ) (s : σ) :
    observed out (c :: cs) s = out c s ++ observed out cs (commit c s) := rfl

/-- Committing two batches is committing the first, then the second. -/
theorem commitAll_append (cs ds : List κ) (s : σ) :
    commitAll (cs ++ ds) s = commitAll ds (commitAll cs s) := by
  induction cs generalizing s with
  | nil => rfl
  | cons c cs ih => exact ih (commit c s)

/-- Reports of two batches are concatenated, the second seen after the first. -/
theorem observed_append (out : κ → σ → List ω) (cs ds : List κ) (s : σ) :
    observed out (cs ++ ds) s = observed out cs s ++ observed out ds (commitAll cs s) := by
  induction cs generalizing s with
  | nil => rfl
  | cons c cs ih =>
    simp only [List.cons_append, observed_cons, ih, commitAll_cons, List.append_assoc]

/-- A batch none of whose statements reports anything reports nothing. -/
theorem observed_eq_nil (out : κ → σ → List ω) (cs : List κ) (s : σ)
    (h : ∀ c ∈ cs, ∀ t, out c t = []) : observed out cs s = [] := by
  induction cs generalizing s with
  | nil => rfl
  | cons c cs ih =>
    rw [observed_cons, h c List.mem_cons_self, List.nil_append]
    exact ih _ fun d hd ↦ h d (List.mem_cons_of_mem _ hd)

/-- A part of the store that no statement of a batch touches is unchanged by the batch. -/
theorem commitAll_frame {γ : Type} (view : σ → γ) (cs : List κ) (s : σ)
    (h : ∀ c ∈ cs, ∀ t, view (commit c t) = view t) : view (commitAll cs s) = view s := by
  induction cs generalizing s with
  | nil => rfl
  | cons c cs ih =>
    rw [commitAll_cons, ih _ fun d hd ↦ h d (List.mem_cons_of_mem _ hd)]
    exact h c List.mem_cons_self s

namespace Prog

/-- The statements an uninterrupted run issues, in order. -/
def trace : Prog σ κ α → σ → List κ
  | done _, _ => []
  | read k, s => (k s).trace s
  | exec c p, s => c :: p.trace (commit c s)

/-- The value an uninterrupted run returns. -/
def result : Prog σ κ α → σ → α
  | done a, _ => a
  | read k, s => (k s).result s
  | exec c p, s => p.result (commit c s)

/-- The store an uninterrupted run leaves. -/
def run (p : Prog σ κ α) (s : σ) : σ := commitAll (p.trace s) s

/-- The store a crash after `n` statements leaves. -/
def crashed (p : Prog σ κ α) (n : Nat) (s : σ) : σ := commitAll ((p.trace s).take n) s

@[simp] theorem trace_done (a : α) (s : σ) : (done a : Prog σ κ α).trace s = [] := rfl

@[simp] theorem trace_pure (a : α) (s : σ) : (pure a : Prog σ κ α).trace s = [] := rfl

@[simp] theorem result_pure (a : α) (s : σ) : (pure a : Prog σ κ α).result s = a := rfl

@[simp] theorem trace_query (q : σ → α) (s : σ) : (query q : Prog σ κ α).trace s = [] := rfl

@[simp] theorem result_query (q : σ → α) (s : σ) : (query q : Prog σ κ α).result s = q s := rfl

@[simp] theorem trace_issue (c : κ) (s : σ) : (issue c).trace s = [c] := rfl

/-- The second program starts where the first one stopped. -/
theorem trace_bind (p : Prog σ κ α) (f : α → Prog σ κ β) (s : σ) :
    (p >>= f).trace s = p.trace s ++ (f (p.result s)).trace (p.run s) := by
  change (p.bind f).trace s = _
  induction p generalizing s with
  | done a => rfl
  | read k ih => exact ih s s
  | exec c p ih =>
    simp only [bind, trace, result, run, commitAll_cons, List.cons_append]
    rw [ih]
    rfl

/-- The result of a sequence is that of its second program. -/
theorem result_bind (p : Prog σ κ α) (f : α → Prog σ κ β) (s : σ) :
    (p >>= f).result s = (f (p.result s)).result (p.run s) := by
  change (p.bind f).result s = _
  induction p generalizing s with
  | done a => rfl
  | read k ih => exact ih s s
  | exec c p ih => exact ih (commit c s)

/-- An uninterrupted run of a sequence runs both parts. -/
theorem run_bind (p : Prog σ κ α) (f : α → Prog σ κ β) (s : σ) :
    (p >>= f).run s = (f (p.result s)).run (p.run s) := by
  simp only [run, trace_bind, commitAll_append]

/-- A query in front of a program only supplies a value. -/
@[simp] theorem trace_query_bind (q : σ → α) (f : α → Prog σ κ β) (s : σ) :
    (query q >>= f).trace s = (f (q s)).trace s := rfl

/-- A statement in front of a program is issued first. -/
@[simp] theorem trace_issue_bind (c : κ) (f : Unit → Prog σ κ β) (s : σ) :
    (issue c >>= f).trace s = c :: (f ()).trace (commit c s) := rfl

@[simp] theorem trace_each_nil (f : β → Prog σ κ Unit) (s : σ) :
    (each [] f).trace s = [] := rfl

/-- One turn of a loop, then the remaining turns on the store it leaves. -/
theorem trace_each_cons (b : β) (bs : List β) (f : β → Prog σ κ Unit) (s : σ) :
    (each (b :: bs) f).trace s = (f b).trace s ++ (each bs f).trace ((f b).run s) := by
  change (f b >>= fun _ ↦ each bs f).trace s = _
  rw [trace_bind]

/-- Nothing is issued for an empty list. -/
@[simp] theorem trace_collect_nil (f : β → Prog σ κ α) (s : σ) :
    (collect [] f).trace s = [] := rfl

/-- One turn of a loop with results, then the remaining turns on the store it leaves. -/
theorem trace_collect_cons (b : β) (bs : List β) (f : β → Prog σ κ α) (s : σ) :
    (collect (b :: bs) f).trace s = (f b).trace s ++ (collect bs f).trace ((f b).run s) := by
  change (f b >>= fun a ↦ collect bs f >>= fun as ↦ done (a :: as)).trace s = _
  rw [trace_bind, trace_bind, trace_done, List.append_nil]

/-- A loop whose turns issue the same statements on every store. -/
theorem trace_collect_of_const {f : β → Prog σ κ α} {g : β → List κ}
    (h : ∀ b s, (f b).trace s = g b) (bs : List β) (s : σ) :
    (collect bs f).trace s = bs.flatMap g := by
  induction bs generalizing s with
  | nil => rfl
  | cons b bs ih => rw [trace_collect_cons, ih, h, List.flatMap_cons]

/-- The results of a loop whose turns return the same on every store. -/
theorem result_collect_of_const {f : β → Prog σ κ α} {g : β → α}
    (h : ∀ b s, (f b).result s = g b) (bs : List β) (s : σ) :
    (collect bs f).result s = bs.map g := by
  induction bs generalizing s with
  | nil => rfl
  | cons b bs ih =>
    change ((f b) >>= fun a ↦ collect bs f >>= fun as ↦ done (a :: as)).result s = _
    rw [result_bind, result_bind, h, ih]
    rfl

theorem result_collect_cons (b : β) (bs : List β) (f : β → Prog σ κ α) (s : σ) :
    (collect (b :: bs) f).result s =
      (f b).result s :: (collect bs f).result ((f b).run s) := by
  change ((f b) >>= fun a ↦ collect bs f >>= fun as ↦ done (a :: as)).result s = _
  rw [result_bind, result_bind]
  rfl

/-- Each result of a loop is that of one turn. -/
theorem exists_turn_of_mem_result {f : β → Prog σ κ α} {bs : List β} {s : σ} {a : α}
    (h : a ∈ (collect bs f).result s) : ∃ b ∈ bs, ∃ t, a = (f b).result t := by
  induction bs generalizing s with
  | nil => cases h
  | cons b bs ih =>
    rw [result_collect_cons] at h
    rcases List.mem_cons.mp h with h | h
    · exact ⟨b, List.mem_cons_self, s, h⟩
    · obtain ⟨b', hb', t, ht⟩ := ih h
      exact ⟨b', List.mem_cons_of_mem b hb', t, ht⟩

/-- Each turn of a loop has its result. -/
theorem exists_result_of_mem {f : β → Prog σ κ α} {bs : List β} {b : β} (h : b ∈ bs) (s : σ) :
    ∃ t, (f b).result t ∈ (collect bs f).result s := by
  induction bs generalizing s with
  | nil => cases h
  | cons b' bs ih =>
    rw [result_collect_cons]
    rcases List.mem_cons.mp h with rfl | h
    · exact ⟨s, List.mem_cons_self⟩
    · obtain ⟨t, ht⟩ := ih h ((f b').run s)
      exact ⟨t, List.mem_cons_of_mem _ ht⟩

/-- The store a loop with results leaves. -/
theorem run_collect_cons (b : β) (bs : List β) (f : β → Prog σ κ α) (s : σ) :
    (collect (b :: bs) f).run s = (collect bs f).run ((f b).run s) := by
  rw [run, trace_collect_cons, commitAll_append]
  rfl

/-- The store a loop leaves. -/
theorem run_each_cons (b : β) (bs : List β) (f : β → Prog σ κ Unit) (s : σ) :
    (each (b :: bs) f).run s = (each bs f).run ((f b).run s) := by
  rw [run, trace_each_cons, commitAll_append]
  rfl

/-- The store two loops leave is that of the loop over both lists. -/
theorem run_each_append (bs cs : List β) (f : β → Prog σ κ Unit) (s : σ) :
    (each (bs ++ cs) f).run s = (each cs f).run ((each bs f).run s) := by
  induction bs generalizing s with
  | nil => rfl
  | cons b bs ih => rw [List.cons_append, run_each_cons, run_each_cons, ih]

@[simp] theorem run_done (a : α) (s : σ) : (done a : Prog σ κ α).run s = s := rfl

@[simp] theorem run_issue (c : κ) (s : σ) : (issue c).run s = commit c s := rfl

/-- Every statement a program can issue satisfies `P`. -/
def Only (P : κ → Prop) (p : Prog σ κ α) : Prop := ∀ s, ∀ c ∈ p.trace s, P c

theorem only_done (P : κ → Prop) (a : α) : Only P (done a : Prog σ κ α) :=
  fun _ _ hc ↦ by cases hc

theorem only_query (P : κ → Prop) (q : σ → α) : Only P (query q : Prog σ κ α) :=
  fun _ _ hc ↦ by cases hc

theorem only_issue {P : κ → Prop} {c : κ} (h : P c) : Only P (issue c) := by
  intro s d hd
  rw [trace_issue, List.mem_singleton] at hd
  exact hd ▸ h

theorem only_bind {P : κ → Prop} {p : Prog σ κ α} {f : α → Prog σ κ β} (hp : Only P p)
    (hf : ∀ a, Only P (f a)) : Only P (p >>= f) := by
  intro s c hc
  rw [trace_bind, List.mem_append] at hc
  rcases hc with hc | hc
  · exact hp s c hc
  · exact hf _ _ c hc

theorem only_each {P : κ → Prop} {f : β → Prog σ κ Unit} (bs : List β)
    (h : ∀ b ∈ bs, Only P (f b)) : Only P (each bs f) := by
  induction bs with
  | nil => exact only_done P ()
  | cons b bs ih =>
    exact only_bind (h b List.mem_cons_self) fun _ ↦
      ih fun c hc ↦ h c (List.mem_cons_of_mem _ hc)

theorem only_collect {P : κ → Prop} {f : β → Prog σ κ α} (bs : List β)
    (h : ∀ b ∈ bs, Only P (f b)) : Only P (collect bs f) := by
  induction bs with
  | nil => exact only_done P []
  | cons b bs ih =>
    exact only_bind (h b List.mem_cons_self) fun _ ↦
      only_bind (ih fun c hc ↦ h c (List.mem_cons_of_mem _ hc)) fun _ ↦ only_done P _

/-- A part of the store that none of a program's statements touches is unchanged by a run. -/
theorem Only.frame {P : κ → Prop} {p : Prog σ κ α} (hp : Only P p) {γ : Type} (view : σ → γ)
    (hview : ∀ c, P c → ∀ t, view (commit c t) = view t) (s : σ) : view (p.run s) = view s :=
  commitAll_frame view _ s fun c hc t ↦ hview c (hp s c hc) t

/-- A program none of whose statements reports anything reports nothing. -/
theorem Only.observed_eq_nil {P : κ → Prop} {p : Prog σ κ α} (hp : Only P p)
    (out : κ → σ → List ω) (hout : ∀ c, P c → ∀ t, out c t = []) (s t : σ) :
    observed out (p.trace s) t = [] :=
  Base.observed_eq_nil out _ t fun c hc ↦ hout c (hp s c hc)

section View

variable {γ : Type} {view : σ → γ}

/-- Statements act on a view of the store: what they leave of it depends only on it. -/
def Acts (κ : Type) [Commits κ σ] (view : σ → γ) : Prop :=
  ∀ (c : κ) (s t : σ), view s = view t → view (commit c s) = view (commit c t)

/-- The program sees the store only through a view of it. -/
def ReadsThrough (view : σ → γ) (p : Prog σ κ α) : Prop :=
  ∀ s t, view s = view t → p.trace s = p.trace t ∧ p.result s = p.result t

theorem readsThrough_done (a : α) : ReadsThrough view (done a : Prog σ κ α) :=
  fun _ _ _ ↦ ⟨rfl, rfl⟩

theorem readsThrough_query {q : σ → α} (h : ∀ s t, view s = view t → q s = q t) :
    ReadsThrough view (query q : Prog σ κ α) :=
  fun s t hst ↦ ⟨rfl, h s t hst⟩

theorem readsThrough_issue (c : κ) : ReadsThrough view (issue c) :=
  fun _ _ _ ↦ ⟨rfl, rfl⟩

/-- The same statements leave the same view. -/
theorem Acts.commitAll (h : Acts κ view) (cs : List κ) {s t : σ} (hst : view s = view t) :
    view (commitAll cs s) = view (Base.commitAll cs t) := by
  induction cs generalizing s t with
  | nil => exact hst
  | cons c cs ih => exact ih (h c s t hst)

theorem ReadsThrough.run_view {p : Prog σ κ α} (hp : ReadsThrough view p) (h : Acts κ view)
    {s t : σ} (hst : view s = view t) : view (p.run s) = view (p.run t) := by
  rw [run, run, (hp s t hst).1]
  exact h.commitAll _ hst

theorem ReadsThrough.bind {p : Prog σ κ α} {f : α → Prog σ κ β} (h : Acts κ view)
    (hp : ReadsThrough view p) (hf : ∀ a, ReadsThrough view (f a)) :
    ReadsThrough view (p >>= f) := by
  intro s t hst
  obtain ⟨htrace, hresult⟩ := hp s t hst
  have hrest := hf (p.result t) _ _ (hp.run_view h hst)
  rw [trace_bind, trace_bind, result_bind, result_bind, htrace, hresult, hrest.1, hrest.2]
  exact ⟨rfl, rfl⟩

theorem readsThrough_each {f : β → Prog σ κ Unit} (h : Acts κ view) (bs : List β)
    (hf : ∀ b, ReadsThrough view (f b)) : ReadsThrough view (each bs f) := by
  induction bs with
  | nil => exact readsThrough_done ()
  | cons b bs ih => exact (hf b).bind h fun _ ↦ ih

end View

/-- What is reported when a program stops after `n` statements and another one runs later. -/
def observedCrash (out : κ → σ → List ω) (p : Prog σ κ α) (n : Nat) (q : Prog σ κ β) (s : σ) :
    List ω :=
  observed out ((p.trace s).take n) s ++ observed out (q.trace (p.crashed n s)) (p.crashed n s)

/-- The crash leaves no trace in what is reported, up to a view of it: the interrupted program
either never ran or ran to its end. -/
def CrashTransparent {γ : Type} (out : κ → σ → List ω) (view : List ω → γ) (p : Prog σ κ α)
    (n : Nat) (q : Prog σ κ β) (s : σ) : Prop :=
  view (observedCrash out p n q s) = view (observedCrash out p 0 q s) ∨
    view (observedCrash out p n q s) = view (observedCrash out p (p.trace s).length q s)

end Prog

end Semantics

end Daku.Base
