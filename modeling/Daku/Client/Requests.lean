import Daku.Client.Threads

/-!
# Requests and the end of the connection

When the reader thread ends it takes the pending calls once and tells each of them
(`crates/daku-client/src/client.rs:458–464`), but a caller checks `disconnected` before it registers
(`client.rs:247–252`), and the outgoing channel stays open until the thread has ended.
-/

namespace Daku.Client

open Daku.Base Daku.Wire

namespace Phase

/-- Pending calls the reader has taken and not told yet. -/
def untold : Phase → Finset Uuid
  | telling calls => calls
  | _ => ∅

/-- The pending calls have been taken. -/
def Taken : Phase → Prop
  | telling _ | dashboardCleared | cacheCleared | ended => True
  | _ => False

instance (phase : Phase) : Decidable phase.Taken :=
  match phase with
  | telling _ | dashboardCleared | cacheCleared | ended => instDecidableTrue
  | reading | forwarding .. | fanningOut .. | requestingResync | leaving | flagged =>
    instDecidableFalse

/-- The reader thread has ended. -/
def Ended : Phase → Prop
  | ended => True
  | _ => False

instance (phase : Phase) : Decidable phase.Ended :=
  match phase with
  | ended => instDecidableTrue
  | reading | forwarding .. | fanningOut .. | requestingResync | leaving | flagged | telling _
  | dashboardCleared | cacheCleared => instDecidableFalse

end Phase

namespace Threads

/-- Once the reader thread has ended, every waiting caller has its answer and no entry of its own
in the pending map. -/
def NoneStranded (s : Threads) : Prop :=
  s.phase.Ended → ∀ requestId answer, s.calls requestId = .waiting answer →
    answer.isSome ∧ requestId ∉ s.pending

end Threads

/-- No caller queues its request between the taking of the pending calls and the end of the
reader thread while its own entry is in the map. -/
def InTime (s : Threads) : Action → Prop
  | .call requestId (.send _) =>
    requestId ∈ s.pending → s.phase.Taken → s.phase.Ended
  | _ => True

instance (s : Threads) (a : Action) : Decidable (InTime s a) :=
  match a with
  | .call requestId (.send _) =>
    inferInstanceAs (Decidable (requestId ∈ s.pending → s.phase.Taken → s.phase.Ended))
  | .call _ .check | .call _ .register | .call _ .receive | .call _ .timeOut | .call _ .withdraw
  | .subscription .. | .reader _ => instDecidableTrue

/-- What a call can rely on: `pending` and `untold` say whether its entry is in the map, or has
been taken and is still to be told. -/
def Heard (call : Call) (pending untold taken : Prop) : Prop :=
  match call with
  | .idle | .checked => ¬ pending ∧ ¬ untold
  | .registered none => (pending ∧ ¬ untold) ∨ (¬ pending ∧ untold)
  | .waiting none => (pending ∧ ¬ untold ∧ ¬ taken) ∨ (¬ pending ∧ untold)
  | .registered (some _) | .waiting (some _) => ¬ pending
  | .refused | .expired | .returned _ => True

/-- An answered call needs no entry. -/
theorem heard_answer (c : Call) (outcome : ResponseOutcome) (taken : Prop) :
    Heard (c.answer outcome) False False taken := by
  cases c with
  | registered answer => cases answer <;> simp [Call.answer, Heard]
  | waiting answer => cases answer <;> simp [Call.answer, Heard]
  | _ => simp [Call.answer, Heard]

namespace Heard

variable {c : Call} {pending untold taken : Prop}

/-- A call is told once. -/
theorem told (h : Heard c pending untold taken) (huntold : untold) (outcome : ResponseOutcome) :
    Heard (c.answer outcome) pending False taken := by
  cases c with
  | registered answer => cases answer <;> simp_all [Call.answer, Heard]
  | waiting answer => cases answer <;> simp_all [Call.answer, Heard]
  | _ => simp_all [Call.answer, Heard]

/-- Taking the pending calls moves each entry. -/
theorem taken_all (h : Heard c pending False False) : Heard c False pending True := by
  cases c with
  | registered answer => cases answer <;> simp_all [Heard]
  | waiting answer => cases answer <;> simp_all [Heard]
  | _ => simp_all [Heard]

end Heard

namespace Threads

/-- Every call is heard of. -/
def AllHeard (s : Threads) : Prop :=
  ∀ requestId, Heard (s.calls requestId) (requestId ∈ s.pending)
    (requestId ∈ s.phase.untold) s.phase.Taken

variable {s t : Threads}

theorem allHeard_start : AllHeard start := fun requestId ↦ by
  simp [start, Heard, Phase.untold]

/-- Actions that neither register, answer, take nor tell. -/
theorem AllHeard.frame (h : s.AllHeard) (hcalls : t.calls = s.calls)
    (hpending : t.pending = s.pending) (huntold : t.phase.untold = s.phase.untold)
    (htaken : t.phase.Taken ↔ s.phase.Taken) : t.AllHeard := by
  intro requestId
  rw [hcalls, hpending, huntold, propext htaken]
  exact h requestId

/-- Subscribers do not touch requests. -/
theorem stepSubscription_requests {number : Nat} {a : SubscriptionAction}
    (h : s.stepSubscription number a = some t) :
    t.calls = s.calls ∧ t.pending = s.pending ∧ t.phase = s.phase := by
  unfold stepSubscription at h
  split at h <;> (try split at h) <;> cases h <;> exact ⟨rfl, rfl, rfl⟩

theorem AllHeard.stepSubscription {number : Nat} {a : SubscriptionAction} (h : s.AllHeard)
    (hstep : s.stepSubscription number a = some t) : t.AllHeard := by
  obtain ⟨hcalls, hpending, hphase⟩ := stepSubscription_requests hstep
  exact h.frame hcalls hpending (by rw [hphase]) (by rw [hphase])

/-- One call moves on, and perhaps its own entry with it. -/
theorem AllHeard.update {requestId : Uuid} {c : Call} (h : s.AllHeard)
    (hcalls : t.calls = Function.update s.calls requestId c) (hphase : t.phase = s.phase)
    (hpending : ∀ other, other ≠ requestId → (other ∈ t.pending ↔ other ∈ s.pending))
    (hself : Heard c (requestId ∈ t.pending) (requestId ∈ s.phase.untold) s.phase.Taken) :
    t.AllHeard := by
  intro other
  rw [hcalls, hphase]
  by_cases heq : other = requestId
  · rw [heq, Function.update_self]
    exact hself
  · rw [Function.update_of_ne heq, propext (hpending other heq)]
    exact h other

theorem AllHeard.stepCall {requestId : Uuid} {a : CallAction} (h : s.AllHeard)
    (hgood : InTime s (.call requestId a)) (hstep : s.stepCall requestId a = some t) :
    t.AllHeard := by
  have hself := h requestId
  have herase : ∀ other, other ≠ requestId →
      (other ∈ s.pending.erase requestId ↔ other ∈ s.pending) := fun other hne ↦ by
    rw [Finset.mem_erase, and_iff_right hne]
  unfold Threads.stepCall at hstep
  split at hstep
  case _ hcall =>
    rw [hcall] at hself
    split at hstep <;> cases hstep
    · exact h.update rfl rfl (fun _ _ ↦ Iff.rfl) trivial
    · exact h.update rfl rfl (fun _ _ ↦ Iff.rfl) hself
  case _ hcall =>
    rw [hcall] at hself
    cases hstep
    refine h.update rfl rfl (fun other hne ↦ ?_) ?_
    · exact Finset.mem_insert.trans (or_iff_right hne)
    · exact Or.inl ⟨Finset.mem_insert_self _ _, hself.2⟩
  case _ answer hcall =>
    rw [hcall] at hself
    split at hstep <;> cases hstep
    · exact h.update rfl rfl (fun _ _ ↦ Iff.rfl) trivial
    · next hopen =>
      refine h.update rfl rfl (fun _ _ ↦ Iff.rfl) ?_
      cases answer with
      | some outcome => exact hself
      | none =>
        refine hself.imp_left fun hin ↦ ⟨hin.1, hin.2, fun htaken ↦ ?_⟩
        have hended := hgood hin.1 htaken
        cases hphase : s.phase <;> rw [hphase] at hended <;> first
          | exact hended
          | exact hopen hphase
  case _ =>
    cases hstep
    exact h.update rfl rfl (fun _ _ ↦ Iff.rfl) trivial
  case _ =>
    cases hstep
    exact h.update rfl rfl (fun _ _ ↦ Iff.rfl) trivial
  case _ =>
    cases hstep
    exact h.update rfl rfl herase trivial
  case _ =>
    cases hstep
    exact h.update rfl rfl herase trivial
  case _ => cases hstep

theorem AllHeard.stepReader {a : ReaderAction} (h : s.AllHeard)
    (hstep : s.stepReader a = some t) : t.AllHeard := by
  unfold Threads.stepReader at hstep
  split at hstep
  case _ written hphase =>
    -- Whether the loop is left or not, no call has been taken.
    split at hstep <;> cases hstep
    · cases written <;> exact h.frame rfl rfl (by rw [hphase]; rfl) (by rw [hphase]; rfl)
    · exact h.frame rfl rfl (by rw [hphase]; rfl) (by rw [hphase]; rfl)
  case _ m hphase =>
    split at hstep
    · cases hstep
      exact h.frame rfl rfl rfl Iff.rfl
    · next requestId outcome reader _ =>
      split at hstep <;> cases hstep
      · refine h.update rfl rfl (fun other hne ↦ ?_) ?_
        · exact Finset.mem_erase.trans (and_iff_right hne)
        · have hpending : (requestId ∈ s.pending.erase requestId) = False :=
            eq_false (Finset.notMem_erase _ _)
          have huntold : (requestId ∈ s.phase.untold) = False := by
            rw [hphase]
            exact eq_false (Finset.notMem_empty _)
          change Heard _ (requestId ∈ s.pending.erase requestId) _ _
          rw [hpending, huntold]
          exact heard_answer _ _ _
      · exact h.frame rfl rfl rfl Iff.rfl
    · cases hstep
      exact h.frame rfl rfl (by rw [hphase]; rfl) (by rw [hphase]; rfl)
    · cases hstep
      exact h.frame rfl rfl (by rw [hphase]; rfl) (by rw [hphase]; rfl)
  case _ hphase =>
    cases hstep
    exact h.frame rfl rfl (by rw [hphase]; rfl) (by rw [hphase]; rfl)
  case _ hphase =>
    split at hstep <;> cases hstep
    exact h.frame rfl rfl (by rw [hphase]; rfl) (by rw [hphase]; rfl)
  case _ m resync hphase =>
    split at hstep <;> cases hstep
    cases resync <;> exact h.frame rfl rfl (by rw [hphase]; rfl) (by rw [hphase]; rfl)
  case _ hphase =>
    cases hstep
    exact h.frame rfl rfl (by rw [hphase]; rfl) (by rw [hphase]; rfl)
  case _ hphase =>
    cases hstep
    exact h.frame rfl rfl (by rw [hphase]; rfl) (by rw [hphase]; rfl)
  case _ hphase =>
    cases hstep
    intro requestId
    have hself := h requestId
    have hnone : ∀ other : Uuid, (other ∈ (∅ : Finset Uuid)) = False := fun other ↦
      eq_false (Finset.notMem_empty other)
    rw [hphase] at hself
    simp only [Phase.untold, Phase.Taken, hnone] at hself ⊢
    exact hself.taken_all
  case _ requestId calls hphase =>
    split at hstep <;> cases hstep
    next hmem =>
      intro other
      have hself := h other
      rw [hphase] at hself
      simp only [answer, setCall, Phase.untold, Phase.Taken] at hself ⊢
      by_cases heq : other = requestId
      · subst heq
        have hgone : (other ∈ calls.erase other) = False := eq_false (Finset.notMem_erase _ _)
        rw [Function.update_self, hgone]
        exact hself.told hmem _
      · rw [Function.update_of_ne heq, propext (Finset.mem_erase.trans (and_iff_right heq))]
        exact hself
  case _ calls hphase =>
    split at hstep <;> cases hstep
    next hempty =>
      exact h.frame rfl rfl (by rw [hphase]; exact hempty.1.symm) (by rw [hphase]; rfl)
  case _ hphase =>
    split at hstep <;> cases hstep
    exact h.frame rfl rfl (by rw [hphase]; rfl) (by rw [hphase]; rfl)
  case _ hphase =>
    cases hstep
    exact h.frame rfl rfl (by rw [hphase]; rfl) (by rw [hphase]; rfl)
  case _ => cases hstep

/-- While every send is in time, every call is heard of. -/
theorem AllHeard.step {a : Action} (h : s.AllHeard) (hgood : InTime s a)
    (hstep : client.step s a = some t) : t.AllHeard := by
  cases a with
  | call requestId a => exact h.stepCall hgood hstep
  | subscription number a => exact h.stepSubscription hstep
  | reader a => exact h.stepReader hstep

/-- Calls that are heard of do not wait for a reader that has ended. -/
theorem AllHeard.noneStranded (h : s.AllHeard) : s.NoneStranded := by
  intro hended requestId answer hcall
  have hphase : s.phase = .ended := by
    cases hphase : s.phase <;> rw [hphase] at hended <;> trivial
  have hself := h requestId
  rw [hcall, hphase] at hself
  cases answer with
  | some outcome => exact ⟨rfl, hself⟩
  | none =>
    rcases hself with ⟨-, -, hopen⟩ | ⟨-, huntold⟩
    · exact absurd trivial hopen
    · exact absurd huntold (Finset.notMem_empty _)

end Threads

/-- No request outlives the reader thread when every request is queued in time. -/
theorem noneStranded_of_inTime {actions : List Action} {s : Threads}
    (hrun : client.run Threads.start actions = some s)
    (hgood : client.Meets InTime Threads.start actions) : s.NoneStranded := by
  have hheard : s.AllHeard :=
    Machine.run_induction (I := fun _ s ↦ s.AllHeard) Threads.allHeard_start
      (fun h hgood hstep ↦ h.step hgood hstep) hgood hrun
  exact hheard.noneStranded

/-- A call that waits for nobody: its entry came after the pending calls were taken. -/
structure Forgotten (requestId : Uuid) (s : Threads) : Prop where
  waiting : s.calls requestId = .waiting none
  pending : requestId ∈ s.pending
  untold : requestId ∉ s.phase.untold
  taken : s.phase.Taken

/-- Only its timeout ends the wait of a forgotten call. -/
theorem Forgotten.step {requestId : Uuid} {s t : Threads} {a : Action}
    (h : Forgotten requestId s) (hnot : a ≠ .call requestId .timeOut)
    (hstep : client.step s a = some t) : Forgotten requestId t := by
  obtain ⟨hwaiting, hpending, huntold, htaken⟩ := h
  cases a with
  | call other a =>
    by_cases heq : other = requestId
    · subst heq
      cases a <;> simp [client, Threads.stepCall, hwaiting] at hstep hnot
    · have hkept : ∀ c, Function.update s.calls other c requestId = .waiting none := fun c ↦ by
        rw [Function.update_of_ne (Ne.symm heq), hwaiting]
      have hleft : requestId ∈ s.pending.erase other :=
        Finset.mem_erase.mpr ⟨Ne.symm heq, hpending⟩
      change s.stepCall other a = some t at hstep
      unfold Threads.stepCall at hstep
      split at hstep <;> (try split at hstep) <;> cases hstep
      all_goals first
        | exact ⟨hkept _, hpending, huntold, htaken⟩
        | exact ⟨hkept _, hleft, huntold, htaken⟩
        | exact ⟨hkept _, Finset.mem_insert_of_mem hpending, huntold, htaken⟩
  | subscription number a =>
    obtain ⟨hcalls, hsame, hphase⟩ := Threads.stepSubscription_requests hstep
    exact ⟨hcalls ▸ hwaiting, hsame ▸ hpending, hphase ▸ huntold, hphase ▸ htaken⟩
  | reader a =>
    change s.stepReader a = some t at hstep
    unfold Threads.stepReader at hstep
    split at hstep
    -- Before the calls are taken there is nothing to keep.
    all_goals try (next hphase => exact absurd htaken (by rw [hphase]; exact id))
    case _ other calls hphase =>
      split at hstep <;> cases hstep
      next hmem =>
        rw [hphase] at huntold
        have hne : requestId ≠ other := fun heq ↦ huntold (heq ▸ hmem)
        refine ⟨?_, hpending, fun h ↦ huntold (Finset.mem_of_mem_erase h), trivial⟩
        exact (Function.update_of_ne hne _ _).trans hwaiting
    case _ =>
      split at hstep <;> cases hstep
      exact ⟨hwaiting, hpending, Finset.notMem_empty _, trivial⟩
    case _ =>
      split at hstep <;> cases hstep
      exact ⟨hwaiting, hpending, Finset.notMem_empty _, trivial⟩
    case _ =>
      cases hstep
      exact ⟨hwaiting, hpending, Finset.notMem_empty _, trivial⟩
    case _ => cases hstep

/-- A request queued late is stranded when the reader thread ends, unless it timed out first. -/
theorem not_noneStranded_of_late {requestId : Uuid} {command : Command} {s t u : Threads}
    {actions : List Action} (hheard : s.AllHeard)
    (hlate : ¬ InTime s (.call requestId (.send command)))
    (hstep : client.step s (.call requestId (.send command)) = some t)
    (hrun : client.run t actions = some u) (hnot : .call requestId .timeOut ∉ actions)
    (hended : u.phase.Ended) : ¬ u.NoneStranded := by
  have hself := hheard requestId
  simp only [InTime, Classical.not_imp] at hlate
  obtain ⟨hpending, htaken, hopen⟩ := hlate
  have hforgotten : Forgotten requestId t := by
    change s.stepCall requestId (.send command) = some t at hstep
    cases hcall : s.calls requestId with
    | registered answer =>
      rw [hcall] at hself
      cases answer with
      | some _ => exact absurd hpending hself
      | none =>
        have huntold : requestId ∉ s.phase.untold := by
          rcases hself with ⟨-, huntold⟩ | ⟨hgone, -⟩
          · exact huntold
          · exact absurd hpending hgone
        simp only [Threads.stepCall, hcall] at hstep
        split at hstep
        · next hphase => exact absurd (by rw [hphase]; trivial) hopen
        · cases hstep
          exact ⟨Function.update_self _ _ _, hpending, huntold, htaken⟩
    | _ => simp [Threads.stepCall, hcall] at hstep
  have hlast : Forgotten requestId u :=
    Machine.run_induction (I := fun _ ↦ Forgotten requestId) hforgotten
      (fun h hgood hstep ↦ h.step hgood hstep)
      (Machine.meets_of_forall (fun a ha _ ↦ ne_of_mem_of_not_mem ha hnot) t) hrun
  exact fun hnone ↦ Bool.noConfusion (hnone hended requestId none hlast.waiting).1

/-- A request queued before the connection is lost, and not answered by the daemon. -/
def requestBeforeLoss : List Action :=
  [.call 1 .check, .call 1 .register, .call 1 (.send .ping), .reader (.takeOutgoing true),
    .reader .lose, .reader .setDisconnected, .reader .takePending, .reader (.tell 1),
    .reader .clearDashboard, .reader .clearCache, .reader .dropReceiver]

theorem noneStranded_of_requestBeforeLoss :
    ∃ s, client.run Threads.start requestBeforeLoss = some s ∧ s.NoneStranded := by
  have hruns : (client.run Threads.start requestBeforeLoss).isSome := rfl
  obtain ⟨s, hs⟩ := Option.isSome_iff_exists.mp hruns
  exact ⟨s, hs, noneStranded_of_inTime hs (by decide)⟩

/-- A request that is checked before the connection is lost and registered after the pending calls
are taken. -/
def requestAcrossLoss : List Action :=
  [.call 1 .check, .reader .lose, .reader .setDisconnected, .reader .takePending,
    .call 1 .register, .call 1 (.send .ping), .reader .clearDashboard, .reader .clearCache,
    .reader .dropReceiver]

/-- Nobody tells the caller, and it waits for its timeout. -/
theorem request_stranded_across_loss :
    ¬ ∀ (actions : List Action) (s : Threads),
      client.run Threads.start actions = some s → s.NoneStranded := by
  intro hall
  have hrun : ∃ s, client.run Threads.start requestAcrossLoss = some s ∧ s.phase = .ended ∧
      s.calls 1 = .waiting none := ⟨_, rfl, rfl, rfl⟩
  obtain ⟨s, hrun, hphase, hcall⟩ := hrun
  have hstranded := hall requestAcrossLoss s hrun (by rw [hphase]; trivial) 1 none hcall
  exact Bool.noConfusion hstranded.1

end Daku.Client
