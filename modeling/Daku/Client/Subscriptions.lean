import Daku.Client.Threads

/-!
# Subscriptions

`subscribe_dashboard` holds both locks from the replay to the registration
(`crates/daku-client/src/client.rs:231–242`), while `forward` takes them one after the other
(`client.rs:304–312`) and the reader sets `disconnected` before it clears the list and the cache
(`client.rs:458–466`).
-/

namespace Daku.Client

open Daku.Base Daku.Wire

namespace Subscription

/-- A call that holds the lock of the cache. -/
def HoldsCache : Subscription → Prop
  | cacheLocked | locked | replayed | flagRead _ | registered | dashboardUnlocked => True
  | _ => False

/-- A call that holds the lock of the list of subscribers. -/
def HoldsDashboard : Subscription → Prop
  | locked | replayed | flagRead _ | registered => True
  | _ => False

/-- A call that has sent nothing yet. -/
def Unsent : Subscription → Prop
  | idle | cacheLocked | locked => True
  | _ => False

/-- A call that is past its registration, with a receiver that still exists. -/
def Attached : Subscription → Prop
  | registered | dashboardUnlocked | returned => True
  | _ => False

end Subscription

namespace Phase

/-- The reader has told the other threads that it is leaving. -/
def Disconnected : Phase → Prop
  | flagged | telling _ | dashboardCleared | cacheCleared | ended => True
  | _ => False

/-- The list of subscribers has been cleared. -/
def Cleared : Phase → Prop
  | dashboardCleared | cacheCleared | ended => True
  | _ => False

/-- The reader has finished its cleanup. -/
def CleanedUp : Phase → Prop
  | cacheCleared | ended => True
  | _ => False

theorem Cleared.disconnected {phase : Phase} (h : phase.Cleared) : phase.Disconnected := by
  cases phase <;> trivial

/-- The message that is cached but not handed on yet. -/
def inHand : Phase → Option ServerMessage
  | fanningOut m _ => some m
  | _ => none

end Phase

namespace Threads

/-- What has been handed on to the subscribers so far. -/
def fannedOut (s : Threads) : List ServerMessage :=
  match s.phase with
  | .fanningOut _ _ => s.forwarded.dropLast
  | _ => s.forwarded

/-- What every state the threads can reach holds of one subscriber. -/
structure Own (s : Threads) (number : Nat) : Prop where
  cacheLock : (s.subscriptions number).HoldsCache ↔ s.cacheLock = some number
  dashboardLock : (s.subscriptions number).HoldsDashboard ↔ s.dashboardLock = some number
  flagRead : s.subscriptions number = .flagRead true → s.phase.Disconnected
  listed : number ∈ s.dashboard →
    (s.subscriptions number).Attached ∨ s.subscriptions number = .hungUp
  attached : (s.subscriptions number).Attached → number ∈ s.dashboard ∨ s.phase.Disconnected
  cleared : s.phase.Cleared → number ∉ s.dashboard ∧ s.subscriptions number ≠ .flagRead false
  unsent : (s.subscriptions number).Unsent → s.received number = []
  inOrder : InOrder ServerMessage.dashboardCacheKey s.forwarded (s.received number)

/-- What every state the threads can reach holds of what they share. -/
structure Shared (s : Threads) : Prop where
  disconnected : s.disconnected = true ↔ s.phase.Disconnected
  keyed : s.cache.Keyed
  current : s.cache.Current s.forwarded
  inHand : ∀ m, s.phase.inHand = some m → s.forwarded = s.fannedOut ++ [m]

/-- What holds in every state the threads can reach. -/
structure Inv (s : Threads) : Prop extends Shared s where
  own : ∀ number, s.Own number

theorem inv_start : start.Inv where
  disconnected := by simp [start, Phase.Disconnected]
  keyed := DashboardCache.keyed_empty
  current := DashboardCache.current_empty _
  inHand m h := by cases h
  own number := {
    cacheLock := by simp [start, Subscription.HoldsCache]
    dashboardLock := by simp [start, Subscription.HoldsDashboard]
    flagRead := fun h ↦ by cases h
    listed := fun h ↦ absurd h List.not_mem_nil
    attached := fun h ↦ h.elim
    cleared := fun h ↦ h.elim
    unsent := fun _ ↦ rfl
    inOrder := InOrder.nil _ _ }

variable {s t : Threads} {number : Nat}

/-- A subscriber whom a step does not concern. -/
theorem Own.frame (h : s.Own number)
    (hsubscription : t.subscriptions number = s.subscriptions number)
    (hcacheLock : t.cacheLock = some number ↔ s.cacheLock = some number)
    (hdashboardLock : t.dashboardLock = some number ↔ s.dashboardLock = some number)
    (hlisted : number ∈ t.dashboard ↔ number ∈ s.dashboard)
    (hreceived : t.received number = s.received number) (hforwarded : t.forwarded = s.forwarded)
    (hdisconnected : t.phase.Disconnected ↔ s.phase.Disconnected)
    (hcleared : t.phase.Cleared ↔ s.phase.Cleared) : t.Own number := by
  obtain ⟨h₁, h₂, h₃, h₄, h₅, h₆, h₇, h₈⟩ := h
  constructor
  all_goals simp only [hsubscription, hcacheLock, hdashboardLock, hlisted, hreceived, hforwarded,
    hdisconnected, hcleared]
  all_goals assumption

/-- Calls of `request` move nothing that concerns subscribers. -/
theorem Inv.stepCall {requestId : Uuid} {a : CallAction} (h : s.Inv)
    (hstep : s.stepCall requestId a = some t) : t.Inv := by
  have hrest : ∃ calls pending outgoing,
      t = { s with calls := calls, pending := pending, outgoing := outgoing } := by
    unfold Threads.stepCall at hstep
    split at hstep <;> (try split at hstep) <;> cases hstep <;> exact ⟨_, _, _, rfl⟩
  obtain ⟨calls, pending, outgoing, rfl⟩ := hrest
  exact ⟨⟨h.disconnected, h.keyed, h.current, h.inHand⟩, fun number ↦
    (h.own number).frame rfl Iff.rfl Iff.rfl Iff.rfl rfl rfl Iff.rfl Iff.rfl⟩

/-- One subscription moves, and the reader's part of the state stays. -/
theorem Inv.moveSubscription {subscription : Subscription} (h : s.Inv)
    (hsubscriptions : t.subscriptions = Function.update s.subscriptions number subscription)
    (hreader : t.disconnected = s.disconnected ∧ t.phase = s.phase ∧ t.cache = s.cache ∧
      t.forwarded = s.forwarded)
    (hself : t.Own number)
    (hother : ∀ other, other ≠ number → t.subscriptions other = s.subscriptions other →
      t.Own other) : t.Inv := by
  obtain ⟨hflag, hphase, hcache, hforwarded⟩ := hreader
  refine ⟨⟨?_, hcache ▸ h.keyed, ?_, ?_⟩, fun other ↦ ?_⟩
  · rw [hflag, hphase]
    exact h.disconnected
  · rw [hcache, hforwarded]
    exact h.current
  · unfold fannedOut
    rw [hphase, hforwarded]
    exact h.inHand
  · by_cases hne : other = number
    · exact hne ▸ hself
    · apply hother other hne
      rw [hsubscriptions, Function.update_of_ne hne]

/-- A subscription takes its next step. -/
theorem Inv.stepSubscription {a : SubscriptionAction} (h : s.Inv)
    (hstep : s.stepSubscription number a = some t) : t.Inv := by
  obtain ⟨h₁, h₂, h₃, h₄, h₅, h₆, h₇, h₈⟩ := h.own number
  unfold Threads.stepSubscription at hstep
  split at hstep
  case _ hsub =>
    split at hstep <;> cases hstep
    next hfree =>
    refine h.moveSubscription rfl ⟨rfl, rfl, rfl, rfl⟩ ?_ fun other hne hsame ↦ ?_
    · rw [hsub] at h₁ h₂ h₃ h₄ h₅ h₆ h₇
      constructor <;> simp_all [setSubscription, Subscription.HoldsCache,
        Subscription.HoldsDashboard, Subscription.Attached, Subscription.Unsent]
    · refine (h.own other).frame hsame ?_ Iff.rfl Iff.rfl rfl rfl Iff.rfl Iff.rfl
      simp [hfree, Ne.symm hne]
  case _ hsub =>
    split at hstep <;> cases hstep
    next hfree =>
    refine h.moveSubscription rfl ⟨rfl, rfl, rfl, rfl⟩ ?_ fun other hne hsame ↦ ?_
    · rw [hsub] at h₁ h₂ h₃ h₄ h₅ h₆ h₇
      constructor <;> simp_all [setSubscription, Subscription.HoldsCache,
        Subscription.HoldsDashboard, Subscription.Attached, Subscription.Unsent]
    · refine (h.own other).frame hsame Iff.rfl ?_ Iff.rfl rfl rfl Iff.rfl Iff.rfl
      simp [hfree, Ne.symm hne]
  case _ hsub =>
    cases hstep
    refine h.moveSubscription rfl ⟨rfl, rfl, rfl, rfl⟩ ?_ fun other hne hsame ↦ ?_
    · rw [hsub] at h₁ h₂ h₃ h₄ h₅ h₆ h₇
      have hreplay := h₈.deliverAll h.current.messages
      constructor <;> simp_all [setSubscription, Subscription.HoldsCache,
        Subscription.HoldsDashboard, Subscription.Attached, Subscription.Unsent]
    · exact (h.own other).frame hsame Iff.rfl Iff.rfl Iff.rfl
        (Function.update_of_ne hne _ _) rfl Iff.rfl Iff.rfl
  case _ hsub =>
    cases hstep
    refine h.moveSubscription rfl ⟨rfl, rfl, rfl, rfl⟩ ?_ fun other hne hsame ↦ ?_
    · -- A cleared list means that the flag is read as set.
      have hflag : s.phase.Cleared → s.disconnected = true := fun hcleared ↦
        h.disconnected.mpr hcleared.disconnected
      have hread := h.disconnected
      rw [hsub] at h₁ h₂ h₃ h₄ h₅ h₆ h₇
      constructor <;> simp_all [setSubscription, Subscription.HoldsCache,
        Subscription.HoldsDashboard, Subscription.Attached, Subscription.Unsent]
    · exact (h.own other).frame hsame Iff.rfl Iff.rfl Iff.rfl rfl rfl Iff.rfl Iff.rfl
  case _ disconnected hsub =>
    cases hstep
    refine h.moveSubscription rfl ⟨rfl, rfl, rfl, rfl⟩ ?_ fun other hne hsame ↦ ?_
    · rw [hsub] at h₁ h₂ h₃ h₄ h₅ h₆ h₇
      cases disconnected <;> constructor <;> simp_all [setSubscription, Subscription.HoldsCache,
        Subscription.HoldsDashboard, Subscription.Attached, Subscription.Unsent]
    · refine (h.own other).frame hsame Iff.rfl Iff.rfl ?_ rfl rfl Iff.rfl Iff.rfl
      cases disconnected <;> simp [hne]
  case _ hsub =>
    cases hstep
    rw [hsub] at h₁ h₂ h₃ h₄ h₅ h₆ h₇
    have hheld : s.dashboardLock = some number := h₂.mp trivial
    refine h.moveSubscription rfl ⟨rfl, rfl, rfl, rfl⟩ ?_ fun other hne hsame ↦ ?_
    · constructor <;> simp_all [setSubscription, Subscription.HoldsCache,
        Subscription.HoldsDashboard, Subscription.Attached, Subscription.Unsent]
    · refine (h.own other).frame hsame Iff.rfl ?_ Iff.rfl rfl rfl Iff.rfl Iff.rfl
      simp [hheld, Ne.symm hne]
  case _ hsub =>
    cases hstep
    rw [hsub] at h₁ h₂ h₃ h₄ h₅ h₆ h₇
    have hheld : s.cacheLock = some number := h₁.mp trivial
    refine h.moveSubscription rfl ⟨rfl, rfl, rfl, rfl⟩ ?_ fun other hne hsame ↦ ?_
    · constructor <;> simp_all [setSubscription, Subscription.HoldsCache,
        Subscription.HoldsDashboard, Subscription.Attached, Subscription.Unsent]
    · refine (h.own other).frame hsame ?_ Iff.rfl Iff.rfl rfl rfl Iff.rfl Iff.rfl
      simp [hheld, Ne.symm hne]
  case _ hsub =>
    cases hstep
    refine h.moveSubscription rfl ⟨rfl, rfl, rfl, rfl⟩ ?_ fun other hne hsame ↦ ?_
    · rw [hsub] at h₁ h₂ h₃ h₄ h₅ h₆ h₇
      constructor <;> simp_all [setSubscription, Subscription.HoldsCache,
        Subscription.HoldsDashboard, Subscription.Attached, Subscription.Unsent]
    · exact (h.own other).frame hsame Iff.rfl Iff.rfl Iff.rfl rfl rfl Iff.rfl Iff.rfl
  case _ => cases hstep

/-- What the reader does outside its cleanup and outside `forward`. -/
theorem Inv.frame (h : s.Inv) (hsubscriptions : t.subscriptions = s.subscriptions)
    (hcacheLock : t.cacheLock = s.cacheLock) (hdashboardLock : t.dashboardLock = s.dashboardLock)
    (hdashboard : t.dashboard = s.dashboard) (hreceived : t.received = s.received)
    (hforwarded : t.forwarded = s.forwarded) (hcache : t.cache = s.cache)
    (hflag : t.disconnected = s.disconnected)
    (hdisconnected : t.phase.Disconnected ↔ s.phase.Disconnected)
    (hcleared : t.phase.Cleared ↔ s.phase.Cleared) (hinHand : t.phase.inHand = none) : t.Inv := by
  refine ⟨⟨?_, hcache ▸ h.keyed, ?_, fun m hm ↦ ?_⟩, fun number ↦ ?_⟩
  · rw [hflag, hdisconnected]
    exact h.disconnected
  · rw [hcache, hforwarded]
    exact h.current
  · rw [hinHand] at hm
    cases hm
  · apply (h.own number).frame <;> simp only [*]

/-- Handing a message on drops the subscribers that are gone; the others have it in its place. -/
theorem Inv.fanOut {m : ServerMessage} {resync : Bool} (h : s.Inv)
    (hphase : s.phase = .fanningOut m resync) :
    Inv { s with
      dashboard := s.listening
      received := fun number ↦
        if number ∈ s.listening then s.received number ++ [m] else s.received number
      phase := if resync then .requestingResync else .reading } := by
  have hhand : s.forwarded = s.fannedOut ++ [m] := h.inHand m (by rw [hphase]; rfl)
  have hopen : ¬ s.phase.Disconnected := by rw [hphase]; exact id
  have hopen' : ¬ (if resync then Phase.requestingResync else Phase.reading).Disconnected := by
    cases resync <;> exact id
  have hkept : ∀ number, number ∈ s.listening ↔
      number ∈ s.dashboard ∧ s.subscriptions number ≠ .hungUp := fun number ↦ by
    rw [listening, List.mem_filter, decide_eq_true_eq]
  refine ⟨⟨?_, h.keyed, h.current, fun m' hm' ↦ ?_⟩, fun number ↦ ?_⟩
  · exact iff_of_false (fun hflag ↦ hopen (h.disconnected.mp hflag)) hopen'
  · cases resync <;> cases hm'
  · have hown := h.own number
    refine ⟨hown.cacheLock, hown.dashboardLock, fun hread ↦ ?_, fun hmem ↦ ?_, fun hattached ↦ ?_,
      fun hcleared ↦ ?_, fun hunsent ↦ ?_, ?_⟩
    · exact absurd (hown.flagRead hread) hopen
    · exact hown.listed ((hkept number).mp hmem).1
    · left
      refine (hkept number).mpr ⟨(hown.attached hattached).resolve_right hopen, fun hgone ↦ ?_⟩
      rw [hgone] at hattached
      exact hattached
    · exact absurd hcleared.disconnected hopen'
    · have hnot : number ∉ s.listening := fun hmem ↦ by
        rcases hown.listed ((hkept number).mp hmem).1 with hattached | hgone
        · cases hsub : s.subscriptions number <;> rw [hsub] at hattached hunsent <;> trivial
        · exact ((hkept number).mp hmem).2 hgone
      exact (if_neg hnot).trans (hown.unsent hunsent)
    · have hlatest := latest_concat ServerMessage.dashboardCacheKey s.fannedOut m
      rw [← hhand] at hlatest
      by_cases hmem : number ∈ s.listening
      · simp only [if_pos hmem]
        exact hown.inOrder.deliver hlatest
      · simp only [if_neg hmem]
        exact hown.inOrder

/-- The list of subscribers is cleared while nobody else holds its lock. -/
theorem Inv.clearDashboard {calls : Finset Uuid} (h : s.Inv) (hphase : s.phase = .telling calls)
    (hfree : s.dashboardLock = none) :
    Inv { s with dashboard := [], phase := .dashboardCleared } := by
  have hset := h.disconnected
  rw [hphase] at hset
  refine ⟨⟨hset, h.keyed, h.current, fun m hm ↦ by cases hm⟩, fun number ↦ ?_⟩
  have hown := h.own number
  refine ⟨hown.cacheLock, hown.dashboardLock, fun _ ↦ trivial, fun hmem ↦ ?_,
    fun _ ↦ Or.inr trivial, fun _ ↦ ⟨List.not_mem_nil, fun hread ↦ ?_⟩, hown.unsent, hown.inOrder⟩
  · exact absurd hmem List.not_mem_nil
  · -- Who read the flag in time still holds the lock the reader has just taken.
    have hlock := hown.dashboardLock
    rw [hread, hfree] at hlock
    cases hlock.mp trivial

/-- The reader takes its next step. -/
theorem Inv.stepReader {a : ReaderAction} (h : s.Inv) (hstep : s.stepReader a = some t) :
    t.Inv := by
  unfold Threads.stepReader at hstep
  split at hstep
  case _ written hphase =>
    split at hstep <;> cases hstep
    · apply h.frame <;> cases written <;> simp [hphase, Phase.Disconnected, Phase.Cleared,
        Phase.inHand]
    · apply h.frame <;> simp [hphase, Phase.Disconnected, Phase.Cleared, Phase.inHand]
  case _ m hphase =>
    split at hstep
    · cases hstep
      apply h.frame <;> simp [hphase, Phase.inHand]
    · split at hstep <;> cases hstep
      · apply h.frame <;> simp [hphase, answer, setCall, Phase.inHand]
      · apply h.frame <;> simp [hphase, Phase.inHand]
    · cases hstep
      apply h.frame <;> simp [hphase, Phase.Disconnected, Phase.Cleared, Phase.inHand]
    · cases hstep
      apply h.frame <;> simp [hphase, Phase.Disconnected, Phase.Cleared, Phase.inHand]
  case _ hphase =>
    cases hstep
    apply h.frame <;> simp [hphase, Phase.Disconnected, Phase.Cleared, Phase.inHand]
  case _ m resync hphase =>
    split at hstep <;> cases hstep
    refine ⟨⟨?_, h.keyed.remember m, h.current.remember h.keyed m, fun m' hm' ↦ ?_⟩,
      fun number ↦ ?_⟩
    · have := h.disconnected
      simpa [hphase, Phase.Disconnected] using this
    · cases hm'
      simp [fannedOut]
    · have hown : Own { s with phase := .fanningOut m resync } number := by
        apply (h.own number).frame <;> simp [hphase, Phase.Disconnected, Phase.Cleared]
      exact { hown with inOrder := hown.inOrder.publish [m] }
  case _ m resync hphase =>
    split at hstep <;> cases hstep
    exact h.fanOut hphase
  case _ hphase =>
    cases hstep
    apply h.frame <;> simp [hphase, Phase.Disconnected, Phase.Cleared, Phase.inHand]
  case _ hphase =>
    cases hstep
    refine ⟨⟨iff_of_true rfl trivial, h.keyed, h.current, fun m hm ↦ by cases hm⟩,
      fun number ↦ ?_⟩
    have hown := h.own number
    exact ⟨hown.cacheLock, hown.dashboardLock, fun _ ↦ trivial, hown.listed, fun _ ↦ Or.inr trivial,
      fun hcleared ↦ hcleared.elim, hown.unsent, hown.inOrder⟩
  case _ hphase =>
    cases hstep
    apply h.frame <;> simp [hphase, Phase.Disconnected, Phase.Cleared, Phase.inHand]
  case _ requestId calls hphase =>
    split at hstep <;> cases hstep
    apply h.frame <;> simp [hphase, answer, setCall, Phase.Disconnected, Phase.Cleared,
      Phase.inHand]
  case _ calls hphase =>
    split at hstep <;> cases hstep
    next hfree =>
    exact h.clearDashboard hphase hfree.2
  case _ hphase =>
    split at hstep <;> cases hstep
    have hset := h.disconnected
    rw [hphase] at hset
    refine ⟨⟨hset, DashboardCache.keyed_empty, DashboardCache.current_empty _,
      fun m hm ↦ by cases hm⟩, fun number ↦ ?_⟩
    apply (h.own number).frame <;> simp [hphase, Phase.Disconnected, Phase.Cleared]
  case _ hphase =>
    cases hstep
    apply h.frame <;> simp [hphase, Phase.Disconnected, Phase.Cleared, Phase.inHand]
  case _ => cases hstep

/-- The invariant is kept by every action. -/
theorem Inv.step {a : Action} (h : s.Inv) (hstep : client.step s a = some t) : t.Inv := by
  cases a with
  | call requestId a => exact h.stepCall hstep
  | subscription number a => exact h.stepSubscription hstep
  | reader a => exact h.stepReader hstep

/-- What an action of somebody else can do to a subscriber: nothing, or hand on one message. -/
structure Elsewhere (s t : Threads) (number : Nat) : Prop where
  subscription : t.subscriptions number = s.subscriptions number
  cache : t.cache = s.cache ∨ s.cacheLock = none
  handed : (t.fannedOut = s.fannedOut ∧ t.received number = s.received number) ∨
    (s.dashboardLock = none ∧ ¬ s.phase.Disconnected ∧ ∃ m, t.fannedOut = s.fannedOut ++ [m] ∧
      t.received number =
        if number ∈ s.listening then s.received number ++ [m] else s.received number)

theorem Elsewhere.of_same (hsubscription : t.subscriptions number = s.subscriptions number)
    (hcache : t.cache = s.cache) (hfanned : t.fannedOut = s.fannedOut)
    (hreceived : t.received number = s.received number) : Elsewhere s t number :=
  ⟨hsubscription, Or.inl hcache, Or.inl ⟨hfanned, hreceived⟩⟩

theorem elsewhere_of_stepSubscription {other : Nat} {a : SubscriptionAction} (hne : other ≠ number)
    (hstep : s.stepSubscription other a = some t) : Elsewhere s t number := by
  have hmoved : ∀ u, Function.update s.subscriptions other u number = s.subscriptions number :=
    fun u ↦ Function.update_of_ne (Ne.symm hne) u s.subscriptions
  unfold Threads.stepSubscription at hstep
  split at hstep <;> (try split at hstep) <;> cases hstep
  all_goals first
    | exact .of_same (hmoved _) rfl rfl rfl
    | exact .of_same (hmoved _) rfl rfl (Function.update_of_ne (Ne.symm hne) _ _)

theorem elsewhere_of_stepReader {a : ReaderAction} (h : s.Inv) (hstep : s.stepReader a = some t)
    (number : Nat) : Elsewhere s t number := by
  unfold Threads.stepReader at hstep
  split at hstep
  case _ written hphase =>
    split at hstep <;> cases hstep
    · cases written <;> exact .of_same rfl rfl (by simp [fannedOut, hphase]) rfl
    · exact .of_same rfl rfl (by simp [fannedOut, hphase]) rfl
  case _ m hphase =>
    split at hstep
    · cases hstep
      exact .of_same rfl rfl rfl rfl
    · split at hstep <;> cases hstep <;> exact .of_same rfl rfl rfl rfl
    · cases hstep
      exact .of_same rfl rfl (by simp [fannedOut, hphase]) rfl
    · cases hstep
      exact .of_same rfl rfl (by simp [fannedOut, hphase]) rfl
  case _ hphase =>
    cases hstep
    exact .of_same rfl rfl (by simp [fannedOut, hphase]) rfl
  case _ m resync hphase =>
    split at hstep <;> cases hstep
    next hfree =>
    refine ⟨rfl, hfree.imp_left fun hkey ↦ ?_, Or.inl ⟨by simp [fannedOut, hphase], rfl⟩⟩
    simp [DashboardCache.remember, hkey]
  case _ m resync hphase =>
    split at hstep <;> cases hstep
    next hfree =>
    refine ⟨rfl, Or.inl rfl, Or.inr ⟨hfree, by rw [hphase]; exact id, m, ?_, rfl⟩⟩
    have hhand : s.forwarded = s.fannedOut ++ [m] := h.inHand m (by rw [hphase]; rfl)
    cases resync <;> simpa [fannedOut] using hhand
  case _ hphase =>
    cases hstep
    exact .of_same rfl rfl (by simp [fannedOut, hphase]) rfl
  case _ hphase =>
    cases hstep
    exact .of_same rfl rfl (by simp [fannedOut, hphase]) rfl
  case _ hphase =>
    cases hstep
    exact .of_same rfl rfl (by simp [fannedOut, hphase]) rfl
  case _ requestId calls hphase =>
    split at hstep <;> cases hstep
    exact .of_same rfl rfl (by simp [fannedOut, hphase, answer, setCall]) rfl
  case _ calls hphase =>
    split at hstep <;> cases hstep
    exact .of_same rfl rfl (by simp [fannedOut, hphase]) rfl
  case _ hphase =>
    split at hstep <;> cases hstep
    next hfree =>
    exact ⟨rfl, Or.inr hfree, Or.inl ⟨by simp [fannedOut, hphase], rfl⟩⟩
  case _ hphase =>
    cases hstep
    exact .of_same rfl rfl (by simp [fannedOut, hphase]) rfl
  case _ => cases hstep

theorem elsewhere_of_stepCall {requestId : Uuid} {a : CallAction}
    (hstep : s.stepCall requestId a = some t) (number : Nat) : Elsewhere s t number := by
  unfold Threads.stepCall at hstep
  split at hstep <;> (try split at hstep) <;> cases hstep <;> exact .of_same rfl rfl rfl rfl

/-- What a subscriber that locked the list in `s₀` has been sent by now. -/
def Sent (s s₀ : Threads) (number : Nat) : Prop :=
  match s.subscriptions number with
  | .idle | .cacheLocked => False
  | .locked => s.received number = [] ∧ s.cache = s₀.cache ∧ s.fannedOut = s₀.fannedOut
  | .replayed | .flagRead _ =>
    s.received number = s₀.cache.messages ∧ s.fannedOut = s₀.fannedOut
  | .registered | .dashboardUnlocked | .returned =>
    ∃ later, s.fannedOut = s₀.fannedOut ++ later ∧ s.received number = s₀.cache.messages ++ later
  | .hungUp => True

/-- The step that locks the list. -/
theorem sent_of_lockDashboard (h : s.Inv)
    (hstep : s.stepSubscription number .lockDashboard = some t) : t.Sent s number := by
  have hunsent := (h.own number).unsent
  cases hsub : s.subscriptions number <;> simp only [Threads.stepSubscription, hsub] at hstep
  case cacheLocked =>
    split at hstep <;> cases hstep
    simp only [Sent, setSubscription, Function.update_self]
    exact ⟨hunsent (by rw [hsub]; trivial), trivial, rfl⟩
  all_goals cases hstep

/-- A subscriber's own next step. -/
theorem Sent.stepSubscription {s₀ : Threads} {a : SubscriptionAction} (hsent : s.Sent s₀ number)
    (hstep : s.stepSubscription number a = some t) : t.Sent s₀ number := by
  unfold Sent at hsent ⊢
  unfold Threads.stepSubscription at hstep
  split at hstep
  case _ hsub =>
    rw [hsub] at hsent
    exact hsent.elim
  case _ hsub =>
    rw [hsub] at hsent
    exact hsent.elim
  case _ hsub =>
    rw [hsub] at hsent
    obtain ⟨hreceived, hcache, hfanned⟩ := hsent
    cases hstep
    simp only [setSubscription, Function.update_self]
    exact ⟨by rw [hreceived, hcache, List.nil_append], hfanned⟩
  case _ hsub =>
    rw [hsub] at hsent
    cases hstep
    simp only [setSubscription, Function.update_self]
    exact hsent
  case _ hsub =>
    rw [hsub] at hsent
    cases hstep
    simp only [setSubscription, Function.update_self]
    exact ⟨[], hsent.2.trans (List.append_nil _).symm, hsent.1.trans (List.append_nil _).symm⟩
  case _ hsub =>
    rw [hsub] at hsent
    cases hstep
    simp only [setSubscription, Function.update_self]
    exact hsent
  case _ hsub =>
    rw [hsub] at hsent
    cases hstep
    simp only [setSubscription, Function.update_self]
    exact hsent
  case _ hsub =>
    cases hstep
    simp only [setSubscription, Function.update_self]
  case _ => cases hstep

/-- What somebody else does hands a subscriber all or nothing. -/
theorem Sent.elsewhere {s₀ : Threads} (hsent : s.Sent s₀ number) (h : s.Inv)
    (hstep : Elsewhere s t number) : t.Sent s₀ number := by
  have hown := h.own number
  have hcache : (s.subscriptions number).HoldsCache → t.cache = s.cache := fun hholds ↦
    hstep.cache.resolve_right fun hfree ↦ by
      cases hfree.symm.trans (hown.cacheLock.mp hholds)
  have hquiet : (s.subscriptions number).HoldsDashboard →
      t.fannedOut = s.fannedOut ∧ t.received number = s.received number := fun hholds ↦
    hstep.handed.resolve_right fun hfree ↦ by
      cases hfree.1.symm.trans (hown.dashboardLock.mp hholds)
  have hattached : (s.subscriptions number).Attached →
      (∃ later, s.fannedOut = s₀.fannedOut ++ later ∧
        s.received number = s₀.cache.messages ++ later) →
      ∃ later, t.fannedOut = s₀.fannedOut ++ later ∧
        t.received number = s₀.cache.messages ++ later := by
    rintro hholds ⟨later, hfanned, hreceived⟩
    rcases hstep.handed with ⟨hsame, hsame'⟩ | ⟨-, hopen, m, hmore, hmore'⟩
    · exact ⟨later, hsame.trans hfanned, hsame'.trans hreceived⟩
    · have hlistening : number ∈ s.listening := by
        rw [listening, List.mem_filter, decide_eq_true_eq]
        refine ⟨(hown.attached hholds).resolve_right hopen, fun hgone ↦ ?_⟩
        rw [hgone] at hholds
        exact hholds
      rw [if_pos hlistening] at hmore'
      exact ⟨later ++ [m], by rw [hmore, hfanned, List.append_assoc],
        by rw [hmore', hreceived, List.append_assoc]⟩
  unfold Sent at hsent ⊢
  rw [hstep.subscription]
  cases hsub : s.subscriptions number <;> rw [hsub] at hsent hcache hquiet hattached
  case locked =>
    obtain ⟨hfanned, hreceived⟩ := hquiet trivial
    exact ⟨hreceived.trans hsent.1, (hcache trivial).trans hsent.2.1, hfanned.trans hsent.2.2⟩
  case replayed | flagRead =>
    obtain ⟨hfanned, hreceived⟩ := hquiet trivial
    exact ⟨hreceived.trans hsent.1, hfanned.trans hsent.2⟩
  case registered | dashboardUnlocked | returned => exact hattached trivial hsent
  case hungUp => trivial
  case idle | cacheLocked => exact hsent

/-- A subscriber is sent the cached values, and then every message that is handed on. -/
theorem Sent.step {s₀ : Threads} {a : Action} (hsent : s.Sent s₀ number) (h : s.Inv)
    (hstep : client.step s a = some t) : t.Sent s₀ number := by
  cases a with
  | call requestId a => exact hsent.elsewhere h (elsewhere_of_stepCall hstep number)
  | reader a => exact hsent.elsewhere h (elsewhere_of_stepReader h hstep number)
  | subscription other a =>
    by_cases hne : other = number
    · subst hne
      exact hsent.stepSubscription hstep
    · exact hsent.elsewhere h (elsewhere_of_stepSubscription hne hstep)

end Threads

/-- A subscriber that has returned was sent every value cached when it held both locks and then
every message handed on since, none of a key after a newer one; and no sender outlives the
reader's cleanup. -/
theorem subscription_loses_nothing {actions : List Action} {s : Threads}
    (hrun : client.run Threads.start actions = some s) :
    (∀ (before after : List Action) (number : Nat) (s₀ : Threads),
      actions = before ++ .subscription number .lockDashboard :: after →
      client.run Threads.start before = some s₀ → s.subscriptions number = .returned →
      (∃ later, s.fannedOut = s₀.fannedOut ++ later ∧
        s.received number = s₀.cache.messages ++ later) ∧
      InOrder ServerMessage.dashboardCacheKey s.forwarded (s.received number)) ∧
    (s.phase.CleanedUp → s.dashboard = []) := by
  have hinv : s.Inv := Machine.run_invariant Threads.inv_start (fun h ↦ h.step) hrun
  constructor
  · rintro before after number s₀ rfl hbefore hreturned
    refine ⟨?_, (hinv.own number).inOrder⟩
    obtain ⟨u, hu, hrest⟩ := Machine.run_append.mp hrun
    obtain rfl : u = s₀ := Option.some.inj (hu.symm.trans hbefore)
    obtain ⟨v, hlock, hafter⟩ := Machine.run_cons.mp hrest
    have hu' : u.Inv := Machine.run_invariant Threads.inv_start (fun h ↦ h.step) hbefore
    have hsent : s.Sent u number ∧ s.Inv :=
      Machine.run_invariant (I := fun s ↦ s.Sent u number ∧ s.Inv)
        ⟨Threads.sent_of_lockDashboard hu' hlock, hu'.step hlock⟩
        (fun h hstep ↦ ⟨h.1.step h.2 hstep, h.2.step hstep⟩) hafter
    have := hsent.1
    rwa [Threads.Sent, hreturned] at this
  · intro hcleaned
    rw [List.eq_nil_iff_forall_not_mem]
    intro number
    have hcleared : s.phase.Cleared := by
      cases hphase : s.phase <;> rw [hphase] at hcleaned <;> trivial
    exact ((hinv.own number).cleared hcleared).1

/-- A message is cached. -/
def beforeSubscribing : List Action :=
  [.reader (.read (.environmentsUpdated [])), .reader .insertCache, .subscription 0 .lockCache]

/-- The call holds both locks until it has registered, and then the message is handed on. -/
def afterSubscribing : List Action :=
  [.subscription 0 .replay, .subscription 0 .readFlag, .subscription 0 .register,
    .subscription 0 .unlockDashboard, .subscription 0 .unlockCache, .reader .fanOut]

theorem subscription_between_cache_and_list :
    ∃ s₀ s, client.run Threads.start beforeSubscribing = some s₀ ∧
      client.run Threads.start
        (beforeSubscribing ++ .subscription 0 .lockDashboard :: afterSubscribing) = some s ∧
      ∃ later, s.fannedOut = s₀.fannedOut ++ later ∧
        s.received 0 = s₀.cache.messages ++ later := by
  have hbefore : ∃ s₀, client.run Threads.start beforeSubscribing = some s₀ := ⟨_, rfl⟩
  have hafter : ∃ s, client.run Threads.start
      (beforeSubscribing ++ .subscription 0 .lockDashboard :: afterSubscribing) = some s ∧
      s.subscriptions 0 = .returned := ⟨_, rfl, rfl⟩
  obtain ⟨s₀, hs₀⟩ := hbefore
  obtain ⟨s, hs, hreturned⟩ := hafter
  exact ⟨s₀, s, hs₀, hs, ((subscription_loses_nothing hs).1 _ _ 0 s₀ rfl hs₀ hreturned).1⟩

end Daku.Client
