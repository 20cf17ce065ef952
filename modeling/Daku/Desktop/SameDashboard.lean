import Daku.Desktop.DashboardState
import Daku.Wire.Cache

/-!
# Every window shows the same dashboard

A window that opens late is fed the client's cache (`crates/daku-client/src/client.rs:225–244`);
one that was open all along has folded every message, of this connection and of earlier ones.
Both show the last message of every slot received on this connection.
-/

namespace Daku.Desktop

open Daku.Protocol Daku.Wire
open Daku.Health (EnvironmentSummary)

/-- What reaches the state of a window: a message, or the Operator's selection. -/
inductive Input where
  | message (m : ServerMessage)
  | select (id : String)

/-- The message of an input. -/
def Input.message? : Input → Option ServerMessage
  | message m => some m
  | select _ => none

/-- The messages among the inputs. -/
def messagesOf (inputs : List Input) : List ServerMessage := inputs.filterMap Input.message?

namespace DashboardState

/-- The state after one input. -/
def step (fromStr : FromStr) (s : DashboardState) : Input → DashboardState
  | .message m => s.apply fromStr m
  | .select id => s.select id

/-- The state after several inputs. -/
def run (fromStr : FromStr) (s : DashboardState) (inputs : List Input) : DashboardState :=
  inputs.foldl (step fromStr) s

/-- After every list of Environments the state has no data of others, and its selection is
empty or listed. -/
def SettlesAtLists (fromStr : FromStr) (s : DashboardState) (inputs : List Input) : Prop :=
  ∀ pre environments post, inputs = pre ++ .message (.environmentsUpdated environments) :: post →
    let t := run fromStr s (pre ++ [.message (.environmentsUpdated environments)])
    OnlyListed t ∧ SelectedListed t

variable {fromStr : FromStr} {s : DashboardState} {m : ServerMessage}

private theorem selectedListed_run (h : SelectedListed s) (inputs : List Input) :
    SelectedListed (run fromStr s inputs) := by
  induction inputs generalizing s with
  | nil => exact h
  | cons input inputs ih =>
    cases input with
    | message m => exact ih (h.apply m)
    | select id => exact ih (h.select id)

private theorem settlesAtLists (h : SelectedListed s) (inputs : List Input) :
    SettlesAtLists fromStr s inputs := by
  intro pre environments post _
  refine ⟨?_, selectedListed_run h _⟩
  rw [run, List.foldl_append]
  change OnlyListed (DashboardState.apply fromStr _ (.environmentsUpdated environments))
  exact onlyListed_apply environments

/-- A message stays shown while no message of its slot arrives and every list has its
Environment. -/
private theorem Shows.run (inputs : List Input) (h : Shows fromStr s m)
    (hslot : ∀ m' ∈ messagesOf inputs, m'.slot ≠ m.slot)
    (hkeep : ∀ environments, .environmentsUpdated environments ∈ messagesOf inputs →
      ∀ k id, m.slot = some k → k.environmentId = some id → lists environments id) :
    Shows fromStr (run fromStr s inputs) m := by
  induction inputs generalizing s with
  | nil => exact h
  | cons input inputs ih =>
    cases input with
    | message m' =>
      have hmem : m' ∈ messagesOf (.message m' :: inputs) := by simp [messagesOf, Input.message?]
      have hrest : ∀ n ∈ messagesOf inputs, n ∈ messagesOf (.message m' :: inputs) := by
        intro n hn
        simpa [messagesOf, Input.message?] using Or.inr hn
      exact ih (h.apply (hslot m' hmem) fun environments heq ↦ hkeep environments (heq ▸ hmem))
        (fun n hn ↦ hslot n (hrest n hn)) fun environments hn ↦ hkeep environments (hrest _ hn)
    | select id => exact ih ((shows_select_iff id).mpr h) hslot hkeep

end DashboardState

open DashboardState

/-- The last message of a slot splits what was received. -/
private theorem exists_last {inputs : List Input} {k : Slot}
    (h : ∃ m ∈ messagesOf inputs, m.slot = some k) :
    ∃ pre m post, inputs = pre ++ .message m :: post ∧ m.slot = some k ∧
      ∀ m' ∈ messagesOf post, m'.slot ≠ some k := by
  induction inputs with
  | nil =>
    obtain ⟨m, hm, -⟩ := h
    cases hm
  | cons input inputs ih =>
    by_cases hlater : ∃ m ∈ messagesOf inputs, m.slot = some k
    · obtain ⟨pre, m, post, rfl, hm, hpost⟩ := ih hlater
      exact ⟨input :: pre, m, post, rfl, hm, hpost⟩
    · have hnone : ∀ m' ∈ messagesOf inputs, m'.slot ≠ some k :=
        fun m' hm' heq ↦ hlater ⟨m', hm', heq⟩
      obtain ⟨m, hm, hk⟩ := h
      cases input with
      | message m' =>
        rcases List.mem_cons.mp (show m ∈ m' :: messagesOf inputs from hm) with rfl | hm
        · exact ⟨[], m, inputs, rfl, hk, hnone⟩
        · exact absurd hk (hnone m hm)
      | select id => exact absurd hk (hnone m hm)

private theorem messagesOf_append_cons (pre post : List Input) (m : ServerMessage) :
    messagesOf (pre ++ .message m :: post) = messagesOf pre ++ m :: messagesOf post := by
  simp [messagesOf, Input.message?]

/-- For every history of earlier connections and every sequence of messages of one connection
whose lists name the same supported Environments, a window fed the cache and the window that
received everything agree on every slot received on this connection, of the dashboard or of a
listed Environment; and after every list both have only listed data and a listed selection. -/
theorem agreeOn_cache (fromStr : FromStr) (earlier inputs : List Input) (ids : List String)
    (hids : ∀ environments, .environmentsUpdated environments ∈ messagesOf inputs →
      ∀ id, lists environments id ↔ id ∈ ids)
    (hsupported : ∀ m ∈ messagesOf inputs, ∀ k, m.slot = some k → k.Supported) :
    let full := DashboardState.new.run fromStr (earlier ++ inputs)
    let cached := (DashboardCache.rememberAll ∅ (messagesOf inputs)).messages
    let fresh := DashboardState.new.applyAll fromStr cached
    (∀ k, (∃ m ∈ messagesOf inputs, m.slot = some k) →
        (∀ id, k.environmentId = some id → id ∈ ids) → AgreeOn full fresh k) ∧
      SettlesAtLists fromStr .new (earlier ++ inputs) ∧
      SettlesAtLists fromStr .new (cached.map .message) := by
  intro full cached fresh
  have hnew : SelectedListed .new := fun id hid ↦ by cases hid
  refine ⟨fun k hreceived hlisted ↦ ?_, settlesAtLists hnew _, settlesAtLists hnew _⟩
  obtain ⟨pre, m, post, hsplit, hk, hpost⟩ := exists_last hreceived
  have hmessages : messagesOf inputs = messagesOf pre ++ m :: messagesOf post := by
    rw [hsplit, messagesOf_append_cons]
  have hkeep : ∀ environments, .environmentsUpdated environments ∈ messagesOf inputs →
      ∀ k' id, m.slot = some k' → k'.environmentId = some id → lists environments id := by
    intro environments hmem k' id hk' hid
    obtain rfl : k = k' := Option.some.inj (hk.symm.trans hk')
    exact (hids environments hmem id).mpr (hlisted id hid)
  -- The open window shows the last message of the slot.
  have hfull : Shows fromStr full m := by
    have hrun : full = DashboardState.run fromStr
        (DashboardState.apply fromStr (DashboardState.new.run fromStr (earlier ++ pre)) m)
        post := by
      simp only [full, hsplit, DashboardState.run, List.foldl_append, List.foldl_cons]
      rfl
    rw [hrun]
    refine Shows.run post (shows_apply m) (fun m' hm' ↦ hk ▸ hpost m' hm') ?_
    intro environments hmem
    exact hkeep environments (hmessages ▸ List.mem_append_right _ (List.mem_cons_of_mem _ hmem))
  -- The cache holds the same message under the slot's key.
  have hkey : ∀ {n : ServerMessage}, n ∈ messagesOf inputs →
      n.dashboardCacheKey = some k.text → n.slot = some k := by
    intro n hn htext
    rw [dashboardCacheKey_eq] at htext
    obtain ⟨k', hk', htext⟩ := Option.map_eq_some_iff.mp htext
    have hm : m ∈ messagesOf inputs := hmessages ▸ List.mem_append_right _ List.mem_cons_self
    rw [hk', text_inj (hsupported n hn k' hk') (hsupported m hm k hk) htext]
  have hcached : m ∈ cached := by
    rw [DashboardCache.mem_messages]
    refine ⟨k.text, ?_⟩
    rw [hmessages]
    refine DashboardCache.getElem?_rememberAll_append_cons
      (by rw [dashboardCacheKey_eq, hk]; rfl) fun m' hm' htext ↦ hpost m' hm' ?_
    exact hkey (hmessages ▸ List.mem_append_right _ (List.mem_cons_of_mem _ hm')) htext
  have hsub : ∀ n ∈ cached, n ∈ messagesOf inputs := by
    intro n hn
    obtain ⟨key, hn⟩ := DashboardCache.mem_messages.mp hn
    rcases DashboardCache.mem_of_getElem?_rememberAll hn with h | h
    · simp at h
    · exact h
  have hfresh : Shows fromStr fresh m := by
    obtain ⟨before, after, hcut⟩ := List.append_of_mem hcached
    have hpair := (DashboardCache.keyed_empty.rememberAll (messagesOf inputs)).pairwise_messages
    rw [show (DashboardCache.rememberAll ∅ (messagesOf inputs)).messages = cached from rfl, hcut,
      List.pairwise_append] at hpair
    have hafter : ∀ n ∈ after, n ∈ cached := fun n hn ↦
      hcut ▸ List.mem_append_right _ (List.mem_cons_of_mem _ hn)
    have hrun : fresh = DashboardState.run fromStr (DashboardState.apply fromStr
        (DashboardState.new.applyAll fromStr before) m) (after.map .message) := by
      simp only [fresh, hcut, applyAll, DashboardState.run, List.foldl_append, List.foldl_cons,
        List.foldl_map]
      rfl
    have hof : messagesOf (after.map .message) = after := by
      simp [messagesOf, List.filterMap_map, Function.comp_def, Input.message?]
    rw [hrun]
    refine Shows.run _ (shows_apply m) ?_ ?_
    · rw [hof]
      intro n hn heq
      refine (List.pairwise_cons.mp hpair.2.1).1 n hn ?_
      rw [dashboardCacheKey_eq, dashboardCacheKey_eq, heq]
    · rw [hof]
      intro environments hmem
      exact hkeep environments (hsub _ (hafter _ hmem))
  exact agreeOn_of_shows hk hfull hfresh

/-- Samples that arrive before the first list, and once more after it, are shown alike, whatever
an earlier connection left. -/
theorem agreeOn_cache_with_early_samples :
    let earlier : List Input := [.message (.environmentsUpdated [waitingSummary "test"]),
      .message (.signalSamplesUpdated "prod" "jobs" [⟨10, some 1⟩])]
    let inputs : List Input := [.message (.signalSamplesUpdated "prod" "jobs" [⟨60, some 2⟩]),
      .message (.environmentsUpdated [waitingSummary "prod"]), .select "prod",
      .message (.signalSamplesUpdated "gone" "jobs" []),
      .message (.signalSamplesUpdated "prod" "jobs" [⟨60, some 2⟩, ⟨120, some 3⟩])]
    AgreeOn (DashboardState.new.run (fun _ ↦ none) (earlier ++ inputs))
      (DashboardState.new.applyAll (fun _ ↦ none)
        (DashboardCache.rememberAll ∅ (messagesOf inputs)).messages) (.samples "prod" "jobs") := by
  intro earlier inputs
  have hmessages : messagesOf inputs = [.signalSamplesUpdated "prod" "jobs" [⟨60, some 2⟩],
      .environmentsUpdated [waitingSummary "prod"], .signalSamplesUpdated "gone" "jobs" [],
      .signalSamplesUpdated "prod" "jobs" [⟨60, some 2⟩, ⟨120, some 3⟩]] := rfl
  refine (agreeOn_cache (fun _ ↦ none) earlier inputs ["prod"] ?_ ?_).1 _
    ⟨_, by rw [hmessages]; exact List.mem_cons_self, rfl⟩ ?_
  · intro environments hmem id
    rw [hmessages] at hmem
    obtain rfl : environments = [waitingSummary "prod"] := by simpa using hmem
    simp [lists, waitingSummary, eq_comm]
  · intro m hm k hk
    rw [hmessages] at hm
    simp only [List.mem_cons, List.not_mem_nil, or_false] at hm
    rcases hm with rfl | rfl | rfl | rfl <;> cases hk <;> rintro id ⟨⟩ <;> decide +kernel
  · rintro id ⟨⟩
    exact List.mem_cons_self

end Daku.Desktop
