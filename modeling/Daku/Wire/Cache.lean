import Daku.Base.Publication
import Daku.Wire.Message
import Std.Data.ExtTreeMap
import Mathlib.Data.String.Basic

/-!
# Latest dashboard state

The hub (`crates/daku-core/src/server.rs:76–79`) and the client
(`crates/daku-client/src/client.rs:304–307`) remember the last message of each cache key in a
`BTreeMap` and replay them in key order.
-/

namespace Daku.Wire

open Daku.Base

/-- The last message of each cache key, in key order. -/
abbrev DashboardCache := Std.ExtTreeMap String ServerMessage

namespace DashboardCache

variable {cache : DashboardCache} {m : ServerMessage} {key : String}

/-- Remember a dashboard message under its key. -/
def remember (cache : DashboardCache) (m : ServerMessage) : DashboardCache :=
  match m.dashboardCacheKey with
  | some key => cache.insert key m
  | none => cache

/-- Remember several messages in turn. -/
def rememberAll (cache : DashboardCache) (ms : List ServerMessage) : DashboardCache :=
  ms.foldl remember cache

/-- The remembered messages in key order. -/
def messages (cache : DashboardCache) : List ServerMessage := cache.toList.map Prod.snd

/-- Every message is stored under its own key. -/
def Keyed (cache : DashboardCache) : Prop :=
  ∀ (key : String) (m : ServerMessage), cache[key]? = some m → m.dashboardCacheKey = some key

theorem getElem?_remember (cache : DashboardCache) (m : ServerMessage) (key : String) :
    (cache.remember m)[key]? = if m.dashboardCacheKey = some key then some m else cache[key]? := by
  rw [remember]
  cases hm : m.dashboardCacheKey with
  | none => simp
  | some k => simp [Std.ExtTreeMap.getElem?_insert]

theorem keyed_empty : Keyed (∅ : DashboardCache) := fun key m h ↦ by simp at h

theorem Keyed.remember (h : Keyed cache) (m : ServerMessage) : Keyed (cache.remember m) := by
  intro key m' hm'
  rw [getElem?_remember] at hm'
  split at hm'
  · next hkey => exact Option.some.inj hm' ▸ hkey
  · exact h key m' hm'

theorem Keyed.rememberAll (h : Keyed cache) (ms : List ServerMessage) :
    Keyed (cache.rememberAll ms) := by
  induction ms generalizing cache with
  | nil => exact h
  | cons m ms ih => exact ih (h.remember m)

/-- A key no later message has keeps its message. -/
theorem getElem?_rememberAll_of_forall_ne {ms : List ServerMessage}
    (h : ∀ m ∈ ms, m.dashboardCacheKey ≠ some key) :
    (cache.rememberAll ms)[key]? = cache[key]? := by
  induction ms generalizing cache with
  | nil => rfl
  | cons m ms ih =>
    have hrest : ((cache.remember m).rememberAll ms)[key]? = (cache.remember m)[key]? :=
      ih fun m' hm' ↦ h m' (List.mem_cons_of_mem _ hm')
    rw [rememberAll, List.foldl_cons, ← rememberAll, hrest, getElem?_remember,
      if_neg (h m List.mem_cons_self)]

/-- The last message of a key is the remembered one. -/
theorem getElem?_rememberAll_append_cons {pre post : List ServerMessage}
    (hm : m.dashboardCacheKey = some key)
    (hpost : ∀ m' ∈ post, m'.dashboardCacheKey ≠ some key) :
    (cache.rememberAll (pre ++ m :: post))[key]? = some m := by
  rw [rememberAll, List.foldl_append, List.foldl_cons, ← rememberAll,
    getElem?_rememberAll_of_forall_ne hpost, getElem?_remember, if_pos hm]

/-- Remembered messages were there or came in. -/
theorem mem_of_getElem?_rememberAll {ms : List ServerMessage}
    (h : (cache.rememberAll ms)[key]? = some m) : cache[key]? = some m ∨ m ∈ ms := by
  induction ms generalizing cache with
  | nil => exact Or.inl h
  | cons m' ms ih =>
    rcases ih h with h | h
    · rw [getElem?_remember] at h
      split at h
      · exact Or.inr (Option.some.inj h ▸ List.mem_cons_self)
      · exact Or.inl h
    · exact Or.inr (List.mem_cons_of_mem _ h)

theorem mem_messages : m ∈ cache.messages ↔ ∃ key : String, cache[key]? = some m := by
  simp only [messages, List.mem_map, Prod.exists, Std.ExtTreeMap.mem_toList_iff_getElem?_eq_some,
    exists_eq_right]

/-- What is remembered is the latest publication of its key. -/
def Current (cache : DashboardCache) (published : List ServerMessage) : Prop :=
  ∀ (key : String) (m : ServerMessage), cache[key]? = some m →
    ∃ i, Latest ServerMessage.dashboardCacheKey published i m

theorem current_empty (published : List ServerMessage) : Current ∅ published :=
  fun key m h ↦ by simp at h

/-- Remembering what is published keeps the cache current. -/
theorem Current.remember {published : List ServerMessage} (h : Current cache published)
    (hkeyed : Keyed cache) (m : ServerMessage) :
    Current (cache.remember m) (published ++ [m]) := by
  intro key m' hm'
  rw [getElem?_remember] at hm'
  split at hm'
  · rw [← Option.some.inj hm']
    exact ⟨_, latest_concat _ _ _⟩
  · next hne =>
    obtain ⟨i, hi⟩ := h key m' hm'
    exact ⟨i, hi.publish fun _ hsame ↦ hne (hsame.trans (hkeyed key m' hm'))⟩

/-- Every replayed message is the latest of its key. -/
theorem Current.messages {published : List ServerMessage} (h : Current cache published) :
    ∀ m ∈ cache.messages, ∃ i, Latest ServerMessage.dashboardCacheKey published i m := by
  intro m hm
  obtain ⟨key, hkey⟩ := mem_messages.mp hm
  exact h key m hkey

/-- Replayed messages have different keys. -/
theorem Keyed.pairwise_messages (h : Keyed cache) :
    cache.messages.Pairwise fun m m' ↦ m.dashboardCacheKey ≠ m'.dashboardCacheKey := by
  rw [messages, List.pairwise_map]
  refine List.Pairwise.imp_of_mem ?_ (Std.ExtTreeMap.ordered_keys_toList (t := cache))
  intro a b ha hb hlt heq
  rw [Std.ExtTreeMap.mem_toList_iff_getElem?_eq_some] at ha hb
  rw [h a.1 a.2 ha, h b.1 b.2 hb, Option.some.injEq] at heq
  rw [heq, compare_lt_iff_lt] at hlt
  exact lt_irrefl _ hlt

end DashboardCache

end Daku.Wire
