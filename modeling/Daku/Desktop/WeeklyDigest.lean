import Daku.Desktop.Mutes

/-!
# The weekly digest is sent once

The time of the last digest is in the preferences, so the digests of all processes count, and two
of them are 20 hours apart.
-/

namespace Daku.Desktop

open Daku.Base Daku.Protocol Daku.Wire
open Daku.Health (EnvironmentSummary HealthEventDto)

/-- How far apart digests are (`app.rs:334`). -/
def digestGap : Int := 20 * 3600

/-- The times of the digests so far, the one the preferences came with first. -/
def digestTimes (before : Option Int) (log : List Effect) : List Int :=
  before.toList ++ log.filterMap digestTime

/-- A message makes a window send digests now. -/
structure SendsDigest (tm : LocalTime) (settings : AppSettings) (w : Window) (d : Delivery)
    (now : Int) : Prop where
  main : w.detached = none
  environments : ∃ environments, d.message = .environmentsUpdated environments
  slot : isDigestSlot tm now = true
  wanted : settings.digestWeekly = true
  due : ∀ sent, settings.digestLastSent = some sent → sent + digestGap ≤ now

section Act

variable {tm : LocalTime} {fromStr : FromStr} {s t : AppProcess} {effects : List Effect}

theorem detached_receive (s : AppProcess) (w : Window) (d : Delivery) (now : Int) :
    (s.receive tm fromStr w d now).1.detached = w.detached := by
  rw [AppProcess.receive]
  split <;> rfl

/-- A window lists what the list of Environments says. -/
theorem environments_receive (s : AppProcess) (w : Window) (d : Delivery) (now : Int)
    {environments : List EnvironmentSummary} (h : d.message = .environmentsUpdated environments) :
    (s.receive tm fromStr w d now).1.notify.state.environments = environments := by
  rw [AppProcess.receive]
  split
  · rw [h]
    rfl
  · simp only [NotifyWindow.deliver, h]
    rfl

/-- Banners are not digests. -/
theorem not_digest_of_receive {s : AppProcess} {w : Window} {d : Delivery} {now time : Int}
    {ids : List String} : .digest time ids ∉ (s.receive tm fromStr w d now).2 := by
  intro hmem
  rw [AppProcess.receive] at hmem
  split at hmem
  · cases hmem
  · obtain ⟨offered, -, hbanner⟩ := Option.bind_eq_some_iff.mp (Option.mem_toList.mp hmem)
    obtain ⟨texts, -, heq⟩ := Option.map_eq_some_iff.mp hbanner
    cases heq

theorem filterMap_digestTime_receive (s : AppProcess) (w : Window) (d : Delivery) (now : Int) :
    (s.receive tm fromStr w d now).2.filterMap digestTime = [] := by
  rw [List.filterMap_eq_nil_iff]
  intro effect heffect
  cases effect with
  | digest time ids => exact absurd heffect not_digest_of_receive
  | _ => rfl

/-- What a message does about digests, after its banners. -/
theorem digest_of_message {window : ℕ} {d : Delivery} {now : Int} {saved : Bool} {w : Window}
    (hw : s.windows window = some w)
    (h : s.act tm fromStr (.message window d now saved) = some (t, effects)) :
    (SendsDigest tm s.settings w d now ∧ t.settings.digestLastSent = some now ∧
        ∃ environments, d.message = .environmentsUpdated environments ∧
          effects = (s.receive tm fromStr w d now).2 ++
            [.digest now (environments.map EnvironmentSummary.id)]) ∨
      (¬ SendsDigest tm s.settings w d now ∧
        t.settings.digestLastSent = s.settings.digestLastSent ∧
        effects = (s.receive tm fromStr w d now).2) := by
  simp only [AppProcess.act, Option.bind_eq_bind, hw, Option.bind_some] at h
  obtain ⟨rfl, rfl⟩ := Prod.mk.inj (Option.some.inj h)
  cases hmessage : d.message with
  | environmentsUpdated environments =>
    simp only [AppProcess.maybeSendWeeklyDigest, detached_receive,
      environments_receive s w d now hmessage]
    split
    · next hskip =>
      refine .inr ⟨fun hsends ↦ ?_, rfl, List.append_nil _⟩
      rcases hskip with hskip | hskip | hskip | hskip
      · rw [hsends.main] at hskip
        cases hskip
      · rw [hsends.slot] at hskip
        cases hskip
      · rw [hsends.wanted] at hskip
        cases hskip
      · cases hlast : s.settings.digestLastSent with
        | none =>
          rw [hlast] at hskip
          cases hskip
        | some sent =>
          have hdue := hsends.due sent hlast
          rw [hlast, Option.any_some, decide_eq_true_eq] at hskip
          rw [digestGap] at hdue
          omega
    · next hsend =>
      rw [not_or, not_or, not_or] at hsend
      obtain ⟨hmain, hslot, hwanted, hdue⟩ := hsend
      refine .inl ⟨⟨by simpa using hmain, ⟨environments, hmessage⟩, by simpa using hslot,
        by simpa using hwanted, fun sent hlast ↦ ?_⟩, ?_, environments, rfl, rfl⟩
      · rw [hlast, Option.any_some, decide_eq_true_eq] at hdue
        rw [digestGap]
        omega
      · rw [settings_put, settings_persist]
  | _ =>
    refine .inr ⟨fun hsends ↦ ?_, rfl, List.append_nil _⟩
    obtain ⟨environments, henvironments⟩ := hsends.environments
    rw [hmessage] at henvironments
    cases henvironments

/-- Changing a preference does not touch the time of the last digest. -/
theorem digestLastSent_preference (settings : AppSettings) (preference : Preference) :
    (preference.apply settings).digestLastSent = settings.digestLastSent := by
  cases preference <;> rfl

/-- No other action sends digests. -/
theorem digest_of_other {action : DesktopAction}
    (h : s.act tm fromStr action = some (t, effects)) (hsaved : SavedAtQuit (s, []) action)
    (haction : ∀ window d now saved, action ≠ .message window d now saved) :
    effects.filterMap digestTime = [] ∧
      t.settings.digestLastSent = s.settings.digestLastSent := by
  cases action with
  | restart now =>
    obtain ⟨rfl, rfl⟩ := Prod.mk.inj (Option.some.inj h)
    exact ⟨rfl, congrArg AppSettings.digestLastSent hsaved⟩
  | detach source window now =>
    simp only [AppProcess.act, Option.bind_eq_bind] at h
    obtain ⟨w, -, h⟩ := Option.bind_eq_some_iff.mp h
    split at h
    · cases h
    · split at h <;> obtain ⟨rfl, rfl⟩ := Prod.mk.inj (Option.some.inj h) <;> exact ⟨rfl, rfl⟩
  | close | select =>
    simp only [AppProcess.act, Option.bind_eq_bind] at h
    obtain ⟨w, -, h⟩ := Option.bind_eq_some_iff.mp h
    split at h <;> obtain ⟨rfl, rfl⟩ := Prod.mk.inj (Option.some.inj h) <;> exact ⟨rfl, rfl⟩
  | connect | render =>
    simp only [AppProcess.act, Option.bind_eq_bind] at h
    obtain ⟨w, -, h⟩ := Option.bind_eq_some_iff.mp h
    obtain ⟨rfl, rfl⟩ := Prod.mk.inj (Option.some.inj h)
    exact ⟨rfl, rfl⟩
  | message window d now saved => exact absurd rfl (haction window d now saved)
  | mute | unmute =>
    simp only [AppProcess.act, Option.bind_eq_bind] at h
    obtain ⟨w, -, h⟩ := Option.bind_eq_some_iff.mp h
    split at h <;> obtain ⟨rfl, rfl⟩ := Prod.mk.inj (Option.some.inj h)
    · exact ⟨rfl, rfl⟩
    · exact ⟨rfl, by rw [settings_put, settings_persist]⟩
  | change preference saved =>
    obtain ⟨rfl, rfl⟩ := Prod.mk.inj (Option.some.inj h)
    exact ⟨rfl, by rw [settings_persist, digestLastSent_preference]⟩

end Act

/-- The preferences have the time of the last digest, and the digests are apart. -/
structure Spaced (before : Option Int) (s : AppProcess × List Effect) : Prop where
  last : (digestTimes before s.2).getLast? = s.1.settings.digestLastSent
  apart : (digestTimes before s.2).Pairwise fun sent next ↦ sent + digestGap ≤ next

section Runs

variable {tm : LocalTime} {fromStr : FromStr} {file : AppSettings} {boot : Int}
  {s : AppProcess × List Effect} {before : Option Int}

/-- A digest is due exactly if none of the earlier ones is less than 20 hours ago. -/
theorem Spaced.due_iff (h : Spaced before s) (now : Int) :
    (∀ sent, s.1.settings.digestLastSent = some sent → sent + digestGap ≤ now) ↔
      ∀ sent ∈ digestTimes before s.2, sent + digestGap ≤ now := by
  rw [← h.last]
  constructor
  · intro hlast sent hsent
    obtain ⟨latest, hlatest⟩ := Option.isSome_iff_exists.mp
      (List.getLast?_isSome.mpr (List.ne_nil_of_mem hsent))
    have hgap : 0 ≤ digestGap := by decide
    obtain ⟨earlier, hsplit⟩ : ∃ earlier, digestTimes before s.2 = earlier ++ [latest] :=
      ⟨_, (List.dropLast_append_getLast? latest hlatest).symm⟩
    have hdue := hlast latest hlatest
    have hapart := h.apart
    rw [hsplit] at hsent hapart
    rcases List.mem_append.mp hsent with hsent | hsent
    · have hle := (List.pairwise_append.mp hapart).2.2 sent hsent latest List.mem_cons_self
      omega
    · rw [List.mem_singleton.mp hsent]
      exact hdue
  · intro hall sent hsent
    exact hall sent (List.mem_of_getLast? hsent)

/-- Every action keeps the digests apart. -/
theorem Spaced.step {action : DesktopAction} {t : AppProcess × List Effect} (h : Spaced before s)
    (hsaved : SavedAtQuit s action) (hstep : (desktop tm fromStr).step s action = some t) :
    Spaced before t := by
  obtain ⟨⟨next, effects⟩, hact, rfl⟩ := Option.map_eq_some_iff.mp hstep
  have htimes : digestTimes before (s.2 ++ effects) =
      digestTimes before s.2 ++ effects.filterMap digestTime := by
    rw [digestTimes, digestTimes, List.filterMap_append, List.append_assoc]
  have hquiet : effects.filterMap digestTime = [] ∧
      next.settings.digestLastSent = s.1.settings.digestLastSent →
      Spaced before (next, s.2 ++ effects) := by
    rintro ⟨hnone, hsame⟩
    refine ⟨?_, ?_⟩ <;> rw [htimes, hnone, List.append_nil]
    · exact h.last.trans hsame.symm
    · exact h.apart
  by_cases hmessage : ∃ window d now saved, action = .message window d now saved
  · obtain ⟨window, d, now, saved, rfl⟩ := hmessage
    obtain ⟨w, hw, -⟩ := Option.bind_eq_some_iff.mp hact
    rcases digest_of_message hw hact with
      ⟨hsends, hlast, environments, -, rfl⟩ | ⟨-, hlast, rfl⟩
    · have hsent : ((s.1.receive tm fromStr w d now).2 ++
          [Effect.digest now (environments.map EnvironmentSummary.id)]).filterMap digestTime =
            [now] := by
        rw [List.filterMap_append, filterMap_digestTime_receive]
        rfl
      refine ⟨?_, ?_⟩ <;> rw [htimes, hsent]
      · rw [List.getLast?_append, List.getLast?_singleton, Option.some_or, hlast]
      · rw [List.pairwise_append]
        refine ⟨h.apart, List.pairwise_singleton _ _, fun sent hmem last hlast ↦ ?_⟩
        rw [List.mem_singleton.mp hlast]
        exact (h.due_iff now).mp hsends.due sent hmem
    · exact hquiet ⟨filterMap_digestTime_receive .., hlast⟩
  · have hother : ∀ window d now saved, action ≠ .message window d now saved :=
      fun window d now saved heq ↦ hmessage ⟨window, d, now, saved, heq⟩
    have hsaved' : SavedAtQuit (s.1, []) action := by
      cases action with
      | restart => exact hsaved
      | _ => trivial
    exact hquiet (digest_of_other hact hsaved' hother)

theorem spaced_run {actions : List DesktopAction}
    (hsaved : (desktop tm fromStr).Meets SavedAtQuit (.start file boot, []) actions)
    (hrun : (desktop tm fromStr).run (.start file boot, []) actions = some s) :
    Spaced file.digestLastSent s := by
  have hstart : Spaced file.digestLastSent (AppProcess.start file boot, []) := by
    have htimes : digestTimes file.digestLastSent [] = file.digestLastSent.toList :=
      List.append_nil _
    refine ⟨?_, ?_⟩ <;> rw [htimes]
    · change file.digestLastSent.toList.getLast? = file.digestLastSent
      cases file.digestLastSent <;> rfl
    · cases file.digestLastSent with
      | none => exact .nil
      | some sent => exact List.pairwise_singleton _ _
  exact Machine.run_induction (I := fun _ s ↦ Spaced file.digestLastSent s) hstart
    (fun h hgood hstep ↦ h.step hgood hstep) hsaved hrun

end Runs

/-- Over every run of the desktop that quits with its preferences saved, any two rounds of
digests, also of different processes, are 20 hours apart. A window sends one exactly when it is
the main one and gets the list of Environments, in the slot, with digests wanted and no round of
the last 20 hours; and then for every Environment of the list. -/
theorem weekly_digest (tm : LocalTime) (fromStr : FromStr) (file : AppSettings) (boot : Int)
    (actions : List DesktopAction) (s : AppProcess × List Effect)
    (hsaved : (desktop tm fromStr).Meets SavedAtQuit (.start file boot, []) actions)
    (hrun : (desktop tm fromStr).run (.start file boot, []) actions = some s) :
    ((digestTimes file.digestLastSent s.2).Pairwise fun sent next ↦ sent + digestGap ≤ next) ∧
    ∀ window w d now saved t effects, s.1.windows window = some w →
      s.1.act tm fromStr (.message window d now saved) = some (t, effects) →
      ∀ ids, .digest now ids ∈ effects ↔
        w.detached = none ∧ isDigestSlot tm now = true ∧ s.1.settings.digestWeekly = true ∧
        (∀ sent ∈ digestTimes file.digestLastSent s.2, sent + digestGap ≤ now) ∧
        ∃ environments, d.message = .environmentsUpdated environments ∧
          ids = environments.map EnvironmentSummary.id := by
  have hspaced := spaced_run hsaved hrun
  refine ⟨hspaced.apart, fun window w d now saved t effects hw hact ids ↦ ?_⟩
  rw [← hspaced.due_iff now]
  rcases digest_of_message hw hact with ⟨hsends, -, environments, hmessage, rfl⟩ | ⟨hskips, -, rfl⟩
  · rw [List.mem_append, List.mem_singleton]
    constructor
    · rintro (hmem | heq)
      · exact absurd hmem not_digest_of_receive
      · exact ⟨hsends.main, hsends.slot, hsends.wanted, hsends.due, environments, hmessage,
          (Effect.digest.inj heq).2⟩
    · rintro ⟨-, -, -, -, others, hothers, rfl⟩
      rw [hmessage] at hothers
      obtain rfl := ServerMessage.environmentsUpdated.inj hothers
      exact .inr rfl
  · refine ⟨fun hmem ↦ absurd hmem not_digest_of_receive, ?_⟩
    rintro ⟨hmain, hslot, hwanted, hdue, environments, hmessage, -⟩
    exact absurd ⟨hmain, ⟨environments, hmessage⟩, hslot, hwanted, hdue⟩ hskips

/-- A clock on which it is always Monday noon. -/
def monday : LocalTime := ⟨fun _ ↦ 12, fun _ ↦ 1⟩

/-- Digests are switched on, two of three lists of Environments send one, and the process starts
again in between. -/
def mondays : List DesktopAction :=
  [.change .toggleWeeklyDigest true,
    .message 0 ⟨.environmentsUpdated [waitingSummary "prod"], .sorted⟩ 100000 true,
    .message 0 ⟨.environmentsUpdated [waitingSummary "prod"], .sorted⟩ 150000 true,
    .restart 160000,
    .message 0 ⟨.environmentsUpdated [waitingSummary "prod"], .sorted⟩ 180000 true]

theorem weekly_digest_mondays :
    ∃ s, (desktop monday fun _ ↦ none).run (.start .default 0, []) mondays = some s ∧
      digestTimes none s.2 = [100000, 180000] ∧
      (digestTimes none s.2).Pairwise fun sent next ↦ sent + digestGap ≤ next := by
  have hlog : ((desktop monday fun _ ↦ none).run (.start .default 0, []) mondays).map
      (fun s ↦ digestTimes none s.2) = some [100000, 180000] := by
    decide +kernel
  have hsaves : ∀ a ∈ mondays, Saves a := by
    intro a ha
    simp only [mondays, List.mem_cons, List.not_mem_nil, or_false] at ha
    rcases ha with rfl | rfl | rfl | rfl | rfl <;> trivial
  obtain ⟨s, hrun, hlog⟩ := Option.map_eq_some_iff.mp hlog
  exact ⟨s, hrun, hlog, (weekly_digest monday (fun _ ↦ none) .default 0 mondays s
    (savedAtQuit_of_saves hsaves rfl) hrun).1⟩

end Daku.Desktop
