import Daku.Desktop.Windows

/-!
# Mutes hold in every window

The preferences have the mutes that the log records, across restarts, and a window that was
rendered goes by them until another window changes one.
-/

namespace Daku.Desktop

open Daku.Base Daku.Protocol Daku.Wire
open Daku.Health (EnvironmentSummary HealthEventDto)

/-- What may happen while a window is not rendered: mutes are changed by this window only. -/
def LeavesMutes (window : ℕ) : DesktopAction → Prop
  | .restart _ => False
  | .detach _ other _ => other ≠ window
  | .render other _ => other ≠ window
  | .mute other _ _ _ => other = window
  | .unmute other _ => other = window
  | _ => True

/-- The window as it is when muted Environments are not listed, and none is muted. -/
def Window.unmutedOnly (w : Window) (mutes : String → Option Int) (now : Int) : Window :=
  { w with
    notify := { w.notify with
      state := { w.notify.state with
        environments := w.notify.state.environments.filter fun e ↦ !muteActive mutes e.id now } }
    mutes := fun _ ↦ none }

/-- From a time on the window goes by the mutes of the preferences. -/
def InStep (since : Int) (s : AppProcess) (window : ℕ) : Prop :=
  ∀ w, s.windows window = some w → ∀ id now, since ≤ now →
    w.isMuted id now = muteActive s.settings.mutes id now

section Act

variable {tm : LocalTime} {fromStr : FromStr} {s t : AppProcess} {effects : List Effect}

@[simp] theorem windows_persist (s : AppProcess) (saved : Bool) :
    (s.persist saved).windows = s.windows := by
  rw [AppProcess.persist]
  split <;> rfl

@[simp] theorem settings_persist (s : AppProcess) (saved : Bool) :
    (s.persist saved).settings = s.settings := by
  rw [AppProcess.persist]
  split <;> rfl

@[simp] theorem settings_put (s : AppProcess) (window : ℕ) (w : Window) :
    (s.put window w).settings = s.settings := rfl

@[simp] theorem windows_put_self (s : AppProcess) (window : ℕ) (w : Window) :
    (s.put window w).windows window = some w := Function.update_self ..

theorem windows_put_of_ne {window other : ℕ} (h : other ≠ window) (s : AppProcess) (w : Window) :
    (s.put window w).windows other = s.windows other := Function.update_of_ne h ..

@[simp] theorem mutes_select (w : Window) (id : String) : (w.select id).mutes = w.mutes := rfl

@[simp] theorem mutes_repin (w : Window) : (AppProcess.repin w).mutes = w.mutes := by
  rw [AppProcess.repin]
  split <;> rfl

@[simp] theorem mutes_receive (s : AppProcess) (w : Window) (d : Delivery) (now : Int) :
    (s.receive tm fromStr w d now).1.mutes = w.mutes := by
  rw [AppProcess.receive]
  split <;> rfl

/-- Changing a preference changes no mute. -/
@[simp] theorem mutes_preference (settings : AppSettings) (preference : Preference) :
    (preference.apply settings).mutes = settings.mutes := by
  cases preference <;> rfl

/-- Sending digests changes the time of the last one only. -/
theorem of_maybeSendWeeklyDigest (s : AppProcess) (tm : LocalTime) (w : Window) (now : Int)
    (saved : Bool) :
    (s.maybeSendWeeklyDigest tm w now saved).1.windows = s.windows ∧
      (s.maybeSendWeeklyDigest tm w now saved).1.settings.mutes = s.settings.mutes ∧
      ∀ id, (s.maybeSendWeeklyDigest tm w now saved).2.filterMap (muteOf id) = [] := by
  rw [AppProcess.maybeSendWeeklyDigest]
  split
  · exact ⟨rfl, rfl, fun _ ↦ rfl⟩
  · exact ⟨windows_persist .., by rw [settings_persist], fun _ ↦ rfl⟩

/-- Banners are not mutes. -/
theorem filterMap_muteOf_receive (s : AppProcess) (w : Window) (d : Delivery) (now : Int)
    (id : String) : (s.receive tm fromStr w d now).2.filterMap (muteOf id) = [] := by
  rw [List.filterMap_eq_nil_iff]
  intro effect heffect
  rw [AppProcess.receive] at heffect
  split at heffect
  · cases heffect
  · obtain ⟨offered, -, hbanner⟩ := Option.bind_eq_some_iff.mp (Option.mem_toList.mp heffect)
    obtain ⟨texts, -, rfl⟩ := Option.map_eq_some_iff.mp hbanner
    rfl

/-- What a message does: the window keeps its mutes, and so do the preferences. -/
theorem of_act_message {window : ℕ} {d : Delivery} {now : Int} {saved : Bool}
    (h : s.act tm fromStr (.message window d now saved) = some (t, effects)) :
    ∃ w w', s.windows window = some w ∧ w'.mutes = w.mutes ∧
      t.windows = Function.update s.windows window (some w') ∧
      t.settings.mutes = s.settings.mutes ∧ ∀ id, effects.filterMap (muteOf id) = [] := by
  simp only [AppProcess.act, Option.bind_eq_bind] at h
  obtain ⟨w, hw, h⟩ := Option.bind_eq_some_iff.mp h
  obtain ⟨rfl, rfl⟩ := Prod.mk.inj (Option.some.inj h)
  refine ⟨w, AppProcess.repin (s.receive tm fromStr w d now).1, hw, by simp, ?_⟩
  have hdigest := of_maybeSendWeeklyDigest s tm (s.receive tm fromStr w d now).1 now saved
  split
  · obtain ⟨hwindows, hmutes, heffects⟩ := hdigest
    refine ⟨by rw [AppProcess.put, hwindows], hmutes, fun id ↦ ?_⟩
    rw [List.filterMap_append, filterMap_muteOf_receive, heffects]
    rfl
  · refine ⟨rfl, rfl, fun id ↦ ?_⟩
    rw [List.append_nil, filterMap_muteOf_receive]

/-- Where nothing is muted or unmuted, the recorded mutes stay. -/
theorem recordedMutes_of_nil (h : ∀ id, effects.filterMap (muteOf id) = [])
    (before : String → Option Int) : recordedMutes before effects = before := by
  funext id
  rw [recordedMutes, lastWrite, h, List.getLast?_nil, Option.getD_none]

/-- One recorded mute or unmute. -/
theorem recordedMutes_muted (before : String → Option Int) (id : String) (deadline : Int) :
    recordedMutes before [.muted id deadline] = Function.update before id (some deadline) := by
  funext other
  rw [recordedMutes, lastWrite_cons, lastWrite_nil, muteOf, Function.update_apply]
  by_cases h : other = id
  · rw [if_pos h.symm, if_pos h, Option.getD_some]
  · rw [if_neg (Ne.symm h), if_neg h, Option.getD_none]

theorem recordedMutes_unmuted (before : String → Option Int) (id : String) :
    recordedMutes before [.unmuted id] = Function.update before id none := by
  funext other
  rw [recordedMutes, lastWrite_cons, lastWrite_nil, muteOf, Function.update_apply]
  by_cases h : other = id
  · rw [if_pos h.symm, if_pos h, Option.getD_some]
  · rw [if_neg (Ne.symm h), if_neg h, Option.getD_none]

/-- Every action changes the preferences' mutes as it is recorded. -/
theorem mutes_act {action : DesktopAction} (h : s.act tm fromStr action = some (t, effects))
    (hsaved : SavedAtQuit (s, []) action) :
    t.settings.mutes = recordedMutes s.settings.mutes effects := by
  cases action with
  | restart now =>
    obtain ⟨rfl, rfl⟩ := Prod.mk.inj (Option.some.inj h)
    exact congrArg AppSettings.mutes hsaved
  | detach source window now =>
    simp only [AppProcess.act, Option.bind_eq_bind] at h
    obtain ⟨w, -, h⟩ := Option.bind_eq_some_iff.mp h
    split at h
    · cases h
    · split at h <;> obtain ⟨rfl, rfl⟩ := Prod.mk.inj (Option.some.inj h) <;> rfl
  | close window =>
    simp only [AppProcess.act, Option.bind_eq_bind] at h
    obtain ⟨w, -, h⟩ := Option.bind_eq_some_iff.mp h
    split at h <;> obtain ⟨rfl, rfl⟩ := Prod.mk.inj (Option.some.inj h) <;> rfl
  | connect window connected =>
    simp only [AppProcess.act, Option.bind_eq_bind] at h
    obtain ⟨w, -, h⟩ := Option.bind_eq_some_iff.mp h
    obtain ⟨rfl, rfl⟩ := Prod.mk.inj (Option.some.inj h)
    rfl
  | message window d now saved =>
    obtain ⟨-, -, -, -, -, hmutes, heffects⟩ := of_act_message h
    rw [hmutes, recordedMutes_of_nil heffects]
  | render window now =>
    simp only [AppProcess.act, Option.bind_eq_bind] at h
    obtain ⟨w, -, h⟩ := Option.bind_eq_some_iff.mp h
    obtain ⟨rfl, rfl⟩ := Prod.mk.inj (Option.some.inj h)
    rfl
  | select window id =>
    simp only [AppProcess.act, Option.bind_eq_bind] at h
    obtain ⟨w, -, h⟩ := Option.bind_eq_some_iff.mp h
    split at h <;> obtain ⟨rfl, rfl⟩ := Prod.mk.inj (Option.some.inj h) <;> rfl
  | mute window secs now saved =>
    simp only [AppProcess.act, Option.bind_eq_bind] at h
    obtain ⟨w, -, h⟩ := Option.bind_eq_some_iff.mp h
    split at h <;> obtain ⟨rfl, rfl⟩ := Prod.mk.inj (Option.some.inj h)
    · rfl
    · rw [recordedMutes_muted, settings_put, settings_persist]
  | unmute window saved =>
    simp only [AppProcess.act, Option.bind_eq_bind] at h
    obtain ⟨w, -, h⟩ := Option.bind_eq_some_iff.mp h
    split at h <;> obtain ⟨rfl, rfl⟩ := Prod.mk.inj (Option.some.inj h)
    · rfl
    · rw [recordedMutes_unmuted, settings_put, settings_persist]
  | change preference saved =>
    obtain ⟨rfl, rfl⟩ := Prod.mk.inj (Option.some.inj h)
    rw [settings_persist, mutes_preference]
    rfl

end Act

section InStep

variable {tm : LocalTime} {fromStr : FromStr} {s t : AppProcess} {effects : List Effect}
  {since : Int} {window : ℕ}

/-- A window that only changes elsewhere stays in step. -/
theorem InStep.of_windows (h : InStep since s window)
    (hmutes : t.settings.mutes = s.settings.mutes)
    (hwindow : ∀ w', t.windows window = some w' →
      ∃ w, s.windows window = some w ∧ w'.mutes = w.mutes) : InStep since t window := by
  intro w' hw' id now hnow
  obtain ⟨w, hw, heq⟩ := hwindow w' hw'
  rw [Window.isMuted, heq, hmutes]
  exact h w hw id now hnow

/-- A window is put in its place, with the mutes it had. -/
theorem InStep.put {other : ℕ} {w w' : Window} (h : InStep since s window)
    (hmutes : other = window → s.windows other = some w ∧ w'.mutes = w.mutes) :
    InStep since (s.put other w') window := by
  refine h.of_windows rfl fun v hv ↦ ?_
  by_cases hother : window = other
  · subst hother
    rw [windows_put_self] at hv
    obtain rfl := Option.some.inj hv
    exact ⟨w, hmutes rfl⟩
  · rw [windows_put_of_ne hother] at hv
    exact ⟨v, hv, rfl⟩

/-- The window changes a mute together with the preferences. -/
theorem InStep.update {w : Window} (h : InStep since s window) (hw : s.windows window = some w)
    (id : String) (deadline : Option Int) (saved : Bool) :
    InStep since (((AppProcess.persist { s with
        settings := { s.settings with mutes := Function.update s.settings.mutes id deadline } }
          saved).put window { w with mutes := Function.update w.mutes id deadline })) window := by
  intro w' hw' other now hnow
  rw [windows_put_self] at hw'
  obtain rfl := Option.some.inj hw'
  rw [settings_put, settings_persist]
  have hbefore := h w hw other now hnow
  by_cases hother : other = id
  · subst hother
    simp only [Window.isMuted, muteActive, Function.update_self]
  · simpa only [Window.isMuted, muteActive, Function.update_of_ne hother] using hbefore

/-- What happens while a window is not rendered keeps it in step. -/
theorem InStep.act {action : DesktopAction} (h : InStep since s window)
    (hleaves : LeavesMutes window action)
    (hact : s.act tm fromStr action = some (t, effects)) : InStep since t window := by
  cases action with
  | restart => exact absurd hleaves not_false
  | detach source other now =>
    simp only [AppProcess.act, Option.bind_eq_bind] at hact
    obtain ⟨w, -, hact⟩ := Option.bind_eq_some_iff.mp hact
    split at hact
    · cases hact
    · split at hact <;> obtain ⟨rfl, rfl⟩ := Prod.mk.inj (Option.some.inj hact)
      · exact h
      · exact h.put (w := w) fun hother ↦ absurd hother hleaves
  | close other =>
    simp only [AppProcess.act, Option.bind_eq_bind] at hact
    obtain ⟨w, -, hact⟩ := Option.bind_eq_some_iff.mp hact
    split at hact <;> obtain ⟨rfl, rfl⟩ := Prod.mk.inj (Option.some.inj hact)
    · exact h
    · refine h.of_windows rfl fun v hv ↦ ⟨v, ?_, rfl⟩
      change Function.update s.windows other none window = some v at hv
      by_cases hother : window = other
      · subst hother
        rw [Function.update_self] at hv
        cases hv
      · rwa [Function.update_of_ne hother] at hv
  | connect other connected =>
    simp only [AppProcess.act, Option.bind_eq_bind] at hact
    obtain ⟨w, hw, hact⟩ := Option.bind_eq_some_iff.mp hact
    obtain ⟨rfl, rfl⟩ := Prod.mk.inj (Option.some.inj hact)
    exact h.put fun _ ↦ ⟨hw, rfl⟩
  | message other d now saved =>
    obtain ⟨w, w', hw, hmutes, hwindows, hsettings, -⟩ := of_act_message hact
    refine h.of_windows hsettings fun v hv ↦ ?_
    rw [hwindows] at hv
    by_cases hother : window = other
    · subst hother
      rw [Function.update_self] at hv
      obtain rfl := Option.some.inj hv
      exact ⟨w, hw, hmutes⟩
    · rw [Function.update_of_ne hother] at hv
      exact ⟨v, hv, rfl⟩
  | render other now =>
    simp only [AppProcess.act, Option.bind_eq_bind] at hact
    obtain ⟨w, -, hact⟩ := Option.bind_eq_some_iff.mp hact
    obtain ⟨rfl, rfl⟩ := Prod.mk.inj (Option.some.inj hact)
    exact h.put (w := w) fun hother ↦ absurd hother hleaves
  | select other id =>
    simp only [AppProcess.act, Option.bind_eq_bind] at hact
    obtain ⟨w, hw, hact⟩ := Option.bind_eq_some_iff.mp hact
    split at hact <;> obtain ⟨rfl, rfl⟩ := Prod.mk.inj (Option.some.inj hact)
    · exact h
    · exact h.put fun _ ↦ ⟨hw, rfl⟩
  | mute other secs now saved =>
    obtain rfl : other = window := hleaves
    simp only [AppProcess.act, Option.bind_eq_bind] at hact
    obtain ⟨w, hw, hact⟩ := Option.bind_eq_some_iff.mp hact
    split at hact <;> obtain ⟨rfl, rfl⟩ := Prod.mk.inj (Option.some.inj hact)
    · exact h
    · exact h.update hw _ _ saved
  | unmute other saved =>
    obtain rfl : other = window := hleaves
    simp only [AppProcess.act, Option.bind_eq_bind] at hact
    obtain ⟨w, hw, hact⟩ := Option.bind_eq_some_iff.mp hact
    split at hact <;> obtain ⟨rfl, rfl⟩ := Prod.mk.inj (Option.some.inj hact)
    · exact h
    · exact h.update hw _ _ saved
  | change preference saved =>
    obtain ⟨rfl, rfl⟩ := Prod.mk.inj (Option.some.inj hact)
    refine h.of_windows ?_ fun v hv ↦ ⟨v, by rwa [windows_persist] at hv, rfl⟩
    rw [settings_persist, mutes_preference]

/-- A deadline that is dropped because it has passed has passed at every later time too. -/
theorem muteActive_filter (mutes : String → Option Int) (id : String) {now later : Int}
    (hlater : now ≤ later) :
    muteActive (fun id ↦ (mutes id).filter fun deadline ↦ now < deadline) id later =
      muteActive mutes id later := by
  rw [muteActive, muteActive]
  cases mutes id with
  | none => rfl
  | some deadline =>
    by_cases hpassed : now < deadline
    · simp [hpassed]
    · have hpast : ¬ later < deadline := by omega
      simp [hpassed, hpast]

/-- Rendering brings a window in step. -/
theorem inStep_render {now : Int}
    (hact : s.act tm fromStr (.render window now) = some (t, effects)) : InStep now t window := by
  simp only [AppProcess.act, Option.bind_eq_bind] at hact
  obtain ⟨w, hw, hact⟩ := Option.bind_eq_some_iff.mp hact
  obtain ⟨rfl, rfl⟩ := Prod.mk.inj (Option.some.inj hact)
  intro w' hw' id later hlater
  rw [windows_put_self] at hw'
  obtain rfl := Option.some.inj hw'
  exact muteActive_filter s.settings.mutes id hlater

end InStep

section Runs

variable {tm : LocalTime} {fromStr : FromStr} {file : AppSettings} {boot : Int}
  {s : AppProcess × List Effect}

/-- The preferences have the mutes that are recorded. -/
theorem mutes_run {actions : List DesktopAction}
    (hsaved : (desktop tm fromStr).Meets SavedAtQuit (.start file boot, []) actions)
    (hrun : (desktop tm fromStr).run (.start file boot, []) actions = some s) :
    s.1.settings.mutes = recordedMutes file.mutes s.2 := by
  refine Machine.run_induction (I := fun _ s ↦ s.1.settings.mutes = recordedMutes file.mutes s.2)
    rfl ?_ hsaved hrun
  rintro done ⟨u, log⟩ action ⟨v, log'⟩ hu hgood hstep
  obtain ⟨⟨v, effects⟩, hact, heq⟩ := Option.map_eq_some_iff.mp hstep
  obtain ⟨rfl, rfl⟩ := Prod.mk.inj heq
  rw [mutes_act hact hgood, hu]
  funext id
  exact (lastWrite_append log effects).symm

/-- Since its last rendering the window is in step. -/
theorem inStep_run {before after : List DesktopAction} {window : ℕ} {since : Int}
    (hafter : ∀ action ∈ after, LeavesMutes window action)
    (hrun : (desktop tm fromStr).run (.start file boot, [])
      (before ++ .render window since :: after) = some s) : InStep since s.1 window := by
  obtain ⟨u, -, hrest⟩ := Machine.run_append.mp hrun
  obtain ⟨v, hrender, hrest⟩ := Machine.run_cons.mp hrest
  obtain ⟨⟨v, effects⟩, hact, rfl⟩ := Option.map_eq_some_iff.mp hrender
  have hleaves : (desktop tm fromStr).Meets (fun _ action ↦ LeavesMutes window action)
      (v, u.2 ++ effects) after := Machine.meets_of_forall (fun action h _ ↦ hafter action h) _
  refine Machine.run_induction (I := fun _ s ↦ InStep since s.1 window) (inStep_render hact) ?_
    hleaves hrest
  rintro done ⟨p, log⟩ action ⟨q, log'⟩ hp hleaves hstep
  obtain ⟨⟨q, effects⟩, hact, heq⟩ := Option.map_eq_some_iff.mp hstep
  obtain ⟨rfl, rfl⟩ := Prod.mk.inj heq
  exact hp.act hleaves hact

end Runs

section Saved

variable {tm : LocalTime} {fromStr : FromStr} {s t : AppProcess} {effects : List Effect}

/-- The action saves what it changes. -/
def Saves : DesktopAction → Prop
  | .message _ _ _ saved => saved = true
  | .mute _ _ _ saved => saved = true
  | .unmute _ saved => saved = true
  | .change _ saved => saved = true
  | _ => True

theorem file_maybeSendWeeklyDigest (h : s.file = s.settings) (w : Window) (now : Int) :
    (s.maybeSendWeeklyDigest tm w now true).1.file =
      (s.maybeSendWeeklyDigest tm w now true).1.settings := by
  rw [AppProcess.maybeSendWeeklyDigest]
  split
  · exact h
  · rfl

/-- An action that saves leaves nothing unsaved. -/
theorem file_act {action : DesktopAction} (hact : s.act tm fromStr action = some (t, effects))
    (hsaves : Saves action) (h : s.file = s.settings) : t.file = t.settings := by
  cases action with
  | restart =>
    obtain ⟨rfl, rfl⟩ := Prod.mk.inj (Option.some.inj hact)
    rfl
  | detach =>
    simp only [AppProcess.act, Option.bind_eq_bind] at hact
    obtain ⟨w, -, hact⟩ := Option.bind_eq_some_iff.mp hact
    split at hact
    · cases hact
    · split at hact <;> obtain ⟨rfl, rfl⟩ := Prod.mk.inj (Option.some.inj hact) <;> exact h
  | close | select =>
    simp only [AppProcess.act, Option.bind_eq_bind] at hact
    obtain ⟨w, -, hact⟩ := Option.bind_eq_some_iff.mp hact
    split at hact <;> obtain ⟨rfl, rfl⟩ := Prod.mk.inj (Option.some.inj hact) <;> exact h
  | connect | render =>
    simp only [AppProcess.act, Option.bind_eq_bind] at hact
    obtain ⟨w, -, hact⟩ := Option.bind_eq_some_iff.mp hact
    obtain ⟨rfl, rfl⟩ := Prod.mk.inj (Option.some.inj hact)
    exact h
  | message window d now saved =>
    obtain rfl : saved = true := hsaves
    simp only [AppProcess.act, Option.bind_eq_bind] at hact
    obtain ⟨w, -, hact⟩ := Option.bind_eq_some_iff.mp hact
    obtain ⟨rfl, rfl⟩ := Prod.mk.inj (Option.some.inj hact)
    have hdigest := @file_maybeSendWeeklyDigest tm _ h (s.receive tm fromStr w d now).1 now
    split
    · exact hdigest
    · exact h
  | mute window secs now saved =>
    obtain rfl : saved = true := hsaves
    simp only [AppProcess.act, Option.bind_eq_bind] at hact
    obtain ⟨w, -, hact⟩ := Option.bind_eq_some_iff.mp hact
    split at hact <;> obtain ⟨rfl, rfl⟩ := Prod.mk.inj (Option.some.inj hact)
    · exact h
    · rfl
  | unmute window saved =>
    obtain rfl : saved = true := hsaves
    simp only [AppProcess.act, Option.bind_eq_bind] at hact
    obtain ⟨w, -, hact⟩ := Option.bind_eq_some_iff.mp hact
    split at hact <;> obtain ⟨rfl, rfl⟩ := Prod.mk.inj (Option.some.inj hact)
    · exact h
    · rfl
  | change preference saved =>
    obtain rfl : saved = true := hsaves
    obtain ⟨rfl, rfl⟩ := Prod.mk.inj (Option.some.inj hact)
    rfl

/-- Where every save succeeds, the process quits with its preferences saved. -/
theorem savedAtQuit_of_saves {actions : List DesktopAction} (hsaves : ∀ a ∈ actions, Saves a)
    {s : AppProcess × List Effect} (h : s.1.file = s.1.settings) :
    (desktop tm fromStr).Meets SavedAtQuit s actions := by
  induction actions generalizing s with
  | nil => trivial
  | cons action actions ih =>
    refine ⟨?_, fun t ht ↦ ih (fun a ha ↦ hsaves a (List.mem_cons_of_mem _ ha)) ?_⟩
    · cases action with
      | restart => exact h
      | _ => trivial
    · obtain ⟨⟨t, effects⟩, hact, rfl⟩ := Option.map_eq_some_iff.mp ht
      exact file_act hact (hsaves action List.mem_cons_self) h

end Saved

section Attention

variable {tm : LocalTime} {fromStr : FromStr} {w : Window} {mutes : String → Option Int}
  {now : Int}

/-- The menu bar and the Dock leave out what is muted. -/
theorem ambient_unmutedOnly (h : ∀ id, w.isMuted id now = muteActive mutes id now) :
    w.ambient now = (w.unmutedOnly mutes now).ambient now := by
  have hattended : w.attended now = (w.unmutedOnly mutes now).attended now := by
    have hnone : ∀ id, (w.unmutedOnly mutes now).isMuted id now = false := fun _ ↦ rfl
    simp only [Window.attended, Window.unmutedOnly, h]
    change _ = List.filter (fun e ↦ !(w.unmutedOnly mutes now).isMuted e.id now) _
    simp only [hnone, Bool.not_false, List.filter_true]
    rw [List.filter_filter, List.filter_filter]
    exact List.filter_congr fun e _ ↦ Bool.and_comm ..
  simp only [Window.ambient, Window.worstHealthExcludingMuted, Window.troubledCount, hattended]
  rfl

/-- A message posts no banner about an Environment that the window mutes. -/
theorem not_muted_of_banner {s t : AppProcess} {effects : List Effect} {window : ℕ} {d : Delivery}
    {saved : Bool} {id title body : String} (hw : s.windows window = some w)
    (h : s.act tm fromStr (.message window d now saved) = some (t, effects))
    (hbanner : .banner id title body ∈ effects) : w.isMuted id now = false := by
  simp only [AppProcess.act, Option.bind_eq_bind, hw, Option.bind_some] at h
  obtain ⟨rfl, rfl⟩ := Prod.mk.inj (Option.some.inj h)
  rcases List.mem_append.mp hbanner with hbanner | hbanner
  · rw [AppProcess.receive] at hbanner
    split at hbanner
    · cases hbanner
    · obtain ⟨⟨other, event⟩, -, hposted⟩ :=
        Option.bind_eq_some_iff.mp (Option.mem_toList.mp hbanner)
      obtain ⟨texts, htexts, heq⟩ := Option.map_eq_some_iff.mp hposted
      obtain ⟨rfl, -, -⟩ := Effect.banner.inj heq
      rw [DashboardState.banner] at htexts
      split at htexts
      · next hgate =>
        simp only [gateAllows, Bool.and_eq_true, Bool.not_eq_true'] at hgate
        exact hgate.1.1.2
      · cases htexts
  · split at hbanner
    · rw [AppProcess.maybeSendWeeklyDigest] at hbanner
      split at hbanner
      · cases hbanner
      · simp at hbanner
    · cases hbanner

end Attention

/-- Over every run of the desktop that quits with its preferences saved: since its last rendering
a window mutes what the Operators' last words mute, in whatever window and process they were said,
as long as other windows change no mute. What it shows in the menu bar and the Dock is as without
the muted Environments, and it posts no banner about one. -/
theorem mutes_shared (tm : LocalTime) (fromStr : FromStr) (file : AppSettings) (boot : Int)
    (before after : List DesktopAction) (window : ℕ) (since now : Int)
    (s : AppProcess × List Effect) (w : Window)
    (hsaved : (desktop tm fromStr).Meets SavedAtQuit (.start file boot, [])
      (before ++ .render window since :: after))
    (hafter : ∀ action ∈ after, LeavesMutes window action)
    (hrun : (desktop tm fromStr).run (.start file boot, [])
      (before ++ .render window since :: after) = some s)
    (hw : s.1.windows window = some w) (hnow : since ≤ now) :
    (∀ id, w.isMuted id now = muteActive (recordedMutes file.mutes s.2) id now) ∧
    w.ambient now = (w.unmutedOnly (recordedMutes file.mutes s.2) now).ambient now ∧
    ∀ d saved t effects, s.1.act tm fromStr (.message window d now saved) = some (t, effects) →
      ∀ id title body, .banner id title body ∈ effects →
        muteActive (recordedMutes file.mutes s.2) id now = false := by
  have hmuted : ∀ id, w.isMuted id now = muteActive (recordedMutes file.mutes s.2) id now := by
    intro id
    rw [inStep_run hafter hrun w hw id now hnow, mutes_run hsaved hrun]
  refine ⟨hmuted, ambient_unmutedOnly hmuted, ?_⟩
  intro d saved t effects hact id title body hbanner
  rw [← hmuted id]
  exact not_muted_of_banner hw hact hbanner

/-- A clock without a Monday. -/
def sunday : LocalTime := ⟨fun _ ↦ 12, fun _ ↦ 0⟩

/-- Two windows of prod; the detached one mutes it, and the process starts again. -/
def mutedElsewhere : List DesktopAction :=
  [.message 0 ⟨.environmentsUpdated [waitingSummary "prod"], .sorted⟩ 10 true,
    .detach 0 1 11, .message 1 ⟨.environmentsUpdated [waitingSummary "prod"], .sorted⟩ 12 true,
    .mute 1 3600 13 true, .close 1, .restart 20]

theorem mutes_shared_elsewhere :
    ∃ s w, (desktop sunday fun _ ↦ none).run (.start .default 0, [])
        (mutedElsewhere ++ .render 0 30 :: []) = some s ∧ s.1.windows 0 = some w ∧
      s.2 = [.muted "prod" 3613] ∧
      w.ambient 40 = (w.unmutedOnly (recordedMutes (fun _ ↦ none) s.2) 40).ambient 40 := by
  have hwindow : (((desktop sunday fun _ ↦ none).run (.start .default 0, [])
      (mutedElsewhere ++ .render 0 30 :: [])).bind fun s ↦ s.1.windows 0).isSome := by
    decide +kernel
  have hlog : ((desktop sunday fun _ ↦ none).run (.start .default 0, [])
      (mutedElsewhere ++ .render 0 30 :: [])).map Prod.snd = some [.muted "prod" 3613] := by
    decide +kernel
  have hsaves : ∀ a ∈ mutedElsewhere ++ .render 0 30 :: [], Saves a := by
    intro a ha
    simp only [mutedElsewhere, List.cons_append, List.nil_append, List.mem_cons,
      List.not_mem_nil, or_false] at ha
    rcases ha with rfl | rfl | rfl | rfl | rfl | rfl | rfl <;> trivial
  obtain ⟨w, hw⟩ := Option.isSome_iff_exists.mp hwindow
  obtain ⟨s, hrun, hw⟩ := Option.bind_eq_some_iff.mp hw
  rw [hrun, Option.map_some, Option.some.injEq] at hlog
  exact ⟨s, w, hrun, hw, hlog, (mutes_shared sunday (fun _ ↦ none) .default 0 mutedElsewhere [] 0
    30 40 s w (savedAtQuit_of_saves hsaves rfl) (fun _ h ↦ absurd h List.not_mem_nil) hrun hw
    (by decide)).2.1⟩

end Daku.Desktop
