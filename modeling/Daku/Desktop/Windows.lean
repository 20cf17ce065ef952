import Daku.Base.Int64
import Daku.Base.LastWrite
import Daku.Base.Machine
import Daku.Desktop.AlertSurfaces
import Daku.Desktop.Notifications

/-!
# The windows of the desktop

The process of `src/lib.rs:118–262` and `src/app.rs`: a main window and detached ones, which share
the preferences of `crates/daku-client/src/persistence.rs` and each keep a copy of the mutes.
Preferences are saved in `app.json`; it stands here for what it is read back as. What is rendered,
the sheet that edits Environments and exports are left out, and so are poisoned locks.
-/

namespace Daku.Desktop

open Daku.Base Daku.Protocol Daku.Wire
open Daku.Health (EnvironmentSummary HealthEventDto)

/-- `QuietHours` (`persistence.rs:22–26`). -/
structure QuietHours where
  startHour : Nat
  endHour : Nat
  deriving DecidableEq, Repr

/-- `QuietHours::contains` (`persistence.rs:28–38`). -/
def QuietHours.contains (window : QuietHours) (hour : Nat) : Bool :=
  if 23 < window.startHour ∨ 23 < window.endHour then false
  else if window.startHour ≤ window.endHour then
    window.startHour ≤ hour ∧ hour < window.endHour
  else window.startHour ≤ hour ∨ hour < window.endHour

/-- `AppSettings` (`persistence.rs:41–65`). -/
structure AppSettings where
  mutes : String → Option Int
  notificationsEnabled : Bool
  notifySignals : String → Option Bool
  quietHours : Option QuietHours
  digestWeekly : Bool
  digestLastSent : Option Int

/-- `AppSettings::default` (`persistence.rs:67–78`). -/
def AppSettings.default : AppSettings := ⟨fun _ ↦ none, true, fun _ ↦ none, none, false, none⟩

/-- `mute_active` (`persistence.rs:116–118`). -/
def muteActive (mutes : String → Option Int) (id : String) (now : Int) : Bool :=
  (mutes id).any fun deadline ↦ now < deadline

/-- `signal_notify_enabled` (`persistence.rs:87–89`). -/
def AppSettings.signalNotifyEnabled (settings : AppSettings) (signalId : String) : Bool :=
  (settings.notifySignals signalId).getD true

/-- `set_signal_notify` (`persistence.rs:91–97`). -/
def AppSettings.setSignalNotify (settings : AppSettings) (signalId : String) (enabled : Bool) :
    AppSettings :=
  { settings with
    notifySignals :=
      Function.update settings.notifySignals signalId (if enabled then none else some false) }

/-- `localtime_r` in the system's time zone. -/
structure LocalTime where
  hour : Int → Int
  weekday : Int → Int

/-- `local_hour` (`notifications.rs:94–96`). -/
def localHour (tm : LocalTime) (unixSecs : Int) : Nat := (max 0 (min 23 (tm.hour unixSecs))).toNat

/-- `local_weekday` (`notifications.rs:100–102`). -/
def localWeekday (tm : LocalTime) (unixSecs : Int) : Nat :=
  (max 0 (min 6 (tm.weekday unixSecs))).toNat

/-- `is_digest_slot` (`notifications.rs:118–120`). -/
def isDigestSlot (tm : LocalTime) (now : Int) : Bool :=
  localWeekday tm now = 1 ∧ 9 ≤ localHour tm now

/-- One window (`app.rs:58–98`, `dashboard_state.rs:209–233`). -/
structure Window where
  notify : NotifyWindow
  mutes : String → Option Int
  connected : Bool
  detached : Option String

namespace Window

/-- `is_muted` (`dashboard_state.rs:416–418`). -/
def isMuted (w : Window) (id : String) (now : Int) : Bool := muteActive w.mutes id now

/-- `apply_mutes` (`dashboard_state.rs:514–517`). -/
def applyMutes (w : Window) (mutes : String → Option Int) (now : Int) : Window :=
  { w with mutes := fun id ↦ (mutes id).filter fun deadline ↦ now < deadline }

/-- `DashboardState::select` on the window's state. -/
def select (w : Window) (id : String) : Window :=
  { w with notify := { w.notify with state := w.notify.state.select id } }

/-- `Daku::new` (`app.rs:120–171`). -/
def new (settings : AppSettings) (detached : Option String) (now : Int) : Window :=
  let w : Window := ⟨.boot now, fun _ ↦ none, false, detached⟩
  let w := w.applyMutes settings.mutes now
  match detached with
  | none => w
  | some pinned => w.select pinned

/-- Health, as `worst_health_excluding_muted` orders it (`dashboard_state.rs:1984–1989`). -/
def rank : EnvironmentHealth → Int
  | .healthy => 0
  | .degraded => 1
  | .down => 2
  | .waiting => -1

/-- `Iterator::max_by_key`: of equal ones the last. -/
def worst (healths : List EnvironmentHealth) : Option EnvironmentHealth :=
  healths.foldl (fun best health ↦
    match best with
    | none => some health
    | some other => if rank other ≤ rank health then some health else some other) none

/-- Environments that attention goes to (`dashboard_state.rs:692–693, 1981–1982`). -/
def attended (w : Window) (now : Int) : List EnvironmentSummary :=
  (w.notify.state.environments.filter fun e ↦ e.lastObservedAt.isSome).filter fun e ↦
    !w.isMuted e.id now

/-- `worst_health_excluding_muted` (`dashboard_state.rs:1975–1990`). -/
def worstHealthExcludingMuted (w : Window) (now : Int) : Option EnvironmentHealth :=
  if !w.connected then none else worst ((w.attended now).map EnvironmentSummary.health)

/-- `troubled_count` (`dashboard_state.rs:686–701`). -/
def troubledCount (w : Window) (now : Int) : Nat :=
  if !w.connected then 0
  else ((w.attended now).filter fun e ↦ e.health = .degraded ∨ e.health = .down).length

/-- What `reflect_ambient` reads for the menu bar and the Dock (`app.rs:770–776`). It is passed on
when it is not what the window passed on last (`:777–781`), to one menu bar for all windows; both
are left out. -/
def ambient (w : Window) (now : Int) : Bool × Option EnvironmentHealth × Nat :=
  (w.connected, w.worstHealthExcludingMuted now, w.troubledCount now)

end Window

/-- The process, and its file of preferences. -/
structure AppProcess where
  settings : AppSettings
  file : AppSettings
  windows : ℕ → Option Window

/-- A preference that a menu or the palette changes (`app.rs:917–932, 1348–1386`). -/
inductive Preference where
  | toggleNotifications
  | toggleWeeklyDigest
  | toggleSignalNotify (signalId : String)
  | setQuietHours (startHour endHour : Option Nat)

/-- What happens next; `saved` says whether `app.json` gets written. -/
inductive DesktopAction where
  /-- The process quits and starts again. -/
  | restart (now : Int)
  /-- The Environment that a window selects gets a window of its own. -/
  | detach (source window : ℕ) (now : Int)
  | close (window : ℕ)
  | connect (window : ℕ) (connected : Bool)
  | message (window : ℕ) (delivery : Delivery) (now : Int) (saved : Bool)
  | render (window : ℕ) (now : Int)
  | select (window : ℕ) (id : String)
  | mute (window : ℕ) (secs now : Int) (saved : Bool)
  | unmute (window : ℕ) (saved : Bool)
  | change (preference : Preference) (saved : Bool)

/-- What Operators do and are shown. -/
inductive Effect where
  | muted (id : String) (deadline : Int)
  | unmuted (id : String)
  | banner (id title body : String)
  | digest (now : Int) (ids : List String)
  deriving DecidableEq

/-- One preference changed. -/
def Preference.apply (settings : AppSettings) : Preference → AppSettings
  | toggleNotifications =>
    { settings with notificationsEnabled := !settings.notificationsEnabled }
  | toggleWeeklyDigest => { settings with digestWeekly := !settings.digestWeekly }
  | toggleSignalNotify signalId =>
    settings.setSignalNotify signalId (!settings.signalNotifyEnabled signalId)
  | setQuietHours startHour endHour =>
    { settings with quietHours := do
        let startHour ← startHour
        let endHour ← endHour
        some ⟨startHour, endHour⟩ }

namespace AppProcess

/-- A process that starts with the file: only the main window is open (`lib.rs:128–204`). -/
def start (file : AppSettings) (now : Int) : AppProcess :=
  ⟨file, file, fun window ↦ if window = 0 then some (.new file none now) else none⟩

/-- `persist_settings` (`app.rs:199–208`); a failure is only reported. -/
def persist (s : AppProcess) (saved : Bool) : AppProcess :=
  if saved then { s with file := s.settings } else s

/-- A window in its place. -/
def put (s : AppProcess) (window : ℕ) (w : Window) : AppProcess :=
  { s with windows := Function.update s.windows window (some w) }

/-- The gate's settings for an Environment (`app.rs:263–279`). -/
def notifySettings (s : AppProcess) (tm : LocalTime) (w : Window) (id : String) (now : Int) :
    NotifySettings where
  master := s.settings.notificationsEnabled
  notifySignals := s.settings.notifySignals
  muted := w.isMuted id now
  quiet := s.settings.quietHours.any fun window ↦ window.contains (localHour tm now)

/-- A message reaches a window (`app.rs:1137–1152`): events are noted by the main window only. -/
def receive (s : AppProcess) (tm : LocalTime) (fromStr : FromStr) (w : Window) (d : Delivery)
    (now : Int) : Window × List Effect :=
  match w.detached with
  | some _ =>
    ({ w with notify := { w.notify with state := w.notify.state.apply fromStr d.message } }, [])
  | none =>
    let (notify, offered) := w.notify.deliver fromStr d
    ({ w with notify }, (offered.bind fun (id, event) ↦
      (w.notify.state.banner (s.notifySettings tm w id now) id event).map
        fun (title, body) ↦ Effect.banner id title body).toList)

/-- `maybe_send_weekly_digest` (`app.rs:318–354`), by a window that has just received the list of
Environments. -/
def maybeSendWeeklyDigest (s : AppProcess) (tm : LocalTime) (w : Window) (now : Int)
    (saved : Bool) : AppProcess × List Effect :=
  if w.detached.isSome ∨ !isDigestSlot tm now ∨ !s.settings.digestWeekly ∨
      s.settings.digestLastSent.any (fun sent ↦ now - sent < 20 * 3600) then (s, [])
  else
    (persist { s with settings := { s.settings with digestLastSent := some now } } saved,
      [.digest now (w.notify.state.environments.map EnvironmentSummary.id)])

/-- A window pins its Environment again after every message (`app.rs:1147–1152`). -/
def repin (w : Window) : Window :=
  match w.detached with
  | none => w
  | some pinned => w.select pinned

/-- One action: the next state and what there is to see of it. -/
def act (tm : LocalTime) (fromStr : FromStr) (s : AppProcess) :
    DesktopAction → Option (AppProcess × List Effect)
  | .restart now => some (start s.file now, [])
  | .detach source window now => do
    let w ← s.windows source
    if (s.windows window).isSome then none
    else
      match w.notify.state.selectedId with
      | none => some (s, [])
      | some id => some (s.put window (.new s.settings (some id) now), [])
  | .close window => do
    let w ← s.windows window
    -- The main window only hides.
    if w.detached = none then some (s, [])
    else some ({ s with windows := Function.update s.windows window none }, [])
  | .connect window connected => do
    let w ← s.windows window
    some (s.put window { w with connected }, [])
  | .message window d now saved => do
    let w ← s.windows window
    let (received, banners) := s.receive tm fromStr w d now
    let (t, digests) :=
      match d.message with
      | .environmentsUpdated _ => s.maybeSendWeeklyDigest tm received now saved
      | _ => (s, [])
    some (t.put window (repin received), banners ++ digests)
  | .render window now => do
    let w ← s.windows window
    some (s.put window (w.applyMutes s.settings.mutes now), [])
  | .select window id => do
    let w ← s.windows window
    if w.detached.any (· ≠ id) then some (s, []) else some (s.put window (w.select id), [])
  | .mute window secs now saved => do
    let w ← s.windows window
    match w.notify.state.selectedId with
    | none => some (s, [])
    | some id =>
      let deadline := satAdd now secs
      let settings :=
        { s.settings with mutes := Function.update s.settings.mutes id (some deadline) }
      let t := persist { s with settings } saved
      some (t.put window { w with mutes := Function.update w.mutes id (some deadline) },
        [.muted id deadline])
  | .unmute window saved => do
    let w ← s.windows window
    match w.notify.state.selectedId with
    | none => some (s, [])
    | some id =>
      let settings := { s.settings with mutes := Function.update s.settings.mutes id none }
      let t := persist { s with settings } saved
      some (t.put window { w with mutes := Function.update w.mutes id none }, [.unmuted id])
  | .change preference saved =>
    some (persist { s with settings := preference.apply s.settings } saved, [])

end AppProcess

/-- The desktop with the log of all effects so far. -/
def desktop (tm : LocalTime) (fromStr : FromStr) :
    Machine (AppProcess × List Effect) DesktopAction where
  step s action := (s.1.act tm fromStr action).map fun (t, effects) ↦ (t, s.2 ++ effects)

/-- The process quits with its preferences saved. -/
def SavedAtQuit (s : AppProcess × List Effect) : DesktopAction → Prop
  | .restart _ => s.1.file = s.1.settings
  | _ => True

/-- What an effect does to the mute of an Environment. -/
def muteOf (id : String) : Effect → Option (Option Int)
  | .muted other deadline => if other = id then some (some deadline) else none
  | .unmuted other => if other = id then some none else none
  | _ => none

/-- The mutes that the Operators' last words make. -/
def recordedMutes (before : String → Option Int) (log : List Effect) : String → Option Int :=
  fun id ↦ lastWrite (muteOf id) log (before id)

/-- When a digest was sent. -/
def digestTime : Effect → Option Int
  | .digest now _ => some now
  | _ => none

end Daku.Desktop
