import Daku.Collector.Pacing
import Daku.Files.Replaced
import Daku.Webhook.Urls

/-!
# The daemon's settings

`DaemonSettingsStore` of `crates/daku-core/src/settings.rs` and `SettingsBackend` of
`settings_backend.rs`: a daemon opens its settings file once, answers `GetSettings` from memory,
and writes the file with `atomic_write` before it changes the memory. Other openers of the file
come and go meanwhile (`webhook.rs:188–198`, `crates/daku-daemon/src/main.rs:462–465`); one that
finds it malformed moves it away and writes the defaults. The daemon may exit and start again, and
the machine may crash.

One daemon runs or starts at a time, and nobody else writes the settings file meanwhile: a user
who edits it (`settings.rs:1`) has done so before the run, and the file may begin with any bytes.
-/

namespace Daku.Files

open Daku.Base Daku.Wire Daku.Webhook Daku.Collector

/-- `DaemonSettings::default` (`crates/daku-protocol/src/settings.rs:25–33`). -/
def defaultSettings : DaemonSettings := ⟨defaultPollIntervalSecs, defaultSlowPollIntervalSecs, none⟩

/-- `serde_json` for the settings: what is written is read back. -/
structure SettingsCodec where
  encode : DaemonSettings → List UInt8
  decode : List UInt8 → Option DaemonSettings
  decode_encode : ∀ settings, decode (encode settings) = some settings

/-- The name of a file that is moved away. -/
def corrupt (path : FilePath) (uuid : String) : FilePath :=
  withExtension path ("json.corrupt-" ++ uuid)

/-- The rename of `quarantine_corrupt_settings` (`settings.rs:62–67`). -/
def quarantineCorruptSettings (path : FilePath) (uuid : String) (files : FileSystem) :
    FileSystem :=
  files.rename path.dir path.base (corrupt path uuid).base

/-- The path of a `DaemonSettingsStore` (`settings.rs:11–14, 19–21`). -/
structure DaemonSettingsStore where
  path : FilePath
  extension_eq : path.base.extension = some "json"
  codec : SettingsCodec

/-- Where `handle` stands with a command. -/
inductive HandlerStage where
  /-- It waits for the lock (`settings.rs:51, 55`). -/
  | waiting
  /-- It has the lock, and its `atomic_write` is the given one (`settings.rs:56`). -/
  | writing (write : ℕ) (settings : DaemonSettings)
  | answered (result : Except String ResponsePayload)

/-- The handler has the lock. -/
def HandlerStage.Holds : HandlerStage → Prop
  | .writing _ _ => True
  | _ => False

instance HandlerStage.instDecidableHolds (stage : HandlerStage) : Decidable stage.Holds := by
  cases stage <;> simp only [HandlerStage.Holds] <;> infer_instance

/-- Where `open` stands (`settings.rs:23–48`). -/
inductive OpenerStage where
  | reading
  /-- The file is malformed and moved away next. -/
  | quarantining
  /-- The defaults are written by the given `atomic_write`. -/
  | restoring (write : ℕ)
  | opened (settings : DaemonSettings)
  | failed (error : String)

/-- The opener may still give settings. -/
def OpenerStage.Open : OpenerStage → Prop
  | .reading | .quarantining | .restoring _ => True
  | _ => False

instance OpenerStage.instDecidableOpen (stage : OpenerStage) : Decidable stage.Open := by
  cases stage <;> simp only [OpenerStage.Open] <;> infer_instance

/-- One that opens the settings; a daemon that starts does it to have them in memory. -/
structure Opener where
  boots : Bool
  stage : OpenerStage

/-- The writes on the disk, the settings in the memory of the daemon that runs, the commands it
has received, and who opens the file. -/
structure SettingsState where
  writes : WriteState
  memory : Option DaemonSettings
  handlers : List (Command × HandlerStage)
  openers : List Opener

/-- What happens next. -/
inductive SettingsAction where
  /-- Somebody opens the settings, perhaps a daemon that starts. -/
  | openFile (boots : Bool)
  /-- The file is read, which may fail. -/
  | read (opener : ℕ) (error : Option String)
  /-- The file is moved to a unique name, which may fail; the write that follows gets another. -/
  | quarantine (opener : ℕ) (error : Option String) (uuid temporary : String)
  | restored (opener : ℕ)
  | call (command : Command)
  | lock (handler : ℕ) (uuid : String)
  | finish (handler : ℕ)
  /-- The daemon ends. -/
  | exit
  | write (action : WriteAction)

/-- The URL that `handle` refuses, if it does (`settings_backend.rs:30–38`). -/
def refusedUrl (settings : DaemonSettings) : Option String :=
  settings.webhookUrl.filter fun url ↦ trim url ≠ "" ∧ webhookUrlAllowed url = false

/-- What `handle` answers without a lock (`settings_backend.rs:24–52`). -/
def answerAtOnce : Command → Option (Except String ResponsePayload)
  | .ping => some (.ok .ack)
  | .getSettings => none
  | .updateSettings settings =>
    (refusedUrl settings).map fun url ↦
      .error s!"webhook_url must be loopback http or any https; got {redactedUrl url}"
  | _ => some (.error "command is served by another backend")

namespace SettingsState

/-- A write ends where it is. -/
def killed (s : SettingsState) (dead : ℕ → Bool) : WriteState :=
  let calls := s.writes.calls.mapIdx fun k c ↦
    if dead k then (c.1, .failed "the process is gone") else c
  { s.writes with calls }

/-- A daemon is starting. -/
def Booting (s : SettingsState) : Prop := ∃ o ∈ s.openers, o.boots = true ∧ o.stage.Open

instance (s : SettingsState) : Decidable s.Booting :=
  inferInstanceAs (Decidable (∃ o ∈ s.openers, _))

/-- An opener has the settings; a daemon that starts has them in memory from now on. -/
def opened (s : SettingsState) (opener : ℕ) (boots : Bool) (settings : DaemonSettings) :
    SettingsState :=
  { s with
    memory := if boots then some settings else s.memory
    openers := s.openers.set opener ⟨boots, .opened settings⟩ }

/-- The write belongs to the daemon that runs or starts. -/
def ofDaemon (s : SettingsState) (write : ℕ) : Bool :=
  (s.handlers.any fun h ↦
    match h.2 with
    | .writing k _ => k = write
    | _ => false) ||
  s.openers.any fun o ↦
    o.boots &&
      match o.stage with
      | .restoring k => k = write
      | _ => false

/-- The daemon that runs or starts is gone, with its threads. -/
def exited (s : SettingsState) : SettingsState :=
  ⟨s.killed s.ofDaemon, none, [], s.openers.filter fun o ↦ !o.boots⟩

end SettingsState

namespace DaemonSettingsStore

/-- What a file is read as (`settings.rs:24–42`); nothing, if it is malformed. -/
def meaning (store : DaemonSettingsStore) : Option (List UInt8) → Option DaemonSettings
  | none => some defaultSettings
  | some bytes => store.codec.decode bytes

/-- `write_atomic` (`settings.rs:69–73`): the call of `atomic_write`. -/
def writeCall (store : DaemonSettingsStore) (settings : DaemonSettings) (uuid : String) :
    WriteCall where
  path := store.path
  data := store.codec.encode settings
  uuid
  target := by
    rintro ⟨extension, hextension, hprefix⟩
    rw [store.extension_eq] at hextension
    obtain rfl := Option.some.inj hextension
    exact absurd hprefix (by decide)

/-- A write of the settings starts. -/
def startWrite (store : DaemonSettingsStore) (writes : WriteState) (settings : DaemonSettings)
    (uuid : String) : WriteState :=
  { writes with calls := writes.calls ++ [(store.writeCall settings uuid, .preparing)] }

/-- The write machine moves. Nobody but the store writes its file, and a crash ends everything. -/
def writeStep (umask : Mode) (store : DaemonSettingsStore) (s : SettingsState)
    (action : WriteAction) : Option SettingsState := do
  let after ← (writes umask).step s.writes action
  match action with
  | .start call => if call.path = store.path then none else some { s with writes := after }
  | .advance _ _ => some { s with writes := after }
  | .crash _ => some ⟨after, none, [], []⟩

/-- Commands, openers, the daemon's comings and goings, and everything else on the disk. -/
def machine (umask : Mode) (store : DaemonSettingsStore) :
    Machine SettingsState SettingsAction where
  step s
    | .openFile boots =>
      if boots = true ∧ (s.memory ≠ none ∨ s.Booting) then none
      else some { s with openers := s.openers ++ [⟨boots, .reading⟩] }
    | .read opener error => do
      match ← s.openers[opener]? with
      | ⟨boots, .reading⟩ =>
        match error with
        | some error => some { s with openers := s.openers.set opener ⟨boots, .failed error⟩ }
        | none =>
          match store.meaning (s.writes.files.contents store.path) with
          | some settings => some (s.opened opener boots settings)
          | none => some { s with openers := s.openers.set opener ⟨boots, .quarantining⟩ }
      | _ => none
    | .quarantine opener error uuid temporary => do
      match ← s.openers[opener]? with
      | ⟨boots, .quarantining⟩ =>
        match error with
        | some error => some { s with openers := s.openers.set opener ⟨boots, .failed error⟩ }
        | none =>
          if s.writes.files.entries store.path = none then none
          else
            let files := quarantineCorruptSettings store.path uuid s.writes.files
            some { s with
              writes := store.startWrite { s.writes with files } defaultSettings temporary
              openers := s.openers.set opener ⟨boots, .restoring s.writes.calls.length⟩ }
      | _ => none
    | .restored opener => do
      match ← s.openers[opener]? with
      | ⟨boots, .restoring write⟩ =>
        let (_, phase) ← s.writes.calls[write]?
        match phase with
        | .done => some (s.opened opener boots defaultSettings)
        | .failed error => some { s with openers := s.openers.set opener ⟨boots, .failed error⟩ }
        | _ => none
      | _ => none
    | .call command =>
      if s.memory = none then none
      else
        match answerAtOnce command with
        | some result => some { s with handlers := s.handlers ++ [(command, .answered result)] }
        | none => some { s with handlers := s.handlers ++ [(command, .waiting)] }
    | .lock handler uuid => do
      let memory ← s.memory
      if ∃ h ∈ s.handlers, h.2.Holds then none
      else
        match ← s.handlers[handler]? with
        | (.getSettings, .waiting) =>
          some { s with
            handlers := s.handlers.set handler (.getSettings, .answered (.ok (.settings memory))) }
        | (.updateSettings settings, .waiting) =>
          some { s with
            writes := store.startWrite s.writes settings uuid
            handlers := s.handlers.set handler
              (.updateSettings settings, .writing s.writes.calls.length settings) }
        | _ => none
    | .finish handler => do
      match ← s.handlers[handler]? with
      | (command, .writing write settings) =>
        let (_, phase) ← s.writes.calls[write]?
        match phase with
        | .done =>
          some { s with
            memory := some settings
            handlers := s.handlers.set handler (command, .answered (.ok .ack)) }
        | .failed error =>
          some { s with handlers := s.handlers.set handler (command, .answered (.error error)) }
        | _ => none
      | _ => none
    | .exit => some s.exited
    | .write action => writeStep umask store s action

end DaemonSettingsStore

end Daku.Files
