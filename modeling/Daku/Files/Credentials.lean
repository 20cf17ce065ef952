import Daku.Files.Replaced
import Mathlib.Data.List.AList

/-!
# The file of Credentials

`FileCredentialStore` of `crates/daku-core/src/config.rs:239–294`: a map from Environment ids to
secrets in a JSON file, with a lock around the read-modify-write of `set` and `delete`, none around
the read of `get`, and `atomic_write` underneath, system call by system call. `FILE_CRED_OP_LOCK`
(`:243`) is a static: every process has its own, and a `rotate-credential` or `setup` on the command
line (`crates/daku-daemon/src/main.rs:349–432`) is another process than the daemon. Nobody writes
the file but through a store. Other files are written meanwhile, and the machine may crash.
-/

namespace Daku.Files

open Daku.Base

/-- `HashMap<String, String>`. -/
abbrev Secrets := AList fun _ : String ↦ String

/-- `serde_json` for a map of strings: what is written is read back, in any order. -/
structure SecretsCodec where
  encode : Secrets → List UInt8
  decode : List UInt8 → Option Secrets
  decode_encode : ∀ secrets, ∃ read, decode (encode secrets) = some read ∧
    ∀ id, read.lookup id = secrets.lookup id

/-- `FileCredentialStore` (`config.rs:239–241`). -/
structure FileCredentialStore where
  path : FilePath
  target : ¬ IsTemporary path
  codec : SecretsCodec

/-- A call of the store. -/
inductive CredentialOp where
  | get (id : String)
  | set (id secret : String)
  | delete (id : String)
  deriving DecidableEq, Repr

/-- The call changes the map. -/
def CredentialOp.Changes : CredentialOp → Prop
  | .get _ => False
  | _ => True

/-- Where a call stands. -/
inductive Stage where
  /-- It has no lock; a `get` reads next. -/
  | waiting
  /-- It has the lock of its process and reads next (`config.rs:278–279, 286–287`). -/
  | reading
  /-- It has the lock, and its `atomic_write` is the given one. -/
  | writing (write : ℕ) (secrets : Secrets)
  | answered (result : Except String (Option String))

/-- The call has the lock. -/
def Stage.Holds : Stage → Prop
  | .reading | .writing _ _ => True
  | _ => False

instance (stage : Stage) : Decidable stage.Holds := by
  cases stage <;> simp only [Stage.Holds] <;> infer_instance

/-- The writes on the disk, and the calls of the store since the last crash. -/
structure CredentialState where
  writes : WriteState
  callers : List (CredentialOp × Stage)
  /-- The process of each call. -/
  processes : List ℕ

/-- What happens next. -/
inductive CredentialAction where
  | call (process : ℕ) (op : CredentialOp)
  | lock (caller : ℕ)
  /-- The file is read, which may fail; a write that follows gets a unique name. -/
  | read (caller : ℕ) (error : Option String) (uuid : String)
  | finish (caller : ℕ)
  | write (action : WriteAction)

namespace FileCredentialStore

/-- `read_map` (`config.rs:254–261`). -/
def readMap (store : FileCredentialStore) (error : Option String)
    (contents : Option (List UInt8)) : Except String Secrets :=
  match error with
  | some error => .error s!"reading {display store.path}: {error}"
  | none =>
    match contents with
    | none => .ok ∅
    | some bytes =>
      match store.codec.decode bytes with
      | some secrets => .ok secrets
      | none => .error s!"parsing {display store.path}"

/-- `write_map` (`config.rs:263–266`): the call of `atomic_write`. -/
def writeMap (store : FileCredentialStore) (secrets : Secrets) (uuid : String) : WriteCall :=
  ⟨store.path, store.codec.encode secrets, uuid, store.target⟩

/-- What follows the read: an answer, or a map to write (`config.rs:271, 279–282, 287–292`). -/
def afterRead (store : FileCredentialStore) (error : Option String)
    (contents : Option (List UInt8)) :
    CredentialOp → Except String (Option String ⊕ Secrets)
  | .get id => do
    let secrets ← store.readMap error contents
    pure (.inl (secrets.lookup id))
  | .set id secret => do
    let secrets ← store.readMap error contents
    pure (.inr (secrets.insert id secret))
  | .delete id => do
    let secrets ← store.readMap error contents
    if secrets.lookup id = none then pure (.inl none) else pure (.inr (secrets.erase id))

/-- What a failed write is reported as (`config.rs:282, 292`). -/
def context : CredentialOp → String
  | .get _ => ""
  | .set id _ => s!"storing credential for {id}"
  | .delete id => s!"deleting credential for {id}"

/-- The stage in which a call reads. -/
def ReadsIn : CredentialOp → Stage → Prop
  | .get _, .waiting => True
  | .set _ _, .reading => True
  | .delete _, .reading => True
  | _, _ => False

instance (op : CredentialOp) (stage : Stage) : Decidable (ReadsIn op stage) := by
  cases op <;> cases stage <;> simp only [ReadsIn] <;> infer_instance

/-- A call waits for the lock. -/
def Waits : CredentialOp → Stage → Prop
  | .set _ _, .waiting => True
  | .delete _, .waiting => True
  | _, _ => False

instance (op : CredentialOp) (stage : Stage) : Decidable (Waits op stage) := by
  cases op <;> cases stage <;> simp only [Waits] <;> infer_instance

/-- The answer to a call whose write has ended. -/
def answer (op : CredentialOp) : Phase → Option (Except String (Option String))
  | .done => some (.ok none)
  | .failed _ => some (.error (context op))
  | _ => none

/-- The write machine moves. Nobody but the store writes its file, and a crash ends its calls. -/
def writeStep (umask : Mode) (store : FileCredentialStore) (s : CredentialState)
    (action : WriteAction) : Option CredentialState := do
  let after ← (writes umask).step s.writes action
  match action with
  | .start call => if call.path = store.path then none else some { s with writes := after }
  | .advance _ _ => some { s with writes := after }
  | .crash _ => some ⟨after, [], []⟩

/-- No call of the process has its lock. -/
def Unlocked (s : CredentialState) (process : ℕ) : Prop :=
  ∀ c ∈ s.callers.zip s.processes, c.2 = process → ¬ c.1.2.Holds

instance (s : CredentialState) (process : ℕ) : Decidable (Unlocked s process) :=
  inferInstanceAs (Decidable (∀ c ∈ _, _))

/-- Calls of the store by any number of processes, and everything else that happens to the
disk. -/
def machine (umask : Mode) (store : FileCredentialStore) :
    Machine CredentialState CredentialAction where
  step s
    | .call process op =>
      some { s with
        callers := s.callers ++ [(op, .waiting)], processes := s.processes ++ [process] }
    | .lock caller => do
      let (op, stage) ← s.callers[caller]?
      let process ← s.processes[caller]?
      if Waits op stage ∧ Unlocked s process then
        some { s with callers := s.callers.set caller (op, .reading) }
      else none
    | .read caller error uuid => do
      let (op, stage) ← s.callers[caller]?
      if ReadsIn op stage then
        match store.afterRead error (s.writes.files.contents store.path) op with
        | .error error =>
          some { s with callers := s.callers.set caller (op, .answered (.error error)) }
        | .ok (.inl secret) =>
          some { s with callers := s.callers.set caller (op, .answered (.ok secret)) }
        | .ok (.inr secrets) =>
          let call := store.writeMap secrets uuid
          some { s with
            writes := { s.writes with calls := s.writes.calls ++ [(call, .preparing)] }
            callers := s.callers.set caller (op, .writing s.writes.calls.length secrets) }
      else none
    | .finish caller => do
      match ← s.callers[caller]? with
      | (op, .writing write _) =>
        let (_, phase) ← s.writes.calls[write]?
        let result ← answer op phase
        some { s with callers := s.callers.set caller (op, .answered result) }
      | _ => none
    | .write action => writeStep umask store s action

end FileCredentialStore

/-- What everybody who reads the file makes of it; nothing, if it is malformed. -/
def secretsOf (store : FileCredentialStore) :
    Option (List UInt8) → Option (String → Option String)
  | none => some fun _ ↦ none
  | some bytes => (store.codec.decode bytes).map fun secrets id ↦ secrets.lookup id

/-- The map of secrets as a register. -/
def secretsRegister (store : FileCredentialStore) (s : CredentialState) :
    Register (Option (String → Option String)) :=
  (s.writes.files.register store.path).map (secretsOf store)

/-- What a call does to the map. -/
def CredentialOp.apply : CredentialOp → (String → Option String) → String → Option String
  | .get _, secrets => secrets
  | .set id secret, secrets => Function.update secrets id (some secret)
  | .delete id, secrets => Function.update secrets id none

/-- The events of a map of secrets that calls change and read one at a time. -/
inductive CredentialEvent where
  | committed (caller : ℕ) (op : CredentialOp)
  | found (caller : ℕ) (id : String) (secret : Option String)
  | settled
  | narrowed
  | crashed
  deriving DecidableEq, Repr

/-- The id a call is about. -/
def CredentialOp.id : CredentialOp → String
  | .get id | .set id _ | .delete id => id

/-- The call of the store that an `atomic_write` belongs to. -/
def ownerOf (callers : List (CredentialOp × Stage)) (write : ℕ) : Option (ℕ × CredentialOp) := do
  let caller ← callers.findIdx? fun c ↦
    match c.2 with
    | .writing k _ => k = write
    | _ => false
  let (op, _) ← callers[caller]?
  some (caller, op)

/-- What an operation on the file amounts to, if it is part of a write of the given call. -/
def eventOf (owner : Option (ℕ × CredentialOp)) :
    Register.Op (Option (List UInt8)) → Option CredentialEvent
  | .replace _ => owner.map fun (caller, op) ↦ .committed caller op
  | .settle => some .settled
  | .narrow => some .narrowed
  | .crash => some .crashed

/-- What an action amounts to: a rename is the change of the call it belongs to. -/
def credentialEvents (store : FileCredentialStore) (s : CredentialState) :
    CredentialAction → List CredentialEvent
  | .read caller error _ =>
    match s.callers[caller]? with
    | none => []
    | some (op, _) =>
      match store.afterRead error (s.writes.files.contents store.path) op with
      | .ok (.inl secret) => [.found caller op.id secret]
      | _ => []
  | .write (.advance write outcome) =>
    (operation store.path s.writes (.advance write outcome)).filterMap
      (eventOf (ownerOf s.callers write))
  | .write (.crash _) => [.crashed]
  | _ => []

/-- What a run amounts to. -/
def credentialHistory (umask : Mode) (store : FileCredentialStore) :
    CredentialState → List CredentialAction → List CredentialEvent
  | _, [] => []
  | s, action :: actions =>
    credentialEvents store s action ++
      match (store.machine umask).step s action with
      | none => []
      | some t => credentialHistory umask store t actions

/-- What an event means: a change applies to the map as it is, and an answer comes from it. -/
inductive SecretsStep :
    Register (Option (String → Option String)) → CredentialEvent →
      Register (Option (String → Option String)) → Prop where
  | committed {r : Register (Option (String → Option String))} {secrets : String → Option String}
      (caller : ℕ) (op : CredentialOp) : r.current = some secrets →
      SecretsStep r (.committed caller op) ⟨r.settled, r.unsettled ++ [some (op.apply secrets)]⟩
  | found {r : Register (Option (String → Option String))} {secrets : String → Option String}
      (caller : ℕ) (id : String) : r.current = some secrets →
      SecretsStep r (.found caller id (secrets id)) r
  | settled {r t : Register (Option (String → Option String))} :
      Register.Step r .settle t → SecretsStep r .settled t
  | narrowed {r t : Register (Option (String → Option String))} :
      Register.Step r .narrow t → SecretsStep r .narrowed t
  | crashed {r t : Register (Option (String → Option String))} :
      Register.Step r .crash t → SecretsStep r .crashed t

/-- A list of events. -/
inductive SecretsSteps :
    Register (Option (String → Option String)) → List CredentialEvent →
      Register (Option (String → Option String)) → Prop where
  | refl (r : Register (Option (String → Option String))) : SecretsSteps r [] r
  | head {r s t : Register (Option (String → Option String))} {event : CredentialEvent}
      {events : List CredentialEvent} :
      SecretsStep r event s → SecretsSteps s events t → SecretsSteps r (event :: events) t

end Daku.Files
