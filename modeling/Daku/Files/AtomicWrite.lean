import Daku.Base.Disk
import Daku.Base.Machine

/-!
# Atomic writes

`atomic_write` of `crates/daku-core/src/atomic_write.rs:27–73`, one system call at a time, called
by any number of threads of any number of processes whose steps interleave; every system call may
fail, and the machine may crash. Directories that `create_dir_all` makes (`:30–31`) are named in
directories that are not synced, so that a crash may take them. `WRITE_LOCK` (`:13, 28`) only rules
interleavings out and is left out. The permissions of the parent directory (`:38`) are left out as
well.
-/

namespace Daku.Files

open Daku.Base

/-- The last component of a path. -/
structure FileName where
  stem : String
  extension : Option String
  deriving DecidableEq, Repr

abbrev FilePath := Path String FileName

abbrev FileSystem := Disk String FileName UInt8

/-- `Path::with_extension`. -/
def withExtension (path : FilePath) (extension : String) : FilePath :=
  { path with base := { path.base with extension := some extension } }

/-- The last component as it is written. -/
def FileName.display (name : FileName) : String :=
  match name.extension with
  | none => name.stem
  | some extension => s!"{name.stem}.{extension}"

/-- `Path::display`; the root has an empty name, and the empty list is no directory. -/
def display (path : FilePath) : String :=
  "/".intercalate (path.dir ++ [path.base.display])

/-- `Path::display` of a directory. -/
def displayDir (dir : List String) : String :=
  if dir = [""] then "/" else "/".intercalate dir

/-- The name of a temporary file (`atomic_write.rs:41`). -/
def temporary (path : FilePath) (uuid : String) : FilePath :=
  withExtension path ("json.tmp-" ++ uuid)

/-- A name that `atomic_write` may give a temporary file. -/
def IsTemporary (path : FilePath) : Prop :=
  ∃ extension ∈ path.base.extension, "json.tmp-".toList <+: extension.toList

instance (path : FilePath) : Decidable (IsTemporary path) :=
  match h : path.base.extension with
  | none => .isFalse (by simp [IsTemporary, h])
  | some extension =>
    decidable_of_iff ("json.tmp-".toList <+: extension.toList) (by simp [IsTemporary, h])

/-- A call of `atomic_write`: a target, the data, and the unique part of the temporary name. -/
structure WriteCall where
  path : FilePath
  data : List UInt8
  uuid : String
  target : ¬ IsTemporary path
  deriving DecidableEq

/-- The temporary file of a call. -/
def WriteCall.temporary (call : WriteCall) : FilePath := Daku.Files.temporary call.path call.uuid

/-- What a call does next. -/
inductive Phase where
  /-- `create_dir_all`, one directory at a time (`atomic_write.rs:29–40`) -/
  | preparing
  /-- `create_new` (`:41–52`) -/
  | opening
  /-- `write_all`, with the number of bytes written (`:53–54`) -/
  | writing (inode written : ℕ)
  /-- `sync_all` (`:55–56`) -/
  | syncing (inode : ℕ)
  /-- `sync_dir` before the rename (`:58–61`) -/
  | recording (inode : ℕ)
  /-- `rename` (`:62`) -/
  | replacing (inode : ℕ)
  /-- `set_permissions` (`:63–68`) -/
  | securing
  /-- `sync_dir` after the rename (`:69–71`) -/
  | settling
  | done
  | failed (error : String)
  deriving DecidableEq, Repr

/-- How a system call ends: whether it works, and how many bytes it writes. -/
structure Outcome where
  ok : Bool
  count : ℕ
  deriving DecidableEq, Repr

/-- A `sync_dir` (`atomic_write.rs:16–20`): nothing tells whether it worked. -/
def syncParent (path : FilePath) (outcome : Outcome) (files : FileSystem) : FileSystem :=
  if path.dir ≠ [] ∧ outcome.ok = true then files.syncDir path.dir else files

/-- One system call of `atomic_write` (`atomic_write.rs:27–73`). -/
def WriteCall.advance (umask : Mode) (call : WriteCall) (outcome : Outcome) (files : FileSystem) :
    Phase → Option (Phase × FileSystem)
  | .preparing =>
    if call.path.dir = [] then some (.opening, files)
    else if outcome.ok = false then some (.failed s!"creating {displayDir call.path.dir}", files)
    else
      match files.missing call.path.dir with
      | none => some (.opening, files)
      | some dir => some (.preparing, files.mkdir dir)
  | .opening =>
    if outcome.ok = true ∧ files.entries call.temporary = none then
      some (.writing files.inodes.length 0, files.create call.temporary (0o600 &&& ~~~umask))
    else some (.failed s!"writing {display call.temporary}", files)
  | .writing inode written =>
    let total := min (written + outcome.count) call.data.length
    let after := files.write inode (call.data.take total)
    if outcome.ok = false then some (.failed s!"writing {display call.temporary}", after)
    else if total = call.data.length then some (.syncing inode, after)
    else some (.writing inode total, after)
  | .syncing inode =>
    if outcome.ok = true then some (.recording inode, files.fsync inode)
    else some (.failed s!"syncing {display call.temporary}", files)
  | .recording inode => some (.replacing inode, syncParent call.path outcome files)
  | .replacing _ =>
    if outcome.ok = true ∧ files.entries call.temporary ≠ none then
      some (.securing, files.rename call.path.dir call.temporary.base call.path.base)
    else some (.failed s!"replacing {display call.path}", files)
  | .securing =>
    if outcome.ok = true then some (.settling, files.chmod call.path 0o600)
    else some (.failed s!"securing {display call.path}", files)
  | .settling => some (.done, syncParent call.path outcome files)
  | .done => none
  | .failed _ => none

/-- The files, and the calls made since the last crash. -/
structure WriteState where
  files : FileSystem
  calls : List (WriteCall × Phase)

/-- What happens next. -/
inductive WriteAction where
  | start (call : WriteCall)
  | advance (caller : ℕ) (outcome : Outcome)
  | crash (crash : Crash String FileName UInt8)

/-- Calls are made, make progress, or are lost in a crash. -/
def writes (umask : Mode) : Machine WriteState WriteAction where
  step s
    | .start call => some { s with calls := s.calls ++ [(call, .preparing)] }
    | .advance caller outcome => do
      let (call, phase) ← s.calls[caller]?
      let (next, files) ← call.advance umask outcome s.files phase
      some ⟨files, s.calls.set caller (call, next)⟩
    | .crash crash =>
      if s.files.MayCrash crash then some ⟨s.files.crash crash, []⟩ else none

/-- What a sync of a directory does to the register of a path: it settles nothing for good while a
crash may take a directory on the way. -/
def syncOperation (path : FilePath) (dir : List String) (files : FileSystem) :
    List (Register.Op (Option (List UInt8))) :=
  if files.AtRisk path.dir then [.narrow] else if dir = path.dir then [.settle] else []

/-- What a step of a call does to the register of a path. -/
def Phase.operation (path : FilePath) (call : WriteCall) (outcome : Outcome) (files : FileSystem) :
    Phase → List (Register.Op (Option (List UInt8)))
  | .replacing _ =>
    if outcome.ok = true ∧ call.path = path then [.replace (some call.data)] else []
  | .recording _ | .settling =>
    if call.path.dir ≠ [] ∧ outcome.ok = true then syncOperation path call.path.dir files else []
  | _ => []

/-- What an action does to the register of a path. -/
def operation (path : FilePath) (s : WriteState) :
    WriteAction → List (Register.Op (Option (List UInt8)))
  | .start _ => []
  | .advance caller outcome =>
    match s.calls[caller]? with
    | none => []
    | some (call, phase) => phase.operation path call outcome s.files
  | .crash _ => [.crash]

/-- What a run does to the register of a path. -/
def operations (umask : Mode) (path : FilePath) :
    WriteState → List WriteAction → List (Register.Op (Option (List UInt8)))
  | _, [] => []
  | s, action :: actions =>
    operation path s action ++
      match (writes umask).step s action with
      | none => []
      | some t => operations umask path t actions

end Daku.Files
