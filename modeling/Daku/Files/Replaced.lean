import Daku.Base.Slots
import Daku.Files.AtomicWrite

/-!
# What atomic writes leave under a path

To whoever reads a path, and to whoever finds it after a crash, any number of concurrent calls of
`atomic_write` amount to a register: its value is replaced whole, by the rename of a call, and a
crash goes back to a value that was there since the directory was synced last. What the calls
write is never readable by anyone but the owner.
-/

namespace Daku.Files

open Daku.Base

variable {umask : Mode} {path p : FilePath} {call other : WriteCall} {phase next : Phase}
  {outcome : Outcome} {files after : FileSystem} {s t : WriteState} {i j : ℕ}

/-- A file as far as a call depends on it. -/
def view (files : FileSystem) (i : ℕ) : Option (List UInt8 × Bool) :=
  files.inodes[i]?.map fun f ↦ (f.data, f.synced)

/-- The file a call works on, as its phase has left it. -/
def Phase.file (call : WriteCall) : Phase → Option (ℕ × List UInt8 × Bool)
  | .writing inode written => some (inode, call.data.take written, false)
  | .syncing inode => some (inode, call.data, false)
  | .recording inode | .replacing inode => some (inode, call.data, true)
  | _ => none

/-- The call has found or made its directory and goes on to work in it. -/
def Phase.Placed : Phase → Prop
  | .opening | .writing _ _ | .syncing _ | .recording _ | .replacing _ => True
  | _ => False

/-- The directory of a call is there, and its temporary file is where and what the call takes it
for. -/
structure Held (files : FileSystem) (call : WriteCall) (phase : Phase) : Prop where
  there : phase.Placed → files.There call.path.dir
  file : ∀ i v, phase.file call = some (i, v) →
    files.entries call.temporary = some i ∧ view files i = some v

/-- Temporary files other than `own` are left alone. -/
def LeavesOthers (own : ℕ) (files after : FileSystem) : Prop :=
  ∀ p i v, IsTemporary p → files.entries p = some i → i ≠ own → view files i = some v →
    after.entries p = some i ∧ view after i = some v

section Names

theorem isTemporary_temporary (call : WriteCall) : IsTemporary call.temporary := by
  refine ⟨_, rfl, ?_⟩
  rw [String.toList_append]
  exact List.prefix_append _ _

theorem ne_temporary (hpath : ¬ IsTemporary path) (call : WriteCall) : path ≠ call.temporary :=
  fun h ↦ hpath (h ▸ isTemporary_temporary call)

/-- A new name is nobody else's. -/
theorem of_create (h : p ≠ path) (file : Option ℕ) :
    Change.of ⟨path.dir, [(path.base, file)]⟩ p = none := by
  rw [Change.of]
  split
  · next hdir =>
    have hbase : p.base ≠ path.base := fun hbase ↦ h (by
      cases p
      cases path
      simp_all)
    simp [List.lookup_cons, List.lookup_nil, beq_false_of_ne hbase]
  · rfl

/-- A rename leaves other names alone. -/
theorem of_two {dir : List String} {source target : FileName} (file other : Option ℕ)
    (htarget : p ≠ ⟨dir, target⟩) (hsource : p ≠ ⟨dir, source⟩) :
    Change.of ⟨dir, [(target, file), (source, other)]⟩ p = none := by
  rw [Change.of]
  split
  · next hdir =>
    subst hdir
    have htarget : p.base ≠ target := fun hbase ↦ htarget (hbase ▸ rfl)
    have hsource : p.base ≠ source := fun hbase ↦ hsource (hbase ▸ rfl)
    simp [List.lookup_cons, List.lookup_nil, beq_false_of_ne htarget, beq_false_of_ne hsource]
  · rfl

theorem of_rename_other (call : WriteCall) (file : Option ℕ) (htarget : p ≠ call.path)
    (hsource : p ≠ call.temporary) :
    Change.of ⟨call.path.dir, [(call.path.base, file), (call.temporary.base, none)]⟩ p = none :=
  of_two file none htarget hsource

theorem of_rename_self (call : WriteCall) (file : Option ℕ) :
    Change.of ⟨call.path.dir, [(call.path.base, file), (call.temporary.base, none)]⟩ call.path =
      some file := by
  simp [Change.of]

end Names

section Views

theorem view_write (files : FileSystem) (i j : ℕ) (data : List UInt8) :
    view (files.write i data) j =
      if i = j then (view files j).map fun _ ↦ (data, false) else view files j := by
  simp only [view, Disk.write, List.getElem?_modify]
  split <;> cases files.inodes[j]? <;> rfl

theorem view_fsync (files : FileSystem) (i j : ℕ) :
    view (files.fsync i) j =
      if i = j then (view files j).map fun v ↦ (v.1, true) else view files j := by
  simp only [view, Disk.fsync, List.getElem?_modify]
  split <;> cases files.inodes[j]? <;> rfl

theorem view_chmod (files : FileSystem) (p : FilePath) (mode : Mode) (j : ℕ) :
    view (files.chmod p mode) j = view files j := by
  rw [Disk.chmod]
  cases files.entries p with
  | none => rfl
  | some i =>
    simp only [view, List.getElem?_modify]
    split <;> cases files.inodes[j]? <;> rfl

theorem view_create_self (files : FileSystem) (p : FilePath) (mode : Mode) :
    view (files.create p mode) files.inodes.length = some ([], false) := by
  show (files.inodes ++ [_])[files.inodes.length]?.map _ = _
  rw [List.getElem?_concat_length]
  rfl

theorem view_create_other {v : List UInt8 × Bool} (h : view files j = some v) (p : FilePath)
    (mode : Mode) : view (files.create p mode) j = some v := by
  show (files.inodes ++ [_])[j]?.map _ = _
  obtain ⟨f, hf, hv⟩ := Option.map_eq_some_iff.mp h
  rw [List.getElem?_append_left (List.getElem?_eq_some_iff.mp hf).1, hf, Option.map_some, hv]

theorem lt_of_view {v : List UInt8 × Bool} (h : view files j = some v) :
    j < files.inodes.length := by
  obtain ⟨f, hf, -⟩ := Option.map_eq_some_iff.mp h
  exact (List.getElem?_eq_some_iff.mp hf).1

theorem whole_of_view {data : List UInt8} (h : view files i = some (data, true)) :
    files.Whole i := by
  obtain ⟨f, hf, hv⟩ := Option.map_eq_some_iff.mp h
  exact ⟨f, hf, congrArg Prod.snd hv⟩

theorem not_whole_of_view {data : List UInt8} (h : view files i = some (data, false)) :
    ¬ files.Whole i := by
  rintro ⟨f, hf, hsynced⟩
  rw [view, hf] at h
  have := congrArg Prod.snd (Option.some.inj h)
  simp [hsynced] at this

theorem content_of_view {v : List UInt8 × Bool} (h : view files i = some v) :
    files.content (some i) = some v.1 := by
  obtain ⟨f, hf, rfl⟩ := Option.map_eq_some_iff.mp h
  simp [Disk.content, hf]

end Views

section Steps

/-- The number of the file a step is about: that of the call, or a new one. -/
def Phase.own (call : WriteCall) (files : FileSystem) (phase : Phase) : ℕ :=
  match phase.file call with
  | some (i, _) => i
  | none => files.inodes.length

/-- What a step of a call does to a path, to the call and to the other calls. -/
structure Advanced (path : FilePath) (call : WriteCall) (outcome : Outcome) (files : FileSystem)
    (phase : Phase) (after : FileSystem) (next : Phase) : Prop where
  sound : after.Sound path
  steps : Register.Steps (files.register path) (phase.operation path call outcome files)
    (after.register path)
  held : Held after call next
  others : LeavesOthers (phase.own call files) files after
  dirs : ∀ dir, files.dirs dir = true → after.dirs dir = true
  own : ∀ i v, next.file call = some (i, v) → i = phase.own call files

/-- A call outside its directory has no file. -/
theorem file_of_not_placed (h : ¬ phase.Placed) : phase.file call = none := by
  cases phase with
  | opening => rfl
  | writing | syncing | recording | replacing => exact absurd trivial h
  | _ => rfl

theorem held_of_not_placed (h : ¬ next.Placed) : Held files call next where
  there hplaced := absurd hplaced h
  file i v hv := by
    rw [file_of_not_placed h] at hv
    cases hv

theorem leavesOthers_refl (own : ℕ) (files : FileSystem) : LeavesOthers own files files :=
  fun _ _ _ _ hentry _ hview ↦ ⟨hentry, hview⟩

/-- A step that touches no file. -/
theorem advanced_of_idle (hsound : files.Sound path)
    (hop : phase.operation path call outcome files = []) (hfile : next.file call = none)
    (hthere : next.Placed → files.There call.path.dir) :
    Advanced path call outcome files phase files next where
  sound := hsound
  steps := hop ▸ .refl _
  held := ⟨hthere, fun i v hv ↦ by
    rw [hfile] at hv
    cases hv⟩
  others := leavesOthers_refl _ files
  dirs _ := id
  own i v hv := by
    rw [hfile] at hv
    cases hv

/-- A step after which the call is failed. -/
theorem advanced_failed (error : String) (hsound : files.Sound path)
    (hop : phase.operation path call outcome files = []) :
    Advanced path call outcome files phase files (.failed error) :=
  advanced_of_idle hsound hop rfl fun h ↦ by cases h

/-- A step of `create_dir_all`. -/
theorem advanced_mkdir {dir : List String} (hsound : files.Sound path)
    (hmissing : files.missing call.path.dir = some dir) :
    Advanced path call outcome files .preparing (files.mkdir dir) .preparing := by
  obtain ⟨hnot, hne⟩ := Disk.of_missing hmissing
  obtain ⟨hmade, hregister⟩ := hsound.mkdir hnot hne
  refine ⟨hmade, ?_, held_of_not_placed id, ?_, Disk.dirs_mkdir files dir, fun _ _ hv ↦ ?_⟩
  · rw [hregister]
    exact .refl _
  · exact fun _ _ _ _ hentry _ hview ↦ ⟨hentry, hview⟩
  · cases hv

/-- `create_new` of the temporary file. -/
theorem advanced_create (hpath : ¬ IsTemporary path) (hsound : files.Sound path) (mode : Mode)
    (hthere : files.There call.path.dir) (hfree : files.entries call.temporary = none) :
    Advanced path call outcome files .opening (files.create call.temporary mode)
      (.writing files.inodes.length 0) := by
  have hother : ∀ q, q ≠ call.temporary → Change.of
      ⟨call.temporary.dir, [(call.temporary.base, some files.inodes.length)]⟩ q = none :=
    fun q hq ↦ of_create hq _
  -- The new file comes first, then its name.
  have hkeeps : Disk.Keeps files
      { files with inodes := files.inodes ++ [⟨[], false, mode, mode⟩] } :=
    Disk.keeps_create files call.temporary mode
  obtain ⟨hsound', hregister'⟩ := hsound.of_sameNames hkeeps ⟨rfl, rfl, rfl, rfl, rfl⟩
  obtain ⟨hlinked, hregister⟩ := hsound'.link_other (hother path (ne_temporary hpath call))
  refine ⟨hlinked, ?_, ⟨fun _ ↦ hthere, ?_⟩, ?_, fun _ ↦ id, ?_⟩
  · rw [show (files.create call.temporary mode).register path = files.register path from
      hregister.trans hregister']
    exact .refl _
  · intro i v hv
    obtain ⟨rfl, rfl⟩ := Prod.mk.inj (Option.some.inj hv)
    refine ⟨?_, view_create_self files call.temporary mode⟩
    rw [Disk.create, Disk.entries_link]
    simp [Change.of]
  · intro q i v _ hentry _ hview
    refine ⟨?_, view_create_other hview call.temporary mode⟩
    have hne : q ≠ call.temporary := by
      rintro rfl
      rw [hfree] at hentry
      cases hentry
    rw [Disk.create, Disk.entries_link, hother q hne]
    exact hentry
  · intro i v hv
    obtain ⟨rfl, -⟩ := Prod.mk.inj (Option.some.inj hv)
    rfl

/-- A write to the temporary file, or a sync of it. -/
theorem advanced_modify {v w : List UInt8 × Bool} (hsound : files.Sound path)
    (hop : phase.operation path call outcome files = []) (hfile : phase.file call = some (i, v))
    (hheld : Held files call phase) (hkeeps : Disk.Keeps files after)
    (hsame : Disk.SameNames files after)
    (hview : ∀ j, view after j = if i = j then (view files j).map fun _ ↦ w else view files j)
    (hnext : ∀ k u, next.file call = some (k, u) → k = i ∧ u = w) :
    Advanced path call outcome files phase after next := by
  obtain ⟨hentry, hheldview⟩ := hheld.file i v hfile
  obtain ⟨hsound', hregister⟩ := hsound.of_sameNames hkeeps hsame
  have hown : phase.own call files = i := by rw [Phase.own, hfile]
  have hplaced : phase.Placed := Classical.not_not.mp fun hnot ↦ by
    rw [file_of_not_placed hnot] at hfile
    cases hfile
  have hmono : ∀ dir, files.dirs dir = true → after.dirs dir = true := fun _ h ↦ hsame.dirs ▸ h
  refine ⟨hsound', ?_, ⟨fun _ ↦ (hheld.there hplaced).mono hmono, ?_⟩, ?_, hmono, ?_⟩
  · rw [hop, hregister]
    exact .refl _
  · intro k u hu
    obtain ⟨rfl, rfl⟩ := hnext k u hu
    rw [hsame.entries, hview, if_pos rfl, hheldview]
    exact ⟨hentry, rfl⟩
  · intro q k u _ hq hne hu
    rw [hsame.entries, hview, if_neg (Ne.symm (hown ▸ hne))]
    exact ⟨hq, hu⟩
  · intro k u hu
    rw [hown]
    exact (hnext k u hu).1

/-- What a sync of a directory makes of a path. -/
theorem steps_syncDir (hsound : files.Sound path) (dir : List String) :
    Register.Steps (files.register path) (syncOperation path dir files)
      ((files.syncDir dir).register path) := by
  rw [syncOperation]
  by_cases hrisk : files.AtRisk path.dir
  · rw [if_pos hrisk]
    exact .single (hsound.syncDir_narrow hrisk)
  rw [if_neg hrisk]
  by_cases hdir : dir = path.dir
  · rw [if_pos hdir, hdir]
    exact .single (hsound.syncDir_settle hrisk)
  · rw [if_neg hdir, hsound.syncDir_other (Ne.symm hdir) hrisk]
    exact .refl _

/-- `sync_dir`, which may have done nothing. -/
theorem advanced_syncParent (hsound : files.Sound path) (hheld : Held files call phase)
    (hop : phase.operation path call outcome files =
      if call.path.dir ≠ [] ∧ outcome.ok = true then syncOperation path call.path.dir files else [])
    (hplaced : next.Placed → phase.Placed) (hnext : next.file call = phase.file call) :
    Advanced path call outcome files phase (syncParent call.path outcome files) next := by
  have hsame : (syncParent call.path outcome files).entries = files.entries ∧
      (syncParent call.path outcome files).dirs = files.dirs ∧
      ∀ j, view (syncParent call.path outcome files) j = view files j := by
    rw [syncParent]
    split <;> exact ⟨rfl, rfl, fun _ ↦ rfl⟩
  obtain ⟨hentries, hdirs, hviews⟩ := hsame
  have hregister : (syncParent call.path outcome files).Sound path ∧
      Register.Steps (files.register path) (phase.operation path call outcome files)
        ((syncParent call.path outcome files).register path) := by
    rw [hop, syncParent]
    by_cases hsync : call.path.dir ≠ [] ∧ outcome.ok = true
    · rw [if_pos hsync, if_pos hsync]
      exact ⟨hsound.syncDir _, steps_syncDir hsound _⟩
    · rw [if_neg hsync, if_neg hsync]
      exact ⟨hsound, .refl _⟩
  have hmono : ∀ dir, files.dirs dir = true →
      (syncParent call.path outcome files).dirs dir = true := fun dir h ↦ hdirs ▸ h
  refine ⟨hregister.1, hregister.2, ⟨fun h ↦ (hheld.there (hplaced h)).mono hmono, ?_⟩, ?_, hmono,
    ?_⟩
  · intro i v hv
    rw [hentries, hviews]
    exact hheld.file i v (hnext ▸ hv)
  · intro q i v _ hq _ hv
    rw [hentries, hviews]
    exact ⟨hq, hv⟩
  · intro i v hv
    rw [hnext] at hv
    rw [Phase.own, hv]

/-- The rename: the path gets the data of the call, whole and synced. -/
theorem advanced_rename (hpath : ¬ IsTemporary path) (hsound : files.Sound path)
    (hheld : Held files call (.replacing i)) (hok : outcome.ok = true) :
    Advanced path call outcome files (.replacing i)
      (files.rename call.path.dir call.temporary.base call.path.base) .securing := by
  obtain ⟨hentry, hview⟩ := hheld.file i _ rfl
  have hrename : files.rename call.path.dir call.temporary.base call.path.base =
      files.link ⟨call.path.dir, [(call.path.base, some i), (call.temporary.base, none)]⟩ := by
    rw [Disk.rename, ← hentry]
    rfl
  rw [hrename]
  have hregister : (files.link ⟨call.path.dir,
        [(call.path.base, some i), (call.temporary.base, none)]⟩).Sound path ∧
      Register.Steps (files.register path)
        ((Phase.replacing i).operation path call outcome files) ((files.link ⟨call.path.dir,
          [(call.path.base, some i), (call.temporary.base, none)]⟩).register path) := by
    rw [Phase.operation]
    by_cases htarget : call.path = path
    · subst htarget
      rw [if_pos ⟨hok, rfl⟩]
      obtain ⟨hlinked, hstep⟩ := hsound.link_replace (of_rename_self call (some i))
        (fun j hj ↦ Option.some.inj hj ▸ whole_of_view hview) (hheld.there trivial)
      rw [content_of_view hview] at hstep
      exact ⟨hlinked, .single hstep⟩
    · rw [if_neg fun h ↦ htarget h.2]
      obtain ⟨hlinked, hsame⟩ := hsound.link_other
        (of_rename_other call (some i) (Ne.symm htarget) (ne_temporary hpath call))
      exact ⟨hlinked, hsame ▸ .refl _⟩
  refine ⟨hregister.1, hregister.2, held_of_not_placed id, ?_, fun _ ↦ id, ?_⟩
  · intro q j v hq hqentry hne hv
    refine ⟨?_, hv⟩
    have hsource : q ≠ call.temporary := by
      rintro rfl
      rw [hentry] at hqentry
      exact hne (Option.some.inj hqentry).symm
    rw [Disk.entries_link, of_rename_other call (some i) (fun h ↦ call.target (h ▸ hq)) hsource]
    exact hqentry
  · intro j v hv
    cases hv

/-- `set_permissions` of the path. -/
theorem advanced_chmod (hsound : files.Sound path) :
    Advanced path call outcome files .securing (files.chmod call.path 0o600) .settling := by
  have hsame := Disk.sameNames_chmod files call.path 0o600
  obtain ⟨hsound', hregister⟩ :=
    hsound.of_sameNames (Disk.keeps_chmod files call.path 0o600) hsame
  refine ⟨hsound', ?_, held_of_not_placed id, ?_, fun _ h ↦ hsame.dirs ▸ h, ?_⟩
  · rw [hregister]
    exact .refl _
  · intro q j v _ hq _ hv
    rw [hsame.entries, view_chmod]
    exact ⟨hq, hv⟩
  · intro j v hv
    cases hv

/-- What a step of `create_dir_all` does. -/
theorem advance_preparing
    (h : call.advance umask outcome files .preparing = some (next, after)) :
    (next = .opening ∧ after = files ∧ files.There call.path.dir) ∨
      (∃ error, next = .failed error ∧ after = files) ∨
      ∃ dir, next = .preparing ∧ after = files.mkdir dir ∧
        files.missing call.path.dir = some dir := by
  simp only [WriteCall.advance] at h
  split at h
  · next hnone =>
    obtain ⟨rfl, rfl⟩ := Prod.mk.inj (Option.some.inj h)
    exact Or.inl ⟨rfl, rfl, fun _ hon hne ↦ absurd (List.prefix_nil.mp (hnone ▸ hon)) hne⟩
  · split at h
    · obtain ⟨rfl, rfl⟩ := Prod.mk.inj (Option.some.inj h)
      exact Or.inr (Or.inl ⟨_, rfl, rfl⟩)
    · split at h
      · next hmissing =>
        obtain ⟨rfl, rfl⟩ := Prod.mk.inj (Option.some.inj h)
        exact Or.inl ⟨rfl, rfl, Disk.there_of_missing hmissing⟩
      · next dir hmissing =>
        obtain ⟨rfl, rfl⟩ := Prod.mk.inj (Option.some.inj h)
        exact Or.inr (Or.inr ⟨dir, rfl, rfl, hmissing⟩)

/-- Each system call of `atomic_write`, whatever comes of it. -/
theorem advanced_of_advance (hpath : ¬ IsTemporary path) (hsound : files.Sound path)
    (hheld : Held files call phase)
    (h : call.advance umask outcome files phase = some (next, after)) :
    Advanced path call outcome files phase after next := by
  cases phase with
  | preparing =>
    obtain ⟨rfl, rfl, hthere⟩ | ⟨error, rfl, rfl⟩ | ⟨dir, rfl, rfl, hmissing⟩ :=
      advance_preparing h
    · exact advanced_of_idle hsound rfl rfl fun _ ↦ hthere
    · exact advanced_failed error hsound rfl
    · exact advanced_mkdir hsound hmissing
  | opening =>
    simp only [WriteCall.advance] at h
    split at h
    · next hopen =>
      obtain ⟨rfl, rfl⟩ := Prod.mk.inj (Option.some.inj h)
      exact advanced_create hpath hsound _ (hheld.there trivial) hopen.2
    · obtain ⟨rfl, rfl⟩ := Prod.mk.inj (Option.some.inj h)
      exact advanced_failed _ hsound rfl
  | writing i written =>
    have hview := (hheld.file i _ rfl).2
    have hkeeps : Disk.Keeps files (files.write i
        (call.data.take (min (written + outcome.count) call.data.length))) :=
      Disk.keeps_write (not_whole_of_view hview)
    have hwritten : ∀ {next}, (∀ k u, next.file call = some (k, u) → k = i ∧
        u = (call.data.take (min (written + outcome.count) call.data.length), false)) →
        Advanced path call outcome files (.writing i written)
          (files.write i (call.data.take (min (written + outcome.count) call.data.length))) next :=
      advanced_modify hsound rfl rfl hheld hkeeps (Disk.sameNames_write files i _)
        (view_write files i · _)
    simp only [WriteCall.advance] at h
    split at h
    · obtain ⟨rfl, rfl⟩ := Prod.mk.inj (Option.some.inj h)
      exact hwritten fun k u hu ↦ by cases hu
    · split at h
      · next hall =>
        obtain ⟨rfl, rfl⟩ := Prod.mk.inj (Option.some.inj h)
        apply hwritten
        intro k u hu
        obtain ⟨rfl, rfl⟩ := Prod.mk.inj (Option.some.inj hu)
        rw [hall, List.take_length]
        exact ⟨rfl, rfl⟩
      · obtain ⟨rfl, rfl⟩ := Prod.mk.inj (Option.some.inj h)
        apply hwritten
        intro k u hu
        obtain ⟨rfl, rfl⟩ := Prod.mk.inj (Option.some.inj hu)
        exact ⟨rfl, rfl⟩
  | syncing i =>
    simp only [WriteCall.advance] at h
    split at h
    · obtain ⟨rfl, rfl⟩ := Prod.mk.inj (Option.some.inj h)
      apply advanced_modify (w := (call.data, true)) hsound rfl rfl hheld
        (Disk.keeps_fsync files i) (Disk.sameNames_fsync files i)
      · intro j
        rw [view_fsync]
        split
        · next hij =>
          rw [← hij, (hheld.file i _ rfl).2]
          rfl
        · rfl
      · intro k u hu
        obtain ⟨rfl, rfl⟩ := Prod.mk.inj (Option.some.inj hu)
        exact ⟨rfl, rfl⟩
    · obtain ⟨rfl, rfl⟩ := Prod.mk.inj (Option.some.inj h)
      exact advanced_failed _ hsound rfl
  | recording i =>
    obtain ⟨rfl, rfl⟩ := Prod.mk.inj (Option.some.inj h)
    exact advanced_syncParent hsound hheld rfl id rfl
  | replacing i =>
    simp only [WriteCall.advance] at h
    split at h
    · next hrename =>
      obtain ⟨rfl, rfl⟩ := Prod.mk.inj (Option.some.inj h)
      exact advanced_rename hpath hsound hheld hrename.1
    · next hrename =>
      obtain ⟨rfl, rfl⟩ := Prod.mk.inj (Option.some.inj h)
      refine advanced_failed _ hsound ?_
      rw [Phase.operation, if_neg]
      rintro ⟨hok, -⟩
      refine hrename ⟨hok, ?_⟩
      rw [(hheld.file i _ rfl).1]
      simp
  | securing =>
    simp only [WriteCall.advance] at h
    split at h
    · obtain ⟨rfl, rfl⟩ := Prod.mk.inj (Option.some.inj h)
      exact advanced_chmod hsound
    · obtain ⟨rfl, rfl⟩ := Prod.mk.inj (Option.some.inj h)
      exact advanced_failed _ hsound rfl
  | settling =>
    obtain ⟨rfl, rfl⟩ := Prod.mk.inj (Option.some.inj h)
    exact advanced_syncParent hsound hheld rfl id rfl
  | done => cases h
  | failed error => cases h

end Steps

section Runs

/-- No two calls work on one file. -/
def Distinct (calls : List (WriteCall × Phase)) : Prop :=
  ∀ (j k : ℕ) (c d : WriteCall × Phase) (i : ℕ) (v w : List UInt8 × Bool), j ≠ k →
    calls[j]? = some c → calls[k]? = some d → c.2.file c.1 = some (i, v) →
    d.2.file d.1 ≠ some (i, w)

/-- What holds between the system calls of all callers. -/
structure Writing (path : FilePath) (s : WriteState) : Prop where
  sound : s.files.Sound path
  held : ∀ c ∈ s.calls, Held s.files c.1 c.2
  distinct : Distinct s.calls

theorem writing_of_idle (hcalls : s.calls = []) (hsound : s.files.Sound path) :
    Writing path s where
  sound := hsound
  held c hc := by
    rw [hcalls] at hc
    cases hc
  distinct j k c d i v w _ hc := by
    rw [hcalls] at hc
    cases hc

/-- Calls may start, or end where they are. -/
theorem writing_of_calls {calls : List (WriteCall × Phase)} (h : Writing path s)
    (hcalls : ∀ (k : ℕ) (c : WriteCall × Phase), calls[k]? = some c →
      s.calls[k]? = some c ∨ ¬ c.2.Placed) :
    Writing path { s with calls } where
  sound := h.sound
  held c hc := by
    obtain ⟨k, hk⟩ := List.mem_iff_getElem?.mp hc
    rcases hcalls k c hk with hk | hnot
    · exact h.held c (List.mem_of_getElem? hk)
    · exact held_of_not_placed hnot
  distinct j k c d i v w hjk hc hd hfile hsame := by
    rcases hcalls j c hc with hc | hnot
    · rcases hcalls k d hd with hd | hnot
      · exact h.distinct j k c d i v w hjk hc hd hfile hsame
      · rw [file_of_not_placed hnot] at hsame
        cases hsame
    · rw [file_of_not_placed hnot] at hfile
      cases hfile

theorem writing_start (h : Writing path s) (call : WriteCall) :
    Writing path { s with calls := s.calls ++ [(call, .preparing)] } :=
  writing_of_calls h fun _ _ hk ↦ (getElem?_concat_cases hk).imp_right fun ⟨_, heq⟩ ↦ heq ▸ id

/-- The file of another call is not the one a step is about. -/
theorem ne_own (h : Writing path s) {k : ℕ} {c : WriteCall × Phase} {v : List UInt8 × Bool}
    (hjk : j ≠ k) (hcaller : s.calls[k]? = some (call, phase)) (hc : s.calls[j]? = some c)
    (hfile : c.2.file c.1 = some (i, v)) : i ≠ phase.own call s.files := by
  rw [Phase.own]
  cases hown : phase.file call with
  | none =>
    have hlt := lt_of_view ((h.held c (List.mem_of_getElem? hc)).file i v hfile).2
    exact Nat.ne_of_lt hlt
  | some own =>
    obtain ⟨own, w⟩ := own
    rintro rfl
    exact h.distinct j k c _ i v w hjk hc hcaller hfile hown

theorem writing_advance {k : ℕ} (h : Writing path s)
    (hcaller : s.calls[k]? = some (call, phase))
    (hadvanced : Advanced path call outcome s.files phase after next) :
    Writing path ⟨after, s.calls.set k (call, next)⟩ where
  sound := hadvanced.sound
  held c hc := by
    obtain ⟨j, hj⟩ := List.mem_iff_getElem?.mp hc
    rw [List.getElem?_set] at hj
    by_cases hjk : k = j
    · rw [if_pos hjk] at hj
      split at hj
      · rw [← Option.some.inj hj]
        exact hadvanced.held
      · cases hj
    · rw [if_neg hjk] at hj
      have hheld := h.held c (List.mem_of_getElem? hj)
      refine ⟨fun hplaced ↦ (hheld.there hplaced).mono hadvanced.dirs, fun i v hfile ↦ ?_⟩
      obtain ⟨hentry, hview⟩ := hheld.file i v hfile
      exact hadvanced.others _ i v (isTemporary_temporary c.1) hentry
        (ne_own h (Ne.symm hjk) hcaller hj hfile) hview
  distinct := by
    intro j l c d i v w hjl hc hd hfile hsame
    rw [List.getElem?_set] at hc hd
    by_cases hj : k = j
    · rw [if_pos hj] at hc
      split at hc
      · obtain rfl := Option.some.inj hc
        rw [if_neg fun hl ↦ hjl (hj.symm.trans hl)] at hd
        exact ne_own h (fun hl ↦ hjl (hj.symm.trans hl.symm)) hcaller hd hsame
          (hadvanced.own i v hfile)
      · cases hc
    · rw [if_neg hj] at hc
      by_cases hl : k = l
      · rw [if_pos hl] at hd
        split at hd
        · obtain rfl := Option.some.inj hd
          exact ne_own h (Ne.symm hj) hcaller hc hfile (hadvanced.own i w hsame)
        · cases hd
      · rw [if_neg hl] at hd
        exact h.distinct j l c d i v w hjl hc hd hfile hsame

/-- One action of any caller, or a crash. -/
theorem writing_step (hpath : ¬ IsTemporary path) {action : WriteAction} (h : Writing path s)
    (hstep : (writes umask).step s action = some t) :
    Writing path t ∧ Register.Steps (s.files.register path) (operation path s action)
      (t.files.register path) := by
  cases action with
  | start call =>
    obtain rfl := Option.some.inj hstep
    exact ⟨writing_start h call, .refl _⟩
  | advance k outcome =>
    obtain ⟨⟨call, phase⟩, hcaller, hstep⟩ := Option.bind_eq_some_iff.mp hstep
    obtain ⟨⟨next, after⟩, hadvance, hstep⟩ := Option.bind_eq_some_iff.mp hstep
    obtain rfl := Option.some.inj hstep
    have hadvanced := advanced_of_advance hpath h.sound
      (h.held _ (List.mem_of_getElem? hcaller)) hadvance
    refine ⟨writing_advance h hcaller hadvanced, ?_⟩
    rw [operation, hcaller]
    exact hadvanced.steps
  | crash crash =>
    obtain ⟨hcrash, hstep⟩ := Option.ite_none_right_eq_some.mp hstep
    obtain rfl := Option.some.inj hstep
    obtain ⟨hsound, hregister⟩ := h.sound.crash hcrash
    exact ⟨⟨hsound, fun _ hc ↦ absurd hc List.not_mem_nil, fun _ _ _ _ _ _ _ _ hc ↦ by
      cases hc⟩, .single hregister⟩

/-- A run of callers and crashes does to a path what its operations do to a register. -/
theorem writing_run (hpath : ¬ IsTemporary path) {actions : List WriteAction}
    (h : Writing path s) (hrun : (writes umask).run s actions = some t) :
    Writing path t ∧ Register.Steps (s.files.register path) (operations umask path s actions)
      (t.files.register path) := by
  induction actions generalizing s with
  | nil =>
    obtain rfl := Option.some.inj hrun
    exact ⟨h, .refl _⟩
  | cons action actions ih =>
    obtain ⟨u, hu, hrest⟩ := Machine.run_cons.mp hrun
    obtain ⟨hwriting, hsteps⟩ := writing_step hpath h hu
    obtain ⟨hfinal, hmore⟩ := ih hwriting hrest
    refine ⟨hfinal, ?_⟩
    rw [operations, hu]
    exact hsteps.append hmore

/-- The calls of a state have been started, now or before. -/
def StartedBy (started : List WriteCall) (s : WriteState) : Prop :=
  ∀ c ∈ s.calls, c.1 ∈ started

theorem startedBy_step {started : List WriteCall} {action : WriteAction}
    (h : StartedBy started s) (haction : ∀ call, action = .start call → call ∈ started)
    (hstep : (writes umask).step s action = some t) : StartedBy started t := by
  cases action with
  | start call =>
    obtain rfl := Option.some.inj hstep
    intro c hc
    rcases List.mem_append.mp hc with hc | hc
    · exact h c hc
    · rw [List.mem_singleton.mp hc]
      exact haction call rfl
  | advance k outcome =>
    obtain ⟨⟨call, phase⟩, hcaller, hstep⟩ := Option.bind_eq_some_iff.mp hstep
    obtain ⟨⟨next, after⟩, -, hstep⟩ := Option.bind_eq_some_iff.mp hstep
    obtain rfl := Option.some.inj hstep
    intro c hc
    rcases List.mem_or_eq_of_mem_set hc with hc | rfl
    · exact h c hc
    · exact h (call, phase) (List.mem_of_getElem? hcaller)
  | crash crash =>
    obtain ⟨-, hstep⟩ := Option.ite_none_right_eq_some.mp hstep
    obtain rfl := Option.some.inj hstep
    exact fun _ hc ↦ absurd hc List.not_mem_nil

/-- What a step of a call does to a path is one operation at most; only the rename of a call for
the path replaces it. -/
theorem operation_cases (path : FilePath) (call : WriteCall) (outcome : Outcome)
    (files : FileSystem) (phase : Phase) :
    phase.operation path call outcome files = [] ∨
      phase.operation path call outcome files = [.settle] ∨
      phase.operation path call outcome files = [.narrow] ∨
      (∃ i, phase = .replacing i) ∧ outcome.ok = true ∧ call.path = path ∧
        phase.operation path call outcome files = [.replace (some call.data)] := by
  have hsync : ∀ dir, syncOperation path dir files = [] ∨ syncOperation path dir files = [.settle] ∨
      syncOperation path dir files = [.narrow] := by
    intro dir
    rw [syncOperation]
    split
    · exact Or.inr (Or.inr rfl)
    · split
      · exact Or.inr (Or.inl rfl)
      · exact Or.inl rfl
  cases phase with
  | replacing i =>
    simp only [Phase.operation]
    split
    · next hreplace => exact Or.inr (Or.inr (Or.inr ⟨⟨i, rfl⟩, hreplace.1, hreplace.2, rfl⟩))
    · exact Or.inl rfl
  | recording i | settling =>
    simp only [Phase.operation]
    split
    · exact (hsync call.path.dir).imp_right fun h ↦ h.imp_right Or.inl
    · exact Or.inl rfl
  | _ => exact Or.inl rfl

/-- What an action puts under a path is the data of a call for the path. -/
theorem replace_mem_operation {action : WriteAction} {v : Option (List UInt8)}
    (h : .replace v ∈ operation path s action) :
    ∃ c ∈ s.calls, c.1.path = path ∧ v = some c.1.data := by
  cases action with
  | start call => cases h
  | crash crash => cases List.mem_singleton.mp h
  | advance k outcome =>
    rw [operation] at h
    cases hcaller : s.calls[k]? with
    | none =>
      rw [hcaller] at h
      cases h
    | some caller =>
      obtain ⟨call, phase⟩ := caller
      rw [hcaller] at h
      refine ⟨(call, phase), List.mem_of_getElem? hcaller, ?_⟩
      obtain hop | hop | hop | ⟨-, -, hpath, hop⟩ :=
        operation_cases path call outcome s.files phase <;>
        simp only [hop, List.mem_singleton, List.not_mem_nil, reduceCtorEq] at h
      exact ⟨hpath, Register.Op.replace.inj h⟩

/-- What a run puts under a path is the data of calls for the path. -/
theorem replace_mem_operations {started : List WriteCall} {actions : List WriteAction}
    {v : Option (List UInt8)} (h : StartedBy started s)
    (hactions : ∀ call, .start call ∈ actions → call ∈ started)
    (hv : .replace v ∈ operations umask path s actions) :
    ∃ call ∈ started, call.path = path ∧ v = some call.data := by
  induction actions generalizing s with
  | nil => cases hv
  | cons action actions ih =>
    rw [operations, List.mem_append] at hv
    rcases hv with hv | hv
    · obtain ⟨c, hc, hpath, hdata⟩ := replace_mem_operation hv
      exact ⟨c.1, h c hc, hpath, hdata⟩
    · cases hstep : (writes umask).step s action with
      | none =>
        rw [hstep] at hv
        cases hv
      | some u =>
        rw [hstep] at hv
        exact ih (startedBy_step h (fun call hcall ↦ hactions call (hcall ▸ List.mem_cons_self))
          hstep) (fun call hcall ↦ hactions call (List.mem_cons_of_mem _ hcall)) hv

/-- What a step of a call does to a path is one operation at most. -/
theorem operation_advance_cases (path : FilePath) (u : WriteState) (caller : ℕ)
    (outcome : Outcome) :
    operation path u (.advance caller outcome) = [] ∨
      operation path u (.advance caller outcome) = [.settle] ∨
      operation path u (.advance caller outcome) = [.narrow] ∨
      ∃ v, operation path u (.advance caller outcome) = [.replace v] := by
  rw [operation]
  cases u.calls[caller]? with
  | none => exact Or.inl rfl
  | some c =>
    exact (operation_cases path c.1 outcome u.files c.2).imp_right fun h ↦ h.imp_right fun h ↦
      h.imp_right fun ⟨_, _, _, hop⟩ ↦ ⟨_, hop⟩

/-- What a run does to a path has a crash only if the run has. -/
theorem crash_mem_operations {actions : List WriteAction}
    (h : .crash ∈ operations umask path s actions) : ∃ crash, .crash crash ∈ actions := by
  induction actions generalizing s with
  | nil => cases h
  | cons action actions ih =>
    rw [operations, List.mem_append] at h
    rcases h with h | h
    · cases action with
      | start call => cases h
      | crash crash => exact ⟨crash, List.mem_cons_self⟩
      | advance k outcome =>
        obtain hop | hop | hop | ⟨w, hop⟩ := operation_advance_cases path s k outcome <;>
          simp [hop] at h
    · cases hstep : (writes umask).step s action with
      | none =>
        rw [hstep] at h
        cases h
      | some u =>
        rw [hstep] at h
        exact (ih h).imp fun crash hcrash ↦ List.mem_cons_of_mem _ hcrash

end Runs

section Landing

/-- The path is not yet replaced by the call. -/
def Phase.Pending : Phase → Prop
  | .preparing | .opening | .writing _ _ | .syncing _ | .recording _ | .replacing _ => True
  | _ => False

/-- The path is replaced by the call. -/
def Phase.Landed : Phase → Prop
  | .securing | .settling | .done => True
  | _ => False

theorem not_pending_of_landed (h : phase.Landed) : ¬ phase.Pending := by
  cases phase <;> simp_all [Phase.Landed, Phase.Pending]

/-- A phase that a system call leaves pending was pending. -/
theorem pending_of_advance
    (h : call.advance umask outcome files phase = some (next, after)) (hnext : next.Pending) :
    phase.Pending := by
  cases phase with
  | securing =>
    simp only [WriteCall.advance] at h
    split at h <;> obtain ⟨rfl, -⟩ := Prod.mk.inj (Option.some.inj h) <;> cases hnext
  | settling =>
    obtain ⟨rfl, -⟩ := Prod.mk.inj (Option.some.inj h)
    cases hnext
  | done => cases h
  | failed error => cases h
  | _ => trivial

/-- A phase that a system call leaves landed was landed, or the system call is the rename. -/
theorem landed_of_advance
    (h : call.advance umask outcome files phase = some (next, after)) (hnext : next.Landed) :
    phase.Landed ∨ .replace (some call.data) ∈ phase.operation call.path call outcome files := by
  cases phase with
  | replacing i =>
    simp only [WriteCall.advance] at h
    split at h
    · next hreplace =>
      refine Or.inr ?_
      rw [Phase.operation, if_pos ⟨hreplace.1, rfl⟩]
      exact List.mem_singleton.mpr rfl
    · obtain ⟨rfl, -⟩ := Prod.mk.inj (Option.some.inj h)
      cases hnext
  | preparing =>
    obtain ⟨rfl, -⟩ | ⟨error, rfl, -⟩ | ⟨dir, rfl, -⟩ := advance_preparing h <;> cases hnext
  | opening | syncing i =>
    simp only [WriteCall.advance] at h
    split at h <;> obtain ⟨rfl, -⟩ := Prod.mk.inj (Option.some.inj h) <;> cases hnext
  | writing i written =>
    simp only [WriteCall.advance] at h
    split at h
    · obtain ⟨rfl, -⟩ := Prod.mk.inj (Option.some.inj h)
      cases hnext
    · split at h <;> obtain ⟨rfl, -⟩ := Prod.mk.inj (Option.some.inj h) <;> cases hnext
  | recording i =>
    obtain ⟨rfl, -⟩ := Prod.mk.inj (Option.some.inj h)
    cases hnext
  | securing => exact Or.inl trivial
  | settling => exact Or.inl trivial
  | done => exact Or.inl trivial
  | failed error => cases h

/-- Once the path is replaced, only `set_permissions` can fail. -/
theorem landed_advance (h : call.advance umask outcome files phase = some (next, after))
    (hphase : phase.Landed) : next.Landed ∨ phase = .securing ∧ outcome.ok = false := by
  cases phase with
  | securing =>
    simp only [WriteCall.advance] at h
    split at h <;> obtain ⟨rfl, -⟩ := Prod.mk.inj (Option.some.inj h)
    · exact Or.inl trivial
    · next hok => exact Or.inr ⟨rfl, Bool.eq_false_iff.mpr hok⟩
  | settling =>
    obtain ⟨rfl, -⟩ := Prod.mk.inj (Option.some.inj h)
    exact Or.inl trivial
  | done => cases h
  | _ => cases hphase

/-- A call that puts its data under a path was pending, and is no longer. -/
theorem of_replace_mem {v : Option (List UInt8)}
    (h : call.advance umask outcome files phase = some (next, after))
    (hheld : Held files call phase) (hv : .replace v ∈ phase.operation path call outcome files) :
    phase.Pending ∧ next.Landed ∧ call.path = path ∧ v = some call.data ∧
      phase.operation path call outcome files = [.replace v] := by
  obtain hop | hop | hop | ⟨⟨i, rfl⟩, hok, hpath, hop⟩ :=
    operation_cases path call outcome files phase <;>
    simp only [hop, List.mem_singleton, List.not_mem_nil, reduceCtorEq] at hv
  obtain rfl := Register.Op.replace.inj hv
  have hentry : files.entries call.temporary ≠ none := by
    rw [(hheld.file i _ rfl).1]
    exact Option.some_ne_none i
  simp only [WriteCall.advance, if_pos (And.intro hok hentry)] at h
  obtain ⟨rfl, -⟩ := Prod.mk.inj (Option.some.inj h)
  exact ⟨trivial, trivial, hpath, rfl, hop⟩

/-- What a step of a call that replaces nothing leaves of the path. -/
theorem contents_of_not_replace {u v : WriteState} {caller : ℕ} (hpath : ¬ IsTemporary path)
    (h : Writing path u) (hstep : (writes umask).step u (.advance caller outcome) = some v)
    (hquiet : ∀ w, .replace w ∉ operation path u (.advance caller outcome)) :
    v.files.contents path = u.files.contents path := by
  obtain ⟨hv, hsteps⟩ := writing_step hpath h hstep
  rw [hv.sound.contents_eq, h.sound.contents_eq]
  refine hsteps.current_eq hquiet fun hcrash ↦ ?_
  obtain hop | hop | hop | ⟨w, hop⟩ := operation_advance_cases path u caller outcome <;>
    simp [hop] at hcrash

/-- What a step of a call that replaces a path leaves of it. -/
theorem contents_of_replace {u v : WriteState} {caller : ℕ} {w : Option (List UInt8)}
    (hpath : ¬ IsTemporary path) (h : Writing path u)
    (hstep : (writes umask).step u (.advance caller outcome) = some v)
    (hw : .replace w ∈ operation path u (.advance caller outcome)) :
    v.files.contents path = w := by
  obtain ⟨hv, hsteps⟩ := writing_step hpath h hstep
  rw [hv.sound.contents_eq]
  rcases operation_advance_cases path u caller outcome with hop | hop | hop | ⟨w', hop⟩
  · rw [hop] at hw
    cases hw
  · rw [hop] at hw
    cases List.mem_singleton.mp hw
  · rw [hop] at hw
    cases List.mem_singleton.mp hw
  · rw [hop] at hw hsteps
    obtain rfl := Register.Op.replace.inj (List.mem_singleton.mp hw)
    have hreplace := hsteps.of_single
    generalize u.files.register path = r at hreplace
    generalize v.files.register path = r' at hreplace ⊢
    cases hreplace
    exact Register.current_concat _ _ _

end Landing

section Permissions

/-- Nobody but the owner may do anything with the file, now or after a crash. -/
def OwnerOnly (f : Inode UInt8) : Prop := f.created &&& 0o077 = 0 ∧ f.mode &&& 0o077 = 0

/-- All files from a number on are the owner's. -/
def Private (first : ℕ) (files : FileSystem) : Prop :=
  ∀ i f, first ≤ i → files.inodes[i]? = some f → OwnerOnly f

variable {first : ℕ}

theorem ownerOnly_umask (umask : Mode) : (0o600 &&& ~~~umask : Mode) &&& 0o077 = 0 := by
  rw [BitVec.and_comm 0o600, BitVec.and_assoc]
  exact BitVec.and_zero

theorem private_modify {f : Inode UInt8 → Inode UInt8} (h : Private first files)
    (hf : ∀ g, OwnerOnly g → OwnerOnly (f g)) (i : ℕ) :
    Private first { files with inodes := files.inodes.modify i f } := by
  intro j g hj hg
  have hmodify : (files.inodes.modify i f)[j]? = some g := hg
  rw [List.getElem?_modify] at hmodify
  obtain ⟨g', hg', rfl⟩ := Option.map_eq_some_iff.mp hmodify
  split
  · exact hf g' (h j g' hj hg')
  · exact h j g' hj hg'

theorem private_create (h : Private first files) (p : FilePath) (umask : Mode) :
    Private first (files.create p (0o600 &&& ~~~umask)) := by
  intro j g hj hg
  have happend : (files.inodes ++ [⟨[], false, 0o600 &&& ~~~umask, 0o600 &&& ~~~umask⟩])[j]? =
    some g := hg
  rcases List.mem_append.mp (List.mem_of_getElem? happend) with hmem | hmem
  · by_cases hlt : j < files.inodes.length
    · rw [List.getElem?_append_left hlt] at happend
      exact h j g hj happend
    · rw [List.getElem?_append_right (Nat.not_lt.mp hlt)] at happend
      rw [List.mem_singleton.mp (List.mem_of_getElem? happend)]
      exact ⟨ownerOnly_umask umask, ownerOnly_umask umask⟩
  · rw [List.mem_singleton.mp hmem]
    exact ⟨ownerOnly_umask umask, ownerOnly_umask umask⟩

theorem private_chmod (h : Private first files) (p : FilePath) :
    Private first (files.chmod p 0o600) := by
  rw [Disk.chmod]
  cases files.entries p with
  | none => exact h
  | some i =>
    have hmode : (0o600 : Mode) &&& 0o077 = 0 := by decide
    exact private_modify (f := fun f ↦ { f with mode := 0o600 }) h (fun _ hg ↦ ⟨hg.1, hmode⟩) i

theorem private_syncParent (h : Private first files) (p : FilePath) (outcome : Outcome) :
    Private first (syncParent p outcome files) := by
  rw [syncParent]
  split <;> exact h

theorem private_crash (h : Private first files) (crash : Crash String FileName UInt8) :
    Private first (files.crash crash) := by
  intro j g hj hg
  have hmap : (files.inodes.mapIdx (Disk.crashed crash))[j]? = some g := hg
  rw [List.getElem?_mapIdx] at hmap
  obtain ⟨g', hg', rfl⟩ := Option.map_eq_some_iff.mp hmap
  obtain ⟨hcreated, hmode⟩ := h j g' hj hg'
  refine ⟨hcreated, ?_⟩
  simp only [Disk.crashed]
  split
  · exact hcreated
  · exact hmode

/-- No system call opens a file to others. -/
theorem private_advance (h : Private first files)
    (hadvance : call.advance umask outcome files phase = some (next, after)) :
    Private first after := by
  cases phase with
  | preparing =>
    obtain ⟨-, rfl, -⟩ | ⟨_, -, rfl⟩ | ⟨_, -, rfl, -⟩ := advance_preparing hadvance <;> exact h
  | opening =>
    simp only [WriteCall.advance] at hadvance
    split at hadvance <;> obtain ⟨-, rfl⟩ := Prod.mk.inj (Option.some.inj hadvance)
    · exact private_create h _ umask
    · exact h
  | writing i written =>
    have hwritten := private_modify (f := fun f ↦ { f with
      data := call.data.take (min (written + outcome.count) call.data.length)
      synced := false }) h (fun _ hg ↦ hg) i
    simp only [WriteCall.advance] at hadvance
    split at hadvance
    · obtain ⟨-, rfl⟩ := Prod.mk.inj (Option.some.inj hadvance)
      exact hwritten
    · split at hadvance <;> obtain ⟨-, rfl⟩ := Prod.mk.inj (Option.some.inj hadvance) <;>
        exact hwritten
  | syncing i =>
    simp only [WriteCall.advance] at hadvance
    split at hadvance <;> obtain ⟨-, rfl⟩ := Prod.mk.inj (Option.some.inj hadvance)
    · exact private_modify (f := fun f ↦ { f with synced := true }) h (fun _ hg ↦ hg) i
    · exact h
  | recording i =>
    obtain ⟨-, rfl⟩ := Prod.mk.inj (Option.some.inj hadvance)
    exact private_syncParent h _ outcome
  | replacing i =>
    simp only [WriteCall.advance] at hadvance
    split at hadvance <;> obtain ⟨-, rfl⟩ := Prod.mk.inj (Option.some.inj hadvance) <;> exact h
  | securing =>
    simp only [WriteCall.advance] at hadvance
    split at hadvance <;> obtain ⟨-, rfl⟩ := Prod.mk.inj (Option.some.inj hadvance)
    · exact private_chmod h _
    · exact h
  | settling =>
    obtain ⟨-, rfl⟩ := Prod.mk.inj (Option.some.inj hadvance)
    exact private_syncParent h _ outcome
  | done => cases hadvance
  | failed error => cases hadvance

theorem private_step {action : WriteAction} (h : Private first s.files)
    (hstep : (writes umask).step s action = some t) : Private first t.files := by
  cases action with
  | start call =>
    obtain rfl := Option.some.inj hstep
    exact h
  | advance k outcome =>
    obtain ⟨⟨call, phase⟩, -, hstep⟩ := Option.bind_eq_some_iff.mp hstep
    obtain ⟨⟨next, after⟩, hadvance, hstep⟩ := Option.bind_eq_some_iff.mp hstep
    obtain rfl := Option.some.inj hstep
    exact private_advance h hadvance
  | crash crash =>
    obtain ⟨-, hstep⟩ := Option.ite_none_right_eq_some.mp hstep
    obtain rfl := Option.some.inj hstep
    exact private_crash h crash

end Permissions

/-- No files, and every directory. -/
def noFiles : FileSystem := ⟨[], fun _ ↦ none, fun _ ↦ none, [], fun _ ↦ true, []⟩

theorem sound_noFiles (dirs : List String → Bool) (path : FilePath) :
    Disk.Sound { noFiles with dirs } path where
  entries_eq := rfl
  whole i hi := by cases List.mem_singleton.mp hi
  placed := Or.inr ⟨rfl, rfl⟩

/-- The settings file of a daemon. -/
def settingsPath : FilePath := ⟨["", "home", "daku", ".daku"], ⟨"settings", some "json"⟩⟩

/-- A call that writes the settings file. -/
def settingsWrite (data : List UInt8) (uuid : String) : WriteCall :=
  ⟨settingsPath, data, uuid, by decide⟩

/-- A caller makes several system calls, which all work. -/
def advances (caller n : ℕ) : List WriteAction :=
  List.replicate n (.advance caller ⟨true, 2⟩)

/-- Two calls whose steps interleave; the first one ends, the second one is writing when the
machine crashes and keeps nothing of what is pending. -/
def crashedWrites : List WriteAction :=
  [.start (settingsWrite [123, 125] "a"), .start (settingsWrite [123, 125, 10] "b")] ++
    advances 0 4 ++ advances 1 3 ++ advances 0 4 ++ [.crash ⟨[], [], fun _ ↦ [], fun _ ↦ false⟩]

/-- **Nothing between two contents.** Whatever callers do and wherever the machine crashes, a path
is a register: what is read under it, and what a crash may leave, was there at the start or is the
whole data of one call for the path, and no file that a call has created is open to others. -/
theorem atomicWrite_register (umask : Mode) (path : FilePath) (hpath : ¬ IsTemporary path)
    (s t : WriteState) (hcalls : s.calls = []) (hsound : s.files.Sound path)
    (actions : List WriteAction) (hrun : (writes umask).run s actions = some t) :
    Register.Steps (s.files.register path) (operations umask path s actions)
        (t.files.register path) ∧
      t.files.contents path = (t.files.register path).current ∧
      (∀ v ∈ (t.files.register path).values, v ∈ (s.files.register path).values ∨
        ∃ call, .start call ∈ actions ∧ call.path = path ∧ v = some call.data) ∧
      ∀ i f, s.files.inodes.length ≤ i → t.files.inodes[i]? = some f → f.mode &&& 0o077 = 0 := by
  have hwriting := writing_of_idle hcalls hsound
  obtain ⟨hfinal, hsteps⟩ := writing_run hpath hwriting hrun
  refine ⟨hsteps, hfinal.sound.contents_eq, fun v hv ↦ ?_, fun i f hi hf ↦ ?_⟩
  · refine (hsteps.values_subset v hv).imp_right fun hreplaced ↦ ?_
    -- The calls that are started are those of the actions.
    have hstarted : ∀ call, .start call ∈ actions → call ∈ actions.filterMap fun
        | .start call => some call
        | _ => none := fun call hcall ↦ List.mem_filterMap.mpr ⟨_, hcall, rfl⟩
    obtain ⟨call, hcall, htarget, hdata⟩ := replace_mem_operations
      (fun c hc ↦ absurd (hcalls ▸ hc) List.not_mem_nil) hstarted
      (Register.mem_replaced.mp hreplaced)
    obtain ⟨action, haction, hsome⟩ := List.mem_filterMap.mp hcall
    cases action with
    | start c =>
      obtain rfl := Option.some.inj hsome
      exact ⟨c, haction, htarget, hdata⟩
    | advance k outcome => cases hsome
    | crash crash => cases hsome
  · have hprivate : Private s.files.inodes.length t.files :=
      Machine.run_invariant (I := fun u ↦ Private s.files.inodes.length u.files)
        (fun i f hi hf ↦ absurd (List.getElem?_eq_some_iff.mp hf).1 (Nat.not_lt.mpr hi))
        (fun h hstep ↦ private_step h hstep) hrun
    exact (hprivate i f hi hf).2

/-- Two calls for the settings file: the second one crashes in the middle of its write. -/
theorem atomicWrite_register_crash :
    ∃ t, (writes 0o022).run ⟨noFiles, []⟩ crashedWrites = some t ∧
      t.files.contents settingsPath = some [123, 125] ∧
      t.files.contents settingsPath = (t.files.register settingsPath).current := by
  refine ⟨_, rfl, by decide, ?_⟩
  exact (atomicWrite_register 0o022 settingsPath (by decide) ⟨noFiles, []⟩ _ rfl
    (sound_noFiles _ _) crashedWrites rfl).2.1

/-- **What is settled stays.** Once the last directory sync of a call has worked and the path
still holds its data, the path holds it until another call replaces it, whatever crashes come in
between. The one exception is a directory on the way that had been made while the one that it is
in was not synced since: a crash may take it, and then nothing is under the path. -/
theorem atomicWrite_stays (umask : Mode) (path : FilePath) (hpath : ¬ IsTemporary path)
    (hdir : path.dir ≠ []) (s u t : WriteState) (hcalls : s.calls = [])
    (hsound : s.files.Sound path) (before later : List WriteAction) (caller count : ℕ)
    (call : WriteCall) (hbefore : (writes umask).run s before = some u)
    (hcaller : u.calls[caller]? = some (call, .settling)) (htarget : call.path = path)
    (hdata : u.files.contents path = some call.data)
    (hlater : (writes umask).run u (.advance caller ⟨true, count⟩ :: later) = some t)
    (hquiet : ∀ v, .replace v ∉
      operations umask path u (.advance caller ⟨true, count⟩ :: later)) :
    t.files.contents path = some call.data ∨
      u.files.AtRisk path.dir ∧ (∃ crash, .crash crash ∈ later) ∧
        t.files.contents path = none := by
  have hu := (writing_run hpath (writing_of_idle hcalls hsound) hbefore).1
  obtain ⟨v, hsync, hrest⟩ := Machine.run_cons.mp hlater
  have hv := (writing_step hpath hu hsync).1
  obtain ⟨ht, hsteps⟩ := writing_run hpath hv hrest
  rw [operations, hsync] at hquiet
  have hfiles : v.files = u.files.syncDir path.dir := by
    obtain ⟨c, hc, hsync⟩ := Option.bind_eq_some_iff.mp hsync
    obtain rfl := Option.some.inj (hcaller.symm.trans hc)
    obtain rfl := Option.some.inj hsync
    rw [← htarget]
    exact if_pos ⟨htarget ▸ hdir, rfl⟩
  have hcontents : v.files.contents path = some call.data := by
    rw [hfiles, ← hdata]
    rfl
  rw [ht.sound.contents_eq]
  by_cases hcrash : Register.Op.crash ∈ operations umask path v later
  · -- What is left was there after the sync.
    rcases hsteps.values_subset _ (Register.current_mem_values _) with hold | hnew
    · rw [hfiles] at hold
      exact (Disk.values_syncDir hold).imp (·.trans hdata) fun ⟨hrisk, hnone⟩ ↦
        ⟨hrisk, crash_mem_operations hcrash, hnone⟩
    · exact absurd (List.mem_append_right _ (Register.mem_replaced.mp hnew)) (hquiet _)
  · left
    rw [hsteps.current_eq (fun w hw ↦ hquiet w (List.mem_append_right _ hw)) hcrash,
      ← hv.sound.contents_eq, hcontents]

/-- The settings of the first call survive the crash in the middle of the second one. -/
theorem atomicWrite_stays_crash :
    ∃ t, (writes 0o022).run ⟨noFiles, []⟩ crashedWrites = some t ∧
      t.files.contents settingsPath = some [123, 125] :=
  ⟨_, rfl, (atomicWrite_stays 0o022 settingsPath (by decide) (by decide) ⟨noFiles, []⟩ _ _ rfl
    (sound_noFiles _ _) (crashedWrites.take 12)
    [.crash ⟨[], [], fun _ ↦ [], fun _ ↦ false⟩] 0 2 (settingsWrite [123, 125] "a") rfl rfl rfl
    (by decide) rfl fun v hv ↦ List.not_mem_nil (a := v)
      (Register.mem_replaced.mpr hv)).resolve_right fun h ↦ absurd h.1 (by decide)⟩

/-- A home directory without the one of the daemon. -/
def bareHome : FileSystem := { noFiles with dirs := fun dir ↦ dir.length < 4 }

/-- The first write ever makes the directory; the write is done, and a crash takes both. -/
theorem atomicWrite_lost_with_directory :
    ∃ u t, (writes 0o022).run ⟨bareHome, []⟩
        (.start (settingsWrite [123, 125] "a") :: advances 0 9) = some u ∧
      u.calls = [(settingsWrite [123, 125] "a", .done)] ∧
      u.files.contents settingsPath = some [123, 125] ∧
      (writes 0o022).run u [.crash ⟨[], [settingsPath.dir], fun _ ↦ [], fun _ ↦ false⟩] =
        some t ∧
      t.files.contents settingsPath = none :=
  ⟨_, _, rfl, rfl, by decide, rfl, by decide⟩

end Daku.Files
