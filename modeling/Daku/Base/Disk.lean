import Daku.Base.Register
import Mathlib.Data.List.Infix
import Mathlib.Data.Nat.Notation

/-!
# Disks

Files, the names that lead to them, and what of both is on the medium. A file's data is safe once
it is synced. Changes of a directory are made at once and in order, but reach the medium only with
a sync of the directory: a crash keeps any of those that are pending. A directory that was made is
itself safe only once the one that it is in is synced; a crash that takes it takes all names in it.
`Disk.register` is what one name amounts to: a register, as long as nobody writes to a file that
the name leads to.
-/

namespace Daku.Base

/-- Permission bits. -/
abbrev Mode := BitVec 12

/-- A file: its data, whether that is on the medium, and its permissions. -/
structure Inode (α : Type) where
  data : List α
  synced : Bool
  created : Mode
  mode : Mode
  deriving DecidableEq, Repr

/-- A name in a directory, which is the list of the directories on the way to it. -/
structure Path (δ γ : Type) where
  dir : List δ
  base : γ
  deriving DecidableEq, Repr

/-- Names of one directory that change at once. -/
structure Change (δ γ : Type) where
  dir : List δ
  sets : List (γ × Option ℕ)
  deriving DecidableEq, Repr

/-- Files by number, the names programs see, the names on the medium, and what is pending; the
directories that are there, and those of them that were made since the ones they are in were
synced. -/
structure Disk (δ γ α : Type) where
  inodes : List (Inode α)
  entries : Path δ γ → Option ℕ
  durable : Path δ γ → Option ℕ
  pending : List (Change δ γ)
  dirs : List δ → Bool
  loose : List (List δ)

/-- What a crash leaves to chance. -/
structure Crash (δ γ α : Type) where
  /-- The pending changes that reached the medium. -/
  kept : List (Change δ γ)
  /-- The directories that did not. -/
  lost : List (List δ)
  /-- The data of a file that was not synced. -/
  leftover : ℕ → List α
  /-- The files whose last change of permissions is lost. -/
  reverted : ℕ → Bool

variable {δ γ α : Type}

namespace Disk

variable {d e : Disk δ γ α} {p : Path δ γ} {i : ℕ}

/-- Give a file its data. -/
def write (d : Disk δ γ α) (i : ℕ) (data : List α) : Disk δ γ α :=
  { d with inodes := d.inodes.modify i fun f ↦ { f with data, synced := false } }

/-- Sync a file. -/
def fsync (d : Disk δ γ α) (i : ℕ) : Disk δ γ α :=
  { d with inodes := d.inodes.modify i fun f ↦ { f with synced := true } }

/-- Set the permissions of the file a name leads to. -/
def chmod (d : Disk δ γ α) (p : Path δ γ) (mode : Mode) : Disk δ γ α :=
  match d.entries p with
  | none => d
  | some i => { d with inodes := d.inodes.modify i fun f ↦ { f with mode } }

/-- The data of a file. -/
def content (d : Disk δ γ α) (file : Option ℕ) : Option (List α) :=
  file.bind fun i ↦ d.inodes[i]?.map Inode.data

/-- What a program reads under a name. -/
def contents (d : Disk δ γ α) (p : Path δ γ) : Option (List α) := d.content (d.entries p)

/-- The file is there and on the medium. -/
def Whole (d : Disk δ γ α) (i : ℕ) : Prop :=
  ∃ f : Inode α, d.inodes[i]? = some f ∧ f.synced = true

/-- Whole files stay as they are. -/
def Keeps (d e : Disk δ γ α) : Prop :=
  ∀ (i : ℕ) (f : Inode α), d.inodes[i]? = some f → f.synced = true →
    ∃ g : Inode α, e.inodes[i]? = some g ∧ g.synced = true ∧ g.data = f.data

/-- The names and the directories are the same; only files may differ. -/
structure SameNames (d e : Disk δ γ α) : Prop where
  entries : e.entries = d.entries
  durable : e.durable = d.durable
  pending : e.pending = d.pending
  dirs : e.dirs = d.dirs
  loose : e.loose = d.loose

theorem Keeps.refl (d : Disk δ γ α) : Keeps d d := fun _ f hf hsynced ↦ ⟨f, hf, hsynced, rfl⟩

theorem Keeps.whole (h : Keeps d e) (hi : d.Whole i) : e.Whole i := by
  obtain ⟨f, hf, hsynced⟩ := hi
  obtain ⟨g, hg, hgsynced, -⟩ := h i f hf hsynced
  exact ⟨g, hg, hgsynced⟩

theorem Keeps.content (h : Keeps d e) {file : Option ℕ} (hi : ∀ i, file = some i → d.Whole i) :
    e.content file = d.content file := by
  cases file with
  | none => rfl
  | some i =>
    obtain ⟨f, hf, hsynced⟩ := hi i rfl
    obtain ⟨g, hg, -, hdata⟩ := h i f hf hsynced
    simp [Disk.content, hf, hg, hdata]

/-- An update of one file that leaves it whole, or that is not about a whole one. -/
theorem keeps_modify {f : Inode α → Inode α} (i : ℕ)
    (h : ∀ g, d.inodes[i]? = some g → g.synced = true → (f g).synced = true ∧ (f g).data = g.data) :
    Keeps d { d with inodes := d.inodes.modify i f } := by
  intro j g hg hsynced
  show ∃ g', (d.inodes.modify i f)[j]? = some g' ∧ _
  rw [List.getElem?_modify, hg]
  by_cases hij : i = j
  · subst hij
    exact ⟨f g, by simp, h g hg hsynced⟩
  · exact ⟨g, by simp [hij], hsynced, rfl⟩

theorem keeps_write {data : List α} (h : ¬ d.Whole i) : Keeps d (d.write i data) :=
  keeps_modify i fun g hg hsynced ↦ absurd ⟨g, hg, hsynced⟩ h

theorem keeps_fsync (d : Disk δ γ α) (i : ℕ) : Keeps d (d.fsync i) :=
  keeps_modify i fun _ _ _ ↦ ⟨rfl, rfl⟩

theorem keeps_chmod (d : Disk δ γ α) (p : Path δ γ) (mode : Mode) : Keeps d (d.chmod p mode) := by
  rw [chmod]
  cases d.entries p with
  | none => exact Keeps.refl d
  | some i => exact keeps_modify i fun _ _ hsynced ↦ ⟨hsynced, rfl⟩

theorem sameNames_write (d : Disk δ γ α) (i : ℕ) (data : List α) : SameNames d (d.write i data) :=
  ⟨rfl, rfl, rfl, rfl, rfl⟩

theorem sameNames_fsync (d : Disk δ γ α) (i : ℕ) : SameNames d (d.fsync i) :=
  ⟨rfl, rfl, rfl, rfl, rfl⟩

theorem sameNames_chmod (d : Disk δ γ α) (p : Path δ γ) (mode : Mode) :
    SameNames d (d.chmod p mode) := by
  rw [chmod]
  cases d.entries p <;> exact ⟨rfl, rfl, rfl, rfl, rfl⟩

section Directories

variable {dir made : List δ}

/-- Every directory on the way is there. -/
def There (d : Disk δ γ α) (dir : List δ) : Prop :=
  ∀ on, on <+: dir → on ≠ [] → d.dirs on = true

/-- The first directory on the way that is not there. -/
def missing (d : Disk δ γ α) (dir : List δ) : Option (List δ) :=
  dir.inits.find? fun on ↦ !on.isEmpty && !d.dirs on

/-- A crash may take a directory on the way. -/
def AtRisk (d : Disk δ γ α) (dir : List δ) : Prop := ∃ on ∈ d.loose, on <+: dir

/-- A directory on the way is lost. -/
def Gone (c : Crash δ γ α) (dir : List δ) : Prop := ∃ on ∈ c.lost, on <+: dir

theorem There.mono (h : d.There dir) (hdirs : ∀ on, d.dirs on = true → e.dirs on = true) :
    e.There dir := fun on hon hne ↦ hdirs on (h on hon hne)

theorem there_of_missing (h : d.missing dir = none) : d.There dir := by
  intro on hon hne
  have hnot := List.find?_eq_none.mp h on ((List.mem_inits _ _).mpr hon)
  simpa [hne] using hnot

theorem of_missing (h : d.missing dir = some made) : d.dirs made = false ∧ made ≠ [] := by
  have hfound := List.find?_some h
  simp only [Bool.and_eq_true, Bool.not_eq_true', List.isEmpty_eq_false_iff] at hfound
  exact ⟨hfound.2, hfound.1⟩

variable [DecidableEq δ]

instance (d : Disk δ γ α) (dir : List δ) : Decidable (d.AtRisk dir) :=
  inferInstanceAs (Decidable (∃ on ∈ d.loose, _))

instance (c : Crash δ γ α) (dir : List δ) : Decidable (Gone c dir) :=
  inferInstanceAs (Decidable (∃ on ∈ c.lost, _))

/-- Make a directory. -/
def mkdir (d : Disk δ γ α) (dir : List δ) : Disk δ γ α :=
  { d with
    dirs := fun other ↦ other = dir || d.dirs other
    loose := d.loose ++ [dir] }

/-- Sync a directory, with the names of files and of directories in it. -/
def syncDir (d : Disk δ γ α) (dir : List δ) : Disk δ γ α :=
  { d with
    durable := fun p ↦ if p.dir = dir then d.entries p else d.durable p
    pending := d.pending.filter fun change ↦ change.dir ≠ dir
    loose := d.loose.filter fun other ↦ other.dropLast ≠ dir }

theorem durable_syncDir (d : Disk δ γ α) (p : Path δ γ) :
    (d.syncDir p.dir).durable p = d.entries p := if_pos rfl

theorem durable_syncDir_other (hother : p.dir ≠ dir) :
    (d.syncDir dir).durable p = d.durable p := if_neg hother

theorem dirs_mkdir (d : Disk δ γ α) (made on : List δ) (h : d.dirs on = true) :
    (d.mkdir made).dirs on = true :=
  Bool.or_eq_true_iff.mpr (Or.inr h)

theorem atRisk_mkdir : (d.mkdir made).AtRisk dir ↔ d.AtRisk dir ∨ made <+: dir := by
  simp only [AtRisk, mkdir, List.mem_append, List.mem_singleton]
  constructor
  · rintro ⟨on, hon | rfl, hprefix⟩
    · exact Or.inl ⟨on, hon, hprefix⟩
    · exact Or.inr hprefix
  · rintro (⟨on, hon, hprefix⟩ | hprefix)
    · exact ⟨on, Or.inl hon, hprefix⟩
    · exact ⟨made, Or.inr rfl, hprefix⟩

/-- A sync puts nothing at risk. -/
theorem AtRisk.of_syncDir {synced : List δ} (h : (d.syncDir synced).AtRisk dir) :
    d.AtRisk dir := by
  obtain ⟨on, hon, hprefix⟩ := h
  exact ⟨on, List.mem_of_mem_filter hon, hprefix⟩

end Directories

end Disk

variable [DecidableEq δ] [DecidableEq γ]

/-- What a change does to a name. -/
def Change.of (change : Change δ γ) (p : Path δ γ) : Option (Option ℕ) :=
  if p.dir = change.dir then change.sets.lookup p.base else none

/-- The names after several changes. -/
def applied (changes : List (Change δ γ)) (entries : Path δ γ → Option ℕ) (p : Path δ γ) :
    Option ℕ :=
  (changes.filterMap fun change ↦ change.of p).getLastD (entries p)

namespace Disk

variable {d e : Disk δ γ α} {p q : Path δ γ} {i : ℕ} {dir made : List δ}

/-- Change names of a directory. -/
def link (d : Disk δ γ α) (change : Change δ γ) : Disk δ γ α :=
  { d with entries := applied [change] d.entries, pending := d.pending ++ [change] }

/-- A new empty file. -/
def create (d : Disk δ γ α) (p : Path δ γ) (mode : Mode) : Disk δ γ α :=
  link { d with inodes := d.inodes ++ [⟨[], false, mode, mode⟩] }
    ⟨p.dir, [(p.base, some d.inodes.length)]⟩

/-- Give a name of a directory to the file of another one, which goes. -/
def rename (d : Disk δ γ α) (dir : List δ) (source target : γ) : Disk δ γ α :=
  d.link ⟨dir, [(target, d.entries ⟨dir, source⟩), (source, none)]⟩

/-- A file after a crash. -/
def crashed (c : Crash δ γ α) (i : ℕ) (f : Inode α) : Inode α :=
  { f with
    data := if f.synced then f.data else c.leftover i
    synced := true
    mode := if c.reverted i then f.created else f.mode }

/-- The disk after a crash. -/
def crash (d : Disk δ γ α) (c : Crash δ γ α) : Disk δ γ α :=
  let entries := fun p ↦ if Gone c p.dir then none else applied c.kept d.durable p
  ⟨d.inodes.mapIdx (crashed c), entries, entries, [], fun dir ↦ d.dirs dir && !decide (Gone c dir),
    []⟩

/-- What a crash can do. -/
def MayCrash (d : Disk δ γ α) (c : Crash δ γ α) : Prop :=
  c.kept.Sublist d.pending ∧ ∀ dir ∈ c.lost, dir ∈ d.loose

instance (d : Disk δ γ α) (c : Crash δ γ α) : Decidable (d.MayCrash c) :=
  inferInstanceAs (Decidable (_ ∧ _))

/-- The pending changes of a name. -/
def changes (d : Disk δ γ α) (p : Path δ γ) : List (Option ℕ) :=
  d.pending.filterMap fun change ↦ change.of p

/-- What a name amounts to. With a directory on the way that may be lost, a crash may take the
name. -/
def register (d : Disk δ γ α) (p : Path δ γ) : Register (Option (List α)) :=
  if d.AtRisk p.dir then
    ⟨none, ((d.durable p).toList.map some ++ d.changes p).map d.content⟩
  else ⟨d.content (d.durable p), (d.changes p).map d.content⟩

/-- A name that leads to whole files only, now and after a crash. Where a directory is missing
there is no name. -/
structure Sound (d : Disk δ γ α) (p : Path δ γ) : Prop where
  entries_eq : d.entries p = (d.changes p).getLastD (d.durable p)
  whole : ∀ i, some i ∈ d.durable p :: d.changes p → d.Whole i
  placed : d.There p.dir ∨ d.durable p = none ∧ d.changes p = []

theorem register_of_risk (h : d.AtRisk p.dir) :
    d.register p = ⟨none, ((d.durable p).toList.map some ++ d.changes p).map d.content⟩ :=
  if_pos h

theorem register_of_no_risk (h : ¬ d.AtRisk p.dir) :
    d.register p = ⟨d.content (d.durable p), (d.changes p).map d.content⟩ :=
  if_neg h

/-- Without a name on the medium nothing can be taken. -/
theorem register_of_none (h : d.durable p = none) :
    d.register p = ⟨none, (d.changes p).map d.content⟩ := by
  rw [register, h]
  split <;> rfl

theorem keeps_create (d : Disk δ γ α) (p : Path δ γ) (mode : Mode) :
    Keeps d (d.create p mode) := by
  intro i f hf hsynced
  refine ⟨f, ?_, hsynced, rfl⟩
  show (d.inodes ++ [_])[i]? = some f
  rw [List.getElem?_append_left (List.getElem?_eq_some_iff.mp hf).1, hf]

theorem keeps_crash (d : Disk δ γ α) (c : Crash δ γ α) : Keeps d (d.crash c) := by
  intro i f hf hsynced
  refine ⟨crashed c i f, ?_, rfl, by simp [crashed, hsynced]⟩
  show (d.inodes.mapIdx (crashed c))[i]? = _
  rw [List.getElem?_mapIdx, hf]
  rfl

/-- What is read is the current value. -/
theorem Sound.contents_eq (h : d.Sound p) : d.contents p = (d.register p).current := by
  rw [contents, h.entries_eq]
  by_cases hrisk : d.AtRisk p.dir
  · have hmap : d.register p =
        Register.map d.content ⟨none, (d.durable p).toList.map some ++ d.changes p⟩ :=
      register_of_risk hrisk
    rw [hmap, Register.current_map]
    cases d.durable p with
    | none => rfl
    | some i => exact congrArg d.content List.getLastD_cons.symm
  · have hmap : d.register p = Register.map d.content ⟨d.durable p, d.changes p⟩ :=
      register_of_no_risk hrisk
    rw [hmap, Register.current_map]
    rfl

/-- A name that is there has its directories. -/
theorem Sound.there (h : d.Sound p) (hentry : d.entries p ≠ none) : d.There p.dir := by
  refine h.placed.resolve_right fun ⟨hdurable, hchanges⟩ ↦ hentry ?_
  rw [h.entries_eq, hdurable, hchanges]
  rfl

section Registers

/-- The register of a name is the same where neither the name nor whole files change. -/
theorem register_eq (h : d.Sound p) (hkeeps : Keeps d e) (hdurable : e.durable p = d.durable p)
    (hchanges : e.changes p = d.changes p) (hrisk : e.AtRisk p.dir ↔ d.AtRisk p.dir) :
    e.register p = d.register p := by
  have hcontent : ∀ file ∈ d.durable p :: d.changes p, e.content file = d.content file :=
    fun file hfile ↦ hkeeps.content fun i hi ↦ h.whole i (hi ▸ hfile)
  have hmap : (d.changes p).map e.content = (d.changes p).map d.content :=
    List.map_congr_left fun file hfile ↦ hcontent file (List.mem_cons_of_mem _ hfile)
  rw [register, register, hdurable, hchanges, hcontent _ List.mem_cons_self, List.map_append,
    List.map_append, hmap]
  simp only [hrisk]
  cases hfile : d.durable p with
  | none => rfl
  | some i =>
    have hi := hcontent (some i) (hfile ▸ List.mem_cons_self)
    simp only [Option.toList_some, List.map_cons, List.map_nil, hi]

theorem Sound.of_same (h : d.Sound p) (hkeeps : Keeps d e) (hentries : e.entries p = d.entries p)
    (hdurable : e.durable p = d.durable p) (hchanges : e.changes p = d.changes p)
    (hdirs : ∀ on, d.dirs on = true → e.dirs on = true) : e.Sound p where
  entries_eq := by rw [hentries, hdurable, hchanges, h.entries_eq]
  whole i hi := by
    rw [hdurable, hchanges] at hi
    exact hkeeps.whole (h.whole i hi)
  placed := by
    rw [hdurable, hchanges]
    exact h.placed.imp_left fun hthere ↦ hthere.mono hdirs

/-- Whatever is done to files that are not whole, every name is what it was. -/
theorem Sound.of_sameNames (h : d.Sound p) (hkeeps : Keeps d e) (hsame : SameNames d e) :
    e.Sound p ∧ e.register p = d.register p := by
  have hdurable : e.durable p = d.durable p := congrFun hsame.durable p
  have hchanges : e.changes p = d.changes p := by
    rw [changes, hsame.pending]
    rfl
  have hrisk : e.AtRisk p.dir ↔ d.AtRisk p.dir := by rw [AtRisk, AtRisk, hsame.loose]
  exact ⟨h.of_same hkeeps (congrFun hsame.entries p) hdurable hchanges fun _ hdir ↦
      hsame.dirs ▸ hdir,
    register_eq h hkeeps hdurable hchanges hrisk⟩

/-- A directory is made where there was none: no name is in it. -/
theorem Sound.mkdir (h : d.Sound p) (hnot : d.dirs made = false) (hne : made ≠ []) :
    (d.mkdir made).Sound p ∧ (d.mkdir made).register p = d.register p := by
  refine ⟨h.of_same (Keeps.refl d) rfl rfl rfl (dirs_mkdir d made), ?_⟩
  by_cases hprefix : made <+: p.dir
  · have hnone : d.durable p = none := (h.placed.resolve_left fun hthere ↦ by
      rw [hthere made hprefix hne] at hnot
      cases hnot).1
    rw [register_of_none hnone, register_of_none (d := d.mkdir made) hnone]
    rfl
  · exact register_eq (e := d.mkdir made) h (Keeps.refl d) rfl rfl
      (atRisk_mkdir.trans (or_iff_left hprefix))

theorem changes_link (d : Disk δ γ α) (change : Change δ γ) (p : Path δ γ) :
    (d.link change).changes p = d.changes p ++ (change.of p).toList := by
  simp only [changes, link, List.filterMap_append]
  cases h : change.of p <;> simp [h]

theorem entries_link (d : Disk δ γ α) (change : Change δ γ) (p : Path δ γ) :
    (d.link change).entries p = (change.of p).getD (d.entries p) := by
  simp only [link, applied]
  cases h : change.of p <;> simp [h]

/-- Names of other entries are left alone. -/
theorem Sound.link_other {change : Change δ γ} (h : d.Sound p) (hother : change.of p = none) :
    (d.link change).Sound p ∧ (d.link change).register p = d.register p := by
  have hchanges : (d.link change).changes p = d.changes p := by
    rw [changes_link, hother, Option.toList_none, List.append_nil]
  have hentries : (d.link change).entries p = d.entries p := by
    rw [entries_link, hother, Option.getD_none]
  exact ⟨h.of_same (Keeps.refl d) hentries rfl hchanges fun _ ↦ id,
    register_eq h (Keeps.refl d) rfl hchanges Iff.rfl⟩

/-- A name is given a whole file or taken away: one replacement. -/
theorem Sound.link_replace {change : Change δ γ} {file : Option ℕ} (h : d.Sound p)
    (hof : change.of p = some file) (hwhole : ∀ i, file = some i → d.Whole i)
    (hthere : d.There p.dir) :
    (d.link change).Sound p ∧
      Register.Step (d.register p) (.replace (d.content file)) ((d.link change).register p) := by
  have hchanges : (d.link change).changes p = d.changes p ++ [file] := by
    rw [changes_link, hof, Option.toList_some]
  refine ⟨⟨?_, fun j hj ↦ ?_, Or.inl hthere⟩, ?_⟩
  · rw [entries_link, hof, hchanges, List.getLastD_concat, Option.getD_some]
  · rw [hchanges] at hj
    simp only [List.mem_cons, List.mem_append, List.not_mem_nil, or_false] at hj
    rcases hj with hj | hj | hj
    · exact h.whole j (List.mem_cons.mpr (Or.inl hj))
    · exact h.whole j (List.mem_cons_of_mem _ hj)
    · exact hwhole j hj.symm
  · have hregister : (d.link change).register p =
        ⟨(d.register p).settled, (d.register p).unsettled ++ [d.content file]⟩ := by
      by_cases hrisk : d.AtRisk p.dir
      · rw [register_of_risk hrisk, register_of_risk (d := d.link change) hrisk, hchanges,
          ← List.append_assoc, List.map_append]
        rfl
      · rw [register_of_no_risk hrisk, register_of_no_risk (d := d.link change) hrisk, hchanges,
          List.map_append]
        rfl
    rw [hregister]
    exact .replace _ _

/-- The names of a directory after a sync of it. -/
theorem changes_syncDir (d : Disk δ γ α) (p : Path δ γ) : (d.syncDir p.dir).changes p = [] := by
  rw [changes, List.filterMap_eq_nil_iff]
  intro change hchange
  have hne : change.dir ≠ p.dir := of_decide_eq_true (List.mem_filter.mp hchange).2
  rw [Change.of, if_neg (Ne.symm hne)]

theorem changes_syncDir_other (hother : p.dir ≠ dir) :
    (d.syncDir dir).changes p = d.changes p := by
  simp only [changes, Disk.syncDir]
  induction d.pending with
  | nil => rfl
  | cons change pending ih =>
    by_cases hdir : change.dir = dir
    · have hof : change.of p = none := if_neg (hdir ▸ hother)
      rw [List.filter_cons_of_neg (by simpa using hdir),
        List.filterMap_cons_none (by exact hof), ih]
    · rw [List.filter_cons_of_pos (by simpa using hdir), List.filterMap_cons, List.filterMap_cons,
        ih]

/-- What a name leads to is what it led to on the medium or since. -/
theorem Sound.entries_mem (h : d.Sound p) : d.entries p ∈ d.durable p :: d.changes p := by
  rw [h.entries_eq]
  exact List.getLastD_mem_cons

/-- A sync of a directory leaves every name what it is. -/
theorem Sound.syncDir (h : d.Sound p) (dir : List δ) : (d.syncDir dir).Sound p := by
  by_cases hdir : p.dir = dir
  · subst hdir
    refine ⟨?_, fun i hi ↦ ?_, ?_⟩
    · rw [changes_syncDir, durable_syncDir]
      rfl
    · rw [changes_syncDir, durable_syncDir, List.mem_singleton] at hi
      exact h.whole i (hi ▸ h.entries_mem)
    · rw [changes_syncDir, durable_syncDir]
      by_cases hentry : d.entries p = none
      · exact Or.inr ⟨hentry, rfl⟩
      · exact Or.inl (h.there hentry)
  · exact h.of_same (Keeps.refl d) rfl (durable_syncDir_other hdir) (changes_syncDir_other hdir)
      fun _ ↦ id

/-- A sync of its directory settles a name, if that is not at risk itself. -/
theorem Sound.syncDir_settle (h : d.Sound p) (hrisk : ¬ d.AtRisk p.dir) :
    Register.Step (d.register p) .settle ((d.syncDir p.dir).register p) := by
  have hregister : (d.syncDir p.dir).register p = ⟨(d.register p).current, []⟩ := by
    rw [← h.contents_eq, register_of_no_risk fun hafter ↦ hrisk hafter.of_syncDir,
      changes_syncDir, durable_syncDir]
    rfl
  rw [hregister]
  exact .settle _

/-- A sync of another directory is none of the name's business, if its own is not at risk. -/
theorem Sound.syncDir_other (h : d.Sound p) (hother : p.dir ≠ dir) (hrisk : ¬ d.AtRisk p.dir) :
    (d.syncDir dir).register p = d.register p :=
  register_eq h (Keeps.refl d) (durable_syncDir_other hother) (changes_syncDir_other hother)
    (iff_of_false (fun hafter ↦ hrisk hafter.of_syncDir) hrisk)

/-- A name at risk keeps its value in any sync, and less may be left of it. -/
theorem Sound.syncDir_narrow (h : d.Sound p) (hrisk : d.AtRisk p.dir) :
    Register.Step (d.register p) .narrow ((d.syncDir dir).register p) := by
  refine .narrow ?_ ?_
  · have hnone : ∀ l : List (Option (List α)), [none].Sublist (none :: l) := fun l ↦
      List.singleton_sublist.mpr List.mem_cons_self
    rw [register_of_risk hrisk]
    by_cases hdir : p.dir = dir
    · subst hdir
      cases hentry : d.entries p with
      | none =>
        rw [register_of_none ((durable_syncDir d p).trans hentry), changes_syncDir]
        exact hnone _
      | some i =>
        have hmem : d.content (some i) ∈
            ((d.durable p).toList.map some ++ d.changes p).map d.content := by
          apply List.mem_map_of_mem
          rcases List.mem_cons.mp (hentry ▸ h.entries_mem) with hdurable | hchange
          · rw [← hdurable]
            simp
          · exact List.mem_append_right _ hchange
        rw [register, changes_syncDir, durable_syncDir, hentry]
        split
        · exact (List.singleton_sublist.mpr hmem).cons_cons none
        · exact List.singleton_sublist.mpr (List.mem_cons_of_mem _ hmem)
    · rw [register, durable_syncDir_other hdir, changes_syncDir_other hdir]
      split
      · exact List.Sublist.refl _
      · cases d.durable p with
        | none => exact List.Sublist.refl _
        | some i => exact List.sublist_cons_self none _
  · rw [← (h.syncDir dir).contents_eq, ← h.contents_eq]
    rfl

/-- After a sync of its directory a crash leaves what a name leads to, unless the name is at risk
with its directory. -/
theorem values_syncDir {v : Option (List α)}
    (hv : v ∈ ((d.syncDir p.dir).register p).values) :
    v = d.contents p ∨ d.AtRisk p.dir ∧ v = none := by
  rw [register, changes_syncDir, durable_syncDir, List.append_nil] at hv
  split at hv
  · next hrisk =>
    rcases List.mem_cons.mp hv with rfl | hv
    · exact Or.inr ⟨hrisk.of_syncDir, rfl⟩
    · left
      rw [contents]
      cases hentry : d.entries p with
      | none =>
        rw [hentry] at hv
        cases hv
      | some i =>
        rw [hentry] at hv
        exact List.mem_singleton.mp hv
  · exact Or.inl (List.mem_singleton.mp hv)

/-- What a name leads to after some of the changes is what it led to on the medium or since. -/
theorem applied_mem {kept : List (Change δ γ)} (h : kept.Sublist d.pending) (p : Path δ γ) :
    applied kept d.durable p ∈ d.durable p :: d.changes p := by
  have hsub := h.filterMap fun change ↦ change.of p
  exact (hsub.cons_cons (d.durable p)).subset List.getLastD_mem_cons

/-- Directories that are not lost are there after a crash. -/
theorem There.crash {c : Crash δ γ α} (h : d.There dir) (hkept : ¬ Gone c dir) :
    (d.crash c).There dir := by
  intro on hon hne
  have hon_kept : ¬ Gone c on := fun ⟨lost, hlost, hprefix⟩ ↦
    hkept ⟨lost, hlost, hprefix.trans hon⟩
  show (d.dirs on && !decide (Gone c on)) = true
  rw [h on hon hne, decide_eq_false hon_kept]
  rfl

/-- What a name led to since the last sync may be left under it. -/
theorem content_mem_values {file : Option ℕ} (hfile : file ∈ d.durable p :: d.changes p) :
    d.content file ∈ (d.register p).values := by
  by_cases hrisk : d.AtRisk p.dir
  · rw [register_of_risk hrisk]
    rcases List.mem_cons.mp hfile with rfl | hchange
    · cases d.durable p with
      | none => exact List.mem_cons_self
      | some i => exact List.mem_cons_of_mem _ List.mem_cons_self
    · exact List.mem_cons_of_mem _ (List.mem_map_of_mem (List.mem_append_right _ hchange))
  · rw [register_of_no_risk hrisk]
    exact List.mem_map_of_mem (f := d.content) hfile

/-- A crash leaves one of the files the name led to since the last sync, or nothing if a directory
on the way was at risk. -/
theorem Sound.crash {c : Crash δ γ α} (h : d.Sound p) (hc : d.MayCrash c) :
    (d.crash c).Sound p ∧ Register.Step (d.register p) .crash ((d.crash c).register p) := by
  have hno_risk : ¬ (d.crash c).AtRisk p.dir := fun ⟨_, hon, _⟩ ↦ absurd hon List.not_mem_nil
  by_cases hgone : Gone c p.dir
  · have hnone : (d.crash c).durable p = none := if_pos hgone
    have hrisk : d.AtRisk p.dir := hgone.imp fun lost ⟨hlost, hprefix⟩ ↦ ⟨hc.2 lost hlost, hprefix⟩
    refine ⟨⟨rfl, fun i hi ↦ ?_, Or.inr ⟨hnone, rfl⟩⟩, ?_⟩
    · cases (List.mem_singleton.mp hi).trans hnone
    · rw [register_of_none hnone]
      refine .crash _ none ?_
      rw [register_of_risk hrisk]
      exact List.mem_cons_self
  · have hkept : (d.crash c).durable p = applied c.kept d.durable p := if_neg hgone
    have happlied := applied_mem hc.1 p
    have hwhole : ∀ i, (d.crash c).durable p = some i → d.Whole i := fun i hi ↦
      h.whole i (hi ▸ hkept ▸ happlied)
    refine ⟨⟨rfl, fun i hi ↦ ?_, ?_⟩, ?_⟩
    · exact (keeps_crash d c).whole (hwhole i (List.mem_singleton.mp hi).symm)
    · refine h.placed.imp (·.crash hgone) fun ⟨hdurable, hchanges⟩ ↦ ?_
      rw [hdurable, hchanges, List.mem_singleton] at happlied
      exact ⟨hkept.trans happlied, rfl⟩
    · rw [register_of_no_risk hno_risk, (keeps_crash d c).content hwhole, hkept]
      exact .crash _ _ (content_mem_values happlied)

end Registers

end Disk

end Daku.Base
