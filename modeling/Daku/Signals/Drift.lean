import Daku.Base.Walks
import Mathlib.Data.List.Sort
import Mathlib.Data.String.Basic

/-!
# Plugin differences

What two Environments have for plugins is compared by id, `crates/daku-core/src/drift.rs:500–567`.
The two hash maps are walked in no particular order.
-/

namespace Daku.Signals

open Daku.Base

/-- `PluginRecord` (`drift.rs:500–505`). -/
structure PluginRecord where
  id : String
  version : String
  active : Bool
  deriving DecidableEq, Repr

/-- `PluginMismatch` (`drift.rs:507–515`). -/
structure PluginMismatch where
  id : String
  sourceVersion : Option String
  otherVersion : Option String
  deriving DecidableEq, Repr

/-- `mismatch_version` (`drift.rs:523–529`). -/
def mismatchVersion (record : PluginRecord) : String :=
  let version := record.version
  if record.active then version else s!"{version} (inactive)"

/-- The map by id, the last record of an id counting (`drift.rs:535–542`). -/
def byId (records : List PluginRecord) : String → Option PluginRecord :=
  lastByKey PluginRecord.id records

/-- The first pass, for one entry of the source (`drift.rs:544–556`). -/
def sourceMismatch (otherById : String → Option PluginRecord) (entry : String × PluginRecord) :
    Option PluginMismatch :=
  let (id, sourceRecord) := entry
  let mismatch (otherRecord : Option PluginRecord) : PluginMismatch :=
    ⟨id, some (mismatchVersion sourceRecord), otherRecord.map mismatchVersion⟩
  match otherById id with
  | some otherRecord =>
    if otherRecord.version = sourceRecord.version ∧ otherRecord.active = sourceRecord.active then
      none
    else some (mismatch (some otherRecord))
  | none => some (mismatch none)

/-- The second pass, for one entry of the other side (`drift.rs:557–564`). -/
def otherMismatch (sourceById : String → Option PluginRecord) (entry : String × PluginRecord) :
    Option PluginMismatch :=
  let (id, otherRecord) := entry
  if (sourceById id).isSome then none else some ⟨id, none, some (mismatchVersion otherRecord)⟩

/-- `diff_plugin_inventory`, with the orders in which the maps are walked (`drift.rs:531–567`). -/
def diffPluginInventory {source other : List PluginRecord} (sourceWalk : Walk (byId source))
    (otherWalk : Walk (byId other)) : List PluginMismatch :=
  let mismatches := sourceWalk.entries.filterMap (sourceMismatch (byId other)) ++
    otherWalk.entries.filterMap (otherMismatch (byId source))
  mismatches.insertionSort fun a b ↦ a.id ≤ b.id

/-- How two maps of plugins differ at an id: absent sides have no version. -/
def differenceAt (source other : String → Option PluginRecord) (id : String) :
    Option PluginMismatch :=
  if source id = other id then none
  else some ⟨id, (source id).map mismatchVersion, (other id).map mismatchVersion⟩

/-- The two columns exchanged. -/
def PluginMismatch.swap (m : PluginMismatch) : PluginMismatch :=
  ⟨m.id, m.otherVersion, m.sourceVersion⟩

section DifferenceAt

variable {source other : String → Option PluginRecord} {id : String} {m : PluginMismatch}

theorem id_of_differenceAt (h : differenceAt source other id = some m) : m.id = id := by
  rw [differenceAt] at h
  split at h
  · cases h
  · rw [← Option.some.inj h]

theorem differenceAt_eq_none_iff : differenceAt source other id = none ↔ source id = other id := by
  rw [differenceAt]
  split <;> simp_all

theorem differenceAt_swap (source other : String → Option PluginRecord) (id : String) :
    differenceAt other source id = (differenceAt source other id).map PluginMismatch.swap := by
  rw [differenceAt, differenceAt]
  by_cases h : source id = other id
  · rw [if_pos h, if_pos h.symm]
    rfl
  · rw [if_neg h, if_neg (Ne.symm h)]
    rfl

end DifferenceAt

section Passes

variable {source other : List PluginRecord} {id : String} {a b : PluginRecord}
  {m : PluginMismatch}

/-- Records of one id are the same if version and flag are. -/
private theorem eq_iff_of_byId (ha : byId source id = some a) (hb : byId other id = some b) :
    b.version = a.version ∧ b.active = a.active ↔ a = b := by
  have hid : a.id = b.id := (key_of_lastByKey ha).trans (key_of_lastByKey hb).symm
  constructor
  · rintro ⟨hversion, hactive⟩
    cases a
    cases b
    simp_all
  · rintro rfl
    exact ⟨rfl, rfl⟩

/-- The first pass finds how the maps differ at an id of the source. -/
theorem sourceMismatch_eq (ha : byId source id = some a) :
    sourceMismatch (byId other) (id, a) = differenceAt (byId source) (byId other) id := by
  rw [sourceMismatch, differenceAt, ha]
  dsimp only
  cases hb : byId other id with
  | none =>
    rw [if_neg (Option.some_ne_none a)]
    rfl
  | some b =>
    exact if_congr ((eq_iff_of_byId ha hb).trans Option.some_inj.symm) rfl rfl

/-- The second pass finds how they differ at an id that only the other side has. -/
theorem otherMismatch_eq (hb : byId other id = some b) :
    otherMismatch (byId source) (id, b) =
      if (byId source id).isSome then none else differenceAt (byId source) (byId other) id := by
  rw [otherMismatch, differenceAt, hb]
  cases byId source id with
  | none => rfl
  | some a => rfl

variable (sourceWalk : Walk (byId source)) (otherWalk : Walk (byId other))

/-- What is found in a pass over a walk. -/
private theorem mem_pass {table : String → Option PluginRecord} (walk : Walk table)
    {f : String × PluginRecord → Option PluginMismatch} :
    m ∈ walk.entries.filterMap f ↔ ∃ id a, table id = some a ∧ f (id, a) = some m := by
  rw [List.mem_filterMap]
  constructor
  · rintro ⟨⟨id, a⟩, hentry, hm⟩
    exact ⟨id, a, (walk.mem_iff id a).mp hentry, hm⟩
  · rintro ⟨id, a, ha, hm⟩
    exact ⟨(id, a), (walk.mem_iff id a).mpr ha, hm⟩

theorem mem_sourcePass : m ∈ sourceWalk.entries.filterMap (sourceMismatch (byId other)) ↔
    differenceAt (byId source) (byId other) m.id = some m ∧ (byId source m.id).isSome := by
  rw [mem_pass]
  constructor
  · rintro ⟨id, a, ha, hm⟩
    rw [sourceMismatch_eq ha] at hm
    have hid := id_of_differenceAt hm
    rw [hid, ha]
    exact ⟨hm, rfl⟩
  · rintro ⟨hm, hsome⟩
    obtain ⟨a, ha⟩ := Option.isSome_iff_exists.mp hsome
    exact ⟨m.id, a, ha, (sourceMismatch_eq ha).trans hm⟩

theorem mem_otherPass : m ∈ otherWalk.entries.filterMap (otherMismatch (byId source)) ↔
    differenceAt (byId source) (byId other) m.id = some m ∧ byId source m.id = none := by
  rw [mem_pass]
  constructor
  · rintro ⟨id, b, hb, hm⟩
    rw [otherMismatch_eq hb] at hm
    split at hm
    · cases hm
    next hnone =>
      have hid := id_of_differenceAt hm
      rw [hid]
      exact ⟨hm, Option.not_isSome_iff_eq_none.mp hnone⟩
  · rintro ⟨hm, hnone⟩
    have hdiffer : byId source m.id ≠ byId other m.id := by
      intro hsame
      rw [differenceAt_eq_none_iff.mpr hsame] at hm
      cases hm
    rw [hnone] at hdiffer
    obtain ⟨b, hb⟩ := Option.ne_none_iff_exists'.mp hdiffer.symm
    refine ⟨m.id, b, hb, ?_⟩
    rw [otherMismatch_eq hb, hnone]
    exact hm

/-- A pass finds an id at most once. -/
private theorem pairwise_pass {table : String → Option PluginRecord} (walk : Walk table)
    {f : String × PluginRecord → Option PluginMismatch}
    (hf : ∀ id a m, table id = some a → f (id, a) = some m → m.id = id) :
    (walk.entries.filterMap f).Pairwise fun m m' ↦ m.id ≠ m'.id := by
  rw [List.pairwise_filterMap]
  have hkeys := List.pairwise_map.mp walk.nodup
  refine hkeys.imp_of_mem ?_
  rintro ⟨id, a⟩ ⟨id', a'⟩ hmem hmem' hne m hm m' hm'
  rw [hf id a m ((walk.mem_iff id a).mp hmem) hm, hf id' a' m' ((walk.mem_iff id' a').mp hmem') hm']
  exact hne

/-- What is returned is the difference of the maps. -/
theorem mem_diffPluginInventory : m ∈ diffPluginInventory sourceWalk otherWalk ↔
    differenceAt (byId source) (byId other) m.id = some m := by
  rw [diffPluginInventory, List.mem_insertionSort, List.mem_append, mem_sourcePass, mem_otherPass,
    ← and_or_left]
  apply and_iff_left_of_imp
  intro _
  cases byId source m.id with
  | none => exact Or.inr rfl
  | some a => exact Or.inl rfl

/-- It is sorted by id, and has no id twice. -/
theorem pairwise_diffPluginInventory :
    (diffPluginInventory sourceWalk otherWalk).Pairwise fun m m' ↦ m.id < m'.id := by
  have hsource := pairwise_pass sourceWalk (f := sourceMismatch (byId other)) fun id a m ha hm ↦ by
    rw [sourceMismatch_eq ha] at hm
    exact id_of_differenceAt hm
  have hother := pairwise_pass otherWalk (f := otherMismatch (byId source)) fun id b m hb hm ↦ by
    rw [otherMismatch_eq hb] at hm
    split at hm
    · cases hm
    · exact id_of_differenceAt hm
  have hne : (diffPluginInventory sourceWalk otherWalk).Pairwise fun m m' ↦ m.id ≠ m'.id := by
    rw [diffPluginInventory]
    refine ((List.perm_insertionSort _ _).pairwise_iff fun h ↦ Ne.symm h).mpr ?_
    refine List.pairwise_append.mpr ⟨hsource, hother, fun m hm m' hm' hid ↦ ?_⟩
    have hsome := ((mem_sourcePass sourceWalk).mp hm).2
    have hnone := ((mem_otherPass otherWalk).mp hm').2
    rw [hid, hnone] at hsome
    cases hsome
  have hsorted : (diffPluginInventory sourceWalk otherWalk).Pairwise fun m m' ↦ m.id ≤ m'.id := by
    rw [diffPluginInventory]
    exact List.pairwise_insertionSort (fun m m' : PluginMismatch ↦ m.id ≤ m'.id) _
  exact (hsorted.and hne).imp fun h ↦ lt_of_le_of_ne h.1 h.2

/-- Maps that agree have the same difference, however they are walked. -/
theorem diffPluginInventory_congr {source' other' : List PluginRecord}
    (sourceWalk' : Walk (byId source')) (otherWalk' : Walk (byId other'))
    (hsource : byId source' = byId source) (hother : byId other' = byId other) :
    diffPluginInventory sourceWalk' otherWalk' = diffPluginInventory sourceWalk otherWalk := by
  have hirrefl : Std.Irrefl fun m m' : PluginMismatch ↦ m.id < m'.id :=
    ⟨fun m ↦ lt_irrefl m.id⟩
  apply (pairwise_diffPluginInventory sourceWalk' otherWalk').eq_of_mem_iff
    (pairwise_diffPluginInventory sourceWalk otherWalk)
  intro m
  rw [mem_diffPluginInventory, mem_diffPluginInventory, hsource, hother]

/-- The sides exchanged, the columns are exchanged. -/
theorem diffPluginInventory_swap (sourceWalk' : Walk (byId source))
    (otherWalk' : Walk (byId other)) :
    diffPluginInventory otherWalk' sourceWalk' =
      (diffPluginInventory sourceWalk otherWalk).map PluginMismatch.swap := by
  have hirrefl : Std.Irrefl fun m m' : PluginMismatch ↦ m.id < m'.id :=
    ⟨fun m ↦ lt_irrefl m.id⟩
  have hmapped : ((diffPluginInventory sourceWalk otherWalk).map PluginMismatch.swap).Pairwise
      fun m m' ↦ m.id < m'.id :=
    List.pairwise_map.mpr (pairwise_diffPluginInventory sourceWalk otherWalk)
  apply (pairwise_diffPluginInventory otherWalk' sourceWalk').eq_of_mem_iff hmapped
  intro m
  rw [mem_diffPluginInventory, differenceAt_swap, Option.map_eq_some_iff, List.mem_map]
  constructor
  · rintro ⟨m', hm', rfl⟩
    exact ⟨m', (mem_diffPluginInventory sourceWalk otherWalk).mpr hm', rfl⟩
  · rintro ⟨m', hm', rfl⟩
    exact ⟨m', (mem_diffPluginInventory sourceWalk otherWalk).mp hm', rfl⟩

end Passes

/-- Two sides differ: in the version, in the flag, or in that one of them is absent. -/
def Differ : Option PluginRecord → Option PluginRecord → Prop
  | some a, some b => a.version ≠ b.version ∨ a.active ≠ b.active
  | none, none => False
  | _, _ => True

/-- One entry for each id at which two maps differ, by id, with no version on an absent side. -/
structure MapDifference (source other : String → Option PluginRecord)
    (mismatches : List PluginMismatch) : Prop where
  ids : ∀ id, (∃ m ∈ mismatches, m.id = id) ↔ Differ (source id) (other id)
  sorted : mismatches.Pairwise fun m m' ↦ m.id < m'.id
  versions : ∀ m ∈ mismatches, m.sourceVersion = (source m.id).map mismatchVersion ∧
    m.otherVersion = (other m.id).map mismatchVersion

private theorem differ_iff {source other : List PluginRecord} {id : String} :
    Differ (byId source id) (byId other id) ↔ byId source id ≠ byId other id := by
  cases ha : byId source id with
  | none =>
    cases byId other id with
    | none => exact iff_of_false not_false (not_not_intro rfl)
    | some b => exact iff_of_true trivial (Option.some_ne_none b).symm
  | some a =>
    cases hb : byId other id with
    | none => exact iff_of_true trivial (Option.some_ne_none a)
    | some b =>
      rw [Ne, Option.some.injEq, ← eq_iff_of_byId ha hb, Differ, not_and_or, ne_comm,
        @ne_comm _ a.active]

/-- What `diff_plugin_inventory` returns is the difference of the two maps of last records,
whatever the order in which these are walked; so it is empty exactly if they are equal, depends
on no order of lists without repeated ids, and has its columns exchanged with the sides. -/
theorem plugin_diff_is_map_difference {source other : List PluginRecord}
    (sourceWalk : Walk (byId source)) (otherWalk : Walk (byId other)) :
    MapDifference (byId source) (byId other) (diffPluginInventory sourceWalk otherWalk) ∧
      (diffPluginInventory sourceWalk otherWalk = [] ↔ byId source = byId other) ∧
      (∀ (source' other' : List PluginRecord) (sourceWalk' : Walk (byId source'))
        (otherWalk' : Walk (byId other')), (source.map PluginRecord.id).Nodup →
        (other.map PluginRecord.id).Nodup → source'.Perm source → other'.Perm other →
        diffPluginInventory sourceWalk' otherWalk' = diffPluginInventory sourceWalk otherWalk) ∧
      ∀ (sourceWalk' : Walk (byId source)) (otherWalk' : Walk (byId other)),
        diffPluginInventory otherWalk' sourceWalk' =
          (diffPluginInventory sourceWalk otherWalk).map PluginMismatch.swap := by
  have hids : ∀ id, (∃ m ∈ diffPluginInventory sourceWalk otherWalk, m.id = id) ↔
      byId source id ≠ byId other id := by
    intro id
    rw [Ne, ← differenceAt_eq_none_iff]
    constructor
    · rintro ⟨m, hm, rfl⟩
      rw [(mem_diffPluginInventory sourceWalk otherWalk).mp hm]
      exact Option.some_ne_none m
    · intro h
      obtain ⟨m, hm⟩ := Option.ne_none_iff_exists'.mp h
      have hid := id_of_differenceAt hm
      rw [← hid] at hm
      exact ⟨m, (mem_diffPluginInventory sourceWalk otherWalk).mpr hm, hid⟩
  refine ⟨⟨fun id ↦ (hids id).trans differ_iff.symm,
    pairwise_diffPluginInventory sourceWalk otherWalk, fun m hm ↦ ?_⟩, ?_, ?_,
    diffPluginInventory_swap sourceWalk otherWalk⟩
  · have hat := (mem_diffPluginInventory sourceWalk otherWalk).mp hm
    rw [differenceAt] at hat
    split at hat
    · cases hat
    · have hm := Option.some.inj hat
      exact ⟨(congrArg PluginMismatch.sourceVersion hm).symm,
        (congrArg PluginMismatch.otherVersion hm).symm⟩
  · constructor
    · intro hempty
      funext id
      by_contra hdiffer
      obtain ⟨m, hm, -⟩ := (hids id).mpr hdiffer
      rw [hempty] at hm
      cases hm
    · intro hsame
      apply List.eq_nil_iff_forall_not_mem.mpr
      intro m hm
      exact (hids m.id).mp ⟨m, hm, rfl⟩ (congrFun hsame m.id)
  · intro source' other' sourceWalk' otherWalk' hsource hother hpermSource hpermOther
    exact diffPluginInventory_congr _ _ sourceWalk' otherWalk'
      (lastByKey_perm hsource hpermSource) (lastByKey_perm hother hpermOther)

/-- Two plugins of a source, and two others with one id in common. -/
def sourcePlugins : List PluginRecord := [⟨"a", "1.0.0", true⟩, ⟨"b", "2.0.0", true⟩]

def otherPlugins : List PluginRecord := [⟨"c", "0.9.0", true⟩, ⟨"a", "1.0.0", false⟩]

/-- The walks in the order of the lists. -/
def sourceInOrder : Walk (byId sourcePlugins) := .inOrder (by decide)

def otherInOrder : Walk (byId otherPlugins) := .inOrder (by decide)

/-- Differences in the flag, and of both sides, sorted; and the same for the other order. -/
theorem plugin_diff_both_ways :
    diffPluginInventory sourceInOrder otherInOrder =
        [⟨"a", some "1.0.0", some "1.0.0 (inactive)"⟩, ⟨"b", some "2.0.0", none⟩,
          ⟨"c", none, some "0.9.0"⟩] ∧
      MapDifference (byId sourcePlugins) (byId otherPlugins)
        (diffPluginInventory sourceInOrder otherInOrder) ∧
      ∀ walk : Walk (byId otherPlugins.reverse),
        diffPluginInventory sourceInOrder walk =
          diffPluginInventory sourceInOrder otherInOrder := by
  obtain ⟨hdifference, -, hreordered, -⟩ :=
    plugin_diff_is_map_difference sourceInOrder otherInOrder
  exact ⟨by decide +kernel, hdifference, fun walk ↦ hreordered _ _ sourceInOrder walk (by decide)
    (by decide) (.refl _) (List.reverse_perm _)⟩

end Daku.Signals
