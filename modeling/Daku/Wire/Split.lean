import Daku.Wire.Assembly

/-!
# Splitting for the wire

The daemon cuts a large series into consecutive groups of items whose chunks fit the budget,
`crates/daku-core/src/server.rs:191–306`. The serialized size of a message is a parameter.
-/

namespace Daku.Wire

variable {α : Type}

/-- Budget of one chunk in bytes (`protocol.rs:12`). -/
def dashboardChunkBudgetBytes : Nat := 256 * 1024

/-- Consecutive groups of `len` items, the last one possibly shorter. -/
def groupsOf (len : Nat) : Nat → List α → List (List α)
  | 0, _ => []
  | _, [] => []
  | fuel + 1, item :: items =>
    (item :: items).take len :: groupsOf len fuel ((item :: items).drop len)

/-- Consecutive groups of at most `len` items (`server.rs:304–306`). -/
def chunkVec (items : List α) (len : Nat) : List (List α) :=
  groupsOf (max len 1) items.length items

/-- Halve the groups until every chunk fits, 16 times at most (`server.rs:274–294`). -/
def fittingGroups (fits : List (List α) → Bool) (items : List α) : Nat → Nat → List (List α)
  | 0, _ => chunkVec items 1
  | rounds + 1, groupLen =>
    if fits (chunkVec items groupLen) then chunkVec items groupLen
    else if groupLen = 1 then chunkVec items 1
    else fittingGroups fits items rounds (max (groupLen / 2) 1)

/-- The chunks of some groups; indices and counts are `u32`. -/
def buildChunks (build : List α → Nat → Nat → ServerMessage) (groups : List (List α)) :
    List ServerMessage :=
  groups.zipIdx.map fun (group, index) ↦
    build group (index % 2 ^ 32) (groups.length % 2 ^ 32)

/-- The groups a list of items is cut into (`server.rs:264–301`). -/
def splitGroups (wireSize : ServerMessage → Nat) (items : List α)
    (build : List α → Nat → Nat → ServerMessage) : List (List α) :=
  if items.isEmpty then [[]]
  else
    let total := wireSize (build items 0 1)
    let perItem := max (total / items.length) 1
    fittingGroups
      (fun groups ↦ (buildChunks build groups).all fun chunk ↦
        wireSize chunk ≤ dashboardChunkBudgetBytes)
      items 16 (max (dashboardChunkBudgetBytes / perItem) 1)

/-- Items as chunks (`server.rs:264–301`). -/
def splitItems (wireSize : ServerMessage → Nat) (items : List α)
    (build : List α → Nat → Nat → ServerMessage) : List ServerMessage :=
  buildChunks build (splitGroups wireSize items build)

/-- A dashboard message as it crosses (`server.rs:202–259`). -/
def splitForWire (wireSize : ServerMessage → Nat) (message : ServerMessage) (transferId : Nat) :
    List ServerMessage :=
  if wireSize message ≤ dashboardChunkBudgetBytes then [message]
  else
    match message with
    | .signalSamplesUpdated environmentId signalId points =>
      splitItems wireSize points fun group index count ↦
        .signalSamplesChunk environmentId signalId transferId index count group
    | .signalRollupsUpdated environmentId signalId points =>
      splitItems wireSize points fun group index count ↦
        .signalRollupsChunk environmentId signalId transferId index count group
    | .signalSnapshotsUpdated environmentId snapshots =>
      splitItems wireSize snapshots fun group index count ↦
        .signalSnapshotsChunk environmentId transferId index count group
    | message => [message]

/-- How many items a message has that may cross in chunks. -/
def itemCount : ServerMessage → Nat
  | .signalSamplesUpdated _ _ points => points.length
  | .signalRollupsUpdated _ _ points => points.length
  | .signalSnapshotsUpdated _ snapshots => snapshots.length
  | _ => 0

/-- The dashboard messages that may cross in chunks (`server.rs:207–243`). -/
def Chunkable : ServerMessage → Prop
  | .signalSamplesUpdated .. | .signalRollupsUpdated .. | .signalSnapshotsUpdated .. => True
  | _ => False

/-- The number of items in one part. -/
def Cut.itemsIn (index : Nat) : Cut → Nat
  | .samples _ _ parts => (parts.getD index []).length
  | .rollups _ _ parts => (parts.getD index []).length
  | .snapshots _ parts => (parts.getD index []).length

/-- Groups hold all items in order, and there are no more groups than items. -/
theorem groupsOf_spec {len fuel : Nat} {items : List α} (hlen : 0 < len)
    (hfuel : items.length ≤ fuel) :
    (groupsOf len fuel items).flatten = items ∧
      (groupsOf len fuel items).length ≤ items.length ∧
      (items ≠ [] → groupsOf len fuel items ≠ []) := by
  induction fuel generalizing items with
  | zero =>
    rw [List.eq_nil_of_length_eq_zero (Nat.le_zero.mp hfuel)]
    simp [groupsOf]
  | succ fuel ih =>
    cases items with
    | nil => simp [groupsOf]
    | cons item items =>
      have hdrop : ((item :: items).drop len).length ≤ fuel := by
        rw [List.length_drop, List.length_cons] at *
        omega
      obtain ⟨hflatten, hlength, -⟩ := ih hdrop
      rw [groupsOf]
      refine ⟨?_, ?_, fun _ ↦ List.cons_ne_nil _ _⟩
      · rw [List.flatten_cons, hflatten, List.take_append_drop]
      · rw [List.length_drop, List.length_cons] at hlength
        rw [List.length_cons, List.length_cons]
        omega

/-- What every grouping of some items has in common. -/
structure Groups (items : List α) (groups : List (List α)) : Prop where
  flatten : groups.flatten = items
  nonempty : groups ≠ []
  length_le : groups.length ≤ max items.length 1

theorem groups_chunkVec {items : List α} (hne : items ≠ []) (len : Nat) :
    Groups items (chunkVec items len) := by
  have hlen : 0 < max len 1 := Nat.lt_of_lt_of_le Nat.zero_lt_one (Nat.le_max_right len 1)
  have h := groupsOf_spec hlen (Nat.le_refl items.length)
  exact ⟨h.1, h.2.2 hne, h.2.1.trans (Nat.le_max_left _ _)⟩

theorem groups_fittingGroups {items : List α} (hne : items ≠ []) (fits : List (List α) → Bool)
    (rounds groupLen : Nat) : Groups items (fittingGroups fits items rounds groupLen) := by
  induction rounds generalizing groupLen with
  | zero => exact groups_chunkVec hne 1
  | succ rounds ih =>
    rw [fittingGroups]
    split
    · exact groups_chunkVec hne groupLen
    · split
      · exact groups_chunkVec hne 1
      · exact ih _

/-- Groups that never fit end as groups of one. -/
theorem fittingGroups_of_never {fits : List (List α) → Bool} {items : List α}
    (h : ∀ len, fits (chunkVec items len) = false) (rounds groupLen : Nat) :
    fittingGroups fits items rounds groupLen = chunkVec items 1 := by
  induction rounds generalizing groupLen with
  | zero => rfl
  | succ rounds ih =>
    rw [fittingGroups, h, if_neg Bool.false_ne_true]
    split
    · rfl
    · exact ih _

/-- There are as many groups of one as items. -/
theorem length_groupsOf_one {items : List α} {fuel : Nat} (h : items.length ≤ fuel) :
    (groupsOf 1 fuel items).length = items.length := by
  induction fuel generalizing items with
  | zero =>
    rw [List.eq_nil_of_length_eq_zero (Nat.le_zero.mp h)]
    rfl
  | succ fuel ih =>
    cases items with
    | nil => rfl
    | cons item items =>
      rw [groupsOf, List.length_cons, List.drop_one, List.tail_cons,
        ih (Nat.le_of_succ_le_succ h), List.length_cons]

theorem groups_splitGroups (wireSize : ServerMessage → Nat) (items : List α)
    (build : List α → Nat → Nat → ServerMessage) :
    Groups items (splitGroups wireSize items build) := by
  rw [splitGroups]
  split
  · next hempty =>
    rw [List.isEmpty_iff.mp hempty]
    exact ⟨rfl, List.cons_ne_nil _ _, Nat.le_refl _⟩
  · next hempty => exact groups_fittingGroups (fun h ↦ hempty (List.isEmpty_iff.mpr h)) _ _ _

theorem buildChunks_eq (build : List α → Nat → Nat → ServerMessage) (groups : List (List α)) :
    buildChunks build groups = (List.range groups.length).map fun i ↦
      build (groups.getD i []) (i % 2 ^ 32) (groups.length % 2 ^ 32) := by
  apply List.ext_getElem
  · simp [buildChunks]
  · intro i hi hi'
    have hlt : i < groups.length := by simpa [buildChunks] using hi
    simp [buildChunks, List.getElem?_eq_getElem hlt]

theorem length_le_of_mem_groupsOf {len fuel : Nat} {items group : List α}
    (h : group ∈ groupsOf len fuel items) : group.length ≤ len := by
  induction fuel generalizing items with
  | zero => cases h
  | succ fuel ih =>
    cases items with
    | nil => cases h
    | cons item items =>
      rcases List.mem_cons.mp h with rfl | h
      · exact List.length_take_le _ _
      · exact ih h

/-- Either the groups fit, or they are groups of one. -/
theorem fits_fittingGroups (fits : List (List α) → Bool) (items : List α) (rounds groupLen : Nat) :
    fits (fittingGroups fits items rounds groupLen) = true ∨
      ∀ group ∈ fittingGroups fits items rounds groupLen, group.length ≤ 1 := by
  have hone : ∀ group ∈ chunkVec items 1, group.length ≤ 1 := fun _ ↦ length_le_of_mem_groupsOf
  induction rounds generalizing groupLen with
  | zero => exact Or.inr hone
  | succ rounds ih =>
    rw [fittingGroups]
    split
    · next hfits => exact Or.inl hfits
    · split
      · exact Or.inr hone
      · exact ih _

/-- Either every chunk is within the budget, or every part has at most one item. -/
theorem fits_splitGroups (wireSize : ServerMessage → Nat) (items : List α)
    (build : List α → Nat → Nat → ServerMessage) :
    (∀ chunk ∈ splitItems wireSize items build, wireSize chunk ≤ dashboardChunkBudgetBytes) ∨
      ∀ group ∈ splitGroups wireSize items build, group.length ≤ 1 := by
  rw [splitItems, splitGroups]
  split
  · right
    intro group hgroup
    rw [List.mem_singleton.mp hgroup]
    exact Nat.zero_le 1
  · refine (fits_fittingGroups _ items 16 _).imp_left fun hfits chunk hchunk ↦ ?_
    exact of_decide_eq_true (List.all_eq_true.mp hfits chunk hchunk)

theorem bounded_splitItems (wireSize : ServerMessage → Nat) (items : List α)
    (build : List α → Nat → Nat → ServerMessage) {index : Nat}
    (hindex : index < (splitGroups wireSize items build).length) :
    wireSize (build ((splitGroups wireSize items build).getD index []) (index % 2 ^ 32)
        ((splitGroups wireSize items build).length % 2 ^ 32)) ≤ dashboardChunkBudgetBytes ∨
      ((splitGroups wireSize items build).getD index []).length ≤ 1 := by
  refine (fits_splitGroups wireSize items build).imp (fun h ↦ ?_) fun h ↦ ?_
  · apply h
    rw [splitItems, buildChunks_eq, List.mem_map]
    exact ⟨index, List.mem_range.mpr hindex, rfl⟩
  · rw [List.getD_eq_getElem _ _ hindex]
    exact h _ (List.getElem_mem hindex)

/-- An oversize series crosses as the numbered chunks of a cut of it. -/
theorem exists_cut {wireSize : ServerMessage → Nat} {m : ServerMessage} (hkind : Chunkable m)
    (hsize : dashboardChunkBudgetBytes < wireSize m) (transferId : Nat) :
    ∃ cut : Cut, cut.whole = m ∧ 0 < cut.count ∧ cut.count ≤ max (itemCount m) 1 ∧
      splitForWire wireSize m transferId = (List.range cut.count).map (cut.chunk transferId) ∧
      ∀ i < cut.count, wireSize (cut.chunk transferId i) ≤ dashboardChunkBudgetBytes ∨
        cut.itemsIn i ≤ 1 := by
  unfold splitForWire
  rw [if_neg (Nat.not_le.mpr hsize)]
  cases m with
  | signalSamplesUpdated environmentId signalId points =>
    have h := groups_splitGroups wireSize points fun group index count ↦
      .signalSamplesChunk environmentId signalId transferId index count group
    refine ⟨.samples environmentId signalId _, ?_, List.length_pos_of_ne_nil h.nonempty,
      h.length_le, buildChunks_eq _ _, fun i hi ↦ bounded_splitItems wireSize points _ hi⟩
    rw [Cut.whole, h.flatten]
  | signalRollupsUpdated environmentId signalId points =>
    have h := groups_splitGroups wireSize points fun group index count ↦
      .signalRollupsChunk environmentId signalId transferId index count group
    refine ⟨.rollups environmentId signalId _, ?_, List.length_pos_of_ne_nil h.nonempty,
      h.length_le, buildChunks_eq _ _, fun i hi ↦ bounded_splitItems wireSize points _ hi⟩
    rw [Cut.whole, h.flatten]
  | signalSnapshotsUpdated environmentId snapshots =>
    have h := groups_splitGroups wireSize snapshots fun group index count ↦
      .signalSnapshotsChunk environmentId transferId index count group
    refine ⟨.snapshots environmentId _, ?_, List.length_pos_of_ne_nil h.nonempty,
      h.length_le, buildChunks_eq _ _, fun i hi ↦ bounded_splitItems wireSize snapshots _ hi⟩
    rw [Cut.whole, h.flatten]
  | _ => exact hkind.elim

/-- A message crosses whole, or as the numbered chunks of a cut of it. -/
theorem splitForWire_cases (wireSize : ServerMessage → Nat) (m : ServerMessage)
    (transferId : Nat) :
    splitForWire wireSize m transferId = [m] ∨
      ∃ cut : Cut, cut.whole = m ∧ 0 < cut.count ∧ cut.count ≤ max (itemCount m) 1 ∧
        splitForWire wireSize m transferId =
          (List.range cut.count).map (cut.chunk transferId) := by
  by_cases hsize : wireSize m ≤ dashboardChunkBudgetBytes
  · exact Or.inl (if_pos hsize)
  by_cases hkind : Chunkable m
  · obtain ⟨cut, hwhole, hpos, hcount, hchunks, -⟩ :=
      exists_cut hkind (Nat.not_le.mp hsize) transferId
    exact Or.inr ⟨cut, hwhole, hpos, hcount, hchunks⟩
  · left
    unfold splitForWire
    rw [if_neg hsize]
    cases m <;> first
      | rfl
      | exact absurd trivial hkind

end Daku.Wire
