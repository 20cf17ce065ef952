import Daku.Wire.Split

/-!
# Splitting loses nothing

A dashboard message that is cut for the wire, `crates/daku-core/src/server.rs:202–306`, comes out
of the reassembly whole, `crates/daku-client/src/client.rs:67–163`, in whatever order its chunks
arrive. The reassembly keeps the 64 transfers with the largest ids; a transfer that is not among
them when it starts is lost.
-/

namespace Daku.Wire

open Daku.Base

namespace Transfers

variable {transfers : Transfers} {transferId : Nat} {cut : Cut}

/-- The unfinished transfers of other series with a larger id. -/
def newer (transfers : Transfers) (transferId : Nat) (series : String × String) : Nat :=
  Bounded.larger (transfers.filter fun _ assembly ↦ assembly.series ≠ series) transferId

/-- A transfer with few newer ones is started and kept. -/
theorem getElem?_insertChunk_of_newer {fresh : TransferAssembly} (hnew : transferId ∉ transfers)
    (hfew : transfers.newer transferId fresh.series < maxIncompleteTransfers) :
    (transfers.insertChunk transferId fresh)[transferId]? = some fresh := by
  rw [insertChunk, if_neg fun hc ↦ hnew (Std.ExtTreeMap.mem_iff_contains.mpr hc)]
  rw [Bounded.getElem?_capped_of_larger_lt Std.ExtTreeMap.mem_insert_self]
  · exact Std.ExtTreeMap.getElem?_insert_self
  · exact (Bounded.larger_insert_self_le _ _ _).trans_lt hfew

/-- The transfer holds the parts received so far, or it would start with none. -/
def Holds (transfers : Transfers) (transferId : Nat) (cut : Cut) (received : List Nat) : Prop :=
  (transfers.insertChunk transferId (cut.assembly []))[transferId]? = some (cut.assembly received)

theorem holds_of_getElem? {received : List Nat}
    (h : transfers[transferId]? = some (cut.assembly received)) :
    transfers.Holds transferId cut received := by
  have hmem : transferId ∈ transfers := by
    rw [Std.ExtTreeMap.mem_iff_isSome_getElem?, h]
    rfl
  rwa [Holds, insertChunk_of_mem hmem]

/-- Some of the chunks, but not all: no message comes out. -/
theorem feed_some (hcount : cut.count ≤ 2 ^ 32) (hstart : transfers.Holds transferId cut [])
    {received : List Nat} (hnodup : received.Nodup) (hrange : ∀ i ∈ received, i < cut.count)
    (hlength : received.length < cut.count) :
    (transfers.feed (received.map (cut.chunk transferId))).1 = [] ∧
      (transfers.feed (received.map (cut.chunk transferId))).2.Holds transferId cut received := by
  induction received using List.reverseRecOn with
  | nil => exact ⟨rfl, hstart⟩
  | append_singleton received index ih =>
    have hbefore : ∀ i ∈ received, i < cut.count := fun i hi ↦
      hrange i (List.mem_append_left _ hi)
    rw [List.length_append, List.length_singleton] at hlength
    obtain ⟨hnone, hholds⟩ := ih (List.nodup_append.mp hnodup).1 hbefore (by omega)
    rw [List.map_append, List.map_singleton, feed_concat, hnone,
      ingest_chunk hcount (hrange index List.mem_concat_self) hholds hnodup hbefore,
      if_neg (by omega)]
    exact ⟨rfl, holds_of_getElem? Std.ExtTreeMap.getElem?_insert_self⟩

/-- All of the chunks: the message comes out with the last one. -/
theorem feed_all (hcount : cut.count ≤ 2 ^ 32) (hstart : transfers.Holds transferId cut [])
    {before : List Nat} {last : Nat} (horder : (before ++ [last]).Perm (List.range cut.count)) :
    (transfers.feed (before.map (cut.chunk transferId))).1 = [] ∧
      ((transfers.feed (before.map (cut.chunk transferId))).2.ingest
        (cut.chunk transferId last)).1 = some cut.whole := by
  have hnodup := horder.nodup_iff.mpr List.nodup_range
  have hrange : ∀ i ∈ before ++ [last], i < cut.count := fun i hi ↦
    List.mem_range.mp (horder.mem_iff.mp hi)
  have hbefore : ∀ i ∈ before, i < cut.count := fun i hi ↦ hrange i (List.mem_append_left _ hi)
  have hlength : before.length + 1 = cut.count := by
    simpa using horder.length_eq
  obtain ⟨hnone, hholds⟩ := feed_some hcount hstart (List.nodup_append.mp hnodup).1 hbefore
    (by omega)
  refine ⟨hnone, ?_⟩
  rw [ingest_chunk hcount (hrange last List.mem_concat_self) hholds hnodup hbefore, if_pos hlength]

end Transfers

/-- A chunkable message of fewer than `2 ^ 32` items crosses whole if it is within the budget.
Otherwise it crosses as chunks of one transfer with the indices below their number, each within
the budget or with one item at most, that hold its items in order; and however the chunks arrive,
the message comes out with the last one and nothing before, if fewer than 64 unfinished transfers
of other series are newer. -/
theorem split_lossless (wireSize : ServerMessage → Nat) (m : ServerMessage) (hkind : Chunkable m)
    (hitems : itemCount m < 2 ^ 32) (transferId : Nat) :
    (wireSize m ≤ dashboardChunkBudgetBytes → splitForWire wireSize m transferId = [m]) ∧
      (dashboardChunkBudgetBytes < wireSize m →
        ∃ cut : Cut, cut.whole = m ∧ 0 < cut.count ∧ cut.count < 2 ^ 32 ∧
          splitForWire wireSize m transferId =
            (List.range cut.count).map (cut.chunk transferId) ∧
          (∀ i < cut.count, wireSize (cut.chunk transferId i) ≤ dashboardChunkBudgetBytes ∨
            cut.itemsIn i ≤ 1) ∧
          ∀ transfers : Transfers, transferId ∉ transfers →
            transfers.newer transferId cut.series < maxIncompleteTransfers →
            ∀ before last, (before ++ [last]).Perm (List.range cut.count) →
              (transfers.feed (before.map (cut.chunk transferId))).1 = [] ∧
                ((transfers.feed (before.map (cut.chunk transferId))).2.ingest
                  (cut.chunk transferId last)).1 = some m) := by
  refine ⟨fun hsize ↦ if_pos hsize, fun hsize ↦ ?_⟩
  obtain ⟨cut, hwhole, hpos, hcount, hchunks, hbounded⟩ := exists_cut hkind hsize transferId
  have hlt : cut.count < 2 ^ 32 := by omega
  refine ⟨cut, hwhole, hpos, hlt, hchunks, hbounded, ?_⟩
  intro transfers hnew hfew before last horder
  have hstart : transfers.Holds transferId cut [] := by
    apply Transfers.getElem?_insertChunk_of_newer hnew
    rwa [Cut.series_assembly]
  rw [← hwhole]
  exact Transfers.feed_all hlt.le hstart horder

/-- Two points that do not fit one chunk. -/
theorem split_lossless_two_points :
    let points : List SamplePoint := [⟨60, some 120⟩, ⟨120, some 95⟩]
    let m : ServerMessage := .signalSamplesUpdated "prod" "availability" points
    ∃ cut : Cut, cut.whole = m ∧
      splitForWire (fun _ ↦ 300000) m 7 = (List.range cut.count).map (cut.chunk 7) ∧
      ∀ before last, (before ++ [last]).Perm (List.range cut.count) →
        (Transfers.feed ∅ (before.map (cut.chunk 7))).1 = [] ∧
          ((Transfers.feed ∅ (before.map (cut.chunk 7))).2.ingest (cut.chunk 7 last)).1 =
            some m := by
  intro points m
  obtain ⟨cut, hwhole, -, -, hchunks, -, hfeed⟩ :=
    (split_lossless (fun _ ↦ 300000) m trivial (by decide) 7).2 (by decide)
  refine ⟨cut, hwhole, hchunks, hfeed ∅ Std.ExtTreeMap.not_mem_empty ?_⟩
  have hempty : (∅ : Transfers).filter (fun _ assembly ↦ assembly.series ≠ cut.series) = ∅ := by
    apply Std.ExtTreeMap.eq_empty_iff_forall_not_mem.mpr
    intro k hk
    exact Std.ExtTreeMap.not_mem_empty (Std.ExtTreeMap.mem_of_mem_filter hk)
  rw [Transfers.newer, hempty]
  exact (Bounded.larger_le_size _ _).trans_lt (by decide)

/-- Points that never fit cross one by one, and their number wraps. -/
theorem chunk_of_wrapped_count {points : List SamplePoint} (h : points.length = 2 ^ 32) :
    .signalSamplesChunk "prod" "availability" 7 0 0 ((chunkVec points 1).getD 0 []) ∈
      splitForWire (fun _ ↦ 300000) (.signalSamplesUpdated "prod" "availability" points) 7 := by
  have hne : ¬ points.isEmpty = true := by
    rw [List.isEmpty_iff, ← List.length_eq_zero_iff, h]
    omega
  have hnever : ∀ len, ((buildChunks (fun group index count ↦
      ServerMessage.signalSamplesChunk "prod" "availability" 7 index count group)
      (chunkVec points len)).all
        fun _ ↦ decide (300000 ≤ dashboardChunkBudgetBytes)) = false := by
    intro len
    have hgroups := (groups_chunkVec (fun hnil ↦ hne (List.isEmpty_iff.mpr hnil)) len).nonempty
    obtain ⟨group, groups, hcons⟩ := List.exists_cons_of_ne_nil hgroups
    rw [hcons, buildChunks, List.zipIdx_cons, List.map_cons, List.all_cons]
    rfl
  have hlength : (chunkVec points 1).length = 2 ^ 32 :=
    (length_groupsOf_one (Nat.le_refl _)).trans h
  unfold splitForWire
  rw [if_neg (Nat.not_le.mpr (by decide : dashboardChunkBudgetBytes < 300000))]
  dsimp only
  rw [splitItems, splitGroups, if_neg hne, fittingGroups_of_never hnever, buildChunks_eq,
    hlength]
  exact List.mem_map.mpr ⟨0, List.mem_range.mpr (by omega), rfl⟩

/-- With 64 newer transfers of other series the only chunk of a message is lost, and `2 ^ 32`
chunks announce their number as 0. -/
theorem split_lossy :
    (¬ ∀ (wireSize : ServerMessage → Nat) (m : ServerMessage) (transferId : Nat), Chunkable m →
      dashboardChunkBudgetBytes < wireSize m → ∀ transfers : Transfers, transferId ∉ transfers →
        (transfers.feed (splitForWire wireSize m transferId)).1 = [m]) ∧
    ¬ ∀ (wireSize : ServerMessage → Nat) (m : ServerMessage) (transferId : Nat), Chunkable m →
      dashboardChunkBudgetBytes < wireSize m →
      ∀ environmentId signalId index count points,
        .signalSamplesChunk environmentId signalId transferId index count points ∈
          splitForWire wireSize m transferId → index < count := by
  constructor
  · intro hall
    let full : Transfers := (List.range 64).foldl
      (fun transfers i ↦ transfers.insert (i + 1) (.samples (toString i) "jobs" 2 ∅)) ∅
    have hlost := hall (fun _ ↦ 300000) (.signalSamplesUpdated "prod" "availability" [⟨60, none⟩])
      0 trivial (by decide) full (by decide +kernel)
    have hnone : (full.feed (splitForWire (fun _ ↦ 300000)
        (.signalSamplesUpdated "prod" "availability" [⟨60, none⟩]) 0)).1.length = 0 := by
      decide +kernel
    rw [hlost] at hnone
    cases hnone
  · intro hall
    obtain ⟨points, hpoints⟩ : ∃ points : List SamplePoint, points.length = 2 ^ 32 :=
      ⟨List.replicate _ ⟨60, none⟩, List.length_replicate⟩
    have hlt := hall (fun _ ↦ 300000) (.signalSamplesUpdated "prod" "availability" points) 7
      trivial (by decide) _ _ _ _ _ (chunk_of_wrapped_count hpoints)
    exact Nat.lt_irrefl 0 hlt

end Daku.Wire
