import Daku.Base.Bounded
import Daku.Base.Parts
import Daku.Wire.Message

/-!
# Chunked transfers

A dashboard message that is too large for one frame crosses as numbered chunks. The client keeps
the unfinished ones by transfer id, `crates/daku-client/src/client.rs:40–163`.
-/

namespace Daku.Wire

open Daku.Base

/-- One chunked transfer being reassembled (`client.rs:42–60`). -/
inductive TransferAssembly where
  | samples (environmentId signalId : String) (count : Nat) (parts : Parts SamplePoint)
  | rollups (environmentId signalId : String) (count : Nat) (parts : Parts RollupPoint)
  | snapshots (environmentId : String) (count : Nat) (parts : Parts SignalSnapshotDto)

namespace TransferAssembly

/-- What makes a newer transfer replace this one (`client.rs:106–120`). -/
def series : TransferAssembly → String × String
  | samples environmentId signalId _ _ => (environmentId, signalId)
  | rollups environmentId signalId _ _ => (environmentId, signalId)
  | snapshots environmentId _ _ => (environmentId, "")

/-- The message once there are as many parts as announced (`client.rs:123–162`). -/
def assembled : TransferAssembly → Option ServerMessage
  | samples environmentId signalId count parts =>
    if parts.size % 2 ^ 32 = count then
      some (.signalSamplesUpdated environmentId signalId parts.items)
    else none
  | rollups environmentId signalId count parts =>
    if parts.size % 2 ^ 32 = count then
      some (.signalRollupsUpdated environmentId signalId parts.items)
    else none
  | snapshots environmentId count parts =>
    if parts.size % 2 ^ 32 = count then
      some (.signalSnapshotsUpdated environmentId parts.items)
    else none

end TransferAssembly

/-- Unfinished transfers by id. -/
abbrev Transfers := Std.ExtTreeMap Nat TransferAssembly

/-- Unfinished transfers a connection keeps (`client.rs:65`). -/
def maxIncompleteTransfers : Nat := 64

namespace Transfers

/-- Start a transfer unless it has been started; the others of its series go
(`client.rs:69–83`). -/
def insertChunk (transfers : Transfers) (transferId : Nat) (fresh : TransferAssembly) :
    Transfers :=
  if transfers.contains transferId then transfers
  else
    let kept := transfers.filter fun _ assembly ↦ assembly.series ≠ fresh.series
    let started := kept.insert transferId fresh
    Bounded.capped maxIncompleteTransfers started.size started

/-- Store a part, and take the message out once it is whole (`client.rs:87–102`). -/
def ingestChunk (transfers : Transfers) (transferId : Nat) (fresh : TransferAssembly)
    (insert : TransferAssembly → TransferAssembly) : Option ServerMessage × Transfers :=
  let stored := (transfers.insertChunk transferId fresh).modify transferId insert
  match (stored[transferId]?).bind TransferAssembly.assembled with
  | some whole => (some whole, stored.erase transferId)
  | none => (none, stored)

/-- What the reader does with a chunk (`client.rs:355–430`). -/
def ingest (transfers : Transfers) : ServerMessage → Option ServerMessage × Transfers
  | .signalSamplesChunk environmentId signalId transferId chunkIndex chunkCount points =>
    transfers.ingestChunk transferId (.samples environmentId signalId chunkCount ∅) fun
      | .samples environmentId signalId count parts =>
        .samples environmentId signalId count (parts.insert chunkIndex points)
      | assembly => assembly
  | .signalRollupsChunk environmentId signalId transferId chunkIndex chunkCount points =>
    transfers.ingestChunk transferId (.rollups environmentId signalId chunkCount ∅) fun
      | .rollups environmentId signalId count parts =>
        .rollups environmentId signalId count (parts.insert chunkIndex points)
      | assembly => assembly
  | .signalSnapshotsChunk environmentId transferId chunkIndex chunkCount snapshots =>
    transfers.ingestChunk transferId (.snapshots environmentId chunkCount ∅) fun
      | .snapshots environmentId count parts =>
        .snapshots environmentId count (parts.insert chunkIndex snapshots)
      | assembly => assembly
  | _ => (none, transfers)

/-- Chunks ingested one after another: the messages they complete, and what is left. -/
def feed : Transfers → List ServerMessage → List ServerMessage × Transfers
  | transfers, [] => ([], transfers)
  | transfers, chunk :: chunks =>
    let (whole, left) := transfers.ingest chunk
    let (wholes, last) := feed left chunks
    (whole.toList ++ wholes, last)

end Transfers

/-- A dashboard message cut into parts. -/
inductive Cut where
  | samples (environmentId signalId : String) (parts : List (List SamplePoint))
  | rollups (environmentId signalId : String) (parts : List (List RollupPoint))
  | snapshots (environmentId : String) (parts : List (List SignalSnapshotDto))
  deriving DecidableEq

namespace Cut

/-- The message that was cut. -/
def whole : Cut → ServerMessage
  | samples environmentId signalId parts =>
    .signalSamplesUpdated environmentId signalId parts.flatten
  | rollups environmentId signalId parts =>
    .signalRollupsUpdated environmentId signalId parts.flatten
  | snapshots environmentId parts => .signalSnapshotsUpdated environmentId parts.flatten

/-- The number of parts. -/
def count : Cut → Nat
  | samples _ _ parts => parts.length
  | rollups _ _ parts => parts.length
  | snapshots _ parts => parts.length

/-- The series a transfer of it fills. -/
def series : Cut → String × String
  | samples environmentId signalId _ => (environmentId, signalId)
  | rollups environmentId signalId _ => (environmentId, signalId)
  | snapshots environmentId _ => (environmentId, "")

/-- One part as it crosses; numbers are `u32`. -/
def chunk (transferId index : Nat) : Cut → ServerMessage
  | samples environmentId signalId parts =>
    .signalSamplesChunk environmentId signalId transferId (index % 2 ^ 32)
      (parts.length % 2 ^ 32) (parts.getD index [])
  | rollups environmentId signalId parts =>
    .signalRollupsChunk environmentId signalId transferId (index % 2 ^ 32)
      (parts.length % 2 ^ 32) (parts.getD index [])
  | snapshots environmentId parts =>
    .signalSnapshotsChunk environmentId transferId (index % 2 ^ 32)
      (parts.length % 2 ^ 32) (parts.getD index [])

/-- A transfer of it that has received some of the parts. -/
def assembly (received : List Nat) : Cut → TransferAssembly
  | samples environmentId signalId parts =>
    .samples environmentId signalId (parts.length % 2 ^ 32) (Parts.collect parts received)
  | rollups environmentId signalId parts =>
    .rollups environmentId signalId (parts.length % 2 ^ 32) (Parts.collect parts received)
  | snapshots environmentId parts =>
    .snapshots environmentId (parts.length % 2 ^ 32) (Parts.collect parts received)

@[simp] theorem series_assembly (cut : Cut) (received : List Nat) :
    (cut.assembly received).series = cut.series := by
  cases cut <;> rfl

/-- A transfer that has received something is whole exactly when it has received all parts. -/
theorem assembled_assembly {cut : Cut} {received : List Nat} (hcount : cut.count ≤ 2 ^ 32)
    (hne : received ≠ []) (hnodup : received.Nodup) (hrange : ∀ i ∈ received, i < cut.count) :
    (cut.assembly received).assembled =
      if received.length = cut.count then some cut.whole else none := by
  have hsub : received.Subperm (List.range cut.count) :=
    hnodup.subperm fun i hi ↦ List.mem_range.mpr (hrange i hi)
  have hle : received.length ≤ cut.count := by
    simpa only [List.length_range] using hsub.length_le
  have hpos : 0 < received.length := List.length_pos_of_ne_nil hne
  -- `2 ^ 32` parts are announced as none, and none is what their number wraps to
  have hmod : received.length % 2 ^ 32 = cut.count % 2 ^ 32 ↔ received.length = cut.count := by
    omega
  by_cases h : received.length = cut.count
  · have hall : received.Perm (List.range cut.count) :=
      hsub.perm_of_length_le (by rw [h, List.length_range])
    rw [if_pos h]
    cases cut <;>
      simp only [assembly, TransferAssembly.assembled, Parts.size_collect hnodup] <;>
      exact (if_pos (hmod.mpr h)).trans (by rw [Parts.items_collect hall]; rfl)
  · rw [if_neg h]
    cases cut <;>
      simp only [assembly, TransferAssembly.assembled, Parts.size_collect hnodup] <;>
      exact if_neg fun heq ↦ h (hmod.mp heq)

end Cut

namespace Transfers

variable {transfers : Transfers} {transferId : Nat} {fresh : TransferAssembly}

theorem feed_append (transfers : Transfers) (before after : List ServerMessage) :
    transfers.feed (before ++ after) =
      ((transfers.feed before).1 ++ ((transfers.feed before).2.feed after).1,
        ((transfers.feed before).2.feed after).2) := by
  induction before generalizing transfers with
  | nil => simp [feed]
  | cons chunk before ih => simp only [List.cons_append, feed, ih, List.append_assoc]

theorem feed_concat (transfers : Transfers) (chunks : List ServerMessage) (chunk : ServerMessage) :
    transfers.feed (chunks ++ [chunk]) =
      ((transfers.feed chunks).1 ++ ((transfers.feed chunks).2.ingest chunk).1.toList,
        ((transfers.feed chunks).2.ingest chunk).2) := by
  rw [feed_append]
  simp only [feed, List.append_nil]

theorem getElem?_insert_of_ne {id : Nat} (hne : id ≠ transferId) (a : TransferAssembly) :
    (transfers.insert transferId a)[id]? = transfers[id]? := by
  rw [Std.ExtTreeMap.getElem?_insert, if_neg]
  exact fun heq ↦ hne (Std.LawfulEqOrd.eq_of_compare heq).symm

theorem getElem?_erase_of_ne {id : Nat} (hne : id ≠ transferId) :
    (transfers.erase transferId)[id]? = transfers[id]? := by
  rw [Std.ExtTreeMap.getElem?_erase, if_neg]
  exact fun heq ↦ hne (Std.LawfulEqOrd.eq_of_compare heq).symm

theorem eq_or_mem_of_mem_insert {id : Nat} {a : TransferAssembly}
    (h : id ∈ transfers.insert transferId a) : id = transferId ∨ id ∈ transfers :=
  (Std.ExtTreeMap.mem_insert.mp h).imp_left fun heq ↦ (Std.LawfulEqOrd.eq_of_compare heq).symm

/-- A started transfer is not started again. -/
theorem insertChunk_of_mem (h : transferId ∈ transfers) :
    transfers.insertChunk transferId fresh = transfers := by
  rw [insertChunk, if_pos (Std.ExtTreeMap.mem_iff_contains.mp h)]

/-- Starting a transfer keeps transfers of other series only. -/
theorem getElem?_of_insertChunk {id : Nat} {a : TransferAssembly} (hne : id ≠ transferId)
    (hnew : transferId ∉ transfers) (h : (transfers.insertChunk transferId fresh)[id]? = some a) :
    transfers[id]? = some a ∧ a.series ≠ fresh.series := by
  rw [insertChunk, if_neg fun hc ↦ hnew (Std.ExtTreeMap.mem_iff_contains.mpr hc)] at h
  have hleft := Bounded.getElem?_of_capped h
  rw [getElem?_insert_of_ne hne, Std.ExtTreeMap.getElem?_filter',
    Option.filter_eq_some_iff] at hleft
  exact ⟨hleft.1, of_decide_eq_true hleft.2⟩

/-- While there is room, starting a transfer drops those of its series and no others. -/
theorem getElem?_insertChunk_of_room {ids : List Nat} (hids : ∀ id ∈ transfers, id ∈ ids)
    (hid : transferId ∈ ids) (hroom : ids.length ≤ maxIncompleteTransfers)
    (hnew : transferId ∉ transfers) (id : Nat) :
    (transfers.insertChunk transferId fresh)[id]? =
      if id = transferId then some fresh
      else (transfers[id]?).filter fun a ↦ a.series ≠ fresh.series := by
  rw [insertChunk, if_neg fun hc ↦ hnew (Std.ExtTreeMap.mem_iff_contains.mpr hc)]
  rw [Bounded.capped_of_size_le]
  · by_cases h : id = transferId
    · subst h
      simp
    · rw [getElem?_insert_of_ne h, Std.ExtTreeMap.getElem?_filter', if_neg h]
  · refine (Bounded.size_le_length fun k hk ↦ ?_).trans hroom
    rcases eq_or_mem_of_mem_insert hk with rfl | hk
    · exact hid
    · exact hids k (Std.ExtTreeMap.mem_of_mem_filter hk)

/-- A transfer with the largest id is started and kept. -/
theorem getElem?_insertChunk_of_largest (hlargest : ∀ id ∈ transfers, id < transferId) :
    (transfers.insertChunk transferId fresh)[transferId]? = some fresh := by
  have hnew : transferId ∉ transfers := fun h ↦ Nat.lt_irrefl _ (hlargest _ h)
  rw [insertChunk, if_neg fun hc ↦ hnew (Std.ExtTreeMap.mem_iff_contains.mpr hc)]
  rw [Bounded.getElem?_capped_of_forall_le (show 0 < maxIncompleteTransfers by decide)]
  · exact Std.ExtTreeMap.getElem?_insert_self
  · exact Std.ExtTreeMap.mem_insert_self
  · intro k hk
    rcases eq_or_mem_of_mem_insert hk with rfl | hk
    · exact Nat.le_refl _
    · exact (hlargest k (Std.ExtTreeMap.mem_of_mem_filter hk)).le

/-- Changing a transfer there is. -/
private theorem modify_eq_insert {insert : TransferAssembly → TransferAssembly}
    {a : TransferAssembly} (h : transfers[transferId]? = some a) :
    transfers.modify transferId insert =
      Std.ExtTreeMap.insert transfers transferId (insert a) := by
  refine Std.ExtTreeMap.ext_getElem? fun id ↦ ?_
  rw [Std.ExtTreeMap.getElem?_modify, Std.ExtTreeMap.getElem?_insert, h, Option.map_some]

/-- What is stored under a key is gone when the key is. -/
private theorem erase_insert_eq_erase (a : TransferAssembly) :
    (Std.ExtTreeMap.insert transfers transferId a).erase transferId =
      transfers.erase transferId := by
  refine Std.ExtTreeMap.ext_getElem? fun id ↦ ?_
  rw [Std.ExtTreeMap.getElem?_erase, Std.ExtTreeMap.getElem?_insert,
    Std.ExtTreeMap.getElem?_erase]
  split <;> rfl

/-- Storing a part in a transfer there is. -/
theorem ingestChunk_eq {insert : TransferAssembly → TransferAssembly} {a : TransferAssembly}
    (h : (transfers.insertChunk transferId fresh)[transferId]? = some a) :
    transfers.ingestChunk transferId fresh insert =
      match (insert a).assembled with
      | some whole => (some whole, (transfers.insertChunk transferId fresh).erase transferId)
      | none => (none, (transfers.insertChunk transferId fresh).insert transferId (insert a)) := by
  rw [ingestChunk, modify_eq_insert h]
  simp only [Std.ExtTreeMap.getElem?_insert_self, Option.bind_some, erase_insert_eq_erase]

variable {cut : Cut} {received : List Nat} {index : Nat}

/-- A chunk adds its part to the transfer it belongs to. -/
theorem exists_ingestChunk (transfers : Transfers) (transferId : Nat)
    (hcount : cut.count ≤ 2 ^ 32) (hindex : index < cut.count) :
    ∃ insert : TransferAssembly → TransferAssembly,
      transfers.ingest (cut.chunk transferId index) =
        transfers.ingestChunk transferId (cut.assembly []) insert ∧
      ∀ received, insert (cut.assembly received) = cut.assembly (received ++ [index]) := by
  have hidx : index % 2 ^ 32 = index := Nat.mod_eq_of_lt (hindex.trans_le hcount)
  cases cut with
  | samples environmentId signalId parts =>
    refine ⟨fun
      | .samples environmentId signalId count stored =>
        .samples environmentId signalId count (stored.insert index (parts.getD index []))
      | assembly => assembly, ?_, fun received ↦ ?_⟩
    · rw [Cut.chunk, ingest, hidx]
      rfl
    · rw [Cut.assembly, Cut.assembly, Parts.collect_concat]
  | rollups environmentId signalId parts =>
    refine ⟨fun
      | .rollups environmentId signalId count stored =>
        .rollups environmentId signalId count (stored.insert index (parts.getD index []))
      | assembly => assembly, ?_, fun received ↦ ?_⟩
    · rw [Cut.chunk, ingest, hidx]
      rfl
    · rw [Cut.assembly, Cut.assembly, Parts.collect_concat]
  | snapshots environmentId parts =>
    refine ⟨fun
      | .snapshots environmentId count stored =>
        .snapshots environmentId count (stored.insert index (parts.getD index []))
      | assembly => assembly, ?_, fun received ↦ ?_⟩
    · rw [Cut.chunk, ingest, hidx]
      rfl
    · rw [Cut.assembly, Cut.assembly, Parts.collect_concat]

/-- A chunk either makes its transfer whole, and the message leaves the map, or is one part
more. -/
theorem ingest_chunk (hcount : cut.count ≤ 2 ^ 32) (hindex : index < cut.count)
    (hstarted : (transfers.insertChunk transferId (cut.assembly []))[transferId]? =
      some (cut.assembly received))
    (hnodup : (received ++ [index]).Nodup) (hrange : ∀ i ∈ received, i < cut.count) :
    transfers.ingest (cut.chunk transferId index) =
      if received.length + 1 = cut.count then
        (some cut.whole, (transfers.insertChunk transferId (cut.assembly [])).erase transferId)
      else
        (none, (transfers.insertChunk transferId (cut.assembly [])).insert transferId
          (cut.assembly (received ++ [index]))) := by
  obtain ⟨insert, heq, hinsert⟩ := exists_ingestChunk transfers transferId hcount hindex
  have hrange' : ∀ i ∈ received ++ [index], i < cut.count := by
    intro i hi
    rcases List.mem_append.mp hi with hi | hi
    · exact hrange i hi
    · exact List.mem_singleton.mp hi ▸ hindex
  rw [heq, ingestChunk_eq hstarted, hinsert, Cut.assembled_assembly hcount (by simp) hnodup hrange',
    List.length_append, List.length_singleton]
  by_cases h : received.length + 1 = cut.count
  · rw [if_pos h, if_pos h]
  · rw [if_neg h, if_neg h]

end Transfers

end Daku.Wire
