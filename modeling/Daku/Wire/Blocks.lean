import Daku.Base.Publication
import Daku.Wire.Reader
import Daku.Wire.Split

/-!
# Blocks of pieces

What a connection is sent of one dashboard message is a block: all pieces of the message, or the
first of them when the queue was full. Blocks have increasing transfer ids, and a reader hands on
the messages whose blocks are complete.
-/

namespace Daku.Wire

open Daku.Base

namespace Transfers

/-- A whole message is handed on, a chunk is ingested, and anything else changes nothing. -/
def handle (transfers : Transfers) (m : ServerMessage) : Option ServerMessage × Transfers :=
  if m.dashboardCacheKey.isSome then (some m, transfers) else transfers.ingest m

/-- Messages handled one after another. -/
def handleAll : Transfers → List ServerMessage → List ServerMessage × Transfers
  | transfers, [] => ([], transfers)
  | transfers, m :: ms =>
    let (whole, left) := transfers.handle m
    let (wholes, last) := handleAll left ms
    (whole.toList ++ wholes, last)

theorem handleAll_append (transfers : Transfers) (before after : List ServerMessage) :
    transfers.handleAll (before ++ after) =
      ((transfers.handleAll before).1 ++ ((transfers.handleAll before).2.handleAll after).1,
        ((transfers.handleAll before).2.handleAll after).2) := by
  induction before generalizing transfers with
  | nil => simp [handleAll]
  | cons m before ih => simp only [List.cons_append, handleAll, ih, List.append_assoc]

end Transfers

/-- A dashboard message or a chunk of one. -/
def IsPiece : ServerMessage → Bool
  | .signalSamplesChunk .. | .signalRollupsChunk .. | .signalSnapshotsChunk .. => true
  | m => m.dashboardCacheKey.isSome

/-- What a dashboard message crosses as are pieces. -/
theorem isPiece_of_mem_splitForWire {wireSize : ServerMessage → Nat} {m piece : ServerMessage}
    {transferId : Nat} (hkey : m.dashboardCacheKey.isSome)
    (hpiece : piece ∈ splitForWire wireSize m transferId) : IsPiece piece := by
  rcases splitForWire_cases wireSize m transferId with hwhole | ⟨cut, -, -, -, hsplit⟩
  · rw [hwhole, List.mem_singleton] at hpiece
    subst hpiece
    cases piece <;> first | rfl | exact hkey
  · rw [hsplit] at hpiece
    obtain ⟨i, -, rfl⟩ := List.mem_map.mp hpiece
    cases cut <;> rfl

/-- Anything but a piece leaves the transfers alone. -/
theorem handleAll_filter (transfers : Transfers) (ms : List ServerMessage) :
    transfers.handleAll (ms.filter IsPiece) = transfers.handleAll ms := by
  induction ms generalizing transfers with
  | nil => rfl
  | cons m ms ih =>
    cases hpiece : IsPiece m with
    | true => simp only [List.filter_cons_of_pos hpiece, Transfers.handleAll, ih]
    | false =>
      have hhandle : transfers.handle m = (none, transfers) := by
        cases m <;> first | rfl | exact Bool.noConfusion hpiece
      rw [List.filter_cons_of_neg (by rw [hpiece]; exact Bool.false_ne_true),
        Transfers.handleAll, hhandle, ih]
      rfl

/-- What an assembly becomes is a dashboard message. -/
theorem TransferAssembly.isSome_key {a : TransferAssembly} {whole : ServerMessage}
    (h : a.assembled = some whole) : whole.dashboardCacheKey.isSome := by
  cases a <;> rw [assembled] at h <;> split at h <;> cases h <;> rfl

/-- Chunks become dashboard messages. -/
theorem Transfers.isSome_key {transfers : Transfers} {m whole : ServerMessage}
    (h : (transfers.ingest m).1 = some whole) : whole.dashboardCacheKey.isSome := by
  have hchunk : ∀ transferId fresh insert,
      (transfers.ingestChunk transferId fresh insert).1 = some whole →
      whole.dashboardCacheKey.isSome := by
    intro transferId fresh insert h
    rw [ingestChunk] at h
    split at h
    · next hassembled =>
      obtain ⟨a, -, ha⟩ := Option.bind_eq_some_iff.mp hassembled
      exact Option.some.inj h ▸ TransferAssembly.isSome_key ha
    · cases h
  cases m <;> first | exact hchunk _ _ _ h | cases h

/-- The message a reaction hands on. -/
def Reaction.handedOn : Reaction → List ServerMessage
  | .forward m _ => [m]
  | _ => []

namespace Reader

/-- A chunk is ingested, and its message handed on once it is whole. -/
theorem receive_chunk {m : ServerMessage} (hpiece : IsPiece m) (hkey : m.dashboardCacheKey = none)
    (r : Reader) :
    r.receive m = (r.transfers.ingest m).1.elim
      (.nothing, { r with transfers := (r.transfers.ingest m).2 })
      fun whole ↦ (.forward whole false, { r with transfers := (r.transfers.ingest m).2 }) := by
  cases m
  case signalSamplesChunk | signalRollupsChunk | signalSnapshotsChunk =>
    rw [receive]
    split
    · next hingest => rw [hingest]; rfl
    · next hingest => rw [hingest]; rfl
  all_goals first | (cases hkey; done) | cases hpiece

/-- Only the shutdown makes a reader hang up. -/
theorem receive_ne_hangUp {m : ServerMessage} (hm : m ≠ .shuttingDown) (r : Reader) :
    (r.receive m).1 ≠ .hangUp := by
  have hchunk : IsPiece m → m.dashboardCacheKey = none → (r.receive m).1 ≠ .hangUp := by
    intro hpiece hkey
    rw [receive_chunk hpiece hkey]
    cases (r.transfers.ingest m).1 <;> exact Reaction.noConfusion
  cases m
  case shuttingDown => exact absurd rfl hm
  case signalSamplesChunk => exact hchunk rfl rfl
  case signalRollupsChunk => exact hchunk rfl rfl
  case signalSnapshotsChunk => exact hchunk rfl rfl
  all_goals exact Reaction.noConfusion

theorem forwarded_cons {m : ServerMessage} (hm : m ≠ .shuttingDown) (r : Reader)
    (ms : List ServerMessage) :
    r.forwarded (m :: ms) = (r.receive m).1.handedOn ++ (r.receive m).2.forwarded ms := by
  have hstays := receive_ne_hangUp hm r
  rw [forwarded]
  split
  case _ heq => rw [heq]; rfl
  case _ heq => exact absurd (congrArg Prod.fst heq) hstays
  case _ heq => rw [heq]; rfl
  case _ heq => rw [heq]; rfl

/-- A reader handles every message before the shutdown. -/
theorem receive_handle {m : ServerMessage} (hm : m ≠ .shuttingDown) (r : Reader) :
    (r.receive m).1.handedOn.filter (fun m ↦ m.dashboardCacheKey.isSome) =
        (r.transfers.handle m).1.toList ∧
      (r.receive m).2.transfers = (r.transfers.handle m).2 := by
  have hchunk : IsPiece m → m.dashboardCacheKey = none →
      r.transfers.handle m = r.transfers.ingest m →
      (r.receive m).1.handedOn.filter (fun m ↦ m.dashboardCacheKey.isSome) =
        (r.transfers.handle m).1.toList ∧
      (r.receive m).2.transfers = (r.transfers.handle m).2 := by
    intro hpiece hnone hhandle
    rw [receive_chunk hpiece hnone, hhandle]
    cases hwhole : (r.transfers.ingest m).1 with
    | none => exact ⟨rfl, rfl⟩
    | some whole =>
      refine ⟨?_, rfl⟩
      have hkey : whole.dashboardCacheKey.isSome := Transfers.isSome_key hwhole
      simp [Reaction.handedOn, hkey]
  cases m
  case shuttingDown => exact absurd rfl hm
  case signalSamplesChunk => exact hchunk rfl rfl rfl
  case signalRollupsChunk => exact hchunk rfl rfl rfl
  case signalSnapshotsChunk => exact hchunk rfl rfl rfl
  all_goals exact ⟨rfl, rfl⟩

/-- The dashboard messages a reader hands on are those of the pieces it reads before the daemon
shuts down. -/
theorem filter_forwarded (r : Reader) (ms : List ServerMessage) :
    ∃ read, read <+: ms ∧
      (r.forwarded ms).filter (fun m ↦ m.dashboardCacheKey.isSome) =
        (r.transfers.handleAll read).1 := by
  induction ms generalizing r with
  | nil => exact ⟨[], List.prefix_refl _, rfl⟩
  | cons m ms ih =>
    by_cases hm : m = .shuttingDown
    · subst hm
      exact ⟨[], List.nil_prefix, rfl⟩
    · obtain ⟨read, hread, heq⟩ := ih (r.receive m).2
      obtain ⟨hout, htransfers⟩ := receive_handle hm r
      refine ⟨m :: read, List.cons_prefix_cons.mpr ⟨rfl, hread⟩, ?_⟩
      rw [forwarded_cons hm, List.filter_append, hout, heq, htransfers]
      rfl

end Reader

/-- The pieces of one publication that were queued for one connection. -/
structure Block where
  /-- Which publication it was. -/
  index : Nat
  message : ServerMessage
  transferId : Nat
  /-- How many pieces found room. -/
  sent : Nat

namespace Block

variable (wireSize : ServerMessage → Nat) (b : Block)

/-- All pieces of the message. -/
def split : List ServerMessage := splitForWire wireSize b.message b.transferId

/-- The pieces that were queued. -/
def pieces : List ServerMessage := (b.split wireSize).take b.sent

/-- Every piece was queued. -/
def Complete : Prop := (b.split wireSize).length ≤ b.sent

instance : Decidable (b.Complete wireSize) := inferInstanceAs (Decidable (_ ≤ _))

/-- A dashboard message that is cut into `2 ^ 32` chunks at most. -/
structure Sound : Prop where
  keyed : b.message.dashboardCacheKey.isSome
  counted : itemCount b.message ≤ 2 ^ 32

end Block

namespace Transfers

/-- Chunks are not messages of their own. -/
theorem handle_chunk (transfers : Transfers) (cut : Cut) (transferId index : Nat) :
    transfers.handle (cut.chunk transferId index) =
      transfers.ingest (cut.chunk transferId index) := by
  cases cut <;> rfl

/-- Transfers that were started before a given id. -/
def Below (transfers : Transfers) (transferId : Nat) : Prop := ∀ id ∈ transfers, id < transferId

theorem Below.insertChunk {transfers : Transfers} {transferId : Nat} {fresh : TransferAssembly}
    (h : transfers.Below (transferId + 1)) :
    (transfers.insertChunk transferId fresh).Below (transferId + 1) := by
  intro id hid
  by_cases hmem : transferId ∈ transfers
  · rw [insertChunk_of_mem hmem] at hid
    exact h id hid
  · by_cases heq : id = transferId
    · omega
    · rw [Std.ExtTreeMap.mem_iff_isSome_getElem?, Option.isSome_iff_exists] at hid
      obtain ⟨a, ha⟩ := hid
      apply h
      rw [Std.ExtTreeMap.mem_iff_isSome_getElem?, (getElem?_of_insertChunk heq hmem ha).1]
      rfl

/-- The first `k` chunks of a new transfer, in order. -/
theorem handleAll_chunks {transfers : Transfers} {cut : Cut} {transferId : Nat}
    (hbelow : transfers.Below transferId) (hpos : 0 < cut.count) (hcount : cut.count ≤ 2 ^ 32)
    {k : Nat} (hk : k ≤ cut.count) :
    (transfers.handleAll ((List.range k).map (cut.chunk transferId))).1 =
        (if k = cut.count then [cut.whole] else []) ∧
      (transfers.handleAll ((List.range k).map (cut.chunk transferId))).2.Below (transferId + 1) ∧
      (k < cut.count →
        ((transfers.handleAll ((List.range k).map (cut.chunk transferId))).2.insertChunk transferId
          (cut.assembly []))[transferId]? = some (cut.assembly (List.range k))) := by
  induction k with
  | zero =>
    refine ⟨?_, fun id hid ↦ (hbelow id hid).trans (Nat.lt_succ_self _), fun _ ↦ ?_⟩
    · rw [if_neg (by omega)]
      rfl
    · exact getElem?_insertChunk_of_largest hbelow
  | succ k ih =>
    obtain ⟨hout, hids, hstarted⟩ := ih (by omega)
    rw [List.range_succ, List.map_append, List.map_singleton, handleAll_append, hout,
      if_neg (by omega)]
    generalize (transfers.handleAll ((List.range k).map (cut.chunk transferId))).2 = left at *
    have hnodup : (List.range k ++ [k]).Nodup := List.range_succ ▸ List.nodup_range
    have hstep := ingest_chunk hcount (by omega) (hstarted (by omega)) hnodup
      fun i hi ↦ (List.mem_range.mp hi).trans (by omega)
    rw [List.length_range] at hstep
    simp only [handleAll, handle_chunk, hstep, List.nil_append, List.append_nil]
    split
    · refine ⟨rfl, fun id hid ↦ ?_, fun h ↦ by omega⟩
      exact hids.insertChunk id (Std.ExtTreeMap.mem_of_mem_erase hid)
    · refine ⟨rfl, fun id hid ↦ ?_, fun _ ↦ ?_⟩
      · rcases Std.ExtTreeMap.mem_insert.mp hid with heq | hmem
        · have := Std.LawfulEqOrd.eq_of_compare heq
          omega
        · exact hids.insertChunk id hmem
      · rw [insertChunk_of_mem Std.ExtTreeMap.mem_insert_self]
        exact Std.ExtTreeMap.getElem?_insert_self

/-- A block hands on its message exactly when it is complete. -/
theorem handleAll_block (wireSize : ServerMessage → Nat) {b : Block} {transfers : Transfers}
    (hsound : b.Sound) (hbelow : transfers.Below b.transferId) :
    (transfers.handleAll (b.pieces wireSize)).1 =
        (if b.Complete wireSize then [b.message] else []) ∧
      (transfers.handleAll (b.pieces wireSize)).2.Below (b.transferId + 1) := by
  have hlater : transfers.Below (b.transferId + 1) := fun id hid ↦
    (hbelow id hid).trans (Nat.lt_succ_self _)
  change (transfers.handleAll ((splitForWire wireSize b.message b.transferId).take b.sent)).1 =
      (if (splitForWire wireSize b.message b.transferId).length ≤ b.sent then [b.message] else []) ∧
    (transfers.handleAll ((splitForWire wireSize b.message b.transferId).take b.sent)).2.Below
      (b.transferId + 1)
  rcases splitForWire_cases wireSize b.message b.transferId with
    hwhole | ⟨cut, hcut, hpos, hle, hsplit⟩
  · rw [hwhole]
    cases hsent : b.sent with
    | zero =>
      rw [List.take_zero, if_neg (by simp)]
      exact ⟨rfl, hlater⟩
    | succ n =>
      rw [List.take_succ_cons, List.take_nil, if_pos (by simp)]
      simp only [handleAll, handle, if_pos hsound.keyed]
      exact ⟨rfl, hlater⟩
  · have hcount : cut.count ≤ 2 ^ 32 := by
      have := hsound.counted
      omega
    have hk : min b.sent cut.count ≤ cut.count := Nat.min_le_right _ _
    obtain ⟨hout, hids, -⟩ := handleAll_chunks hbelow hpos hcount hk
    rw [hsplit, ← List.map_take, List.take_range, List.length_map, List.length_range, hout, hcut]
    refine ⟨?_, hids⟩
    by_cases hall : cut.count ≤ b.sent
    · rw [if_pos (Nat.min_eq_right hall), if_pos hall]
    · rw [if_neg (by omega), if_neg hall]

/-- Blocks with increasing ids hand on the messages of the complete ones, in order. -/
theorem handleAll_blocks {wireSize : ServerMessage → Nat} {blocks : List Block}
    {transfers : Transfers} (hsound : ∀ b ∈ blocks, b.Sound)
    (hincreasing : blocks.Pairwise fun a b ↦ a.transferId < b.transferId)
    (hbelow : ∀ b ∈ blocks, transfers.Below b.transferId) :
    (transfers.handleAll (blocks.flatMap (Block.pieces wireSize))).1 =
      (blocks.filter fun b ↦ b.Complete wireSize).map Block.message := by
  induction blocks generalizing transfers with
  | nil => rfl
  | cons b blocks ih =>
    rw [List.pairwise_cons] at hincreasing
    obtain ⟨hout, hids⟩ := handleAll_block wireSize (hsound b List.mem_cons_self)
      (hbelow b List.mem_cons_self)
    have hrest := ih (fun a ha ↦ hsound a (List.mem_cons_of_mem _ ha)) hincreasing.2
      fun a ha id hid ↦ by
        have := hids id hid
        have := hincreasing.1 a ha
        omega
    rw [List.flatMap_cons, handleAll_append, hout, hrest]
    by_cases hcomplete : b.Complete wireSize
    · rw [if_pos hcomplete, List.filter_cons_of_pos (by simpa using hcomplete)]
      rfl
    · rw [if_neg hcomplete, List.filter_cons_of_neg (by simpa using hcomplete)]
      rfl

end Transfers

namespace Block

variable {wireSize : ServerMessage → Nat} {blocks : List Block}

/-- A block without regard to how much of it was queued. -/
def header (b : Block) : Block := { b with sent := 0 }

theorem header_eq_iff {a b : Block} : a.header = b.header ↔
    a.index = b.index ∧ a.message = b.message ∧ a.transferId = b.transferId := by
  cases a
  cases b
  simp [header]

/-- One more piece of a block. -/
theorem pieces_succ {b : Block} {piece : ServerMessage} {rest : List ServerMessage}
    (h : (b.split wireSize).drop b.sent = piece :: rest) :
    { b with sent := b.sent + 1 }.pieces wireSize = b.pieces wireSize ++ [piece] ∧
      (b.split wireSize).drop (b.sent + 1) = rest := by
  constructor
  · have hpiece : (b.split wireSize)[b.sent]? = some piece := by
      rw [← List.head?_drop, h]
      rfl
    change (b.split wireSize).take (b.sent + 1) = (b.split wireSize).take b.sent ++ [piece]
    rw [List.take_add_one, hpiece]
    rfl
  · rw [← List.tail_drop, h]
    rfl

/-- What begins like some blocks is blocks that begin like them, the last one perhaps shorter. -/
theorem exists_of_prefix {read : List ServerMessage}
    (h : read <+: blocks.flatMap (pieces wireSize)) :
    ∃ shorter : List Block, read = shorter.flatMap (pieces wireSize) ∧
      shorter.map header <+: blocks.map header := by
  induction blocks generalizing read with
  | nil => exact ⟨[], List.prefix_nil.mp h, List.prefix_refl _⟩
  | cons b blocks ih =>
    rw [List.flatMap_cons] at h
    rcases List.prefix_or_prefix_of_prefix h (List.prefix_append _ _) with hread | hread
    · refine ⟨[{ b with sent := min read.length b.sent }], ?_, ?_⟩
      · have htake := List.prefix_iff_eq_take.mp hread
        rw [pieces, List.take_take] at htake
        simpa [pieces, split] using htake
      · exact List.cons_prefix_cons.mpr ⟨rfl, List.nil_prefix⟩
    · obtain ⟨rest, rfl⟩ := hread
      obtain ⟨shorter, rfl, hheaders⟩ := ih ((List.prefix_append_right_inj _).mp h)
      exact ⟨b :: shorter, rfl, List.cons_prefix_cons.mpr ⟨rfl, hheaders⟩⟩

/-- What of a publication's blocks does not depend on how much was queued. -/
structure Ordered (published : List ServerMessage) (blocks : List Block) : Prop where
  sound : ∀ b ∈ blocks, b.Sound
  increasing : blocks.Pairwise fun a b ↦ a.transferId < b.transferId
  follows : Follows ServerMessage.dashboardCacheKey published
    (blocks.map fun b ↦ (b.index, b.message))

theorem Ordered.of_headers {published : List ServerMessage} {shorter : List Block}
    (h : Ordered published blocks) (hshorter : shorter.map header <+: blocks.map header) :
    Ordered published shorter := by
  have hmem : ∀ b ∈ shorter, ∃ a ∈ blocks, a.header = b.header := fun b hb ↦
    List.mem_map.mp (hshorter.subset (List.mem_map_of_mem hb))
  constructor
  · intro b hb
    obtain ⟨a, ha, heq⟩ := hmem b hb
    have hmessage := (header_eq_iff.mp heq).2.1
    exact ⟨hmessage ▸ (h.sound a ha).keyed, hmessage ▸ (h.sound a ha).counted⟩
  · have hheaders : (blocks.map header).Pairwise fun a b ↦ a.transferId < b.transferId :=
      List.pairwise_map.mpr h.increasing
    have hshort := List.Pairwise.sublist hshorter.sublist hheaders
    rw [List.pairwise_map] at hshort
    exact hshort
  · have hpairs : ∀ bs : List Block, (bs.map fun b ↦ (b.index, b.message)) =
        (bs.map header).map fun b ↦ (b.index, b.message) := fun bs ↦ by
      rw [List.map_map]
      rfl
    have hfollows := h.follows
    rw [hpairs] at hfollows ⊢
    exact hfollows.sublist (hshorter.map _).sublist

/-- The dashboard messages handed on from blocks of published messages are in order. -/
theorem Ordered.inOrder {published read : List ServerMessage} (h : Ordered published blocks)
    (hread : read.filter IsPiece <+: blocks.flatMap (pieces wireSize)) :
    InOrder ServerMessage.dashboardCacheKey published
      ((Reader.start.forwarded read).filter fun m ↦ m.dashboardCacheKey.isSome) := by
  obtain ⟨heard, hheard, hforwarded⟩ := Reader.filter_forwarded Reader.start read
  obtain ⟨shorter, hshorter, hheaders⟩ := exists_of_prefix ((hheard.filter IsPiece).trans hread)
  have hordered := h.of_headers hheaders
  have hout : (Reader.start.transfers.handleAll (shorter.flatMap (pieces wireSize))).1 =
      (shorter.filter fun b ↦ b.Complete wireSize).map message :=
    Transfers.handleAll_blocks hordered.sound hordered.increasing
      fun b _ id hid ↦ absurd hid Std.ExtTreeMap.not_mem_empty
  rw [hforwarded, ← handleAll_filter, hshorter, hout]
  refine ⟨(shorter.filter fun b ↦ b.Complete wireSize).map fun b ↦ (b.index, b.message), ?_,
    hordered.follows.sublist (List.filter_sublist.map _)⟩
  rw [List.map_map]
  rfl

end Block

end Daku.Wire
