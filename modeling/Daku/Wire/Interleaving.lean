import Daku.Wire.Assembly
import Mathlib.Data.List.Perm.Basic

/-!
# Transfers that interleave

Several chunked messages arrive with their chunks in any order. The reader replaces a transfer by
a newer one with the same `series` (`crates/daku-client/src/client.rs:77–78, 106–120`), and the
samples and the rollups of one Signal have the same one.
-/

namespace Daku.Wire

/-- A chunked message and the id its chunks carry. -/
structure Transfer where
  id : Nat
  cut : Cut
  nonempty : 0 < cut.count
  counted : cut.count < 2 ^ 32
  deriving DecidableEq

namespace Transfer

/-- One of its chunks. -/
def chunk (t : Transfer) (index : Nat) : ServerMessage := t.cut.chunk t.id index

/-- All its chunks. -/
def chunks (t : Transfer) : List ServerMessage := (List.range t.cut.count).map t.chunk

/-- The message it carries. -/
def whole (t : Transfer) : ServerMessage := t.cut.whole

/-- Neither transfer replaces the other while it is unfinished. -/
def Compatible (t u : Transfer) : Prop :=
  t.cut.series ≠ u.cut.series ∨ t.cut.count = 1 ∧ u.cut.count = 1

instance : Std.Symm Compatible where
  symm _ _ h := h.imp Ne.symm And.symm

end Transfer

/-- However their chunks interleave, every message comes out once and nothing is left. -/
def Reassembles (transfers : List Transfer) : Prop :=
  ∀ chunks : List ServerMessage, chunks.Perm (transfers.flatMap Transfer.chunks) →
    (Transfers.feed ∅ chunks).1.Perm (transfers.map Transfer.whole) ∧
      (Transfers.feed ∅ chunks).2 = ∅

/-- A chunk of one of the transfers, delivered to the reader. -/
abbrev Delivery := Transfer × Nat

namespace Delivery

/-- The message delivered. -/
def message (d : Delivery) : ServerMessage := d.1.chunk d.2

/-- All deliveries of some transfers. -/
def all (transfers : List Transfer) : List Delivery :=
  transfers.flatMap fun t ↦ (List.range t.cut.count).map fun i ↦ (t, i)

/-- The chunks of a transfer among some deliveries. -/
def indices (id : Nat) (done : List Delivery) : List Nat :=
  (done.filter fun d ↦ d.1.id = id).map Prod.snd

theorem map_message_all (transfers : List Transfer) :
    (all transfers).map message = transfers.flatMap Transfer.chunks := by
  rw [all, List.map_flatMap]
  refine List.flatMap_congr fun t _ ↦ ?_
  rw [List.map_map]
  rfl

@[simp] theorem mem_all {transfers : List Transfer} {d : Delivery} :
    d ∈ all transfers ↔ d.1 ∈ transfers ∧ d.2 < d.1.cut.count := by
  obtain ⟨t, i⟩ := d
  simp only [all, List.mem_flatMap, List.mem_map, List.mem_range, Prod.mk.injEq]
  constructor
  · rintro ⟨u, hu, j, hj, rfl, rfl⟩
    exact ⟨hu, hj⟩
  · rintro ⟨ht, hi⟩
    exact ⟨t, ht, i, hi, rfl, rfl⟩

theorem nodup_all {transfers : List Transfer} (h : transfers.Nodup) : (all transfers).Nodup := by
  rw [all, List.nodup_flatMap]
  refine ⟨fun t _ ↦ List.nodup_range.map fun i j hij ↦ (Prod.mk.inj hij).2, ?_⟩
  refine h.imp fun hne d hd hd' ↦ ?_
  obtain ⟨i, -, rfl⟩ := List.mem_map.mp hd
  obtain ⟨j, -, hj⟩ := List.mem_map.mp hd'
  exact hne (Prod.mk.inj hj).1.symm

theorem mem_indices {id i : Nat} {done : List Delivery} :
    i ∈ indices id done ↔ ∃ t : Transfer, t.id = id ∧ (t, i) ∈ done := by
  simp only [indices, List.mem_map, List.mem_filter, decide_eq_true_eq]
  constructor
  · rintro ⟨⟨t, j⟩, ⟨hmem, hid⟩, rfl⟩
    exact ⟨t, hid, hmem⟩
  · rintro ⟨t, hid, hmem⟩
    exact ⟨(t, i), ⟨hmem, hid⟩, rfl⟩

theorem indices_concat (id : Nat) (done : List Delivery) (d : Delivery) :
    indices id (done ++ [d]) =
      if d.1.id = id then indices id done ++ [d.2] else indices id done := by
  simp only [indices, List.filter_append, List.map_append]
  by_cases h : d.1.id = id
  · simp [h]
  · simp [h]

variable {transfers : List Transfer} {done : List Delivery} {t : Transfer} {i : Nat}

/-- Different ids tell the transfers apart. -/
theorem mem_indices_iff (hids : (transfers.map Transfer.id).Nodup)
    (hdone : ∀ d ∈ done, d ∈ all transfers) (ht : t ∈ transfers) :
    i ∈ indices t.id done ↔ (t, i) ∈ done := by
  rw [mem_indices]
  constructor
  · rintro ⟨u, hid, hmem⟩
    have hu : u ∈ transfers := (mem_all.mp (hdone _ hmem)).1
    exact List.inj_on_of_nodup_map hids hu ht hid ▸ hmem
  · exact fun hmem ↦ ⟨t, rfl, hmem⟩

theorem nodup_indices (hids : (transfers.map Transfer.id).Nodup)
    (hdone : ∀ d ∈ done, d ∈ all transfers) (hnodup : done.Nodup) (id : Nat) :
    (indices id done).Nodup := by
  refine List.Nodup.map_on ?_ (hnodup.filter _)
  rintro ⟨t, i⟩ ht ⟨u, j⟩ hu (rfl : i = j)
  rw [List.mem_filter, decide_eq_true_eq] at ht hu
  have htu : t = u := List.inj_on_of_nodup_map hids (mem_all.mp (hdone _ ht.1)).1
    (mem_all.mp (hdone _ hu.1)).1 (ht.2.trans hu.2.symm)
  rw [htu]

theorem length_indices_le (hids : (transfers.map Transfer.id).Nodup)
    (hdone : ∀ d ∈ done, d ∈ all transfers) (hnodup : done.Nodup) (ht : t ∈ transfers) :
    (indices t.id done).length ≤ t.cut.count := by
  have hsub : (indices t.id done).Subperm (List.range t.cut.count) := by
    apply (nodup_indices hids hdone hnodup t.id).subperm
    intro i hi
    exact List.mem_range.mpr (mem_all.mp (hdone _ ((mem_indices_iff hids hdone ht).mp hi))).2
  simpa only [List.length_range] using hsub.length_le

/-- Once all is delivered, every part of every transfer is. -/
theorem length_indices_of_perm (hids : (transfers.map Transfer.id).Nodup)
    (h : done.Perm (all transfers)) (ht : t ∈ transfers) :
    (indices t.id done).length = t.cut.count := by
  have hdone : ∀ d ∈ done, d ∈ all transfers := fun d ↦ h.mem_iff.mp
  have hnodup : done.Nodup := h.nodup_iff.mpr (nodup_all (List.Nodup.of_map _ hids))
  apply Nat.le_antisymm (length_indices_le hids hdone hnodup ht)
  have hsub : (List.range t.cut.count).Subperm (indices t.id done) := by
    apply List.nodup_range.subperm
    intro i hi
    rw [mem_indices_iff hids hdone ht, h.mem_iff, mem_all]
    exact ⟨ht, List.mem_range.mp hi⟩
  simpa only [List.length_range] using hsub.length_le

/-- Messages in some order are deliveries in that order. -/
theorem exists_perm_of_perm_map {chunks : List ServerMessage} {deliveries : List Delivery}
    (h : chunks.Perm (deliveries.map message)) :
    ∃ order : List Delivery, order.Perm deliveries ∧ chunks = order.map message := by
  have hforall : List.Forall₂ (fun m d ↦ m = message d) (deliveries.map message) deliveries := by
    rw [List.forall₂_map_left_iff]
    exact List.forall₂_same.mpr fun _ _ ↦ rfl
  obtain ⟨order, hchunks, hperm⟩ := List.perm_comp_forall₂ h hforall
  refine ⟨order, hperm, ?_⟩
  rw [← List.forall₂_eq_eq_eq, List.forall₂_map_right_iff]
  exact hchunks

end Delivery

open Delivery

variable {transfers : List Transfer} {m : Transfers} {t : Transfer}

/-- A transfer is started once and then goes on; starting it drops those of its series. -/
private theorem getElem?_started (received : List Nat) (ht : t ∈ transfers)
    (hfew : transfers.length ≤ maxIncompleteTransfers)
    (hknown : ∀ id ∈ m, id ∈ transfers.map Transfer.id)
    (hentry : m[t.id]? = if received = [] then none else some (t.cut.assembly received))
    (id : Nat) :
    (m.insertChunk t.id (t.cut.assembly []))[id]? =
      if id = t.id then some (t.cut.assembly received)
      else if received = [] then (m[id]?).filter fun a ↦ a.series ≠ t.cut.series
      else m[id]? := by
  by_cases hnil : received = []
  · rw [if_pos hnil] at hentry
    have hnew : t.id ∉ m := by
      rw [Std.ExtTreeMap.mem_iff_isSome_getElem?, hentry]
      simp
    rw [Transfers.getElem?_insertChunk_of_room hknown (List.mem_map_of_mem ht)
      (by rwa [List.length_map]) hnew, Cut.series_assembly, if_pos hnil, hnil]
  · rw [if_neg hnil] at hentry
    have hmem : t.id ∈ m := by
      rw [Std.ExtTreeMap.mem_iff_isSome_getElem?, hentry]
      rfl
    rw [Transfers.insertChunk_of_mem hmem, if_neg hnil]
    split
    · next h => rw [h, hentry]
    · rfl

/-- Starting a known transfer keeps ids known. -/
private theorem known_started (ht : t ∈ transfers)
    (hknown : ∀ id ∈ m, id ∈ transfers.map Transfer.id) (id : Nat)
    (hid : id ∈ m.insertChunk t.id (t.cut.assembly [])) : id ∈ transfers.map Transfer.id := by
  by_cases hmem : t.id ∈ m
  · rw [Transfers.insertChunk_of_mem hmem] at hid
    exact hknown id hid
  · by_cases heq : id = t.id
    · exact heq ▸ List.mem_map_of_mem ht
    · rw [Std.ExtTreeMap.mem_iff_isSome_getElem?, Option.isSome_iff_exists] at hid
      obtain ⟨a, ha⟩ := hid
      apply hknown
      rw [Std.ExtTreeMap.mem_iff_isSome_getElem?, (Transfers.getElem?_of_insertChunk heq hmem ha).1]
      rfl

private theorem known_insert {a : TransferAssembly} (ht : t ∈ transfers)
    (hknown : ∀ id ∈ m, id ∈ transfers.map Transfer.id) (id : Nat)
    (hid : id ∈ (m.insertChunk t.id (t.cut.assembly [])).insert t.id a) :
    id ∈ transfers.map Transfer.id := by
  rcases Transfers.eq_or_mem_of_mem_insert hid with rfl | hid
  · exact List.mem_map_of_mem ht
  · exact known_started ht hknown id hid

/-- What the reader holds and has put together when no transfer was replaced. -/
structure Progress (transfers : List Transfer) (done : List Delivery)
    (completed : List Transfer) (m : Transfers) : Prop where
  known : ∀ id ∈ m, id ∈ transfers.map Transfer.id
  entry : ∀ t ∈ transfers, m[t.id]? =
    if indices t.id done = [] ∨ (indices t.id done).length = t.cut.count then none
    else some (t.cut.assembly (indices t.id done))
  nodup : completed.Nodup
  mem_completed : ∀ t, t ∈ completed ↔
    t ∈ transfers ∧ (indices t.id done).length = t.cut.count

theorem progress_start : Progress transfers [] [] ∅ where
  known id h := absurd h Std.ExtTreeMap.not_mem_empty
  entry t _ := by simp [indices]
  nodup := List.nodup_nil
  mem_completed t := by
    have := t.nonempty
    simp only [indices, List.filter_nil, List.map_nil, List.length_nil, List.not_mem_nil,
      false_iff, not_and]
    omega

/-- A transfer of the same series is never there to be dropped. -/
theorem Progress.getElem?_other {done : List Delivery} {completed : List Transfer}
    {received : List Nat} (h : Progress transfers done completed m)
    (hids : (transfers.map Transfer.id).Nodup)
    (hcompatible : ∀ u ∈ transfers, u ≠ t → t.Compatible u)
    (hdone : ∀ d ∈ done, d ∈ all transfers) (hnodup : done.Nodup)
    (hstarted : ∀ id, (m.insertChunk t.id (t.cut.assembly []))[id]? =
      if id = t.id then some (t.cut.assembly received)
      else if received = [] then (m[id]?).filter fun a ↦ a.series ≠ t.cut.series
      else m[id]?) (u : Transfer) (hu : u ∈ transfers) (hne : u.id ≠ t.id) :
    (m.insertChunk t.id (t.cut.assembly []))[u.id]? = m[u.id]? := by
  rw [hstarted, if_neg hne]
  split
  · rcases hcompatible u hu (fun heq ↦ hne (congrArg Transfer.id heq)) with hseries | hone
    · rw [h.entry u hu]
      split
      · rfl
      · simp [hseries.symm]
    · have := length_indices_le hids hdone hnodup hu
      have hnone : m[u.id]? = none := by
        rw [h.entry u hu, if_pos]
        rw [← List.length_eq_zero_iff]
        omega
      rw [hnone]
      rfl
  · rfl

/-- One more chunk of compatible transfers makes one message whole or none. -/
theorem Progress.step {done : List Delivery} {completed : List Transfer} {index : Nat}
    (h : Progress transfers done completed m) (hfew : transfers.length ≤ maxIncompleteTransfers)
    (hids : (transfers.map Transfer.id).Nodup)
    (hcompatible : ∀ u ∈ transfers, u ≠ t → t.Compatible u) (ht : t ∈ transfers)
    (hrange : ∀ d ∈ done ++ [(t, index)], d ∈ all transfers)
    (hnodup : (done ++ [(t, index)]).Nodup) :
    ∃ completed',
      Progress transfers (done ++ [(t, index)]) completed' (m.ingest (t.chunk index)).2 ∧
      completed'.map Transfer.whole =
        completed.map Transfer.whole ++ (m.ingest (t.chunk index)).1.toList := by
  have hdone : ∀ d ∈ done, d ∈ all transfers := fun d hd ↦ hrange d (List.mem_append_left _ hd)
  have hindex : index < t.cut.count := (mem_all.mp (hrange _ List.mem_concat_self)).2
  have hfresh : (indices t.id done ++ [index]).Nodup := by
    have := nodup_indices hids hrange hnodup t.id
    rwa [indices_concat, if_pos rfl] at this
  have hroom : (indices t.id done).length + 1 ≤ t.cut.count := by
    have := length_indices_le hids hrange hnodup ht
    rwa [indices_concat, if_pos rfl, List.length_append] at this
  have hbelow : ∀ i ∈ indices t.id done, i < t.cut.count := fun i hi ↦
    (mem_all.mp (hdone _ ((mem_indices_iff hids hdone ht).mp hi))).2
  have hentry : m[t.id]? = if indices t.id done = [] then none
      else some (t.cut.assembly (indices t.id done)) := by
    have hne : (indices t.id done).length ≠ t.cut.count := by omega
    simpa only [hne, or_false] using h.entry t ht
  have hstarted := getElem?_started _ ht hfew h.known hentry
  have hothers := h.getElem?_other hids hcompatible hdone (List.nodup_append.mp hnodup).1 hstarted
  have hself := (hstarted t.id).trans (if_pos rfl)
  rw [Transfer.chunk, Transfers.ingest_chunk t.counted.le hindex hself hfresh hbelow]
  have hgrown : indices t.id (done ++ [(t, index)]) = indices t.id done ++ [index] := by
    rw [indices_concat, if_pos rfl]
  have hsame : ∀ u : Transfer, u.id ≠ t.id →
      indices u.id (done ++ [(t, index)]) = indices u.id done := fun u hne ↦ by
    rw [indices_concat, if_neg (Ne.symm hne)]
  have hnot : t ∉ completed := fun hmem ↦ by
    have := ((h.mem_completed t).mp hmem).2
    omega
  have hid : ∀ u ∈ transfers, u.id = t.id → u = t := fun u hu ↦
    List.inj_on_of_nodup_map hids hu ht
  by_cases hlast : (indices t.id done).length + 1 = t.cut.count
  · rw [if_pos hlast]
    refine ⟨completed ++ [t], ⟨?_, ?_, ?_, ?_⟩, ?_⟩
    · exact fun id hmem ↦ known_started ht h.known id (Std.ExtTreeMap.mem_of_mem_erase hmem)
    · intro u hu
      by_cases heq : u.id = t.id
      · rw [hid u hu heq, Std.ExtTreeMap.getElem?_erase_self, hgrown, if_pos]
        right
        rw [List.length_append, List.length_singleton, hlast]
      · rw [Transfers.getElem?_erase_of_ne heq, hothers u hu heq, hsame u heq, h.entry u hu]
    · rw [List.nodup_append]
      refine ⟨h.nodup, List.nodup_singleton t, fun u hu v hv heq ↦ hnot ?_⟩
      rwa [← List.mem_singleton.mp hv, ← heq]
    · intro u
      rw [List.mem_append, List.mem_singleton, h.mem_completed]
      by_cases heq : u.id = t.id
      · constructor
        · rintro (⟨hu, -⟩ | rfl)
          · rw [hid u hu heq, hgrown, List.length_append, List.length_singleton]
            exact ⟨ht, hlast⟩
          · rw [hgrown, List.length_append, List.length_singleton]
            exact ⟨ht, hlast⟩
        · exact fun ⟨hu, _⟩ ↦ Or.inr (hid u hu heq)
      · rw [hsame u heq]
        exact or_iff_left fun hut ↦ heq (congrArg Transfer.id hut)
    · rw [List.map_append]
      rfl
  · rw [if_neg hlast]
    refine ⟨completed, ⟨?_, ?_, h.nodup, ?_⟩, (List.append_nil _).symm⟩
    · exact fun id hmem ↦ known_insert ht h.known id hmem
    · intro u hu
      by_cases heq : u.id = t.id
      · rw [hid u hu heq, Std.ExtTreeMap.getElem?_insert_self, hgrown, if_neg]
        rintro (hnil | hlen)
        · exact List.append_ne_nil_of_right_ne_nil _ (List.cons_ne_nil _ _) hnil
        · rw [List.length_append, List.length_singleton] at hlen
          exact hlast hlen
      · rw [Transfers.getElem?_insert_of_ne heq, hothers u hu heq, hsame u heq, h.entry u hu]
    · intro u
      rw [h.mem_completed]
      by_cases heq : u.id = t.id
      · refine and_congr_right fun hu ↦ ?_
        rw [hid u hu heq, hgrown, List.length_append, List.length_singleton]
        omega
      · rw [hsame u heq]

/-- Compatible transfers make progress with every chunk. -/
theorem exists_progress (hfew : transfers.length ≤ maxIncompleteTransfers)
    (hids : (transfers.map Transfer.id).Nodup)
    (hcompatible : ∀ t ∈ transfers, ∀ u ∈ transfers, u ≠ t → t.Compatible u)
    (done : List Delivery) (hrange : ∀ d ∈ done, d ∈ all transfers) (hnodup : done.Nodup) :
    ∃ completed, Progress transfers done completed (Transfers.feed ∅ (done.map message)).2 ∧
      (Transfers.feed ∅ (done.map message)).1 = completed.map Transfer.whole := by
  induction done using List.reverseRecOn with
  | nil => exact ⟨[], progress_start, rfl⟩
  | append_singleton done d ih =>
    obtain ⟨t, index⟩ := d
    have ht : t ∈ transfers := (mem_all.mp (hrange _ List.mem_concat_self)).1
    obtain ⟨completed, hprogress, hout⟩ :=
      ih (fun d hd ↦ hrange d (List.mem_append_left _ hd)) (List.nodup_append.mp hnodup).1
    obtain ⟨completed', hprogress', hout'⟩ :=
      hprogress.step hfew hids (hcompatible t ht) ht hrange hnodup
    refine ⟨completed', ?_, ?_⟩
    · rw [List.map_append, List.map_singleton, Transfers.feed_concat]
      exact hprogress'
    · rw [List.map_append, List.map_singleton, Transfers.feed_concat, hout, hout']
      rfl

/-- Compatible transfers are put together. -/
theorem reassembles_of_compatible (hfew : transfers.length ≤ maxIncompleteTransfers)
    (hids : (transfers.map Transfer.id).Nodup)
    (hcompatible : ∀ t ∈ transfers, ∀ u ∈ transfers, u ≠ t → t.Compatible u) :
    Reassembles transfers := by
  intro chunks hchunks
  rw [← map_message_all] at hchunks
  obtain ⟨order, horder, rfl⟩ := exists_perm_of_perm_map hchunks
  obtain ⟨completed, hprogress, hout⟩ := exists_progress hfew hids hcompatible order
    (fun d ↦ horder.mem_iff.mp) (horder.nodup_iff.mpr (nodup_all (List.Nodup.of_map _ hids)))
  have hlength : ∀ t ∈ transfers, (indices t.id order).length = t.cut.count := fun t ht ↦
    length_indices_of_perm hids horder ht
  constructor
  · rw [hout]
    apply List.Perm.map
    rw [List.perm_ext_iff_of_nodup hprogress.nodup (List.Nodup.of_map _ hids)]
    intro t
    rw [hprogress.mem_completed]
    exact and_iff_left_of_imp (hlength t)
  · refine Std.ExtTreeMap.ext_getElem? fun id ↦ ?_
    rw [Std.ExtTreeMap.getElem?_empty]
    by_contra hsome
    have hmem : id ∈ (Transfers.feed ∅ (order.map message)).2 := by
      rw [Std.ExtTreeMap.mem_iff_isSome_getElem?]
      exact Option.isSome_iff_ne_none.mpr hsome
    obtain ⟨t, ht, rfl⟩ := List.mem_map.mp (hprogress.known id hmem)
    rw [hprogress.entry t ht, if_pos (Or.inr (hlength t ht))] at hsome
    exact hsome rfl

/-- What the reader holds after it dropped the first chunk of a transfer. -/
structure Damaged (transfers : List Transfer) (victim : Transfer) (seen : List Delivery)
    (out : List ServerMessage) (m : Transfers) : Prop where
  known : ∀ id ∈ m, id ∈ transfers.map Transfer.id
  entry : ∀ t ∈ transfers, ∀ a, m[t.id]? = some a → ∃ received, received ≠ [] ∧
    a = t.cut.assembly received ∧ received.Nodup ∧ ∀ i ∈ received, (t, i) ∈ seen
  lost : victim.whole ∉ out

/-- A transfer whose first chunk is gone stays unfinished. -/
theorem Damaged.step {victim : Transfer} {seen : List Delivery} {out : List ServerMessage}
    {index : Nat} (h : Damaged transfers victim seen out m)
    (hfew : transfers.length ≤ maxIncompleteTransfers) (hids : (transfers.map Transfer.id).Nodup)
    (hwhole : t ≠ victim → t.whole ≠ victim.whole) (ht : t ∈ transfers)
    (hrange : ∀ d ∈ seen ++ [(t, index)], d ∈ all transfers)
    (hnodup : (seen ++ [(t, index)]).Nodup) (hgone : (victim, 0) ∉ seen ++ [(t, index)]) :
    Damaged transfers victim (seen ++ [(t, index)])
      (out ++ (m.ingest (t.chunk index)).1.toList) (m.ingest (t.chunk index)).2 := by
  obtain ⟨received, hentry, hfresh, hseen⟩ : ∃ received,
      m[t.id]? = (if received = [] then none else some (t.cut.assembly received)) ∧
      received.Nodup ∧ ∀ i ∈ received, (t, i) ∈ seen := by
    cases hget : m[t.id]? with
    | none => exact ⟨[], rfl, List.nodup_nil, fun i hi ↦ absurd hi List.not_mem_nil⟩
    | some a =>
      obtain ⟨received, hne, rfl, hreceived⟩ := h.entry t ht a hget
      exact ⟨received, by rw [if_neg hne], hreceived⟩
  have hnew : (t, index) ∉ seen := fun hmem ↦
    (List.nodup_append.mp hnodup).2.2 _ hmem _ (List.mem_singleton.mpr rfl) rfl
  have hgrown : (received ++ [index]).Nodup := by
    rw [List.nodup_append]
    refine ⟨hfresh, List.nodup_singleton _, fun i hi j hj heq ↦ hnew (hseen _ ?_)⟩
    rwa [← List.mem_singleton.mp hj, ← heq]
  have hseen' : ∀ i ∈ received ++ [index], (t, i) ∈ seen ++ [(t, index)] := by
    intro i hi
    rcases List.mem_append.mp hi with hi | hi
    · exact List.mem_append_left _ (hseen i hi)
    · rw [List.mem_singleton.mp hi]
      exact List.mem_concat_self
  have hbelow : ∀ i ∈ received ++ [index], i < t.cut.count := fun i hi ↦
    (mem_all.mp (hrange _ (hseen' i hi))).2
  have hstarted := getElem?_started _ ht hfew h.known hentry
  have hself := (hstarted t.id).trans (if_pos rfl)
  have hothers : ∀ u ∈ transfers, u.id ≠ t.id → ∀ a,
      (m.insertChunk t.id (t.cut.assembly []))[u.id]? = some a → m[u.id]? = some a := by
    intro u hu hne a ha
    rw [hstarted, if_neg hne] at ha
    split at ha
    · exact (Option.filter_eq_some_iff.mp ha).1
    · exact ha
  have hgrow : ∀ u ∈ transfers, ∀ a, m[u.id]? = some a → ∃ received, received ≠ [] ∧
      a = u.cut.assembly received ∧ received.Nodup ∧
        ∀ i ∈ received, (u, i) ∈ seen ++ [(t, index)] := by
    intro u hu a ha
    obtain ⟨others, hne, heq, hothers, hmem⟩ := h.entry u hu a ha
    exact ⟨others, hne, heq, hothers, fun i hi ↦ List.mem_append_left _ (hmem i hi)⟩
  rw [Transfer.chunk, Transfers.ingest_chunk t.counted.le (hbelow _ List.mem_concat_self) hself
    hgrown fun i hi ↦ hbelow i (List.mem_append_left _ hi)]
  have hid : ∀ u ∈ transfers, u.id = t.id → u = t := fun u hu ↦
    List.inj_on_of_nodup_map hids hu ht
  by_cases hlast : received.length + 1 = t.cut.count
  · rw [if_pos hlast]
    refine ⟨?_, fun u hu a ha ↦ ?_, ?_⟩
    · exact fun id hmem ↦ known_started ht h.known id (Std.ExtTreeMap.mem_of_mem_erase hmem)
    · by_cases heq : u.id = t.id
      · rw [heq, Std.ExtTreeMap.getElem?_erase_self] at ha
        cases ha
      · rw [Transfers.getElem?_erase_of_ne heq] at ha
        exact hgrow u hu a (hothers u hu heq a ha)
    · rw [Option.toList_some, List.mem_append, List.mem_singleton]
      rintro (hmem | heq)
      · exact h.lost hmem
      · by_cases htv : t = victim
        · -- The victim would have received all its parts, its first among them.
          have hall : (received ++ [index]).Perm (List.range t.cut.count) := by
            apply (hgrown.subperm fun i hi ↦ List.mem_range.mpr (hbelow i hi)).perm_of_length_le
            rw [List.length_range, List.length_append, List.length_singleton, hlast]
          apply hgone
          rw [← htv]
          exact hseen' 0 (hall.mem_iff.mpr (List.mem_range.mpr t.nonempty))
        · exact hwhole htv heq.symm
  · rw [if_neg hlast]
    refine ⟨?_, fun u hu a ha ↦ ?_, ?_⟩
    · exact fun id hmem ↦ known_insert ht h.known id hmem
    · by_cases heq : u.id = t.id
      · rw [heq, Std.ExtTreeMap.getElem?_insert_self, Option.some.injEq] at ha
        rw [hid u hu heq]
        exact ⟨received ++ [index], List.append_ne_nil_of_right_ne_nil _ (List.cons_ne_nil _ _),
          ha.symm, hgrown, hseen'⟩
      · rw [Transfers.getElem?_insert_of_ne heq] at ha
        exact hgrow u hu a (hothers u hu heq a ha)
    · rw [Option.toList_none, List.append_nil]
      exact h.lost

/-- Nothing that arrives later brings the first chunk back. -/
theorem Damaged.run {victim : Transfer} {seen : List Delivery} {out : List ServerMessage}
    (rest : List Delivery) (h : Damaged transfers victim seen out m)
    (hfew : transfers.length ≤ maxIncompleteTransfers) (hids : (transfers.map Transfer.id).Nodup)
    (hwhole : ∀ t ∈ transfers, t ≠ victim → t.whole ≠ victim.whole)
    (hrange : ∀ d ∈ seen ++ rest, d ∈ all transfers) (hnodup : (seen ++ rest).Nodup)
    (hgone : (victim, 0) ∉ seen ++ rest) :
    victim.whole ∉ out ++ (m.feed (rest.map message)).1 := by
  induction rest generalizing seen out m with
  | nil =>
    rw [List.map_nil, Transfers.feed, List.append_nil]
    exact h.lost
  | cons d rest ih =>
    obtain ⟨t, index⟩ := d
    rw [List.append_cons] at hrange hnodup hgone
    have ht : t ∈ transfers :=
      (mem_all.mp (hrange (t, index) (List.mem_append_left _ List.mem_concat_self))).1
    have hstep := h.step hfew hids (hwhole t ht) ht
      (fun d hd ↦ hrange d (List.mem_append_left _ hd)) (List.nodup_append.mp hnodup).1
      (fun hmem ↦ hgone (List.mem_append_left _ hmem))
    have hrest := ih hstep hrange hnodup hgone
    rw [List.append_assoc] at hrest
    exact hrest

/-- The first chunk of a transfer is dropped when one of its series starts after it. -/
theorem damaged_start {a b : Transfer} (hfew : transfers.length ≤ maxIncompleteTransfers)
    (hids : (transfers.map Transfer.id).Nodup) (ha : a ∈ transfers) (hb : b ∈ transfers)
    (hid : a.id ≠ b.id) (hseries : a.cut.series = b.cut.series) (hparts : 1 < a.cut.count)
    (hwhole : b.whole ≠ a.whole) :
    Damaged transfers a [(b, 0)] (Transfers.feed ∅ [a.chunk 0, b.chunk 0]).1
      (Transfers.feed ∅ [a.chunk 0, b.chunk 0]).2 := by
  have hempty : ∀ id ∈ (∅ : Transfers), id ∈ transfers.map Transfer.id := fun id h ↦
    absurd h Std.ExtTreeMap.not_mem_empty
  have hfirst := getElem?_started [] ha hfew hempty (by simp)
  have hzero : ∀ t : Transfer, ∀ i ∈ ([] : List Nat), i < t.cut.count := fun _ i hi ↦
    absurd hi List.not_mem_nil
  have hone : Transfers.ingest ∅ (a.chunk 0) =
      (none,
        (Transfers.insertChunk ∅ a.id (a.cut.assembly [])).insert a.id (a.cut.assembly [0])) := by
    rw [Transfer.chunk, Transfers.ingest_chunk a.counted.le a.nonempty
      ((hfirst a.id).trans (if_pos rfl)) (List.nodup_singleton 0) (hzero a),
      if_neg (by simp only [List.length_nil]; omega)]
    rfl
  obtain ⟨m, hm⟩ : ∃ m : Transfers, m =
    (Transfers.insertChunk ∅ a.id (a.cut.assembly [])).insert a.id (a.cut.assembly [0]) := ⟨_, rfl⟩
  rw [← hm] at hone
  have hget : ∀ id, m[id]? = if id = a.id then some (a.cut.assembly [0]) else none := by
    intro id
    by_cases heq : id = a.id
    · rw [hm, heq, Std.ExtTreeMap.getElem?_insert_self, if_pos rfl]
    · rw [hm, Transfers.getElem?_insert_of_ne heq, hfirst, if_neg heq, if_neg heq]
      simp
  have hknown : ∀ id ∈ m, id ∈ transfers.map Transfer.id := by
    intro id hmem
    rw [Std.ExtTreeMap.mem_iff_isSome_getElem?, hget] at hmem
    split at hmem
    · next heq => exact heq ▸ List.mem_map_of_mem ha
    · cases hmem
  have hbnone : m[b.id]? = none := by rw [hget, if_neg hid.symm]
  have hsecond := getElem?_started [] hb hfew hknown (hbnone.trans (if_pos rfl).symm)
  have hbonly : ∀ id, (m.insertChunk b.id (b.cut.assembly []))[id]? =
      if id = b.id then some (b.cut.assembly []) else none := by
    intro id
    rw [hsecond, hget, if_pos rfl]
    split
    · rfl
    · split
      · simp [hseries]
      · rfl
  have hfeed : Transfers.feed ∅ [a.chunk 0, b.chunk 0] =
      ((m.ingest (b.chunk 0)).1.toList, (m.ingest (b.chunk 0)).2) := by
    simp only [Transfers.feed, hone, Option.toList_none, List.nil_append, List.append_nil]
  rw [hfeed, Transfer.chunk, Transfers.ingest_chunk b.counted.le b.nonempty
    ((hbonly b.id).trans (if_pos rfl)) (List.nodup_singleton 0) (hzero b)]
  split
  · refine ⟨fun id hmem ↦ ?_, fun t _ x hx ↦ ?_, ?_⟩
    · exact known_started hb hknown id (Std.ExtTreeMap.mem_of_mem_erase hmem)
    · by_cases heq : t.id = b.id
      · rw [heq, Std.ExtTreeMap.getElem?_erase_self] at hx
        cases hx
      · rw [Transfers.getElem?_erase_of_ne heq, hbonly, if_neg heq] at hx
        cases hx
    · rw [Option.toList_some, List.mem_singleton]
      exact fun heq ↦ hwhole heq.symm
  · refine ⟨fun id hmem ↦ ?_, fun t ht x hx ↦ ?_, List.not_mem_nil⟩
    · exact known_insert hb hknown id hmem
    · by_cases heq : t.id = b.id
      · rw [heq, Std.ExtTreeMap.getElem?_insert_self, Option.some.injEq] at hx
        rw [List.inj_on_of_nodup_map hids ht hb heq]
        exact ⟨[0], List.cons_ne_nil _ _, hx.symm, List.nodup_singleton 0, fun i hi ↦ by
          rw [List.mem_singleton.mp hi]
          exact List.mem_singleton.mpr rfl⟩
      · rw [Transfers.getElem?_insert_of_ne heq, hbonly, if_neg heq] at hx
        cases hx

/-- A transfer of several chunks is lost when another of its series cuts in after its first. -/
theorem not_reassembles {a b : Transfer} (hfew : transfers.length ≤ maxIncompleteTransfers)
    (hids : (transfers.map Transfer.id).Nodup)
    (hwhole : ∀ t ∈ transfers, t ≠ a → t.whole ≠ a.whole)
    (ha : a ∈ transfers) (hb : b ∈ transfers) (hab : b ≠ a)
    (hseries : a.cut.series = b.cut.series) (hparts : 1 < a.cut.count) :
    ¬ Reassembles transfers := by
  intro hreassembles
  have hne : a.id ≠ b.id := fun heq ↦ hab (List.inj_on_of_nodup_map hids ha hb heq).symm
  -- The first chunk of `a`, the first of `b`, and then the others in any order.
  have hfirst : (a, 0) ∈ all transfers := mem_all.mpr ⟨ha, a.nonempty⟩
  have hsecond : (b, 0) ∈ (all transfers).erase (a, 0) :=
    (List.mem_erase_of_ne fun heq ↦ hab (Prod.mk.inj heq).1).mpr (mem_all.mpr ⟨hb, b.nonempty⟩)
  have hperm : ((a, 0) :: (b, 0) :: ((all transfers).erase (a, 0)).erase (b, 0)).Perm
      (all transfers) :=
    ((List.perm_cons_erase hsecond).symm.cons _).trans (List.perm_cons_erase hfirst).symm
  generalize ((all transfers).erase (a, 0)).erase (b, 0) = rest at hperm
  have hnodup : ((a, 0) :: (b, 0) :: rest).Nodup :=
    hperm.nodup_iff.mpr (nodup_all (List.Nodup.of_map _ hids))
  have hdamaged := damaged_start hfew hids ha hb hne hseries hparts (hwhole b hb hab)
  have hlost := hdamaged.run rest hfew hids hwhole
    (fun d hd ↦ hperm.mem_iff.mp (List.mem_cons_of_mem _ hd)) (List.nodup_cons.mp hnodup).2
    (List.nodup_cons.mp hnodup).1
  have hout := (hreassembles _ (map_message_all transfers ▸ hperm.map message)).1
  apply hlost
  have hmem : a.whole ∈ (Transfers.feed ∅ (((a, 0) :: (b, 0) :: rest).map message)).1 :=
    hout.mem_iff.mpr (List.mem_map_of_mem ha)
  have hcut := congrArg Prod.fst
    (Transfers.feed_append ∅ [a.chunk 0, b.chunk 0] (rest.map message))
  exact (congrArg (a.whole ∈ ·) hcut).mp hmem

/-- At most 64 chunked messages with different keys and ids are put together however their chunks
interleave exactly when no two of several chunks fill one series. -/
theorem reassembles_iff (hfew : transfers.length ≤ maxIncompleteTransfers)
    (hkeys : transfers.Pairwise fun t u ↦
      t.whole.dashboardCacheKey ≠ u.whole.dashboardCacheKey)
    (hids : transfers.Pairwise fun t u ↦ t.id ≠ u.id) :
    Reassembles transfers ↔ transfers.Pairwise Transfer.Compatible := by
  have hnodup : (transfers.map Transfer.id).Nodup := List.pairwise_map.mpr hids
  have hkeysNodup : (transfers.map fun t ↦ t.whole.dashboardCacheKey).Nodup :=
    List.pairwise_map.mpr hkeys
  have hwhole : ∀ a ∈ transfers, ∀ t ∈ transfers, t ≠ a → t.whole ≠ a.whole :=
    fun a ha t ht hne heq ↦ hne (List.inj_on_of_nodup_map hkeysNodup ht ha
      (congrArg ServerMessage.dashboardCacheKey heq))
  constructor
  · intro hreassembles
    refine hids.imp_of_mem fun {t u} ht hu hne ↦ ?_
    have htu : u ≠ t := fun heq ↦ hne (congrArg Transfer.id heq.symm)
    by_contra hbad
    rw [Transfer.Compatible, not_or, not_not] at hbad
    obtain ⟨hseries, hcounts⟩ := hbad
    have := t.nonempty
    have := u.nonempty
    by_cases hone : t.cut.count = 1
    · exact not_reassembles hfew hnodup (hwhole u hu) hu ht htu.symm hseries.symm (by omega)
        hreassembles
    · exact not_reassembles hfew hnodup (hwhole t ht) ht hu htu hseries (by omega) hreassembles
  · intro hcompatible
    apply reassembles_of_compatible hfew hnodup
    intro t ht u hu hne
    exact hcompatible.forall ht hu hne.symm

/-- Two chunks of samples of a Signal. -/
def availabilitySamples : Transfer where
  id := 1
  cut := .samples "prod" "availability" [[⟨60, some 120⟩], [⟨120, some 95⟩]]
  nonempty := by decide
  counted := by decide

/-- Two chunks of rollups of the same Signal. -/
def availabilityRollups : Transfer where
  id := 2
  cut := .rollups "prod" "availability"
    [[⟨0, some 110, some 120, 60⟩], [⟨3600, some 100, some 115, 60⟩]]
  nonempty := by decide
  counted := by decide

/-- Two chunks of snapshots of the same Environment. -/
def prodSnapshots : Transfer where
  id := 3
  cut := .snapshots "prod"
    [[⟨"availability", "ok", 120, "\x7b\x7d"⟩], [⟨"jobs", "ok", 120, "\x7b\x7d"⟩]]
  nonempty := by decide
  counted := by decide

theorem reassembles_samples_and_snapshots : Reassembles [availabilitySamples, prodSnapshots] :=
  (reassembles_iff (by decide) (by decide) (by decide)).mpr
    (List.pairwise_pair.mpr (Or.inl (by decide)))

/-- Samples and rollups of one Signal replace each other. -/
theorem samples_lost_to_rollups :
    ¬ ∀ transfers : List Transfer, transfers.length ≤ maxIncompleteTransfers →
      (transfers.Pairwise fun t u ↦ t.whole.dashboardCacheKey ≠ u.whole.dashboardCacheKey) →
      (transfers.Pairwise fun t u ↦ t.id ≠ u.id) → Reassembles transfers := by
  intro hall
  have hreassembles := hall [availabilitySamples, availabilityRollups] (by decide) (by decide)
    (by decide)
  refine not_reassembles (by decide) (by decide) ?_ List.mem_cons_self
    (List.mem_cons_of_mem _ List.mem_cons_self) (by decide) (by decide) (by decide) hreassembles
  intro t ht hne heq
  rcases List.mem_pair.mp ht with rfl | rfl
  · exact hne rfl
  · cases heq

end Daku.Wire
