import Daku.Readers.OneHealth
import Mathlib.Data.List.Forall2

/-!
# Informational Signals

Signals that never vote (`crates/daku-protocol/src/environment.rs:177`) reach the verdict of
`crates/daku-core/src/health.rs:45–102` by one way only: without an availability row the loop over
the payloads reads theirs too.
-/

namespace Daku.Health

open Daku.Protocol Daku.Store Daku.Collector Daku.Readers

/-- The same snapshot, up to the state and the payload of a Signal that never votes. -/
def SameVote (s t : SignalSnapshot) : Prop :=
  t = s ∨ s.signalId ∈ nonVotingSignals ∧
    t = { s with state := t.state, payloadJson := t.payloadJson }

/-- Rewriting the snapshots of informational Signals and reordering leave the health as it is. -/
def InformationalNeverMatter (fromStr : FromStr) (snapshots : List SignalSnapshot) : Prop :=
  ∀ changed reordered, List.Forall₂ SameVote snapshots changed → changed.Perm reordered →
    (decide fromStr reordered).health = (decide fromStr snapshots).health

/-- What informational Signals say cannot be heard: the availability row decides, there are none
of them, or a voting Signal speaks for the platform already. -/
def InformationalUnheard (fromStr : FromStr) (snapshots : List SignalSnapshot) : Prop :=
  (∃ s ∈ snapshots, s.signalId = availabilitySignalId) ∨
    (∀ s ∈ snapshots, s.signalId ∉ nonVotingSignals) ∨
    ∃ s ∈ snapshots, s.signalId ∉ nonVotingSignals ∧ SpeaksUnreachable fromStr s

section Rollup

variable {fromStr : FromStr} {s t : SignalSnapshot} {l m : List SignalSnapshot}

/-- The vote of a snapshot that degrades (`health.rs:134–143`). -/
private def degrades (s : SignalSnapshot) : Bool :=
  !(Decidable.decide (s.signalId ∈ nonVotingSignals) || snapshotState s == .skipped) &&
    (snapshotState s == .down || snapshotState s == .degraded)

private theorem health_decide (fromStr : FromStr) (l : List SignalSnapshot) :
    (decide fromStr l).health = match (decide fromStr l).reachability with
      | .unreachable => .down
      | .asleep => .healthy
      | .reachable =>
        if l = [] then .waiting else if l.any degrades then .degraded else .healthy := by
  show healthRollup (decide fromStr l).reachability _ = _
  cases (decide fromStr l).reachability with
  | unreachable => rfl
  | asleep => rfl
  | reachable =>
    simp only [healthRollup, List.map_eq_nil_iff, List.any_map]
    rfl

theorem SameVote.signalId_eq (h : SameVote s t) : t.signalId = s.signalId := by
  rcases h with rfl | ⟨-, h⟩
  · rfl
  · rw [h]

/-- Only Signals that never vote differ. -/
theorem SameVote.eq_of_votes (h : SameVote s t) (hvotes : s.signalId ∉ nonVotingSignals) :
    t = s :=
  h.resolve_right fun hchanged ↦ hvotes hchanged.1

private theorem SameVote.degrades_eq (h : SameVote s t) : degrades t = degrades s := by
  by_cases hvotes : s.signalId ∈ nonVotingSignals
  · simp [degrades, h.signalId_eq, hvotes]
  · rw [h.eq_of_votes hvotes]

private theorem any_degrades_eq (h : List.Forall₂ SameVote l m) :
    m.any degrades = l.any degrades := by
  induction h with
  | nil => rfl
  | cons hst _ ih => rw [List.any_cons, List.any_cons, hst.degrades_eq, ih]

private theorem map_signalId_eq (h : List.Forall₂ SameVote l m) :
    m.map SignalSnapshot.signalId = l.map SignalSnapshot.signalId := by
  induction h with
  | nil => rfl
  | cons hst _ ih => rw [List.map_cons, List.map_cons, hst.signalId_eq, ih]

/-- A voting snapshot survives every change. -/
private theorem mem_of_votes (h : List.Forall₂ SameVote l m) (hs : s ∈ l)
    (hvotes : s.signalId ∉ nonVotingSignals) : s ∈ m := by
  induction h with
  | nil => exact hs
  | cons hst _ ih =>
    rcases List.mem_cons.mp hs with rfl | hs
    · rw [hst.eq_of_votes hvotes]
      exact List.mem_cons_self
    · exact List.mem_cons_of_mem _ (ih hs)

private theorem eq_of_votes (h : List.Forall₂ SameVote l m)
    (hvotes : ∀ s ∈ l, s.signalId ∉ nonVotingSignals) : m = l := by
  induction h with
  | nil => rfl
  | cons hst _ ih =>
    rw [hst.eq_of_votes (hvotes _ List.mem_cons_self),
      ih fun s hs ↦ hvotes s (List.mem_cons_of_mem _ hs)]

/-- Equal reachability leaves only the votes to decide, and those are the same. -/
private theorem health_eq_of_reachability (h : List.Forall₂ SameVote l m) {n : List SignalSnapshot}
    (hperm : m.Perm n)
    (hreach : (decide fromStr n).reachability = (decide fromStr l).reachability) :
    (decide fromStr n).health = (decide fromStr l).health := by
  have hnil : n = [] ↔ l = [] := by
    have hlength := hperm.length_eq.symm.trans h.length_eq.symm
    rw [← List.length_eq_zero_iff, hlength, List.length_eq_zero_iff]
  have hany : n.any degrades = l.any degrades := by
    rw [← hperm.any_eq, any_degrades_eq h]
  rw [health_decide, health_decide, hreach, hany]
  simp only [hnil]

/-- The row of an id is found in any order, when there is one row of an id. -/
private theorem find?_eq_of_perm {n : List SignalSnapshot} (hperm : m.Perm n)
    (hids : (m.map SignalSnapshot.signalId).Nodup) (id : String) :
    n.find? (fun s ↦ s.signalId = id) = m.find? fun s ↦ s.signalId = id := by
  have hmem : ∀ s, m.find? (fun s ↦ s.signalId = id) = some s → n.find? (fun s ↦ s.signalId = id) =
      some s := by
    intro s hs
    have hid : s.signalId = id := by simpa using List.find?_some hs
    obtain ⟨t, ht⟩ : ∃ t, n.find? (fun s ↦ s.signalId = id) = some t := by
      rw [← Option.isSome_iff_exists, List.find?_isSome]
      exact ⟨s, hperm.mem_iff.mp (List.mem_of_find?_eq_some hs), by simpa using hid⟩
    have hid' : t.signalId = id := by simpa using List.find?_some ht
    rw [ht, List.inj_on_of_nodup_map hids (hperm.mem_iff.mpr (List.mem_of_find?_eq_some ht))
      (List.mem_of_find?_eq_some hs) (hid'.trans hid.symm)]
  cases hfind : m.find? fun s ↦ s.signalId = id with
  | some s => exact hmem s hfind
  | none =>
    rw [List.find?_eq_none] at hfind ⊢
    exact fun s hs ↦ hfind s (hperm.mem_iff.mpr hs)

/-- Changes of informational Signals do not touch the availability row. -/
private theorem find?_availability_eq (h : List.Forall₂ SameVote l m) :
    m.find? (fun s ↦ s.signalId = availabilitySignalId) =
      l.find? fun s ↦ s.signalId = availabilitySignalId := by
  induction h with
  | nil => rfl
  | @cons s t _ _ hst _ ih =>
    rw [List.find?_cons, List.find?_cons, hst.signalId_eq, ih]
    split
    · next hid =>
      have hvotes : s.signalId ∉ nonVotingSignals := by
        rw [of_decide_eq_true hid]
        decide +kernel
      rw [hst.eq_of_votes hvotes]
    · rfl

private theorem find?_availability_isNone (l : List SignalSnapshot) :
    l.find? (fun s ↦ s.signalId = availabilitySignalId) = none ↔
      ¬∃ s ∈ l, s.signalId = availabilitySignalId := by
  simp [List.find?_eq_none]

/-- Without an availability row the snapshots speak for the platform. -/
private theorem reachability_of_no_availability
    (hnone : ¬∃ s ∈ l, s.signalId = availabilitySignalId) :
    (decide fromStr l).reachability = platformReachability fromStr .reachable l := by
  simp only [decide, (find?_availability_isNone l).mpr hnone]

private theorem platformReachability_cases (fromStr : FromStr) (acc : Reachability)
    (hacc : acc = .reachable ∨ acc = .unreachable) (l : List SignalSnapshot) :
    platformReachability fromStr acc l = .reachable ∨
      platformReachability fromStr acc l = .unreachable := by
  induction l generalizing acc with
  | nil => exact hacc
  | cons s l ih =>
    rw [platformReachability]
    split
    · exact Or.inr rfl
    · split
      · exact ih _ (Or.inr rfl)
      · exact ih _ hacc

/-- The platform is out exactly when a snapshot speaks so. -/
private theorem platformReachability_eq_unreachable_iff (l : List SignalSnapshot) :
    platformReachability fromStr .reachable l = .unreachable ↔
      ∃ s ∈ l, SpeaksUnreachable fromStr s := by
  have hreachable : platformReachability fromStr .reachable l = .reachable ↔
      Reachability.reachable = .reachable ∧ ∀ s ∈ l, ¬SpeaksUnreachable fromStr s :=
    platformReachability_eq_reachable_iff .reachable (Or.inl rfl)
  rcases platformReachability_cases fromStr .reachable (Or.inl rfl) l with h | h
  · rw [h] at hreachable ⊢
    simpa using hreachable
  · rw [h] at hreachable ⊢
    simpa using hreachable

end Rollup

section Heard

variable {fromStr : FromStr} {snapshots : List SignalSnapshot}

/-- Unheard informational Signals leave the reachability as it is. -/
private theorem reachability_eq_of_unheard
    (hids : (snapshots.map SignalSnapshot.signalId).Nodup)
    (h : InformationalUnheard fromStr snapshots) {changed reordered : List SignalSnapshot}
    (hchanged : List.Forall₂ SameVote snapshots changed) (hperm : changed.Perm reordered) :
    (decide fromStr reordered).reachability = (decide fromStr snapshots).reachability := by
  have hfind : reordered.find? (fun s ↦ s.signalId = availabilitySignalId) =
      snapshots.find? fun s ↦ s.signalId = availabilitySignalId := by
    rw [find?_eq_of_perm hperm (by rw [map_signalId_eq hchanged]; exact hids),
      find?_availability_eq hchanged]
  cases hrow : snapshots.find? fun s ↦ s.signalId = availabilitySignalId with
  | some s => simp only [decide, hfind, hrow]
  | none =>
    have hnone := (find?_availability_isNone snapshots).mp hrow
    have hnone' := (find?_availability_isNone reordered).mp (hfind.trans hrow)
    rw [reachability_of_no_availability hnone, reachability_of_no_availability hnone']
    rcases h with h | hvotes | ⟨s, hs, hvotes, hspeaks⟩
    · exact absurd h hnone
    · -- Without informational Signals only the order differs.
      have hsame := eq_of_votes hchanged hvotes
      have hiff : (∃ s ∈ reordered, SpeaksUnreachable fromStr s) ↔
          ∃ s ∈ snapshots, SpeaksUnreachable fromStr s := by
        simp only [← hperm.mem_iff, hsame]
      rw [← platformReachability_eq_unreachable_iff,
        ← platformReachability_eq_unreachable_iff] at hiff
      rcases platformReachability_cases fromStr .reachable (Or.inl rfl) snapshots with
        hreach | hreach
      · rcases platformReachability_cases fromStr .reachable (Or.inl rfl) reordered with
          hreach' | hreach'
        · rw [hreach, hreach']
        · rw [hiff.mp hreach'] at hreach
          cases hreach
      · rw [hreach, hiff.mpr hreach]
    · -- The voting Signal that speaks for the platform is still there.
      have hmem : s ∈ reordered := hperm.mem_iff.mp (mem_of_votes hchanged hs hvotes)
      rw [(platformReachability_eq_unreachable_iff snapshots).mpr ⟨s, hs, hspeaks⟩,
        (platformReachability_eq_unreachable_iff reordered).mpr ⟨s, hmem, hspeaks⟩]

/-- Give every informational Signal the same payload. -/
private def overwrite (text : String) (s : SignalSnapshot) : SignalSnapshot :=
  if s.signalId ∈ nonVotingSignals then { s with payloadJson := text } else s

private theorem sameVote_overwrite (text : String) (l : List SignalSnapshot) :
    List.Forall₂ SameVote l (l.map (overwrite text)) := by
  rw [List.forall₂_map_right_iff, List.forall₂_same]
  intro s _
  rw [overwrite]
  split
  · next hid => exact Or.inr ⟨hid, rfl⟩
  · exact Or.inl rfl

private theorem no_availability_overwrite (text : String)
    (hnone : ¬∃ s ∈ snapshots, s.signalId = availabilitySignalId) :
    ¬∃ s ∈ snapshots.map (overwrite text), s.signalId = availabilitySignalId := by
  rw [← find?_availability_isNone, find?_availability_eq (sameVote_overwrite text snapshots),
    find?_availability_isNone]
  exact hnone

/-- A payload that reads unreachable takes the platform down. -/
private theorem health_overwrite_unreachable {text : String}
    (hnone : ¬∃ s ∈ snapshots, s.signalId = availabilitySignalId)
    (htext : wireReachability fromStr text = .unreachable)
    (hinformational : ∃ s ∈ snapshots, s.signalId ∈ nonVotingSignals) :
    (decide fromStr (snapshots.map (overwrite text))).health = .down := by
  obtain ⟨s, hs, hid⟩ := hinformational
  have hspeaks : SpeaksUnreachable fromStr (overwrite text s) := by
    rw [overwrite, if_pos hid]
    exact Or.inl htext
  rw [health_decide, reachability_of_no_availability (no_availability_overwrite text hnone),
    (platformReachability_eq_unreachable_iff _).mpr ⟨_, List.mem_map_of_mem hs, hspeaks⟩]

/-- Payloads that read reachable leave the platform to the voting Signals. -/
private theorem health_overwrite_reachable {text : String}
    (hnone : ¬∃ s ∈ snapshots, s.signalId = availabilitySignalId)
    (htext : wireReachability fromStr text = .reachable)
    (hquiet : ∀ s ∈ snapshots, s.signalId ∉ nonVotingSignals → ¬SpeaksUnreachable fromStr s) :
    (decide fromStr (snapshots.map (overwrite text))).health ≠ .down := by
  have hprobes : httpProbeSignalId ∉ nonVotingSignals ∧ actionsSignalId ∉ nonVotingSignals := by
    decide +kernel
  have hsilent : ∀ s ∈ snapshots.map (overwrite text), ¬SpeaksUnreachable fromStr s := by
    intro s hs
    obtain ⟨t, ht, rfl⟩ := List.mem_map.mp hs
    rw [overwrite]
    split
    · next hid =>
      rintro (hreads | ⟨hprobe | hprobe, -⟩)
      · exact absurd (htext.symm.trans hreads) (by decide)
      · exact hprobes.1 (hprobe ▸ hid)
      · exact hprobes.2 (hprobe ▸ hid)
    · next hid => exact hquiet t ht hid
  rw [health_decide, reachability_of_no_availability (no_availability_overwrite text hnone),
    (platformReachability_eq_reachable_iff .reachable (Or.inl rfl)).mpr ⟨rfl, hsilent⟩]
  simp only
  split
  · decide
  · split <;> decide

/-- Informational Signals leave the health alone exactly when what they say cannot be heard. The
payload texts that read unreachable and reachable are the ones `serde_json` reads. -/
theorem informational_never_matter_iff (hids : (snapshots.map SignalSnapshot.signalId).Nodup)
    (hdown : ∃ text, wireReachability fromStr text = .unreachable)
    (hup : ∃ text, wireReachability fromStr text = .reachable) :
    InformationalNeverMatter fromStr snapshots ↔ InformationalUnheard fromStr snapshots := by
  constructor
  · intro h
    by_contra hheard
    rw [InformationalUnheard, not_or, not_or] at hheard
    obtain ⟨hnone, hsome, hquiet⟩ := hheard
    obtain ⟨down, hdown⟩ := hdown
    obtain ⟨up, hup⟩ := hup
    have hinformational : ∃ s ∈ snapshots, s.signalId ∈ nonVotingSignals := by
      simpa using hsome
    -- One rewriting takes the platform down, the other does not.
    have h₁ := h _ _ (sameVote_overwrite down snapshots) (List.Perm.refl _)
    have h₂ := h _ _ (sameVote_overwrite up snapshots) (List.Perm.refl _)
    rw [health_overwrite_unreachable hnone hdown hinformational] at h₁
    refine health_overwrite_reachable hnone hup (fun s hs hvotes hspeaks ↦ ?_) (h₂.trans h₁.symm)
    exact hquiet ⟨s, hs, hvotes, hspeaks⟩
  · intro h changed reordered hchanged hperm
    exact health_eq_of_reachability hchanged hperm
      (reachability_eq_of_unheard hids h hchanged hperm)

end Heard

/-- The payload of a failed probe (`persistence.rs:316–319`). -/
def downText : String := "\x7b\"detail\":\"HTTP 403\",\"reachability\":\"unreachable\"\x7d"

/-- `serde_json` on the payload of a failed probe and on the empty object. -/
def downFromStr : FromStr := fun text ↦
  if text = downText then
    some (.object [("detail", .string "HTTP 403"), ("reachability", .string "unreachable")])
  else emptyObjectFromStr text

/-- A healthy count of sessions. -/
def sessionsRow : SignalSnapshot := ⟨"prod", "sessions", 0, "healthy", "{}"⟩

/-- A healthy availability row. -/
def availabilityRow : SignalSnapshot := ⟨"prod", "availability", 0, "healthy", "{}"⟩

theorem informational_never_matter_with_availability :
    InformationalNeverMatter downFromStr [availabilityRow, sessionsRow] :=
  (informational_never_matter_iff (by decide +kernel) ⟨downText, by decide +kernel⟩
    ⟨"{}", by decide +kernel⟩).mpr (Or.inl ⟨availabilityRow, List.mem_cons_self, rfl⟩)

/-- An informational Signal that lost its read access takes the Environment down. -/
theorem informational_matters : ¬InformationalNeverMatter downFromStr [sessionsRow] := by
  intro h
  have hsame : SameVote sessionsRow { sessionsRow with state := "down", payloadJson := downText } :=
    Or.inr ⟨by decide +kernel, rfl⟩
  have hdown := h _ _ (List.Forall₂.cons hsame .nil) (List.Perm.refl _)
  revert hdown
  decide +kernel

end Daku.Health
