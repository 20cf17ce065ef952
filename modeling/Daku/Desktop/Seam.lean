import Daku.Desktop.CountSums
import Daku.Signals.DriftCollector

/-!
# The typed payloads and the cards

Collectors write the counts of a payload under their keys, and `payload::parse`
(`crates/daku-protocol/src/payload.rs:76–168`) and the cards (`src/dashboard_state.rs:2321–2563`)
name the keys again. Where all three agree, the typed count is the number on the card.
-/

namespace Daku.Desktop

open Daku.Base Daku.Protocol Daku.Http Daku.Collector Daku.Signals

/-- The count that a card reports: the number its text begins with, zero for `No …`, and for
scheduled jobs the sum of the two. -/
def cardCount (signalId : String) (value : Value) : Option ℕ :=
  match signalId with
  | "jobs" => some (countOf value "overdue_ready" + countOf value "error")
  | "syslog" => some (countOf value "error_count_1h")
  | "mid_ecc" => some (countOf value "agents_total" - countOf value "agents_unhealthy")
  | "outbound" => some (countOf value "outbound_http_4xx_5xx_1h")
  | "flow" => some (countOf value "flow_error_1h")
  | "email" => some (countOf value "email_failed_1h")
  | "upgrade" =>
    let failed := countOf value "failed_7d"
    if 0 < failed then some failed
    else if (textOf value "last_to").isSome then none
    else some 0
  | "sessions" =>
    if (value.get "truncated").bind Value.asBool = some true then some 100
    else some (countOf value "active_sessions")
  | "slow_txn" => some ((((value.get "transaction_avg_ms").bind Value.asF64).map roundMs).getD 0)
  | "update_sets" => some (countOf value "open_count")
  | "scan" =>
    let p1 := countOf value "p1_open"
    if 0 < p1 then some p1 else some (countOf value "p2_open")
  | "actions" => some (countOf value "failed_24h")
  | _ => none

/-- A text begins with a number, or with `No` for zero. -/
def BeginsWithCount (text : String) (n : ℕ) : Prop :=
  (∃ rest, text = toString n ++ rest ∧ rest.toList.head?.all fun c ↦ !c.isDigit) ∨
    n = 0 ∧ ∃ rest, text = "No " ++ rest

/-- The card of scheduled jobs has two counts, all others have the one. -/
def ReportsCount (signalId text : String) (value : Value) (n : ℕ) : Prop :=
  if signalId = "jobs" then
    ∃ overdue error, n = overdue + error ∧
      text = toString overdue ++ " overdue · " ++ toString error ++ " in error" ∧
        overdue = countOf value "overdue_ready" ∧ error = countOf value "error"
  else BeginsWithCount text n

section Cards

variable {value : Value} {n : ℕ}

theorem BeginsWithCount.of_eq {text : String} (rest : String) (htext : text = toString n ++ rest)
    (h : rest.toList.head?.all fun c ↦ !c.isDigit) : BeginsWithCount text n :=
  Or.inl ⟨rest, htext, h⟩

private theorem beginsWith_append {rest : String}
    (h : rest.toList.head?.all fun c ↦ !c.isDigit) : BeginsWithCount (toString n ++ rest) n :=
  .of_eq rest rfl h

private theorem beginsWith_midEcc : BeginsWithCount (summarizeMidEcc value)
    (countOf value "agents_total" - countOf value "agents_unhealthy") := by
  rw [summarizeMidEcc]
  split
  · next htotal =>
    rw [htotal, Nat.zero_sub]
    exact Or.inr ⟨rfl, "MID servers", rfl⟩
  · refine .of_eq ("/" ++ (toString (countOf value "agents_total") ++ (" MID up · queue " ++
      toString (countOf value "ecc_output_ready")))) ?_ (by simp)
    simp only [← String.append_assoc]
    rfl

private theorem beginsWith_upgrade
    (h : (let failed := countOf value "failed_7d"
      if 0 < failed then some failed
      else if (textOf value "last_to").isSome then none
      else some 0) = some n) : BeginsWithCount (summarizeUpgrade value) n := by
  dsimp only at h
  rw [summarizeUpgrade]
  split at h
  · next hfailed =>
    rw [if_pos hfailed, ← Option.some.inj h]
    exact .of_eq " failed · last 7d" rfl (by simp)
  · next hfailed =>
    split at h
    · cases h
    · next hlast =>
      rw [if_neg hfailed, Option.not_isSome_iff_eq_none.mp hlast, ← Option.some.inj h]
      exact Or.inr ⟨rfl, "upgrades found", rfl⟩

private theorem beginsWith_sessions
    (h : (if (value.get "truncated").bind Value.asBool = some true then some 100
      else some (countOf value "active_sessions")) = some n) :
    BeginsWithCount (summarizeSessions value) n := by
  rw [summarizeSessions]
  split at h
  · next htruncated =>
    rw [if_pos htruncated, ← Option.some.inj h]
    exact .of_eq "+ active sessions" rfl (by simp)
  · next htruncated =>
    rw [if_neg htruncated, ← Option.some.inj h]
    split
    · next hone =>
      rw [hone]
      exact .of_eq " active session" rfl (by simp)
    · exact .of_eq " active sessions" rfl (by simp)

private theorem beginsWith_updateSets :
    BeginsWithCount (summarizeUpdateSets value) (countOf value "open_count") := by
  rw [summarizeUpdateSets]
  split
  · next hopen =>
    rw [hopen]
    exact Or.inr ⟨rfl, "open update sets", rfl⟩
  · next hopen =>
    rw [hopen]
    exact .of_eq " open update set" rfl (by simp)
  · exact .of_eq " open update sets" rfl (by simp)

private theorem beginsWith_scan
    (h : (let p1 := countOf value "p1_open"
      if 0 < p1 then some p1 else some (countOf value "p2_open")) = some n) :
    BeginsWithCount (summarizeScan value) n := by
  dsimp only at h
  rw [summarizeScan]
  by_cases hp1 : 0 < countOf value "p1_open"
  · rw [if_pos hp1] at h
    rw [← Option.some.inj h, if_pos hp1]
    split
    · refine .of_eq (" P1 · " ++ (toString (countOf value "p2_open") ++ " P2 findings")) ?_
        (by simp)
      simp only [← String.append_assoc]
      rfl
    · exact .of_eq " P1 findings" rfl (by simp)
  · rw [if_neg hp1] at h
    rw [← Option.some.inj h, if_neg fun hboth ↦ hp1 hboth.1, if_neg hp1]
    split
    · exact .of_eq " P2 findings" rfl (by simp)
    · next hp2 =>
      rw [Nat.eq_zero_of_not_pos hp2]
      exact Or.inr ⟨rfl, "open findings", rfl⟩

private theorem beginsWith_actions :
    BeginsWithCount (summarizeActions value) (countOf value "failed_24h") := by
  rw [summarizeActions]
  split
  · next hfailed =>
    rw [hfailed]
    exact .of_eq " failed run · 24h" rfl (by simp)
  · exact .of_eq " failed runs · 24h" rfl (by simp)

/-- What the cards report is in their texts. -/
theorem reportsCount_summarizeArm {signalId : String} (h : cardCount signalId value = some n) :
    ReportsCount signalId (summarizeArm signalId value) value n := by
  have hother : ∀ {id : String}, id ≠ "jobs" → BeginsWithCount (summarizeArm id value) n →
      ReportsCount id (summarizeArm id value) value n := by
    intro id hid hbegins
    rwa [ReportsCount, if_neg hid]
  unfold cardCount at h
  split at h
  · rw [ReportsCount, if_pos rfl]
    exact ⟨_, _, (Option.some.inj h).symm, rfl, rfl, rfl⟩
  · rw [← Option.some.inj h] at hother ⊢
    exact hother (by decide) (beginsWith_append (by simp))
  · rw [← Option.some.inj h] at hother ⊢
    exact hother (by decide) beginsWith_midEcc
  · rw [← Option.some.inj h] at hother ⊢
    exact hother (by decide) (beginsWith_append (by simp))
  · rw [← Option.some.inj h] at hother ⊢
    exact hother (by decide) (beginsWith_append (by simp))
  · rw [← Option.some.inj h] at hother ⊢
    exact hother (by decide) (beginsWith_append (by simp))
  · exact hother (by decide) (beginsWith_upgrade h)
  · exact hother (by decide) (beginsWith_sessions h)
  · rw [← Option.some.inj h] at hother ⊢
    exact hother (by decide) (beginsWith_append (by simp))
  · rw [← Option.some.inj h] at hother ⊢
    exact hother (by decide) beginsWith_updateSets
  · exact hother (by decide) (beginsWith_scan h)
  · rw [← Option.some.inj h] at hother ⊢
    exact hother (by decide) beginsWith_actions
  · cases h

end Cards

/-- The typed payload has the count that the card reports; a skipped one has the reason. -/
def AgreesWithCard (signalId : String) (payload : Value) : Prop :=
  if (text payload "skipped").isSome then
    ∃ reason, parsePayload signalId payload = .skipped reason
  else
    ∃ n, parsePayload signalId payload = .count n ∧ cardCount signalId payload = some n ∧
      ReportsCount signalId (summarizeValue signalId payload) payload n

/-- Where the keys agree, by the Signal. -/
def SeamHolds : VotingSignal → Value → Prop
  | .jobs, payload => countOf payload "overdue_ready" + countOf payload "error" < 2 ^ 64
  -- The card reports the servers that are up, the typed payload those that are not.
  | .midEcc, payload => countOf payload "agents_total" = 2 * countOf payload "agents_unhealthy"
  -- Without failed upgrades the card reports the last one.
  | .upgrade, payload => 0 < countOf payload "failed_7d" ∨ textOf payload "last_to" = none
  -- Without P1 findings the card reports the others.
  | .scan, payload => 0 < countOf payload "p1_open" ∨ countOf payload "p2_open" = 0
  -- The typed payload has another key.
  | .slowTxn, _ => False
  | _, _ => True

section Agrees

variable {signalId : String} {fields : List (String × Value)} {n : ℕ}

theorem text_skipped_of_get (h : (Value.object fields).get "skipped" = none) :
    text (.object fields) "skipped" = none := by
  rw [text, h]
  rfl

/-- A payload with a count is summarized by the arm of its Signal. -/
theorem summarizeValue_object (hskipped : (Value.object fields).get "skipped" = none)
    (hreach : textOf (.object fields) "reachability" ≠ some "unreachable") :
    summarizeValue signalId (.object fields) = summarizeArm signalId (.object fields) := by
  rw [summarizeValue]
  · rw [hskipped, if_neg (by simp), if_neg fun h ↦ hreach h.1]
  · intro h
    cases h

/-- A typed count agrees with the card exactly if the card reports it. -/
theorem agrees_iff_of_count (hskipped : (Value.object fields).get "skipped" = none)
    (hreach : textOf (.object fields) "reachability" ≠ some "unreachable")
    (hparse : parsePayload signalId (.object fields) = .count n) :
    AgreesWithCard signalId (.object fields) ↔ cardCount signalId (.object fields) = some n := by
  rw [AgreesWithCard, text_skipped_of_get hskipped, if_neg (by simp), hparse,
    summarizeValue_object hskipped hreach]
  constructor
  · rintro ⟨m, hm, hcard, -⟩
    rwa [TypedPayload.count.inj hm]
  · intro hcard
    exact ⟨n, rfl, hcard, reportsCount_summarizeArm hcard⟩

theorem not_agrees_of_unknown (hskipped : (Value.object fields).get "skipped" = none)
    (hparse : parsePayload signalId (.object fields) = .unknown) :
    ¬ AgreesWithCard signalId (.object fields) := by
  rw [AgreesWithCard, text_skipped_of_get hskipped, if_neg (by simp), hparse]
  rintro ⟨m, hm, -⟩
  cases hm

/-- A payload without a reachability is not that of a failed probe. -/
theorem not_unreachable (h : (Value.object fields).get "reachability" = none) :
    textOf (.object fields) "reachability" ≠ some "unreachable" := by
  rw [textOf, h]
  exact fun h ↦ Option.some_ne_none _ h.symm

private theorem agrees_jobs (overdueReady error : ℕ) (overdueRows errorRows : List Value)
    (overdueTruncated errorTruncated throttled : Bool) :
    let payload := jobsPayload overdueReady error overdueRows errorRows overdueTruncated
      errorTruncated throttled
    AgreesWithCard "jobs" payload ↔ SeamHolds .jobs payload := by
  intro payload
  have hcount : countForIn false "jobs" payload = (addU64 false overdueReady error).map some := rfl
  have hparse : parsePayload "jobs" payload = .count ((overdueReady + error) % 2 ^ 64) := by
    have hfor : countFor "jobs" payload = some ((overdueReady + error) % 2 ^ 64) := by
      rw [countFor, hcount, addU64_unchecked]
      rfl
    exact parsePayload_of_count (by simp) rfl rfl hfor
  have hcard : cardCount "jobs" payload = some (overdueReady + error) := rfl
  have hholds : SeamHolds .jobs payload ↔ overdueReady + error < 2 ^ 64 := Iff.rfl
  refine (agrees_iff_of_count rfl (not_unreachable rfl) hparse).trans ?_
  constructor
  · intro h
    rw [hholds, Option.some.inj (hcard.symm.trans h)]
    exact Nat.mod_lt _ (Nat.two_pow_pos 64)
  · intro h
    rw [← Nat.mod_eq_of_lt (hholds.mp h)] at hcard
    exact hcard

private theorem cardCount_upgrade {payload : Value} (h : countOf payload "failed_7d" = n) :
    cardCount "upgrade" payload = some n ↔ SeamHolds .upgrade payload := by
  rw [cardCount, SeamHolds, h]
  by_cases hfailed : 0 < n
  · rw [if_pos hfailed]
    exact iff_of_true rfl (Or.inl hfailed)
  · rw [if_neg hfailed]
    cases hlast : textOf payload "last_to" with
    | none => exact iff_of_true (congrArg some (Nat.eq_zero_of_not_pos hfailed).symm) (Or.inr rfl)
    | some last =>
      refine iff_of_false (fun h ↦ Option.some_ne_none n h.symm) ?_
      exact not_or.mpr ⟨hfailed, Option.some_ne_none last⟩

private theorem cardCount_scan {payload : Value} (h : countOf payload "p1_open" = n) :
    cardCount "scan" payload = some n ↔ SeamHolds .scan payload := by
  rw [cardCount, SeamHolds, h]
  by_cases hp1 : 0 < n
  · rw [if_pos hp1]
    exact iff_of_true rfl (Or.inl hp1)
  · rw [if_neg hp1, Option.some.injEq]
    omega

/-- A probe agrees with its card exactly where the keys do. -/
theorem agrees_probe_iff {x : ProbeInput} {sig : VotingSignal} {s : Session} {o : Observation}
    (hsig : sig ≠ .httpProbe) (h : outcome (sig.probe x) s = .ok o) :
    AgreesWithCard sig.id o.payload ↔ SeamHolds sig o.payload := by
  have hreads : ∀ {id : String} {fields : List (String × Value)} {n : ℕ},
      (Value.object fields).get "skipped" = none →
      (Value.object fields).get "reachability" = none →
      parsePayload id (.object fields) = .count n → cardCount id (.object fields) = some n →
      AgreesWithCard id (.object fields) :=
    fun hskipped hreach hparse hcard ↦
      (agrees_iff_of_count hskipped (not_unreachable hreach) hparse).mpr hcard
  cases sig with
  | httpProbe => exact absurd rfl hsig
  | jobs =>
    obtain ⟨_, _, _, _, _, _, _, -, hpayload, -⟩ := jobsProbe_written h
    rw [hpayload]
    exact agrees_jobs _ _ _ _ _ _ _
  | syslog =>
    rw [VotingSignal.probe, syslogProbe] at h
    obtain ⟨_, _, _, _, hpayload⟩ := countedProbe_written h
    rw [hpayload]
    exact iff_of_true (hreads rfl rfl rfl rfl) trivial
  | outbound =>
    rw [VotingSignal.probe, outboundProbe] at h
    obtain ⟨_, _, _, _, hpayload⟩ := countedProbe_written h
    rw [hpayload]
    exact iff_of_true (hreads rfl rfl rfl rfl) trivial
  | flow =>
    rw [VotingSignal.probe, flowProbe] at h
    obtain ⟨_, _, _, _, hpayload⟩ := countedProbe_written h
    rw [hpayload]
    exact iff_of_true (hreads rfl rfl rfl rfl) trivial
  | email =>
    rw [VotingSignal.probe, emailProbe] at h
    obtain ⟨_, _, _, _, hpayload⟩ := countedProbe_written h
    rw [hpayload]
    exact iff_of_true (hreads rfl rfl rfl rfl) trivial
  | midEcc =>
    obtain ⟨total, _, _, unhealthyList, hpayload⟩ := midEccProbe_written h
    rw [hpayload]
    refine (agrees_iff_of_count rfl (not_unreachable rfl) rfl).trans ?_
    show some (total - unhealthyList.length) = some unhealthyList.length ↔
      total = 2 * unhealthyList.length
    rw [Option.some.injEq]
    omega
  | upgrade =>
    obtain ⟨upgrades, hpayload⟩ := upgradeProbe_written h
    rw [hpayload]
    exact (agrees_iff_of_count rfl (not_unreachable rfl) rfl).trans (cardCount_upgrade rfl)
  | slowTxn =>
    obtain ⟨_, _, _, hpayload⟩ := transactionProbe_written h
    rw [hpayload]
    exact iff_of_false (not_agrees_of_unknown rfl rfl) id
  | updateSets =>
    obtain ⟨_, _, hpayload⟩ := updateSetsProbe_written h
    rw [hpayload]
    exact iff_of_true (hreads rfl rfl rfl rfl) trivial
  | scan =>
    obtain ⟨findings, rfl⟩ := scanProbe_written h
    cases findings with
    | none => exact iff_of_true ⟨_, rfl⟩ (Or.inr rfl)
    | some findings =>
      exact (agrees_iff_of_count rfl (not_unreachable rfl) rfl).trans (cardCount_scan rfl)
  | actions =>
    obtain ⟨runs, hpayload⟩ := actionsProbe_written h
    rw [hpayload]
    refine iff_of_true ((agrees_iff_of_count rfl ?_ rfl).mpr rfl) trivial
    show some "reachable" ≠ some "unreachable"
    simp

end Agrees

/-- The typed drift payload has the two numbers of the card. -/
def DriftAgrees (payload : Value) : Prop :=
  ∃ role builds mismatched expected,
    parsePayload "drift" payload = .drift role builds mismatched expected ∧
      countOf payload "mismatches" = mismatched ∧
      countOf payload "expected_mismatches" = expected ∧
      summarizeValue "drift" payload =
        if 0 < expected then s!"{mismatched} differ · {expected} expected"
        else s!"{mismatched} plugins differ"

/-- A comparison agrees with its card exactly if it has no expected differences: they are read
under another key. -/
theorem driftAgrees_iff (walks : Walks) (environment : EnvironmentConfig)
    (source other : EnvInventory) :
    let payload := (driftCompare walks environment source other).2
    DriftAgrees payload ↔ countOf payload "expected_mismatches" = 0 := by
  intro payload
  have hparse : parsePayload "drift" payload = .drift none
      ((payload.get "build_matches").bind Value.asBool) (countOf payload "mismatches") 0 := rfl
  have hcard : summarizeValue "drift" payload =
      let expected := countOf payload "expected_mismatches"
      let count := countOf payload "mismatches"
      if 0 < expected then s!"{count} differ · {expected} expected"
      else s!"{count} plugins differ" :=
    summarizeValue_object rfl (not_unreachable rfl)
  constructor
  · rintro ⟨role, builds, mismatched, expected, htyped, -, hexpected, -⟩
    rw [hparse] at htyped
    rw [hexpected, (TypedPayload.drift.inj htyped).2.2.2]
  · intro hzero
    refine ⟨_, _, _, 0, hparse, rfl, hzero, ?_⟩
    rw [hcard, hzero]

/-- A reason is read as that of a skipped probe, unless it is empty. -/
theorem parsePayload_skipped (signalId reason : String) :
    parsePayload signalId (.object [("skipped", .string reason)]) = .skipped reason ↔
      reason ≠ "" := by
  have htext : text (.object [("skipped", .string reason)]) "skipped" =
      (some reason).filter (· ≠ "") := rfl
  rw [parsePayload_eq_skipped, htext, Option.filter_eq_some_iff]
  simp

/-- The payload of a failed probe is read as that, for every Signal but availability. -/
theorem parsePayload_down (signalId message : String) :
    (∃ detail, parsePayload signalId (.object [("reachability", .string "unreachable"),
      ("detail", .string message)]) = .down "unreachable" detail) ↔ signalId ≠ "availability" := by
  constructor
  · rintro ⟨detail, h⟩ rfl
    cases h
  · intro h
    have hcount : countFor signalId (.object [("reachability", .string "unreachable"),
        ("detail", .string message)]) = none := by
      unfold countFor countForIn
      split <;> rfl
    have hdown : isDown signalId (.object [("reachability", .string "unreachable"),
        ("detail", .string message)]) = true := by
      rw [isDown, hcount]
      simp only [Option.isNone_none, Bool.and_true, Bool.and_eq_true, bne_iff_ne]
      exact ⟨⟨⟨⟨rfl, rfl⟩, h⟩, rfl⟩, rfl⟩
    have hskipped : text (.object [("reachability", .string "unreachable"),
        ("detail", .string message)]) "skipped" = none := rfl
    refine ⟨text (.object [("reachability", .string "unreachable"), ("detail", .string message)])
      "detail" <|> text (.object [("reachability", .string "unreachable"),
        ("detail", .string message)]) "error", ?_⟩
    unfold parsePayload
    rw [hskipped]
    exact if_pos hdown

/-- The typed payload agrees with the card for every observation of a probe exactly where the keys
agree, for sessions never, and for a comparison exactly without expected differences. What says
that a probe was skipped or failed is always read as that. -/
theorem seam_agrees_iff (x : ProbeInput) (s : Session) (o : Observation) :
    (∀ sig : VotingSignal, sig ≠ .httpProbe → outcome (sig.probe x) s = .ok o →
      (AgreesWithCard sig.id o.payload ↔ SeamHolds sig o.payload)) ∧
    (outcome (sessionsProbe x.codec x.environment x.credentials) s = .ok o →
      parsePayload "sessions" o.payload = .unknown ∧ ¬ AgreesWithCard "sessions" o.payload) ∧
    (∀ (walks : Walks) (environment : EnvironmentConfig) (source other : EnvInventory),
      let payload := (driftCompare walks environment source other).2
      DriftAgrees payload ↔ countOf payload "expected_mismatches" = 0) ∧
    (∀ (toText : ToText) (environmentId signalId : String) (observedAt : Int) (reason : String),
      ∃ payload, persistSignalSkipped toText environmentId signalId observedAt reason =
        persistSignalSnapshot toText environmentId signalId observedAt .skipped payload ∧
          (parsePayload signalId payload = .skipped reason ↔ reason ≠ "")) ∧
    ∀ (toText : ToText) (environmentId signalId : String) (observedAt : Int) (message : String),
      ∃ payload, persistSignalDown toText environmentId signalId observedAt message =
        persistSignalSnapshot toText environmentId signalId observedAt .down payload ∧
          ((∃ detail, parsePayload signalId payload = .down "unreachable" detail) ↔
            signalId ≠ "availability") := by
  refine ⟨fun _ hsig h ↦ agrees_probe_iff hsig h, fun h ↦ ?_, driftAgrees_iff,
    fun _ _ signalId _ reason ↦ ⟨_, rfl, parsePayload_skipped signalId reason⟩,
    fun _ _ signalId _ message ↦ ⟨_, rfl, parsePayload_down signalId message⟩⟩
  obtain ⟨_, _, _, _, hpayload⟩ := sessionsProbe_written h
  rw [hpayload]
  exact ⟨rfl, not_agrees_of_unknown rfl rfl⟩

theorem seam_agrees_counted : ∃ o : Observation,
    outcome (VotingSignal.syslog.probe { sampleInput with codec := countCodec })
      (answered "12") = .ok o ∧
    countOf o.payload "error_count_1h" = 12 ∧
    (AgreesWithCard "syslog" o.payload ↔ SeamHolds .syslog o.payload) := by
  have hprobe : (outcome (VotingSignal.syslog.probe { sampleInput with codec := countCodec })
      (answered "12")).isOk := by decide +kernel
  obtain ⟨o, houtcome⟩ := exists_of_isOk hprobe
  have hcount : (outcome (VotingSignal.syslog.probe { sampleInput with codec := countCodec })
      (answered "12")).map (fun o ↦ countOf o.payload "error_count_1h") = .ok 12 := by
    decide +kernel
  rw [houtcome] at hcount
  have hagrees := (seam_agrees_iff { sampleInput with codec := countCodec } (answered "12") o).1
    .syslog (by decide) houtcome
  exact ⟨o, houtcome, Except.ok.inj hcount, hagrees⟩

/-- One active session and an average have no typed count, and expected differences are none. -/
theorem seam_misses_keys :
    (outcome (sessionsProbe sampleCodec sampleInput.environment sampleInput.credentials)
      (answered pageText)).map (fun o ↦ (parsePayload "sessions" o.payload,
        summarizeValue "sessions" o.payload)) = .ok (.unknown, "1 active session") ∧
    (outcome (VotingSignal.slowTxn.probe sampleInput) (answered "NaN")).map (fun o ↦
      (parsePayload "slow_txn" o.payload, summarizeValue "slow_txn" o.payload)) =
        .ok (.unknown, "0 ms avg transaction · last hour") ∧
    (let payload := .object [("build_matches", .null), ("expected_mismatches", countValue 3),
      ("mismatch_list", .array []), ("mismatch_list_truncated", .bool false),
      ("mismatches", countValue 2), ("truncated", .bool false)]
    parsePayload "drift" payload = .drift none none 2 0 ∧
      summarizeValue "drift" payload = "2 differ · 3 expected") := by
  decide +kernel

end Daku.Desktop
