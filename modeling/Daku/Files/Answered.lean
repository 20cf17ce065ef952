import Daku.Files.Linearized
import Daku.Files.PrettyJson

/-!
# Each call of the Credential store once

What the answers of the store stand for: a call that is answered without an error took effect
exactly once, and one that is answered with an error at most once.
-/

namespace Daku.Files

open Daku.Base FileCredentialStore

variable {umask : Mode} {store : FileCredentialStore} {s t : CredentialState}
  {op : CredentialOp} {stage : Stage} {i j k process : ℕ} {m : Secrets}
  {events : List CredentialEvent}

/-- The event is one of a call. -/
def CredentialEvent.isOf (caller : ℕ) : CredentialEvent → Bool
  | .committed i _ | .found i _ _ => i = caller
  | _ => false

/-- The events of a call that has got an answer. -/
def AnsweredBy (caller : ℕ) (op : CredentialOp) (events : List CredentialEvent) :
    Except String (Option String) → Prop
  | .ok secret =>
    match op with
    | .get id => events = [.found caller id secret]
    | .set _ _ => events = [.committed caller op]
    | .delete id => events = [.committed caller op] ∨ events = [.found caller id none]
  | .error _ => events = [] ∨ events = [.committed caller op]

/-- The events of a call that is writing. -/
def WritingBy (caller : ℕ) (op : CredentialOp) (events : List CredentialEvent) (phase : Phase) :
    Prop :=
  (∀ id, op ≠ .get id) ∧ (phase.Pending → events = []) ∧
    (phase.Landed → events = [.committed caller op]) ∧
    (events = [] ∨ events = [.committed caller op])

/-- The events of a call, wherever it stands. -/
def Stage.Accounts (writes : WriteState) (caller : ℕ) (op : CredentialOp)
    (events : List CredentialEvent) : Stage → Prop
  | .waiting | .reading => events = []
  | .writing write _ => ∃ c ph, writes.calls[write]? = some (c, ph) ∧
      WritingBy caller op events ph
  | .answered result => AnsweredBy caller op events result

/-- The events of every call so far. -/
structure Accounted (s : CredentialState) (events : List CredentialEvent) : Prop where
  calls : ∀ (i : ℕ) (op : CredentialOp) (stage : Stage), s.callers[i]? = some (op, stage) →
    stage.Accounts s.writes i op (events.filter (CredentialEvent.isOf i))
  others : ∀ i, s.callers.length ≤ i → events.filter (CredentialEvent.isOf i) = []

/-- Nothing happens to the other calls. -/
private theorem filter_other {more : List CredentialEvent}
    (h : ∀ e ∈ more, e.isOf j = false) :
    (events ++ more).filter (CredentialEvent.isOf j) = events.filter (CredentialEvent.isOf j) := by
  have hnone : more.filter (CredentialEvent.isOf j) = [] :=
    List.filter_eq_nil_iff.mpr fun e he ↦ by simp [h e he]
  rw [List.filter_append, hnone, List.append_nil]

/-- A call accounts for the same events as long as its write stands where it stood. -/
theorem Stage.Accounts.mono {writes after : WriteState} (h : stage.Accounts writes i op events)
    (hwrites : ∀ k m c, stage = .writing k m → writes.calls[k]? = some c →
      after.calls[k]? = some c) : stage.Accounts after i op events := by
  cases stage with
  | writing k m =>
    obtain ⟨c, ph, hk, hwriting⟩ := h
    exact ⟨c, ph, hwrites k m _ rfl hk, hwriting⟩
  | waiting => exact h
  | reading => exact h
  | answered result => exact h

/-- Events of no call change no account. -/
theorem Accounted.append {more : List CredentialEvent} (h : Accounted s events)
    (hmore : ∀ e ∈ more, ∀ j, e.isOf j = false) : Accounted s (events ++ more) where
  calls i op stage hi := by
    rw [filter_other fun e he ↦ hmore e he i]
    exact h.calls i op stage hi
  others i hi := by
    rw [filter_other fun e he ↦ hmore e he i]
    exact h.others i hi

/-- A call moves on, and the only events are its own. -/
theorem accounted_set {next : Stage} {more : List CredentialEvent} (h : Accounted s events)
    (hi : s.callers[i]? = some (op, stage)) (hmore : ∀ e ∈ more, ∀ j, j ≠ i → e.isOf j = false)
    {writes : WriteState}
    (hwrites : ∀ (k : ℕ) (c : WriteCall × Phase), s.writes.calls[k]? = some c →
      writes.calls[k]? = some c)
    (hnext : next.Accounts writes i op
      (events.filter (CredentialEvent.isOf i) ++ more.filter (CredentialEvent.isOf i))) :
    Accounted { s with writes, callers := s.callers.set i (op, next) } (events ++ more) where
  calls j op' stage' hj := by
    rcases getElem?_set_cases hj with ⟨rfl, heq⟩ | ⟨hij, hj⟩
    · obtain ⟨rfl, rfl⟩ := Prod.mk.inj heq
      rw [List.filter_append]
      exact hnext
    · rw [filter_other fun e he ↦ hmore e he j (Ne.symm hij)]
      exact (h.calls j op' stage' hj).mono fun k _ c _ ↦ hwrites k c
  others j hj := by
    have hlength : s.callers.length ≤ j := by
      simpa [List.length_set] using hj
    have hne : j ≠ i := fun hji ↦ by
      have := (List.getElem?_eq_some_iff.mp hi).1
      omega
    rw [filter_other fun e he ↦ hmore e he j hne]
    exact h.others j hlength

theorem accounted_call {processes : List ℕ} (h : Accounted s events) (op : CredentialOp) :
    Accounted { s with callers := s.callers ++ [(op, .waiting)], processes } events where
  calls i op' stage hi := by
    rcases getElem?_concat_cases hi with hi | ⟨rfl, heq⟩
    · exact h.calls i op' stage hi
    · obtain ⟨rfl, rfl⟩ := Prod.mk.inj heq
      exact h.others _ le_rfl
  others i hi := by
    apply h.others i
    have hlength : (s.callers ++ [(op, Stage.waiting)]).length ≤ i := hi
    rw [List.length_append] at hlength
    omega

/-- A call of the store reads, and may be answered or start to write. -/
theorem accounted_read {uuid : String} {error : Option String} (h : Accounted s events)
    (hstep : (store.machine umask).step s (.read i error uuid) = some t) :
    Accounted t (events ++ credentialEvents store s (.read i error uuid)) := by
  obtain ⟨op, stage, hi, hreads, hcases⟩ := read_cases hstep
  have hnone : events.filter (CredentialEvent.isOf i) = [] := by
    have haccounts := h.calls i op stage hi
    cases stage with
    | waiting => exact haccounts
    | reading => exact haccounts
    | _ => cases op <;> cases hreads
  obtain ⟨message, rfl, hevents⟩ | ⟨secrets, -, hop, rfl, hevents⟩ |
    ⟨m, -, hop, -, rfl, hevents⟩ := hcases
  · rw [hevents]
    refine accounted_set h hi (fun _ he ↦ by cases he) (fun _ _ ↦ id) ?_
    rw [hnone]
    exact Or.inl rfl
  · rw [hevents]
    refine accounted_set h hi (fun e he j hj ↦ ?_) (fun _ _ ↦ id) ?_
    · rw [List.mem_singleton.mp he]
      simpa [CredentialEvent.isOf] using Ne.symm hj
    · have hone : ([CredentialEvent.found i op.id (secrets op.id)]).filter
          (CredentialEvent.isOf i) = [.found i op.id (secrets op.id)] := by
        simp [CredentialEvent.isOf]
      rw [hnone, hone, List.nil_append]
      rcases hop with hop | ⟨hop, hsecret⟩
      · rw [hop]
        rfl
      · rw [hsecret, hop]
        exact Or.inr rfl
  · rw [hevents]
    refine accounted_set h hi (fun _ he ↦ by cases he) (fun _ _ ↦ getElem?_concat_of) ?_
    rw [hnone]
    exact ⟨_, .preparing, List.getElem?_concat_length, hop, fun _ ↦ rfl,
      fun h ↦ (by cases h), Or.inl rfl⟩

/-- The answer of a call that has written. -/
theorem accounted_finish (h : Accounted s events)
    (hstep : (store.machine umask).step s (.finish i) = some t) : Accounted t events := by
  obtain ⟨op, k, m, call, phase, result, hi, hk, hanswer, rfl⟩ := finish_cases hstep
  obtain ⟨c, ph, hk', hget, -, hlanded, hboth⟩ := h.calls i op _ hi
  obtain ⟨rfl, rfl⟩ := Prod.mk.inj (Option.some.inj (hk.symm.trans hk'))
  suffices haccounts : AnsweredBy i op (events.filter (CredentialEvent.isOf i)) result by
    have hset : Accounted { s with callers := s.callers.set i (op, .answered result) }
        (events ++ []) :=
      accounted_set h hi (fun _ he ↦ by cases he) (fun _ _ ↦ id)
        ((List.append_nil _).symm ▸ haccounts)
    rwa [List.append_nil] at hset
  cases phase with
  | done =>
    obtain rfl := Option.some.inj hanswer
    cases op with
    | get id => exact absurd rfl (hget id)
    | set id secret => exact hlanded trivial
    | delete id => exact Or.inl (hlanded trivial)
  | failed error =>
    obtain rfl := Option.some.inj hanswer
    exact hboth
  | _ => cases hanswer

/-- The rename is the one event of the call that the write belongs to. -/
theorem accounted_replace {call : WriteCall} {phase next : Phase} {outcome : Outcome}
    {after : FileSystem} {w : Option (List UInt8)} (hstoring : Storing store s)
    (h : Accounted s events) (hk : s.writes.calls[k]? = some (call, phase))
    (hadvance : call.advance umask outcome s.writes.files phase = some (next, after))
    (hw : .replace w ∈ phase.operation store.path call outcome s.writes.files) :
    ∃ i op, ownerOf s.callers k = some (i, op) ∧
      Accounted { s with writes := ⟨after, s.writes.calls.set k (call, next)⟩ }
        (events ++ [.committed i op]) := by
  have hheld := hstoring.writing.held _ (List.mem_of_getElem? hk)
  obtain ⟨i, op, m, hi, -⟩ := owner_of_replace hstoring hk hadvance hw
  obtain ⟨hpending, hlanded, -⟩ := of_replace_mem hadvance hheld hw
  have hother : ∀ j, i ≠ j → ∀ e ∈ [CredentialEvent.committed i op], e.isOf j = false := by
    intro j hij e he
    rw [List.mem_singleton.mp he]
    simpa [CredentialEvent.isOf] using hij
  refine ⟨i, op, ownerOf_eq hstoring hi, fun j op' stage' hj ↦ ?_, fun j hj ↦ ?_⟩
  · by_cases hij : i = j
    · subst hij
      obtain ⟨rfl, rfl⟩ := Prod.mk.inj (Option.some.inj (hi.symm.trans hj))
      obtain ⟨c, ph, hk', hop, hnone, -⟩ := h.calls i op _ hi
      obtain ⟨rfl, rfl⟩ := Prod.mk.inj (Option.some.inj (hk.symm.trans hk'))
      have hone : (events ++ [CredentialEvent.committed i op]).filter
          (CredentialEvent.isOf i) = [.committed i op] := by
        rw [List.filter_append, hnone hpending]
        simp [CredentialEvent.isOf]
      rw [hone]
      exact ⟨call, next, getElem?_set_self_of hk, hop,
        fun h ↦ absurd h (not_pending_of_landed hlanded), fun _ ↦ rfl, Or.inr rfl⟩
    · rw [filter_other (hother j hij)]
      refine (h.calls j op' stage' hj).mono fun l m' c hwriting hl ↦ ?_
      have hkl : k ≠ l := by
        rintro rfl
        exact hij (hstoring.alone i j _ _ hi hj trivial (hwriting ▸ trivial))
      exact (List.getElem?_set_ne hkl).trans hl
  · have hne : i ≠ j := fun hij ↦ by
      have := (List.getElem?_eq_some_iff.mp hi).1
      have hj' : s.callers.length ≤ j := hj
      omega
    rw [filter_other (hother j hne)]
    exact h.others j hj

/-- Any other step of a write: phases move, but neither away from pending nor to landed. -/
theorem accounted_quiet {call : WriteCall} {phase next : Phase} {outcome : Outcome}
    {after : FileSystem} (hstoring : Storing store s) (h : Accounted s events)
    (hk : s.writes.calls[k]? = some (call, phase))
    (hadvance : call.advance umask outcome s.writes.files phase = some (next, after))
    (hquiet : ∀ w, .replace w ∉ phase.operation store.path call outcome s.writes.files) :
    Accounted { s with writes := ⟨after, s.writes.calls.set k (call, next)⟩ } events where
  calls j op stage hj := by
    have haccounts := h.calls j op stage hj
    by_cases hwriting : ∃ m, stage = .writing k m
    · obtain ⟨m, rfl⟩ := hwriting
      obtain ⟨c, ph, hk', hget, hnone, hone, hboth⟩ := haccounts
      obtain ⟨rfl, rfl⟩ := Prod.mk.inj (Option.some.inj (hk.symm.trans hk'))
      obtain ⟨c', ph', hk', hpath, -⟩ := hstoring.current j op k m hj
      obtain ⟨rfl, rfl⟩ := Prod.mk.inj (Option.some.inj (hk.symm.trans hk'))
      refine ⟨call, next, getElem?_set_self_of hk, hget,
        fun hnext ↦ hnone (pending_of_advance hadvance hnext), fun hnext ↦ ?_, hboth⟩
      rcases landed_of_advance hadvance hnext with hlanded | hmem
      · exact hone hlanded
      · exact absurd (hpath ▸ hmem) (hquiet _)
    · refine haccounts.mono fun l m c hl hc ↦ ?_
      have hkl : k ≠ l := by
        rintro rfl
        exact hwriting ⟨m, hl⟩
      exact (List.getElem?_set_ne hkl).trans hc
  others := h.others

/-- A step of a write. -/
theorem accounted_advance {outcome : Outcome} {v : WriteState}
    (hstoring : Storing store s) (h : Accounted s events)
    (hstep : (writes umask).step s.writes (.advance k outcome) = some v) :
    Accounted { s with writes := v }
      (events ++ credentialEvents store s (.write (.advance k outcome))) := by
  obtain ⟨⟨call, phase⟩, hk, hstep⟩ := Option.bind_eq_some_iff.mp hstep
  obtain ⟨⟨next, after⟩, hadvance, hstep⟩ := Option.bind_eq_some_iff.mp hstep
  obtain rfl := Option.some.inj hstep
  have hoperation : operation store.path s.writes (.advance k outcome) =
      phase.operation store.path call outcome s.writes.files := by rw [operation, hk]
  rw [credentialEvents, hoperation]
  have hquiet := accounted_quiet hstoring h hk hadvance
  obtain hop | hop | hop | ⟨-, -, -, hop⟩ :=
    operation_cases store.path call outcome s.writes.files phase
  · rw [hop] at hquiet ⊢
    exact (hquiet (by simp)).append fun e he ↦ by cases he
  · rw [hop] at hquiet ⊢
    refine (hquiet (by simp)).append fun e he j ↦ ?_
    rw [List.mem_singleton.mp he]
    rfl
  · rw [hop] at hquiet ⊢
    refine (hquiet (by simp)).append fun e he j ↦ ?_
    rw [List.mem_singleton.mp he]
    rfl
  · obtain ⟨i, op, howner, haccounted⟩ := accounted_replace hstoring h hk hadvance
      (hop ▸ List.mem_singleton.mpr rfl)
    rw [hop, howner]
    exact haccounted

/-- One action other than a crash. -/
theorem accounted_step {action : CredentialAction} (hstoring : Storing store s)
    (h : Accounted s events) (hcrash : ∀ crash, action ≠ .write (.crash crash))
    (hstep : (store.machine umask).step s action = some t) :
    Accounted t (events ++ credentialEvents store s action) := by
  cases action with
  | call caller op =>
    obtain rfl := Option.some.inj hstep
    exact (accounted_call h op).append fun e he ↦ by cases he
  | lock caller =>
    obtain ⟨op, process, hi, -, -, -, rfl⟩ := lock_cases hstep
    refine accounted_set h hi (fun _ he ↦ by cases he) (fun _ _ ↦ id) ?_
    exact (List.append_nil _).trans (h.calls caller op _ hi)
  | read caller error uuid => exact accounted_read h hstep
  | finish caller => exact (accounted_finish h hstep).append fun e he ↦ by cases he
  | write action =>
    obtain ⟨after, hafter, hstep⟩ := Option.bind_eq_some_iff.mp hstep
    cases action with
    | start call =>
      simp only at hstep
      split at hstep
      · cases hstep
      · obtain rfl := Option.some.inj hstep
        obtain rfl := Option.some.inj hafter
        refine Accounted.append ⟨fun i op stage hi ↦ ?_, h.others⟩ fun e he ↦ by cases he
        exact (h.calls i op stage hi).mono fun _ _ _ _ ↦ getElem?_concat_of
    | advance k outcome =>
      obtain rfl := Option.some.inj hstep
      exact accounted_advance hstoring h hafter
    | crash crash => exact absurd rfl (hcrash crash)

/-- A run without a crash. -/
theorem accounted_run {actions : List CredentialAction} (hstoring : Storing store s)
    (hwriter : OneWriter process s)
    (hone : ∀ caller op, .call caller op ∈ actions → op.Changes → caller = process)
    (h : Accounted s events) (hcrash : ∀ crash, .write (.crash crash) ∉ actions)
    (hrun : (store.machine umask).run s actions = some t) :
    Accounted t (events ++ credentialHistory umask store s actions) := by
  induction actions generalizing s events with
  | nil =>
    obtain rfl := Option.some.inj hrun
    rw [credentialHistory, List.append_nil]
    exact h
  | cons action actions ih =>
    obtain ⟨u, hu, hrest⟩ := Machine.run_cons.mp hrun
    have hnext := accounted_step hstoring h
      (fun crash heq ↦ hcrash crash (heq ▸ List.mem_cons_self)) hu
    rw [credentialHistory, hu, ← List.append_assoc]
    have hwriter' := hwriter.step
      (fun caller op heq ↦ hone caller op (heq ▸ List.mem_cons_self)) hu
    exact ih (storing_step hstoring hwriter hu).1 hwriter'
      (fun caller op hmem ↦ hone caller op (List.mem_cons_of_mem _ hmem)) hnext
      (fun crash hmem ↦ hcrash crash (List.mem_cons_of_mem _ hmem)) hrest

/-- **One call at a time.** If the calls that change the map are all of one process, calls of the
store interleave with each other, with calls of other processes that read, and with all writers of
other files as if each read or changed the current map at one moment, and a crash goes back to a
map that was there since the last sync. Without a crash, a call that is answered has done so exactly
once, or at most once if it is answered with an error. -/
theorem credentials_linearizable (umask : Mode) (store : FileCredentialStore)
    (s t : CredentialState) (hcalls : s.writes.calls = []) (hcallers : s.callers = [])
    (hprocesses : s.processes = []) (hsound : s.writes.files.Sound store.path)
    (actions : List CredentialAction) (process : ℕ)
    (hone : ∀ caller op, .call caller op ∈ actions → op.Changes → caller = process)
    (hrun : (store.machine umask).run s actions = some t) :
    SecretsSteps (secretsRegister store s) (credentialHistory umask store s actions)
        (secretsRegister store t) ∧
      secretsOf store (t.writes.files.contents store.path) = (secretsRegister store t).current ∧
      ((∀ crash, .write (.crash crash) ∉ actions) →
        ∀ caller op result, t.callers[caller]? = some (op, .answered result) →
          AnsweredBy caller op
            ((credentialHistory umask store s actions).filter (CredentialEvent.isOf caller))
            result) := by
  have hstoring := storing_of_idle hcalls hcallers hsound
  have hwriter := oneWriter_of_idle process hcallers hprocesses
  obtain ⟨hfinal, hsteps⟩ := storing_run hstoring hwriter hone hrun
  refine ⟨hsteps, ?_, fun hcrash caller op result hcaller ↦ ?_⟩
  · rw [secretsRegister, Register.current_map, ← hfinal.writing.sound.contents_eq]
  · have hstart : Accounted s [] := by
      refine ⟨fun i op stage hi ↦ ?_, fun i hi ↦ rfl⟩
      rw [hcallers] at hi
      cases hi
    exact (accounted_run hstoring hwriter hone hstart hcrash hrun).calls caller op _ hcaller

/-- The Credentials of a daemon. -/
def credentialsStore : FileCredentialStore :=
  ⟨⟨settingsPath.dir, ⟨"credentials", some "json"⟩⟩, by decide, PrettyJson.codec⟩

/-- No Credentials, and nobody at them. -/
def noCredentials : CredentialState := ⟨⟨noFiles, []⟩, [], []⟩

/-- A `set` and a `delete` of an id that is not there in one process, and a `get` in another one
while the `set` writes. -/
def credentialCalls : List CredentialAction :=
  [.call 0 (.delete "dev"), .call 0 (.set "prod" "s"), .call 1 (.get "prod"), .lock 0,
    .read 0 none "a", .lock 1, .read 1 none "b"] ++
    (advances 0 4).map .write ++ [.read 2 none "c"] ++
    List.replicate 9 (.write (.advance 0 ⟨true, 4⟩)) ++ [.finish 1]

/-- The three calls are answered, and the `get` came before the `set`. -/
theorem credentials_linearizable_calls :
    ∃ t, (credentialsStore.machine 0o022).run noCredentials credentialCalls = some t ∧
      AnsweredBy 2 (.get "prod")
        ((credentialHistory 0o022 credentialsStore noCredentials credentialCalls).filter
          (CredentialEvent.isOf 2)) (.ok none) := by
  refine ⟨_, rfl, ?_⟩
  refine (credentials_linearizable 0o022 credentialsStore noCredentials _ rfl rfl rfl
    (sound_noFiles _ _) credentialCalls 0 ?_ rfl).2.2 ?_ 2 _ _ rfl
  · intro caller op hmem hchanges
    simp [credentialCalls, advances] at hmem
    rcases hmem with ⟨rfl, rfl⟩ | ⟨rfl, rfl⟩ | ⟨rfl, rfl⟩
    · rfl
    · rfl
    · exact hchanges.elim
  · simp [credentialCalls, advances]

/-- Two processes that each change an id: both have a lock, and both read before either writes. -/
def twoProcesses : List CredentialAction :=
  [.call 0 (.set "prod" "s"), .call 1 (.set "dev" "t"), .lock 0, .lock 1, .read 0 none "a",
    .read 1 none "b"] ++
    List.replicate 8 (.write (.advance 0 ⟨true, 99⟩)) ++
    List.replicate 8 (.write (.advance 1 ⟨true, 99⟩)) ++ [.finish 0, .finish 1]

/-- The change of the first one is lost, although it was answered without an error. -/
theorem set_lost_between_processes :
    ∃ t, (credentialsStore.machine 0o022).run noCredentials twoProcesses = some t ∧
      t.callers[0]?.map Prod.snd = some (.answered (.ok none)) ∧
      (secretsOf credentialsStore (t.writes.files.contents credentialsStore.path)).map
        (fun secrets ↦ (secrets "prod", secrets "dev")) = some (none, some "t") :=
  ⟨_, rfl, rfl, by decide +kernel⟩

end Daku.Files
