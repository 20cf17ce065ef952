import Daku.Files.Credentials

/-!
# Credentials one call at a time

Calls of the Credential store that run at once, next to all other writers of the disk and with
crashes in between, change and read the map as if one after another: a change takes effect with
the rename of its write, on the map as it is then, so none is lost. Any process may read, but only
one may change the map: the lock does not keep two of them apart.
-/

namespace Daku.Files

open Daku.Base FileCredentialStore

variable {umask : Mode} {store : FileCredentialStore} {s t : CredentialState}
  {op : CredentialOp} {stage : Stage} {i j k process : ℕ} {m : Secrets}

/-- Only one process changes the map. -/
structure OneWriter (process : ℕ) (s : CredentialState) : Prop where
  length : s.callers.length = s.processes.length
  own : ∀ (i : ℕ) (op : CredentialOp) (stage : Stage), s.callers[i]? = some (op, stage) →
    op.Changes → s.processes[i]? = some process
  /-- A `get` takes no lock. -/
  holds : ∀ (i : ℕ) (op : CredentialOp) (stage : Stage), s.callers[i]? = some (op, stage) →
    stage.Holds → op.Changes

/-- What the lock keeps true. -/
structure Storing (store : FileCredentialStore) (s : CredentialState) : Prop where
  writing : Writing store.path s.writes
  /-- A write that is not over belongs to a call with the lock. -/
  owned : ∀ (k : ℕ) (c : WriteCall) (ph : Phase), s.writes.calls[k]? = some (c, ph) →
    c.path = store.path → ph.Pending →
      ∃ (i : ℕ) (op : CredentialOp) (m : Secrets), s.callers[i]? = some (op, .writing k m)
  /-- One call at most has the lock. -/
  alone : ∀ (i j : ℕ) (c d : CredentialOp × Stage), s.callers[i]? = some c →
    s.callers[j]? = some d → c.2.Holds → d.2.Holds → i = j
  /-- Until its write is over, the map that a call has read is the current one. -/
  current : ∀ (i : ℕ) (op : CredentialOp) (k : ℕ) (m : Secrets),
    s.callers[i]? = some (op, .writing k m) →
      ∃ (c : WriteCall) (ph : Phase), s.writes.calls[k]? = some (c, ph) ∧ c.path = store.path ∧
        c.data = store.codec.encode m ∧ (ph.Pending →
          ∃ before, secretsOf store (s.writes.files.contents store.path) = some before ∧
            (fun id ↦ m.lookup id) = op.apply before)

section Reading

variable {error : Option String} {contents : Option (List UInt8)}

/-- A map that is read is what the file means. -/
theorem readMap_ok (h : store.readMap error contents = .ok m) :
    secretsOf store contents = some fun id ↦ m.lookup id := by
  cases error with
  | some error => cases h
  | none =>
    cases contents with
    | none =>
      obtain rfl := Except.ok.inj h
      rfl
    | some bytes =>
      simp only [readMap] at h
      rw [secretsOf]
      cases hdecode : store.codec.decode bytes with
      | none =>
        rw [hdecode] at h
        cases h
      | some read =>
        rw [hdecode] at h
        obtain rfl := Except.ok.inj h
        rfl

/-- An answer after the read is the secret of the id in the map. -/
theorem afterRead_inl {secret : Option String}
    (h : store.afterRead error contents op = .ok (.inl secret)) :
    ∃ secrets, secretsOf store contents = some secrets ∧ secret = secrets op.id ∧
      (op = .get op.id ∨ op = .delete op.id ∧ secret = none) := by
  cases op with
  | get id =>
    cases hread : store.readMap error contents with
    | error error =>
      simp only [afterRead, hread] at h
      cases h
    | ok m =>
      simp only [afterRead, hread] at h
      have hsecret := Sum.inl.inj (Except.ok.inj h)
      exact ⟨_, readMap_ok hread, hsecret.symm, Or.inl rfl⟩
  | set id value =>
    cases hread : store.readMap error contents with
    | error error =>
      simp only [afterRead, hread] at h
      cases h
    | ok m =>
      simp only [afterRead, hread] at h
      cases Except.ok.inj h
  | delete id =>
    cases hread : store.readMap error contents with
    | error error =>
      simp only [afterRead, hread] at h
      cases h
    | ok m =>
      have h' : (if m.lookup id = none then Except.ok (.inl none) else .ok (.inr (m.erase id)) :
          Except String (Option String ⊕ Secrets)) = .ok (.inl secret) := by
        simp only [afterRead, hread] at h
        exact h
      split at h'
      · next hnone =>
        have hsecret := Sum.inl.inj (Except.ok.inj h')
        exact ⟨_, readMap_ok hread, hsecret ▸ hnone.symm, Or.inr ⟨rfl, hsecret.symm⟩⟩
      · cases Except.ok.inj h'

/-- A map to write is the map that was read, changed. -/
theorem afterRead_inr {secrets : Secrets}
    (h : store.afterRead error contents op = .ok (.inr secrets)) :
    (∃ before, secretsOf store contents = some before ∧
      (fun id ↦ secrets.lookup id) = op.apply before) ∧ ∀ id, op ≠ .get id := by
  cases op with
  | get id =>
    cases hread : store.readMap error contents with
    | error error =>
      simp only [afterRead, hread] at h
      cases h
    | ok m =>
      simp only [afterRead, hread] at h
      cases Except.ok.inj h
  | set id value =>
    cases hread : store.readMap error contents with
    | error error =>
      simp only [afterRead, hread] at h
      cases h
    | ok m =>
      simp only [afterRead, hread] at h
      obtain rfl := Sum.inr.inj (Except.ok.inj h)
      refine ⟨⟨_, readMap_ok hread, funext fun other ↦ ?_⟩, fun id h ↦ by cases h⟩
      by_cases hid : other = id
      · subst hid
        rw [AList.lookup_insert, CredentialOp.apply, Function.update_self]
      · rw [AList.lookup_insert_ne hid, CredentialOp.apply, Function.update_of_ne hid]
  | delete id =>
    cases hread : store.readMap error contents with
    | error error =>
      simp only [afterRead, hread] at h
      cases h
    | ok m =>
      have h' : (if m.lookup id = none then Except.ok (.inl none) else .ok (.inr (m.erase id)) :
          Except String (Option String ⊕ Secrets)) = .ok (.inr secrets) := by
        simp only [afterRead, hread] at h
        exact h
      split at h'
      · cases Except.ok.inj h'
      · obtain rfl := Sum.inr.inj (Except.ok.inj h')
        refine ⟨⟨_, readMap_ok hread, funext fun other ↦ ?_⟩, fun id h ↦ by cases h⟩
        by_cases hid : other = id
        · subst hid
          rw [AList.lookup_erase, CredentialOp.apply, Function.update_self]
        · rw [AList.lookup_erase_ne hid, CredentialOp.apply, Function.update_of_ne hid]

/-- What is written means the map that is written. -/
theorem secretsOf_encode (store : FileCredentialStore) (secrets : Secrets) :
    secretsOf store (some (store.codec.encode secrets)) = some fun id ↦ secrets.lookup id := by
  obtain ⟨read, hdecode, hread⟩ := store.codec.decode_encode secrets
  rw [secretsOf, hdecode, Option.map_some]
  exact congrArg some (funext hread)

end Reading

/-- The call with the lock owns its write. -/
theorem ownerOf_eq (h : Storing store s) (hi : s.callers[i]? = some (op, .writing k m)) :
    ownerOf s.callers k = some (i, op) := by
  rw [ownerOf]
  cases hfind : s.callers.findIdx? _ with
  | none =>
    have hnone := List.findIdx?_eq_none_iff.mp hfind _ (List.mem_of_getElem? hi)
    simp at hnone
  | some caller =>
    have hcaller := List.of_findIdx?_eq_some hfind
    cases hj : s.callers[caller]? with
    | none =>
      rw [hj] at hcaller
      cases hcaller
    | some c =>
      rw [hj] at hcaller
      have hholds : c.2.Holds := by
        obtain ⟨op', stage'⟩ := c
        cases stage' with
        | writing k' m' => trivial
        | _ => cases hcaller
      obtain rfl := h.alone caller i c _ hj hi hholds trivial
      obtain rfl := Option.some.inj (hj.symm.trans hi)
      show (s.callers[caller]?.bind fun c ↦ some (caller, c.1)) = _
      rw [hi]
      rfl

section Steps

theorem changes_of_waits (h : Waits op stage) : op.Changes := by
  cases op with
  | get id => cases h
  | _ => trivial

/-- What a read comes to: an error, an answer from the map, or a map to write. -/
theorem read_cases {error : Option String} {uuid : String}
    (hstep : (store.machine umask).step s (.read i error uuid) = some t) :
    ∃ op stage, s.callers[i]? = some (op, stage) ∧ ReadsIn op stage ∧
      ((∃ message, t = { s with callers := s.callers.set i (op, .answered (.error message)) } ∧
          credentialEvents store s (.read i error uuid) = []) ∨
        (∃ secrets, secretsOf store (s.writes.files.contents store.path) = some secrets ∧
          (op = .get op.id ∨ op = .delete op.id ∧ secrets op.id = none) ∧
          t = { s with callers := s.callers.set i (op, .answered (.ok (secrets op.id))) } ∧
          credentialEvents store s (.read i error uuid) = [.found i op.id (secrets op.id)]) ∨
        ∃ m, stage = .reading ∧ (∀ id, op ≠ .get id) ∧
          (∃ before, secretsOf store (s.writes.files.contents store.path) = some before ∧
            (fun id ↦ m.lookup id) = op.apply before) ∧
          t = { s with
            writes := { s.writes with
              calls := s.writes.calls ++ [(store.writeMap m uuid, .preparing)] }
            callers := s.callers.set i (op, .writing s.writes.calls.length m) } ∧
          credentialEvents store s (.read i error uuid) = []) := by
  obtain ⟨⟨op, stage⟩, hi, hstep⟩ := Option.bind_eq_some_iff.mp hstep
  obtain ⟨hreads, hstep⟩ := Option.ite_none_right_eq_some.mp hstep
  refine ⟨op, stage, hi, hreads, ?_⟩
  rw [credentialEvents, hi]
  dsimp only at hstep ⊢
  cases hafter : store.afterRead error (s.writes.files.contents store.path) op with
  | error message =>
    rw [hafter] at hstep
    exact Or.inl ⟨message, (Option.some.inj hstep).symm, rfl⟩
  | ok result =>
    cases result with
    | inl secret =>
      rw [hafter] at hstep
      obtain ⟨secrets, hsecrets, rfl, hop⟩ := afterRead_inl hafter
      exact Or.inr (Or.inl ⟨secrets, hsecrets, hop, (Option.some.inj hstep).symm, rfl⟩)
    | inr m =>
      rw [hafter] at hstep
      obtain ⟨hcurrent, hop⟩ := afterRead_inr hafter
      have hstage : stage = .reading := by
        cases op with
        | get id => exact absurd rfl (hop id)
        | set id secret => cases stage <;> first | rfl | cases hreads
        | delete id => cases stage <;> first | rfl | cases hreads
      exact Or.inr (Or.inr ⟨m, hstage, hop, hcurrent, (Option.some.inj hstep).symm, rfl⟩)

/-- A call is answered once its write has ended. -/
theorem finish_cases (hstep : (store.machine umask).step s (.finish i) = some t) :
    ∃ op k m call phase result, s.callers[i]? = some (op, .writing k m) ∧
      s.writes.calls[k]? = some (call, phase) ∧ answer op phase = some result ∧
      t = { s with callers := s.callers.set i (op, .answered result) } := by
  obtain ⟨⟨op, stage⟩, hi, hstep⟩ := Option.bind_eq_some_iff.mp hstep
  cases stage with
  | writing k m =>
    obtain ⟨⟨call, phase⟩, hk, hstep⟩ := Option.bind_eq_some_iff.mp hstep
    obtain ⟨result, hanswer, hstep⟩ := Option.bind_eq_some_iff.mp hstep
    exact ⟨op, k, m, call, phase, result, hi, hk, hanswer, (Option.some.inj hstep).symm⟩
  | waiting => cases hstep
  | reading => cases hstep
  | answered result => cases hstep

/-- A call gets the lock of its process, which is free. -/
theorem lock_cases (hstep : (store.machine umask).step s (.lock i) = some t) :
    ∃ op process, s.callers[i]? = some (op, .waiting) ∧ s.processes[i]? = some process ∧
      op.Changes ∧ Unlocked s process ∧
      t = { s with callers := s.callers.set i (op, .reading) } := by
  obtain ⟨⟨op, stage⟩, hi, hstep⟩ := Option.bind_eq_some_iff.mp hstep
  obtain ⟨process, hprocess, hstep⟩ := Option.bind_eq_some_iff.mp hstep
  obtain ⟨⟨hwaits, hfree⟩, hlocked⟩ := Option.ite_none_right_eq_some.mp hstep
  have hstage : stage = .waiting := by cases op <;> cases stage <;> first | rfl | cases hwaits
  exact ⟨op, process, hstage ▸ hi, hprocess, changes_of_waits hwaits, hfree,
    (Option.some.inj hlocked).symm⟩

end Steps

section OneWriter

/-- If the lock of the one process that takes it is free, nobody has a lock. -/
theorem OneWriter.not_holds (h : OneWriter process s) (hfree : Unlocked s process) :
    ∀ c ∈ s.callers, ¬ c.2.Holds := by
  rintro ⟨op, stage⟩ hc hholds
  obtain ⟨i, hi⟩ := List.mem_iff_getElem?.mp hc
  have hprocess := h.own i op stage hi (h.holds i op stage hi hholds)
  have hzip : (s.callers.zip s.processes)[i]? = some ((op, stage), process) :=
    List.getElem?_zip_eq_some.mpr ⟨hi, hprocess⟩
  exact hfree _ (List.mem_of_getElem? hzip) rfl hholds

theorem OneWriter.set {next : Stage} (h : OneWriter process s)
    (hi : s.callers[i]? = some (op, stage)) (hnext : next.Holds → op.Changes) :
    OneWriter process { s with callers := s.callers.set i (op, next) } where
  length := by rw [List.length_set, h.length]
  own j op' stage' hj hchanges := by
    rcases getElem?_set_cases hj with ⟨rfl, heq⟩ | ⟨-, hj⟩
    · obtain ⟨rfl, -⟩ := Prod.mk.inj heq
      exact h.own i op' stage hi hchanges
    · exact h.own j op' stage' hj hchanges
  holds j op' stage' hj hholds := by
    rcases getElem?_set_cases hj with ⟨-, heq⟩ | ⟨-, hj⟩
    · obtain ⟨rfl, rfl⟩ := Prod.mk.inj heq
      exact hnext hholds
    · exact h.holds j op' stage' hj hholds

/-- Another call, which changes nothing or is of the one process. -/
theorem OneWriter.call {caller : ℕ} (h : OneWriter process s)
    (hone : op.Changes → caller = process) :
    OneWriter process { s with
      callers := s.callers ++ [(op, .waiting)], processes := s.processes ++ [caller] } where
  length := by rw [List.length_append, List.length_append, h.length]; rfl
  own j op' stage' hj hchanges := by
    rcases getElem?_concat_cases hj with hj | ⟨rfl, heq⟩
    · exact getElem?_concat_of (h.own j op' stage' hj hchanges)
    · obtain ⟨rfl, -⟩ := Prod.mk.inj heq
      rw [h.length, ← hone hchanges]
      exact List.getElem?_concat_length
  holds j op' stage' hj hholds := by
    rcases getElem?_concat_cases hj with hj | ⟨-, heq⟩
    · exact h.holds j op' stage' hj hholds
    · obtain ⟨-, rfl⟩ := Prod.mk.inj heq
      cases hholds

theorem OneWriter.step {action : CredentialAction} (h : OneWriter process s)
    (hone : ∀ caller op, action = .call caller op → op.Changes → caller = process)
    (hstep : (store.machine umask).step s action = some t) : OneWriter process t := by
  cases action with
  | call caller op =>
    obtain rfl := Option.some.inj hstep
    exact h.call (hone caller op rfl)
  | lock caller =>
    obtain ⟨op, own, hi, -, hchanges, -, rfl⟩ := lock_cases hstep
    exact h.set hi fun _ ↦ hchanges
  | read caller error uuid =>
    obtain ⟨op, stage, hi, -, ⟨message, rfl, -⟩ | ⟨secrets, -, -, rfl, -⟩ |
      ⟨m, -, hop, -, rfl, -⟩⟩ := read_cases hstep
    · exact h.set hi fun h ↦ by cases h
    · exact h.set hi fun h ↦ by cases h
    · have hchanges : op.Changes := by
        cases op with
        | get id => exact absurd rfl (hop id)
        | set id secret => trivial
        | delete id => trivial
      have hnext : OneWriter process { s with
          callers := s.callers.set caller (op, .writing s.writes.calls.length m) } :=
        h.set hi fun _ ↦ hchanges
      exact ⟨hnext.length, hnext.own, hnext.holds⟩
  | finish caller =>
    obtain ⟨op, k, m, call, phase, result, hi, -, -, rfl⟩ := finish_cases hstep
    exact h.set hi fun h ↦ by cases h
  | write action =>
    obtain ⟨after, -, hstep⟩ := Option.bind_eq_some_iff.mp hstep
    cases action with
    | start call =>
      obtain ⟨-, hstep⟩ := Option.ite_none_left_eq_some.mp hstep
      obtain rfl := Option.some.inj hstep
      exact ⟨h.length, h.own, h.holds⟩
    | advance k outcome =>
      obtain rfl := Option.some.inj hstep
      exact ⟨h.length, h.own, h.holds⟩
    | crash crash =>
      obtain rfl := Option.some.inj hstep
      exact ⟨rfl, fun _ _ _ hi ↦ (by cases hi), fun _ _ _ hi ↦ by cases hi⟩

end OneWriter

section Storing

theorem storing_call {processes : List ℕ} (h : Storing store s) (op : CredentialOp) :
    Storing store { s with callers := s.callers ++ [(op, .waiting)], processes } where
  writing := h.writing
  owned k c ph hk hpath hpending := by
    obtain ⟨i, op', m, hi⟩ := h.owned k c ph hk hpath hpending
    exact ⟨i, op', m, getElem?_concat_of hi⟩
  alone i j c d hi hj hc hd := by
    rcases getElem?_concat_cases hi with hi | ⟨-, rfl⟩
    · rcases getElem?_concat_cases hj with hj | ⟨-, rfl⟩
      · exact h.alone i j c d hi hj hc hd
      · cases hd
    · cases hc
  current i op' k m hi := by
    rcases getElem?_concat_cases hi with hi | ⟨-, heq⟩
    · exact h.current i op' k m hi
    · cases heq

/-- A call moves to a stage without a write. -/
theorem storing_set {next : Stage} (h : Storing store s) (hi : s.callers[i]? = some (op, stage))
    (hnext : ∀ k m, next ≠ .writing k m)
    (hholds : next.Holds → ∀ c ∈ s.callers, ¬ c.2.Holds)
    (hover : ∀ k m c ph, stage = .writing k m → s.writes.calls[k]? = some (c, ph) →
      ¬ ph.Pending) :
    Storing store { s with callers := s.callers.set i (op, next) } where
  writing := h.writing
  owned k c ph hk hpath hpending := by
    obtain ⟨j, op', m, hj⟩ := h.owned k c ph hk hpath hpending
    by_cases hij : i = j
    · subst hij
      obtain ⟨-, rfl⟩ := Prod.mk.inj (Option.some.inj (hi.symm.trans hj))
      exact absurd hpending (hover k m c ph rfl hk)
    · exact ⟨j, op', m, by rw [List.getElem?_set_ne hij, hj]⟩
  alone j k c d hj hk hc hd := by
    rcases getElem?_set_cases hj with ⟨hij, rfl⟩ | ⟨-, hj⟩
    · rcases getElem?_set_cases hk with ⟨hik, -⟩ | ⟨-, hk⟩
      · exact hij.symm.trans hik
      · exact absurd hd (hholds hc d (List.mem_of_getElem? hk))
    · rcases getElem?_set_cases hk with ⟨-, rfl⟩ | ⟨-, hk⟩
      · exact absurd hc (hholds hd c (List.mem_of_getElem? hj))
      · exact h.alone j k c d hj hk hc hd
  current j op' k m hj := by
    rcases getElem?_set_cases hj with ⟨-, heq⟩ | ⟨-, hj⟩
    · exact absurd (Prod.mk.inj heq).2.symm (hnext k m)
    · exact h.current j op' k m hj

/-- The call with the lock starts its write. -/
theorem storing_write {uuid : String} (h : Storing store s)
    (hi : s.callers[i]? = some (op, .reading))
    (hcurrent : ∃ before, secretsOf store (s.writes.files.contents store.path) = some before ∧
      (fun id ↦ m.lookup id) = op.apply before) :
    Storing store
      { s with
        writes := { s.writes with
          calls := s.writes.calls ++ [(store.writeMap m uuid, .preparing)] }
        callers := s.callers.set i (op, .writing s.writes.calls.length m) } := by
  -- Nobody else has the lock, so nobody else writes.
  have hothers : ∀ j c, i ≠ j → s.callers[j]? = some c → ¬ c.2.Holds :=
    fun j c hij hj hc ↦ hij (h.alone i j _ c hi hj trivial hc)
  refine ⟨writing_start h.writing _, ?_, ?_, ?_⟩
  · intro k c ph hk hpath hpending
    rcases getElem?_concat_cases hk with hk | ⟨rfl, -⟩
    · obtain ⟨j, op', m', hj⟩ := h.owned k c ph hk hpath hpending
      by_cases hij : i = j
      · subst hij
        cases hi.symm.trans hj
      · exact absurd trivial (hothers j _ hij hj)
    · exact ⟨i, op, m, getElem?_set_self_of hi⟩
  · intro j k c d hj hk hc hd
    rcases getElem?_set_cases hj with ⟨hij, -⟩ | ⟨hij, hj⟩
    · rcases getElem?_set_cases hk with ⟨hik, -⟩ | ⟨hik, hk⟩
      · exact hij.symm.trans hik
      · exact absurd hd (hothers k d hik hk)
    · exact absurd hc (hothers j c hij hj)
  · intro j op' k m' hj
    rcases getElem?_set_cases hj with ⟨-, heq⟩ | ⟨hij, hj⟩
    · obtain ⟨rfl, hwriting⟩ := Prod.mk.inj heq
      obtain ⟨rfl, rfl⟩ := Stage.writing.inj hwriting
      exact ⟨_, .preparing, List.getElem?_concat_length, rfl, rfl, fun _ ↦ hcurrent⟩
    · exact absurd trivial (hothers j _ hij hj)

/-- Somebody writes another file. -/
theorem storing_start {call : WriteCall} (h : Storing store s) (hcall : call.path ≠ store.path) :
    Storing store
      { s with writes := { s.writes with calls := s.writes.calls ++ [(call, .preparing)] } } where
  writing := writing_start h.writing call
  owned k c ph hk hpath hpending := by
    rcases getElem?_concat_cases hk with hk | ⟨-, heq⟩
    · exact h.owned k c ph hk hpath hpending
    · obtain ⟨rfl, -⟩ := Prod.mk.inj heq
      exact absurd hpath hcall
  alone := h.alone
  current i op k m hi := by
    obtain ⟨c, ph, hk, hrest⟩ := h.current i op k m hi
    exact ⟨c, ph, getElem?_concat_of hk, hrest⟩

end Storing

section Simulation

/-- The write that replaces the file is that of the call with the lock. -/
theorem owner_of_replace {caller : ℕ} {outcome : Outcome} {call : WriteCall}
    {phase next : Phase} {after : FileSystem} {v : Option (List UInt8)} (h : Storing store s)
    (hcaller : s.writes.calls[caller]? = some (call, phase))
    (hadvance : call.advance umask outcome s.writes.files phase = some (next, after))
    (hv : .replace v ∈ phase.operation store.path call outcome s.writes.files) :
    ∃ (i : ℕ) (op : CredentialOp) (m : Secrets), s.callers[i]? = some (op, .writing caller m) ∧
      secretsOf store v = some (fun id ↦ m.lookup id) ∧
      ∃ before, secretsOf store (s.writes.files.contents store.path) = some before ∧
        (fun id ↦ m.lookup id) = op.apply before := by
  have hheld := h.writing.held _ (List.mem_of_getElem? hcaller)
  obtain ⟨hpending, -, hpath, rfl, -⟩ := of_replace_mem hadvance hheld hv
  obtain ⟨i, op, m, hi⟩ := h.owned caller call phase hcaller hpath hpending
  obtain ⟨c, ph, hk, -, hdata, hbefore⟩ := h.current i op caller m hi
  obtain ⟨rfl, rfl⟩ := Prod.mk.inj (Option.some.inj (hcaller.symm.trans hk))
  refine ⟨i, op, m, hi, ?_, hbefore hpending⟩
  rw [hdata, secretsOf_encode]

theorem storing_advance {caller : ℕ} {outcome : Outcome} {v : WriteState}
    (h : Storing store s)
    (hstep : (writes umask).step s.writes (.advance caller outcome) = some v) :
    Storing store { s with writes := v } := by
  have hcontents := contents_of_not_replace store.target h.writing hstep
  have hwriting := (writing_step store.target h.writing hstep).1
  obtain ⟨⟨call, phase⟩, hcaller, hstep⟩ := Option.bind_eq_some_iff.mp hstep
  obtain ⟨⟨next, after⟩, hadvance, hstep⟩ := Option.bind_eq_some_iff.mp hstep
  obtain rfl := Option.some.inj hstep
  have hoperation : operation store.path s.writes (.advance caller outcome) =
      phase.operation store.path call outcome s.writes.files := by rw [operation, hcaller]
  have hheld := h.writing.held _ (List.mem_of_getElem? hcaller)
  refine ⟨hwriting, ?_, h.alone, ?_⟩
  · intro k c ph hk hpath hpending
    rcases getElem?_set_cases hk with ⟨rfl, heq⟩ | ⟨-, hk⟩
    · obtain ⟨rfl, rfl⟩ := Prod.mk.inj heq
      exact h.owned caller c phase hcaller hpath (pending_of_advance hadvance hpending)
    · exact h.owned k c ph hk hpath hpending
  · intro i op k m hi
    obtain ⟨c, ph, hk, hpath, hdata, hbefore⟩ := h.current i op k m hi
    by_cases hkc : caller = k
    · subst hkc
      obtain ⟨rfl, rfl⟩ := Prod.mk.inj (Option.some.inj (hcaller.symm.trans hk))
      refine ⟨call, next, getElem?_set_self_of hk, hpath, hdata, fun hpending ↦ ?_⟩
      rw [hcontents fun w hw ↦ not_pending_of_landed
        (of_replace_mem hadvance hheld (hoperation ▸ hw)).2.1 hpending]
      exact hbefore (pending_of_advance hadvance hpending)
    · refine ⟨c, ph, ?_, hpath, hdata, fun hpending ↦ ?_⟩
      · rw [List.getElem?_set_ne hkc]
        exact hk
      · rw [hcontents fun w hw ↦ ?_]
        · exact hbefore hpending
        · obtain ⟨j, op', m', hj, -⟩ := owner_of_replace h hcaller hadvance (hoperation ▸ hw)
          obtain rfl := h.alone i j _ _ hi hj trivial trivial
          obtain ⟨-, hwriting⟩ := Prod.mk.inj (Option.some.inj (hi.symm.trans hj))
          exact hkc (Stage.writing.inj hwriting).1.symm

/-- What a step of a write amounts to. -/
theorem secretsSteps_advance {caller : ℕ} {outcome : Outcome} {v : WriteState}
    (h : Storing store s)
    (hstep : (writes umask).step s.writes (.advance caller outcome) = some v) :
    SecretsSteps (secretsRegister store s)
      (credentialEvents store s (.write (.advance caller outcome)))
      (secretsRegister store { s with writes := v }) := by
  have hregister := (writing_step store.target h.writing hstep).2
  rw [credentialEvents, secretsRegister, secretsRegister]
  rcases operation_advance_cases store.path s.writes caller outcome with
    hop | hop | hop | ⟨w, hop⟩
  · rw [hop] at hregister ⊢
    rw [hregister.eq_of_nil]
    exact .refl _
  · rw [hop] at hregister ⊢
    exact .head (.settled (hregister.of_single.map _)) (.refl _)
  · rw [hop] at hregister ⊢
    exact .head (.narrowed (hregister.of_single.map_narrow _)) (.refl _)
  · rw [hop] at hregister ⊢
    obtain ⟨⟨call, phase⟩, hcaller, hstep⟩ := Option.bind_eq_some_iff.mp hstep
    obtain ⟨⟨next, after⟩, hadvance, -⟩ := Option.bind_eq_some_iff.mp hstep
    rw [operation, hcaller] at hop
    obtain ⟨i, op, m, hi, hw, before, hbefore, hm⟩ := owner_of_replace h hcaller hadvance
      (hop ▸ List.mem_singleton.mpr rfl)
    have hevents : [Register.Op.replace w].filterMap (eventOf (ownerOf s.callers caller)) =
        [CredentialEvent.committed i op] := by
      rw [ownerOf_eq h hi]
      rfl
    have hcurrent : ((s.writes.files.register store.path).map (secretsOf store)).current =
        some before := by
      rw [Register.current_map, ← h.writing.sound.contents_eq, hbefore]
    have hreplace := hregister.of_single
    rw [hevents]
    generalize s.writes.files.register store.path = r at hreplace hcurrent ⊢
    generalize v.files.register store.path = r' at hreplace ⊢
    cases hreplace
    have hmap : Register.map (secretsOf store) ⟨r.settled, r.unsettled ++ [w]⟩ =
        ⟨(r.map (secretsOf store)).settled,
          (r.map (secretsOf store)).unsettled ++ [some (op.apply before)]⟩ := by
      simp only [Register.map, List.map_append, List.map_cons, List.map_nil, hw, hm]
    rw [hmap]
    exact .head (.committed i op hcurrent) (.refl _)

theorem not_pending_of_answer {phase : Phase} {result : Except String (Option String)}
    (h : answer op phase = some result) : ¬ phase.Pending := by
  cases phase <;> simp_all [answer, Phase.Pending]

/-- One action, whoever takes it. -/
theorem storing_step {action : CredentialAction} (h : Storing store s)
    (hwriter : OneWriter process s) (hstep : (store.machine umask).step s action = some t) :
    Storing store t ∧ SecretsSteps (secretsRegister store s) (credentialEvents store s action)
      (secretsRegister store t) := by
  cases action with
  | call caller op =>
    obtain rfl := Option.some.inj hstep
    exact ⟨storing_call h op, .refl _⟩
  | lock caller =>
    obtain ⟨op, own, hi, hown, hchanges, hfree, rfl⟩ := lock_cases hstep
    obtain rfl := Option.some.inj (hown.symm.trans (hwriter.own caller op _ hi hchanges))
    exact ⟨storing_set h hi (fun k m h ↦ by cases h) (fun _ ↦ hwriter.not_holds hfree)
      fun _ _ _ _ h ↦ (by cases h), .refl _⟩
  | read caller error uuid =>
    obtain ⟨op, stage, hi, hreads, hcases⟩ := read_cases hstep
    have hover : ∀ k m c ph, stage = .writing k m → s.writes.calls[k]? = some (c, ph) →
        ¬ ph.Pending := by
      rintro k m c ph rfl
      cases op <;> cases hreads
    obtain ⟨message, rfl, hevents⟩ | ⟨secrets, hsecrets, -, rfl, hevents⟩ |
      ⟨m, rfl, -, hcurrent, rfl, hevents⟩ := hcases
    · rw [hevents]
      exact ⟨storing_set h hi (fun k m h ↦ by cases h) (fun h ↦ by cases h) hover, .refl _⟩
    · rw [hevents]
      refine ⟨storing_set h hi (fun k m h ↦ by cases h) (fun h ↦ by cases h) hover, ?_⟩
      refine .head (.found caller op.id ?_) (.refl _)
      rw [secretsRegister, Register.current_map, ← h.writing.sound.contents_eq, hsecrets]
    · rw [hevents]
      exact ⟨storing_write h hi hcurrent, .refl _⟩
  | finish caller =>
    obtain ⟨op, k, m, call, phase, result, hi, hk, hanswer, rfl⟩ := finish_cases hstep
    refine ⟨storing_set h hi (fun k m h ↦ by cases h) (fun h ↦ by cases h) ?_, .refl _⟩
    rintro k' m' c ph heq hk' hpending
    obtain ⟨rfl, rfl⟩ := Stage.writing.inj heq
    obtain ⟨rfl, rfl⟩ := Prod.mk.inj (Option.some.inj (hk.symm.trans hk'))
    exact not_pending_of_answer hanswer hpending
  | write action =>
    obtain ⟨after, hafter, hstep⟩ := Option.bind_eq_some_iff.mp hstep
    cases action with
    | start call =>
      simp only at hstep
      split at hstep
      · cases hstep
      · next hpath =>
        obtain rfl := Option.some.inj hstep
        obtain rfl := Option.some.inj hafter
        exact ⟨storing_start h hpath, .refl _⟩
    | advance k outcome =>
      obtain rfl := Option.some.inj hstep
      exact ⟨storing_advance h hafter, secretsSteps_advance h hafter⟩
    | crash crash =>
      obtain rfl := Option.some.inj hstep
      obtain ⟨hwriting, hcrash⟩ := writing_step store.target h.writing hafter
      have hcalls : after.calls = [] := by
        obtain ⟨-, hafter⟩ := Option.ite_none_right_eq_some.mp hafter
        obtain rfl := Option.some.inj hafter
        rfl
      refine ⟨⟨hwriting, fun k c ph hk ↦ ?_, fun i j c d hi ↦ (by cases hi),
        fun i op k m hi ↦ (by cases hi)⟩, ?_⟩
      · rw [hcalls] at hk
        cases hk
      · cases hcrash with
        | head hstep hrest =>
          cases hrest
          exact .head (.crashed (hstep.map_crash _)) (.refl _)

end Simulation

theorem SecretsSteps.append {r u v : Register (Option (String → Option String))}
    {events more : List CredentialEvent} (h : SecretsSteps r events u)
    (hmore : SecretsSteps u more v) : SecretsSteps r (events ++ more) v := by
  induction h with
  | refl r => exact hmore
  | head hstep _ ih => exact .head hstep (ih hmore)

/-- A run of calls, other writers and crashes does to the map what its events do, one at a time. -/
theorem storing_run {actions : List CredentialAction} (h : Storing store s)
    (hwriter : OneWriter process s)
    (hone : ∀ caller op, .call caller op ∈ actions → op.Changes → caller = process)
    (hrun : (store.machine umask).run s actions = some t) :
    Storing store t ∧ SecretsSteps (secretsRegister store s)
      (credentialHistory umask store s actions) (secretsRegister store t) := by
  induction actions generalizing s with
  | nil =>
    obtain rfl := Option.some.inj hrun
    exact ⟨h, .refl _⟩
  | cons action actions ih =>
    obtain ⟨u, hu, hrest⟩ := Machine.run_cons.mp hrun
    obtain ⟨hstoring, hsteps⟩ := storing_step h hwriter hu
    have hnext := hwriter.step (fun caller op heq ↦ hone caller op (heq ▸ List.mem_cons_self)) hu
    obtain ⟨hfinal, hmore⟩ := ih hstoring hnext
      (fun caller op hmem ↦ hone caller op (List.mem_cons_of_mem _ hmem)) hrest
    refine ⟨hfinal, ?_⟩
    rw [credentialHistory, hu]
    exact hsteps.append hmore

theorem storing_of_idle (hcalls : s.writes.calls = []) (hcallers : s.callers = [])
    (hsound : s.writes.files.Sound store.path) : Storing store s where
  writing := writing_of_idle hcalls hsound
  owned k c ph hk := by
    rw [hcalls] at hk
    cases hk
  alone i j c d hi := by
    rw [hcallers] at hi
    cases hi
  current i op k m hi := by
    rw [hcallers] at hi
    cases hi

theorem oneWriter_of_idle (process : ℕ) (hcallers : s.callers = [])
    (hprocesses : s.processes = []) : OneWriter process s where
  length := by rw [hcallers, hprocesses]; rfl
  own i op stage hi := by
    rw [hcallers] at hi
    cases hi
  holds i op stage hi := by
    rw [hcallers] at hi
    cases hi

end Daku.Files
