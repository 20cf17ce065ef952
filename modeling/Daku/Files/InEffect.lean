import Daku.Files.PrettyJson

/-!
# The settings in effect

Whatever opens, updates, ends or crashes: settings that anybody has are those of the start, the
defaults, or an update whose URL was allowed. A settings file that is well formed is never moved
away, and what the daemon has in memory is what the file says, but for the moment between the
rename and the end of an update.
-/

namespace Daku.Files

open Daku.Base Daku.Wire DaemonSettingsStore

variable {umask : Mode} {store : DaemonSettingsStore} {s t : SettingsState}
  {before : List (Option (List UInt8))} {done : List SettingsAction} {x : DaemonSettings}

/-- An update that `handle` does not refuse. -/
def Accepted (done : List SettingsAction) (x : DaemonSettings) : Prop :=
  .call (.updateSettings x) ∈ done ∧ refusedUrl x = none

/-- Settings that the daemon may write. -/
def Writable (done : List SettingsAction) (x : DaemonSettings) : Prop :=
  x = defaultSettings ∨ Accepted done x

/-- Settings that the daemon may have. -/
def Known (store : DaemonSettingsStore) (before : List (Option (List UInt8)))
    (done : List SettingsAction) (x : DaemonSettings) : Prop :=
  (∃ v ∈ before, store.meaning v = some x) ∨ Writable done x

/-- What a handler has to do with settings. -/
def HandlerStage.Vetted (store : DaemonSettingsStore) (before : List (Option (List UInt8)))
    (done : List SettingsAction) (command : Command) : HandlerStage → Prop
  | .waiting => ∀ x, command = .updateSettings x → Accepted done x
  | .writing _ x => Accepted done x
  | .answered result => ∀ x, result = .ok (.settings x) → Known store before done x

/-- All settings come from somewhere. -/
structure Vetted (store : DaemonSettingsStore) (before : List (Option (List UInt8)))
    (done : List SettingsAction) (s : SettingsState) : Prop where
  writing : Writing store.path s.writes
  values : ∀ v ∈ (s.writes.files.register store.path).values, v ∈ before ∨ v = none ∨
    ∃ x, Writable done x ∧ v = some (store.codec.encode x)
  written : ∀ c ∈ s.writes.calls, c.1.path = store.path →
    ∃ x, Writable done x ∧ c.1.data = store.codec.encode x
  memory : ∀ x, s.memory = some x → Known store before done x
  handlers : ∀ h ∈ s.handlers, h.2.Vetted store before done h.1
  openers : ∀ o ∈ s.openers, ∀ x, o.stage = .opened x → Known store before done x

section Later

variable {more : List SettingsAction}

theorem Accepted.append (h : Accepted done x) (more : List SettingsAction) :
    Accepted (done ++ more) x :=
  ⟨List.mem_append_left more h.1, h.2⟩

theorem Writable.append (h : Writable done x) (more : List SettingsAction) :
    Writable (done ++ more) x :=
  h.imp_right fun h ↦ h.append more

theorem Known.append (h : Known store before done x) (more : List SettingsAction) :
    Known store before (done ++ more) x :=
  h.imp_right fun h ↦ h.append more

theorem HandlerStage.Vetted.append {command : Command} {stage : HandlerStage}
    (h : stage.Vetted store before done command) (more : List SettingsAction) :
    stage.Vetted store before (done ++ more) command := by
  cases stage with
  | waiting => exact fun x hx ↦ (h x hx).append more
  | writing k x => exact Accepted.append h more
  | answered result => exact fun x hx ↦ (h x hx).append more

theorem Vetted.append (h : Vetted store before done s) (more : List SettingsAction) :
    Vetted store before (done ++ more) s where
  writing := h.writing
  values v hv := (h.values v hv).imp_right fun h ↦
    h.imp_right fun ⟨x, hx, hdata⟩ ↦ ⟨x, hx.append more, hdata⟩
  written c hc hpath := by
    obtain ⟨x, hx, hdata⟩ := h.written c hc hpath
    exact ⟨x, hx.append more, hdata⟩
  memory x hx := (h.memory x hx).append more
  handlers c hc := (h.handlers c hc).append more
  openers o ho x hx := (h.openers o ho x hx).append more

end Later

theorem store_target (store : DaemonSettingsStore) : ¬ IsTemporary store.path :=
  (store.writeCall defaultSettings "").target

/-- What is written means what was to be written. -/
@[simp] theorem meaning_encode (store : DaemonSettingsStore) (x : DaemonSettings) :
    store.meaning (some (store.codec.encode x)) = some x := store.codec.decode_encode x

/-- What is read from the file are settings that the daemon may have. -/
theorem Vetted.known (h : Vetted store before done s)
    (hx : store.meaning (s.writes.files.contents store.path) = some x) :
    Known store before done x := by
  rw [h.writing.sound.contents_eq] at hx
  rcases h.values _ (Register.current_mem_values _) with hv | hv | ⟨y, hy, hv⟩
  · exact Or.inl ⟨_, hv, hx⟩
  · rw [hv] at hx
    exact Or.inr (Or.inl (Option.some.inj hx).symm)
  · rw [hv, meaning_encode] at hx
    exact Or.inr (Option.some.inj hx ▸ hy)

section Quarantine

theorem corrupt_ne (store : DaemonSettingsStore) (uuid : String) :
    store.path ≠ corrupt store.path uuid := by
  intro h
  have hextension := store.extension_eq
  rw [h] at hextension
  have hlength := congrArg (fun e ↦ e.toList.length) (Option.some.inj hextension)
  simp [String.toList_append] at hlength

theorem not_isTemporary_corrupt (path : FilePath) (uuid : String) :
    ¬ IsTemporary (corrupt path uuid) := by
  rintro ⟨extension, hextension, hprefix⟩
  obtain rfl := Option.some.inj hextension
  simp [String.toList_append] at hprefix

/-- The file is moved away: nothing is left under its name. -/
theorem writing_quarantine {w : WriteState} (h : Writing store.path w)
    (hentry : w.files.entries store.path ≠ none) (uuid : String) :
    Writing store.path { w with files := quarantineCorruptSettings store.path uuid w.files } ∧
      Register.Step (w.files.register store.path) (.replace none)
        ((quarantineCorruptSettings store.path uuid w.files).register store.path) := by
  have hof : Change.of ⟨store.path.dir, [((corrupt store.path uuid).base,
      w.files.entries store.path), (store.path.base, none)]⟩ store.path = some none := by
    have hbase : store.path.base ≠ (corrupt store.path uuid).base := fun hbase ↦
      corrupt_ne store uuid (congrArg (⟨store.path.dir, ·⟩ : _ → FilePath) hbase)
    simp [Change.of, List.lookup_cons, beq_false_of_ne hbase]
  obtain ⟨hsound, hstep⟩ := h.sound.link_replace hof (fun i hi ↦ by cases hi)
    (h.sound.there hentry)
  refine ⟨⟨hsound, fun c hc ↦ ⟨(h.held c hc).there, fun i v hfile ↦ ?_⟩, h.distinct⟩, hstep⟩
  obtain ⟨hentry, hview⟩ := (h.held c hc).file i v hfile
  refine ⟨?_, hview⟩
  rw [quarantineCorruptSettings, Disk.rename, Disk.entries_link, of_two, Option.getD_none, hentry]
  · exact fun heq ↦ not_isTemporary_corrupt store.path uuid
      ((show c.1.temporary = corrupt store.path uuid from heq) ▸ isTemporary_temporary c.1)
  · exact fun heq ↦ ne_temporary (store_target store) c.1 heq.symm

end Quarantine

section Steps

/-- What a step can be. -/
inductive SettingsStep (umask : Mode) (store : DaemonSettingsStore) (s : SettingsState) :
    SettingsAction → SettingsState → Prop where
  | openFile (boots : Bool) : (boots = true → s.memory = none ∧ ¬ s.Booting) →
      SettingsStep umask store s (.openFile boots)
        { s with openers := s.openers ++ [⟨boots, .reading⟩] }
  | read (opener : ℕ) (boots : Bool) (settings : DaemonSettings) :
      s.openers[opener]? = some ⟨boots, .reading⟩ →
      store.meaning (s.writes.files.contents store.path) = some settings →
      SettingsStep umask store s (.read opener none) (s.opened opener boots settings)
  | malformed (opener : ℕ) (boots : Bool) : s.openers[opener]? = some ⟨boots, .reading⟩ →
      store.meaning (s.writes.files.contents store.path) = none →
      SettingsStep umask store s (.read opener none)
        { s with openers := s.openers.set opener ⟨boots, .quarantining⟩ }
  | quarantine (opener : ℕ) (boots : Bool) (uuid temporary : String) :
      s.openers[opener]? = some ⟨boots, .quarantining⟩ →
      s.writes.files.entries store.path ≠ none →
      SettingsStep umask store s (.quarantine opener none uuid temporary)
        { s with
          writes := store.startWrite
            { s.writes with files := quarantineCorruptSettings store.path uuid s.writes.files }
            defaultSettings temporary
          openers := s.openers.set opener ⟨boots, .restoring s.writes.calls.length⟩ }
  | restored (opener : ℕ) (boots : Bool) (write : ℕ) :
      s.openers[opener]? = some ⟨boots, .restoring write⟩ →
      SettingsStep umask store s (.restored opener) (s.opened opener boots defaultSettings)
  | failed (action : SettingsAction) (opener : ℕ) (boots : Bool) (error : String) :
      SettingsStep umask store s action
        { s with openers := s.openers.set opener ⟨boots, .failed error⟩ }
  | answer (command : Command) (result : Except String ResponsePayload) : s.memory ≠ none →
      answerAtOnce command = some result →
      SettingsStep umask store s (.call command)
        { s with handlers := s.handlers ++ [(command, .answered result)] }
  | wait (command : Command) : s.memory ≠ none → answerAtOnce command = none →
      SettingsStep umask store s (.call command)
        { s with handlers := s.handlers ++ [(command, .waiting)] }
  | get (handler : ℕ) (uuid : String) (memory : DaemonSettings) : s.memory = some memory →
      (∀ h ∈ s.handlers, ¬ h.2.Holds) →
      SettingsStep umask store s (.lock handler uuid)
        { s with
          handlers := s.handlers.set handler (.getSettings, .answered (.ok (.settings memory))) }
  | update (handler : ℕ) (uuid : String) (settings : DaemonSettings) : s.memory ≠ none →
      (∀ h ∈ s.handlers, ¬ h.2.Holds) →
      s.handlers[handler]? = some (.updateSettings settings, .waiting) →
      SettingsStep umask store s (.lock handler uuid)
        { s with
          writes := store.startWrite s.writes settings uuid
          handlers := s.handlers.set handler
            (.updateSettings settings, .writing s.writes.calls.length settings) }
  | updated (handler : ℕ) (command : Command) (write : ℕ) (settings : DaemonSettings)
      (call : WriteCall) :
      s.handlers[handler]? = some (command, .writing write settings) →
      s.writes.calls[write]? = some (call, .done) →
      SettingsStep umask store s (.finish handler)
        { s with
          memory := some settings
          handlers := s.handlers.set handler (command, .answered (.ok .ack)) }
  | notUpdated (handler : ℕ) (command : Command) (write : ℕ) (settings : DaemonSettings)
      (call : WriteCall) (error : String) :
      s.handlers[handler]? = some (command, .writing write settings) →
      s.writes.calls[write]? = some (call, .failed error) →
      SettingsStep umask store s (.finish handler)
        { s with handlers := s.handlers.set handler (command, .answered (.error error)) }
  | exit : SettingsStep umask store s .exit s.exited
  | start (call : WriteCall) : call.path ≠ store.path →
      SettingsStep umask store s (.write (.start call))
        { s with writes := { s.writes with calls := s.writes.calls ++ [(call, .preparing)] } }
  | advance (caller : ℕ) (outcome : Outcome) (after : WriteState) :
      (writes umask).step s.writes (.advance caller outcome) = some after →
      SettingsStep umask store s (.write (.advance caller outcome)) { s with writes := after }
  | crash (crash : Crash String FileName UInt8) (after : WriteState) :
      (writes umask).step s.writes (.crash crash) = some after → after.calls = [] →
      SettingsStep umask store s (.write (.crash crash)) ⟨after, none, [], []⟩

/-- Every step is one of these. -/
theorem settingsStep_of_step {action : SettingsAction}
    (hstep : (store.machine umask).step s action = some t) :
    SettingsStep umask store s action t := by
  cases action with
  | openFile boots =>
    simp only [machine] at hstep
    split at hstep
    · cases hstep
    · next hfree =>
      obtain rfl := Option.some.inj hstep
      refine .openFile boots fun hboots ↦ ⟨?_, fun hbooting ↦ hfree ⟨hboots, Or.inr hbooting⟩⟩
      by_contra hmemory
      exact hfree ⟨hboots, Or.inl hmemory⟩
  | read opener error =>
    obtain ⟨⟨boots, stage⟩, ho, hstep⟩ := Option.bind_eq_some_iff.mp hstep
    cases stage with
    | reading =>
      cases error with
      | some error =>
        obtain rfl := Option.some.inj hstep
        exact .failed _ opener boots error
      | none =>
        simp only at hstep
        split at hstep
        · next settings hmeaning =>
          obtain rfl := Option.some.inj hstep
          exact .read opener boots settings ho hmeaning
        · next hmeaning =>
          obtain rfl := Option.some.inj hstep
          exact .malformed opener boots ho hmeaning
    | _ => cases hstep
  | quarantine opener error uuid temporary =>
    obtain ⟨⟨boots, stage⟩, ho, hstep⟩ := Option.bind_eq_some_iff.mp hstep
    cases stage with
    | quarantining =>
      cases error with
      | some error =>
        obtain rfl := Option.some.inj hstep
        exact .failed _ opener boots error
      | none =>
        simp only at hstep
        split at hstep
        · cases hstep
        · next hentry =>
          obtain rfl := Option.some.inj hstep
          exact .quarantine opener boots uuid temporary ho hentry
    | _ => cases hstep
  | restored opener =>
    obtain ⟨⟨boots, stage⟩, ho, hstep⟩ := Option.bind_eq_some_iff.mp hstep
    cases stage with
    | restoring write =>
      obtain ⟨⟨call, phase⟩, hcall, hstep⟩ := Option.bind_eq_some_iff.mp hstep
      cases phase with
      | done =>
        obtain rfl := Option.some.inj hstep
        exact .restored opener boots write ho
      | failed error =>
        obtain rfl := Option.some.inj hstep
        exact .failed _ opener boots error
      | _ => cases hstep
    | _ => cases hstep
  | call command =>
    simp only [machine] at hstep
    split at hstep
    · cases hstep
    · next hmemory =>
      split at hstep <;> obtain rfl := Option.some.inj hstep
      · next result hresult => exact .answer command result hmemory hresult
      · next hresult => exact .wait command hmemory hresult
  | lock handler uuid =>
    obtain ⟨memory, hmemory, hstep⟩ := Option.bind_eq_some_iff.mp hstep
    split at hstep
    · cases hstep
    · next hfree =>
      have hfree : ∀ h ∈ s.handlers, ¬ h.2.Holds := fun h hh hholds ↦ hfree ⟨h, hh, hholds⟩
      obtain ⟨⟨command, stage⟩, hh, hstep⟩ := Option.bind_eq_some_iff.mp hstep
      cases stage with
      | waiting =>
        cases command with
        | getSettings =>
          obtain rfl := Option.some.inj hstep
          exact .get handler uuid memory hmemory hfree
        | updateSettings settings =>
          obtain rfl := Option.some.inj hstep
          exact .update handler uuid settings (hmemory ▸ Option.some_ne_none memory) hfree hh
        | _ => cases hstep
      | _ => cases command <;> cases hstep
  | finish handler =>
    obtain ⟨⟨command, stage⟩, hh, hstep⟩ := Option.bind_eq_some_iff.mp hstep
    cases stage with
    | writing write settings =>
      obtain ⟨⟨call, phase⟩, hcall, hstep⟩ := Option.bind_eq_some_iff.mp hstep
      cases phase with
      | done =>
        obtain rfl := Option.some.inj hstep
        exact .updated handler command write settings call hh hcall
      | failed error =>
        obtain rfl := Option.some.inj hstep
        exact .notUpdated handler command write settings call error hh hcall
      | _ => cases hstep
    | _ => cases hstep
  | exit =>
    obtain rfl := Option.some.inj hstep
    exact .exit
  | write action =>
    obtain ⟨after, hafter, hstep⟩ := Option.bind_eq_some_iff.mp hstep
    cases action with
    | start call =>
      obtain rfl := Option.some.inj hafter
      simp only at hstep
      split at hstep
      · cases hstep
      · next hcall =>
        obtain rfl := Option.some.inj hstep
        exact .start call hcall
    | advance caller outcome =>
      obtain rfl := Option.some.inj hstep
      exact .advance caller outcome after hafter
    | crash crash =>
      obtain rfl := Option.some.inj hstep
      refine .crash crash after hafter ?_
      obtain ⟨-, hafter⟩ := Option.ite_none_right_eq_some.mp hafter
      rw [← Option.some.inj hafter]

end Steps

section Vetted

theorem Vetted.withHandlers {handlers : List (Command × HandlerStage)}
    (h : Vetted store before done s)
    (hhandlers : ∀ c ∈ handlers, c ∈ s.handlers ∨ c.2.Vetted store before done c.1) :
    Vetted store before done { s with handlers } :=
  { h with handlers := fun c hc ↦ (hhandlers c hc).elim (h.handlers c) id }

theorem Vetted.withOpeners {openers : List Opener} (h : Vetted store before done s)
    (hopeners : ∀ o ∈ openers, o ∈ s.openers ∨
      ∀ x, o.stage = .opened x → Known store before done x) :
    Vetted store before done { s with openers } :=
  { h with openers := fun o ho ↦ (hopeners o ho).elim (h.openers o) id }

theorem Vetted.setHandler {command : Command} {stage : HandlerStage}
    (h : Vetted store before done s) (i : ℕ) (hstage : stage.Vetted store before done command) :
    Vetted store before done { s with handlers := s.handlers.set i (command, stage) } :=
  h.withHandlers fun _ hc ↦ (List.mem_or_eq_of_mem_set hc).imp_right (by rintro rfl; exact hstage)

theorem Vetted.setOpener {o : Opener} (h : Vetted store before done s) (i : ℕ)
    (ho : ∀ x, o.stage = .opened x → Known store before done x) :
    Vetted store before done { s with openers := s.openers.set i o } :=
  h.withOpeners fun _ hc ↦ (List.mem_or_eq_of_mem_set hc).imp_right (by rintro rfl; exact ho)

/-- A write of settings that the daemon may write. -/
theorem Vetted.startWrite (h : Vetted store before done s) (hx : Writable done x)
    (uuid : String) :
    Vetted store before done { s with writes := store.startWrite s.writes x uuid } :=
  { h with
    writing := writing_start h.writing _
    written := fun c hc hpath ↦ by
      rcases List.mem_append.mp hc with hc | hc
      · exact h.written c hc hpath
      · rw [List.mem_singleton.mp hc]
        exact ⟨x, hx, rfl⟩ }

/-- The register takes up whatever a write puts under the path. -/
theorem Vetted.values_step {ops : List (Register.Op (Option (List UInt8)))}
    {r : Register (Option (List UInt8))} (h : Vetted store before done s)
    (hsteps : Register.Steps (s.writes.files.register store.path) ops r)
    (hops : ∀ v, .replace v ∈ ops → v = none ∨
      ∃ x, Writable done x ∧ v = some (store.codec.encode x)) :
    ∀ v ∈ r.values, v ∈ before ∨ v = none ∨
      ∃ x, Writable done x ∧ v = some (store.codec.encode x) := by
  intro v hv
  rcases hsteps.values_subset v hv with hv | hv
  · exact h.values v hv
  · exact Or.inr (hops v (Register.mem_replaced.mp hv))

/-- The write machine moves; its calls are those from before. -/
theorem Vetted.move {action : WriteAction} {after : WriteState} (h : Vetted store before done s)
    (hstep : (writes umask).step s.writes action = some after)
    (hcalls : ∀ c ∈ after.calls, ∃ d ∈ s.writes.calls, c.1 = d.1) :
    Vetted store before done { s with writes := after } := by
  obtain ⟨hwriting, hsteps⟩ := writing_step (store_target store) h.writing hstep
  refine { h with
    writing := hwriting
    values := h.values_step hsteps fun v hv ↦ ?_
    written := fun c hc hpath ↦ ?_ }
  · obtain ⟨c, hc, hpath, hdata⟩ := replace_mem_operation hv
    obtain ⟨x, hx, hencode⟩ := h.written c hc hpath
    exact Or.inr ⟨x, hx, by rw [hdata, hencode]⟩
  · obtain ⟨d, hd, heq⟩ := hcalls c hc
    rw [heq] at hpath ⊢
    exact h.written d hd hpath

theorem Vetted.quarantine (h : Vetted store before done s)
    (hentry : s.writes.files.entries store.path ≠ none) (uuid : String) :
    Vetted store before done { s with writes :=
      { s.writes with files := quarantineCorruptSettings store.path uuid s.writes.files } } := by
  obtain ⟨hwriting, hstep⟩ := writing_quarantine h.writing hentry uuid
  exact { h with
    writing := hwriting
    values := h.values_step (.single hstep) fun v hv ↦
      Or.inl (Register.Op.replace.inj (List.mem_singleton.mp hv)) }

/-- What is left of the writes when the daemon is gone. -/
theorem mem_killed {dead : ℕ → Bool} {k : ℕ} {c : WriteCall × Phase}
    (hc : (s.killed dead).calls[k]? = some c) :
    ∃ d, s.writes.calls[k]? = some d ∧ c.1 = d.1 ∧
      (c = d ∧ dead k = false ∨ c.2 = .failed "the process is gone") := by
  rw [SettingsState.killed, List.getElem?_mapIdx] at hc
  obtain ⟨d, hd, hc⟩ := Option.map_eq_some_iff.mp hc
  refine ⟨d, hd, ?_⟩
  split at hc
  · rw [← hc]
    exact ⟨rfl, Or.inr rfl⟩
  · next hdead =>
    exact ⟨hc ▸ rfl, Or.inl ⟨hc.symm, Bool.eq_false_of_not_eq_true hdead⟩⟩

theorem writing_killed (h : Writing store.path s.writes) (dead : ℕ → Bool) :
    Writing store.path (s.killed dead) :=
  writing_of_calls h fun k c hc ↦ by
    obtain ⟨d, hd, -, ⟨rfl, -⟩ | hfailed⟩ := mem_killed hc
    · exact Or.inl hd
    · exact Or.inr (by rw [hfailed]; exact id)

theorem Vetted.exited (h : Vetted store before done s) : Vetted store before done s.exited where
  writing := writing_killed h.writing _
  values := h.values
  written c hc hpath := by
    obtain ⟨k, hk⟩ := List.mem_iff_getElem?.mp hc
    obtain ⟨d, hd, heq, -⟩ := mem_killed hk
    rw [heq] at hpath ⊢
    exact h.written d (List.mem_of_getElem? hd) hpath
  memory x hx := by cases hx
  handlers c hc := absurd hc List.not_mem_nil
  openers o ho := h.openers o (List.mem_of_mem_filter ho)

theorem Vetted.opened (h : Vetted store before done s) (opener : ℕ) (boots : Bool)
    (hx : Known store before done x) : Vetted store before done (s.opened opener boots x) :=
  { h.setOpener opener (o := ⟨boots, .opened x⟩) fun y hy ↦ OpenerStage.opened.inj hy ▸ hx with
    memory := fun y hy ↦ by
      rw [SettingsState.opened] at hy
      split at hy
      · exact Option.some.inj hy ▸ hx
      · exact h.memory y hy }

/-- What `handle` answers at once says nothing of settings. -/
theorem answerAtOnce_settings {command : Command} :
    answerAtOnce command ≠ some (.ok (.settings x)) := by
  cases command <;> simp [answerAtOnce]

theorem vetted_step {action : SettingsAction} (h : Vetted store before done s)
    (hstep : (store.machine umask).step s action = some t) :
    Vetted store before (done ++ [action]) t := by
  have h := h.append [action]
  cases settingsStep_of_step hstep with
  | openFile boots =>
    refine h.withOpeners fun o ho ↦ (List.mem_append.mp ho).imp_right fun ho ↦ ?_
    rw [List.mem_singleton.mp ho]
    exact fun x hx ↦ by cases hx
  | read opener boots settings _ hmeaning => exact h.opened opener boots (h.known hmeaning)
  | malformed opener boots => exact h.setOpener opener fun x hx ↦ by cases hx
  | quarantine opener boots uuid temporary _ hentry =>
    exact ((h.quarantine hentry uuid).startWrite (Or.inl rfl) temporary).setOpener opener
      fun x hx ↦ by cases hx
  | restored opener boots write => exact h.opened opener boots (Or.inr (Or.inl rfl))
  | failed _ opener boots error => exact h.setOpener opener fun x hx ↦ by cases hx
  | answer command result _ hresult =>
    refine h.withHandlers fun c hc ↦ (List.mem_append.mp hc).imp_right fun hc ↦ ?_
    rw [List.mem_singleton.mp hc]
    exact fun x hx ↦ absurd (hx ▸ hresult) answerAtOnce_settings
  | wait command _ hwait =>
    refine h.withHandlers fun c hc ↦ (List.mem_append.mp hc).imp_right fun hc ↦ ?_
    rw [List.mem_singleton.mp hc]
    rintro x rfl
    exact ⟨List.mem_append_right _ (List.mem_singleton.mpr rfl), Option.map_eq_none_iff.mp hwait⟩
  | get handler uuid memory hmemory =>
    exact h.setHandler handler fun x hx ↦
      ResponsePayload.settings.inj (Except.ok.inj hx) ▸ h.memory memory hmemory
  | update handler uuid settings _ _ hh =>
    have haccepted := h.handlers _ (List.mem_of_getElem? hh) settings rfl
    exact (h.startWrite (Or.inr haccepted) uuid).setHandler handler haccepted
  | updated handler command write settings call hh =>
    have haccepted : Accepted _ settings := h.handlers _ (List.mem_of_getElem? hh)
    have hnext : Vetted store before _
        { s with handlers := s.handlers.set handler (command, .answered (.ok .ack)) } :=
      h.setHandler handler fun x hx ↦ by cases hx
    exact { hnext with memory := fun x hx ↦ Option.some.inj hx ▸ Or.inr (Or.inr haccepted) }
  | notUpdated handler command write settings call error =>
    exact h.setHandler handler fun x hx ↦ by cases hx
  | exit => exact h.exited
  | start call hcall =>
    refine { h with writing := writing_start h.writing call, written := fun c hc hpath ↦ ?_ }
    rcases List.mem_append.mp hc with hc | hc
    · exact h.written c hc hpath
    · rw [List.mem_singleton.mp hc] at hpath
      exact absurd hpath hcall
  | advance caller outcome after hafter =>
    refine h.move hafter fun c hc ↦ ?_
    obtain ⟨⟨call, phase⟩, hcaller, hafter⟩ := Option.bind_eq_some_iff.mp hafter
    obtain ⟨⟨next, files⟩, -, hafter⟩ := Option.bind_eq_some_iff.mp hafter
    rw [← Option.some.inj hafter] at hc
    rcases List.mem_or_eq_of_mem_set hc with hc | rfl
    · exact ⟨c, hc, rfl⟩
    · exact ⟨_, List.mem_of_getElem? hcaller, rfl⟩
  | crash crash after hafter hnone =>
    have hmoved := h.move hafter fun c hc ↦ by
      rw [hnone] at hc
      cases hc
    exact { hmoved with
      memory := fun x hx ↦ by cases hx
      handlers := fun c hc ↦ absurd hc List.not_mem_nil
      openers := fun o ho ↦ absurd ho List.not_mem_nil }

end Vetted

section Unmoved

/-- The opener found the file malformed, and replaces it. -/
def OpenerStage.Replaces : OpenerStage → Prop
  | .quarantining | .restoring _ => True
  | _ => False

/-- The file has not been moved away, and is not about to be. -/
structure Unmoved (store : DaemonSettingsStore) (before : List (Option (List UInt8)))
    (s : SettingsState) : Prop where
  openers : ∀ o ∈ s.openers, ¬ o.stage.Replaces
  present : none ∈ (s.writes.files.register store.path).values → none ∈ before

theorem Unmoved.setOpener {o : Opener} (h : Unmoved store before s) (i : ℕ)
    (ho : ¬ o.stage.Replaces) :
    Unmoved store before { s with openers := s.openers.set i o } where
  openers p hp := by
    rcases List.mem_or_eq_of_mem_set hp with hp | rfl
    · exact h.openers p hp
    · exact ho
  present := h.present

theorem Unmoved.move {action : WriteAction} {after : WriteState} (h : Unmoved store before s)
    (hwriting : Writing store.path s.writes)
    (hstep : (writes umask).step s.writes action = some after) :
    Unmoved store before { s with writes := after } where
  openers := h.openers
  present hnone := by
    have hsteps := (writing_step (store_target store) hwriting hstep).2
    rcases hsteps.values_subset _ hnone with hnone | hnone
    · exact h.present hnone
    · obtain ⟨c, -, -, hdata⟩ := replace_mem_operation (Register.mem_replaced.mp hnone)
      cases hdata

/-- All that the file ever says is well formed. -/
theorem Vetted.meaning_ne_none (h : Vetted store before done s)
    (hbefore : ∀ v ∈ before, store.meaning v ≠ none) :
    store.meaning (s.writes.files.contents store.path) ≠ none := by
  rw [h.writing.sound.contents_eq]
  rcases h.values _ (Register.current_mem_values _) with hv | hv | ⟨x, -, hv⟩
  · exact hbefore _ hv
  · rw [hv]
    exact Option.some_ne_none _
  · rw [hv, meaning_encode]
    exact Option.some_ne_none x

theorem unmoved_step {action : SettingsAction} (hvetted : Vetted store before done s)
    (hbefore : ∀ v ∈ before, store.meaning v ≠ none) (h : Unmoved store before s)
    (hstep : (store.machine umask).step s action = some t) : Unmoved store before t := by
  cases settingsStep_of_step hstep with
  | openFile boots =>
    refine ⟨fun o ho ↦ ?_, h.present⟩
    rcases List.mem_append.mp ho with ho | ho
    · exact h.openers o ho
    · rw [List.mem_singleton.mp ho]
      exact id
  | read opener boots settings =>
    exact ⟨(h.setOpener (o := ⟨boots, .opened settings⟩) opener id).openers, h.present⟩
  | malformed opener boots _ hmeaning =>
    exact absurd hmeaning (hvetted.meaning_ne_none hbefore)
  | quarantine opener boots uuid temporary ho =>
    exact absurd trivial (h.openers _ (List.mem_of_getElem? ho))
  | restored opener boots write ho =>
    exact absurd trivial (h.openers _ (List.mem_of_getElem? ho))
  | failed _ opener boots error =>
    exact h.setOpener (o := ⟨boots, .failed error⟩) opener id
  | exit => exact ⟨fun o ho ↦ h.openers o (List.mem_of_mem_filter ho), h.present⟩
  | advance caller outcome after hafter => exact h.move hvetted.writing hafter
  | crash crash after hafter =>
    exact ⟨fun o ho ↦ absurd ho List.not_mem_nil, (h.move hvetted.writing hafter).present⟩
  | answer | wait | get | update | updated | notUpdated | start => exact ⟨h.openers, h.present⟩

end Unmoved

section InEffect

/-- The file says what the memory says, but for the moment between the rename and the end of an
update. -/
structure InEffect (store : DaemonSettingsStore) (s : SettingsState) : Prop where
  /-- Only a daemon that runs has commands. -/
  idle : s.memory = none → s.handlers = []
  /-- Only one daemon starts, and only where none runs. -/
  starting : ∀ o ∈ s.openers, o.boots = true → o.stage.Open → s.memory = none
  single : ∀ (i j : ℕ) (o p : Opener), s.openers[i]? = some o → s.openers[j]? = some p →
    o.boots = true → p.boots = true → o.stage.Open → p.stage.Open → i = j
  /-- One handler at most has the lock. -/
  alone : ∀ (i j : ℕ) (c d : Command × HandlerStage), s.handlers[i]? = some c →
    s.handlers[j]? = some d → c.2.Holds → d.2.Holds → i = j
  /-- A write that is not over belongs to a handler with the lock. -/
  owned : ∀ (k : ℕ) (c : WriteCall) (ph : Phase), s.writes.calls[k]? = some (c, ph) →
    c.path = store.path → ph.Pending →
      ∃ (i : ℕ) (command : Command) (x : DaemonSettings),
        s.handlers[i]? = some (command, .writing k x)
  current : ∀ (i : ℕ) (command : Command) (k : ℕ) (x : DaemonSettings),
    s.handlers[i]? = some (command, .writing k x) →
      ∃ (c : WriteCall) (ph : Phase), s.writes.calls[k]? = some (c, ph) ∧ c.path = store.path ∧
        c.data = store.codec.encode x ∧
        (ph.Landed → store.meaning (s.writes.files.contents store.path) = some x) ∧
        (¬ ph.Landed → store.meaning (s.writes.files.contents store.path) = s.memory)
  rest : (∀ h ∈ s.handlers, ¬ h.2.Holds) → s.memory ≠ none →
    store.meaning (s.writes.files.contents store.path) = s.memory

/-- No `set_permissions` of the settings file fails. -/
def Secured (store : DaemonSettingsStore) (s : SettingsState) : SettingsAction → Prop
  | .write (.advance k outcome) => ∀ c, s.writes.calls[k]? = some (c, .securing) →
      c.path = store.path → outcome.ok = true
  | _ => True

/-- An opener moves on without settings for a daemon. -/
theorem InEffect.setOpener {o : Opener} {i : ℕ} (h : InEffect store s)
    (ho : ¬ (o.boots = true ∧ o.stage.Open)) :
    InEffect store { s with openers := s.openers.set i o } :=
  { h with
    starting := fun p hp hboots hopen ↦ by
      rcases List.mem_or_eq_of_mem_set hp with hp | rfl
      · exact h.starting p hp hboots hopen
      · exact absurd ⟨hboots, hopen⟩ ho
    single := fun j k p q hj hk hp hq hpopen hqopen ↦ by
      rcases getElem?_set_cases hj with ⟨-, rfl⟩ | ⟨-, hj⟩
      · exact absurd ⟨hp, hpopen⟩ ho
      · rcases getElem?_set_cases hk with ⟨-, rfl⟩ | ⟨-, hk⟩
        · exact absurd ⟨hq, hqopen⟩ ho
        · exact h.single j k p q hj hk hp hq hpopen hqopen }

/-- A daemon has started: what it has read is what the file says. -/
theorem InEffect.start {i : ℕ} (h : InEffect store s)
    (ho : s.openers[i]? = some ⟨true, .reading⟩)
    (hx : store.meaning (s.writes.files.contents store.path) = some x) :
    InEffect store (s.opened i true x) := by
  have hmemory := h.starting _ (List.mem_of_getElem? ho) rfl trivial
  have hhandlers := h.idle hmemory
  -- No other daemon starts.
  have hothers : ∀ p ∈ s.openers.set i ⟨true, .opened x⟩, p.boots = true → ¬ p.stage.Open := by
    intro p hp hboots hopen
    obtain ⟨j, hj⟩ := List.mem_iff_getElem?.mp hp
    rcases getElem?_set_cases hj with ⟨-, rfl⟩ | ⟨hij, hj⟩
    · exact hopen
    · exact hij (h.single i j _ p ho hj rfl hboots trivial hopen)
  exact {
    idle := fun hnone ↦ by cases hnone
    starting := fun p hp hboots hopen ↦ absurd hopen (hothers p hp hboots)
    single := fun j k p q hj _ hp _ hpopen ↦
      absurd hpopen (hothers p (List.mem_of_getElem? hj) hp)
    alone := h.alone
    owned := h.owned
    current := fun j command k y hj ↦ by
      rw [show (s.opened i true x).handlers = s.handlers from rfl, hhandlers] at hj
      cases hj
    rest := fun _ _ ↦ hx }

/-- A command arrives. -/
theorem InEffect.receive {c : Command × HandlerStage} (h : InEffect store s)
    (hmemory : s.memory ≠ none) (hc : ¬ c.2.Holds) :
    InEffect store { s with handlers := s.handlers ++ [c] } :=
  { h with
    idle := fun hnone ↦ absurd hnone hmemory
    alone := fun i j a b hi hj ha hb ↦ by
      rcases getElem?_concat_cases hi with hi | ⟨-, rfl⟩
      · rcases getElem?_concat_cases hj with hj | ⟨-, rfl⟩
        · exact h.alone i j a b hi hj ha hb
        · exact absurd hb hc
      · exact absurd ha hc
    owned := fun k call ph hk hpath hpending ↦ by
      obtain ⟨i, command, x, hi⟩ := h.owned k call ph hk hpath hpending
      exact ⟨i, command, x, getElem?_concat_of hi⟩
    current := fun i command k x hi ↦ by
      rcases getElem?_concat_cases hi with hi | ⟨-, rfl⟩
      · exact h.current i command k x hi
      · exact absurd trivial hc
    rest := fun hfree ↦ h.rest fun a ha ↦ hfree a (List.mem_append_left _ ha) }

/-- A handler answers; nobody has the lock then. -/
theorem InEffect.answer {i : ℕ} {command : Command} {result : Except String ResponsePayload}
    {memory : Option DaemonSettings} (h : InEffect store s) (hmemory : s.memory ≠ none)
    (hfree : ∀ j c, i ≠ j → s.handlers[j]? = some c → ¬ c.2.Holds)
    (hover : ∀ command k x c ph, s.handlers[i]? = some (command, .writing k x) →
      s.writes.calls[k]? = some (c, ph) → ¬ ph.Pending)
    (hsome : memory ≠ none)
    (hmeaning : store.meaning (s.writes.files.contents store.path) = memory) :
    InEffect store
      { s with memory, handlers := s.handlers.set i (command, .answered result) } := by
  have hnobody : ∀ (j : ℕ) (c : Command × HandlerStage),
      (s.handlers.set i (command, .answered result))[j]? = some c → ¬ c.2.Holds := by
    intro j c hj hc
    rcases getElem?_set_cases hj with ⟨-, rfl⟩ | ⟨hij, hj⟩
    · exact hc
    · exact hfree j c hij hj hc
  exact {
    idle := fun hnone ↦ absurd hnone hsome
    starting := fun p hp hboots hopen ↦ absurd (h.starting p hp hboots hopen) hmemory
    single := h.single
    alone := fun j _ c _ hj _ hc ↦ absurd hc (hnobody j c hj)
    owned := fun k c ph hk hpath hpending ↦ by
      obtain ⟨j, command', x, hj⟩ := h.owned k c ph hk hpath hpending
      by_cases hij : i = j
      · subst hij
        exact absurd hpending (hover command' k x c ph hj hk)
      · exact absurd trivial (hfree j _ hij hj)
    current := fun j command' k x hj ↦ absurd trivial (hnobody j _ hj)
    rest := fun _ _ ↦ hmeaning }

/-- Commands are for a daemon that runs. -/
theorem InEffect.running {i : ℕ} {c : Command × HandlerStage} (h : InEffect store s)
    (hi : s.handlers[i]? = some c) : s.memory ≠ none := by
  intro hnone
  rw [h.idle hnone] at hi
  cases hi

/-- The handler with the lock answers once its write is over. -/
theorem InEffect.finish {i k : ℕ} {command : Command} {call : WriteCall} {phase : Phase}
    {result : Except String ResponsePayload} {memory : Option DaemonSettings}
    (h : InEffect store s) (hi : s.handlers[i]? = some (command, .writing k x))
    (hcall : s.writes.calls[k]? = some (call, phase)) (hover : ¬ phase.Pending)
    (hsome : memory ≠ none)
    (hmeaning : store.meaning (s.writes.files.contents store.path) = memory) :
    InEffect store
      { s with memory, handlers := s.handlers.set i (command, .answered result) } := by
  refine h.answer (h.running hi) (fun j c hij hj hc ↦ ?_) (fun command' l y c ph hi' hl ↦ ?_)
    hsome hmeaning
  · exact hij (h.alone i j _ c hi hj trivial hc)
  · obtain ⟨-, hstage⟩ := Prod.mk.inj (Option.some.inj (hi.symm.trans hi'))
    obtain ⟨rfl, rfl⟩ := HandlerStage.writing.inj hstage
    obtain ⟨rfl, rfl⟩ := Prod.mk.inj (Option.some.inj (hcall.symm.trans hl))
    exact hover

/-- The handler with the lock starts its write. -/
theorem InEffect.update {i : ℕ} {command : Command} (h : InEffect store s)
    (hmemory : s.memory ≠ none) (hfree : ∀ c ∈ s.handlers, ¬ c.2.Holds)
    (hi : s.handlers[i]? = some (command, .waiting)) (x : DaemonSettings) (uuid : String) :
    InEffect store { s with
      writes := store.startWrite s.writes x uuid
      handlers := s.handlers.set i (command, .writing s.writes.calls.length x) } :=
  { h with
    idle := fun hnone ↦ absurd hnone hmemory
    alone := fun j k c d hj hk hc hd ↦ by
      rcases getElem?_set_cases hj with ⟨hij, -⟩ | ⟨-, hj⟩
      · rcases getElem?_set_cases hk with ⟨hik, -⟩ | ⟨-, hk⟩
        · exact hij.symm.trans hik
        · exact absurd hd (hfree d (List.mem_of_getElem? hk))
      · exact absurd hc (hfree c (List.mem_of_getElem? hj))
    owned := fun k c ph hk hpath hpending ↦ by
      rcases getElem?_concat_cases hk with hk | ⟨rfl, -⟩
      · obtain ⟨j, command', y, hj⟩ := h.owned k c ph hk hpath hpending
        exact absurd trivial (hfree _ (List.mem_of_getElem? hj))
      · exact ⟨i, command, x, getElem?_set_self_of hi⟩
    current := fun j command' k y hj ↦ by
      rcases getElem?_set_cases hj with ⟨-, heq⟩ | ⟨-, hj⟩
      · obtain ⟨-, hwriting⟩ := Prod.mk.inj heq
        obtain ⟨rfl, rfl⟩ := HandlerStage.writing.inj hwriting
        exact ⟨_, .preparing, List.getElem?_concat_length, rfl, rfl, fun hlanded ↦ hlanded.elim,
          fun _ ↦ h.rest hfree hmemory⟩
      · exact absurd trivial (hfree _ (List.mem_of_getElem? hj))
    rest := fun hnobody ↦
      absurd trivial (hnobody _ (List.mem_of_getElem? (getElem?_set_self_of hi))) }

/-- The daemon is gone, and its writes with it. -/
theorem InEffect.exited (h : InEffect store s) : InEffect store s.exited where
  idle _ := rfl
  starting _ _ _ _ := rfl
  single i j o p hi _ ho := by
    have hmem := List.of_mem_filter (List.mem_of_getElem? hi)
    simp [ho] at hmem
  alone i j c d hi := by cases hi
  owned k c ph hk hpath hpending := by
    obtain ⟨d, hd, -, ⟨rfl, hdead⟩ | hfailed⟩ := mem_killed hk
    · obtain ⟨i, command, x, hi⟩ := h.owned k c ph hd hpath hpending
      have hown : s.ofDaemon k = true := by
        rw [SettingsState.ofDaemon, Bool.or_eq_true]
        refine Or.inl (List.any_eq_true.mpr ⟨_, List.mem_of_getElem? hi, ?_⟩)
        simp
      rw [hown] at hdead
      cases hdead
    · obtain rfl : ph = .failed "the process is gone" := hfailed
      exact hpending.elim
  current i command k x hi := by cases hi
  rest _ hsome := absurd rfl hsome

/-- A system call of a write: the rename is what changes the settings. -/
theorem InEffect.advance {caller : ℕ} {outcome : Outcome} {after : WriteState}
    (h : InEffect store s) (hwriting : Writing store.path s.writes)
    (hsecured : Secured store s (.write (.advance caller outcome)))
    (hafter : (writes umask).step s.writes (.advance caller outcome) = some after) :
    InEffect store { s with writes := after } := by
  have hquiet := contents_of_not_replace (store_target store) hwriting hafter
  have hreplace := fun w ↦ contents_of_replace (w := w) (store_target store) hwriting hafter
  obtain ⟨⟨call, phase⟩, hcaller, hafter⟩ := Option.bind_eq_some_iff.mp hafter
  obtain ⟨⟨next, files⟩, hadvance, hafter⟩ := Option.bind_eq_some_iff.mp hafter
  obtain rfl := Option.some.inj hafter
  have hoperation : operation store.path s.writes (.advance caller outcome) =
      phase.operation store.path call outcome s.writes.files := by rw [operation, hcaller]
  rw [hoperation] at hquiet hreplace
  have howned : ∀ (k : ℕ) (c : WriteCall) (ph : Phase),
      (s.writes.calls.set caller (call, next))[k]? = some (c, ph) → c.path = store.path →
        ph.Pending → ∃ (i : ℕ) (command : Command) (x : DaemonSettings),
          s.handlers[i]? = some (command, .writing k x) := by
    intro k c ph hk hpath hpending
    rcases getElem?_set_cases hk with ⟨rfl, heq⟩ | ⟨-, hk⟩
    · obtain ⟨rfl, rfl⟩ := Prod.mk.inj heq
      exact h.owned caller c phase hcaller hpath (pending_of_advance hadvance hpending)
    · exact h.owned k c ph hk hpath hpending
  by_cases hnone : ∀ w, .replace w ∉ phase.operation store.path call outcome s.writes.files
  · have hcontents := hquiet hnone
    refine { h with owned := howned, current := fun i command k x hi ↦ ?_, rest := ?_ }
    · obtain ⟨c, ph, hk, hpath, hdata, hlanded, hbefore⟩ := h.current i command k x hi
      rw [hcontents]
      by_cases hkc : caller = k
      · subst hkc
        obtain ⟨rfl, rfl⟩ := Prod.mk.inj (Option.some.inj (hcaller.symm.trans hk))
        refine ⟨call, next, getElem?_set_self_of hk, hpath, hdata, fun hnext ↦ ?_,
          fun hnext ↦ hbefore fun hphase ↦ ?_⟩
        · rcases landed_of_advance hadvance hnext with hphase | hmem
          · exact hlanded hphase
          · exact absurd (hpath ▸ hmem) (hnone _)
        · rcases landed_advance hadvance hphase with hlanded | ⟨rfl, hfailed⟩
          · exact hnext hlanded
          · rw [hsecured call hcaller hpath] at hfailed
            cases hfailed
      · exact ⟨c, ph, by rw [List.getElem?_set_ne hkc, hk], hpath, hdata, hlanded, hbefore⟩
    · rw [hcontents]
      exact h.rest
  · obtain ⟨w, hw⟩ := not_forall_not.mp hnone
    obtain ⟨hpending, hnext, hpath, rfl, -⟩ :=
      of_replace_mem hadvance (hwriting.held _ (List.mem_of_getElem? hcaller)) hw
    obtain ⟨i, command, x, hi⟩ := h.owned caller call phase hcaller hpath hpending
    refine { h with
      owned := howned
      current := fun j command' k y hj ↦ ?_
      rest := fun hnobody ↦ absurd trivial (hnobody _ (List.mem_of_getElem? hi)) }
    obtain rfl := h.alone i j _ _ hi hj trivial trivial
    obtain ⟨rfl, hstage⟩ := Prod.mk.inj (Option.some.inj (hi.symm.trans hj))
    obtain ⟨rfl, rfl⟩ := HandlerStage.writing.inj hstage
    obtain ⟨c, ph, hk, hpath', hdata, -⟩ := h.current i command caller x hi
    obtain ⟨rfl, rfl⟩ := Prod.mk.inj (Option.some.inj (hcaller.symm.trans hk))
    refine ⟨call, next, getElem?_set_self_of hk, hpath, hdata, fun _ ↦ ?_, absurd hnext⟩
    rw [hreplace _ hw, hdata, meaning_encode]

theorem inEffect_step {action : SettingsAction} (hvetted : Vetted store before done s)
    (hunmoved : Unmoved store before s) (hsecured : Secured store s action)
    (hbefore : ∀ v ∈ before, store.meaning v ≠ none) (h : InEffect store s)
    (hstep : (store.machine umask).step s action = some t) : InEffect store t := by
  cases settingsStep_of_step hstep with
  | openFile boots hboots =>
    refine { h with
      starting := fun o ho hb hopen ↦ ?_
      single := fun i j o p hi hj hb hb' hopen hopen' ↦ ?_ }
    · rcases List.mem_append.mp ho with ho | ho
      · exact h.starting o ho hb hopen
      · rw [List.mem_singleton.mp ho] at hb
        exact (hboots hb).1
    · rcases getElem?_concat_cases hi with hi | ⟨hlast, rfl⟩
      · rcases getElem?_concat_cases hj with hj | ⟨-, rfl⟩
        · exact h.single i j o p hi hj hb hb' hopen hopen'
        · exact absurd ⟨o, List.mem_of_getElem? hi, hb, hopen⟩ (hboots hb').2
      · rcases getElem?_concat_cases hj with hj | ⟨hlast', -⟩
        · exact absurd ⟨p, List.mem_of_getElem? hj, hb', hopen'⟩ (hboots hb).2
        · exact hlast.trans hlast'.symm
  | read opener boots settings ho hmeaning =>
    cases boots with
    | true => exact h.start ho hmeaning
    | false => exact h.setOpener fun hboots ↦ by cases hboots.1
  | malformed opener boots ho hmeaning =>
    exact absurd hmeaning (hvetted.meaning_ne_none hbefore)
  | quarantine opener boots uuid temporary ho =>
    exact absurd trivial (hunmoved.openers _ (List.mem_of_getElem? ho))
  | restored opener boots write ho =>
    exact absurd trivial (hunmoved.openers _ (List.mem_of_getElem? ho))
  | failed _ opener boots error => exact h.setOpener fun hopen ↦ hopen.2
  | answer command result hmemory => exact h.receive hmemory id
  | wait command hmemory => exact h.receive hmemory id
  | get handler uuid memory hmemory hfree =>
    have hsome : s.memory ≠ none := hmemory ▸ Option.some_ne_none memory
    exact h.answer hsome (fun j c _ hj ↦ hfree c (List.mem_of_getElem? hj))
      (fun command k x c ph hi ↦ absurd trivial (hfree _ (List.mem_of_getElem? hi)))
      hsome (h.rest hfree hsome)
  | update handler uuid settings hmemory hfree hh => exact h.update hmemory hfree hh settings uuid
  | updated handler command write settings call hh hcall =>
    obtain ⟨c, ph, hk, -, -, hlanded, -⟩ := h.current handler command write settings hh
    obtain ⟨rfl, rfl⟩ := Prod.mk.inj (Option.some.inj (hcall.symm.trans hk))
    exact h.finish hh hcall id (Option.some_ne_none settings) (hlanded trivial)
  | notUpdated handler command write settings call error hh hcall =>
    obtain ⟨c, ph, hk, -, -, -, hbefore⟩ := h.current handler command write settings hh
    obtain ⟨rfl, rfl⟩ := Prod.mk.inj (Option.some.inj (hcall.symm.trans hk))
    exact h.finish hh hcall id (h.running hh) (hbefore id)
  | exit => exact h.exited
  | start call hcall =>
    exact { h with
      owned := fun k c ph hk hpath hpending ↦ by
        rcases getElem?_concat_cases hk with hk | ⟨-, heq⟩
        · exact h.owned k c ph hk hpath hpending
        · obtain ⟨rfl, -⟩ := Prod.mk.inj heq
          exact absurd hpath hcall
      current := fun i command k x hi ↦ by
        obtain ⟨c, ph, hk, hrest⟩ := h.current i command k x hi
        exact ⟨c, ph, getElem?_concat_of hk, hrest⟩ }
  | advance caller outcome after hafter => exact h.advance hvetted.writing hsecured hafter
  | crash crash after hafter hnone =>
    exact {
      idle := fun _ ↦ rfl
      starting := fun o ho ↦ absurd ho List.not_mem_nil
      single := fun i j o p hi ↦ by cases hi
      alone := fun i j c d hi ↦ by cases hi
      owned := fun k c ph hk ↦ by
        rw [hnone] at hk
        cases hk
      current := fun i command k x hi ↦ by cases hi
      rest := fun _ hsome ↦ absurd rfl hsome }

end InEffect

/-- Somebody has the settings: the daemon in memory, a client in an answer, or an opener. -/
def SettingsState.Shows (s : SettingsState) (x : DaemonSettings) : Prop :=
  s.memory = some x ∨ (∃ command, (command, .answered (.ok (.settings x))) ∈ s.handlers) ∨
    ∃ o ∈ s.openers, o.stage = .opened x

theorem Vetted.known_of_shows (h : Vetted store before done s) (hx : s.Shows x) :
    Known store before done x := by
  rcases hx with hx | ⟨command, hx⟩ | ⟨o, ho, hx⟩
  · exact h.memory x hx
  · exact h.handlers _ hx x rfl
  · exact h.openers o ho x hx

/-- An update is between the rename and its end. -/
def SettingsState.Landing (s : SettingsState) (x : DaemonSettings) : Prop :=
  ∃ (command : Command) (k : ℕ) (c : WriteCall) (ph : Phase),
    (command, .writing k x) ∈ s.handlers ∧ s.writes.calls[k]? = some (c, ph) ∧ ph.Landed

theorem InEffect.in_effect {m : DaemonSettings} (h : InEffect store s) (hm : s.memory = some m) :
    store.meaning (s.writes.files.contents store.path) = some m ∨
      ∃ x, s.Landing x ∧ store.meaning (s.writes.files.contents store.path) = some x := by
  by_cases hfree : ∀ c ∈ s.handlers, ¬ c.2.Holds
  · exact Or.inl ((h.rest hfree (hm ▸ Option.some_ne_none m)).trans hm)
  · push Not at hfree
    obtain ⟨⟨command, stage⟩, hc, hholds⟩ := hfree
    cases stage with
    | writing k x =>
      obtain ⟨i, hi⟩ := List.mem_iff_getElem?.mp hc
      obtain ⟨call, ph, hk, -, -, hlanded, hbefore⟩ := h.current i command k x hi
      by_cases hph : ph.Landed
      · exact Or.inr ⟨x, ⟨command, k, call, ph, hc, hk, hph⟩, hlanded hph⟩
      · exact Or.inl ((hbefore hph).trans hm)
    | waiting => exact hholds.elim
    | answered result => exact hholds.elim

/-- **The settings in effect.** In every run of commands, openers, exits, restarts and crashes,
next to all other writers of the disk: the file only ever holds what it held at the start, the
defaults or an update whose URL was allowed, and nobody has other settings. Where all that it held
at the start is well formed, it is never moved away, not even by one that reads in the middle of a
write; and as long as no `set_permissions` of it fails, what the daemon has in memory is what the
file says, or an update has just renamed its file and answers next. -/
theorem settings_in_effect (umask : Mode) (store : DaemonSettingsStore) (s t : SettingsState)
    (hcalls : s.writes.calls = []) (hmemory : s.memory = none) (hhandlers : s.handlers = [])
    (hopeners : s.openers = []) (hsound : s.writes.files.Sound store.path)
    (actions : List SettingsAction) (hrun : (store.machine umask).run s actions = some t) :
    (∀ v ∈ (t.writes.files.register store.path).values,
        v ∈ (s.writes.files.register store.path).values ∨ v = none ∨
          ∃ x, Writable actions x ∧ v = some (store.codec.encode x)) ∧
      (∀ x, t.Shows x → Known store (s.writes.files.register store.path).values actions x) ∧
      ((∀ v ∈ (s.writes.files.register store.path).values, store.meaning v ≠ none) →
        (∀ o ∈ t.openers, ¬ o.stage.Replaces) ∧
        (none ∈ (t.writes.files.register store.path).values →
          none ∈ (s.writes.files.register store.path).values) ∧
        ((store.machine umask).Meets (Secured store) s actions → ∀ m, t.memory = some m →
          store.meaning (t.writes.files.contents store.path) = some m ∨
            ∃ x, t.Landing x ∧
              store.meaning (t.writes.files.contents store.path) = some x)) := by
  have hstart : Vetted store (s.writes.files.register store.path).values [] s := by
    refine ⟨writing_of_idle hcalls hsound, fun v hv ↦ Or.inl hv, fun c hc ↦ ?_, fun x hx ↦ ?_,
      fun c hc ↦ ?_, fun o ho ↦ ?_⟩
    · exact absurd (hcalls ▸ hc) List.not_mem_nil
    · rw [hmemory] at hx
      cases hx
    · exact absurd (hhandlers ▸ hc) List.not_mem_nil
    · exact absurd (hopeners ▸ ho) List.not_mem_nil
  have hunmoved : Unmoved store (s.writes.files.register store.path).values s :=
    ⟨fun o ho ↦ absurd (hopeners ▸ ho) List.not_mem_nil, id⟩
  have hvetted : Vetted store _ actions t :=
    Machine.run_induction hstart (fun h (_ : True) hstep ↦ vetted_step h hstep)
      (Machine.meets_of_forall (fun _ _ _ ↦ trivial) s) hrun
  refine ⟨hvetted.values, fun x hx ↦ hvetted.known_of_shows hx, fun hbefore ↦ ?_⟩
  have hboth : Vetted store _ actions t ∧ Unmoved store _ t :=
    Machine.run_induction (I := fun done u ↦ Vetted store _ done u ∧ Unmoved store _ u)
      ⟨hstart, hunmoved⟩
      (fun h (_ : True) hstep ↦ ⟨vetted_step h.1 hstep, unmoved_step h.1 hbefore h.2 hstep⟩)
      (Machine.meets_of_forall (fun _ _ _ ↦ trivial) s) hrun
  refine ⟨hboth.2.openers, hboth.2.present, fun hsecured m hm ↦ ?_⟩
  have hidle : InEffect store s := by
    constructor <;> simp [hcalls, hmemory, hhandlers, hopeners]
  have hall : Vetted store _ actions t ∧ Unmoved store _ t ∧ InEffect store t :=
    Machine.run_induction
      (I := fun done u ↦ Vetted store _ done u ∧ Unmoved store _ u ∧ InEffect store u)
      ⟨hstart, hunmoved, hidle⟩
      (fun h hgood hstep ↦ ⟨vetted_step h.1 hstep, unmoved_step h.1 hbefore h.2.1 hstep,
        inEffect_step h.1 h.2.1 hgood hbefore h.2.2 hstep⟩)
      hsecured hrun
  exact hall.2.2.in_effect hm

/-- The settings file of a daemon, with its layout. -/
def daemonSettings : DaemonSettingsStore := ⟨settingsPath, rfl, PrettyJson.settingsCodec⟩

/-- Settings with a hook on the machine itself. -/
def withHook : DaemonSettings := ⟨45, 1800, some "http://localhost:9000/daku"⟩

/-- A daemon starts, refuses one update, and is asked for its settings while it makes another;
somebody else opens the file between the rename and the end of it. -/
def settingsCalls : List SettingsAction :=
  [.openFile true, .read 0 none, .call (.updateSettings ⟨45, 1800, some "http://example.com"⟩),
    .call (.updateSettings withHook), .call .getSettings, .lock 1 "a"] ++
    List.replicate 6 (.write (.advance 0 ⟨true, 200⟩)) ++
    [.openFile false, .read 1 none] ++
    List.replicate 2 (.write (.advance 0 ⟨true, 200⟩)) ++ [.finish 1, .lock 2 "b"]

theorem secured_settingsCalls : ∀ a ∈ settingsCalls, ∀ u, Secured daemonSettings u a := by
  simp only [settingsCalls, List.forall_mem_append, List.forall_mem_cons, List.mem_replicate]
  simp [Secured]

set_option maxRecDepth 20000 in
/-- The update is in the memory, and in the file. -/
theorem settings_in_effect_calls :
    ∃ t, (daemonSettings.machine 0o022).run ⟨⟨noFiles, []⟩, none, [], []⟩ settingsCalls = some t ∧
      t.memory = some withHook ∧ Known daemonSettings [none] settingsCalls withHook ∧
      (daemonSettings.meaning (t.writes.files.contents settingsPath) = some withHook ∨
        ∃ x, t.Landing x ∧
          daemonSettings.meaning (t.writes.files.contents settingsPath) = some x) := by
  refine ⟨_, rfl, rfl, ?_⟩
  have heffect := settings_in_effect 0o022 daemonSettings ⟨⟨noFiles, []⟩, none, [], []⟩ _ rfl rfl
    rfl rfl (sound_noFiles _ _) settingsCalls rfl
  refine ⟨heffect.2.1 withHook (Or.inl rfl), (heffect.2.2 fun v hv ↦ ?_).2.2
    (Machine.meets_of_forall secured_settingsCalls _) withHook rfl⟩
  rw [List.mem_singleton.mp hv]
  exact Option.some_ne_none _

end Daku.Files
