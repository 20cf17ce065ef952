import Daku.Collector.Stored
import Daku.Signals.DriftCollector

/-!
# Rounds of a collector over all Environments

What holds while `DriftCollector` (`crates/daku-core/src/drift.rs:108–308`) or `LastCloneCollector`
(`last_clone.rs:171–324`) goes through its Environments: those it is done with have a snapshot of
this collect, only those that are not gone were asked, and an inventory is kept only if both its
pages were read. Each thing a collector does preserves this.
-/

namespace Daku.Signals

open Daku.Base Daku.Protocol Daku.Http Daku.Collector Daku.Store Daku.Health

section Rules

variable {α : Type} {P : Daemon → Prop} {E : String → Daemon → Prop}

theorem viaStore_query (f : Db → α) :
    Triple P (viaStore (Prog.query f)) (fun a d ↦ a = f d.db ∧ P d) E :=
  fun _ hd ↦ ⟨rfl, hd⟩

/-- A program of the client changes the client only. -/
theorem viaClient_triple {x : ClientM α} {Q : α → Session → Prop} {R : String → Session → Prop}
    {d : Daemon} (h : Triple (fun s ↦ s = d.session) x Q R) :
    Triple (fun t ↦ t = d) (viaClient x)
      (fun a t ↦ t = { d with session := t.session } ∧ Q a t.session)
      (fun e t ↦ t = { d with session := t.session } ∧ R e t.session) := by
  rintro t rfl
  have h := h t.session rfl
  rw [viaClient]
  cases hx : x t.session with
  | ok a s =>
    rw [hx] at h
    exact ⟨rfl, h⟩
  | error e s =>
    rw [hx] at h
    exact ⟨rfl, h⟩

/-- A caught program leaves its error as a value. -/
theorem caught_triple {x : CollectM α} {Q : α → Daemon → Prop} (h : Triple P x Q E)
    {E' : String → Daemon → Prop} :
    Triple P (caught x) (fun r d ↦ match r with
      | .ok a => Q a d
      | .error e => E e d) E' := by
  intro d hd
  have h := h d hd
  rw [caught]
  cases hx : x d with
  | ok a t =>
    rw [hx] at h
    exact h
  | error e t =>
    rw [hx] at h
    exact h

/-- The rule of a loop, with a condition on the elements that are left. -/
theorem forEach_triple {f : α → CollectM Unit} (I : List α → Daemon → Prop) (as : List α)
    (h : ∀ a ∈ as, ∀ rest, Triple (I (a :: rest)) (f a) (fun _ ↦ I rest) E) :
    Triple (I as) (forEach as f) (fun _ ↦ I []) E := by
  induction as with
  | nil => exact Triple.pure fun _ hd ↦ hd
  | cons a as ih =>
    refine Triple.bind (fun _ ↦ I as) (h a List.mem_cons_self as) fun _ ↦ ih fun b hb ↦ ?_
    exact h b (List.mem_cons_of_mem a hb)

end Rules

/-- A request that is made for the data of an Environment, or for a token of it. -/
def AskedOf (environment : EnvironmentConfig) (sent : Sent) : Prop :=
  (∃ body, sent.request = tokenRequest environment body) ∨
    ∃ path headers, sent.request = dataRequest environment "GET" path none headers

/-- The client after a chain of requests, each for an Environment that may be asked. -/
inductive Asked (codec : Codec) (credentials : CredentialStore) (may : EnvironmentConfig → Prop)
    (s : Session) : Session → Prop where
  | nothing : Asked codec credentials may s s
  | request {t : Session} {environment : EnvironmentConfig} {path : String}
      (h : Asked codec credentials may s t) (hmay : may environment) :
      Asked codec credentials may s (final (getPath codec environment credentials path t))

section Asked

variable {codec : Codec} {credentials : CredentialStore} {may : EnvironmentConfig → Prop}
  {environment : EnvironmentConfig} {path : String} {s t : Session}

theorem transport_getPath :
    (final (getPath codec environment credentials path s)).transport = s.transport := by
  obtain ⟨_, hcalls, -⟩ := exists_calls codec environment credentials "GET" path none s
  exact hcalls.transport

/-- A request only appends requests that are made for its Environment. -/
theorem sent_getPath :
    ∃ calls, (final (getPath codec environment credentials path s)).sent = s.sent ++ calls ∧
      ∀ call ∈ calls, AskedOf environment call := by
  obtain ⟨calls, hcalls, hrequested⟩ := exists_calls codec environment credentials "GET" path none s
  refine ⟨_, hcalls.sent_eq, fun call hcall ↦ ?_⟩
  obtain ⟨c, hc, hcall⟩ := List.mem_flatMap.mp hcall
  rw [List.eq_of_mem_replicate hcall]
  cases hrequested.forall_calls c hc with
  | inl htoken =>
    obtain ⟨-, cred, origin, hsent⟩ := htoken
    exact Or.inl ⟨_, congrArg Sent.request hsent⟩
  | inr hdata =>
    obtain ⟨headers, origin, hsent⟩ := hdata
    exact Or.inr ⟨path, headers, congrArg Sent.request hsent⟩

/-- The response that a request ends with is an answer of the transport. -/
theorem answered_getPath {response : HttpResponse}
    (h : getPath codec environment credentials path s = .ok response t) :
    ∃ headers origin n, s.sent.length ≤ n ∧
      t.sent[n]? = some ⟨dataRequest environment "GET" path none headers, origin⟩ ∧
      t.transport n (dataRequest environment "GET" path none headers) = .ok response := by
  obtain ⟨calls, hcalls, hrequested⟩ := exists_calls codec environment credentials "GET" path none s
  rw [getPath] at h
  rw [outcome, h] at hrequested
  rw [h] at hcalls
  obtain ⟨earlier, d, rfl, ⟨headers, origin, hsent⟩, hanswer⟩ :=
    (endsWithLast_requested hrequested).response response rfl
  obtain ⟨n, hn, hat, hgiven⟩ :=
    hcalls.answered (List.mem_append_right earlier (List.mem_singleton_self d))
  rw [hsent] at hat hgiven
  refine ⟨headers, origin, n, hn, hat, ?_⟩
  rw [← hanswer, ← hgiven]
  exact congrFun (congrFun hcalls.transport n) _

theorem Asked.mono {may' : EnvironmentConfig → Prop} (h : Asked codec credentials may s t)
    (hmono : ∀ e, may e → may' e) : Asked codec credentials may' s t := by
  induction h with
  | nothing => exact .nothing
  | request _ hmay ih => exact ih.request (hmono _ hmay)

theorem Asked.transport (h : Asked codec credentials may s t) : t.transport = s.transport := by
  induction h with
  | nothing => rfl
  | request _ _ ih => exact transport_getPath.trans ih

theorem Asked.sent (h : Asked codec credentials may s t) :
    ∃ calls, t.sent = s.sent ++ calls ∧ ∀ call ∈ calls, ∃ e, may e ∧ AskedOf e call := by
  induction h with
  | nothing => exact ⟨[], (List.append_nil _).symm, fun _ h ↦ absurd h List.not_mem_nil⟩
  | request _ hmay ih =>
    obtain ⟨calls, hsent, hall⟩ := ih
    obtain ⟨calls', hsent', hall'⟩ := sent_getPath
    refine ⟨calls ++ calls', ?_, List.forall_mem_append.mpr ⟨hall, fun call hcall ↦ ?_⟩⟩
    · rw [hsent', hsent, List.append_assoc]
    · exact ⟨_, hmay, hall' call hcall⟩

/-- Where nobody may be asked the client is the same. -/
theorem Asked.eq_of_nobody (h : Asked codec credentials (fun _ ↦ False) s t) : t = s := by
  cases h with
  | nothing => rfl
  | request _ hmay => exact hmay.elim

end Asked

/-- A collect: what it works with, the Signal that it writes, and where it starts from. -/
structure Round where
  codec : Codec
  texts : Texts
  credentials : CredentialStore
  environments : List EnvironmentConfig
  observedAt : Int
  signalId : String
  start : Daemon

namespace Round

variable (x : Round)

/-- An Environment of the collect that availability had not lately found gone at the start. -/
def Live (environment : EnvironmentConfig) : Prop :=
  environment ∈ x.environments ∧
    recentlyGone x.codec.fromStr environment.id x.observedAt x.start.db = none

/-- The Environment has a snapshot of this collect. -/
def Stored (environmentId : String) (db : Db) : Prop :=
  ∃ row, loadSignalSnapshot environmentId x.signalId db = some row ∧
    row.observedAt = x.observedAt

/-- A page of plugins that was read off a response since the start. -/
def PageRead (environment : EnvironmentConfig) (path : String) (page : List PluginRecord × Bool)
    (s : Session) : Prop :=
  ∃ response headers origin n, x.start.session.sent.length ≤ n ∧
    s.sent[n]? = some ⟨dataRequest environment "GET" path none headers, origin⟩ ∧
    s.transport n (dataRequest environment "GET" path none headers) = .ok response ∧
    readPluginPage x.codec x.texts response = .ok page

/-- An inventory that both pages were read for since the start. -/
def InventoryRead (environment : EnvironmentConfig) (entry : CachedInventory) (s : Session) :
    Prop :=
  ∃ plugins storeApps, x.PageRead environment sysPluginsPath plugins s ∧
    x.PageRead environment sysStoreAppPath storeApps s ∧
    entry = ⟨x.observedAt, plugins.1 ++ storeApps.1, plugins.2 || storeApps.2⟩

/-- The memo of an Environment is as it was, or one of an inventory that was read. -/
def Kept (may : EnvironmentConfig → Prop) (environmentId : String) (d : Daemon) : Prop :=
  d.inventories environmentId = x.start.inventories environmentId ∨
    ∃ e entry, may e ∧ e.id = environmentId ∧ d.inventories environmentId = some entry ∧
      x.InventoryRead e entry d.session

/-- What holds in the middle of a collect that is not done with the pending Environments. -/
structure Underway (may : EnvironmentConfig → Prop) (pending : List EnvironmentConfig)
    (d : Daemon) : Prop where
  asked : Asked x.codec x.credentials may x.start.session d.session
  available : ∀ environmentId, loadSignalSnapshot environmentId availabilitySignalId d.db =
    loadSignalSnapshot environmentId availabilitySignalId x.start.db
  stored : ∀ e ∈ x.environments, x.Stored e.id d.db ∨ e ∈ pending
  kept : ∀ environmentId, x.Kept may environmentId d

/-- What a collect leaves. -/
structure Covers (d : Daemon) : Prop where
  /-- Every Environment has a snapshot of it. -/
  stored : ∀ e ∈ x.environments, x.Stored e.id d.db
  /-- The client made requests for Environments that were not gone, and no others. -/
  asked : Asked x.codec x.credentials x.Live x.start.session d.session
  /-- So everything it sent is theirs. -/
  sent : ∃ calls, d.session.sent = x.start.session.sent ++ calls ∧
    ∀ call ∈ calls, ∃ e, x.Live e ∧ AskedOf e call
  /-- If the clone source is gone, the client did nothing. -/
  quiet : ∀ source, x.environments.find? EnvironmentConfig.cloneSource = some source →
    ¬ x.Live source → d.session = x.start.session
  /-- Only an inventory that was read is kept. -/
  kept : ∀ environmentId, x.Kept x.Live environmentId d

end Round

section Steps

variable {x : Round} {may : EnvironmentConfig → Prop} {pending pending' : List EnvironmentConfig}
  {d : Daemon} {environment : EnvironmentConfig} {path : String}

theorem Round.underway_start (x : Round) (may : EnvironmentConfig → Prop) :
    x.Underway may x.environments x.start where
  asked := .nothing
  available _ := rfl
  stored _ he := Or.inr he
  kept _ := Or.inl rfl

/-- Availability says the same all the time. -/
theorem Round.Underway.gone_eq (h : x.Underway may pending d) (environmentId : String) :
    recentlyGone x.codec.fromStr environmentId x.observedAt d.db =
      recentlyGone x.codec.fromStr environmentId x.observedAt x.start.db := by
  simp only [recentlyGone, recentReachability, h.available]

theorem Round.Underway.sent_le (h : x.Underway may pending d) :
    x.start.session.sent.length ≤ d.session.sent.length := by
  obtain ⟨calls, hsent, -⟩ := h.asked.sent
  rw [hsent, List.length_append]
  omega

theorem Round.PageRead.after {page : List PluginRecord × Bool} {path' : String}
    {other : EnvironmentConfig} {s : Session} (h : x.PageRead environment path page s) :
    x.PageRead environment path page (final (getPath x.codec other x.credentials path' s)) := by
  obtain ⟨response, headers, origin, n, hn, hsent, hanswer, hread⟩ := h
  refine ⟨response, headers, origin, n, hn, ?_, ?_, hread⟩
  · obtain ⟨calls, heq, -⟩ := @sent_getPath x.codec x.credentials other path' s
    rw [heq, List.getElem?_append_left (List.getElem?_eq_some_iff.mp hsent).1]
    exact hsent
  · rw [transport_getPath]
    exact hanswer

/-- The daemon after one more request. -/
def Round.request (x : Round) (environment : EnvironmentConfig) (path : String) (d : Daemon) :
    Daemon :=
  { d with session := final (getPath x.codec environment x.credentials path d.session) }

theorem Round.Underway.request (h : x.Underway may pending d) (hmay : may environment)
    (path : String) : x.Underway may pending (x.request environment path d) where
  asked := h.asked.request hmay
  available := h.available
  stored := h.stored
  kept environmentId := by
    obtain hsame | ⟨e, entry, he, hid, hentry, plugins, storeApps, hplugins, hstoreApps, heq⟩ :=
      h.kept environmentId
    · exact Or.inl hsame
    · exact Or.inr ⟨e, entry, he, hid, hentry, plugins, storeApps, hplugins.after,
        hstoreApps.after, heq⟩

theorem Round.getPath_triple (x : Round) (environment : EnvironmentConfig) (path : String)
    (d : Daemon) :
    Triple (fun t ↦ t = d) (viaClient (getPath x.codec environment x.credentials path))
      (fun _ t ↦ t = x.request environment path d)
      (fun _ t ↦ t = x.request environment path d) := by
  refine (viaClient_triple (Triple.self _ _)).weaken (fun _ h ↦ h) ?_ ?_
  · rintro response t ⟨ht, hget⟩
    rw [Round.request, hget]
    exact ht
  · rintro e t ⟨ht, hget⟩
    rw [Round.request, hget]
    exact ht

/-- A request for a page ends with what is read off its response. -/
theorem Round.fetchPluginPage_triple (x : Round) (environment : EnvironmentConfig) (path : String)
    {d : Daemon} (hd : x.start.session.sent.length ≤ d.session.sent.length) :
    Triple (fun t ↦ t = d)
      (viaClient (fetchPluginPage x.codec x.texts x.credentials environment path))
      (fun page t ↦ t = x.request environment path d ∧ x.PageRead environment path page t.session)
      (fun _ t ↦ t = x.request environment path d) := by
  have hpage : Triple (fun s ↦ s = d.session)
      (fetchPluginPage x.codec x.texts x.credentials environment path)
      (fun page s ↦ s = final (getPath x.codec environment x.credentials path d.session) ∧
        x.PageRead environment path page s)
      (fun _ s ↦ s = final (getPath x.codec environment x.credentials path d.session)) := by
    refine Triple.bind _ ((Triple.self _ _).weaken (fun _ h ↦ h) (fun _ _ h ↦ h) ?_)
      fun response ↦ Triple.of_forall fun s hget ↦ ?_
    · intro e s hget
      rw [hget]
      rfl
    have hs : s = final (getPath x.codec environment x.credentials path d.session) := by
      rw [hget]
      rfl
    obtain ⟨headers, origin, n, hn, hsent, hanswer⟩ := answered_getPath hget
    apply Triple.ofExcept
    · rintro page hread _ rfl
      exact ⟨hs, response, headers, origin, n, hd.trans hn, hsent, hanswer, hread⟩
    · rintro e - _ rfl
      exact hs
  refine (viaClient_triple hpage).weaken (fun _ h ↦ h) ?_ ?_
  · rintro page t ⟨ht, hs, hread⟩
    exact ⟨ht.trans (by rw [hs]; rfl), hread⟩
  · rintro e t ⟨ht, hs⟩
    exact ht.trans (by rw [hs]; rfl)

/-- A snapshot is written: its Environment is not pending any more. -/
theorem Round.Underway.persist (h : x.Underway may pending d)
    (hsignal : x.signalId ≠ availabilitySignalId) {row : SignalSnapshot}
    (hrow : row.signalId = x.signalId) (hat : row.observedAt = x.observedAt)
    (hpending : ∀ e ∈ pending, e.id ≠ row.environmentId → e ∈ pending') :
    x.Underway may pending' { d with db := commit (Statement.upsertSignalSnapshot row) d.db } where
  asked := h.asked
  available environmentId := by
    have hne : row.key ≠ (environmentId, availabilitySignalId) := fun heq ↦
      hsignal (hrow.symm.trans (Prod.mk.inj heq).2)
    show loadSignalSnapshot environmentId availabilitySignalId
      (commit (Statement.upsertSignalSnapshot row) d.db) = _
    rw [loadSignalSnapshot_upsert, if_neg hne]
    exact h.available environmentId
  stored e he := by
    by_cases hkey : row.key = (e.id, x.signalId)
    · left
      refine ⟨row, ?_, hat⟩
      rw [loadSignalSnapshot_upsert, if_pos hkey]
    · cases h.stored e he with
      | inl hstored =>
        left
        unfold Round.Stored
        rw [loadSignalSnapshot_upsert, if_neg hkey]
        exact hstored
      | inr hmem =>
        right
        apply hpending e hmem
        intro heq
        exact hkey (Prod.ext heq.symm hrow)
  kept := h.kept

theorem Round.persist_triple {toText : ToText} {environmentId signalId : String}
    {state : SignalState} {payload : Value} {E : String → Daemon → Prop}
    (hsignal : x.signalId = signalId) (hne : signalId ≠ availabilitySignalId)
    (hpending : ∀ e ∈ pending, e.id ≠ environmentId → e ∈ pending') :
    Triple (x.Underway may pending)
      (viaStore (persistSignalSnapshot toText environmentId signalId x.observedAt state payload))
      (fun _ ↦ x.Underway may pending') E := by
  subst hsignal
  intro d hd
  exact hd.persist hne rfl rfl hpending

/-- In a loop over Environments each turn is done with its own. -/
theorem mem_of_mem_cons_of_ne {e : EnvironmentConfig} :
    ∀ e' ∈ e :: pending, e'.id ≠ e.id → e' ∈ pending := by
  intro e' hmem hne
  apply List.mem_of_ne_of_mem _ hmem
  intro heq
  exact hne (congrArg EnvironmentConfig.id heq)

/-- An inventory that was read is kept. -/
theorem Round.Underway.keep {entry : CachedInventory} (h : x.Underway may pending d)
    (hmay : may environment) (hread : x.InventoryRead environment entry d.session) :
    x.Underway may pending
      { d with inventories := Function.update d.inventories environment.id (some entry) } where
  asked := h.asked
  available := h.available
  stored := h.stored
  kept environmentId := by
    by_cases heq : environmentId = environment.id
    · subst heq
      exact Or.inr ⟨environment, entry, hmay, rfl, Function.update_self _ _ _, hread⟩
    · have hother := Function.update_of_ne heq (some entry) d.inventories
      obtain hsame | ⟨e, entry', he, hid, hentry, hread'⟩ := h.kept environmentId
      · exact Or.inl (hother.trans hsame)
      · exact Or.inr ⟨e, entry', he, hid, hother.trans hentry, hread'⟩

/-- A collect that is done with every Environment covers them. -/
theorem Round.Underway.covers (h : x.Underway may [] d) (hmay : ∀ e, may e → x.Live e)
    (hquiet : ∀ source, x.environments.find? EnvironmentConfig.cloneSource = some source →
      ¬ x.Live source → d.session = x.start.session) : x.Covers d where
  stored e he := (h.stored e he).resolve_right List.not_mem_nil
  asked := h.asked.mono hmay
  sent := (h.asked.mono hmay).sent
  quiet := hquiet
  kept environmentId := by
    obtain hsame | ⟨e, entry, he, hread⟩ := h.kept environmentId
    · exact Or.inl hsame
    · exact Or.inr ⟨e, entry, hmay e he, hread⟩

/-- So does one that asks nobody. -/
theorem Round.Underway.covers_of_nobody (h : x.Underway (fun _ ↦ False) [] d) : x.Covers d :=
  h.covers (fun _ hfalse ↦ hfalse.elim) fun _ _ _ ↦ h.asked.eq_of_nobody

end Steps

end Daku.Signals
