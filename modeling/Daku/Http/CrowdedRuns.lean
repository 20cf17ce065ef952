import Daku.Http.Crowding

/-!
# Crowded runs

The run in which requests keep each other waiting, `crates/daku-core/src/servicenow.rs:101–106`:
nine threads come to the requests in question while nobody else is in `execute`, eight of them
go as far as they can, and the ninth one finds no global permit.
-/

namespace Daku.Http

open Daku.Base

namespace Balanced

variable {ι : Type} [Fintype ι] [DecidableEq ι] {s : LimitedTransport ι} {u : ι} {host : String}
  (h : Balanced s)
include h

/-- A thread comes as far as the semaphore of its host. -/
theorem run_enter (hphase : (s.callers u).phase = .idle) (hkey : (s.callers u).key = some host)
    (hroom : s.global.used < 8) :
    ∃ t, (limiting ι).run s [.execute u, .acquireGlobal u, .hostKey u] = some t ∧ Balanced t ∧
      t.callers = Function.update s.callers u ((s.callers u).moved (.acquiringHost false)) ∧
      t.global.used = s.global.used + 1 ∧ ∀ g, t.host g = s.host g := by
  obtain ⟨r, rest, hrequests⟩ : ∃ r rest, (s.callers u).requests = r :: rest := by
    cases hrequests : (s.callers u).requests with
    | nil => simp [Caller.key, hrequests] at hkey
    | cons r rest => exact ⟨r, rest, rfl⟩
  have hfree : ¬ s.global.max ≤ s.global.used := by
    have := h.global_max
    omega
  have hrun : (limiting ι).run s [.execute u, .acquireGlobal u, .hostKey u] = some
      { s.move u (.acquiringHost false) with
        global := s.global.acquire
        hosts := Function.update s.hosts host (some (s.host host)) } := by
    simp [Machine.run, limiting, LimitedTransport.step, hphase, hrequests, LimitedTransport.move,
      hfree, hkey, LimitedTransport.host]
  refine ⟨_, hrun, ?_, rfl, rfl, fun g ↦ ?_⟩
  · exact Machine.run_invariant h (fun h hstep ↦ h.step hstep) hrun
  · rw [LimitedTransport.host, s.host_replaced]
    split
    · rename_i hg
      rw [hg]
    · rfl

/-- A thread finds a free permit of its host. -/
theorem step_acquireHost (hphase : (s.callers u).phase = .acquiringHost false)
    (hkey : (s.callers u).key = some host) (hroom : (s.host host).used < 2) :
    ∃ t, s.step (.acquireHost u) = some t ∧ Balanced t ∧
      t.callers = Function.update s.callers u ((s.callers u).moved .inFlight) ∧
      t.global = s.global ∧ ∀ g, (s.host g).used ≤ (t.host g).used := by
  obtain ⟨semaphore, hsem⟩ := Option.isSome_iff_exists.mp
    ((h.placed u).present host (by rw [hphase]; decide) hkey)
  have hfree : ¬ semaphore.max ≤ semaphore.used := by
    have := h.host_max host
    rw [s.host_eq hsem] at this hroom
    omega
  have hstep : s.step (.acquireHost u) = some { s.move u .inFlight with
      hosts := Function.update s.hosts host (some semaphore.acquire) } := by
    simp [LimitedTransport.step, hphase, hkey, hsem, hfree]
  refine ⟨_, hstep, h.step hstep, rfl, rfl, fun g ↦ ?_⟩
  show (s.host g).used ≤ ((Function.update s.hosts host _ g).getD (Semaphore.new 2)).used
  rw [s.host_replaced]
  split
  · rename_i hg
    subst hg
    rw [s.host_eq hsem]
    exact Nat.le_succ _
  · exact Nat.le_refl _

/-- A thread finds no free permit of its host. -/
theorem step_acquireHost_full (hphase : (s.callers u).phase = .acquiringHost false)
    (hkey : (s.callers u).key = some host) (hfull : (s.host host).max ≤ (s.host host).used) :
    s.step (.acquireHost u) = some (s.move u (.acquiringHost true)) := by
  obtain ⟨semaphore, hsem⟩ := Option.isSome_iff_exists.mp
    ((h.placed u).present host (by rw [hphase]; decide) hkey)
  rw [s.host_eq hsem] at hfull
  simp [LimitedTransport.step, hphase, hkey, hsem, hfull]

/-- A request is answered while nobody sleeps. -/
theorem run_finish (hphase : (s.callers u).phase = .inFlight)
    (hothers : ∀ v, v ≠ u → (s.callers v).phase = .idle) :
    ∃ t, (limiting ι).run s [.respond u (.error ""), .dropHost u none, .dropGlobal u none] =
        some t ∧ Balanced t ∧ t.callers = Function.update s.callers u
          ⟨.idle, (s.callers u).requests.tail, (s.callers u).outcomes ++ [.error ""]⟩ := by
  obtain ⟨host, hkey⟩ := h.exists_key (by simp [hphase] : (s.callers u).phase ≠ .idle)
  obtain ⟨semaphore, hsem⟩ := Option.isSome_iff_exists.mp
    ((h.placed u).present host (by rw [hphase]; decide) hkey)
  have hawake : ∀ (c : Caller), c.phase.hostRole = .away → c.globalRole ≠ .asleep →
      ∀ (role : Caller → Semaphore.Role), role = Caller.globalRole ∨ role = Caller.hostRole host →
      ∀ v, role (Function.update s.callers u c v) ≠ .asleep := by
    intro c hhost hglobal role hrole v
    by_cases hv : v = u
    · subst hv
      rw [Function.update_self]
      rcases hrole with rfl | rfl
      · exact hglobal
      · rw [Caller.hostRole_of_away hhost]
        decide
    · rw [Function.update_of_ne hv]
      rcases hrole with rfl | rfl
      · simp [Caller.globalRole, hothers v hv]
      · rw [Caller.hostRole_of_away (by rw [hothers v hv]; rfl)]
        decide
  have hrun : (limiting ι).run s
      [.respond u (.error ""), .dropHost u none, .dropGlobal u none] = some
        { global := s.global.release
          hosts := Function.update s.hosts host (some semaphore.release)
          callers := Function.update s.callers u
            ⟨.idle, (s.callers u).requests.tail, (s.callers u).outcomes ++ [.error ""]⟩ } := by
    have hfirst := hawake ((s.callers u).moved (.droppingGlobal (.error ""))) rfl
      (by simp [Caller.globalRole]) (Caller.hostRole host) (Or.inr rfl)
    have hsecond := hawake
      ⟨.idle, (s.callers u).requests.tail, (s.callers u).outcomes ++ [.error ""]⟩ rfl
      (by simp [Caller.globalRole]) Caller.globalRole (Or.inl rfl)
    simp [Machine.run, limiting, LimitedTransport.step, hphase, LimitedTransport.move, hkey, hsem,
      LimitedTransport.notifyOne, hfirst, hsecond]
  exact ⟨_, hrun, Machine.run_invariant h (fun h hstep ↦ h.step hstep) hrun, rfl⟩

end Balanced

/-- All threads are out of `execute`. -/
structure Resting {ι : Type} [Fintype ι] (s : LimitedTransport ι) : Prop where
  balanced : Balanced s
  idle : ∀ u, (s.callers u).phase = .idle

namespace Resting

variable {ι : Type} [Fintype ι] [DecidableEq ι] {s : LimitedTransport ι}

/-- One request from beginning to end. -/
theorem run_request (h : Resting s) {u : ι} {host : String}
    (hkey : (s.callers u).key = some host) :
    ∃ actions t, (limiting ι).run s actions = some t ∧ Resting t ∧
      (t.callers u).requests = (s.callers u).requests.tail ∧
      ∀ v, v ≠ u → t.callers v = s.callers v := by
  obtain ⟨hglobal, hhost⟩ := h.balanced.used_eq_zero h.idle
  obtain ⟨a, hrun, ha, hcallers, -, hused⟩ :=
    h.balanced.run_enter (h.idle u) hkey (by omega)
  have hau : a.callers u = (s.callers u).moved (.acquiringHost false) := by
    rw [hcallers, Function.update_self]
  obtain ⟨b, hstep, hb, hcallers', -, -⟩ := ha.step_acquireHost
    (by rw [hau]; rfl : (a.callers u).phase = _) (by rw [hau]; exact hkey)
    (by rw [hused, hhost]; decide)
  have hbu : b.callers = Function.update s.callers u ((s.callers u).moved .inFlight) := by
    rw [hcallers', hau, hcallers, Function.update_idem]
    rfl
  obtain ⟨t, hfinish, ht, hcallers''⟩ := hb.run_finish (u := u)
    (by rw [hbu, Function.update_self]; rfl)
    fun v hv ↦ by rw [hbu, Function.update_of_ne hv]; exact h.idle v
  rw [hbu, Function.update_idem] at hcallers''
  have hwhole : (limiting ι).run s ([.execute u, .acquireGlobal u, .hostKey u] ++
      .acquireHost u :: [.respond u (.error ""), .dropHost u none, .dropGlobal u none]) = some t :=
    Machine.run_append.mpr ⟨a, hrun, Machine.run_cons.mpr ⟨b, hstep, hfinish⟩⟩
  refine ⟨_, t, hwhole, ⟨ht, fun v ↦ ?_⟩, ?_, fun v hv ↦ ?_⟩
  · by_cases hv : v = u
    · subst hv
      rw [hcallers'', Function.update_self]
    · rw [hcallers'', Function.update_of_ne hv]
      exact h.idle v
  · rw [hcallers'', Function.update_self, Function.update_self]
    rfl
  · rw [hcallers'', Function.update_of_ne hv]

/-- A thread comes to any of its requests. -/
theorem run_reach (h : Resting s) {u : ι} {host : String}
    (hhost : host ∈ hostsOf (s.callers u).requests) :
    ∃ actions t, (limiting ι).run s actions = some t ∧ Resting t ∧
      (t.callers u).key = some host ∧ ∀ v, v ≠ u → t.callers v = s.callers v := by
  generalize hrequests : (s.callers u).requests = requests at hhost
  induction requests generalizing s with
  | nil => cases hhost
  | cons r rest ih =>
    have hkey : (s.callers u).key = some (hostKey r.url) := by
      rw [Caller.key, hrequests]
      rfl
    rcases List.mem_cons.mp hhost with rfl | hrest
    · exact ⟨[], s, rfl, h, hkey, fun _ _ ↦ rfl⟩
    · obtain ⟨before, a, hbefore, ha, htail, hothers⟩ := h.run_request hkey
      rw [hrequests] at htail
      obtain ⟨after, t, hafter, ht, htkey, hothers'⟩ := ih ha htail hrest
      exact ⟨before ++ after, t, Machine.run_append.mpr ⟨a, hbefore, hafter⟩, ht, htkey,
        fun v hv ↦ (hothers' v hv).trans (hothers v hv)⟩

/-- Any threads come to any of their requests. -/
theorem run_reachAll (h : Resting s) {threads : List ι} (hnodup : threads.Nodup)
    {pick : ι → String} (hpick : ∀ u ∈ threads, pick u ∈ hostsOf (s.callers u).requests) :
    ∃ actions t, (limiting ι).run s actions = some t ∧ Resting t ∧
      ∀ u ∈ threads, (t.callers u).key = some (pick u) := by
  suffices H : ∃ actions t, (limiting ι).run s actions = some t ∧ Resting t ∧
      (∀ u ∈ threads, (t.callers u).key = some (pick u)) ∧
      ∀ v, v ∉ threads → t.callers v = s.callers v by
    obtain ⟨actions, t, hrun, ht, hkeys, -⟩ := H
    exact ⟨actions, t, hrun, ht, hkeys⟩
  induction threads generalizing s with
  | nil => exact ⟨[], s, rfl, h, by simp, fun _ _ ↦ rfl⟩
  | cons u threads ih =>
    rw [List.nodup_cons] at hnodup
    obtain ⟨before, a, hbefore, ha, hkey, hothers⟩ := h.run_reach (hpick u List.mem_cons_self)
    have hne : ∀ v ∈ threads, v ≠ u := fun v hv heq ↦ hnodup.1 (heq ▸ hv)
    obtain ⟨after, t, hafter, ht, hkeys, hothers'⟩ := ih ha hnodup.2 fun v hv ↦ by
      rw [hothers v (hne v hv)]
      exact hpick v (List.mem_cons_of_mem u hv)
    refine ⟨before ++ after, t, Machine.run_append.mpr ⟨a, hbefore, hafter⟩, ht, ?_, ?_⟩
    · intro v hv
      rcases List.mem_cons.mp hv with rfl | hv
      · rw [hothers' v hnodup.1]
        exact hkey
      · exact hkeys v hv
    · intro v hv
      rw [List.mem_cons, not_or] at hv
      exact (hothers' v hv.2).trans (hothers v hv.1)

end Resting

/-- A run goes on with one more action. -/
theorem run_concat {ι : Type} [Fintype ι] [DecidableEq ι] {s a t : LimitedTransport ι}
    {actions : List (LimitAction ι)} {x : LimitAction ι}
    (hrun : (limiting ι).run s actions = some a) (hstep : a.step x = some t) :
    (limiting ι).run s (actions ++ [x]) = some t :=
  Machine.run_append.mpr ⟨a, hrun, Machine.run_cons.mpr ⟨t, hstep, rfl⟩⟩

/-- Some threads have come as far as they can, all others are out of `execute`. -/
structure Crowded {ι : Type} [Fintype ι] (pick : ι → String) (inside : List ι)
    (s : LimitedTransport ι) : Prop where
  balanced : Balanced s
  used : s.global.used = inside.length
  key : ∀ u ∈ inside, (s.callers u).key = some (pick u)
  settled : ∀ u ∈ inside, (s.callers u).phase = .inFlight ∨
    (s.callers u).phase = .acquiringHost true ∧ (s.host (pick u)).max ≤ (s.host (pick u)).used
  idle : ∀ u, u ∉ inside → (s.callers u).phase = .idle

namespace Crowded

variable {ι : Type} [Fintype ι] [DecidableEq ι] {s t : LimitedTransport ι} {pick : ι → String}
  {inside : List ι} {u : ι}

/-- One more thread has come as far as it can. -/
theorem extend (h : Crowded pick inside s) (ht : Balanced t) (hu : u ∉ inside) {c : Caller}
    (hcallers : t.callers = Function.update s.callers u c) (hkey : c.key = some (pick u))
    (hglobal : t.global.used = s.global.used + 1)
    (hhost : ∀ g, (s.host g).used ≤ (t.host g).used)
    (hsettled : c.phase = .inFlight ∨
      c.phase = .acquiringHost true ∧ (t.host (pick u)).max ≤ (t.host (pick u)).used) :
    Crowded pick (inside ++ [u]) t := by
  have hself : t.callers u = c := by rw [hcallers, Function.update_self]
  have hother : ∀ v, v ≠ u → t.callers v = s.callers v := fun v hv ↦ by
    rw [hcallers, Function.update_of_ne hv]
  have hne : ∀ v ∈ inside, v ≠ u := fun v hv heq ↦ hu (heq ▸ hv)
  constructor
  · exact ht
  · rw [hglobal, h.used, List.length_append, List.length_singleton]
  · intro v hv
    rcases List.mem_append.mp hv with hv | hv
    · rw [hother v (hne v hv)]
      exact h.key v hv
    · rw [List.mem_singleton.mp hv, hself, hkey]
  · intro v hv
    rcases List.mem_append.mp hv with hv | hv
    · rw [hother v (hne v hv)]
      apply (h.settled v hv).imp_right
      rintro ⟨hphase, hfull⟩
      have := h.balanced.host_max (pick v)
      have := ht.host_max (pick v)
      have := hhost (pick v)
      exact ⟨hphase, by omega⟩
    · rw [List.mem_singleton.mp hv, hself]
      exact hsettled
  · intro v hv
    rw [List.mem_append, not_or, List.mem_singleton] at hv
    rw [hother v hv.2]
    exact h.idle v hv.1

theorem run_one (h : Crowded pick inside s) (hu : u ∉ inside) (hroom : inside.length < 8)
    (hkey : (s.callers u).key = some (pick u)) :
    ∃ actions t, (limiting ι).run s actions = some t ∧ Crowded pick (inside ++ [u]) t ∧
      ∀ v, v ≠ u → t.callers v = s.callers v := by
  obtain ⟨a, hrun, ha, hcallers, hglobal, hhost⟩ :=
    h.balanced.run_enter (h.idle u hu) hkey (by rw [h.used]; exact hroom)
  have hau : a.callers u = (s.callers u).moved (.acquiringHost false) := by
    rw [hcallers, Function.update_self]
  have haphase : (a.callers u).phase = .acquiringHost false := by rw [hau]; rfl
  have hakey : (a.callers u).key = some (pick u) := by rw [hau]; exact hkey
  have hothers : ∀ {c : Caller} v, v ≠ u → Function.update a.callers u c v = s.callers v := by
    intro c v hv
    rw [Function.update_of_ne hv, hcallers, Function.update_of_ne hv]
  by_cases hfull : (a.host (pick u)).max ≤ (a.host (pick u)).used
  · have hstep := ha.step_acquireHost_full haphase hakey hfull
    refine ⟨_, _, run_concat hrun hstep,
      h.extend (c := (s.callers u).moved (.acquiringHost true)) (ha.step hstep) hu ?_ hkey
        hglobal ?_ (Or.inr ⟨rfl, hfull⟩), hothers⟩
    · show Function.update a.callers u _ = _
      rw [hau, hcallers, Function.update_idem]
      rfl
    · exact fun g ↦ Nat.le_of_eq (congrArg Semaphore.used (hhost g)).symm
  · have := ha.host_max (pick u)
    obtain ⟨b, hstep, hb, hcallers', hglobal', hhost'⟩ :=
      ha.step_acquireHost haphase hakey (by omega)
    refine ⟨_, b, run_concat hrun hstep,
      h.extend (c := (s.callers u).moved .inFlight) hb hu ?_ hkey ?_ ?_ (Or.inl rfl), ?_⟩
    · rw [hcallers', hau, hcallers, Function.update_idem]
      rfl
    · rw [hglobal', hglobal]
    · intro g
      rw [← hhost g]
      exact hhost' g
    · intro v hv
      rw [hcallers']
      exact hothers v hv

theorem run_all {threads : List ι} (h : Crowded pick inside s) (hnodup : (inside ++ threads).Nodup)
    (hroom : (inside ++ threads).length ≤ 8)
    (hkey : ∀ u ∈ threads, (s.callers u).key = some (pick u)) :
    ∃ actions t, (limiting ι).run s actions = some t ∧ Crowded pick (inside ++ threads) t ∧
      ∀ v, v ∉ threads → t.callers v = s.callers v := by
  induction threads generalizing inside s with
  | nil => exact ⟨[], s, rfl, by rwa [List.append_nil], fun _ _ ↦ rfl⟩
  | cons u threads ih =>
    have hsplit : inside ++ u :: threads = inside ++ [u] ++ threads := by simp
    have hu : u ∉ inside := fun hu ↦
      (List.nodup_append.mp hnodup).2.2 u hu u List.mem_cons_self rfl
    have hlength : inside.length < 8 := by
      rw [List.length_append, List.length_cons] at hroom
      omega
    obtain ⟨before, a, hbefore, ha, hothers⟩ := h.run_one hu hlength (hkey u List.mem_cons_self)
    rw [hsplit] at hnodup hroom ⊢
    have hne : ∀ v ∈ threads, v ≠ u := fun v hv heq ↦
      (List.nodup_append.mp hnodup).2.2 u (by simp) v hv heq.symm
    obtain ⟨after, t, hafter, ht, hothers'⟩ := ih ha hnodup hroom fun v hv ↦ by
      rw [hothers v (hne v hv)]
      exact hkey v (List.mem_cons_of_mem u hv)
    refine ⟨before ++ after, t, Machine.run_append.mpr ⟨a, hbefore, hafter⟩, ht, fun v hv ↦ ?_⟩
    rw [List.mem_cons, not_or] at hv
    exact (hothers' v hv.2).trans (hothers v hv.1)

end Crowded

section

variable {ι : Type} [Fintype ι] [DecidableEq ι] {s : LimitedTransport ι} {pick : ι → String}
  {others : Finset ι} {t : ι}

/-- Eight settled threads, three of them at one host, keep the ninth one out. -/
theorem Crowded.not_notCrowdedOut (h : Crowded pick others.toList s) (ht : t ∉ others)
    (hcard : others.card = 8) {host slow : String} {r : HttpRequest} {rest : List HttpRequest}
    (hrequests : (s.callers t).requests = r :: rest) (hkey : (s.callers t).key = some host)
    (hhost : (others.filter fun u ↦ pick u = host).card ≤ 1)
    (hslow : 3 ≤ (others.filter fun u ↦ pick u = slow).card) :
    ∃ s', s.step (.execute t) = some s' ∧ ¬ s'.NotCrowdedOut := by
  have hphase := h.idle t (by rwa [Finset.mem_toList])
  have hstep : s.step (.execute t) = some (s.move t (.acquiringGlobal false)) := by
    simp [LimitedTransport.step, hphase, hrequests]
  refine ⟨_, hstep, fun hnot ↦ ?_⟩
  have hbalanced := h.balanced.step hstep
  generalize hs' : s.move t (.acquiringGlobal false) = s' at hnot hbalanced
  have hself : s'.callers t = (s.callers t).moved (.acquiringGlobal false) := by
    rw [← hs']
    exact Function.update_self ..
  have hother : ∀ u, u ≠ t → s'.callers u = s.callers u := fun u hu ↦ by
    rw [← hs']
    exact Function.update_of_ne hu ..
  have hne : ∀ u ∈ others, u ≠ t := fun u hu heq ↦ ht (heq ▸ hu)
  have hmem : ∀ u, (s'.callers u).globalRole = .holding → u ∈ others := by
    intro u hu
    by_contra hnotin
    by_cases hut : u = t
    · subst hut
      simp [hself, Caller.globalRole] at hu
    · rw [hother u hut] at hu
      simp [Caller.globalRole, h.idle u (by rwa [Finset.mem_toList])] at hu
  have hkeys : ∀ u ∈ others, (s'.callers u).key = some (pick u) := fun u hu ↦ by
    rw [hother u (hne u hu)]
    exact h.key u (Finset.mem_toList.mpr hu)
  have hflight : ∀ u, (s'.callers u).isInFlight → u ∈ others := fun u hu ↦
    hmem u (Caller.globalRole_of_isInFlight hu)
  have htotal : s'.inFlight.card < 8 := by
    have hlt : (s'.inFlightTo slow).card < (others.filter fun u ↦ pick u = slow).card := by
      have := hbalanced.inFlightTo_le slow
      omega
    obtain ⟨v, hv, hnotin⟩ := Finset.exists_mem_notMem_of_card_lt_card hlt
    obtain ⟨hv, hvslow⟩ := Finset.mem_filter.mp hv
    rw [LimitedTransport.mem_inFlightTo, hkeys v hv, hvslow] at hnotin
    have hsub : insert v s'.inFlight ⊆ others := by
      intro u hu
      rcases Finset.mem_insert.mp hu with rfl | hu
      · exact hv
      · exact hflight u (LimitedTransport.mem_inFlight.mp hu)
    have hvnot : v ∉ s'.inFlight := fun hv' ↦
      hnotin ⟨LimitedTransport.mem_inFlight.mp hv', rfl⟩
    have := Finset.card_le_card hsub
    rw [Finset.card_insert_of_notMem hvnot] at this
    omega
  have hroom : (s'.inFlightTo host).card < 2 := by
    have hsub : s'.inFlightTo host ⊆ others.filter fun u ↦ pick u = host := by
      intro u hu
      rw [LimitedTransport.mem_inFlightTo] at hu
      have huin := hflight u hu.1
      exact Finset.mem_filter.mpr ⟨huin, Option.some.inj ((hkeys u huin).symm.trans hu.2)⟩
    have := Finset.card_le_card hsub
    omega
  have hused : s'.global.used = 8 := by
    rw [← hs']
    show s.global.used = 8
    rw [h.used, Finset.length_toList, hcard]
  have hblocked : s'.Blocked t := by
    refine Or.inl ⟨⟨false, by rw [hself]; rfl⟩, ?_⟩
    rw [hused, hbalanced.global_max]
  rcases hnot t host (Or.inl ⟨false, by rw [hself]; rfl⟩) (by rw [hself]; exact hkey) htotal
    hroom with hfree | ⟨u, hu, hidle, hfree⟩
  · exact hfree hblocked
  · have huin := hmem u (LimitedTransport.mem_globalHolders.mp hu)
    have hucaller := hother u (hne u huin)
    rcases h.settled u (Finset.mem_toList.mpr huin) with hphase | ⟨hphase, hfull⟩
    · exact hidle (by rw [hucaller]; simp [Caller.isInFlight, hphase])
    · refine hfree (Or.inr ⟨⟨true, by rw [hucaller, hphase]⟩, pick u, hkeys u huin, ?_⟩)
      rw [← hs']
      exact hfull

/-- Requests that can be crowded are, in some run. -/
theorem exists_crowded {requests : ι → List HttpRequest} (hmany : Crowdable requests) :
    ∃ actions s, (limiting ι).run (LimitedTransport.new requests) actions = some s ∧
      ¬ s.NotCrowdedOut := by
  obtain ⟨t, host, hthost, others, ht, hcard, pick, hpick, hhost, slow, hslow⟩ := hmany
  let pick' := Function.update pick t host
  have hsame : ∀ u ∈ others, pick' u = pick u := fun u hu ↦
    Function.update_of_ne (fun heq : u = t ↦ ht (heq ▸ hu)) _ _
  have hfilter : ∀ g, (others.filter fun u ↦ pick' u = g) = others.filter fun u ↦ pick u = g :=
    fun g ↦ Finset.filter_congr fun u hu ↦ by rw [hsame u hu]
  have hresting : Resting (LimitedTransport.new requests) :=
    ⟨balanced_new requests, fun _ ↦ rfl⟩
  have hnodup : (t :: others.toList).Nodup :=
    List.nodup_cons.mpr ⟨by rwa [Finset.mem_toList], others.nodup_toList⟩
  have hpick' : ∀ u ∈ t :: others.toList, pick' u ∈ hostsOf (requests u) := by
    intro u hu
    rcases List.mem_cons.mp hu with rfl | hu
    · rw [show pick' u = host from Function.update_self ..]
      exact hthost
    · rw [hsame u (Finset.mem_toList.mp hu)]
      exact hpick u (Finset.mem_toList.mp hu)
  obtain ⟨before, a, hbefore, ha, hkeys⟩ := hresting.run_reachAll hnodup hpick'
  have hcrowded : Crowded pick' [] a :=
    ⟨ha.balanced, (ha.balanced.used_eq_zero ha.idle).1, by simp, by simp, fun u _ ↦ ha.idle u⟩
  obtain ⟨after, b, hafter, hb, hothers⟩ := hcrowded.run_all
    (show ([] ++ others.toList).Nodup from others.nodup_toList) (by simp [hcard]) fun u hu ↦
      hkeys u (List.mem_cons_of_mem t hu)
  have hbt : b.callers t = a.callers t := hothers t (by rwa [Finset.mem_toList])
  have hkey : (b.callers t).key = some host := by
    rw [hbt, hkeys t List.mem_cons_self]
    exact congrArg some (Function.update_self ..)
  obtain ⟨r, rest, hrequests⟩ : ∃ r rest, (b.callers t).requests = r :: rest := by
    cases hrequests : (b.callers t).requests with
    | nil => simp [Caller.key, hrequests] at hkey
    | cons r rest => exact ⟨r, rest, rfl⟩
  obtain ⟨s, hstep, hnot⟩ := hb.not_notCrowdedOut ht hcard hrequests hkey
    (by rw [hfilter]; exact hhost) (by rw [hfilter slow]; exact hslow)
  exact ⟨_, s, run_concat (Machine.run_append.mpr ⟨a, hbefore, hafter⟩) hstep, hnot⟩

/-- No run of some threads leaves one of them crowded out, if and only if their requests cannot
be crowded. -/
theorem never_crowded_out_iff {requests : ι → List HttpRequest} :
    (∀ actions s, (limiting ι).run (LimitedTransport.new requests) actions = some s →
      s.NotCrowdedOut) ↔ ¬ Crowdable requests := by
  constructor
  · intro hnever hmany
    obtain ⟨actions, s, hrun, hnot⟩ := exists_crowded hmany
    exact hnot (hnever actions s hrun)
  · intro hfew actions s hrun
    exact notCrowdedOut_of_not_crowdable hfew hrun

end

/-- Eight requests for a slow host hold all global permits, two of them in flight; a request for
another host waits for as long as the slow host takes. -/
theorem crowded_out_by_slow_host :
    let requests : Fin 9 → List HttpRequest := fun n ↦
      if n = 8 then [⟨"GET", "https://quick.example.com/", [], none⟩]
      else [⟨"GET", "https://slow.example.com/", [], none⟩]
    ¬ ∀ actions s, (limiting (Fin 9)).run (LimitedTransport.new requests) actions = some s →
      s.NotCrowdedOut := by
  intro requests hnever
  have hmany : Crowdable requests := by
    refine ⟨8, "quick.example.com", by decide +kernel, Finset.univ.erase 8, by decide,
      by decide, fun _ ↦ "slow.example.com", by decide +kernel, by decide +kernel,
      "slow.example.com", by decide +kernel⟩
  obtain ⟨actions, s, hrun, hnot⟩ := exists_crowded hmany
  exact hnot (hnever actions s hrun)

end Daku.Http
