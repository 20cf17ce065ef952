import Daku.Store.Openers

/-!
# Every migration once

What any number of openers, `crates/daku-core/src/persistence.rs:36–85`, leave behind: the first
`m` migrations, each one committed once and with its row. The number `m` only grows, and the
write lock is what keeps two openers from seeing the same `m` when they decide to apply.
-/

namespace Daku.Store

open Daku.Base

/-- Run several batches, one after the other. -/
def execAll {σ : Type} (execBatch : String → σ → Option σ) : List String → σ → Option σ
  | [], schema => some schema
  | sql :: batches, schema => (execBatch sql schema).bind (execAll execBatch batches)

theorem execAll_append {σ : Type} {execBatch : String → σ → Option σ} (before after : List String)
    (schema : σ) : execAll execBatch (before ++ after) schema =
      (execAll execBatch before schema).bind (execAll execBatch after) := by
  induction before generalizing schema with
  | nil => rfl
  | cons sql before ih =>
    simp only [List.cons_append, execAll, Option.bind_assoc]
    exact Option.bind_congr fun schema _ ↦ ih schema

/-- From the `k`th to before the `m`th, the migrations are committed in order, each one once, in
a transaction of its own that also records it; nothing else is. -/
structure Migrated {ι σ : Type} (migrations : List Migration)
    (execBatch : String → σ → Option σ) (k : ℕ) (first : Database σ) (m : ℕ)
    (d : Database σ) (commits : List (Commit ι)) : Prop where
  from_le : k ≤ m
  le_length : m ≤ migrations.length
  batches : commits.map Commit.batches =
    ((migrations.take m).drop k).map fun migration ↦ [migration.2]
  inserted : (commits.map fun c ↦ c.inserted.map MigrationRow.tag) =
    ((migrations.take m).drop k).map fun migration ↦ [migration.1]
  schema : execAll execBatch (((migrations.take m).drop k).map Prod.snd) first.schema =
    some d.schema
  rows : d.rows = first.rows ++ commits.flatMap Commit.inserted
  recorded : Recorded migrations m d.rows

section

variable {ι σ : Type} {migrations : List Migration} {execBatch : String → σ → Option σ} {k m : ℕ}
  {first d d' : Database σ} {commits : List (Commit ι)}

theorem Migrated.start (hk : k ≤ migrations.length) (h : Recorded migrations k first.rows) :
    Migrated migrations execBatch k first k first ([] : List (Commit ι)) := by
  have hnone : (migrations.take k).drop k = [] :=
    List.drop_eq_nil_of_le (List.length_take_le k migrations)
  refine ⟨Nat.le_refl k, hk, ?_, ?_, ?_, ?_, h⟩ <;> simp [hnone, execAll]

/-- Only the rows and the schema matter. -/
theorem Migrated.congr (h : Migrated migrations execBatch k first m d commits)
    (hrows : d'.rows = d.rows) (hschema : d'.schema = d.schema) :
    Migrated migrations execBatch k first m d' commits :=
  ⟨h.from_le, h.le_length, h.batches, h.inserted, hschema ▸ h.schema, hrows ▸ h.rows,
    hrows ▸ h.recorded⟩

/-- The next migration is committed together with its row. -/
theorem Migrated.commit {migration : Migration} {o : ι} {now : Int}
    (h : Migrated migrations execBatch k first m d commits) (hm : migrations[m]? = some migration)
    (hschema : execBatch migration.2 d.schema = some d'.schema)
    (hrows : d'.rows = d.rows ++ [⟨migration.1, now⟩]) :
    Migrated migrations execBatch k first (m + 1) d'
      (commits ++ [⟨o, [migration.2], [⟨migration.1, now⟩]⟩]) := by
  have hlt := (List.getElem?_eq_some_iff.mp hm).1
  have hslice : (migrations.take (m + 1)).drop k = (migrations.take m).drop k ++ [migration] := by
    rw [List.take_add_one, hm, Option.toList_some, List.drop_append_of_le_length]
    rw [List.length_take, Nat.min_eq_left (Nat.le_of_lt hlt)]
    exact h.from_le
  exact {
    from_le := Nat.le_succ_of_le h.from_le
    le_length := hlt
    batches := by rw [hslice, List.map_append, List.map_append, h.batches]; rfl
    inserted := by rw [hslice, List.map_append, List.map_append, h.inserted]; rfl
    schema := by
      rw [hslice, List.map_append, execAll_append, h.schema]
      simp [execAll, hschema]
    rows := by rw [hrows, h.rows, List.flatMap_append, List.append_assoc]; rfl
    recorded := hrows ▸ h.recorded.succ hm now }

end

/-- What the place of an opener says about the file, of which the first `m` migrations are
applied, and about the write lock. -/
def OpenerPhase.Fits {ι σ : Type} (migrations : List Migration)
    (execBatch : String → σ → Option σ) (m : ℕ) (d : Database σ)
    (writer : Option (Transaction ι σ)) (o : ι) : OpenerPhase → Prop
  | .creating => True
  | .checking i => d.migrations.isSome ∧ i ≤ m
  | .beginning i => d.migrations.isSome ∧ i ≤ m
  | .rechecking i => d.migrations.isSome ∧ i ≤ m ∧ writer = some ⟨o, d, [], []⟩
  | .executing i => d.migrations.isSome ∧ i = m ∧ writer = some ⟨o, d, [], []⟩
  | .recording i => i = m ∧ ∃ migration schema, migrations[i]? = some migration ∧
      execBatch migration.2 d.schema = some schema ∧ d.migrations.isSome ∧
      writer = some ⟨o, { d with schema }, [migration.2], []⟩
  | .committing i => i = m ∧ ∃ migration schema now, migrations[i]? = some migration ∧
      execBatch migration.2 d.schema = some schema ∧
      writer = some ⟨o, ⟨schema, some (d.rows ++ [⟨migration.1, now⟩])⟩, [migration.2],
        [⟨migration.1, now⟩]⟩
  | .returned (.ok _) => m = migrations.length
  | .returned (.error _) => True
  | .stopped => True

namespace Openers

variable {ι σ : Type} {migrations : List Migration} {execBatch : String → σ → Option σ} {k m : ℕ}
  {first : Database σ}

/-- The file and the openers fit together. -/
structure Consistent (migrations : List Migration) (execBatch : String → σ → Option σ) (k : ℕ)
    (first : Database σ) (m : ℕ) (s : Openers ι σ) : Prop where
  migrated : Migrated migrations execBatch k first m s.database s.commits
  fits : ∀ o, (s.openers o).phase.Fits migrations execBatch m s.database s.writer o

/-- An opener without a transaction is left in place by what the one with it does. -/
theorem fits_other {d d' : Database σ} {writer writer' : Option (Transaction ι σ)} {m' : ℕ}
    {o : ι} {phase : OpenerPhase} (h : phase.Fits migrations execBatch m d writer o)
    (hwriter : ∀ tx, writer = some tx → tx.opener ≠ o) (hm : m ≤ m')
    (hlength : m = migrations.length → m' = m)
    (htable : d.migrations.isSome → d'.migrations.isSome) :
    phase.Fits migrations execBatch m' d' writer' o := by
  cases phase with
  | creating => trivial
  | checking i => exact ⟨htable h.1, Nat.le_trans h.2 hm⟩
  | beginning i => exact ⟨htable h.1, Nat.le_trans h.2 hm⟩
  | rechecking i => exact absurd rfl (hwriter _ h.2.2)
  | executing i => exact absurd rfl (hwriter _ h.2.2)
  | recording i =>
    obtain ⟨-, _, _, -, -, -, htx⟩ := h
    exact absurd rfl (hwriter _ htx)
  | committing i =>
    obtain ⟨-, _, _, _, -, -, htx⟩ := h
    exact absurd rfl (hwriter _ htx)
  | returned result =>
    cases result with
    | ok n => exact (hlength h).trans h
    | error e => trivial
  | stopped => trivial

variable [DecidableEq ι]

theorem fits_update {f : ι → Opener} {o : ι} {c : Opener} {d : Database σ}
    {writer : Option (Transaction ι σ)}
    (hnew : c.phase.Fits migrations execBatch m d writer o)
    (hothers : ∀ p, p ≠ o → (f p).phase.Fits migrations execBatch m d writer p) :
    ∀ p, (Function.update f o c p).phase.Fits migrations execBatch m d writer p := by
  intro p
  by_cases hp : p = o
  · subst hp
    rwa [Function.update_self]
  · rw [Function.update_of_ne hp]
    exact hothers p hp

theorem transactionOf_eq_some {s : Openers ι σ} {o : ι} {tx : Transaction ι σ} :
    s.transactionOf o = some tx ↔ s.writer = some tx ∧ tx.opener = o := by
  simp [transactionOf, Option.filter_eq_some_iff]

/-- The transaction of an opener, read off its place. -/
private theorem eq_of_transactionOf {s : Openers ι σ} {o : ι} {tx tx' : Transaction ι σ}
    (htx : s.transactionOf o = some tx) (hwriter : s.writer = some tx') : tx = tx' := by
  rw [(transactionOf_eq_some.mp htx).1, Option.some.injEq] at hwriter
  exact hwriter

namespace Consistent

variable {s t : Openers ι σ} {o : ι} {phase : OpenerPhase}
  (h : Consistent migrations execBatch k first m s)
include h

/-- A step that changes neither the file nor the lock. -/
theorem move (hnew : phase.Fits migrations execBatch m s.database s.writer o) :
    Consistent migrations execBatch k first m (s.move o phase) :=
  ⟨h.migrated, fits_update hnew fun p _ ↦ h.fits p⟩

/-- A step of the opener that has the transaction. -/
theorem work {writer : Option (Transaction ι σ)} {tx : Transaction ι σ}
    (htx : s.transactionOf o = some tx)
    (hnew : phase.Fits migrations execBatch m s.database writer o) :
    Consistent migrations execBatch k first m ({ s with writer }.move o phase) := by
  obtain ⟨hwriter, hopener⟩ := transactionOf_eq_some.mp htx
  refine ⟨h.migrated, fits_update hnew fun p hp ↦ ?_⟩
  apply fits_other (h.fits p) _ (Nat.le_refl m) (fun _ ↦ rfl) id
  intro tx' htx'
  rw [hwriter, Option.some.injEq] at htx'
  rw [← htx', hopener]
  exact hp.symm

/-- An opener drops what it has not committed. -/
theorem rollBack (hnew : ∀ writer, phase.Fits migrations execBatch m s.database writer o) :
    Consistent migrations execBatch k first m ((s.rollBack o).move o phase) := by
  refine ⟨h.migrated, fits_update (hnew _) fun p hp ↦ ?_⟩
  show (s.openers p).phase.Fits migrations execBatch m s.database (s.rollBack o).writer p
  cases hwriter : s.writer with
  | none =>
    have hsame : (s.rollBack o).writer = s.writer := by simp [Openers.rollBack, hwriter]
    exact hsame ▸ h.fits p
  | some tx =>
    by_cases hopener : tx.opener = o
    · apply fits_other (h.fits p) _ (Nat.le_refl m) (fun _ ↦ rfl) id
      intro tx' htx'
      rw [hwriter, Option.some.injEq] at htx'
      rw [← htx', hopener]
      exact hp.symm
    · have hsame : (s.rollBack o).writer = s.writer := by
        simp [Openers.rollBack, hwriter, hopener]
      exact hsame ▸ h.fits p

/-- The `migrations` table is created. -/
theorem create (hnone : s.database.migrations = none) (hwriter : s.writer = none) :
    Consistent migrations execBatch k first m
      ({ s with database := { s.database with migrations := some [] } }.move o (.checking 0)) := by
  constructor
  · exact h.migrated.congr (by simp [Database.rows, hnone, Openers.move]) rfl
  · refine fits_update ⟨rfl, Nat.zero_le m⟩ fun p _ ↦ ?_
    apply fits_other (h.fits p) _ (Nat.le_refl m) (fun _ ↦ rfl) fun _ ↦ rfl
    intro tx htx
    rw [hwriter] at htx
    cases htx

/-- The write lock is taken. -/
theorem beginTransaction {i : ℕ} (hphase : (s.openers o).phase = .beginning i)
    (hwriter : s.writer = none) :
    Consistent migrations execBatch k first m
      ({ s with writer := some ⟨o, s.database, [], []⟩ }.move o (.rechecking i)) := by
  have hfits := h.fits o
  rw [hphase] at hfits
  refine ⟨h.migrated, fits_update ⟨hfits.1, hfits.2, rfl⟩ fun p _ ↦ ?_⟩
  apply fits_other (h.fits p) _ (Nat.le_refl m) (fun _ ↦ rfl) id
  intro tx htx
  rw [hwriter] at htx
  cases htx

/-- A transaction is committed. -/
theorem commit {i : ℕ} {tx : Transaction ι σ} (hphase : (s.openers o).phase = .committing i)
    (htx : s.transactionOf o = some tx) (applied : ℕ) :
    Consistent migrations execBatch k first (m + 1) {
      database := tx.view
      writer := none
      openers := Function.update s.openers o ⟨.checking (i + 1), applied⟩
      commits := s.commits ++ [⟨o, tx.batches, tx.inserted⟩] } := by
  have hfits := h.fits o
  rw [hphase] at hfits
  obtain ⟨rfl, migration, schema, now, hm, hexec, hwriter⟩ := hfits
  obtain ⟨hwriter', hopener⟩ := transactionOf_eq_some.mp htx
  have hview := hwriter.symm.trans hwriter'
  rw [Option.some.injEq] at hview
  subst hview
  have hlt := (List.getElem?_eq_some_iff.mp hm).1
  refine ⟨h.migrated.commit hm hexec rfl, fits_update ⟨rfl, Nat.le_refl _⟩ fun p hp ↦ ?_⟩
  apply fits_other (h.fits p) _ (Nat.le_succ i) (fun hfull ↦ ?_) fun _ ↦ rfl
  · intro tx' htx'
    rw [hwriter', Option.some.injEq] at htx'
    rw [← htx']
    exact hp.symm
  · omega

theorem proceed {now : Int} (hnum : Numbered migrations)
    (hstep : s.proceed migrations execBatch o now = some t) :
    ∃ m', Consistent migrations execBatch k first m' t := by
  have hfits := h.fits o
  have hlength := h.migrated.le_length
  unfold Openers.proceed at hstep
  cases hphase : (s.openers o).phase with
  | creating =>
    rw [hphase] at hstep
    cases htable : s.database.migrations with
    | some rows =>
      simp only [htable, Option.some.injEq] at hstep
      subst hstep
      exact ⟨m, h.move ⟨by rw [htable]; rfl, Nat.zero_le m⟩⟩
    | none =>
      cases hwriter : s.writer with
      | some tx => simp [htable, hwriter] at hstep
      | none =>
        simp only [htable, hwriter, Option.some.injEq] at hstep
        subst hstep
        exact ⟨m, hwriter ▸ h.create htable hwriter⟩
  | checking i =>
    rw [hphase] at hstep hfits
    cases hm : migrations[i]? with
    | none =>
      simp only [hm, Option.some.injEq] at hstep
      subst hstep
      have := List.getElem?_eq_none_iff.mp hm
      exact ⟨m, h.move (Nat.le_antisymm hlength (Nat.le_trans this hfits.2))⟩
    | some migration =>
      simp only [hm, Option.bind_eq_bind, Option.bind_eq_some_iff] at hstep
      obtain ⟨rows, hrows, hstep⟩ := hstep
      have hrec : Recorded migrations m rows := by
        simpa [Database.rows, hrows] using h.migrated.recorded
      split at hstep <;> rw [Option.some.injEq] at hstep <;> subst hstep
      · rename_i happlied
        rw [alreadyApplied_iff_lt hnum hrec hm] at happlied
        exact ⟨m, h.move ⟨hfits.1, happlied⟩⟩
      · exact ⟨m, h.move hfits⟩
  | beginning i =>
    rw [hphase] at hstep
    cases hwriter : s.writer with
    | some tx => simp [hwriter] at hstep
    | none =>
      simp only [hwriter, Option.some.injEq] at hstep
      subst hstep
      exact ⟨m, h.beginTransaction hphase hwriter⟩
  | rechecking i =>
    rw [hphase] at hstep hfits
    obtain ⟨htable, hi, hwriter⟩ := hfits
    simp only [Option.bind_eq_bind, Option.bind_eq_some_iff] at hstep
    obtain ⟨migration, hm, tx, htx, rows, hrows, hstep⟩ := hstep
    obtain rfl := eq_of_transactionOf htx hwriter
    have hrows : s.database.migrations = some rows := hrows
    have hrec : Recorded migrations m rows := by
      simpa [Database.rows, hrows] using h.migrated.recorded
    have hiff := alreadyApplied_iff_lt hnum hrec hm
    split at hstep <;> rw [Option.some.injEq] at hstep <;> subst hstep
    · rename_i happlied
      exact ⟨m, h.rollBack fun _ ↦ ⟨htable, hiff.mp happlied⟩⟩
    · rename_i happlied
      have : ¬ i < m := fun hlt ↦ happlied (hiff.mpr hlt)
      exact ⟨m, h.move ⟨htable, by omega, hwriter⟩⟩
  | executing i =>
    rw [hphase] at hstep hfits
    obtain ⟨htable, hi, hwriter⟩ := hfits
    simp only [Option.bind_eq_bind, Option.bind_eq_some_iff, Option.some.injEq] at hstep
    obtain ⟨migration, hm, tx, htx, schema, hschema, rfl⟩ := hstep
    obtain rfl := eq_of_transactionOf htx hwriter
    exact ⟨m, h.work htx ⟨hi, migration, schema, hm, hschema, htable, rfl⟩⟩
  | recording i =>
    rw [hphase] at hstep hfits
    obtain ⟨hi, migration, schema, hm, hexec, htable, hwriter⟩ := hfits
    simp only [Option.bind_eq_bind, Option.bind_eq_some_iff, Option.ite_none_left_eq_some,
      Option.some.injEq] at hstep
    obtain ⟨migration', hm', tx, htx, rows, hrows, -, rfl⟩ := hstep
    obtain rfl := eq_of_transactionOf htx hwriter
    rw [hm, Option.some.injEq] at hm'
    subst hm'
    have heq : s.database.rows = rows := by simpa [Database.rows] using congrArg (·.getD []) hrows
    exact ⟨m, h.work htx ⟨hi, migration, schema, now, hm, hexec, by rw [heq]; rfl⟩⟩
  | committing i =>
    rw [hphase] at hstep
    simp only [Option.bind_eq_bind, Option.bind_eq_some_iff, Option.some.injEq] at hstep
    obtain ⟨tx, htx, rfl⟩ := hstep
    exact ⟨m + 1, h.commit hphase htx _⟩
  | returned result => simp [hphase] at hstep
  | stopped => simp [hphase] at hstep

theorem step {a : OpenerAction ι} (hnum : Numbered migrations)
    (hstep : s.step migrations execBatch a = some t) :
    ∃ m', Consistent migrations execBatch k first m' t := by
  cases a with
  | proceed o now => exact h.proceed hnum hstep
  | fail o error =>
    simp only [Openers.step, Option.bind_eq_bind, Option.bind_eq_some_iff,
      Option.some.injEq] at hstep
    obtain ⟨text, -, rfl⟩ := hstep
    exact ⟨m, h.rollBack fun _ ↦ trivial⟩
  | stop o =>
    simp only [Openers.step] at hstep
    split at hstep
    · cases hstep
    · cases hstep
    · rw [Option.some.injEq] at hstep
      subst hstep
      exact ⟨m, h.rollBack fun _ ↦ trivial⟩

end Consistent

theorem consistent_run {s : Openers ι σ} {actions : List (OpenerAction ι)}
    (hnum : Numbered migrations) (hk : k ≤ migrations.length)
    (hrec : Recorded migrations k first.rows)
    (hrun : (migrating migrations execBatch).run (start first) actions = some s) :
    ∃ m, Consistent migrations execBatch k first m s := by
  have hstart : ∃ m, Consistent migrations execBatch k first m (start first : Openers ι σ) :=
    ⟨k, Migrated.start hk hrec, fun _ ↦ trivial⟩
  apply Machine.run_invariant (I := fun s ↦ ∃ m, Consistent migrations execBatch k first m s)
    hstart _ hrun
  rintro s a t ⟨m, h⟩ hstep
  exact h.step hnum hstep

end Openers

/-- Whatever the openers do, and wherever they fail or end: after any run the file is the one at
the start with the next migrations applied in order, each one committed once and together with
its row, and if an opener has returned `Ok`, with all of them. -/
theorem migrations_apply_exactly_once {ι σ : Type} [DecidableEq ι] {migrations : List Migration}
    {execBatch : String → σ → Option σ} {k : ℕ} {first : Database σ} {s : Openers ι σ}
    {actions : List (OpenerAction ι)} (hnum : Numbered migrations) (hk : k ≤ migrations.length)
    (hrec : Recorded migrations k first.rows)
    (hrun : (migrating migrations execBatch).run (Openers.start first) actions = some s) :
    ∃ m, Migrated migrations execBatch k first m s.database s.commits ∧
      ∀ o applied, (s.openers o).phase = .returned (.ok applied) →
        m = migrations.length ∧
        ∀ migration ∈ migrations, alreadyApplied s.database.rows (migrationPrefix migration.1) := by
  obtain ⟨m, h⟩ := Openers.consistent_run hnum hk hrec hrun
  refine ⟨m, h.migrated, fun o applied hphase ↦ ?_⟩
  have hall : m = migrations.length := by
    have hfits := h.fits o
    rwa [hphase] at hfits
  refine ⟨hall, fun migration hmem ↦ ?_⟩
  obtain ⟨i, hm⟩ := List.mem_iff_getElem?.mp hmem
  rw [alreadyApplied_iff_lt hnum h.migrated.recorded hm, hall]
  exact (List.getElem?_eq_some_iff.mp hm).1

/-- Two openers on a file with one migration under an older name. -/
theorem migrations_apply_once_for_two_openers :
    let migrations : List Migration := [("0000_initial", "a"), ("0001_events", "b")]
    let execBatch : String → List String → Option (List String) := fun sql schema ↦
      some (schema ++ [sql])
    let first : Database (List String) := ⟨["a"], some [⟨"0000_renamed", 5⟩]⟩
    let actions : List (OpenerAction Bool) :=
      [.proceed true 7, .proceed false 7, .proceed true 7, .proceed false 7, .proceed true 7,
        .proceed false 7, .proceed true 7, .proceed true 7, .proceed true 7, .proceed true 8,
        .proceed true 9, .proceed false 9, .proceed false 9, .proceed true 9, .proceed false 9]
    ∃ s, (migrating migrations execBatch).run (Openers.start first) actions = some s ∧
      ∃ m, Migrated migrations execBatch 1 first m s.database s.commits ∧
        ∀ o applied, (s.openers o).phase = .returned (.ok applied) →
          m = migrations.length ∧
          ∀ migration ∈ migrations,
            alreadyApplied s.database.rows (migrationPrefix migration.1) := by
  intro migrations execBatch first actions
  have hnum : Numbered migrations := by
    intro i m hm
    match i with
    | 0 => obtain rfl := Option.some.inj hm; decide +kernel
    | 1 => obtain rfl := Option.some.inj hm; decide +kernel
    | i + 2 => cases hm
  have hrec : Recorded migrations 1 first.rows := by
    have hsame : migrationPrefix "0000_renamed" = migrationPrefix "0000_initial" := by
      decide +kernel
    intro pre
    simp [migrations, first, Database.rows, hsame]
  have hruns : ((migrating migrations execBatch).run (Openers.start first) actions).isSome := by
    decide +kernel
  obtain ⟨s, hs⟩ := Option.isSome_iff_exists.mp hruns
  exact ⟨s, hs, migrations_apply_exactly_once hnum (by decide) hrec hs⟩

end Daku.Store
