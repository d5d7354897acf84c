import ReadThrough.Proofs.Freshness.Places

/-! # Sweeps of a whole table

A change that names no keys sweeps all entries of its table. When its invalidation has ended, the
store holds no entry of the table any more that a read could be served.

* `Cache.Serves` are the keys under which a read of a table is served;
* `Sweeping` is the invariant while the invalidation goes on: what is still held is still to be
  deleted by one of its jobs;
* `none_served_of_sweep` is what it comes to.
-/

namespace ReadThrough
set_option autoImplicit false

variable {ρ σ : Type}

/-! ## What is served, and what is deleted -/

/-- The keys under which a cache of this level looks for entries of a table. -/
def Cache.Serves (c : Cache) (table key : String) : Prop :=
  (c.config.level.cachesPoints ∧
    (isUnder key (c.space.rowsOf table) ∨ isUnder key (c.space.uniquesOf table))) ∨
  (c.config.level.cachesSearches ∧ isUnder key (c.space.resultsOf table))

theorem Cache.Grows.isInvalidatedBy {c c' : Cache} (h : c.Grows c') (change : Change) :
    c'.isInvalidatedBy change = c.isInvalidatedBy change := by
  rw [Cache.isInvalidatedBy, Cache.isInvalidatedBy, h.config]

theorem Cache.Grows.heeds_iff {c c' : Cache} (h : c.Grows c') {change : Change} :
    c'.Heeds change ↔ c.Heeds change := by
  rw [← Cache.isInvalidatedBy_iff, h.isInvalidatedBy, Cache.isInvalidatedBy_iff]

theorem Cache.Grows.serves_iff {c c' : Cache} (h : c.Grows c') {table key : String} :
    c'.Serves table key ↔ c.Serves table key := by
  rw [Cache.Serves, Cache.Serves, h.config, h.space]

/-- The change updates or deletes rows and names none of them: lists of keys are missing or empty. -/
structure Change.SweepsAll (change : Change) : Prop where
  kind : change.kind ≠ .create
  primary : change.primaryKeys = none ∨ change.primaryKeys = some []
  unique : ∀ named ∈ change.indexes, named.keys = none ∨ named.keys = some []

theorem namedKeys?_eq_none {keys : Option (List CompositeKey)} (h : keys = none ∨ keys = some []) :
    namedKeys? keys = none := by
  rcases h with rfl | rfl <;> rfl

namespace Cache

variable {c : Cache} {change : Change} {key index : String}

/-- Whether an index is mentioned or not, a change that names no keys sweeps it. -/
theorem under_indexOf_mem_deletions (sweeps : change.SweepsAll)
    (known : index ∈ c.knownIndexes change.table) :
    .under (c.space.indexOf change.table index) ∈ c.deletions change := by
  refine List.mem_cons_of_mem _ (List.mem_append.mpr ?_)
  cases hmentioned : change.mentions index with
  | true =>
    obtain ⟨named, hnamed, hindex⟩ := List.any_eq_true.mp hmentioned
    obtain rfl : named.index = index := by simpa using hindex
    refine .inl (List.mem_map.mpr ⟨named, hnamed, ?_⟩)
    rw [indexDeletion, namedKeys?_eq_none (sweeps.unique named hnamed)]
  | false =>
    refine .inr (List.mem_map.mpr ⟨index, List.mem_filter.mpr ⟨known, ?_⟩, rfl⟩)
    rw [hmentioned]
    rfl

theorem under_rowsOf_mem_deletions (sweeps : change.SweepsAll) :
    .under (c.space.rowsOf change.table) ∈ c.deletions change := by
  have hrows : c.rowDeletion change = .under (c.space.rowsOf change.table) := by
    rw [rowDeletion, namedKeys?_eq_none sweeps.primary]
  exact hrows ▸ List.mem_cons_self

theorem invalidationJobs_deletes (sweeps : change.SweepsAll) (free : ColonFree change.table)
    (serves : c.Serves change.table key) {table : String} (free' : ColonFree table)
    (places : c.Places table key) :
    ∃ job ∈ c.invalidationJobs change, (JobRun.start job).Deletes key := by
  rcases serves with ⟨hlevel, hunder⟩ | ⟨hlevel, hunder⟩
  · obtain ⟨segments, hmem, hdeletes⟩ :
        ∃ segments, .under segments ∈ c.deletions change ∧ isUnder key segments := by
      rcases hunder with hrow | hunique
      · exact ⟨_, under_rowsOf_mem_deletions sweeps, hrow⟩
      · obtain ⟨index, hknown, hindex⟩ := places.of_isUnder_uniquesOf free' free hunique
        exact ⟨_, under_indexOf_mem_deletions sweeps hknown, hindex⟩
    refine ⟨.deletePoints change.table (c.deletions change), ?_, ?_⟩
    · refine List.mem_append_left _ ?_
      rw [if_pos ⟨sweeps.kind, hlevel⟩]
      exact List.mem_singleton_self _
    · exact JobRun.next_deletes.mpr ⟨_, List.mem_map.mpr ⟨_, hmem, rfl⟩, hdeletes⟩
  · refine ⟨.sweepSearches change.table (c.space.resultsOf change.table), ?_, ?_⟩
    · refine List.mem_append_right _ ?_
      rw [if_pos hlevel]
      exact List.mem_singleton_self _
    · exact JobRun.next_deletes.mpr ⟨_, List.mem_singleton_self _, hunder⟩

end Cache

/-! ## Moves of an invalidation -/

/-- If it is waited for, an invalidation goes on until its jobs have ended. -/
theorem Invalidation.start_stage {c : Cache} {change : Change} (effective : c.isInvalidatedBy change)
    (waits : c.config.detachesUpkeep = false) :
    (Invalidation.start c change).stage =
      if (c.invalidationJobs change).isEmpty then .ended
      else .deleting ((c.invalidationJobs change).map JobRun.start) := by
  simp only [Invalidation.start, effective, if_true, waits]
  change (if (c.invalidationJobs change).isEmpty = true then _ else _ : Turn _).stage = _
  split <;> rfl

namespace Activity

/-- What an invalidation may do: begin, let one of its jobs take a step, end after its jobs, or be
broken off. -/
inductive MovesChange [Medium σ] (now : Nat) (c : Cache) (store : σ) (event : Change) :
    InvalidationStage → ActivityStep ρ σ → Prop
  | start : MovesChange now c store event .ready
      (ofInvalidationTurn event store (Invalidation.start c event))
  | job {jobs index run taken} (found : jobs[index]? = some run)
      (steps : run.step? now store = some taken) :
    MovesChange now c store event (.deleting jobs)
      { cache := c
        store := taken.store
        activity := .change event (.deleting (jobs.set index taken.run))
        notices := taken.notices }
  | finish {jobs} (ended : ∀ run ∈ jobs, run.isFinished ∨ run.isBroken) :
    MovesChange now c store event (.deleting jobs)
      (ofInvalidationTurn event store { cache := c, stage := .ended })
  | abort {stage} : MovesChange now c store event stage
      (ofInvalidationTurn event store { cache := c, stage := .aborted })

theorem move?_change [Medium σ] {now : Nat} {c : Cache} {store : σ} {event : Change}
    {stage : InvalidationStage} {move : Move ρ} {step : ActivityStep ρ σ}
    (h : (Activity.change event stage).move? now c store move = some step) :
    MovesChange now c store event stage step := by
  cases move with
  | go =>
    cases stage with
    | ready =>
      obtain rfl := Option.some.inj h
      exact .start
    | deleting jobs =>
      simp only [move?, go?, goInvalidation?] at h
      split at h
      · rename_i hended
        obtain rfl := Option.some.inj h
        exact .finish (by simpa using hended)
      · cases h
    | ended | aborted => cases h
  | goJob mover index =>
    simp only [move?, goJob?, Option.bind_eq_bind, Option.bind_eq_some_iff] at h
    obtain ⟨run, hrun, taken, htaken, ⟨⟩⟩ := h
    cases stage with
    | deleting jobs => exact .job hrun htaken
    | ready | ended | aborted => cases hrun
  | deliver => cases h
  | abort =>
    cases stage with
    | ready | deleting =>
      obtain rfl := Option.some.inj h
      exact .abort
    | ended | aborted => cases h

end Activity

/-! ## The invariant of a sweep -/

/-- The jobs of an invalidation cover what they delete, as long as none has taken a step. -/
theorem JobRun.Covering.of_invalidation [Medium σ] [LawfulMedium σ] {Targets : String → Prop}
    {now : Nat} {store : σ} {c : Cache} {change : Change}
    (covers : ∀ key value, LawfulMedium.Holds store now key value → Targets key →
      ∃ job ∈ c.invalidationJobs change, (JobRun.start job).Deletes key) :
    JobRun.Covering Targets now store ((c.invalidationJobs change).map JobRun.start) := by
  constructor
  · intro run hrun
    obtain ⟨job, hjob, rfl⟩ := List.mem_map.mp hrun
    exact Cache.invalidationJobs_isDeletion hjob
  · intro key value held target
    obtain ⟨job, hjob, hdeletes⟩ := covers key value held target
    exact ⟨_, List.mem_map_of_mem hjob, hdeletes⟩

namespace World

variable [Medium σ] [LawfulMedium σ] {w w' : World ρ σ} {writer : ActivityId} {change : Change}
  {action : Action ρ σ}

omit [LawfulMedium σ] in
/-- An invalidation stays as it is in a step, unless it moves. -/
theorem change_keeps_or_moves {stage : InvalidationStage}
    (is : w.node.activities[writer]? = some (.change change stage)) (acts : w.act? action = some w') :
    w'.node.activities[writer]? = some (.change change stage) ∨
      ∃ step, Activity.MovesChange w.now w.node.cache w.store change stage step ∧
        w' = w.after writer step := by
  rcases keeps_or_moves is acts with hkept | ⟨move, step, taken, hafter⟩
  · exact .inl hkept
  · exact .inr ⟨step, Activity.move?_change taken, hafter⟩

/-- How far an invalidation of a whole table has come. -/
inductive Sweeping (writer : ActivityId) (change : Change) (w : World ρ σ) : Prop
  | ready (is : w.node.activities[writer]? = some (.change change .ready))
  | deleting {jobs : List JobRun}
      (is : w.node.activities[writer]? = some (.change change (.deleting jobs)))
      (deletion : ∀ job ∈ jobs, job.IsDeletion)
      (covers : ∀ key value, w.Holds key value → w.node.cache.Serves change.table key →
        ∃ job ∈ jobs, job.Deletes key)
  | ended (is : w.node.activities[writer]? = some (.change change .ended))
      (none : ∀ key value, w.Holds key value → ¬ w.node.cache.Serves change.table key)
  | aborted (is : w.node.activities[writer]? = some (.change change .aborted))

theorem Sweeping.of_start (tidy : Tidy w) (effective : w.node.cache.isInvalidatedBy change)
    (sweeps : change.SweepsAll)
    (is : w.node.activities[writer]? = some (.change change .ready)) :
    Sweeping writer change (w.after writer
      (Activity.ofInvalidationTurn change w.store (Invalidation.start w.node.cache change))) := by
  have hmover : (w.after writer (Activity.ofInvalidationTurn change w.store
      (Invalidation.start w.node.cache change))).node.activities[writer]? =
      some (.change change (Invalidation.start w.node.cache change).stage) :=
    after_activities_mover is _
  have hgrows := (Activity.start_cache w.node.cache change).1
  -- what is held stands in its place, so a job finds it
  have hcovering : JobRun.Covering
      ((Invalidation.start w.node.cache change).cache.Serves change.table) w.now w.store
      ((w.node.cache.invalidationJobs change).map JobRun.start) := by
    refine .of_invalidation fun key value held serves => ?_
    obtain ⟨table, hfree, hplaces⟩ := tidy.held key value held
    exact Cache.invalidationJobs_deletes sweeps (tidy.plain _ _ is) (hgrows.serves_iff.mp serves)
      hfree hplaces
  rw [Invalidation.start_stage effective tidy.waits] at hmover
  split at hmover
  · rename_i hnone
    rw [List.isEmpty_iff.mp hnone] at hcovering
    exact .ended hmover fun key value held => hcovering.ended (by simp) held
  · exact .deleting hmover hcovering.deletion hcovering.covers

theorem Sweeping.step (h : Sweeping writer change w) (tidy : Tidy w)
    (effective : w.node.cache.isInvalidatedBy change) (sweeps : change.SweepsAll)
    (plain : w.Plain action) (idle : w.Moves (·.fills? = none) action)
    (acts : w.act? action = some w') : Sweeping writer change w' := by
  have hcalm := act?_calm tidy plain idle acts
  cases h with
  | ready is =>
    rcases change_keeps_or_moves is acts with hkept | ⟨step, hstep, rfl⟩
    · exact .ready hkept
    · generalize hstage : InvalidationStage.ready = stage at hstep
      cases hstep with
      | start => exact .of_start tidy effective sweeps is
      | abort => exact .aborted (after_activities_mover is _)
      | job | finish => cases hstage
  | deleting is deletion covers =>
    rcases change_keeps_or_moves is acts with hkept | ⟨step, hstep, rfl⟩
    · refine .deleting hkept deletion fun key value held serves => ?_
      exact covers key value (hcalm.held key value held) (hcalm.grows.serves_iff.mp serves)
    · cases hstep with
      | job found steps =>
        have hnext := (JobRun.Covering.mk deletion covers).set tidy.reliable found steps
        exact .deleting (after_activities_mover is _) hnext.deletion hnext.covers
      | abort => exact .aborted (after_activities_mover is _)
      | finish ended =>
        refine .ended (after_activities_mover is _) fun key value held serves => ?_
        exact (JobRun.Covering.mk deletion covers).ended ended held serves
  | ended is none =>
    rcases change_keeps_or_moves is acts with hkept | ⟨step, hstep, rfl⟩
    · refine .ended hkept fun key value held serves => ?_
      exact none key value (hcalm.held key value held) (hcalm.grows.serves_iff.mp serves)
    · cases hstep with
      | abort => exact .aborted (after_activities_mover is _)
  | aborted is =>
    rcases change_keeps_or_moves is acts with hkept | ⟨step, hstep, rfl⟩
    · exact .aborted hkept
    · cases hstep with
      | abort => exact .aborted (after_activities_mover is _)

/-! ## The end of a sweep -/

def Resting (w : World ρ σ) : Prop :=
  ∀ i query format stage, w.Reads i query format stage →
    stage = .ready ∨ ∃ answer, stage = .ended answer

theorem Resting.of_calm (h : Resting w) (calm : Calm w w') : Resting w' := by
  intro i query format stage hread
  rcases calm.reads.old i query format stage not_false hread with hold | ⟨hready, -⟩
  · exact h i query format stage hold
  · exact .inl hready

/-- Table names are free of colons, the store belongs to the cache alone, and neither reads nor direct
operations that store something move. -/
def Undisturbed (w : World ρ σ) (action : Action ρ σ) : Prop :=
  w.Plain action ∧ w.Moves (·.fills? = none) action

instance (w : World ρ σ) (action : Action ρ σ) : Decidable (w.Undisturbed action) :=
  inferInstanceAs (Decidable (w.Plain action ∧ w.Moves (·.fills? = none) action))

/-- When the invalidation of a change that names no keys has ended, undisturbed by reads, nothing
that the store holds is served to reads of the table. -/
theorem none_served_of_sweep {log : List (Event ρ)} (tidy : Tidy w) (resting : Resting w)
    (called : w.node.activities[writer]? = some (.change change .ready))
    (effective : w.node.cache.isInvalidatedBy change) (sweeps : change.SweepsAll)
    (run : Runs Undisturbed w log w')
    (returned : w'.node.activities[writer]? = some (.change change .ended)) :
    Resting w' ∧ w.node.cache.Grows w'.node.cache ∧
      ∀ key value, w'.Holds key value → ¬ w'.node.cache.Serves change.table key := by
  have hinv : Tidy w' ∧ Resting w' ∧ w.node.cache.Grows w'.node.cache ∧
      Sweeping writer change w' := by
    clear returned
    induction run with
    | refl => exact ⟨tidy, resting, .refl _, .ready called⟩
    | step action run admitted acts ih =>
      obtain ⟨htidy, hresting, hgrows, hsweeping⟩ := ih
      have hcalm := act?_calm htidy admitted.1 admitted.2 acts
      have heffective := (hgrows.isInvalidatedBy change).trans effective
      exact ⟨htidy.step admitted.1 acts, hresting.of_calm hcalm, hgrows.trans hcalm.grows,
        hsweeping.step htidy heffective sweeps admitted.1 admitted.2 acts⟩
  obtain ⟨-, hresting, hgrows, hsweeping⟩ := hinv
  refine ⟨hresting, hgrows, ?_⟩
  cases hsweeping with
  | ended is none => exact none
  | ready is => cases returned.symm.trans is
  | deleting is => cases returned.symm.trans is
  | aborted is => cases returned.symm.trans is

end World

end ReadThrough
