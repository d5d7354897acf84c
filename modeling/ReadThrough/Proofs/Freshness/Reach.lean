import ReadThrough.Proofs.Flights.LateReads
import ReadThrough.Proofs.Freshness.Sweep
import ReadThrough.Proofs.Store.Exactness

/-! # What an invalidation reaches

A change reaches certain places of the store: the searches of its table, the rows and keys that it
names, and what it leaves open. If its invalidation is waited for, and nothing else goes on meanwhile,
the entries in these places are gone when it has ended, and all others are as they were. A change
without effect touches nothing.

* a `Place` is where an entry stands, `Cache.Reaches` says which places a change reaches;
* `Cache.deletes_iff_reaches`: the jobs of the invalidation delete from just these places;
* `Place.reached_of_same_key`: without colons in names, a place has no key of another;
* `Invalidating` is how far an invalidation has come, and `invalidation_clears_reached_places` is the
  theorem.
-/

namespace ReadThrough
set_option autoImplicit false

variable {ρ σ : Type}

/-! ## Places -/

/-- Where an entry stands. -/
inductive Place
  | row (table : String) (key : CompositeKey)
  | indexed (table index : String) (key : CompositeKey)
  | result (table sql : String) (params : List Param)

namespace Place

def key (space : KeyLayout) : Place → String
  | .row table key => space.rowKey table key
  | .indexed table index key => space.indexKey table index key
  | .result table sql params => space.resultKey table sql params

/-- The names in the place are free of colons. -/
def Plain : Place → Prop
  | .row table _ | .result table _ _ => ColonFree table
  | .indexed table index _ => ColonFree table ∧ ColonFree index

end Place

/-- A list that is missing or empty is about all keys; otherwise it is about the keys that read like
one of its own. -/
def Concerns (keys : Option (List CompositeKey)) (key : CompositeKey) : Prop :=
  keys.getD [] = [] ∨ ∃ named ∈ keys.getD [], named.text = key.text

/-- The places whose entries a change makes stale, as far as a cache of this level stores them. -/
inductive Cache.Reaches (c : Cache) (change : Change) : Place → Prop
  | result (level : c.config.level.cachesSearches) (sql : String) (params : List Param) :
    Reaches c change (.result change.table sql params)
  | row {key} (kind : change.kind ≠ .create) (level : c.config.level.cachesPoints)
      (concerns : Concerns change.primaryKeys key) : Reaches c change (.row change.table key)
  | mentioned {named key} (kind : change.kind ≠ .create) (level : c.config.level.cachesPoints)
      (mem : named ∈ change.indexes) (concerns : Concerns named.keys key) :
    Reaches c change (.indexed change.table named.index key)
  | unmentioned {index} (kind : change.kind ≠ .create) (level : c.config.level.cachesPoints)
      (known : index ∈ c.knownIndexes change.table)
      (unmentioned : ∀ named ∈ change.indexes, named.index ≠ index) (key : CompositeKey) :
    Reaches c change (.indexed change.table index key)

def Cache.ReachesKey (c : Cache) (change : Change) (key : String) : Prop :=
  ∃ place, c.Reaches change place ∧ place.key c.space = key

/-! ## Deletions -/

theorem isUnder_iff_exists {key segments : String} :
    isUnder key segments ↔ ∃ rest, key = segments ++ ":" ++ rest := by
  rw [isUnder_iff]
  constructor
  · rintro ⟨rest, hrest⟩
    refine ⟨String.ofList rest, String.ext ?_⟩
    simp [← hrest]
  · rintro ⟨rest, rfl⟩
    simp

theorem CompositeKey.text_single (value : String) : (CompositeKey.single value).text = value := by
  simp [single, text]

theorem concerns_of_named {keys : Option (List CompositeKey)} {named : List CompositeKey}
    (h : namedKeys? keys = some named) (key : CompositeKey) :
    Concerns keys key ↔ ∃ own ∈ named, own.text = key.text := by
  unfold namedKeys? at h
  split at h
  · obtain rfl := Option.some.inj h
    simp [Concerns]
  · cases h

theorem concerns_of_unnamed {keys : Option (List CompositeKey)} (h : namedKeys? keys = none)
    (key : CompositeKey) : Concerns keys key := by
  cases keys with
  | none => exact .inl rfl
  | some named =>
    cases named with
    | nil => exact .inl rfl
    | cons => cases h

theorem concerns_of_text {keys : Option (List CompositeKey)} {key key' : CompositeKey}
    (same : key.text = key'.text) (h : Concerns keys key) : Concerns keys key' := by
  rwa [Concerns, ← same]

theorem deletes_keys_iff {keys : Option (List CompositeKey)} {named : List CompositeKey}
    {key segments : String} (h : namedKeys? keys = some named) :
    (Deletion.keys (named.map (segments ++ ":" ++ ·.text))).call.Deletes key ↔
      ∃ own, Concerns keys own ∧ segments ++ ":" ++ own.text = key := by
  change key ∈ named.map _ ↔ _
  simp only [List.mem_map, concerns_of_named h]
  constructor
  · rintro ⟨own, hmem, hkey⟩
    exact ⟨own, ⟨own, hmem, rfl⟩, hkey⟩
  · rintro ⟨own, ⟨other, hmem, htext⟩, hkey⟩
    exact ⟨other, hmem, htext ▸ hkey⟩

theorem deletes_under_iff {key segments : String} :
    (Deletion.under segments).call.Deletes key ↔
      ∃ own : CompositeKey, segments ++ ":" ++ own.text = key := by
  change isUnder key segments ↔ _
  rw [isUnder_iff_exists]
  constructor
  · rintro ⟨rest, rfl⟩
    exact ⟨.single rest, by rw [CompositeKey.text_single]⟩
  · rintro ⟨own, rfl⟩
    exact ⟨own.text, rfl⟩

namespace Cache

variable {c : Cache} {change : Change} {key : String}

theorem rowDeletion_deletes : (c.rowDeletion change).call.Deletes key ↔
    ∃ own, Concerns change.primaryKeys own ∧ c.space.rowKey change.table own = key := by
  unfold rowDeletion
  split
  · rename_i named hnamed
    exact deletes_keys_iff hnamed
  · rename_i hunnamed
    simp only [concerns_of_unnamed hunnamed, true_and]
    exact deletes_under_iff

theorem indexDeletion_deletes {named : IndexKeys} : (c.indexDeletion change named).call.Deletes key ↔
    ∃ own, Concerns named.keys own ∧ c.space.indexKey change.table named.index own = key := by
  unfold indexDeletion
  split
  · rename_i keys hnamed
    exact deletes_keys_iff hnamed
  · rename_i hunnamed
    simp only [concerns_of_unnamed hunnamed, true_and]
    exact deletes_under_iff

theorem mem_unmentionedDeletions {deletion : Deletion} :
    deletion ∈ c.unmentionedDeletions change ↔
      ∃ index ∈ c.knownIndexes change.table, (∀ named ∈ change.indexes, named.index ≠ index) ∧
        deletion = .under (c.space.indexOf change.table index) := by
  have hmentions : ∀ index, (!change.mentions index) = true ↔
      ∀ named ∈ change.indexes, named.index ≠ index := by
    intro index
    simp [Change.mentions]
  simp only [unmentionedDeletions, List.mem_map, List.mem_filter, hmentions, and_assoc]
  simp only [@eq_comm _ deletion]

theorem deletePoints_deletes {table : String} {deletions : List Deletion} :
    (JobRun.start (.deletePoints table deletions)).Deletes key ↔
      ∃ deletion ∈ deletions, deletion.call.Deletes key := by
  rw [JobRun.start, JobRun.next_deletes]
  simp [Job.steps]

theorem sweepSearches_deletes {table segments : String} :
    (JobRun.start (.sweepSearches table segments)).Deletes key ↔ isUnder key segments := by
  rw [JobRun.start, JobRun.next_deletes]
  simp [Job.steps, Call.Deletes]

/-- The jobs of an invalidation delete from the places that the change reaches. -/
theorem deletes_iff_reaches :
    (∃ job ∈ c.invalidationJobs change, (JobRun.start job).Deletes key) ↔
      c.ReachesKey change key := by
  constructor
  · rintro ⟨job, hjob, hdeletes⟩
    rcases List.mem_append.mp hjob with hpoints | hsearches
    · split at hpoints
      · rename_i hlevel
        obtain ⟨hkind, hlevel⟩ := hlevel
        obtain rfl := List.mem_singleton.mp hpoints
        obtain ⟨deletion, hdeletion, hkey⟩ := deletePoints_deletes.mp hdeletes
        rcases List.mem_append.mp hdeletion with hlisted | hunmentioned
        · rcases List.mem_cons.mp hlisted with rfl | hmentioned
          · obtain ⟨own, hconcerns, rfl⟩ := rowDeletion_deletes.mp hkey
            exact ⟨_, .row hkind hlevel hconcerns, rfl⟩
          · obtain ⟨named, hnamed, rfl⟩ := List.mem_map.mp hmentioned
            obtain ⟨own, hconcerns, rfl⟩ := indexDeletion_deletes.mp hkey
            exact ⟨_, .mentioned hkind hlevel hnamed hconcerns, rfl⟩
        · obtain ⟨index, hknown, hnone, rfl⟩ := mem_unmentionedDeletions.mp hunmentioned
          obtain ⟨own, rfl⟩ := deletes_under_iff.mp hkey
          exact ⟨_, .unmentioned hkind hlevel hknown hnone own, rfl⟩
      · cases hpoints
    · split at hsearches
      · rename_i hlevel
        obtain rfl := List.mem_singleton.mp hsearches
        obtain ⟨rest, rfl⟩ := isUnder_iff_exists.mp (sweepSearches_deletes.mp hdeletes)
        refine ⟨_, .result hlevel rest [], ?_⟩
        simp [Place.key, KeyLayout.resultKey, searchText]
      · cases hsearches
  · -- all but searches are deleted by one job
    have hpoints : ∀ {deletion : Deletion}, change.kind ≠ .create → c.config.level.cachesPoints →
        deletion ∈ c.deletions change → deletion.call.Deletes key →
        ∃ job ∈ c.invalidationJobs change, (JobRun.start job).Deletes key := by
      intro deletion hkind hlevel hmem hkey
      refine ⟨.deletePoints change.table (c.deletions change), List.mem_append_left _ ?_,
        deletePoints_deletes.mpr ⟨deletion, hmem, hkey⟩⟩
      rw [if_pos ⟨hkind, hlevel⟩]
      exact List.mem_singleton_self _
    rintro ⟨place, hreaches, rfl⟩
    cases hreaches with
    | result level sql params =>
      refine ⟨.sweepSearches change.table (c.space.resultsOf change.table), ?_, ?_⟩
      · refine List.mem_append_right _ ?_
        rw [if_pos level]
        exact List.mem_singleton_self _
      · exact sweepSearches_deletes.mpr (KeyLayout.isUnder_resultsOf _ _ sql params)
    | row kind level concerns =>
      exact hpoints kind level List.mem_cons_self (rowDeletion_deletes.mpr ⟨_, concerns, rfl⟩)
    | mentioned kind level mem concerns =>
      refine hpoints kind level ?_ (indexDeletion_deletes.mpr ⟨_, concerns, rfl⟩)
      exact List.mem_append_left _ (List.mem_cons_of_mem _ (List.mem_map_of_mem mem))
    | unmentioned kind level known unmentioned own =>
      refine hpoints kind level ?_ (deletes_under_iff.mpr ⟨own, rfl⟩)
      exact List.mem_append_right _ (mem_unmentionedDeletions.mpr ⟨_, known, unmentioned, rfl⟩)

end Cache

/-! ## Places told apart -/

/-- All names that tell the entries of a table and its indexes from others are free of colons. -/
structure Cache.NamesPlain (c : Cache) (change : Change) : Prop where
  table : ColonFree change.table
  mentioned : ∀ named ∈ change.indexes, ColonFree named.index
  known : ∀ index ∈ c.knownIndexes change.table, ColonFree index

namespace Place

variable {c : Cache} {change : Change} {place reached : Place}

theorem plain_of_reaches (h : c.Reaches change reached) (plain : c.NamesPlain change) :
    reached.Plain := by
  cases h with
  | result | row => exact plain.table
  | mentioned kind level mem concerns => exact ⟨plain.table, plain.mentioned _ mem⟩
  | unmentioned kind level known => exact ⟨plain.table, plain.known _ known⟩


/-- Among places with plain names, a change reaches all that have the key of a place it reaches. -/
theorem reached_of_same_key (h : c.Reaches change reached) (plain : reached.Plain)
    (plain' : place.Plain) (same : reached.key c.space = place.key c.space) :
    c.Reaches change place := by
  cases h with
  | result level sql params =>
    cases place with
    | row => exact absurd same.symm (KeyLayout.rowKey_ne_resultKey _ _ _)
    | indexed => exact absurd same.symm (KeyLayout.indexKey_ne_resultKey _ _ _ _)
    | result table sql' params' =>
      obtain rfl := KeyLayout.of_resultKey plain plain' same
      exact .result level sql' params'
  | row kind level concerns =>
    cases place with
    | indexed => exact absurd same (KeyLayout.rowKey_ne_indexKey _ _ _)
    | result => exact absurd same (KeyLayout.rowKey_ne_resultKey _ _ _)
    | row table key =>
      obtain ⟨rfl, htext⟩ := KeyLayout.of_rowKey plain plain' same
      exact .row kind level (concerns_of_text htext concerns)
  | mentioned kind level mem concerns =>
    cases place with
    | row => exact absurd same.symm (KeyLayout.rowKey_ne_indexKey _ _ _)
    | result => exact absurd same (KeyLayout.indexKey_ne_resultKey _ _ _ _)
    | indexed table index key =>
      obtain ⟨rfl, rfl, htext⟩ := KeyLayout.of_indexKey plain.1 plain'.1 plain.2 plain'.2 same
      exact .mentioned kind level mem (concerns_of_text htext concerns)
  | unmentioned kind level known unmentioned own =>
    cases place with
    | row => exact absurd same.symm (KeyLayout.rowKey_ne_indexKey _ _ _)
    | result => exact absurd same (KeyLayout.indexKey_ne_resultKey _ _ _ _)
    | indexed table index key =>
      obtain ⟨rfl, rfl, -⟩ := KeyLayout.of_indexKey plain.1 plain'.1 plain.2 plain'.2 same
      exact .unmentioned kind level known unmentioned key

end Place

/-! ## The invalidation by itself -/

namespace World

/-- Only this activity moves. -/
def Alone (mover : ActivityId) (_ : World ρ σ) : Action ρ σ → Prop
  | .move move => move.activity = mover
  | _ => False

instance (mover : ActivityId) (w : World ρ σ) :
    (action : Action ρ σ) → Decidable (w.Alone mover action)
  | .move move => inferInstanceAs (Decidable (move.activity = mover))
  | .read _ _ | .change _ | .request _ | .forget _ | .wait _ | .disturb _ => .isFalse id

variable [Medium σ] {w w' : World ρ σ} {writer : ActivityId} {change : Change} {action : Action ρ σ}
  {log : List (Event ρ)}

theorem change_of_alone {stage : InvalidationStage} (alone : w.Alone writer action)
    (acts : w.act? action = some w') (is : w.node.activities[writer]? = some (.change change stage)) :
    ∃ step, Activity.MovesChange w.now w.node.cache w.store change stage step ∧
      w' = w.after writer step := by
  cases action with
  | move move =>
    obtain ⟨activity, step, found, taken, rfl⟩ := act?_move_iff.mp acts
    obtain rfl : move.activity = writer := alone
    obtain rfl := Option.some.inj (found.symm.trans is)
    exact ⟨step, Activity.move?_change taken, rfl⟩
  | _ => exact alone.elim

theorem untouched_of_run (called : w.node.activities[writer]? = some (.change change .ready))
    (ineffective : w.node.cache.isInvalidatedBy change = false) (run : Runs (Alone writer) w log w') :
    (w'.store = w.store ∧ w'.flights = w.flights) ∧
      (w' = w ∨ w'.node.activities[writer]? = some (.change change .ended) ∨
        w'.node.activities[writer]? = some (.change change .aborted)) := by
  induction run with
  | refl => exact ⟨⟨rfl, rfl⟩, .inl rfl⟩
  | step action _ alone acts ih =>
    obtain ⟨⟨hstore, hflights⟩, hsame | is | is⟩ := ih
    · rw [hsame] at alone acts
      obtain ⟨step, hstep, rfl⟩ := change_of_alone alone acts called
      have hstart : Invalidation.start w.node.cache change =
          { cache := w.node.cache, stage := .ended } := by
        simp [Invalidation.start, ineffective]
      generalize hstage : InvalidationStage.ready = stage at hstep
      cases hstep with
      | start =>
        have hmover := after_activities_mover called
          (Activity.ofInvalidationTurn change w.store (Invalidation.start w.node.cache change))
        rw [hstart] at hmover ⊢
        exact ⟨⟨rfl, rfl⟩, .inr (.inl hmover)⟩
      | abort => exact ⟨⟨rfl, rfl⟩, .inr (.inr (after_activities_mover called _))⟩
      | job | finish => cases hstage
    · obtain ⟨step, hstep, rfl⟩ := change_of_alone alone acts is
      cases hstep with
      | abort => exact ⟨⟨hstore, hflights⟩, .inr (.inr (after_activities_mover is _))⟩
    · obtain ⟨step, hstep, rfl⟩ := change_of_alone alone acts is
      cases hstep with
      | abort => exact ⟨⟨hstore, hflights⟩, .inr (.inr (after_activities_mover is _))⟩

variable [LawfulMedium σ] {start : World ρ σ}

/-- How far an invalidation has come that is waited for, and alone, since this world. -/
inductive Invalidating (start : World ρ σ) (writer : ActivityId) (change : Change) : World ρ σ → Prop
  | ready : Invalidating start writer change start
  | deleting {later jobs} (is : later.node.activities[writer]? = some (.change change (.deleting jobs)))
      (deletion : ∀ job ∈ jobs, job.IsDeletion)
      (clearing : Clearing (start.node.cache.ReachesKey change) start.Holds later.now later.store
        fun key => ∃ job ∈ jobs, job.Deletes key) : Invalidating start writer change later
  | ended {later} (is : later.node.activities[writer]? = some (.change change .ended))
      (cleared : ∀ key value, later.Holds key value ↔
        start.Holds key value ∧ ¬ start.node.cache.ReachesKey change key) :
    Invalidating start writer change later
  | aborted {later} (is : later.node.activities[writer]? = some (.change change .aborted)) :
    Invalidating start writer change later

theorem clearing_of_start (reliable : LawfulMedium.Reliable w.store) (change : Change) :
    (∀ run ∈ (w.node.cache.invalidationJobs change).map JobRun.start, run.IsDeletion) ∧
      Clearing (w.node.cache.ReachesKey change) w.Holds w.now w.store
        fun key => ∃ run ∈ (w.node.cache.invalidationJobs change).map JobRun.start, run.Deletes key := by
  have hdeletes : ∀ key, (∃ run ∈ (w.node.cache.invalidationJobs change).map JobRun.start,
      run.Deletes key) ↔ w.node.cache.ReachesKey change key := by
    intro key
    rw [← Cache.deletes_iff_reaches]
    simp
  refine ⟨?_, reliable, fun key _ _ => (hdeletes key).mpr, fun key => (hdeletes key).mp,
    fun _ _ held _ => held, fun _ _ held => held⟩
  intro run hrun
  obtain ⟨job, hjob, rfl⟩ := List.mem_map.mp hrun
  exact Cache.invalidationJobs_isDeletion hjob

theorem Invalidating.of_start (effective : start.node.cache.isInvalidatedBy change)
    (waits : start.node.cache.config.detachesUpkeep = false)
    (reliable : LawfulMedium.Reliable start.store)
    (called : start.node.activities[writer]? = some (.change change .ready)) :
    Invalidating start writer change (start.after writer
      (Activity.ofInvalidationTurn change start.store
        (Invalidation.start start.node.cache change))) := by
  have hmover : (start.after writer (Activity.ofInvalidationTurn change start.store
      (Invalidation.start start.node.cache change))).node.activities[writer]? =
      some (.change change (Invalidation.start start.node.cache change).stage) :=
    after_activities_mover called _
  obtain ⟨hdeletion, hclearing⟩ := clearing_of_start reliable change
  rw [Invalidation.start_stage effective waits] at hmover
  split at hmover
  · rename_i hnone
    rw [List.isEmpty_iff.mp hnone] at hclearing
    exact .ended hmover (hclearing.ended (by simp))
  · exact .deleting hmover hdeletion hclearing

theorem Invalidating.step [ExactMedium σ] (h : Invalidating start writer change w)
    (called : start.node.activities[writer]? = some (.change change .ready))
    (effective : start.node.cache.isInvalidatedBy change)
    (waits : start.node.cache.config.detachesUpkeep = false)
    (reliable : LawfulMedium.Reliable start.store) (alone : w.Alone writer action)
    (acts : w.act? action = some w') : Invalidating start writer change w' := by
  cases h with
  | ready =>
    obtain ⟨step, hstep, rfl⟩ := change_of_alone alone acts called
    generalize hstage : InvalidationStage.ready = stage at hstep
    cases hstep with
    | start => exact .of_start effective waits reliable called
    | abort => exact .aborted (after_activities_mover called _)
    | job | finish => cases hstage
  | deleting is deletion clearing =>
    obtain ⟨step, hstep, rfl⟩ := change_of_alone alone acts is
    cases hstep with
    | job found taken =>
      obtain ⟨hdeletion, hclearing⟩ := clearing.jobs deletion found taken
      exact .deleting (after_activities_mover is _) hdeletion hclearing
    | finish ended =>
      refine .ended (after_activities_mover is _) (clearing.ended ?_)
      rintro key ⟨job, hjob, hdeletes⟩
      exact JobRun.not_deletes_of_ended (ended job hjob) key hdeletes
    | abort => exact .aborted (after_activities_mover is _)
  | ended is =>
    obtain ⟨step, hstep, rfl⟩ := change_of_alone alone acts is
    cases hstep with
    | abort => exact .aborted (after_activities_mover is _)
  | aborted is =>
    obtain ⟨step, hstep, rfl⟩ := change_of_alone alone acts is
    cases hstep with
    | abort => exact .aborted (after_activities_mover is _)

/-- When an invalidation with an effect has ended, what is held is what was held before, but for the
keys that it reached. -/
theorem cleared_of_run [ExactMedium σ]
    (called : w.node.activities[writer]? = some (.change change .ready))
    (effective : w.node.cache.isInvalidatedBy change)
    (waits : w.node.cache.config.detachesUpkeep = false) (reliable : LawfulMedium.Reliable w.store)
    (run : Runs (Alone writer) w log w')
    (returned : w'.node.activities[writer]? = some (.change change .ended)) (key value : String) :
    w'.Holds key value ↔ w.Holds key value ∧ ¬ w.node.cache.ReachesKey change key := by
  have hinv : Invalidating w writer change w' := by
    clear returned
    induction run with
    | refl => exact .ready
    | step action _ alone acts ih => exact ih.step called effective waits reliable alone acts
  cases hinv with
  | ready => cases returned.symm.trans called
  | deleting is => cases returned.symm.trans is
  | ended is cleared => exact cleared key value
  | aborted is => cases returned.symm.trans is

/-- An invalidation that is waited for, on a reliable store, with nothing else going on, in any order of
its jobs. If the change has an effect, no entry is left in a place that the change reaches, every other
key has the value that it had, and so has every other place, if names are free of colons. If the change
has no effect, neither the store nor the registry of flights changes. -/
theorem invalidation_clears_reached_places [ExactMedium σ]
    (called : w.node.activities[writer]? = some (.change change .ready))
    (run : Runs (Alone writer) w log w')
    (returned : w'.node.activities[writer]? = some (.change change .ended)) :
    (w.node.cache.Heeds change → w.node.cache.config.detachesUpkeep = false →
      LawfulMedium.Reliable w.store →
      (∀ place value, w.node.cache.Reaches change place →
        ¬ w'.Holds (place.key w.node.cache.space) value) ∧
      (∀ key value, (∀ place, w.node.cache.Reaches change place →
          place.key w.node.cache.space ≠ key) → (w'.Holds key value ↔ w.Holds key value)) ∧
      (w.node.cache.NamesPlain change → ∀ place value, place.Plain →
        ¬ w.node.cache.Reaches change place →
        (w'.Holds (place.key w.node.cache.space) value ↔
          w.Holds (place.key w.node.cache.space) value))) ∧
    (¬ w.node.cache.Heeds change → w'.store = w.store ∧ w'.flights = w.flights) := by
  refine ⟨fun effective waits reliable => ?_, fun ineffective =>
    (untouched_of_run called (Cache.isInvalidatedBy_eq_false_iff.mpr ineffective) run).1⟩
  have hcleared := cleared_of_run called (Cache.isInvalidatedBy_iff.mpr effective) waits reliable run returned
  have hkept : ∀ key value, (∀ place, w.node.cache.Reaches change place →
      place.key w.node.cache.space ≠ key) → (w'.Holds key value ↔ w.Holds key value) := by
    intro key value hother
    rw [hcleared]
    refine and_iff_left ?_
    rintro ⟨place, hreaches, hkey⟩
    exact hother place hreaches hkey
  refine ⟨?_, hkept, ?_⟩
  · intro place value hreaches held
    exact ((hcleared _ value).mp held).2 ⟨place, hreaches, rfl⟩
  · intro plain place value hplain hunreached
    refine hkept _ value fun reached hreaches hkey => hunreached ?_
    exact Place.reached_of_same_key hreaches (Place.plain_of_reaches hreaches plain) hplain hkey

/-! ## Tables with similar names -/

def userDeleted : Change :=
  { table := "users", kind := .delete, rowsAffected := 1, primaryKeys := some [.single "1"] }

/-- Rows of two tables are stored, an index is known, and the deletion is about to be handled. -/
def archivedUsers : World Row RecordingStore :=
  { node := {
      cache := {
        config := {}, space := ⟨"a"⟩
        indexes := (∅ : Std.TreeMap String (Std.TreeSet String)).insert "users" (.ofList ["email"]) }
      activities := [.change userDeleted .ready] }
    store := {
      entries := ((∅ : Std.TreeMap String String).insert "a:p:users:1" "1").insert
        "a:p:users_archive:1" "1" } }

def clearUsers : List (Action Row RecordingStore) :=
  [.move (.go 0), .move (.goJob 0 1), .move (.goJob 0 0), .move (.goJob 0 0), .move (.goJob 0 1),
    .move (.goJob 0 0), .move (.goJob 0 0), .move (.go 0)]

theorem archivedUsers_namesPlain : archivedUsers.node.cache.NamesPlain userDeleted where
  table := by decide
  mentioned named mem := by cases mem
  known index known := by
    have hknown : archivedUsers.node.cache.knownIndexes "users" = ["email"] := by cbv
    have hindex : index ∈ ["email"] := hknown ▸ known
    obtain rfl := List.mem_singleton.mp hindex
    decide

/-- The deletion of a user leaves the archive of users alone. -/
theorem deleted_user_cleared_archive_kept :
    ∃ (w : World Row RecordingStore) (log : List (Event Row)),
      archivedUsers.node.activities[0]? = some (.change userDeleted .ready) ∧
      archivedUsers.node.cache.Heeds userDeleted ∧
      archivedUsers.node.cache.config.detachesUpkeep = false ∧
      LawfulMedium.Reliable archivedUsers.store ∧ Runs (Alone 0) archivedUsers log w ∧
      w.node.activities[0]? = some (.change userDeleted .ended) ∧
      archivedUsers.Holds "a:p:users:1" "1" ∧ (∀ value, ¬ w.Holds "a:p:users:1" value) ∧
      w.Holds "a:p:users_archive:1" "1" := by
  have hrun : (archivedUsers.perform? (Alone 0) clearUsers).map
      (fun last => last.1.node.activities) = some [.change userDeleted .ended] := by cbv
  obtain ⟨⟨w, log⟩, hlast, hactivities⟩ := Option.map_eq_some_iff.mp hrun
  have run : Runs (Alone 0) archivedUsers log w := .of_perform? hlast
  have returned : w.node.activities[0]? = some (.change userDeleted .ended) := by
    rw [hactivities]
    rfl
  have effective : archivedUsers.node.cache.Heeds userDeleted := Cache.isInvalidatedBy_iff.mp rfl
  have reliable : LawfulMedium.Reliable archivedUsers.store := fun _ => rfl
  obtain ⟨hcleared, -, hkept⟩ :=
    (invalidation_clears_reached_places rfl run returned).1 effective rfl reliable
  have hreached : archivedUsers.node.cache.Reaches userDeleted (.row "users" (.single "1")) :=
    .row (by decide) rfl (.inr ⟨.single "1", List.mem_singleton_self _, rfl⟩)
  have hunreached : ¬ archivedUsers.node.cache.Reaches userDeleted
      (.row "users_archive" (.single "1")) := by
    intro hreaches
    generalize hplace : Place.row "users_archive" (.single "1") = place at hreaches
    cases hreaches with
    | row => exact absurd (Place.row.inj hplace).1 (by decide)
    | result | mentioned | unmentioned => cases hplace
  have hheld : archivedUsers.Holds "a:p:users_archive:1" "1" := by
    change archivedUsers.store.entries["a:p:users_archive:1"]? = some "1"
    cbv
  have hplain : (Place.row "users_archive" (.single "1")).Plain := by
    change ColonFree "users_archive"
    decide
  refine ⟨w, log, rfl, effective, rfl, reliable, run, returned, ?_, fun value => ?_, ?_⟩
  · change archivedUsers.store.entries["a:p:users:1"]? = some "1"
    cbv
  · exact hcleared _ value hreached
  · exact (hkept archivedUsers_namesPlain _ "1" hplain hunreached).mpr hheld

end World

end ReadThrough
