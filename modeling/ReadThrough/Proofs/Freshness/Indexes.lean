import ReadThrough.Proofs.Freshness.Reach
import ReadThrough.Proofs.Store.Refusals

/-! # Every index that holds entries is known

What a cache stores under a unique key, it stores under an index that it knows by then, and it forgets no
index. So an invalidation that mentions no index finds every entry under a unique key of its table.

* `World.Sees` are the indexes that come up in a step: those of fetched rows that are stored under their
  keys, and those of direct operations;
* `KeepsIndexes` is the invariant of all runs, `Registered` that of a store which the cache has to itself;
* `Emptying` is how far an invalidation has come, amid anything that stores nothing meanwhile;
* `stored_indexes_are_known` puts them together.
-/

namespace ReadThrough
set_option autoImplicit false

variable {ρ σ : Type}

/-! ## Unique keys -/

namespace KeyLayout

/-- What the unique keys of all tables lie under. -/
def uniques (space : KeyLayout) : String := space.id ++ ":u"

theorem uniques_toList (space : KeyLayout) :
    space.uniques.toList = space.id.toList ++ [':', 'u'] := by
  simp [uniques, String.toList_append]

theorem isUnder_uniques_iff {space : KeyLayout} {letter : Char} {table rest : List Char}
    {key : String} (hkey : key.toList = space.inNamespace letter table rest) :
    isUnder key space.uniques ↔ letter = 'u' := by
  rw [isUnder_iff, hkey, uniques_toList, inNamespace, List.append_assoc,
    List.prefix_append_right_inj]
  simp [eq_comm]

end KeyLayout

namespace Cache

variable {c : Cache} {table key : String}

/-- A unique key in its place belongs to an index that is known. -/
theorem Places.of_isUnder_uniques (h : c.Places table key) (under : isUnder key c.space.uniques) :
    ∃ index ∈ c.knownIndexes table, ∃ unique, key = c.space.indexKey table index unique := by
  cases h with
  | row primary =>
    have hletter := (KeyLayout.isUnder_uniques_iff (KeyLayout.rowKey_toList _ _ _)).mp under
    exact absurd hletter (by decide)
  | indexed known unique => exact ⟨_, known, unique, rfl⟩
  | result sql params =>
    have hletter := (KeyLayout.isUnder_uniques_iff (KeyLayout.resultKey_toList _ _ _ _)).mp under
    exact absurd hletter (by decide)

end Cache

/-! ## Indexes that come up -/

/-- The index comes up in a move: rows that were fetched for a leading read are to be stored under their
keys and have keys of this index, or a direct operation stores something under it. -/
inductive Activity.Sees (c : Cache) : Activity ρ → Move ρ → (table index : String) → Prop
  | fetched {query format flight result found row index key mover}
      (level : c.config.level.cachesPoints) (answered : query.shape.normalize result = some found)
      (written : ∀ row ∈ found.rows, ∃ text, format.encode row = some text)
      (few : c.config.rowLimit = 0 ∨ found.rows.length ≤ c.config.rowLimit) (mem : row ∈ found.rows)
      (identified : (index, key) ∈ format.uniqueKeys row) :
    Sees c (.read query format (.fetching flight)) (.deliver mover (.answered result)) query.table
      index
  | given {table index rows mover} :
    Sees c (.request (.putUniques table index rows) .ready) (.go mover) table index

theorem Activity.Sees.known [Medium σ] {now : Nat} {c : Cache} {store : σ} {activity : Activity ρ}
    {move : Move ρ} {step : ActivityStep ρ σ} {table index : String}
    (h : Activity.Sees c activity move table index)
    (taken : activity.move? now c store move = some step) :
    index ∈ step.cache.knownIndexes table := by
  cases h with
  | fetched level answered written few mem identified =>
    obtain rfl := Option.some.inj taken
    obtain ⟨text, hencoded⟩ := written _ mem
    obtain ⟨payload, hpayload⟩ := RowFormat.exists_encodeAll_iff.mpr written
    have hlearnt := Read.mem_indexesOfRows mem hencoded identified
    simp only [ofReadTurn, Read.afterFetch, answered, hpayload]
    rw [Read.keep_knownIndexes, Read.rowsPlan, if_pos (Configuration.admitsCount_iff.mpr few)]
    dsimp only
    rw [if_pos level]
    exact mem_knownIndexes_learnIndexes.mpr (.inl ⟨rfl, hlearnt⟩)
  | given =>
    obtain rfl := Option.some.inj taken
    exact mem_knownIndexes_learnIndexes.mpr (.inl ⟨rfl, List.mem_singleton_self _⟩)

namespace World

/-- The index comes up in a step. -/
def Sees (w : World ρ σ) (action : Action ρ σ) (table index : String) : Prop :=
  ∃ move activity, action = .move move ∧ w.node.activities[move.activity]? = some activity ∧
    activity.Sees w.node.cache move table index

/-- A caller has asked for something that stores entries of this table. -/
def Fills (w : World ρ σ) (table : String) : Prop :=
  ∃ (i : ActivityId) (activity : Activity ρ), w.node.activities[i]? = some activity ∧
    activity.fills? = some table

section

variable [Medium σ] {w w' : World ρ σ} {action : Action ρ σ} {table index : String}

theorem Sees.known (h : w.Sees action table index) (acts : w.act? action = some w') :
    index ∈ w'.node.cache.knownIndexes table := by
  obtain ⟨move, activity, rfl, found, hsees⟩ := h
  obtain ⟨activity', step, found', taken, rfl⟩ := act?_move_iff.mp acts
  obtain rfl := Option.some.inj (found.symm.trans found')
  exact hsees.known taken

theorem Fills.step (h : w.Fills table) (acts : w.act? action = some w') : w'.Fills table := by
  obtain ⟨i, activity, found, hfills⟩ := h
  rcases keeps_or_moves found acts with hkept | ⟨move, step, taken, rfl⟩
  · exact ⟨i, activity, hkept, hfills⟩
  · refine ⟨i, step.activity, after_activities_mover found step, ?_⟩
    rw [← Activity.fills?_origin, Activity.move?_origin taken, Activity.fills?_origin, hfills]

end

/-! ## What is stored, and what is held -/

section

variable [Medium σ] [LawfulMedium σ] {start w w' : World ρ σ} {action : Action ρ σ}
  {log : List (Event ρ)}

/-- What activities are going to store, they are going to store in its place, for a table that a caller
has named; and the indexes known at the start are still known. -/
structure KeepsIndexes (start w : World ρ σ) : Prop where
  grows : start.node.cache.Grows w.node.cache
  stores : ∀ (i : ActivityId) (activity : Activity ρ) (key value : String),
    w.node.activities[i]? = some activity → activity.Stores key value →
      ∃ table, w.Fills table ∧ w.node.cache.Places table key

omit [Medium σ] [LawfulMedium σ] in
theorem KeepsIndexes.of_new (new : w.IsNew) : KeepsIndexes w w := by
  refine ⟨.refl _, fun i activity key value found => ?_⟩
  simp [new.2] at found

theorem KeepsIndexes.step (h : KeepsIndexes start w) (acts : w.act? action = some w') :
    KeepsIndexes start w' := by
  have hgrows := act?_grows acts
  refine ⟨h.grows.trans hgrows, fun i after key value found stores => ?_⟩
  have hbefore : ∀ before, w.node.activities[i]? = some before → before.Stores key value →
      ∃ table, w'.Fills table ∧ w'.node.cache.Places table key := by
    intro before found hstores
    obtain ⟨table, hfills, hplaces⟩ := h.stores i before key value found hstores
    exact ⟨table, hfills.step acts, hplaces.grows hgrows⟩
  cases hdisturbs : action.disturbs with
  | true =>
    cases action with
    | disturb =>
      obtain rfl := Option.some.inj acts
      exact hbefore after found stores
    | _ => cases hdisturbs
  | false =>
    rcases (act?_entryStep hdisturbs acts).stores i after key value found stores with
      ⟨before, hfound, -, hstores⟩ | ⟨move, activity, -, hfound, -, hsupplies⟩
    · exact hbefore before hfound hstores
    · obtain ⟨table, hfills, hplaces⟩ := hsupplies.places hgrows
      have hnow : w.Fills table := ⟨_, activity, hfound, hfills⟩
      exact ⟨table, hnow.step acts, hplaces⟩

theorem KeepsIndexes.run {admits : World ρ σ → Action ρ σ → Prop} (h : KeepsIndexes start w)
    (run : Runs admits w log w') : KeepsIndexes start w' := by
  induction run with
  | refl => exact h
  | step action _ _ acts ih => exact ih.step acts

/-- The store belongs to the cache alone. -/
def Owned (_ : World ρ σ) (action : Action ρ σ) : Prop := action.disturbs = false

instance (w : World ρ σ) (action : Action ρ σ) : Decidable (w.Owned action) :=
  inferInstanceAs (Decidable (action.disturbs = false))

/-- All that the store holds stands in its place, for a table that a caller has named. -/
def Registered (w : World ρ σ) : Prop :=
  ∀ key value, w.Holds key value → ∃ table, w.Fills table ∧ w.node.cache.Places table key

theorem Registered.step (h : w.Registered) (keeps : KeepsIndexes start w) (owned : w.Owned action)
    (acts : w.act? action = some w') : w'.Registered := by
  have hgrows := act?_grows acts
  intro key value held
  rcases (act?_entryStep owned acts).held key value held with
    hbefore | ⟨move, activity, -, hfound, hstores⟩
  · obtain ⟨table, hfills, hplaces⟩ := h key value hbefore
    exact ⟨table, hfills.step acts, hplaces.grows hgrows⟩
  · obtain ⟨table, hfills, hplaces⟩ := keeps.stores _ activity key value hfound hstores
    exact ⟨table, hfills.step acts, hplaces.grows hgrows⟩

theorem registered_of_run (new : start.IsNew) (empty : ∀ key value, ¬ start.Holds key value)
    (run : Runs Owned start log w) : w.Registered := by
  have hinv : KeepsIndexes start w ∧ w.Registered := by
    induction run with
    | refl => exact ⟨.of_new new, fun key value held => absurd held (empty key value)⟩
    | step action _ owned acts ih => exact ⟨ih.1.step acts, ih.2.step ih.1 owned acts⟩
  exact hinv.2

end

/-! ## An invalidation that empties indexes -/

section

variable [Medium σ] [LawfulMedium σ] {w w' : World ρ σ} {writer : ActivityId} {change : Change}
  {action : Action ρ σ} {Targets : String → Prop}

/-- No call of the invalidation has failed so far. -/
def Unfailed (writer : ActivityId) (w : World ρ σ) : Prop :=
  ∀ change jobs, w.node.activities[writer]? = some (.change change (.deleting jobs)) →
    ∀ job ∈ jobs, job.IsDeletion

/-- The store belongs to the cache alone, no activity moves that has something to store, and no call of
the invalidation fails. -/
def Emptied (writer : ActivityId) (w : World ρ σ) (action : Action ρ σ) : Prop :=
  w.Owned action ∧ w.Moves (fun activity => ∀ key value, ¬ activity.Stores key value) action ∧
    w.Unfailed writer

theorem Emptied.held (h : w.Emptied writer action) (acts : w.act? action = some w')
    {key value : String} (held : w'.Holds key value) : w.Holds key value := by
  rcases (act?_entryStep h.1 acts).held key value held with
    hbefore | ⟨move, activity, rfl, hfound, hstores⟩
  · exact hbefore
  · exact absurd hstores (h.2.1 activity hfound key value)

/-- How far an invalidation has come that deletes all that is held under certain keys. -/
inductive Emptying (Targets : String → Prop) (writer : ActivityId) (change : Change) (w : World ρ σ) :
    Prop
  | ready (is : w.node.activities[writer]? = some (.change change .ready))
  | deleting {jobs : List JobRun}
      (is : w.node.activities[writer]? = some (.change change (.deleting jobs)))
      (covering : JobRun.Covering Targets w.now w.store jobs)
  | failed {jobs : List JobRun}
      (is : w.node.activities[writer]? = some (.change change (.deleting jobs)))
      (failed : ¬ ∀ job ∈ jobs, job.IsDeletion)
  | ended (is : w.node.activities[writer]? = some (.change change .ended))
      (none : ∀ key value, w.Holds key value → ¬ Targets key)
  | aborted (is : w.node.activities[writer]? = some (.change change .aborted))

theorem Emptying.of_start (effective : w.node.cache.isInvalidatedBy change)
    (waits : w.node.cache.config.detachesUpkeep = false)
    (covers : ∀ key, Targets key →
      ∃ job ∈ w.node.cache.invalidationJobs change, (JobRun.start job).Deletes key)
    (is : w.node.activities[writer]? = some (.change change .ready)) :
    Emptying Targets writer change (w.after writer
      (Activity.ofInvalidationTurn change w.store (Invalidation.start w.node.cache change))) := by
  have hmover : (w.after writer (Activity.ofInvalidationTurn change w.store
      (Invalidation.start w.node.cache change))).node.activities[writer]? =
      some (.change change (Invalidation.start w.node.cache change).stage) :=
    after_activities_mover is _
  have hcovering : JobRun.Covering Targets w.now w.store
      ((w.node.cache.invalidationJobs change).map JobRun.start) :=
    .of_invalidation fun key _ _ target => covers key target
  rw [Invalidation.start_stage effective waits] at hmover
  split at hmover
  · rename_i hnone
    rw [List.isEmpty_iff.mp hnone] at hcovering
    exact .ended hmover fun key value held => hcovering.ended (by simp) held
  · exact .deleting hmover hcovering

theorem Emptying.step [CandidMedium σ] (h : Emptying Targets writer change w)
    (effective : w.node.cache.isInvalidatedBy change)
    (waits : w.node.cache.config.detachesUpkeep = false)
    (covers : ∀ key, Targets key →
      ∃ job ∈ w.node.cache.invalidationJobs change, (JobRun.start job).Deletes key)
    (admitted : w.Emptied writer action) (acts : w.act? action = some w') :
    Emptying Targets writer change w' := by
  have hheld : ∀ key value, w'.Holds key value → w.Holds key value :=
    fun _ _ held => admitted.held acts held
  cases h with
  | ready is =>
    rcases change_keeps_or_moves is acts with hkept | ⟨step, hstep, rfl⟩
    · exact .ready hkept
    · generalize hstage : InvalidationStage.ready = stage at hstep
      cases hstep with
      | start => exact .of_start effective waits covers is
      | abort => exact .aborted (after_activities_mover is _)
      | job | finish => cases hstage
  | deleting is covering =>
    rcases change_keeps_or_moves is acts with hkept | ⟨step, hstep, rfl⟩
    · exact .deleting hkept ⟨covering.deletion, fun key value held target =>
        covering.covers key value (hheld key value held) target⟩
    · cases hstep with
      | @job jobs index run moved found steps =>
        by_cases hunfailed : moved.run.IsDeletion
        · exact .deleting (after_activities_mover is _) (covering.set_of_unfailed found steps hunfailed)
        · refine .failed (after_activities_mover is _) fun hall => hunfailed ?_
          exact hall _ (List.mem_set (List.getElem?_eq_some_iff.mp found).1 moved.run)
      | abort => exact .aborted (after_activities_mover is _)
      | finish ended =>
        exact .ended (after_activities_mover is _) fun key value held => covering.ended ended held
  | failed is failed => exact absurd (admitted.2.2 change _ is) failed
  | ended is none =>
    rcases change_keeps_or_moves is acts with hkept | ⟨step, hstep, rfl⟩
    · exact .ended hkept fun key value held => none key value (hheld key value held)
    · cases hstep with
      | abort => exact .aborted (after_activities_mover is _)
  | aborted is =>
    rcases change_keeps_or_moves is acts with hkept | ⟨step, hstep, rfl⟩
    · exact .aborted hkept
    · cases hstep with
      | abort => exact .aborted (after_activities_mover is _)

end

/-! ## All unique keys of a table -/

end World

/-- A change of rows in a table whose rows are cached, that mentions no index. -/
structure Cache.EmptiesIndexes (c : Cache) (change : Change) : Prop where
  kind : change.kind ≠ .create
  level : c.config.level.cachesPoints
  unmentioned : change.indexes = []
  effective : c.Heeds change
  waits : c.config.detachesUpkeep = false

namespace Cache

variable {c c' : Cache} {change : Change}

theorem EmptiesIndexes.grows (h : c.EmptiesIndexes change) (grows : c.Grows c') :
    c'.EmptiesIndexes change where
  kind := h.kind
  level := grows.config ▸ h.level
  unmentioned := h.unmentioned
  effective := grows.heeds_iff.mpr h.effective
  waits := grows.config ▸ h.waits

theorem EmptiesIndexes.deletes (h : c.EmptiesIndexes change) {index : String}
    (known : index ∈ c.knownIndexes change.table) (unique : CompositeKey) :
    ∃ job ∈ c.invalidationJobs change,
      (JobRun.start job).Deletes (c.space.indexKey change.table index unique) := by
  refine deletes_iff_reaches.mpr ⟨.indexed change.table index unique, ?_, rfl⟩
  refine .unmentioned h.kind h.level known (fun named mem => ?_) unique
  rw [h.unmentioned] at mem
  cases mem

end Cache

namespace World

section

variable [Medium σ] [LawfulMedium σ] [CandidMedium σ] {start w w' : World ρ σ} {writer : ActivityId}
  {change : Change} {log : List (Event ρ)}

/-- After the invalidation nothing is held that was not held when it was called, and nothing under an
index of the table that was known then. -/
theorem emptied_of_run (empties : w.node.cache.EmptiesIndexes change)
    (called : w.node.activities[writer]? = some (.change change .ready))
    (run : Runs (Emptied writer) w log w')
    (returned : w'.node.activities[writer]? = some (.change change .ended)) :
    (∀ key value, w'.Holds key value → w.Holds key value) ∧
      ∀ index ∈ w.node.cache.knownIndexes change.table, ∀ unique value,
        ¬ w'.Holds (w.node.cache.space.indexKey change.table index unique) value := by
  have hinv : w.node.cache.Grows w'.node.cache ∧
      (∀ key value, w'.Holds key value → w.Holds key value) ∧
      Emptying (fun key => ∃ index ∈ w.node.cache.knownIndexes change.table, ∃ unique,
        key = w.node.cache.space.indexKey change.table index unique) writer change w' := by
    clear returned
    induction run with
    | refl => exact ⟨.refl _, fun _ _ held => held, .ready called⟩
    | step action _ admitted acts ih =>
      obtain ⟨hgrows, hheld, hemptying⟩ := ih
      have hempties := empties.grows hgrows
      refine ⟨hgrows.trans (act?_grows acts),
        fun key value held => hheld key value (admitted.held acts held), ?_⟩
      have heffective := Cache.isInvalidatedBy_iff.mpr hempties.effective
      apply hemptying.step heffective hempties.waits ?_ admitted acts
      intro key htarget
      obtain ⟨index, hknown, unique, rfl⟩ := htarget
      rw [← hgrows.space]
      exact hempties.deletes (hgrows.indexes _ _ hknown) unique
  obtain ⟨-, hheld, hemptying⟩ := hinv
  refine ⟨hheld, fun index known unique value held => ?_⟩
  cases hemptying with
  | ended is none => exact none _ value held ⟨index, known, unique, rfl⟩
  | ready is => cases returned.symm.trans is
  | deleting is => cases returned.symm.trans is
  | failed is => cases returned.symm.trans is
  | aborted is => cases returned.symm.trans is

end

section

variable [Medium σ] [LawfulMedium σ] {start w w' : World ρ σ} {log : List (Event ρ)}

/-- What a cache in this world knows of unique indexes, after a run that began with `start`. -/
structure KnowsIndexes (start w : World ρ σ) : Prop where
  /-- What is going to be stored under a unique key is stored under an index that is known already. -/
  stored : ∀ (i : ActivityId) (activity : Activity ρ) (key value : String),
    w.node.activities[i]? = some activity → activity.Stores key value →
      isUnder key w.node.cache.space.uniques →
        ∃ table index unique, w.Fills table ∧ index ∈ w.node.cache.knownIndexes table ∧
          key = w.node.cache.space.indexKey table index unique
  declared : ∀ table, ∀ index ∈ start.node.cache.config.declaredIndexes.getD table [],
    index ∈ w.node.cache.knownIndexes table
  seen : ∀ action w', w.act? action = some w' → ∀ table index, w.Sees action table index →
    index ∈ w'.node.cache.knownIndexes table
  kept : ∀ log w', Runs Unrestricted w log w' → ∀ table, ∀ index ∈ w.node.cache.knownIndexes table,
    index ∈ w'.node.cache.knownIndexes table

/-- No entry of the table is left under a unique key: all unique keys that are still held are keys of
other tables, under indexes that are known. -/
structure LeavesNoUniques (w : World ρ σ) (table : String) (w' : World ρ σ) : Prop where
  known : ∀ index ∈ w.node.cache.knownIndexes table, ∀ unique value,
    ¬ w'.Holds (w.node.cache.space.indexKey table index unique) value
  others : ∀ key value, w'.Holds key value → isUnder key w.node.cache.space.uniques →
    ∃ other index unique, other ≠ table ∧ w.Fills other ∧ index ∈ w.node.cache.knownIndexes other ∧
      key = w.node.cache.space.indexKey other index unique
  /-- If table names are free of colons, nothing is left under the prefix of the table. -/
  plain : ColonFree table → (∀ other, w.Fills other → ColonFree other) → ∀ key value,
    w'.Holds key value → ¬ isUnder key (w.node.cache.space.uniquesOf table)

omit [Medium σ] [LawfulMedium σ] in
theorem IsNew.declared (new : w.IsNew) {table index : String}
    (declared : index ∈ w.node.cache.config.declaredIndexes.getD table []) :
    index ∈ w.node.cache.knownIndexes table := by
  obtain ⟨config, drawnId, -, hcache⟩ := new.cache
  rw [hcache] at declared ⊢
  rw [Std.TreeMap.getD_eq_getD_getElem?] at declared
  simp only [Cache.knownIndexes, Std.TreeSet.mem_toList, Std.TreeMap.getD_eq_getD_getElem?,
    Std.TreeMap.getElem?_map]
  cases hnames : config.declaredIndexes[table]? with
  | none =>
    rw [hnames] at declared
    cases declared
  | some names =>
    rw [hnames] at declared
    simpa [Std.TreeSet.mem_ofList] using declared

omit [LawfulMedium σ] in
theorem KeepsIndexes.knows (h : KeepsIndexes start w) (new : start.IsNew) : KnowsIndexes start w where
  stored i activity key value found stores under := by
    obtain ⟨table, hfills, hplaces⟩ := h.stores i activity key value found stores
    obtain ⟨index, hknown, unique, hkey⟩ := hplaces.of_isUnder_uniques under
    exact ⟨table, index, unique, hfills, hknown, hkey⟩
  declared table index declared := h.grows.indexes _ _ (new.declared declared)
  seen action w' acts table index sees := sees.known acts
  kept log w' run table index known := by
    have hgrows : w.node.cache.Grows w'.node.cache := by
      induction run with
      | refl => exact .refl _
      | step action _ _ acts ih => exact ih.trans (act?_grows acts)
    exact hgrows.indexes _ _ known

theorem Registered.leavesNoUniques {table : String} (h : w.Registered)
    (held : ∀ key value, w'.Holds key value → w.Holds key value)
    (known : ∀ index ∈ w.node.cache.knownIndexes table, ∀ unique value,
      ¬ w'.Holds (w.node.cache.space.indexKey table index unique) value) :
    LeavesNoUniques w table w' := by
  have hothers : ∀ key value, w'.Holds key value → isUnder key w.node.cache.space.uniques →
      ∃ other index unique, other ≠ table ∧ w.Fills other ∧
        index ∈ w.node.cache.knownIndexes other ∧
          key = w.node.cache.space.indexKey other index unique := by
    intro key value hheld under
    obtain ⟨other, hfills, hplaces⟩ := h key value (held key value hheld)
    obtain ⟨index, hknown, unique, rfl⟩ := hplaces.of_isUnder_uniques under
    refine ⟨other, index, unique, ?_, hfills, hknown, rfl⟩
    rintro rfl
    exact known index hknown unique value hheld
  refine ⟨known, hothers, fun free frees key value hheld under => ?_⟩
  obtain ⟨other, hfills, hplaces⟩ := h key value (held key value hheld)
  obtain ⟨index, hknown, hunder⟩ := hplaces.of_isUnder_uniquesOf (frees other hfills) free under
  obtain ⟨unique, rfl⟩ : ∃ unique, w.node.cache.space.indexKey table index unique = key :=
    deletes_under_iff.mp hunder
  exact known index hknown unique value hheld

/-- In every run of a new cache, whatever its store does: what is stored under a unique key is stored under
an index that is known by then, and an index that was declared or has come up stays known. If the store
was empty and is the cache's own, every unique key that is held belongs to a known index, and an
invalidation that is waited for, mentions no index, and does not fail, while nothing else is stored, leaves
no unique key of its table. -/
theorem stored_indexes_are_known [CandidMedium σ] (new : start.IsNew) :
    (∀ log w, Runs Unrestricted start log w → KnowsIndexes start w) ∧
    ((∀ key value, ¬ start.Holds key value) → ∀ log w, Runs Owned start log w →
      (∀ key value, w.Holds key value → isUnder key w.node.cache.space.uniques →
        ∃ table index unique, index ∈ w.node.cache.knownIndexes table ∧
          key = w.node.cache.space.indexKey table index unique) ∧
      ∀ writer change log' w', w.node.activities[writer]? = some (.change change .ready) →
        w.node.cache.EmptiesIndexes change → Runs (Emptied writer) w log' w' →
        w'.node.activities[writer]? = some (.change change .ended) →
        LeavesNoUniques w change.table w') := by
  refine ⟨fun log w run => (KeepsIndexes.of_new new).run run |>.knows new, fun empty log w run => ?_⟩
  have hregistered : w.Registered := registered_of_run new empty run
  constructor
  · intro key value held under
    obtain ⟨table, -, hplaces⟩ := hregistered key value held
    obtain ⟨index, hknown, unique, hkey⟩ := hplaces.of_isUnder_uniques under
    exact ⟨table, index, unique, hknown, hkey⟩
  · intro writer change log' w' called empties later returned
    obtain ⟨hheld, hknown⟩ := emptied_of_run empties called later returned
    exact hregistered.leavesNoUniques hheld hknown

end

/-! ## Indexes that were not seen -/

def emailRead : Query :=
  { table := "users", sql := "select", lookup := some (.unique "email" [.single "x"]) }

/-- A lookup asks the store for keys of any index, so the store is passed keys of an index that the cache
does not know. -/
theorem unknown_index_is_looked_up :
    ∃ (w : World Row RecordingStore) (log : List (Event Row)),
      atRest.IsNew ∧ Runs Unrestricted atRest log w ∧
      w.Reads 0 emailRead Row.integers (.awaitingPoints 0 [.single "x"]
        (.asked (.getAll [w.node.cache.space.indexKey "users" "email" (.single "x")]))) ∧
      "email" ∉ w.node.cache.knownIndexes "users" := by
  have hrun : (atRest.perform? Unrestricted [.read emailRead Row.integers, .move (.go 0)]).map
      (fun last => (last.1.node.activities[0]?, last.1.node.cache.space,
        last.1.node.cache.knownIndexes "users")) =
      some (some (.read emailRead Row.integers (.awaitingPoints 0 [.single "x"]
        (.asked (.getAll ["a:u:users:email:x"])))), ⟨"a"⟩, []) := by cbv
  obtain ⟨⟨w, log⟩, run, hfacts⟩ := Option.map_eq_some_iff.mp hrun
  simp only [Prod.mk.injEq] at hfacts
  obtain ⟨hreads, hspace, hknown⟩ := hfacts
  refine ⟨w, log, ⟨⟨{}, "a", rfl⟩, rfl⟩, .of_perform? run, ?_, ?_⟩
  · rw [Reads, hreads, hspace]
    rfl
  · rw [hknown]
    simp

/-! ## An index that was seen -/

/-- On a reliable store, an invalidation that has the cache to itself does not fail. -/
theorem emptied_of_alone [Medium σ] [LawfulMedium σ] [ExactMedium σ] {w w' : World ρ σ}
    {writer : ActivityId} {change : Change} {log : List (Event ρ)}
    (called : w.node.activities[writer]? = some (.change change .ready))
    (empties : w.node.cache.EmptiesIndexes change) (reliable : LawfulMedium.Reliable w.store)
    (run : Runs (Alone writer) w log w') :
    Invalidating w writer change w' ∧ Runs (Emptied writer) w log w' := by
  induction run with
  | refl => exact ⟨.ready, .refl⟩
  | @step _ now next action _ alone acts ih =>
    obtain ⟨hinvalidating, hrun⟩ := ih
    have heffective := Cache.isInvalidatedBy_iff.mpr empties.effective
    refine ⟨hinvalidating.step called heffective empties.waits reliable alone acts, ?_⟩
    -- the jobs of the writer have not failed, so they store nothing
    have hdeletion : ∀ activity, now.node.activities[writer]? = some activity →
        (∃ stage, activity = .change change stage) ∧ ∀ job ∈ activity.jobs, job.IsDeletion := by
      intro activity found
      cases hinvalidating with
      | ready =>
        obtain rfl := Option.some.inj (found.symm.trans called)
        exact ⟨⟨_, rfl⟩, by simp [Activity.jobs]⟩
      | deleting is deletion =>
        obtain rfl := Option.some.inj (found.symm.trans is)
        exact ⟨⟨_, rfl⟩, deletion⟩
      | ended is | aborted is =>
        obtain rfl := Option.some.inj (found.symm.trans is)
        exact ⟨⟨_, rfl⟩, by simp [Activity.jobs]⟩
    refine .step action hrun ⟨?_, ?_, ?_⟩ acts
    · cases action with
      | move => rfl
      | _ => exact alone.elim
    · cases action with
      | move move =>
        obtain rfl : move.activity = writer := alone
        intro activity found key value stores
        obtain ⟨⟨stage, rfl⟩, hjobs⟩ := hdeletion activity found
        obtain ⟨job, hjob, hstores⟩ := stores
        exact JobRun.not_stores_of_isDeletion (hjobs job hjob) key value hstores
      | _ => exact alone.elim
    · intro other jobs found
      exact (hdeletion _ found).2

/-- A user is stored by email, and a change of the table is called. -/
def emailStored : List (Action Row RecordingStore) :=
  [.request (.putUniques "users" "email" [(.single "x", "1")]), .move (.go 0), .move (.go 0),
    .move (.go 0), .change usersChange]

/-- The row is swept, then the index, then the searches. -/
def emailSwept : List (Action Row RecordingStore) :=
  [.move (.go 1), .move (.goJob 1 0), .move (.goJob 1 0), .move (.goJob 1 0), .move (.goJob 1 0),
    .move (.goJob 1 1), .move (.goJob 1 1), .move (.go 1)]

/-- A change that mentions no index removes the entry of a user by email. -/
theorem stored_email_is_swept :
    ∃ (w w' : World Row RecordingStore) (before log : List (Event Row)),
      atRest.IsNew ∧ (∀ key value, ¬ atRest.Holds key value) ∧ Runs Owned atRest before w ∧
      w.node.activities[1]? = some (.change usersChange .ready) ∧
      w.node.cache.EmptiesIndexes usersChange ∧ Runs (Emptied 1) w log w' ∧
      w'.node.activities[1]? = some (.change usersChange .ended) ∧
      w.Holds "a:u:users:email:x" "1" ∧ LeavesNoUniques w "users" w' := by
  have hrun : ((atRest.perform? Owned emailStored).bind fun first =>
      (first.1.perform? (Alone 1) emailSwept).map fun second =>
        ((first.1.node.cache.config.level, first.1.node.cache.isInvalidatedBy usersChange,
          first.1.node.cache.config.detachesUpkeep),
          first.1.node.activities[1]?, first.1.store.entries["a:u:users:email:x"]?,
          first.1.store.failures, second.1.node.activities[1]?)) =
      some ((.all, true, false), some (.change usersChange .ready), some "1", ∅,
        some (.change usersChange .ended)) := by cbv
  obtain ⟨⟨w, before⟩, hfirst, hrest⟩ := Option.bind_eq_some_iff.mp hrun
  obtain ⟨⟨w', log⟩, hsecond, hfacts⟩ := Option.map_eq_some_iff.mp hrest
  simp only [Prod.mk.injEq] at hfacts
  obtain ⟨⟨hlevel, heffective, hwaits⟩, called, hheld, hfailures, returned⟩ := hfacts
  have new : atRest.IsNew := ⟨⟨{}, "a", rfl⟩, rfl⟩
  have empty : ∀ key value, ¬ atRest.Holds key value := by
    intro key value held
    cases held
  have earlier : Runs Owned atRest before w := .of_perform? hfirst
  have empties : w.node.cache.EmptiesIndexes usersChange :=
    ⟨by decide, hlevel ▸ rfl, rfl, Cache.isInvalidatedBy_iff.mp heffective, hwaits⟩
  have reliable : LawfulMedium.Reliable w.store := by
    intro method
    rw [hfailures]
    rfl
  have later : Runs (Emptied 1) w log w' :=
    (emptied_of_alone called empties reliable (.of_perform? hsecond)).2
  exact ⟨w, w', before, log, new, empty, earlier, called, empties, later, returned, hheld,
    ((stored_indexes_are_known new).2 empty before w earlier).2 1 usersChange log w' called empties
      later returned⟩

end World

end ReadThrough
