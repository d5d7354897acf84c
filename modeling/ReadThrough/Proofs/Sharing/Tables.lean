import ReadThrough.Json.Parser
import ReadThrough.Proofs.Sharing.Moves

/-! # Moves keep to tables

What a read, a change or a job does concerns keys of its table, in the namespaces that the level selects, and
it waits for the store only if the table is cached.

* `Activity.table?` is the table that an activity is for;
* `Cache.MayMark`: where the mark of a search that found nothing may stand. No row is written like it, if
  rows are written as JSON;
* `Activity.KeepsTable` is what all reads, changes and jobs keep to, and `Activity.move?_keepsTable` says that
  moves do; `Activity.untouched_of_uncached` that moves for other tables change nothing.
-/

namespace ReadThrough
set_option autoImplicit false

variable {ρ σ : Type}

/-! ## Tables of activities -/

/-- The table whose entries a job stores or deletes. -/
def Job.table : Job → String
  | .putSearch table _ | .putPoints table _ | .putNotFound table _ | .deletePoints table _
  | .sweepSearches table _ => table

namespace Activity

/-- The table of a read or a change. -/
def calledOn? : Activity ρ → Option String
  | .read query _ _ => some query.table
  | .change event _ => some event.table
  | .job _ | .request _ _ => none

/-- The table that an activity is for. A direct operation is for none, nor is a job that has ended. -/
def table? : Activity ρ → Option String
  | .job (.working upkeep _ _ _) => some upkeep.table
  | activity => activity.calledOn?

/-- The activity waits for something that only a cached table makes it wait for. -/
def UsesCache : Activity ρ → Prop
  | .read _ _ .ready | .read _ _ .bypassing | .read _ _ (.ended _) => False
  | .read _ _ _ => True
  | .change _ (.deleting _) => True
  | .job (.working _ _ _ _) => True
  | _ => False

theorem calledOn?_origin (activity : Activity ρ) : activity.origin.calledOn? = activity.calledOn? := by
  cases activity <;> rfl

theorem table?_ofJob {upkeep : Job} {table : String}
    (h : (ofJob upkeep : Activity ρ).table? = some table) : table = upkeep.table := by
  unfold ofJob JobRun.start JobRun.next at h
  split at h
  · cases h
  · exact (Option.some.inj h).symm

end Activity

/-! ## The mark of a search that found nothing -/

/-- The mark of a search that found nothing may stand under this key: it belongs to a search of the table,
searches are cached, and absence is remembered. -/
structure Cache.MayMark (c : Cache) (table key : String) : Prop where
  level : c.config.level.cachesSearches
  remembers : c.config.remembersAbsence
  place : ∃ sql params, key = c.space.resultKey table sql params

/-- Every row is written as a JSON text. -/
def RowFormat.WritesJson (format : RowFormat ρ) : Prop :=
  ∀ row text, format.encode row = some text → ∃ depth, (Json.parseWithin? depth text).isSome

theorem SearchEntry.absenceMark_unparsable (depth : Nat) :
    Json.parseWithin? depth SearchEntry.absenceMark = none := by
  have hread : Json.readValue depth SearchEntry.absenceMark.toList = none := by
    cases depth <;> rfl
  rw [Json.parseWithin?, hread]

theorem RowFormat.WritesJson.ne_absenceMark {format : RowFormat ρ} (h : format.WritesJson) {row : ρ}
    {text : String} (written : format.encode row = some text) : text ≠ SearchEntry.absenceMark := by
  rintro rfl
  obtain ⟨depth, hparsed⟩ := h row _ written
  rw [SearchEntry.absenceMark_unparsable] at hparsed
  cases hparsed

namespace Read

variable {c : Cache} {query : Query} {format : RowFormat ρ} {flight : FlightId}

theorem rowsPlan_marks_nothing (json : format.WritesJson) {result : Option (ResultSet ρ)}
    {fetched : ResultSet ρ} {payload key : String} {job : Job}
    (answered : query.shape.normalize result = some fetched)
    (written : format.encodeAll fetched.rows = some payload)
    (mem : job ∈ (rowsPlan c query format fetched payload).jobs) :
    ¬ job.Stores key SearchEntry.absenceMark := by
  intro stores
  have hfills := rowsPlan_stores answered written mem stores
  generalize hmark : SearchEntry.absenceMark = value at hfills
  cases hfills with
  | search fills =>
    cases fills with
    | absence level nothing => cases nothing.symm.trans answered
    | found => exact SearchEntry.encode_ne_absenceMark _ _ hmark.symm
  | primary answered mem written => exact json.ne_absenceMark written hmark.symm
  | unique answered mem written => exact json.ne_absenceMark written hmark.symm

theorem notFoundPlan_marks {key : String} {job : Job} (mem : job ∈ (notFoundPlan c query).jobs)
    (stores : job.Stores key SearchEntry.absenceMark) : c.MayMark query.table key := by
  unfold notFoundPlan at mem
  split at mem
  · rename_i hguard
    obtain ⟨hremembers, hlevel⟩ := Bool.and_eq_true_iff.mp hguard
    obtain rfl := List.mem_singleton.mp mem
    obtain ⟨later, hlater, hentry⟩ := stores
    obtain rfl := List.mem_singleton.mp hlater
    obtain ⟨rfl, -⟩ := Entry.mk.inj hentry
    exact ⟨hlevel, hremembers, query.sql, query.params, rfl⟩
  · cases mem

theorem afterFetch_marks (json : format.WritesJson) {outcome : FetchOutcome ρ} {key : String}
    (h : Supplies (afterFetch c query format flight outcome) key SearchEntry.absenceMark) :
    c.MayMark query.table key := by
  unfold afterFetch at h
  split at h
  · exact absurd h (breakOff_idle _ _ _ _).not_supplies
  · exact absurd h (conclude_idle _ _ _ _ _).not_supplies
  · split at h
    · obtain ⟨job, hjob, hstores⟩ := keep_supplies h
      exact notFoundPlan_marks hjob hstores
    · rename_i fetched hfetched
      split at h
      · exact absurd h (breakOff_idle _ _ _ _).not_supplies
      · rename_i payload hpayload
        obtain ⟨job, hjob, hstores⟩ := keep_supplies h
        exact absurd hstores (rowsPlan_marks_nothing json hfetched hpayload hjob)

/-! ## Turns of reads -/

theorem job_table_of_rowsPlan {fetched : ResultSet ρ} {payload : String} {job : Job}
    (mem : job ∈ (rowsPlan c query format fetched payload).jobs) : job.table = query.table := by
  have hsearch : job ∈ searchJobs c query fetched.rowsAffected payload → job.table = query.table := by
    intro hjob
    unfold searchJobs at hjob
    split at hjob
    · rw [List.mem_singleton.mp hjob]
      rfl
    · cases hjob
  unfold rowsPlan at mem
  split at mem
  · dsimp only at mem
    split at mem
    · rcases List.mem_append.mp mem with hjob | hjob
      · exact hsearch hjob
      · unfold pointJobs at hjob
        split at hjob
        · cases hjob
        · rw [List.mem_singleton.mp hjob]
          rfl
    · exact hsearch mem
  · cases mem

theorem job_table_of_notFoundPlan {job : Job} (mem : job ∈ (notFoundPlan c query).jobs) :
    job.table = query.table := by
  unfold notFoundPlan at mem
  split at mem
  · rw [List.mem_singleton.mp mem]
    rfl
  · cases mem

theorem mem_of_keep_spawned {plan : FillPlan} {result : Option (ResultSet ρ)} {outcome : Outcome} {job : Job}
    (mem : job ∈ (keep plan query flight result outcome).spawned) : job ∈ plan.jobs := by
  unfold keep at mem
  dsimp only at mem
  split at mem
  · exact mem
  · split at mem <;> cases mem

theorem job_table_of_afterFetch {outcome : FetchOutcome ρ} {job : Job}
    (mem : job ∈ (afterFetch c query format flight outcome).spawned) : job.table = query.table := by
  unfold afterFetch at mem
  split at mem
  · cases mem
  · cases mem
  · split at mem
    · exact job_table_of_notFoundPlan (mem_of_keep_spawned mem)
    · split at mem
      · cases mem
      · exact job_table_of_rowsPlan (mem_of_keep_spawned mem)

variable [Medium σ] {now : Nat} {store : σ} {before : ReadStage ρ} {turn : Turn (ReadStage ρ)}

/-- Only an answer of the data source gives a read something to store, and only a read of a cached table
takes it in so. A job that the read waits for stores what it was going to store. -/
theorem Goes.supplies_cases (h : Goes now c store query format before turn) :
    Idle turn ∨
      (∃ flight outcome, before = .fetching flight ∧ turn = afterFetch c query format flight outcome) ∨
      ∃ flight result outcome jobs index run, ∃ step : JobStep σ,
        before = .filling flight result outcome jobs ∧ jobs[index]? = some run ∧
        run.step? now store = some step ∧ turn.spawned = [] ∧
        turn.stage = .filling flight result outcome (jobs.set index step.run) := by
  cases h with
  | start => exact .inl (start_idle c query)
  | follow left => exact .inl (afterFlight?_idle left)
  | points => exact .inl (afterPoints_idle c query format _ _ _)
  | pointsGoOn | searchGoesOn => exact .inl ⟨by simp, rfl⟩
  | search => exact .inl (afterSearch_idle c query format _ _)
  | fetched => exact .inr (.inl ⟨_, _, rfl, rfl⟩)
  | bypassed => exact .inl (afterBypass_idle c _)
  | fillGoesOn found taken => exact .inr (.inr ⟨_, _, _, _, _, _, _, rfl, found, taken, rfl, rfl⟩)
  | fillBroke | aborted => exact .inl (breakOff_idle c _ _ _)
  | filled => exact .inl (conclude_idle c _ _ _ _)

/-- Past its first turn, and unless it bypasses the cache, a read is on a cached table. -/
theorem Goes.usesCache (h : Goes now c store query format before turn)
    (uses : (Activity.read query format turn.stage).UsesCache) :
    c.config.caches query.table ∨ (Activity.read query format before).UsesCache := by
  cases h with
  | start =>
    unfold Read.start at uses
    split at uses
    · rename_i hcached
      exact .inl hcached
    · exact uses.elim
  | @bypassed outcome => cases outcome <;> exact uses.elim
  | aborted => exact uses.elim
  | follow | points | pointsGoOn | search | searchGoesOn | fetched | fillGoesOn | fillBroke | filled =>
    exact .inr trivial

theorem Goes.untouched (h : Goes now c store query format before turn)
    (uncached : c.config.caches query.table = false)
    (idle : ¬ (Activity.read query format before).UsesCache) : turn.cache = c ∧ turn.spawned = [] := by
  cases h with
  | start =>
    rw [Read.start, uncached]
    exact ⟨rfl, rfl⟩
  | @bypassed outcome => cases outcome <;> exact ⟨rfl, rfl⟩
  | aborted =>
    cases before with
    | ready | bypassing | ended => exact ⟨rfl, rfl⟩
    | _ => exact absurd trivial idle
  | follow | points | pointsGoOn | search | searchGoesOn | fetched | fillGoesOn | fillBroke | filled =>
    exact absurd trivial idle

end Read

/-! ## Moves -/

theorem Cache.job_table_of_invalidationJobs {c : Cache} {change : Change} {job : Job}
    (mem : job ∈ c.invalidationJobs change) : job.table = change.table := by
  rcases List.mem_append.mp mem with hpoints | hsearches
  · split at hpoints
    · rw [List.mem_singleton.mp hpoints]
      rfl
    · cases hpoints
  · split at hsearches
    · rw [List.mem_singleton.mp hsearches]
      rfl
    · cases hsearches

namespace Activity

/-- The activity keeps to a table: it waits for the store only if the table is cached, it concerns what is
served for it, and it stores the mark of absence only where that may stand, if rows are written as JSON. -/
structure KeepsTable (json : Prop) (c : Cache) (table : String) (activity : Activity ρ) : Prop where
  cached : activity.UsesCache → c.config.caches table
  concerns : activity.Concerns (c.Serves table)
  marks : json → ∀ key, activity.Stores key SearchEntry.absenceMark → c.MayMark table key

section

variable {json : Prop} {c c' : Cache} {table : String} {activity : Activity ρ}

theorem KeepsTable.grows {json' : Prop} (h : activity.KeepsTable json c table) (imp : json' → json)
    (grows : c.Grows c') : activity.KeepsTable json' c' table where
  cached uses := by
    rw [grows.config]
    exact h.cached uses
  concerns := h.concerns.mono fun _ => grows.serves_iff.mpr
  marks written key stores := by
    obtain ⟨hlevel, hremembers, hplace⟩ := h.marks (imp written) key stores
    refine ⟨?_, ?_, ?_⟩
    · rwa [grows.config]
    · rwa [grows.config]
    · rwa [grows.space]

theorem KeepsTable.of_origin (h : activity.origin = activity) (json : Prop) (c : Cache) (table : String) :
    activity.KeepsTable json c table where
  cached uses := by
    rw [← h] at uses
    cases activity <;> exact uses.elim
  concerns := concerns_of_origin h _
  marks _ key stores := absurd stores (not_stores_of_origin h key _)

/-- What is sent off for a cached table, and stores no mark but where it may stand. -/
theorem KeepsTable.of_spawned {upkeep : Job} (cached : c.config.caches table)
    (concerns : (JobRun.start upkeep).Concerns (c.Serves table))
    (marks : json → ∀ key, upkeep.Stores key SearchEntry.absenceMark → c.MayMark table key) :
    (ofJob upkeep : Activity ρ).KeepsTable json c table :=
  ⟨fun _ => cached, concerns, fun written key stores => marks written key (JobRun.start_stores.mp stores)⟩

/-- The moved activity keeps to the table, and so do the jobs that it sent off. -/
structure StepKeepsTable (json : Prop) (c : Cache) (table : String) (step : ActivityStep ρ σ) : Prop where
  table_eq : ∀ other, step.activity.table? = some other → other = table
  activity : step.activity.KeepsTable json c table
  spawned : ∀ job ∈ step.spawned, job.table = table ∧ (ofJob job : Activity ρ).KeepsTable json c table

end

variable [Medium σ] [LawfulMedium σ] {json : Prop} {now : Nat} {c : Cache} {store : σ} {table : String}
  {activity : Activity ρ} {move : Move ρ} {step : ActivityStep ρ σ}

theorem read_keepsTable {query : Query} {format : RowFormat ρ} {before : ReadStage ρ}
    (h : (Activity.read query format before).move? now c store move = some step)
    (keeps : Medium.KeepsKeys now store) (written : json → format.WritesJson)
    (is : (Activity.read query format before).KeepsTable json c query.table) :
    StepKeepsTable json c query.table step := by
  obtain ⟨turn, hgoes, hstep⟩ := move?_goes h
  have hconfined := hgoes.confined keeps (fun _ => id) is.concerns
  -- what the read or a job sent off may mark now, it may have been going to mark before
  have hmarks : json → ∀ key, Read.Supplies turn key SearchEntry.absenceMark →
      c.MayMark query.table key := by
    intro hjson key hsupplies
    rcases hgoes.supplies_cases with hidle | ⟨flight, outcome, -, rfl⟩ |
      ⟨flight, result, outcome, jobs, index, run, taken, rfl, hfound, htaken, hspawned, hstage⟩
    · exact absurd hsupplies hidle.not_supplies
    · exact Read.afterFetch_marks (written hjson) hsupplies
    · rcases hsupplies with ⟨_, _, _, _, hfilling, later, hlater, hstores⟩ | ⟨job, hjob, -⟩
      · obtain ⟨-, -, -, rfl⟩ := ReadStage.filling.inj (hstage.symm.trans hfilling)
        have hmem := List.mem_of_getElem? hfound
        rcases List.mem_or_eq_of_mem_set hlater with hold | rfl
        · exact is.marks hjson key ⟨later, hold, hstores⟩
        · exact is.marks hjson key ⟨run, hmem, JobRun.of_stores htaken hstores⟩
      · rw [hspawned] at hjob
        cases hjob
  rw [hstep]
  refine ⟨fun other hother => (Option.some.inj hother).symm, ⟨?_, hconfined.stage, ?_⟩, ?_⟩
  · intro huses
    exact (hgoes.usesCache huses).elim id is.cached
  · intro hjson key hstores
    exact hmarks hjson key (.inl (of_read_stores hstores))
  · intro job hjob
    have hstores : json → ∀ key, job.Stores key SearchEntry.absenceMark → c.MayMark query.table key :=
      fun hjson key hstores => hmarks hjson key (.inr ⟨job, hjob, hstores⟩)
    rcases hgoes.supplies_cases with hidle | ⟨flight, outcome, rfl, rfl⟩ |
      ⟨_, _, _, _, _, _, _, -, -, -, hspawned, -⟩
    · have hnone : job ∈ ([] : List Job) := hidle.spawned ▸ hjob
      cases hnone
    · exact ⟨Read.job_table_of_afterFetch hjob,
        .of_spawned (is.cached trivial) (hconfined.spawned job hjob) hstores⟩
    · have hnone : job ∈ ([] : List Job) := hspawned ▸ hjob
      cases hnone

omit [Medium σ] [LawfulMedium σ] in
/-- The first turn of an invalidation has an effect on a cached table only, and stores nothing. -/
theorem start_keepsTable (json : Prop) (c : Cache) (store : σ) (event : Change) :
    StepKeepsTable json c event.table
      (ofInvalidationTurn event store (Invalidation.start c event) : ActivityStep ρ σ) := by
  have hkeeps : KeepsTo (c.Serves event.table) (ofInvalidationTurn event store
      (Invalidation.start c event) : ActivityStep ρ σ) := start_keepsTo c store event
  have hunmarked : ∀ job ∈ c.invalidationJobs event, ∀ key value, ¬ (JobRun.start job).Stores key value :=
    fun job hjob => JobRun.not_stores_of_isDeletion (Cache.invalidationJobs_isDeletion hjob)
  refine ⟨fun other hother => (Option.some.inj hother).symm, ⟨?_, hkeeps.activity, ?_⟩, ?_⟩
  · intro huses
    unfold Invalidation.start at huses
    split at huses
    · rename_i heffective
      exact (Bool.and_eq_true_iff.mp heffective).2
    · exact huses.elim
  · rintro - key ⟨run, hrun, hstores⟩
    unfold Invalidation.start at hrun
    split at hrun
    · dsimp only at hrun
      split at hrun
      · cases hrun
      · split at hrun
        · cases hrun
        · obtain ⟨job, hjob, rfl⟩ := List.mem_map.mp hrun
          exact absurd hstores (hunmarked job hjob key _)
    · cases hrun
  · intro job hjob
    have hconcerns := hkeeps.spawned job hjob
    unfold Invalidation.start at hjob
    split at hjob
    · rename_i heffective
      dsimp only at hjob
      split at hjob
      · have hmem : job ∈ c.invalidationJobs event := hjob
        refine ⟨Cache.job_table_of_invalidationJobs hmem,
          .of_spawned (Bool.and_eq_true_iff.mp heffective).2 hconcerns ?_⟩
        exact fun _ key hstores => absurd (JobRun.start_stores.mpr hstores) (hunmarked job hmem key _)
      · split at hjob <;> cases hjob
    · cases hjob

theorem MovesChange.keepsTable {event : Change} {stage : InvalidationStage}
    (h : MovesChange now c store event stage step) (keeps : Medium.KeepsKeys now store)
    (is : (Activity.change event stage : Activity ρ).KeepsTable json c event.table) :
    StepKeepsTable json c event.table step := by
  have hkeeps := h.keepsTo keeps (fun _ => id) is.concerns
  cases h with
  | start => exact start_keepsTable json c store event
  | @job jobs index run taken found steps =>
    refine ⟨fun other hother => (Option.some.inj hother).symm,
      ⟨fun _ => is.cached trivial, hkeeps.activity, ?_⟩, fun job hjob => by cases hjob⟩
    rintro hjson key ⟨later, hlater, hstores⟩
    rcases List.mem_or_eq_of_mem_set hlater with hold | rfl
    · exact is.marks hjson key ⟨later, hold, hstores⟩
    · exact is.marks hjson key ⟨run, List.mem_of_getElem? found, JobRun.of_stores steps hstores⟩
  | finish | abort =>
    refine ⟨fun other hother => (Option.some.inj hother).symm, ⟨fun huses => huses.elim, trivial, ?_⟩,
      fun job hjob => by cases hjob⟩
    rintro - key ⟨run, hrun, -⟩
    cases hrun

theorem job_keepsTable {run : JobRun} (h : (Activity.job run).move? now c store move = some step)
    (keeps : Medium.KeepsKeys now store) (for? : (Activity.job run : Activity ρ).table? = some table)
    (is : (Activity.job run : Activity ρ).KeepsTable json c table) : StepKeepsTable json c table step := by
  cases run with
  | finished | brokeDown => cases for?
  | working upkeep operation onFailure rest =>
    obtain rfl : upkeep.table = table := Option.some.inj for?
    have hconcerns : (JobRun.working upkeep operation onFailure rest).Concerns (c.Serves upkeep.table) :=
      is.concerns
    cases move with
    | go =>
      obtain ⟨taken, htaken, rfl⟩ := Option.map_eq_some_iff.mp h
      refine ⟨?_, ⟨fun _ => is.cached trivial, JobRun.step_concerns keeps hconcerns htaken, ?_⟩,
        fun job hjob => by cases hjob⟩
      · intro other hother
        rcases JobRun.step?_cases htaken with ⟨_, _, _, _, ⟨⟩, -, hnext | ⟨-, hbroken⟩⟩ |
          ⟨_, _, _, _, _, ⟨⟩, -, -, hrun⟩
        · cases hrest : rest with
          | nil =>
            simp only [hnext, hrest, JobRun.next, table?, calledOn?] at hother
            cases hother
          | cons =>
            simp only [hnext, hrest, JobRun.next, table?] at hother
            exact (Option.some.inj hother).symm
        · simp only [hbroken, table?, calledOn?] at hother
          cases hother
        · simp only [hrun, table?] at hother
          exact (Option.some.inj hother).symm
      · exact fun hjson key hstores => is.marks hjson key (JobRun.of_stores htaken hstores)
    | goJob | deliver => cases h
    | abort =>
      obtain rfl := Option.some.inj h
      refine ⟨?_, ⟨fun huses => huses.elim, trivial, fun _ _ hstores => hstores.elim⟩, ?_⟩
      · intro other hother
        cases hother
      · intro job hjob
        cases hjob

/-- Whatever move an activity makes, it keeps to its table, and the jobs that it sends off are for the same
one and keep to it. -/
theorem move?_keepsTable (h : activity.move? now c store move = some step)
    (keeps : Medium.KeepsKeys now store)
    (written : json → ∀ query format stage, activity = .read query format stage → format.WritesJson)
    (for? : activity.table? = some table) (is : activity.KeepsTable json c table) :
    StepKeepsTable json c table step := by
  cases activity with
  | read query format before =>
    obtain rfl := Option.some.inj for?
    exact read_keepsTable h keeps (fun hjson => written hjson query format before rfl) is
  | change event stage =>
    obtain rfl := Option.some.inj for?
    exact (move?_change h).keepsTable keeps is
  | job run => exact job_keepsTable h keeps for? is
  | request => cases for?

/-! ## Moves for tables that are not cached -/

omit [LawfulMedium σ] in
theorem asks?_of_idle (for? : activity.table? = some table) (idle : ¬ activity.UsesCache)
    (move : Move ρ) : activity.asks? move = none := by
  cases activity with
  | read query format stage =>
    cases stage with
    | ready | bypassing | ended => cases move <;> rfl
    | _ => exact absurd trivial idle
  | change event stage =>
    cases stage with
    | ready | ended | aborted => cases move <;> rfl
    | deleting => exact absurd trivial idle
  | job run =>
    cases run with
    | working => exact absurd trivial idle
    | finished | brokeDown => cases for?
  | request => cases for?

omit [LawfulMedium σ] in
theorem untouched_of_uncached (h : activity.move? now c store move = some step)
    (for? : activity.table? = some table) (idle : ¬ activity.UsesCache)
    (uncached : c.config.caches table = false) : step.cache = c ∧ step.spawned = [] := by
  cases activity with
  | read query format before =>
    obtain rfl := Option.some.inj for?
    obtain ⟨turn, hgoes, hstep⟩ := move?_goes h
    rw [hstep]
    exact hgoes.untouched uncached idle
  | change event stage =>
    obtain rfl := Option.some.inj for?
    cases move?_change h with
    | start =>
      have hineffective : c.isInvalidatedBy event = false := by
        rw [Cache.isInvalidatedBy, uncached, Bool.and_false]
      simp only [ofInvalidationTurn, Invalidation.start, hineffective, Bool.false_eq_true, if_false]
      exact ⟨trivial, trivial⟩
    | job | finish => exact absurd trivial idle
    | abort => exact ⟨rfl, rfl⟩
  | job run =>
    cases run with
    | working => exact absurd trivial idle
    | finished | brokeDown => cases for?
  | request => cases for?

omit [LawfulMedium σ] in
/-- What is for no table never is for one, and sends nothing off. -/
theorem of_tableless (h : activity.move? now c store move = some step) (tableless : activity.table? = none) :
    step.activity.table? = none ∧ step.spawned = [] := by
  cases activity with
  | read | change => cases tableless
  | job run =>
    cases run with
    | working => cases tableless
    | finished | brokeDown => cases move <;> cases h
  | request asked stage =>
    cases move with
    | go =>
      simp only [move?, go?] at h
      unfold goRequest? at h
      split at h
      · obtain rfl := Option.some.inj h
        exact ⟨rfl, rfl⟩
      · obtain rfl := Option.some.inj h
        exact ⟨rfl, rfl⟩
      · obtain ⟨taken, -, rfl⟩ := Option.map_eq_some_iff.mp h
        exact ⟨rfl, rfl⟩
      · cases h
      · cases h
    | goJob | deliver => cases h
    | abort =>
      cases stage with
      | ready | waiting =>
        obtain rfl := Option.some.inj h
        exact ⟨rfl, rfl⟩
      | ended | aborted => cases h

omit [LawfulMedium σ] in
theorem store_of_unasked (h : activity.move? now c store move = some step)
    (unasked : activity.asks? move = none) : step.store = store := by
  cases (move?_kind now c activity move : MoveKind σ now c activity move) with
  | turn unasked' turn moves =>
    rw [moves, Option.map_eq_some_iff] at h
    obtain ⟨turn, -, rfl⟩ := h
    rfl
  | step operation asked => cases unasked.symm.trans asked

/-- What asks the store for something is for a table and uses the cache, if it is no direct operation. -/
theorem uses_of_asks {k : ReplyKind} {operation : Operation k}
    (indirect : ∀ {kind : ReplyKind} (asked : Request kind) stage, activity ≠ .request asked stage)
    (asked : activity.asks? move = some ⟨k, operation⟩) :
    ∃ table, activity.table? = some table ∧ activity.UsesCache := by
  have hfor : ∃ table, activity.table? = some table := by
    cases activity with
    | read query => exact ⟨query.table, rfl⟩
    | change event => exact ⟨event.table, rfl⟩
    | request request stage => exact absurd rfl (indirect request stage)
    | job run =>
      cases run with
      | working upkeep => exact ⟨upkeep.table, rfl⟩
      | finished | brokeDown => cases move <;> cases asked
  obtain ⟨table, htable⟩ := hfor
  refine ⟨table, htable, Classical.byContradiction fun hidle => ?_⟩
  cases (asks?_of_idle htable hidle move).symm.trans asked

/-- What an activity is going to store includes what the store is asked to store in a move. -/
theorem stores_of_asks {k : ReplyKind} {operation : Operation k} {key value : String}
    (asked : activity.asks? move = some ⟨k, operation⟩) (stores : operation.Stores key value) :
    activity.Stores key value := by
  have hpending : ∀ {k' : ReplyKind} {waiting : Operation k'}, waiting.pending? = some ⟨k, operation⟩ →
      waiting.Stores key value := by
    intro k' waiting hwaiting
    cases waiting with
    | answered => cases hwaiting
    | asked | held | sweeping =>
      obtain ⟨rfl, hsame⟩ := AnyOperation.mk.inj (Option.some.inj hwaiting)
      exact (eq_of_heq hsame) ▸ stores
  have hrun : ∀ {run : JobRun}, run.pending? = some ⟨k, operation⟩ → run.Stores key value := by
    intro run hrun
    cases run with
    | working => exact .inl (hpending hrun)
    | finished | brokeDown => cases hrun
  cases move with
  | go =>
    cases activity with
    | read query format stage =>
      cases stage with
      | awaitingPoints flight sought waiting =>
        exact absurd (hpending asked) (Operation.not_stores_of_reply (by simp) waiting key value)
      | awaitingSearch flight waiting =>
        exact absurd (hpending asked) (Operation.not_stores_of_reply (by simp) waiting key value)
      | _ => cases asked
    | change => cases asked
    | job run => exact hrun asked
    | request request stage =>
      cases stage with
      | waiting operation => exact hpending asked
      | ready | ended | aborted => cases asked
  | goJob mover index =>
    obtain ⟨run, hfound, hasked⟩ := Option.bind_eq_some_iff.mp asked
    have hmem := List.mem_of_getElem? hfound
    cases activity with
    | read query format stage => exact ⟨run, hmem, hrun hasked⟩
    | change event stage => exact ⟨run, hmem, hrun hasked⟩
    | job | request => cases hmem
  | deliver | abort => cases asked

end Activity

end ReadThrough
