import ReadThrough.Proofs.Reads.Turns
import ReadThrough.Proofs.Store.Laws

/-! # What activities store

An entry comes into the store by a job or a direct operation that was going to store it. What an
activity is going to store, it was going to store before, or it got it from the data source or from
the caller of a direct operation.

* `RowFormat.Writes` is the text of an array of rows;
* `Activity.Stores` says what an activity is still going to store;
* `Read.Fills` are the entries made of an answer of the data source;
* `Activity.move?_entries` says all that a move does to entries.
-/

namespace ReadThrough
set_option autoImplicit false

variable {ρ σ : Type}

/-! ## Rows that can be written -/

namespace RowFormat

/-- The text of an array of rows: the texts of the rows with commas between them, in brackets. -/
def Writes (format : RowFormat ρ) (rows : List ρ) (payload : String) : Prop :=
  ∃ texts, List.Forall₂ (fun row text => format.encode row = some text) rows texts ∧
    payload = "[" ++ ",".intercalate texts ++ "]"

variable {format : RowFormat ρ} {rows : List ρ} {payload : String}

theorem encodeAll_eq_some_iff : format.encodeAll rows = some payload ↔ format.Writes rows payload := by
  rw [encodeAll, Option.map_eq_some_iff]
  constructor
  · rintro ⟨texts, written, rfl⟩
    exact ⟨texts, mapM_eq_some_iff.mp written, rfl⟩
  · rintro ⟨texts, written, rfl⟩
    exact ⟨texts, mapM_eq_some_iff.mpr written, rfl⟩

theorem exists_encodeAll_iff : (∃ payload, format.encodeAll rows = some payload) ↔
    ∀ row ∈ rows, ∃ text, format.encode row = some text := by
  have heach : (∃ texts, List.Forall₂ (fun row text => format.encode row = some text) rows texts) ↔
      ∀ row ∈ rows, ∃ text, format.encode row = some text := by
    induction rows with
    | nil => simp
    | cons row rest ih =>
      rw [List.forall_mem_cons, ← ih]
      constructor
      · rintro ⟨_, first | ⟨first, others⟩⟩
        exact ⟨⟨_, first⟩, _, others⟩
      · rintro ⟨⟨text, first⟩, texts, others⟩
        exact ⟨text :: texts, .cons first others⟩
  simp only [encodeAll_eq_some_iff, ← heach]
  constructor
  · rintro ⟨payload, texts, written, -⟩
    exact ⟨texts, written⟩
  · rintro ⟨texts, written⟩
    exact ⟨_, texts, written, rfl⟩

end RowFormat

/-! ## Entries of an answer -/

/-- The search entry made of an answer of the data source, by a cache that stores searches. -/
inductive Read.FillsSearch (c : Cache) (query : Query) (format : RowFormat ρ)
    (result : Option (ResultSet ρ)) : (key value : String) → Prop
  | absence (level : c.config.level.cachesSearches)
      (nothing : query.shape.normalize result = none) :
    FillsSearch c query format result (c.resultKey query) SearchEntry.absenceMark
  | found {found payload} (level : c.config.level.cachesSearches)
      (answered : query.shape.normalize result = some found)
      (written : format.encodeAll found.rows = some payload) :
    FillsSearch c query format result (c.resultKey query)
      (SearchEntry.encode found.rowsAffected payload)

/-- The entries made of an answer of the data source, if the cache knows these indexes afterwards. -/
inductive Read.Fills (c : Cache) (query : Query) (format : RowFormat ρ)
    (result : Option (ResultSet ρ)) (known : List String) : (key value : String) → Prop
  | search {key value} (fills : FillsSearch c query format result key value) :
    Fills c query format result known key value
  | primary {found row text key} (answered : query.shape.normalize result = some found)
      (mem : row ∈ found.rows) (written : format.encode row = some text)
      (identified : format.primaryKey row = some key) :
    Fills c query format result known (c.space.rowKey query.table key) text
  | unique {found row text index key} (answered : query.shape.normalize result = some found)
      (mem : row ∈ found.rows) (written : format.encode row = some text)
      (identified : (index, key) ∈ format.uniqueKeys row) (isKnown : index ∈ known) :
    Fills c query format result known (c.space.indexKey query.table index key) text

namespace Read

variable {c : Cache} {query : Query} {format : RowFormat ρ} {key value : String}

theorem FillsSearch.key_eq {result : Option (ResultSet ρ)}
    (h : FillsSearch c query format result key value) : key = c.resultKey query := by
  cases h <;> rfl

theorem FillsSearch.caches {result : Option (ResultSet ρ)}
    (h : FillsSearch c query format result key value) : c.config.level.cachesSearches := by
  cases h <;> assumption

theorem mem_entriesOfRows {table : String} {rows : List ρ}
    (h : ⟨key, value⟩ ∈ entriesOfRows c format table rows) :
    ∃ row ∈ rows, format.encode row = some value ∧
      ((∃ unique ∈ format.uniqueKeys row, key = c.space.indexKey table unique.1 unique.2) ∨
        ∃ primary, format.primaryKey row = some primary ∧ key = c.space.rowKey table primary) := by
  simp only [entriesOfRows, List.mem_flatMap] at h
  obtain ⟨row, hrow, hmem⟩ := h
  refine ⟨row, hrow, ?_⟩
  split at hmem
  · rename_i text htext
    rcases List.mem_append.mp hmem with hunique | hprimary
    · obtain ⟨unique, hidentified, hentry⟩ := List.mem_map.mp hunique
      obtain ⟨hkey, rfl⟩ := Entry.mk.inj hentry
      exact ⟨htext, .inl ⟨unique, hidentified, hkey.symm⟩⟩
    · split at hprimary
      · rename_i primary _ hkeyed
        obtain ⟨rfl, rfl⟩ := Entry.mk.inj (List.mem_singleton.mp hprimary)
        exact ⟨htext, .inr ⟨primary, hkeyed, rfl⟩⟩
      · cases hprimary
  · cases hmem

theorem mem_indexesOfRows {rows : List ρ} {row : ρ} {text : String}
    {unique : String × CompositeKey} (mem : row ∈ rows) (written : format.encode row = some text)
    (identified : unique ∈ format.uniqueKeys row) : unique.1 ∈ indexesOfRows format rows := by
  refine List.mem_flatMap.mpr ⟨row, mem, ?_⟩
  rw [written]
  exact List.mem_map_of_mem identified

theorem rowsPlan_stores {result : Option (ResultSet ρ)} {fetched : ResultSet ρ} {payload : String}
    {job : Job} (answered : query.shape.normalize result = some fetched)
    (written : format.encodeAll fetched.rows = some payload)
    (mem : job ∈ (rowsPlan c query format fetched payload).jobs) (stores : job.Stores key value) :
    Fills c query format result
      ((rowsPlan c query format fetched payload).cache.knownIndexes query.table) key value := by
  -- the search is stored whether or not rows are stored under their keys
  have hsearch : ∀ known, job ∈ searchJobs c query fetched.rowsAffected payload →
      Fills c query format result known key value := by
    intro known hjob
    unfold searchJobs at hjob
    split at hjob
    · rename_i hlevel
      obtain rfl := List.mem_singleton.mp hjob
      obtain ⟨later, hlater, hentry⟩ := stores
      obtain rfl := List.mem_singleton.mp hlater
      obtain ⟨rfl, rfl⟩ := Entry.mk.inj hentry
      exact .search (.found hlevel answered written)
    · cases hjob
  unfold rowsPlan at mem ⊢
  split at mem
  · rename_i hcount
    rw [if_pos hcount]
    dsimp only at mem ⊢
    split at mem
    · rename_i hlevel
      rw [if_pos hlevel]
      rcases List.mem_append.mp mem with hjob | hjob
      · exact hsearch _ hjob
      · unfold pointJobs at hjob
        split at hjob
        · cases hjob
        · obtain rfl := List.mem_singleton.mp hjob
          obtain ⟨later, hlater, hentry⟩ := stores
          obtain rfl := List.mem_singleton.mp hlater
          obtain ⟨row, hrow, htext, ⟨unique, hunique, rfl⟩ | ⟨primary, hprimary, rfl⟩⟩ :=
            mem_entriesOfRows hentry
          · have hlearnt := mem_indexesOfRows hrow htext hunique
            exact .unique answered hrow htext hunique
              (mem_knownIndexes_learnIndexes.mpr (.inl ⟨rfl, hlearnt⟩))
          · exact .primary answered hrow htext hprimary
    · exact hsearch _ mem
  · cases mem

theorem notFoundPlan_stores {result : Option (ResultSet ρ)} {job : Job}
    (nothing : query.shape.normalize result = none) (known : List String)
    (mem : job ∈ (notFoundPlan c query).jobs) (stores : job.Stores key value) :
    Fills c query format result known key value := by
  unfold notFoundPlan at mem
  split at mem
  · rename_i hremembers
    obtain rfl := List.mem_singleton.mp mem
    obtain ⟨later, hlater, hentry⟩ := stores
    obtain rfl := List.mem_singleton.mp hlater
    obtain ⟨rfl, rfl⟩ := Entry.mk.inj hentry
    exact .search (.absence (Bool.and_eq_true_iff.mp hremembers).2 nothing)
  · cases mem

end Read

/-! ## What activities are going to store -/

/-- The activity, or a job that it waits for, may still store this value under this key. -/
def Activity.Stores (activity : Activity ρ) (key value : String) : Prop :=
  match activity with
  | .job run => run.Stores key value
  | .request _ (.waiting operation) => operation.Stores key value
  | activity => ∃ run ∈ activity.jobs, run.Stores key value

theorem Activity.not_stores_of_origin {activity : Activity ρ} (h : activity.origin = activity)
    (key value : String) : ¬ activity.Stores key value := by
  rw [← h]
  cases activity with
  | job => exact id
  | _ =>
    rintro ⟨run, hrun, -⟩
    cases hrun

/-- Where an entry comes from that an activity comes to store in a move: from the data source, or
from the caller of a direct operation. -/
inductive Activity.Supplies (c : Cache) :
    Activity ρ → Move ρ → (after : Cache) → (key value : String) → Prop
  | fetched {query format flight result mover after key value}
      (fills : Read.Fills c query format result (after.knownIndexes query.table) key value) :
    Supplies c (.read query format (.fetching flight)) (.deliver mover (.answered result)) after
      key value
  | given {kind} {request : Request kind} {mover key value}
      (stores : (c.prepare request).2.Stores key value) :
    Supplies c (.request request .ready) (.go mover) (c.prepare request).1 key value

theorem Activity.Supplies.of_read {c after : Cache} {query : Query} {format : RowFormat ρ}
    {before : ReadStage ρ} {move : Move ρ} {key value : String}
    (h : Supplies c (.read query format before) move after key value) :
    ∃ flight result, before = .fetching flight ∧ move.outcome? = some (.answered result) ∧
      Read.Fills c query format result (after.knownIndexes query.table) key value := by
  generalize hread : Activity.read query format before = activity at h
  cases h with
  | fetched fills =>
    obtain ⟨rfl, rfl, rfl⟩ := Activity.read.inj hread
    exact ⟨_, _, rfl, rfl, fills⟩
  | given => cases hread

namespace Read

variable {c : Cache} {query : Query} {format : RowFormat ρ} {flight : FlightId} {key value : String}

def Supplies (turn : Turn (ReadStage ρ)) (key value : String) : Prop :=
  (∃ flight result outcome jobs, turn.stage = .filling flight result outcome jobs ∧
    ∃ run ∈ jobs, run.Stores key value) ∨ ∃ job ∈ turn.spawned, job.Stores key value

structure Idle (turn : Turn (ReadStage ρ)) : Prop where
  stage : ∀ flight result outcome jobs, turn.stage ≠ .filling flight result outcome jobs
  spawned : turn.spawned = []

theorem Idle.not_supplies {turn : Turn (ReadStage ρ)} (h : Idle turn) :
    ¬ Supplies turn key value := by
  rintro (⟨flight, result, outcome, jobs, hstage, -⟩ | ⟨job, hjob, -⟩)
  · exact h.stage flight result outcome jobs hstage
  · rw [h.spawned] at hjob
    cases hjob

theorem breakOff_idle (c : Cache) (flight : Option FlightId) (answer : Answer ρ)
    (notices : List Notice) : Idle (breakOff c flight answer notices) := ⟨by simp [breakOff], rfl⟩

theorem conclude_idle (c : Cache) (flight : FlightId) (outcome : Outcome)
    (result : Except Failure (Option (ResultSet ρ))) (notices : List Notice) :
    Idle (conclude c flight outcome result notices) := ⟨by simp [conclude], rfl⟩

theorem lookUpSearch_idle (c : Cache) (query : Query) (flight : FlightId) (notices : List Notice) :
    Idle (lookUpSearch c query flight notices : Turn (ReadStage ρ)) := by
  unfold lookUpSearch
  split <;> exact ⟨by simp [miss], rfl⟩

theorem lookUp_idle (c : Cache) (query : Query) (flight : FlightId) (notices : List Notice) :
    Idle (lookUp c query flight notices : Turn (ReadStage ρ)) := by
  unfold lookUp
  split
  · split
    · exact ⟨by simp, rfl⟩
    · exact lookUpSearch_idle c query flight notices
  · exact lookUpSearch_idle c query flight notices

theorem join_idle (c : Cache) (query : Query) (notices : List Notice) :
    Idle (join c query notices : Turn (ReadStage ρ)) := by
  unfold join
  split
  · exact ⟨by simp, rfl⟩
  · exact lookUp_idle _ query _ notices

theorem start_idle (c : Cache) (query : Query) : Idle (start c query : Turn (ReadStage ρ)) := by
  unfold start
  split
  · exact join_idle c query []
  · exact ⟨by simp, rfl⟩

theorem afterFlight?_idle {turn : Turn (ReadStage ρ)}
    (h : afterFlight? c query format flight = some turn) : Idle turn := by
  unfold afterFlight? at h
  split at h
  · obtain rfl := Option.some.inj h
    exact ⟨by simp, rfl⟩
  · obtain rfl := Option.some.inj h
    exact join_idle c query _
  · cases h
  · cases h

theorem afterPoints_idle (c : Cache) (query : Query) (format : RowFormat ρ) (flight : FlightId)
    (sought : List CompositeKey) (reply : Reply .slots) :
    Idle (afterPoints c query format flight sought reply) := by
  unfold afterPoints
  split
  · exact breakOff_idle c _ _ _
  · exact lookUpSearch_idle c query flight _
  · split
    · exact lookUpSearch_idle c query flight _
    · split
      · exact lookUpSearch_idle c query flight _
      · exact conclude_idle _ flight _ _ _

theorem afterSearch_idle (c : Cache) (query : Query) (format : RowFormat ρ) (flight : FlightId)
    (reply : Reply .text) : Idle (afterSearch c query format flight reply) := by
  unfold afterSearch
  split
  · exact breakOff_idle c _ _ _
  · exact ⟨by simp [miss], rfl⟩
  · split
    · exact conclude_idle _ flight _ _ _
    · split
      · exact ⟨by simp [miss], rfl⟩
      · split
        · exact ⟨by simp [miss], rfl⟩
        · exact conclude_idle _ flight _ _ _

theorem afterBypass_idle (c : Cache) (outcome : FetchOutcome ρ) : Idle (afterBypass c outcome) := by
  cases outcome <;> exact ⟨by simp [afterBypass], rfl⟩

theorem keep_supplies {plan : FillPlan} {result : Option (ResultSet ρ)} {outcome : Outcome}
    (h : Supplies (keep plan query flight result outcome) key value) :
    ∃ job ∈ plan.jobs, job.Stores key value := by
  unfold keep at h
  dsimp only at h
  split at h
  · rcases h with ⟨_, _, _, _, hstage, -⟩ | hspawned
    · cases hstage
    · exact hspawned
  · split at h
    · exact absurd h (conclude_idle _ _ _ _ _).not_supplies
    · rcases h with ⟨_, _, _, jobs, hstage, run, hrun, hstores⟩ | ⟨job, hjob, -⟩
      · obtain ⟨-, -, -, rfl⟩ := ReadStage.filling.inj hstage
        obtain ⟨job, hjob, rfl⟩ := List.mem_map.mp hrun
        exact ⟨job, hjob, JobRun.start_stores.mp hstores⟩
      · cases hjob

theorem keep_knownIndexes (plan : FillPlan) (query : Query) (flight : FlightId)
    (result : Option (ResultSet ρ)) (outcome : Outcome) (table : String) :
    (keep plan query flight result outcome).cache.knownIndexes table =
      plan.cache.knownIndexes table := by
  unfold keep
  dsimp only
  split
  · rfl
  · split <;> rfl

theorem afterFetch_supplies {outcome : FetchOutcome ρ}
    (h : Supplies (afterFetch c query format flight outcome) key value) :
    ∃ result, outcome = .answered result ∧ Fills c query format result
      ((afterFetch c query format flight outcome).cache.knownIndexes query.table) key value := by
  unfold afterFetch at h ⊢
  split at h
  · exact absurd h (breakOff_idle _ _ _ _).not_supplies
  · exact absurd h (conclude_idle _ _ _ _ _).not_supplies
  · rename_i result
    refine ⟨result, rfl, ?_⟩
    split at h
    · rename_i hnone
      obtain ⟨job, hjob, hstores⟩ := keep_supplies h
      exact notFoundPlan_stores hnone _ hjob hstores
    · rename_i fetched hfetched
      split at h
      · exact absurd h (breakOff_idle _ _ _ _).not_supplies
      · rename_i payload hpayload
        obtain ⟨job, hjob, hstores⟩ := keep_supplies h
        rw [keep_knownIndexes]
        exact rowsPlan_stores hfetched hpayload hjob hstores

end Read

/-! ## Moves -/

theorem Cache.invalidationJobs_isDeletion {c : Cache} {change : Change} {job : Job}
    (h : job ∈ c.invalidationJobs change) : (JobRun.start job).IsDeletion := by
  have hdeletion : ∀ deletion : Deletion, deletion.call.IsDeletion := by
    intro deletion
    cases deletion <;> trivial
  refine JobRun.next_isDeletion.mpr fun later hlater => ?_
  rcases List.mem_append.mp h with hpoints | hsearches
  · split at hpoints
    · obtain rfl := List.mem_singleton.mp hpoints
      obtain ⟨deletion, -, rfl⟩ := List.mem_map.mp hlater
      exact hdeletion deletion
    · cases hpoints
  · split at hsearches
    · obtain rfl := List.mem_singleton.mp hsearches
      obtain rfl := List.mem_singleton.mp hlater
      trivial
    · cases hsearches

/-- Only a call that is done without a result stores anything. -/
theorem Operation.not_stores_of_reply {k : ReplyKind} (hk : k ≠ .done) (operation : Operation k)
    (key value : String) : ¬ operation.Stores key value := by
  cases operation with
  | asked call | held call => cases call <;> first | exact id | exact absurd rfl hk
  | sweeping | answered => exact id

namespace Activity

section

variable [Medium σ] [LawfulMedium σ]

/-- What a move does to entries: what the store holds after it, it held before, or the activity was
going to store it; and what the activity or a job sent off is going to store, the activity was going
to store before, or was supplied with. -/
structure MovesEntries (now : Nat) (c : Cache) (store : σ) (activity : Activity ρ) (move : Move ρ)
    (step : ActivityStep ρ σ) : Prop where
  held : ∀ key value, LawfulMedium.Holds step.store now key value →
    LawfulMedium.Holds store now key value ∨ activity.Stores key value
  stores : ∀ key value, step.activity.Stores key value →
    activity.Stores key value ∨ Supplies c activity move step.cache key value
  spawned : ∀ job ∈ step.spawned, ∀ key value, job.Stores key value →
    Supplies c activity move step.cache key value
  reliable : LawfulMedium.Reliable store → LawfulMedium.Reliable step.store

variable {now : Nat} {c : Cache} {store : σ} {query : Query} {format : RowFormat ρ}
  {activity : Activity ρ} {move : Move ρ} {step : ActivityStep ρ σ}

theorem of_read_stores {stage : ReadStage ρ} {key value : String}
    (h : (Activity.read query format stage).Stores key value) :
    ∃ flight result outcome jobs, stage = .filling flight result outcome jobs ∧
      ∃ run ∈ jobs, run.Stores key value := by
  obtain ⟨run, hrun, hstores⟩ := h
  cases stage with
  | filling flight result outcome jobs => exact ⟨flight, result, outcome, jobs, rfl, run, hrun, hstores⟩
  | _ => cases hrun

theorem MovesEntries.of_readTurn {turn : Turn (ReadStage ρ)} {before : ReadStage ρ}
    (supplies : ∀ key value, Read.Supplies turn key value →
      Supplies c (.read query format before) move turn.cache key value) :
    MovesEntries now c store (.read query format before) move (ofReadTurn query format store turn) where
  held _ _ held := .inl held
  stores key value stores := .inr (supplies key value (.inl (of_read_stores stores)))
  spawned job mem key value stores := supplies key value (.inr ⟨job, mem, stores⟩)
  reliable := id

theorem MovesEntries.of_idle {turn : Turn (ReadStage ρ)} {before : ReadStage ρ}
    (idle : Read.Idle turn) :
    MovesEntries now c store (.read query format before) move (ofReadTurn query format store turn) :=
  .of_readTurn fun _ _ h => absurd h idle.not_supplies

theorem MovesEntries.of_nothing (same : step.store = store)
    (nothing : ∀ key value, ¬ step.activity.Stores key value) (alone : step.spawned = []) :
    MovesEntries now c store activity move step where
  held _ _ held := .inl (same ▸ held)
  stores key value stores := absurd stores (nothing key value)
  spawned job mem := by
    rw [alone] at mem
    cases mem
  reliable := by
    rw [same]
    exact id

/-- The store takes a step for the operation that an activity waits for. -/
theorem MovesEntries.of_storeStep {k : ReplyKind} {operation : Operation k}
    {waiting : Operation k → Activity ρ} (h : storeStep? now c store operation waiting = some step)
    (stores : ∀ operation key value,
      (waiting operation).Stores key value ↔ operation.Stores key value) :
    MovesEntries now c store (waiting operation) move step := by
  obtain ⟨taken, htaken, rfl⟩ := Option.map_eq_some_iff.mp h
  refine ⟨?_, ?_, by simp, fun reliable => LawfulMedium.reliable reliable htaken⟩
  · intro key value held
    exact (LawfulMedium.of_holds htaken held).imp id (stores operation key value).mpr
  · intro key value hstores
    rw [stores] at hstores
    exact .inl ((stores operation key value).mpr (LawfulMedium.of_stores htaken hstores))

theorem goRead?_entries {before : ReadStage ρ} {mover : ActivityId}
    (h : goRead? now c store query format before = some step) :
    MovesEntries now c store (.read query format before) (.go mover) step := by
  -- a read that looks up waits for a reply, so it has nothing to store
  have hlooks : ∀ {k : ReplyKind} (_ : k ≠ .done) (operation : Operation k) (stage : ReadStage ρ)
      (key value : String), (Activity.read query format stage).jobs = [] →
      ((Activity.read query format stage).Stores key value ↔ operation.Stores key value) := by
    intro k hk operation stage key value hjobs
    refine iff_of_false ?_ (Operation.not_stores_of_reply hk operation key value)
    rintro ⟨run, hrun, -⟩
    rw [hjobs] at hrun
    cases hrun
  unfold goRead? at h
  split at h
  · obtain rfl := Option.some.inj h
    exact .of_idle (Read.start_idle c query)
  · obtain ⟨turn, hturn, rfl⟩ := Option.map_eq_some_iff.mp h
    exact .of_idle (Read.afterFlight?_idle hturn)
  · obtain rfl := Option.some.inj h
    exact .of_idle (Read.afterPoints_idle c query format _ _ _)
  · exact .of_storeStep h fun operation key value => hlooks (by simp) operation _ key value rfl
  · obtain rfl := Option.some.inj h
    exact .of_idle (Read.afterSearch_idle c query format _ _)
  · exact .of_storeStep h fun operation key value => hlooks (by simp) operation _ key value rfl
  · split at h
    · obtain rfl := Option.some.inj h
      exact .of_idle (Read.breakOff_idle c _ _ _)
    · split at h
      · obtain rfl := Option.some.inj h
        exact .of_idle ⟨by simp [Read.afterFill, Read.conclude], rfl⟩
      · cases h
  · cases h
  · cases h
  · cases h

theorem goInvalidation?_entries {event : Change} {stage : InvalidationStage}
    (h : goInvalidation? c store event stage = some step) :
    MovesEntries now c store (.change event stage) move step := by
  cases stage with
  | ready =>
    obtain rfl := Option.some.inj h
    have hdeletion : ∀ job ∈ c.invalidationJobs event, ∀ key value, ¬ job.Stores key value := by
      intro job hjob key value hstores
      exact JobRun.not_stores_of_isDeletion (Cache.invalidationJobs_isDeletion hjob) key value
        (JobRun.start_stores.mpr hstores)
    unfold Invalidation.start
    split
    · dsimp only
      split
      · refine ⟨fun _ _ held => .inl held, ?_, ?_, id⟩
        · rintro key value ⟨run, hrun, -⟩
          cases hrun
        · intro job hjob key value hstores
          exact absurd hstores (hdeletion job hjob key value)
      · split
        · refine .of_nothing rfl ?_ rfl
          rintro key value ⟨run, hrun, -⟩
          cases hrun
        · refine .of_nothing rfl ?_ rfl
          rintro key value ⟨run, hrun, hstores⟩
          obtain ⟨job, hjob, rfl⟩ := List.mem_map.mp hrun
          exact hdeletion job hjob key value (JobRun.start_stores.mp hstores)
    · refine .of_nothing rfl ?_ rfl
      rintro key value ⟨run, hrun, -⟩
      cases hrun
  | deleting jobs =>
    simp only [goInvalidation?] at h
    split at h
    · obtain rfl := Option.some.inj h
      refine .of_nothing rfl ?_ rfl
      rintro key value ⟨run, hrun, -⟩
      cases hrun
    · cases h
  | ended | aborted => cases h

theorem goRequest?_entries {k : ReplyKind} {request : Request k} {stage : RequestStage k}
    {mover : ActivityId} (h : goRequest? now c store request stage = some step) :
    MovesEntries now c store (.request request stage) (.go mover) step := by
  unfold goRequest? at h
  split at h
  · obtain rfl := Option.some.inj h
    exact ⟨fun _ _ held => .inl held, fun _ _ stores => .inr (.given stores), by simp, id⟩
  · obtain rfl := Option.some.inj h
    refine .of_nothing rfl ?_ rfl
    rintro key value ⟨run, hrun, -⟩
    cases hrun
  · exact .of_storeStep h fun _ _ _ => .rfl
  · cases h
  · cases h

theorem goJob?_entries {index : Nat} (h : goJob? now c store activity index = some step) :
    MovesEntries now c store activity move step := by
  simp only [goJob?, Option.bind_eq_bind, Option.bind_eq_some_iff] at h
  obtain ⟨run, hrun, taken, htaken, ⟨⟩⟩ := h
  have hmem : run ∈ activity.jobs := List.mem_of_getElem? hrun
  -- an activity that waits for jobs stores what they store
  have hstores : ∀ jobs key value, (activity.withJobs jobs).Stores key value ↔
      ∃ run ∈ jobs, run.Stores key value := by
    intro jobs key value
    cases activity with
    | read query format stage => cases stage <;> first | rfl | cases hmem
    | change event stage => cases stage <;> first | rfl | cases hmem
    | job | request => cases hmem
  have hbefore : ∀ key value, run.Stores key value → activity.Stores key value := by
    intro key value hrunStores
    cases activity with
    | read | change => exact ⟨run, hmem, hrunStores⟩
    | job | request => cases hmem
  refine ⟨?_, ?_, by simp, fun reliable => JobRun.step_reliable reliable htaken⟩
  · intro key value held
    exact (JobRun.of_holds htaken held).imp id (hbefore key value)
  · intro key value hafter
    obtain ⟨other, hother, hotherStores⟩ := (hstores _ key value).mp hafter
    left
    rcases List.mem_or_eq_of_mem_set hother with hold | rfl
    · cases activity with
      | read | change => exact ⟨other, hold, hotherStores⟩
      | job | request => cases hold
    · exact hbefore key value (JobRun.of_stores htaken hotherStores)

theorem abort?_entries (h : abort? c store activity = some step) :
    MovesEntries now c store activity move step := by
  have hnothing : ∀ {next : ActivityStep ρ σ}, some next = some step → next.store = store →
      (∀ key value, ¬ next.activity.Stores key value) → next.spawned = [] →
      MovesEntries now c store activity move step := by
    rintro next ⟨⟩ hsame hstores halone
    exact .of_nothing hsame hstores halone
  have hjobless : ∀ {next : Activity ρ}, next.jobs = [] → ∀ key value,
      ¬ ∃ run ∈ next.jobs, run.Stores key value := by
    rintro next hjobs key value ⟨run, hrun, -⟩
    rw [hjobs] at hrun
    cases hrun
  cases activity with
  | read query format stage =>
    cases stage with
    | ended => cases h
    | _ => exact hnothing h rfl (hjobless rfl) rfl
  | change event stage =>
    cases stage with
    | ready | deleting => exact hnothing h rfl (hjobless rfl) rfl
    | ended | aborted => cases h
  | request asked stage =>
    cases stage with
    | ready | waiting => exact hnothing h rfl (hjobless rfl) rfl
    | ended | aborted => cases h
  | job run =>
    cases run with
    | working => exact hnothing h rfl (fun _ _ => id) rfl
    | finished | brokeDown => cases h

theorem move?_entries (h : activity.move? now c store move = some step) :
    MovesEntries now c store activity move step := by
  cases move with
  | go mover =>
    cases activity with
    | read query format before => exact goRead?_entries h
    | change event stage => exact goInvalidation?_entries h
    | request asked stage => exact goRequest?_entries h
    | job run =>
      obtain ⟨taken, htaken, rfl⟩ := Option.map_eq_some_iff.mp h
      exact ⟨fun _ _ held => JobRun.of_holds htaken held,
        fun _ _ stores => .inl (JobRun.of_stores htaken stores), by simp,
        fun reliable => JobRun.step_reliable reliable htaken⟩
  | goJob => exact goJob?_entries h
  | deliver mover outcome =>
    cases activity with
    | read query format before =>
      cases before with
      | fetching flight =>
        obtain rfl := Option.some.inj h
        refine .of_readTurn fun key value hsupplies => ?_
        obtain ⟨result, rfl, hfills⟩ := Read.afterFetch_supplies hsupplies
        exact .fetched hfills
      | bypassing =>
        obtain rfl := Option.some.inj h
        exact .of_idle (Read.afterBypass_idle c outcome)
      | _ => cases h
    | change | job | request => cases h
  | abort => exact abort?_entries h

end

end Activity

/-! ## Steps of a world -/

def Action.starts? : Action ρ σ → Option (Activity ρ)
  | .read query format => some (.ofQuery query format)
  | .change event => some (.ofChange event)
  | .request asked => some (.ofRequest asked)
  | .forget _ | .move _ | .wait _ | .disturb _ => none

/-- Whether an action changes the store behind the back of the cache. -/
def Action.disturbs : Action ρ σ → Bool
  | .disturb _ => true
  | _ => false

namespace World

variable [Medium σ] [LawfulMedium σ]

def Holds (w : World ρ σ) (key value : String) : Prop :=
  LawfulMedium.Holds w.store w.now key value

/-- The activity is a job that was just sent off, which only happens if fills are not waited for. -/
def SentOff (w : World ρ σ) (activity : Activity ρ) : Prop :=
  ∃ job, activity = .ofJob job ∧ w.node.cache.config.detachesUpkeep = true

/-- What an action does to activities and entries, if the store is not changed by others. -/
structure EntryStep (w : World ρ σ) (action : Action ρ σ) (w' : World ρ σ) : Prop where
  grows : w.node.cache.Grows w'.node.cache
  reliable : LawfulMedium.Reliable w.store → LawfulMedium.Reliable w'.store
  kept : ∀ (i : ActivityId) (activity : Activity ρ), w.node.activities[i]? = some activity →
    (∀ move, action = .move move → i ≠ move.activity) → w'.node.activities[i]? = some activity
  old : ∀ (i : ActivityId) (after : Activity ρ), w'.node.activities[i]? = some after →
    (∃ before, w.node.activities[i]? = some before ∧ after.origin = before.origin) ∨
      action.starts? = some after ∨ w.SentOff after
  held : ∀ key value, w'.Holds key value → w.Holds key value ∨
    ∃ move activity, action = .move move ∧ w.node.activities[move.activity]? = some activity ∧
      activity.Stores key value
  stores : ∀ (i : ActivityId) (after : Activity ρ) (key value : String),
    w'.node.activities[i]? = some after → after.Stores key value →
    (∃ before, w.node.activities[i]? = some before ∧ after.origin = before.origin ∧
      before.Stores key value) ∨
    ∃ move activity, action = .move move ∧ w.node.activities[move.activity]? = some activity ∧
      (after.origin = activity.origin ∨ w.SentOff after) ∧
      Activity.Supplies w.node.cache activity move w'.node.cache key value

variable {w w' : World ρ σ} {action : Action ρ σ}

theorem EntryStep.of_start {activity : Activity ρ} (starts : action.starts? = some activity)
    (new : activity.origin = activity) : EntryStep w action (w.enter activity) := by
  refine ⟨.refl _, id, ?_, ?_, fun _ _ held => .inl held, ?_⟩
  · intro i other found _
    exact enter_activities_of_some activity found
  · intro i after found
    rcases of_enter_activities found with ⟨-, rfl⟩ | hold
    · exact .inr (.inl starts)
    · exact .inl ⟨after, hold, rfl⟩
  · intro i after key value found stores
    rcases of_enter_activities found with ⟨-, rfl⟩ | hold
    · exact absurd stores (Activity.not_stores_of_origin new key value)
    · exact .inl ⟨after, hold, rfl, stores⟩

/-- An action that leaves the activities alone, and the store to itself. -/
theorem EntryStep.of_same (activities : w'.node.activities = w.node.activities)
    (grows : w.node.cache.Grows w'.node.cache) (store : w'.store = w.store) (now : w.now ≤ w'.now) :
    EntryStep w action w' := by
  refine ⟨grows, store ▸ id, ?_, ?_, ?_, ?_⟩
  · intro i activity found _
    rwa [activities]
  · intro i after found
    rw [activities] at found
    exact .inl ⟨after, found, rfl⟩
  · intro key value held
    rw [Holds, store] at held
    exact .inl (LawfulMedium.holds_earlier now held)
  · intro i after key value found stores
    rw [activities] at found
    exact .inl ⟨after, found, rfl, stores⟩

theorem EntryStep.of_move {move : Move ρ} {activity : Activity ρ} {step : ActivityStep ρ σ}
    (found : w.node.activities[move.activity]? = some activity)
    (taken : activity.move? w.now w.node.cache w.store move = some step) :
    EntryStep w (.move move) (w.after move.activity step) := by
  obtain ⟨hgrows, hspawned⟩ := Activity.move?_grows taken
  have hentries := Activity.move?_entries taken
  have horigin := Activity.move?_origin taken
  have hsent : ∀ job ∈ step.spawned, w.SentOff (.ofJob job) := by
    intro job hjob
    refine ⟨job, rfl, ?_⟩
    cases hdetaches : w.node.cache.config.detachesUpkeep with
    | true => rfl
    | false =>
      rw [hspawned hdetaches] at hjob
      cases hjob
  refine ⟨hgrows, hentries.reliable, ?_, ?_, ?_, ?_⟩
  · intro i other hother hi
    exact after_activities_other step (hi move rfl) hother
  · intro i after hafter
    rcases of_after_activities hafter with ⟨rfl, rfl⟩ | ⟨-, hold⟩ | ⟨job, hjob, rfl⟩
    · exact .inl ⟨activity, found, horigin⟩
    · exact .inl ⟨after, hold, rfl⟩
    · exact .inr (.inr (hsent job hjob))
  · intro key value held
    exact (hentries.held key value held).imp id fun stores => ⟨move, activity, rfl, found, stores⟩
  · intro i after key value hafter stores
    rcases of_after_activities hafter with ⟨rfl, rfl⟩ | ⟨-, hold⟩ | ⟨job, hjob, rfl⟩
    · rcases hentries.stores key value stores with hbefore | hsupplies
      · exact .inl ⟨activity, found, horigin, hbefore⟩
      · exact .inr ⟨move, activity, rfl, found, .inl horigin, hsupplies⟩
    · exact .inl ⟨after, hold, rfl, stores⟩
    · exact .inr ⟨move, activity, rfl, found, .inr (hsent job hjob),
        hentries.spawned job hjob key value (JobRun.start_stores.mp stores)⟩

theorem act?_entryStep (owned : action.disturbs = false)
    (acts : w.act? action = some w') : EntryStep w action w' := by
  cases action with
  | read | change | request =>
    obtain rfl := Option.some.inj acts
    exact .of_start rfl rfl
  | forget query =>
    obtain rfl := Option.some.inj acts
    exact .of_same rfl (.of_same rfl rfl rfl) rfl (Nat.le_refl _)
  | move move =>
    obtain ⟨activity, step, found, taken, rfl⟩ := act?_move_iff.mp acts
    exact .of_move found taken
  | wait nanos =>
    obtain rfl := Option.some.inj acts
    exact .of_same rfl (.refl _) rfl (Nat.le_add_right _ _)
  | disturb => cases owned

end World

end ReadThrough
