import ReadThrough.Proofs.Freshness.Sweep
import ReadThrough.Proofs.Reads.Inversion
import ReadThrough.Proofs.Store.Sharing

/-! # A cache keeps to its own keys

Every call that a cache makes has to do with keys under its own instance id only, whatever tables, indexes,
query texts and values come in; a sweep, too, reaches nothing else. The calls of a read or of an
invalidation even keep to its table and to the namespaces that the level selects.

* `KeyLayout.Owns` are the keys of a layout; no key belongs to two layouts whose ids are free of colons and
  differ, even if one id begins with the other; what is served for a table (`Cache.Serves`) is among them;
* `Read.Confined` says of a turn that all its calls keep to some keys, and `Read.Goes.confined` that the turns
  of a read keep to what is served for its table;
* `Activity.Concerns` says so of all calls of an activity, in progress and to come;
* `Activity.move?_keepsTo`: moves keep to the keys of the cache, and so do the jobs they send off.
-/

namespace ReadThrough
set_option autoImplicit false

variable {ρ σ : Type}

/-! ## Keys of a layout -/

theorem ColonFree.of_isInstanceId {id : String} (valid : Configuration.isInstanceId id) :
    ColonFree id := by
  have hfree : ':' ∉ id.toList := by
    simpa using (Bool.and_eq_true_iff.mp valid).2
  exact hfree

namespace KeyLayout

/-- The keys that lie under the instance id. -/
def Owns (space : KeyLayout) (key : String) : Prop := isUnder key space.id

variable {space other : KeyLayout} {table index key segments : String}

theorem owns_of_toList {rest : List Char} (h : key.toList = space.id.toList ++ ':' :: rest) :
    space.Owns key := by
  rw [Owns, isUnder_iff, h]
  exact ⟨rest, by simp⟩

theorem owns_of_isUnder {rest : List Char} (h : segments.toList = space.id.toList ++ ':' :: rest)
    (under : isUnder key segments) : space.Owns key := by
  rw [isUnder_iff, h] at under
  rw [Owns, isUnder_iff]
  apply List.IsPrefix.trans _ under
  exact ⟨rest ++ [':'], by simp⟩

theorem owns_rowKey (space : KeyLayout) (table : String) (key : CompositeKey) :
    space.Owns (space.rowKey table key) := owns_of_toList (rowKey_toList space table key)

theorem owns_indexKey (space : KeyLayout) (table index : String) (key : CompositeKey) :
    space.Owns (space.indexKey table index key) := owns_of_toList (indexKey_toList space table index key)

theorem owns_resultKey (space : KeyLayout) (table sql : String) (params : List Param) :
    space.Owns (space.resultKey table sql params) :=
  owns_of_toList (resultKey_toList space table sql params)

theorem owns_of_isUnder_rowsOf (under : isUnder key (space.rowsOf table)) : space.Owns key :=
  owns_of_isUnder (rowsOf_toList space table) under

theorem owns_of_isUnder_resultsOf (under : isUnder key (space.resultsOf table)) : space.Owns key :=
  owns_of_isUnder (resultsOf_toList space table) under

theorem owns_of_isUnder_indexOf (under : isUnder key (space.indexOf table index)) : space.Owns key := by
  have hlist : (space.indexOf table index).toList =
      space.id.toList ++ ':' :: ('u' :: ':' :: (table.toList ++ ':' :: index.toList)) := by
    simp [indexOf, String.toList_append]
  exact owns_of_isUnder hlist under

/-- A key belongs to one layout only: up to its first colon it is the id. -/
theorem not_owns_of_owns (free : ColonFree space.id) (free' : ColonFree other.id)
    (differ : space.id ≠ other.id) (owns : space.Owns key) : ¬ other.Owns key := by
  intro howns
  obtain ⟨rest, hrest⟩ := isUnder_iff.mp owns
  obtain ⟨rest', hrest'⟩ := isUnder_iff.mp howns
  have hsame : space.id.toList ++ ':' :: rest = other.id.toList ++ ':' :: rest' := by
    simpa using hrest.trans hrest'.symm
  exact differ (String.ext (eq_of_append_colonFree free free' hsame).1)

end KeyLayout

/-! ## Keys that are served -/

theorem KeyLayout.isUnder_uniquesOf_of_indexOf {space : KeyLayout} {table index key : String}
    (under : isUnder key (space.indexOf table index)) : isUnder key (space.uniquesOf table) := by
  rw [isUnder_iff] at under ⊢
  apply List.IsPrefix.trans _ under
  exact ⟨index.toList ++ [':'], by simp [indexOf, uniquesOf, String.toList_append]⟩

namespace Cache

variable {c : Cache} {table key : String}

theorem Serves.owns (h : c.Serves table key) : c.space.Owns key := by
  rcases h with ⟨-, hrow | hunique⟩ | ⟨-, hresult⟩
  · exact KeyLayout.owns_of_isUnder_rowsOf hrow
  · exact KeyLayout.owns_of_isUnder (KeyLayout.uniquesOf_toList c.space table) hunique
  · exact KeyLayout.owns_of_isUnder_resultsOf hresult

theorem serves_resultKey {query : Query} (level : c.config.level.cachesSearches) :
    c.Serves query.table (c.resultKey query) :=
  .inr ⟨level, KeyLayout.isUnder_resultsOf c.space query.table query.sql query.params⟩

theorem serves_pointKeys (level : c.config.level.cachesPoints) (table : String) (lookup : Lookup)
    (sought : List CompositeKey) : ∀ key ∈ c.pointKeys table lookup sought, c.Serves table key := by
  intro key hkey
  cases lookup with
  | primary keys =>
    obtain ⟨primary, -, rfl⟩ := List.mem_map.mp hkey
    exact .inl ⟨level, .inl (KeyLayout.isUnder_rowsOf c.space table primary)⟩
  | unique index keys =>
    obtain ⟨unique, -, rfl⟩ := List.mem_map.mp hkey
    exact .inl ⟨level, .inr (KeyLayout.isUnder_uniquesOf c.space table index unique)⟩

end Cache

/-! ## Calls of a cache -/

namespace Cache

variable (c : Cache)

theorem owns_pointKeys (table : String) (lookup : Lookup) (sought : List CompositeKey) :
    ∀ key ∈ c.pointKeys table lookup sought, c.space.Owns key := by
  intro key hkey
  cases lookup with
  | primary keys =>
    obtain ⟨primary, -, rfl⟩ := List.mem_map.mp hkey
    exact KeyLayout.owns_rowKey c.space table primary
  | unique index keys =>
    obtain ⟨unique, -, rfl⟩ := List.mem_map.mp hkey
    exact KeyLayout.owns_indexKey c.space table index unique

theorem prepare_concerns {k : ReplyKind} (asked : Request k) :
    (c.prepare asked).2.Concerns c.space.Owns := by
  have hrows : ∀ table (keys : List CompositeKey), ∀ key ∈ keys.map (c.space.rowKey table),
      c.space.Owns key := fun table keys => c.owns_pointKeys table (.primary keys) keys
  have hunique : ∀ table index (keys : List CompositeKey),
      ∀ key ∈ keys.map (c.space.indexKey table index), c.space.Owns key :=
    fun table index keys => c.owns_pointKeys table (.unique index keys) keys
  cases asked with
  | reset => exact fun key under => under
  | invalidateSearches table => exact fun key => KeyLayout.owns_of_isUnder_resultsOf
  | invalidateAllPrimaries table => exact fun key => KeyLayout.owns_of_isUnder_rowsOf
  | invalidateAllUniques table index => exact fun key => KeyLayout.owns_of_isUnder_indexOf
  | invalidatePrimary table key => exact KeyLayout.owns_rowKey c.space table key
  | containsSearch table sql params | getSearch table sql params | putSearch table sql params =>
    exact KeyLayout.owns_resultKey c.space table sql params
  | invalidatePrimaries table keys | containsPrimaries table keys | getPrimaries table keys =>
    exact hrows table keys
  | invalidateUniques table index keys | getUniques table index keys =>
    exact hunique table index keys
  | putPrimaries table rows =>
    intro entry hentry
    obtain ⟨row, -, rfl⟩ := List.mem_map.mp hentry
    exact KeyLayout.owns_rowKey c.space table row.1
  | putUniques table index rows =>
    intro entry hentry
    obtain ⟨row, -, rfl⟩ := List.mem_map.mp hentry
    exact KeyLayout.owns_indexKey c.space table index row.1

theorem deletions_concern (level : c.config.level.cachesPoints) {change : Change} {deletion : Deletion}
    (h : deletion ∈ c.deletions change) : deletion.call.Concerns (c.Serves change.table) := by
  have hindex : ∀ index key, isUnder key (c.space.indexOf change.table index) →
      c.Serves change.table key :=
    fun index key under => .inl ⟨level, .inr (KeyLayout.isUnder_uniquesOf_of_indexOf under)⟩
  rcases List.mem_append.mp h with hlisted | hunmentioned
  · rcases List.mem_cons.mp hlisted with rfl | hmentioned
    · unfold rowDeletion
      split
      · rename_i named _
        exact serves_pointKeys level change.table (.primary named) named
      · exact fun key under => .inl ⟨level, .inl under⟩
    · obtain ⟨named, -, rfl⟩ := List.mem_map.mp hmentioned
      unfold indexDeletion
      split
      · rename_i keys _
        exact serves_pointKeys level change.table (.unique named.index keys) keys
      · exact hindex named.index
  · obtain ⟨index, -, rfl⟩ := List.mem_map.mp hunmentioned
    exact hindex index

theorem invalidationJobs_concerns {change : Change} {job : Job}
    (h : job ∈ c.invalidationJobs change) : (JobRun.start job).Concerns (c.Serves change.table) := by
  rw [JobRun.start_concerns]
  intro step hstep
  rcases List.mem_append.mp h with hpoints | hsearches
  · split at hpoints
    · rename_i hguard
      obtain rfl := List.mem_singleton.mp hpoints
      obtain ⟨deletion, hdeletion, rfl⟩ := List.mem_map.mp hstep
      exact c.deletions_concern hguard.2 hdeletion
    · cases hpoints
  · split at hsearches
    · rename_i hlevel
      obtain rfl := List.mem_singleton.mp hsearches
      obtain rfl := List.mem_singleton.mp hstep
      exact fun key under => .inr ⟨hlevel, under⟩
    · cases hsearches

end Cache

/-! ## Turns of reads -/

/-- The calls of a read at this stage, in progress and to come, concern only keys of this kind. -/
def ReadStage.Concerns (stage : ReadStage ρ) (Own : String → Prop) : Prop :=
  match stage with
  | .awaitingPoints _ _ operation => operation.Concerns Own
  | .awaitingSearch _ operation => operation.Concerns Own
  | .filling _ _ _ jobs => ∀ run ∈ jobs, run.Concerns Own
  | .ready | .bypassing | .following _ | .fetching _ | .ended _ => True

theorem ReadStage.Concerns.mono {stage : ReadStage ρ} {Own Own' : String → Prop}
    (h : stage.Concerns Own) (imp : ∀ key, Own key → Own' key) : stage.Concerns Own' := by
  cases stage with
  | awaitingPoints | awaitingSearch => exact Operation.Concerns.mono h imp
  | filling => exact fun run hrun => (h run hrun).mono imp
  | ready | bypassing | following | fetching | ended => trivial

namespace Read

variable {c : Cache} {query : Query} {format : RowFormat ρ} {flight : FlightId}

structure Confined (Own : String → Prop) (turn : Turn (ReadStage ρ)) : Prop where
  stage : turn.stage.Concerns Own
  spawned : ∀ job ∈ turn.spawned, (JobRun.start job).Concerns Own

theorem Confined.mono {Own Own' : String → Prop} {turn : Turn (ReadStage ρ)} (h : Confined Own turn)
    (imp : ∀ key, Own key → Own' key) : Confined Own' turn :=
  ⟨h.stage.mono imp, fun job hjob => (h.spawned job hjob).mono imp⟩

theorem Confined.of_unasked {Own : String → Prop} {turn : Turn (ReadStage ρ)}
    (stage : turn.stage.Concerns Own) (spawned : turn.spawned = []) : Confined Own turn := by
  refine ⟨stage, fun job hjob => ?_⟩
  rw [spawned] at hjob
  cases hjob

theorem lookUpSearch_confined (c : Cache) (query : Query) (flight : FlightId) (notices : List Notice) :
    Confined (c.Serves query.table) (lookUpSearch c query flight notices : Turn (ReadStage ρ)) := by
  unfold lookUpSearch
  split
  · rename_i hlevel
    exact .of_unasked (Cache.serves_resultKey hlevel) rfl
  · exact .of_unasked trivial rfl

theorem lookUp_confined (c : Cache) (query : Query) (flight : FlightId) (notices : List Notice) :
    Confined (c.Serves query.table) (lookUp c query flight notices : Turn (ReadStage ρ)) := by
  unfold lookUp
  split
  · rename_i hlevel
    split
    · rename_i lookup sought _
      exact .of_unasked (Cache.serves_pointKeys hlevel query.table lookup sought) rfl
    · exact lookUpSearch_confined c query flight notices
  · exact lookUpSearch_confined c query flight notices

theorem join_confined (c : Cache) (query : Query) (notices : List Notice) :
    Confined (c.Serves query.table) (join c query notices : Turn (ReadStage ρ)) := by
  unfold join
  split
  · exact .of_unasked trivial rfl
  · rename_i flights flight _
    exact lookUp_confined { c with flights := flights } query flight notices

theorem start_confined (c : Cache) (query : Query) :
    Confined (c.Serves query.table) (start c query : Turn (ReadStage ρ)) := by
  unfold start
  split
  · exact join_confined c query []
  · exact .of_unasked trivial rfl

theorem afterFlight?_confined {turn : Turn (ReadStage ρ)}
    (h : afterFlight? c query format flight = some turn) : Confined (c.Serves query.table) turn := by
  unfold afterFlight? at h
  split at h
  · obtain rfl := Option.some.inj h
    exact .of_unasked trivial rfl
  · obtain rfl := Option.some.inj h
    exact join_confined c query _
  · cases h
  · cases h

theorem afterPoints_confined (c : Cache) (query : Query) (format : RowFormat ρ) (flight : FlightId)
    (sought : List CompositeKey) (reply : Reply .slots) :
    Confined (c.Serves query.table) (afterPoints c query format flight sought reply) := by
  unfold afterPoints
  split
  · exact .of_unasked trivial rfl
  · exact lookUpSearch_confined c query flight _
  · split
    · exact lookUpSearch_confined c query flight _
    · split
      · exact lookUpSearch_confined c query flight _
      · exact .of_unasked trivial rfl

theorem afterSearch_confined (c : Cache) (query : Query) (format : RowFormat ρ) (flight : FlightId)
    (reply : Reply .text) : Confined (c.Serves query.table) (afterSearch c query format flight reply) := by
  unfold afterSearch
  split
  · exact .of_unasked trivial rfl
  · exact .of_unasked trivial rfl
  · split
    · exact .of_unasked trivial rfl
    · split
      · exact .of_unasked trivial rfl
      · split
        · exact .of_unasked trivial rfl
        · exact .of_unasked trivial rfl

theorem notFoundPlan_concerns {job : Job} (h : job ∈ (notFoundPlan c query).jobs) :
    (JobRun.start job).Concerns (c.Serves query.table) := by
  unfold notFoundPlan at h
  split at h
  · rename_i hremembers
    obtain rfl := List.mem_singleton.mp h
    exact ⟨Cache.serves_resultKey (Bool.and_eq_true_iff.mp hremembers).2, by simp⟩
  · cases h

theorem entriesOfRows_served (level : c.config.level.cachesPoints) {table : String} {rows : List ρ} :
    ∀ entry ∈ entriesOfRows c format table rows, c.Serves table entry.key := by
  intro entry hentry
  obtain ⟨row, -, -, ⟨unique, -, hkey⟩ | ⟨primary, -, hkey⟩⟩ := mem_entriesOfRows hentry
  · rw [hkey]
    exact .inl ⟨level, .inr (KeyLayout.isUnder_uniquesOf c.space table unique.1 unique.2)⟩
  · rw [hkey]
    exact .inl ⟨level, .inl (KeyLayout.isUnder_rowsOf c.space table primary)⟩

theorem rowsPlan_concerns {fetched : ResultSet ρ} {payload : String} {job : Job}
    (h : job ∈ (rowsPlan c query format fetched payload).jobs) :
    (JobRun.start job).Concerns (c.Serves query.table) := by
  have hsearch : job ∈ searchJobs c query fetched.rowsAffected payload →
      (JobRun.start job).Concerns (c.Serves query.table) := by
    intro hjob
    unfold searchJobs at hjob
    split at hjob
    · rename_i hlevel
      obtain rfl := List.mem_singleton.mp hjob
      exact ⟨Cache.serves_resultKey hlevel, by simp⟩
    · cases hjob
  unfold rowsPlan at h
  split at h
  · dsimp only at h
    split at h
    · rename_i hlevel
      rcases List.mem_append.mp h with hjob | hjob
      · exact hsearch hjob
      · unfold pointJobs at hjob
        split at hjob
        · cases hjob
        · obtain rfl := List.mem_singleton.mp hjob
          exact ⟨entriesOfRows_served hlevel, by simp⟩
    · exact hsearch h
  · cases h

theorem keep_confined {Own : String → Prop} {plan : FillPlan}
    (concerns : ∀ job ∈ plan.jobs, (JobRun.start job).Concerns Own) (query : Query) (flight : FlightId)
    (result : Option (ResultSet ρ)) (outcome : Outcome) :
    Confined Own (keep plan query flight result outcome) := by
  unfold keep
  dsimp only
  split
  · exact ⟨trivial, concerns⟩
  · split
    · exact .of_unasked trivial rfl
    · refine .of_unasked ?_ rfl
      intro run hrun
      obtain ⟨job, hjob, rfl⟩ := List.mem_map.mp hrun
      exact concerns job hjob

theorem afterFetch_confined (c : Cache) (query : Query) (format : RowFormat ρ) (flight : FlightId)
    (outcome : FetchOutcome ρ) :
    Confined (c.Serves query.table) (afterFetch c query format flight outcome) := by
  unfold afterFetch
  split
  · exact .of_unasked trivial rfl
  · exact .of_unasked trivial rfl
  · split
    · exact keep_confined (fun job => notFoundPlan_concerns) query flight _ _
    · split
      · exact .of_unasked trivial rfl
      · exact keep_confined (fun job => rowsPlan_concerns) query flight _ _

theorem afterBypass_confined (c : Cache) (Own : String → Prop) (outcome : FetchOutcome ρ) :
    Confined Own (afterBypass c outcome) := by
  cases outcome <;> exact .of_unasked trivial rfl

variable [Medium σ] {now : Nat} {store : σ} {before : ReadStage ρ} {turn : Turn (ReadStage ρ)}

/-- Whatever turn a read takes, its calls keep to these keys, if they include what is served for its
table. -/
theorem Goes.confined {Own : String → Prop} (h : Goes now c store query format before turn)
    (keeps : Medium.KeepsKeys now store) (serves : ∀ key, c.Serves query.table key → Own key)
    (own : before.Concerns Own) : Confined Own turn := by
  cases h with
  | start => exact (start_confined c query).mono serves
  | follow left => exact (afterFlight?_confined left).mono serves
  | points => exact (afterPoints_confined c query format _ _ _).mono serves
  | pointsGoOn taken => exact .of_unasked (keeps own taken) rfl
  | search => exact (afterSearch_confined c query format _ _).mono serves
  | searchGoesOn taken => exact .of_unasked (keeps own taken) rfl
  | fetched => exact (afterFetch_confined c query format _ _).mono serves
  | bypassed => exact afterBypass_confined c Own _
  | fillGoesOn found taken =>
    refine .of_unasked ?_ rfl
    intro run hrun
    rcases List.mem_or_eq_of_mem_set hrun with hold | rfl
    · exact own run hold
    · exact JobRun.step_concerns keeps (own _ (List.mem_of_getElem? found)) taken
  | fillBroke | filled | aborted => exact .of_unasked trivial rfl

end Read

/-! ## Moves -/

/-- The calls of the activity, in progress and to come, concern only keys of this kind. -/
def Activity.Concerns (activity : Activity ρ) (Own : String → Prop) : Prop :=
  match activity with
  | .read _ _ stage => stage.Concerns Own
  | .change _ (.deleting jobs) => ∀ run ∈ jobs, run.Concerns Own
  | .job run => run.Concerns Own
  | .request _ (.waiting operation) => operation.Concerns Own
  | _ => True

namespace Activity

theorem Concerns.mono {activity : Activity ρ} {Own Own' : String → Prop} (h : activity.Concerns Own)
    (imp : ∀ key, Own key → Own' key) : activity.Concerns Own' := by
  cases activity with
  | read query format stage => exact ReadStage.Concerns.mono h imp
  | job run => exact JobRun.Concerns.mono h imp
  | change event stage =>
    cases stage with
    | deleting jobs => exact fun run hrun => (h run hrun).mono imp
    | ready | ended | aborted => trivial
  | request asked stage =>
    cases stage with
    | waiting operation => exact Operation.Concerns.mono h imp
    | ready | ended | aborted => trivial

theorem concerns_of_origin {activity : Activity ρ} (h : activity.origin = activity)
    (Own : String → Prop) : activity.Concerns Own := by
  rw [← h]
  cases activity <;> trivial

/-- The calls of a step keep to these keys: those of the activity, and those of the jobs sent off. -/
structure KeepsTo (Own : String → Prop) (step : ActivityStep ρ σ) : Prop where
  activity : step.activity.Concerns Own
  spawned : ∀ job ∈ step.spawned, (JobRun.start job).Concerns Own

theorem KeepsTo.of_alone {Own : String → Prop} {step : ActivityStep ρ σ}
    (activity : step.activity.Concerns Own) (alone : step.spawned = []) : KeepsTo Own step := by
  refine ⟨activity, fun job hjob => ?_⟩
  rw [alone] at hjob
  cases hjob

/-- The first turn of an invalidation waits for its jobs or sends them off, if it has any. -/
theorem start_keepsTo (c : Cache) (store : σ) (event : Change) :
    KeepsTo (c.Serves event.table) (ofInvalidationTurn event store (Invalidation.start c event) :
      ActivityStep ρ σ) := by
  have hjobs : ∀ job ∈ c.invalidationJobs event, (JobRun.start job).Concerns (c.Serves event.table) :=
    fun job => c.invalidationJobs_concerns
  unfold Invalidation.start
  split
  · dsimp only
    split
    · exact ⟨trivial, hjobs⟩
    · split
      · exact .of_alone trivial rfl
      · refine .of_alone ?_ rfl
        intro run hrun
        obtain ⟨job, hjob, rfl⟩ := List.mem_map.mp hrun
        exact hjobs job hjob
  · exact .of_alone trivial rfl

theorem KeepsTo.mono {Own Own' : String → Prop} {step : ActivityStep ρ σ} (h : KeepsTo Own step)
    (imp : ∀ key, Own key → Own' key) : KeepsTo Own' step :=
  ⟨h.activity.mono imp, fun job hjob => (h.spawned job hjob).mono imp⟩

variable [Medium σ] {now : Nat} {c : Cache} {store : σ} {activity : Activity ρ} {move : Move ρ}
  {step : ActivityStep ρ σ} {Own : String → Prop}

theorem read_keepsTo {query : Query} {format : RowFormat ρ} {before : ReadStage ρ}
    (h : (Activity.read query format before).move? now c store move = some step)
    (keeps : Medium.KeepsKeys now store) (serves : ∀ key, c.Serves query.table key → Own key)
    (own : before.Concerns Own) : KeepsTo Own step := by
  obtain ⟨turn, hgoes, hstep⟩ := move?_goes h
  obtain ⟨hstage, hspawned⟩ := hgoes.confined keeps serves own
  rw [hstep]
  exact ⟨hstage, hspawned⟩

theorem MovesChange.keepsTo {event : Change} {stage : InvalidationStage}
    (h : MovesChange now c store event stage step) (keeps : Medium.KeepsKeys now store)
    (serves : ∀ key, c.Serves event.table key → Own key)
    (own : (Activity.change event stage : Activity ρ).Concerns Own) : KeepsTo Own step := by
  cases h with
  | start => exact (start_keepsTo c store event).mono serves
  | job found taken =>
    refine .of_alone ?_ rfl
    intro run hrun
    rcases List.mem_or_eq_of_mem_set hrun with hold | rfl
    · exact own run hold
    · exact JobRun.step_concerns keeps (own _ (List.mem_of_getElem? found)) taken
  | finish | abort => exact .of_alone trivial rfl

theorem request_keepsTo {k : ReplyKind} {asked : Request k} {stage : RequestStage k}
    (h : (Activity.request asked stage).move? now c store move = some step)
    (keeps : Medium.KeepsKeys now store)
    (own : (Activity.request asked stage : Activity ρ).Concerns c.space.Owns) :
    KeepsTo c.space.Owns step := by
  cases move with
  | go =>
    simp only [move?, go?] at h
    unfold goRequest? at h
    split at h
    · obtain rfl := Option.some.inj h
      exact .of_alone (c.prepare_concerns asked) rfl
    · obtain rfl := Option.some.inj h
      exact .of_alone trivial rfl
    · obtain ⟨taken, htaken, rfl⟩ := Option.map_eq_some_iff.mp h
      exact .of_alone (keeps own htaken) rfl
    · cases h
    · cases h
  | goJob => cases h
  | deliver => cases h
  | abort =>
    cases stage with
    | ready | waiting =>
      obtain rfl := Option.some.inj h
      exact .of_alone trivial rfl
    | ended | aborted => cases h

theorem job_keepsTo {run : JobRun} (h : (Activity.job run).move? now c store move = some step)
    (keeps : Medium.KeepsKeys now store) (own : run.Concerns Own) : KeepsTo Own step := by
  cases move with
  | go =>
    obtain ⟨taken, htaken, rfl⟩ := Option.map_eq_some_iff.mp h
    exact .of_alone (JobRun.step_concerns keeps own htaken) rfl
  | goJob => cases h
  | deliver => cases h
  | abort =>
    cases run with
    | working =>
      obtain rfl := Option.some.inj h
      exact .of_alone trivial rfl
    | finished | brokeDown => cases h

/-- Whatever move an activity makes, its calls and those of the jobs sent off keep to the keys of the
cache. -/
theorem move?_keepsTo (h : activity.move? now c store move = some step)
    (keeps : Medium.KeepsKeys now store) (own : activity.Concerns c.space.Owns) :
    KeepsTo c.space.Owns step := by
  cases activity with
  | read query format before => exact read_keepsTo h keeps (fun _ => Cache.Serves.owns) own
  | change event stage => exact (move?_change h).keepsTo keeps (fun _ => Cache.Serves.owns) own
  | request asked stage => exact request_keepsTo h keeps own
  | job run => exact job_keepsTo h keeps own

end Activity

/-! ## Steps of a world -/

namespace World

/-- The calls of all activities keep to the keys of the cache. -/
def Confined (w : World ρ σ) : Prop :=
  ∀ (i : ActivityId) (activity : Activity ρ), w.node.activities[i]? = some activity →
    activity.Concerns w.node.cache.space.Owns

theorem Confined.of_new {w : World ρ σ} (new : w.IsNew) : w.Confined := by
  intro i activity found
  simp [new.2] at found

theorem Confined.enter {w : World ρ σ} (h : w.Confined) {activity : Activity ρ}
    (new : activity.origin = activity) : (w.enter activity).Confined := by
  intro i after found
  rcases of_enter_activities found with ⟨-, rfl⟩ | hold
  · exact Activity.concerns_of_origin new _
  · exact h i after hold

variable [Medium σ] [LawfulMedium σ] [MapMedium σ] [SharedMedium σ] {w w' : World ρ σ}
  {action : Action ρ σ}

theorem Confined.step (h : w.Confined) (faithful : SharedMedium.Faithful w.store)
    (acts : w.act? action = some w') : w'.Confined := by
  cases action with
  | read | change | request =>
    obtain rfl := Option.some.inj acts
    exact h.enter rfl
  | forget | wait | disturb =>
    obtain rfl := Option.some.inj acts
    exact h
  | move move =>
    obtain ⟨activity, step, found, taken, rfl⟩ := act?_move_iff.mp acts
    have hspace : step.cache.space = w.node.cache.space := (Activity.move?_grows taken).1.space
    have hkeeps := Activity.move?_keepsTo taken (SharedMedium.keepsKeys faithful) (h _ activity found)
    intro i after hafter
    change after.Concerns step.cache.space.Owns
    rw [hspace]
    rcases of_after_activities hafter with ⟨-, rfl⟩ | ⟨-, hold⟩ | ⟨job, hjob, rfl⟩
    · exact hkeeps.activity
    · exact h i after hold
    · exact hkeeps.spawned job hjob

end World

end ReadThrough
