import ReadThrough.Proofs.Layout
import ReadThrough.Proofs.Reads.Conduct
import ReadThrough.Proofs.Reads.Entries
import ReadThrough.Proofs.Store.Dependable

/-! # Reads that are answered as searches

A read without a point lookup looks for one entry only. These are its turns when nobody else reads, and
jobs are waited for.

* `RowFormat.stored?` is the form of a result under the key of its search, and `Cache.Retains` says which
  results are stored;
* `Read.afterSearch_stored` reads a stored form back, and `Read.afterFetch_stage` stores one.
-/

namespace ReadThrough
set_option autoImplicit false

variable {ρ σ : Type}

/-! ## Stored forms -/

/-- The form in which a result is stored under the key of its search, if it can be written. -/
def RowFormat.stored? (format : RowFormat ρ) : Option (ResultSet ρ) → Option String
  | none => some SearchEntry.absenceMark
  | some fetched => (format.encodeAll fetched.rows).map (SearchEntry.encode fetched.rowsAffected)

/-- The result is cacheable: its rows can be written and are not too many, or there are none and this is
to be remembered. -/
def Cache.Retains (c : Cache) (format : RowFormat ρ) : Option (ResultSet ρ) → Prop
  | none => c.config.remembersAbsence
  | some fetched => (c.config.rowLimit = 0 ∨ fetched.rows.length ≤ c.config.rowLimit) ∧
    ∀ row ∈ fetched.rows, ∃ text, format.encode row = some text

theorem Cache.retains_some_iff {c : Cache} {format : RowFormat ρ} {fetched : ResultSet ρ} :
    c.Retains format (some fetched) ↔ c.config.admitsCount fetched.rows.length ∧
      ∃ payload, format.encodeAll fetched.rows = some payload := by
  rw [Configuration.admitsCount_iff, RowFormat.exists_encodeAll_iff]
  rfl

theorem Cache.Retains.stored {c : Cache} {format : RowFormat ρ} {result : Option (ResultSet ρ)}
    (h : c.Retains format result) : ∃ value, format.stored? result = some value := by
  cases result with
  | none => exact ⟨_, rfl⟩
  | some fetched =>
    obtain ⟨-, payload, hpayload⟩ := Cache.retains_some_iff.mp h
    exact ⟨_, congrArg (Option.map _) hpayload⟩

namespace Read

variable {c : Cache} {query : Query} {format : RowFormat ρ} {flight : FlightId}

/-- A stored form is read as the result that it was made of. -/
theorem afterSearch_stored (c : Cache) (query : Query) (flight : FlightId)
    {result : Option (ResultSet ρ)} {value : String} (back : ∀ rows, format.ReadsBack rows)
    (stored : format.stored? result = some value) :
    (afterSearch c query format flight (.ok value)).stage = .ended (.returned (.ok result)) ∧
      (afterSearch c query format flight (.ok value)).fetches = false := by
  cases result with
  | none =>
    obtain rfl := Option.some.inj stored
    rw [afterSearch, if_pos rfl]
    exact ⟨rfl, rfl⟩
  | some fetched =>
    obtain ⟨payload, hpayload, rfl⟩ := Option.map_eq_some_iff.mp stored
    rw [afterSearch, if_neg (SearchEntry.encode_ne_absenceMark _ _)]
    simp only [SearchEntry.decode?_encode, back fetched.rows payload hpayload]
    exact ⟨rfl, rfl⟩

theorem stored?_inj {result result' : Option (ResultSet ρ)} {value : String}
    (back : ∀ rows, format.ReadsBack rows) (stored : format.stored? result = some value)
    (stored' : format.stored? result' = some value) : result = result' := by
  -- a lookup that finds the form returns both results
  let read := (afterSearch ⟨{}, ⟨""⟩, {}, {}, ∅⟩ ⟨"", "", [], .many, none⟩ format 0 (.ok value)).stage
  have hread : read = .ended (.returned (.ok result)) := (afterSearch_stored _ _ _ back stored).1
  have hread' : read = .ended (.returned (.ok result')) := (afterSearch_stored _ _ _ back stored').1
  have hsame := hread.symm.trans hread'
  simpa using hsame

/-! ## The first turn -/

theorem lookUp_plain {notices : List Notice} (plain : query.pointLookup? = none)
    (level : c.config.level.cachesSearches) :
    (lookUp c query flight notices : Turn (ReadStage ρ)) =
      { cache := c
        stage := .awaitingSearch flight (.asked (.get (c.resultKey query)))
        notices := notices } := by
  have hsearch : (lookUpSearch c query flight notices : Turn (ReadStage ρ)) =
      { cache := c
        stage := .awaitingSearch flight (.asked (.get (c.resultKey query)))
        notices := notices } := if_pos level
  rw [lookUp, plain]
  split <;> exact hsearch

theorem start_cached (cached : c.config.caches query.table)
    (level : c.config.level.cachesSearches) (plain : query.pointLookup? = none)
    (free : c.flights.registry[query.flightName]? = none) :
    ∃ flight, (start c query : Turn (ReadStage ρ)).stage =
        .awaitingSearch flight (.asked (.get (c.resultKey query))) ∧
      (start c query : Turn (ReadStage ρ)).fetches = false := by
  rw [start, if_pos cached, join, Flights.join_of_free free]
  dsimp only
  rw [lookUp_plain plain]
  · exact ⟨_, rfl, rfl⟩
  · exact level

theorem start_uncached (uncached : c.config.caches query.table = false) :
    (start c query : Turn (ReadStage ρ)) = { cache := c, stage := .bypassing, fetches := true } := by
  rw [start, uncached]
  rfl

/-! ## The turn after the fetch -/

/-- The jobs store a result: one puts the entry of the search, and no other stores under a key of a
search. -/
structure StoresResult (c : Cache) (query : Query) (value : String) (jobs : List JobRun) : Prop where
  fills : ∀ job ∈ jobs, job.IsFill
  puts : ∃ job ∈ jobs, job.Puts ⟨c.resultKey query, value⟩
  elsewhere : ∀ job ∈ jobs, job.Puts ⟨c.resultKey query, value⟩ ∨
    ∀ other value', ¬ job.Stores (c.resultKey other) value'

theorem StoresResult.cons {value : String} {search : JobRun} {points : List JobRun}
    (puts : search.Puts ⟨c.resultKey query, value⟩) (fills : ∀ job ∈ points, job.IsFill)
    (elsewhere : ∀ job ∈ points, ∀ other value', ¬ job.Stores (c.resultKey other) value') :
    StoresResult c query value (search :: points) where
  fills := List.forall_mem_cons.mpr ⟨puts.isFill, fills⟩
  puts := ⟨search, List.mem_cons_self, puts⟩
  elsewhere := List.forall_mem_cons.mpr ⟨.inl puts, fun job hjob => .inr (elsewhere job hjob)⟩

theorem pointJobs_fill {table : String} {rows : List ρ} {job : JobRun}
    (h : job ∈ (pointJobs table (entriesOfRows c format table rows)).map JobRun.start) :
    job.IsFill ∧ ∀ other value, ¬ job.Stores (c.resultKey other) value := by
  obtain ⟨job, hjob, rfl⟩ := List.mem_map.mp h
  unfold pointJobs at hjob
  split at hjob
  · cases hjob
  · obtain rfl := List.mem_singleton.mp hjob
    refine ⟨JobRun.next_isFill.mpr (by simp [Job.steps, Call.IsPut]), fun other value stores => ?_⟩
    obtain ⟨later, hlater, hentry⟩ := JobRun.start_stores.mp stores
    obtain rfl := List.mem_singleton.mp hlater
    obtain ⟨row, -, -, ⟨unique, -, hkey⟩ | ⟨primary, -, hkey⟩⟩ := mem_entriesOfRows hentry
    · exact KeyLayout.indexKey_ne_resultKey _ _ _ _ hkey.symm
    · exact KeyLayout.rowKey_ne_resultKey _ _ _ hkey.symm

theorem keep_stage {plan : FillPlan} {result : Option (ResultSet ρ)} {outcome : Outcome}
    (waits : plan.cache.config.detachesUpkeep = false) :
    (keep plan query flight result outcome).stage =
        (if plan.jobs.isEmpty then .ended (.returned (.ok result))
          else .filling flight result outcome (plan.jobs.map JobRun.start)) ∧
      (keep plan query flight result outcome).fetches = false := by
  rw [keep, waits]
  dsimp only
  rw [if_neg (by simp)]
  split <;> exact ⟨rfl, rfl⟩

/-- What becomes of a result: it is stored if it is cacheable, and returned at once if not. -/
inductive Disposes (c : Cache) (query : Query) (format : RowFormat ρ) (flight : FlightId)
    (result : Option (ResultSet ρ)) : ReadStage ρ → Prop
  | stores {outcome value jobs} (retains : c.Retains format result)
      (stored : format.stored? result = some value) (stores : StoresResult c query value jobs) :
    Disposes c query format flight result (.filling flight result outcome jobs)
  | returns (forgets : ¬ c.Retains format result) :
    Disposes c query format flight result (.ended (.returned (.ok result)))

theorem notFoundPlan_disposes {outcome : Outcome} (waits : c.config.detachesUpkeep = false)
    (level : c.config.level.cachesSearches) :
    Disposes c query format flight none
      (keep (notFoundPlan c query) query flight (none : Option (ResultSet ρ)) outcome).stage := by
  unfold notFoundPlan
  split
  · rename_i hremembers
    rw [(keep_stage waits).1]
    exact .stores (Bool.and_eq_true_iff.mp hremembers).1 rfl
      (.cons ⟨_, _, rfl⟩ (by simp) (by simp))
  · rename_i hforgets
    rw [(keep_stage waits).1]
    exact .returns fun retains => hforgets (Bool.and_eq_true_iff.mpr ⟨retains, level⟩)

theorem rowsPlan_disposes {outcome : Outcome} {fetched : ResultSet ρ} {payload : String}
    (waits : c.config.detachesUpkeep = false) (level : c.config.level.cachesSearches)
    (written : format.encodeAll fetched.rows = some payload) :
    Disposes c query format flight (some fetched)
      (keep (rowsPlan c query format fetched payload) query flight (some fetched) outcome).stage := by
  have hstored : format.stored? (some fetched) =
      some (SearchEntry.encode fetched.rowsAffected payload) := congrArg (Option.map _) written
  have hretains : c.config.admitsCount fetched.rows.length → c.Retains format (some fetched) :=
    fun hadmits => Cache.retains_some_iff.mpr ⟨hadmits, payload, written⟩
  have hsearch : searchJobs c query fetched.rowsAffected payload =
      [.putSearch query.table
        ⟨c.resultKey query, SearchEntry.encode fetched.rowsAffected payload⟩] := if_pos level
  unfold rowsPlan
  split
  · rename_i hadmits
    dsimp only
    rw [hsearch]
    split
    · have hwaits : (c.learnIndexes query.table
          (indexesOfRows format fetched.rows)).config.detachesUpkeep = false := by
        rw [(c.grows_learnIndexes _ _).config, waits]
      rw [(keep_stage hwaits).1]
      exact .stores (hretains hadmits) hstored (.cons ⟨_, _, rfl⟩
        (fun job hjob => (pointJobs_fill hjob).1) (fun job hjob => (pointJobs_fill hjob).2))
    · rw [(keep_stage waits).1]
      exact .stores (hretains hadmits) hstored (.cons ⟨_, _, rfl⟩ (by simp) (by simp))
  · rename_i hexceeds
    rw [(keep_stage waits).1]
    exact .returns fun retains => hexceeds (Cache.retains_some_iff.mp retains).1

theorem afterFetch_stage (waits : c.config.detachesUpkeep = false)
    (level : c.config.level.cachesSearches) (answer : Option (ResultSet ρ)) :
    Disposes c query format flight (query.shape.normalize answer)
      (afterFetch c query format flight (.answered answer)).stage := by
  rw [afterFetch]
  cases query.shape.normalize answer with
  | none => exact notFoundPlan_disposes waits level
  | some fetched =>
    dsimp only
    cases hwritten : format.encodeAll fetched.rows with
    | none => exact .returns fun retains => by simp [Cache.retains_some_iff, hwritten] at retains
    | some payload => exact rowsPlan_disposes waits level hwritten

end Read

end ReadThrough
