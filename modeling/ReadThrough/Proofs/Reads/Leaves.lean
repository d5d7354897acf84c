import ReadThrough.Proofs.Reads.Misses
import ReadThrough.Proofs.Reads.Searches
import ReadThrough.Proofs.Store.Keeping

/-! # What a fetch leaves in the store

What the data source answered is stored as the result of the search and, row by row, under the keys of the rows, as
far as the level of the cache and the limit on rows allow.

* `Cache.Keys` says under which keys a row is stored, and `Cache.LeavesRows` what is stored under them;
* `FetchOutcome.Leaves` lists all that an outcome leaves;
* `Read.fillJobs` are the jobs that a read waits for, and `Read.lays_fillEntries` says that they put just that.
-/

namespace ReadThrough
set_option autoImplicit false

variable {ρ : Type}

/-! ## What is left -/

/-- A row among others is stored under its unique keys, and under its primary key if all the rows have one. -/
inductive Cache.Keys (c : Cache) (format : RowFormat ρ) (table : String) (rows : List ρ) (row : ρ) : String → Prop
  | unique {index key} (own : (index, key) ∈ format.uniqueKeys row) :
    Keys c format table rows row (c.space.indexKey table index key)
  | primary {key} (all : ∀ other ∈ rows, (format.primaryKey other).isSome)
      (own : format.primaryKey row = some key) : Keys c format table rows row (c.space.rowKey table key)

/-- Under a key, rows leave the text of the last one that is stored there. -/
inductive Cache.LeavesRows (c : Cache) (format : RowFormat ρ) (table : String) (rows : List ρ) :
    (key value : String) → Prop
  | intro {earlier row later key text} (order : rows = earlier ++ row :: later)
      (keyed : c.Keys format table rows row key) (last : ∀ other ∈ later, ¬ c.Keys format table rows other key)
      (written : format.encode row = some text) : LeavesRows c format table rows key text

/-- What an outcome of a fetch leaves in the store. -/
inductive FetchOutcome.Leaves (c : Cache) (query : Query) (format : RowFormat ρ) :
    FetchOutcome ρ → (key value : String) → Prop
  | absence {result} (nothing : query.shape.normalize result = none) (remembers : c.config.remembersAbsence)
      (level : c.config.level.cachesSearches) :
    Leaves c query format (.answered result) (c.resultKey query) SearchEntry.absenceMark
  | search {result fetched payload} (answered : query.shape.normalize result = some fetched)
      (written : format.Writes fetched.rows payload)
      (few : c.config.rowLimit = 0 ∨ fetched.rows.length ≤ c.config.rowLimit)
      (level : c.config.level.cachesSearches) :
    Leaves c query format (.answered result) (c.resultKey query)
      (toString fetched.rowsAffected.toNat ++ "|" ++ payload)
  | rows {result fetched key text} (answered : query.shape.normalize result = some fetched)
      (written : ∀ row ∈ fetched.rows, ∃ text, format.encode row = some text)
      (few : c.config.rowLimit = 0 ∨ fetched.rows.length ≤ c.config.rowLimit)
      (level : c.config.level.cachesPoints)
      (left : c.LeavesRows format query.table fetched.rows key text) :
    Leaves c query format (.answered result) key text

namespace FetchOutcome

variable {c : Cache} {query : Query} {format : RowFormat ρ} {result : Option (ResultSet ρ)} {fetched : ResultSet ρ}
  {payload key value : String}

theorem leaves_iff_of_nothing (nothing : query.shape.normalize result = none) :
    (answered result).Leaves c query format key value ↔
      (c.config.remembersAbsence ∧ c.config.level.cachesSearches) ∧
        c.resultKey query = key ∧ SearchEntry.absenceMark = value := by
  constructor
  · intro h
    cases h with
    | absence _ remembers level => exact ⟨⟨remembers, level⟩, rfl, rfl⟩
    | search answered | rows answered => cases nothing.symm.trans answered
  · rintro ⟨⟨remembers, level⟩, rfl, rfl⟩
    exact .absence nothing remembers level

theorem not_leaves_of_unwritten (found : query.shape.normalize result = some fetched)
    (unwritten : format.encodeAll fetched.rows = none) : ¬ (answered result).Leaves c query format key value := by
  intro h
  cases h with
  | absence nothing => cases found.symm.trans nothing
  | search answered written =>
    obtain rfl := Option.some.inj (found.symm.trans answered)
    cases unwritten.symm.trans (RowFormat.encodeAll_eq_some_iff.mpr written)
  | rows answered written =>
    obtain rfl := Option.some.inj (found.symm.trans answered)
    obtain ⟨payload, hpayload⟩ := RowFormat.exists_encodeAll_iff.mpr written
    cases unwritten.symm.trans hpayload

theorem leaves_iff_of_written (found : query.shape.normalize result = some fetched)
    (written : format.encodeAll fetched.rows = some payload) :
    (answered result).Leaves c query format key value ↔
      c.config.admitsCount fetched.rows.length ∧
        ((c.config.level.cachesSearches ∧ c.resultKey query = key ∧
            SearchEntry.encode fetched.rowsAffected payload = value) ∨
          c.config.level.cachesPoints ∧ c.LeavesRows format query.table fetched.rows key value) := by
  rw [Configuration.admitsCount_iff]
  constructor
  · intro h
    cases h with
    | absence nothing => cases found.symm.trans nothing
    | search answered written' few level =>
      obtain rfl := Option.some.inj (found.symm.trans answered)
      have hpayload := RowFormat.encodeAll_eq_some_iff.mpr written'
      obtain rfl := Option.some.inj (written.symm.trans hpayload)
      exact ⟨few, .inl ⟨level, rfl, rfl⟩⟩
    | rows answered _ few level left =>
      obtain rfl := Option.some.inj (found.symm.trans answered)
      exact ⟨few, .inr ⟨level, left⟩⟩
  · rintro ⟨few, ⟨level, rfl, rfl⟩ | ⟨level, left⟩⟩
    · exact .search found (RowFormat.encodeAll_eq_some_iff.mp written) few level
    · exact .rows found (RowFormat.exists_encodeAll_iff.mp ⟨payload, written⟩) few level left

end FetchOutcome

theorem Cache.Keys.ne_resultKey {c : Cache} {format : RowFormat ρ} {table : String} {rows : List ρ} {row : ρ}
    {key : String} (h : c.Keys format table rows row key) (sql : String) (params : List Param) :
    key ≠ c.space.resultKey table sql params := by
  cases h with
  | unique => exact KeyLayout.indexKey_ne_resultKey _ _ sql params
  | primary => exact KeyLayout.rowKey_ne_resultKey _ sql params

/-! ## Entries of rows -/

section

variable {c : Cache} {format : RowFormat ρ} {table : String} {rows : List ρ} {row : ρ} {key text : String}

theorem mem_rowEntries {primary : Bool} (all : primary = true ↔ ∀ other ∈ rows, (format.primaryKey other).isSome)
    {entry : Entry} : entry ∈ Read.rowEntries c format table primary row text ↔
      entry.value = text ∧ c.Keys format table rows row entry.key := by
  obtain ⟨entryKey, value⟩ := entry
  unfold Read.rowEntries
  constructor
  · intro hmem
    rcases List.mem_append.mp hmem with hunique | hprimary
    · obtain ⟨⟨index, key⟩, hown, hentry⟩ := List.mem_map.mp hunique
      obtain ⟨rfl, rfl⟩ := Entry.mk.inj hentry
      exact ⟨rfl, .unique hown⟩
    · split at hprimary
      · rename_i key hown
        obtain ⟨rfl, rfl⟩ := Entry.mk.inj (List.mem_singleton.mp hprimary)
        exact ⟨rfl, .primary (all.mp rfl) hown⟩
      · cases hprimary
  · rintro ⟨rfl, hkeyed⟩
    refine List.mem_append.mpr ?_
    dsimp only at hkeyed ⊢
    cases hkeyed with
    | unique own => exact .inl (List.mem_map.mpr ⟨_, own, rfl⟩)
    | primary hall own =>
      right
      rw [all.mpr hall, own]
      exact List.mem_singleton_self _

/-- The entries of rows that can all be written. -/
theorem entriesOfRows_eq_flatMap {payload : String} (written : format.encodeAll rows = some payload) :
    ∃ block : ρ → List Entry, Read.entriesOfRows c format table rows = rows.flatMap block ∧
      ∀ row ∈ rows, ∃ text, format.encode row = some text ∧
        ∀ entry : Entry, entry ∈ block row ↔ entry.value = text ∧ c.Keys format table rows row entry.key := by
  refine ⟨_, rfl, fun row hrow => ?_⟩
  obtain ⟨text, htext⟩ := RowFormat.exists_encodeAll_iff.mp ⟨payload, written⟩ row hrow
  refine ⟨text, htext, fun entry => ?_⟩
  simp only [htext]
  exact mem_rowEntries List.all_eq_true

/-- Rows that can all be written put the text of each under its keys, one row after another. -/
theorem lays_entriesOfRows {payload : String} (written : format.encodeAll rows = some payload) :
    Lays (Read.entriesOfRows c format table rows) (c.LeavesRows format table rows) := by
  obtain ⟨block, hentries, hblock⟩ := @entriesOfRows_eq_flatMap ρ c format table rows payload written
  rw [hentries]
  constructor
  · rintro contents key value ⟨order, keyed, last, hvalue⟩
    rename_i earlier row later
    have hsplit : rows.flatMap block = (earlier.flatMap block ++ block row) ++ later.flatMap block := by
      rw [order, List.flatMap_append, List.flatMap_cons, List.append_assoc]
    have hlater : ∀ entry ∈ later.flatMap block, entry.key ≠ key := by
      rintro entry hentry rfl
      obtain ⟨other, hother, hmem⟩ := List.mem_flatMap.mp hentry
      have hrow : other ∈ rows := order ▸ List.mem_append_right _ (List.mem_cons_of_mem row hother)
      obtain ⟨text, -, hspec⟩ := hblock other hrow
      exact last other hother ((hspec entry).mp hmem).2
    obtain ⟨text, htext, hspec⟩ := hblock row (order ▸ List.mem_append_right _ List.mem_cons_self)
    obtain rfl := Option.some.inj (htext.symm.trans hvalue)
    obtain ⟨other, hother, -, hfound⟩ :=
      @overlay_of_mem _ (overlay (earlier.flatMap block) contents) ⟨key, text⟩
        ((hspec ⟨key, text⟩).mpr ⟨rfl, keyed⟩)
    rw [hsplit, overlay_append, overlay_of_apart hlater, overlay_append, hfound, ((hspec other).mp hother).1]
  · intro contents key unlaid
    refine overlay_of_apart ?_
    rintro entry hentry rfl
    obtain ⟨row, hrow, hmem⟩ := List.mem_flatMap.mp hentry
    obtain ⟨own, -, hspec⟩ := hblock row hrow
    obtain ⟨earlier, last, later, horder, hkeyed, hlast⟩ :=
      @exists_last _ _ (fun row => c.Keys format table rows row entry.key) ⟨row, hrow, ((hspec entry).mp hmem).2⟩
    obtain ⟨text, htext, -⟩ := hblock last (horder ▸ List.mem_append_right _ List.mem_cons_self)
    exact unlaid text (.intro horder hkeyed hlast htext)

end

/-! ## Jobs -/

namespace Read

/-- The jobs that store an outcome of a fetch. -/
def fillJobs (c : Cache) (query : Query) (format : RowFormat ρ) : FetchOutcome ρ → List Job
  | .answered result =>
    match query.shape.normalize result with
    | none => (notFoundPlan c query).jobs
    | some fetched =>
      match format.encodeAll fetched.rows with
      | none => []
      | some payload => (rowsPlan c query format fetched payload).jobs
  | .failed _ | .brokeDown => []

variable {c : Cache} {query : Query} {format : RowFormat ρ} {table : String}

theorem pointJobs_entries (table : String) (entries : List Entry) :
    (pointJobs table entries).flatMap Job.entries = entries := by
  cases entries with
  | nil => rfl
  | cons entry rest => simp [pointJobs, Job.entries, Job.steps, Call.entries]

theorem lays_searchJobs (rowsAffected : UInt64) (payload : String) :
    Lays ((searchJobs c query rowsAffected payload).flatMap Job.entries) fun key value =>
      c.config.level.cachesSearches ∧ c.resultKey query = key ∧
        SearchEntry.encode rowsAffected payload = value := by
  unfold searchJobs
  by_cases hlevel : c.config.level.cachesSearches = true
  · rw [if_pos hlevel]
    exact (Lays.single _).congr fun key value => by simp [hlevel]
  · rw [if_neg hlevel]
    exact Lays.none.congr fun key value => by simp [hlevel]

/-- The job that stores rows under their keys. -/
def rowJobs (c : Cache) (query : Query) (format : RowFormat ρ) (rows : List ρ) : List Job :=
  if c.config.level.cachesPoints then pointJobs query.table (entriesOfRows c format query.table rows) else []

theorem lays_rowJobs {rows : List ρ} {payload : String} (written : format.encodeAll rows = some payload) :
    Lays ((rowJobs c query format rows).flatMap Job.entries) fun key value =>
      c.config.level.cachesPoints ∧ c.LeavesRows format query.table rows key value := by
  unfold rowJobs
  by_cases hlevel : c.config.level.cachesPoints = true
  · rw [if_pos hlevel, pointJobs_entries]
    exact (lays_entriesOfRows written).congr fun key value => by simp [hlevel]
  · rw [if_neg hlevel]
    exact Lays.none.congr fun key value => by simp [hlevel]

theorem rowsPlan_jobs (c : Cache) (query : Query) (format : RowFormat ρ) (fetched : ResultSet ρ)
    (payload : String) : (rowsPlan c query format fetched payload).jobs =
      if c.config.admitsCount fetched.rows.length then
        searchJobs c query fetched.rowsAffected payload ++ rowJobs c query format fetched.rows
      else [] := by
  unfold rowsPlan rowJobs
  split
  · dsimp only
    split
    · rfl
    · exact (List.append_nil _).symm
  · rfl

theorem notFoundPlan_jobs (c : Cache) (query : Query) : (notFoundPlan c query).jobs =
    if c.config.remembersAbsence && c.config.level.cachesSearches then
      [.putNotFound query.table ⟨c.resultKey query, SearchEntry.absenceMark⟩]
    else [] := by
  unfold notFoundPlan
  split <;> rfl

/-- A cache that has changed since then has the same jobs. -/
theorem fillJobs_of_grows {c' : Cache} (grows : c.Grows c') (query : Query) (format : RowFormat ρ)
    (outcome : FetchOutcome ρ) : fillJobs c' query format outcome = fillJobs c query format outcome := by
  have hentries : entriesOfRows c' format = entriesOfRows c format := by
    funext table rows
    simp only [entriesOfRows, rowEntries, grows.space]
  simp only [fillJobs, rowsPlan_jobs, notFoundPlan_jobs, searchJobs, rowJobs, grows.config,
    Cache.resultKey_of_space grows.space, hentries]

/-- The entries that the jobs put. -/
def fillEntries (c : Cache) (query : Query) (format : RowFormat ρ) (outcome : FetchOutcome ρ) : List Entry :=
  (fillJobs c query format outcome).flatMap Job.entries

/-- They are what the outcome leaves. -/
theorem lays_fillEntries (c : Cache) (query : Query) (format : RowFormat ρ) (outcome : FetchOutcome ρ) :
    Lays (fillEntries c query format outcome) (outcome.Leaves c query format) := by
  unfold fillEntries
  cases outcome with
  | failed | brokeDown => exact Lays.none.congr fun key value => ⟨False.elim, fun h => by cases h⟩
  | answered result =>
    cases hresult : query.shape.normalize result with
    | none =>
      have hjobs : fillJobs c query format (.answered result) = (notFoundPlan c query).jobs := by
        simp [fillJobs, hresult]
      rw [hjobs, notFoundPlan_jobs]
      by_cases hremembers : (c.config.remembersAbsence && c.config.level.cachesSearches) = true
      · rw [if_pos hremembers]
        refine (Lays.single _).congr fun key value => ?_
        rw [FetchOutcome.leaves_iff_of_nothing hresult, ← Bool.and_eq_true, Entry.mk.injEq]
        exact (and_iff_right hremembers).symm
      · rw [if_neg hremembers]
        refine Lays.none.congr fun key value => ?_
        rw [FetchOutcome.leaves_iff_of_nothing hresult, ← Bool.and_eq_true]
        exact (false_iff _).mpr fun h => hremembers h.1
    | some fetched =>
      cases hpayload : format.encodeAll fetched.rows with
      | none =>
        have hjobs : fillJobs c query format (.answered result) = [] := by simp [fillJobs, hresult, hpayload]
        rw [hjobs]
        exact Lays.none.congr fun key value =>
          (false_iff _).mpr (FetchOutcome.not_leaves_of_unwritten hresult hpayload)
      | some payload =>
        have hjobs : fillJobs c query format (.answered result) =
            (rowsPlan c query format fetched payload).jobs := by
          simp [fillJobs, hresult, hpayload]
        rw [hjobs, rowsPlan_jobs]
        by_cases hfew : c.config.admitsCount fetched.rows.length = true
        · rw [if_pos hfew, List.flatMap_append]
          refine ((lays_searchJobs _ _).append (lays_rowJobs hpayload) ?_).congr fun key value => ?_
          · rintro key value value' ⟨-, rfl, -⟩ ⟨-, -, keyed, -⟩
            exact keyed.ne_resultKey query.sql query.params rfl
          · rw [FetchOutcome.leaves_iff_of_written hresult hpayload]
            exact (and_iff_right hfew).symm
        · rw [if_neg hfew]
          refine Lays.none.congr fun key value => ?_
          rw [FetchOutcome.leaves_iff_of_written hresult hpayload]
          exact (false_iff _).mpr fun h => hfew h.1

/-- There are up to two jobs, one for the search and one for the rows. -/
theorem fillJobs_eq (c : Cache) (query : Query) (format : RowFormat ρ) (outcome : FetchOutcome ρ) :
    fillJobs c query format outcome = [] ∨
    fillJobs c query format outcome = [.putNotFound query.table ⟨c.resultKey query, SearchEntry.absenceMark⟩] ∨
    ∃ (fetched : ResultSet ρ) (payload : String), format.encodeAll fetched.rows = some payload ∧
      fillJobs c query format outcome =
        searchJobs c query fetched.rowsAffected payload ++ rowJobs c query format fetched.rows := by
  unfold fillJobs
  split
  · split
    · unfold notFoundPlan
      split
      · exact .inr (.inl rfl)
      · exact .inl rfl
    · rename_i fetched _
      split
      · exact .inl rfl
      · rename_i payload hpayload
        rw [rowsPlan_jobs]
        split
        · exact .inr (.inr ⟨fetched, payload, hpayload, rfl⟩)
        · exact .inl rfl
  · exact .inl rfl
  · exact .inl rfl

theorem of_mem_searchJobs {rowsAffected : UInt64} {payload : String} {job : Job}
    (mem : job ∈ searchJobs c query rowsAffected payload) :
    job = .putSearch query.table ⟨c.resultKey query, SearchEntry.encode rowsAffected payload⟩ := by
  unfold searchJobs at mem
  split at mem
  · exact List.mem_singleton.mp mem
  · cases mem

theorem of_mem_rowJobs {rows : List ρ} {job : Job} (mem : job ∈ rowJobs c query format rows) :
    job = .putPoints query.table (entriesOfRows c format query.table rows) := by
  unfold rowJobs pointJobs at mem
  split at mem
  · split at mem
    · cases mem
    · exact List.mem_singleton.mp mem
  · cases mem

theorem isFill_of_mem_fillJobs {outcome : FetchOutcome ρ} {job : Job}
    (mem : job ∈ fillJobs c query format outcome) : (JobRun.start job).IsFill := by
  rcases fillJobs_eq c query format outcome with hnone | habsence | ⟨fetched, payload, -, hjobs⟩
  · rw [hnone] at mem
    cases mem
  · rw [habsence] at mem
    obtain rfl := List.mem_singleton.mp mem
    exact ⟨trivial, List.forall_mem_nil _⟩
  · rw [hjobs] at mem
    rcases List.mem_append.mp mem with hsearch | hrows
    · obtain rfl := of_mem_searchJobs hsearch
      exact ⟨trivial, List.forall_mem_nil _⟩
    · obtain rfl := of_mem_rowJobs hrows
      exact ⟨trivial, List.forall_mem_nil _⟩

/-- The jobs put under different keys. -/
theorem fillJobs_apart (c : Cache) (query : Query) (format : RowFormat ρ) (outcome : FetchOutcome ρ) :
    (fillJobs c query format outcome).Pairwise fun job job' =>
      ∀ entry ∈ job.entries, ∀ entry' ∈ job'.entries, entry.key ≠ entry'.key := by
  rcases fillJobs_eq c query format outcome with hnone | habsence | ⟨fetched, payload, hpayload, hjobs⟩
  · rw [hnone]
    exact .nil
  · rw [habsence]
    exact List.pairwise_singleton _ _
  · rw [hjobs]
    refine List.pairwise_append.mpr ⟨?_, ?_, ?_⟩
    · unfold searchJobs
      split
      · exact List.pairwise_singleton _ _
      · exact .nil
    · unfold rowJobs pointJobs
      split
      · split
        · exact .nil
        · exact List.pairwise_singleton _ _
      · exact .nil
    · intro job hjob job' hjob' entry hentry entry' hentry'
      obtain rfl := of_mem_searchJobs hjob
      obtain rfl := of_mem_rowJobs hjob'
      obtain rfl := List.mem_singleton.mp hentry
      have hrows : entry' ∈ entriesOfRows c format query.table fetched.rows := by
        simpa [Job.entries, Job.steps, Call.entries] using hentry'
      obtain ⟨value, -, keyed, -⟩ := (lays_entriesOfRows hpayload).exists_of_mem hrows
      exact (keyed.ne_resultKey query.sql query.params).symm

/-! ## The turn after a fetch -/

theorem keep_ends_or_stores {plan : FillPlan} (waits : plan.cache.config.detachesUpkeep = false) (query : Query)
    (flight : FlightId) (result : Option (ResultSet ρ)) (outcome : Outcome) :
    (plan.jobs = [] ∧ ∃ answer, (keep plan query flight result outcome).stage = .ended answer) ∨
      (keep plan query flight result outcome).stage =
        .filling flight result outcome (plan.jobs.map JobRun.start) := by
  have hstage := (@keep_stage _ query flight plan result outcome waits).1
  split at hstage
  · rename_i hempty
    exact .inl ⟨List.isEmpty_iff.mp hempty, _, hstage⟩
  · exact .inr hstage

/-- A read that does not send its upkeep off ends after its fetch if there is nothing to store, and otherwise waits
for the jobs. -/
theorem afterFetch_ends_or_stores (waits : c.config.detachesUpkeep = false) (flight : FlightId)
    (outcome : FetchOutcome ρ) :
    (fillJobs c query format outcome = [] ∧
      ∃ answer, (afterFetch c query format flight outcome).stage = .ended answer) ∨
    ∃ result left, (afterFetch c query format flight outcome).stage =
      .filling flight result left ((fillJobs c query format outcome).map JobRun.start) := by
  cases outcome with
  | failed | brokeDown => exact .inl ⟨rfl, _, rfl⟩
  | answered result =>
    cases hresult : query.shape.normalize result with
    | none =>
      have hwaits : (notFoundPlan c query).cache.config.detachesUpkeep = false := by
        rw [notFoundPlan_cache, waits]
      simp only [afterFetch, fillJobs, hresult]
      exact (keep_ends_or_stores hwaits query flight none .notFound).imp_right fun h => ⟨_, _, h⟩
    | some fetched =>
      cases hpayload : format.encodeAll fetched.rows with
      | none =>
        simp only [afterFetch, fillJobs, hresult, hpayload]
        exact .inl ⟨trivial, _, rfl⟩
      | some payload =>
        have hwaits : (rowsPlan c query format fetched payload).cache.config.detachesUpkeep = false := by
          rw [(rowsPlan_cache c query format fetched payload).2.config, waits]
        simp only [afterFetch, fillJobs, hresult, hpayload]
        exact (keep_ends_or_stores hwaits query flight _ _).imp_right fun h => ⟨_, _, h⟩

end Read

end ReadThrough
