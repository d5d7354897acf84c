import ReadThrough.Cache
import ReadThrough.Job

/-! # The read path

A read is coalesced with identical reads in flight, then looked up point by point, then as a search,
and only then fetched from the data source; what was fetched is stored for the next time.

* a `ReadStage` is where a read stands, always at a point where it waits for something;
* a `Turn` is the work between two such points;
* `Read.start`, `Read.afterFlight?`, `Read.afterPoints`, `Read.afterSearch`, `Read.afterFetch` and
  `Read.afterFill` are the turns of a read, named for what it waited for.
-/

namespace ReadThrough

/-! ## Stages -/

/-- What the data source answers, if it does not break down. -/
inductive FetchOutcome (ρ : Type)
  | answered (result : Option (ResultSet ρ))
  | failed (text : String)
  | brokeDown

/-- How a read ends. -/
inductive Answer (ρ : Type)
  | returned (result : Except Failure (Option (ResultSet ρ)))
  | brokeDown
  | aborted

/-- Where a read stands. All stages from the first lookup to the storing of the result belong to the
leader of a flight. -/
inductive ReadStage (ρ : Type)
  | ready
  /-- Waiting for the data source; the table is not cached. -/
  | bypassing
  /-- Waiting for the leader of a flight. -/
  | following (flight : FlightId)
  /-- Waiting for the entries of some rows. -/
  | awaitingPoints (flight : FlightId) (sought : List CompositeKey) (operation : Operation .slots)
  /-- Waiting for the entry of the search. -/
  | awaitingSearch (flight : FlightId) (operation : Operation .text)
  | fetching (flight : FlightId)
  /-- Waiting for the jobs that store the result. -/
  | filling (flight : FlightId) (result : Option (ResultSet ρ)) (outcome : Outcome)
      (jobs : List JobRun)
  | ended (answer : Answer ρ)

/-- The flight that a stage leads. -/
def ReadStage.leads? {ρ : Type} : ReadStage ρ → Option FlightId
  | .awaitingPoints flight _ _ | .awaitingSearch flight _ | .fetching flight
  | .filling flight _ _ _ => some flight
  | .ready | .bypassing | .following _ | .ended _ => none

/-- The work of an activity between two points where it waits: the cache and the stage after it,
what was reported, the jobs sent off, and whether the data source was asked. -/
structure Turn (α : Type) where
  cache : Cache
  stage : α
  notices : List Notice := []
  spawned : List Job := []
  fetches : Bool := false

namespace Read

variable {ρ : Type}

/-! ## Endings -/

/-- End without leaving an outcome. The flight that the read leads, if any, is abandoned. -/
def breakOff (c : Cache) (flight : Option FlightId) (answer : Answer ρ)
    (notices : List Notice) : Turn (ReadStage ρ) :=
  let flights :=
    match flight with
    | some flight => c.flights.abandon flight
    | none => c.flights
  { cache := { c with flights := flights }, stage := .ended answer, notices := notices }

/-- Leave an outcome to the followers and end with a result. -/
def conclude (c : Cache) (flight : FlightId) (outcome : Outcome)
    (result : Except Failure (Option (ResultSet ρ))) (notices : List Notice) :
    Turn (ReadStage ρ) :=
  { cache := { c with flights := c.flights.complete flight outcome }
    stage := .ended (.returned result)
    notices := notices }

def concludeHit (c : Cache) (flight : FlightId) (outcome : Outcome)
    (result : Option (ResultSet ρ)) (notices : List Notice) : Turn (ReadStage ρ) :=
  conclude { c with counters := c.counters.hit } flight outcome (.ok result) notices

/-! ## Looking up -/

/-- Go to the data source. -/
def miss (c : Cache) (query : Query) (flight : FlightId) (notices : List Notice) :
    Turn (ReadStage ρ) :=
  { cache := { c with counters := c.counters.miss }
    stage := .fetching flight
    notices := notices ++ c.accessNotice (.miss query.table query.sql)
    fetches := true }

def lookUpSearch (c : Cache) (query : Query) (flight : FlightId) (notices : List Notice) :
    Turn (ReadStage ρ) :=
  if c.config.level.cachesSearches then
    { cache := c
      stage := .awaitingSearch flight (.asked (.get (c.resultKey query)))
      notices := notices }
  else miss c query flight notices

/-- Look the requested rows up, if rows are cached by key and the lookup is admissible. -/
def lookUp (c : Cache) (query : Query) (flight : FlightId) (notices : List Notice) :
    Turn (ReadStage ρ) :=
  if c.config.level.cachesPoints then
    match query.pointLookup? with
    | some (lookup, sought) =>
      { cache := c
        stage := .awaitingPoints flight sought
          (.asked (.getAll (c.pointKeys query.table lookup sought)))
        notices := notices }
    | none => lookUpSearch c query flight notices
  else lookUpSearch c query flight notices

/-- Join the flight of the read's key: follow it, or lead it and look the read up. -/
def join (c : Cache) (query : Query) (notices : List Notice) : Turn (ReadStage ρ) :=
  match c.flights.join query.flightName with
  | (flights, .follower flight) =>
    { cache := { c with flights := flights }, stage := .following flight, notices := notices }
  | (flights, .leader flight) => lookUp { c with flights := flights } query flight notices

/-- The first turn. A table that is not cached goes straight to the data source. -/
def start (c : Cache) (query : Query) : Turn (ReadStage ρ) :=
  if c.config.caches query.table then join c query []
  else { cache := c, stage := .bypassing, fetches := true }

/-- The requested rows as one array, if each of them has an entry. -/
def pointPayload? (sought : List CompositeKey) (slots : List (Option String)) : Option String :=
  match slots.mapM id with
  | some values => if values.length = sought.length then some (rowArray values) else none
  | none => none

/-- The turn after the entries of the requested rows arrived. They answer the read when there is one
for each row and together they can be read. -/
def afterPoints (c : Cache) (query : Query) (format : RowFormat ρ) (flight : FlightId)
    (sought : List CompositeKey) : Reply .slots → Turn (ReadStage ρ)
  | .error .brokeDown => breakOff c (some flight) .brokeDown []
  | .error (.failed _) => lookUpSearch c query flight [.pointLookupFailed query.table]
  | .ok slots =>
    match pointPayload? sought slots with
    | none => lookUpSearch c query flight []
    | some payload =>
      match format.decodeAll payload with
      | none => lookUpSearch c query flight [.pointEntriesUnreadable query.table]
      | some rows =>
        let fetched := ResultSet.many rows
        concludeHit c flight (.found payload fetched.rowsAffected) (some fetched)
          (c.accessNotice (.pointHit query.table sought.length))

def afterSearch (c : Cache) (query : Query) (format : RowFormat ρ) (flight : FlightId) :
    Reply .text → Turn (ReadStage ρ)
  | .error .brokeDown => breakOff c (some flight) .brokeDown []
  | .error (.failed failure) =>
    miss c query flight
      (if failure.isAbsence then [] else [.searchLookupFailed query.table query.sql])
  | .ok stored =>
    if stored = SearchEntry.absenceMark then
      concludeHit c flight .notFound none (c.accessNotice (.negativeHit query.table query.sql))
    else
      match SearchEntry.decode? stored with
      | none => miss c query flight [.searchEntryMalformed query.table query.sql]
      | some (rowsAffected, payload) =>
        match format.decodeAll payload with
        | none => miss c query flight [.searchEntryUnreadable query.table]
        | some rows =>
          concludeHit c flight (.found payload rowsAffected) (some ⟨rows, rowsAffected⟩)
            (c.accessNotice (.searchHit query.table query.sql))

/-! ## Following -/

/-- What a follower returns for the outcome its leader left. -/
def adopt (format : RowFormat ρ) : Outcome → Except Failure (Option (ResultSet ρ))
  | .found payload rowsAffected =>
    match format.decodeAll payload with
    | some rows => .ok (some ⟨rows, rowsAffected⟩)
    | none => .error .deserialization
  | .notFound => .ok none
  | .failed text => .error (.dataSource text)

/-- The turn after the leader ended; there is none while it goes on. A follower whose leader left
nothing joins again. -/
def afterFlight? (c : Cache) (query : Query) (format : RowFormat ρ) (flight : FlightId) :
    Option (Turn (ReadStage ρ)) :=
  match c.flights.state? flight with
  | some (.completed outcome) => some
      { cache := { c with counters := c.counters.hit }
        stage := .ended (.returned (adopt format outcome))
        notices := c.accessNotice (.followerHit query.flightName) }
  | some .abandoned => some (join c query [.abandonedFlight query.flightName])
  | some .running | none => none

/-! ## Filling -/

/-- The entries of a row: one under each unique key, then one under the primary key if rows are
stored under it. -/
def rowEntries (c : Cache) (format : RowFormat ρ) (table : String) (primary : Bool)
    (row : ρ) (text : String) : List Entry :=
  (format.uniqueKeys row).map (fun key => ⟨c.space.indexKey table key.1 key.2, text⟩) ++
    match primary, format.primaryKey row with
    | true, some key => [⟨c.space.rowKey table key, text⟩]
    | _, _ => []

/-- The entries for rows under their keys. They are stored under primary keys only if every row has
one. A row that cannot be written is left out. -/
def entriesOfRows (c : Cache) (format : RowFormat ρ) (table : String) (rows : List ρ) :
    List Entry :=
  let primary := rows.all fun row => (format.primaryKey row).isSome
  rows.flatMap fun row =>
    match format.encode row with
    | some text => rowEntries c format table primary row text
    | none => []

/-- The indexes that the entries for rows are stored under. -/
def indexesOfRows (format : RowFormat ρ) (rows : List ρ) : List String :=
  rows.flatMap fun row =>
    match format.encode row with
    | some _ => (format.uniqueKeys row).map (·.1)
    | none => []

/-- What is reported about rows before they are stored under their keys. -/
def noticesOfRows (c : Cache) (format : RowFormat ρ) (table : String) (rows : List ρ) :
    List Notice :=
  (if rows.all fun row => (format.primaryKey row).isSome then []
    else c.accessNotice (.noPrimaryKey table)) ++
  rows.flatMap fun row =>
    match format.encode row with
    | some _ => []
    | none => [.rowUnencodable table]

/-- What storing a result takes: the cache that knows the indexes involved, the jobs, and what
is reported before them. -/
structure FillPlan where
  cache : Cache
  jobs : List Job := []
  notices : List Notice := []

/-- The job that stores fetched rows as the result of the search, if searches are cached. -/
def searchJobs (c : Cache) (query : Query) (rowsAffected : UInt64) (payload : String) :
    List Job :=
  if c.config.level.cachesSearches then
    [.putSearch query.table ⟨c.resultKey query, SearchEntry.encode rowsAffected payload⟩]
  else []

/-- The job that stores entries under the keys of rows, if there are any. -/
def pointJobs (table : String) (entries : List Entry) : List Job :=
  if entries.isEmpty then [] else [.putPoints table entries]

/-- How fetched rows are stored: as a search and under their keys, unless they are too many. -/
def rowsPlan (c : Cache) (query : Query) (format : RowFormat ρ) (fetched : ResultSet ρ)
    (payload : String) : FillPlan :=
  if c.config.admitsCount fetched.rows.length then
    let search := searchJobs c query fetched.rowsAffected payload
    if c.config.level.cachesPoints then
      { cache := c.learnIndexes query.table (indexesOfRows format fetched.rows)
        jobs := search ++ pointJobs query.table (entriesOfRows c format query.table fetched.rows)
        notices := noticesOfRows c format query.table fetched.rows }
    else { cache := c, jobs := search }
  else
    { cache := c
      notices := c.accessNotice (.overItemLimit query.table fetched.rows.length) }

/-- How it is remembered that the data source found nothing. -/
def notFoundPlan (c : Cache) (query : Query) : FillPlan :=
  if c.config.remembersAbsence && c.config.level.cachesSearches then
    { cache := c
      jobs := [.putNotFound query.table ⟨c.resultKey query, SearchEntry.absenceMark⟩]
      notices := c.accessNotice (.rememberingNotFound query.table query.sql) }
  else { cache := c }

/-- The turn after the result was stored, or sent off to be stored. -/
def afterFill (c : Cache) (query : Query) (flight : FlightId) (result : Option (ResultSet ρ))
    (outcome : Outcome) (notices : List Notice) : Turn (ReadStage ρ) :=
  let shared :=
    match result with
    | some _ => c.accessNotice (.rowsShared query.flightName (c.flights.followers flight))
    | none => []
  conclude c flight outcome (.ok result) (notices ++ shared)

/-- Store a result: wait for the jobs, or send them off and go on at once. -/
def keep (plan : FillPlan) (query : Query) (flight : FlightId) (result : Option (ResultSet ρ))
    (outcome : Outcome) : Turn (ReadStage ρ) :=
  let c := plan.cache
  if c.config.detachesUpkeep then
    { afterFill c query flight result outcome plan.notices with spawned := plan.jobs }
  else if plan.jobs.isEmpty then afterFill c query flight result outcome plan.notices
  else
    { cache := c
      stage := .filling flight result outcome (plan.jobs.map JobRun.start)
      notices := plan.notices }

/-- The turn of a leading read after the data source answered. Rows that cannot be written are
returned all the same, and the followers fetch on their own. -/
def afterFetch (c : Cache) (query : Query) (format : RowFormat ρ) (flight : FlightId) :
    FetchOutcome ρ → Turn (ReadStage ρ)
  | .brokeDown => breakOff c (some flight) .brokeDown []
  | .failed text => conclude c flight (.failed text) (.error (.dataSource text)) []
  | .answered result =>
    match query.shape.normalize result with
    | none => keep (notFoundPlan c query) query flight none .notFound
    | some fetched =>
      match format.encodeAll fetched.rows with
      | none =>
        breakOff c (some flight) (.returned (.ok (some fetched))) [.rowsUnencodable query.table]
      | some payload =>
        keep (rowsPlan c query format fetched payload) query flight (some fetched)
          (.found payload fetched.rowsAffected)

/-- The turn of a read on an uncached table after the data source answered. -/
def afterBypass (c : Cache) : FetchOutcome ρ → Turn (ReadStage ρ)
  | .brokeDown => { cache := c, stage := .ended .brokeDown }
  | .failed text => { cache := c, stage := .ended (.returned (.error (.dataSource text))) }
  | .answered result => { cache := c, stage := .ended (.returned (.ok result)) }

end Read

end ReadThrough
