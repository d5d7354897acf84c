import ReadThrough.Proofs.Freshness.Sweep
import ReadThrough.Proofs.Reads.Lookups

/-! # Where results come from

What a cache holds, leaves to followers and returns is made of answers of the data source. Relative
to a log of events it is fresh if the data source was both asked and answered within the log.

* `Fetched` is an answer of the data source within a log, and `FetchedText` the text of a row of one;
* `FreshRow`, `FreshSearch` and `FreshEntry` describe the entries made of such answers,
  `FreshHit` and `FreshOutcome` what leaders leave, and `FreshAnswer` what reads return;
* `FreshStage` is what the stage of a read has to do with them, and `FreshStage.rules` says that
  turns keep it.
-/

namespace ReadThrough
set_option autoImplicit false

variable {ρ σ : Type}

/-! ## Fresh results -/

/-- The data source was asked for this read and gave this answer, both within the log. -/
def Fetched (log : List (Event ρ)) (query : Query) (format : RowFormat ρ)
    (result : Option (ResultSet ρ)) : Prop :=
  ∃ reader earlier later,
    log = earlier ++ .delivered reader query format (.answered result) :: later ∧
      .asked reader query ∈ earlier

/-- A row that the data source answered to a read of the table, and how it is written. -/
inductive FetchedText (log : List (Event ρ)) (table : String) (format : RowFormat ρ) (row : ρ)
    (text : String) : Prop
  | intro {query result} {found : ResultSet ρ} (fetch : Fetched log query format result)
      (same : query.table = table) (answered : query.shape.normalize result = some found)
      (mem : row ∈ found.rows) (written : format.encode row = some text) :
    FetchedText log table format row text

/-- An entry for a row of a table: a fetched row, under one of its own keys. -/
inductive FreshRow (c : Cache) (log : List (Event ρ)) (table : String) : (key text : String) → Prop
  | primary {format row text own} (fetched : FetchedText log table format row text)
      (identified : format.primaryKey row = some own) :
    FreshRow c log table (c.space.rowKey table own) text
  | unique {format row text index own} (fetched : FetchedText log table format row text)
      (identified : (index, own) ∈ format.uniqueKeys row) :
    FreshRow c log table (c.space.indexKey table index own) text

/-- An entry for a search of a table, written from a fetched answer to this search. -/
inductive FreshSearch (c : Cache) (log : List (Event ρ)) (table : String) :
    (key stored : String) → Prop
  | nothing {query format result} (fetch : Fetched log query format result)
      (same : query.table = table) (nothing : query.shape.normalize result = none) :
    FreshSearch c log table (c.resultKey query) SearchEntry.absenceMark
  | found {query format result} {found : ResultSet ρ} {payload}
      (fetch : Fetched log query format result) (same : query.table = table)
      (answered : query.shape.normalize result = some found)
      (written : format.encodeAll found.rows = some payload) :
    FreshSearch c log table (c.resultKey query) (SearchEntry.encode found.rowsAffected payload)

/-- An entry that is fresh if it stands in a namespace of the table. -/
structure FreshEntry (c : Cache) (log : List (Event ρ)) (table key value : String) : Prop where
  row : isUnder key (c.space.rowsOf table) → FreshRow c log table key value
  unique : isUnder key (c.space.uniquesOf table) → FreshRow c log table key value
  result : isUnder key (c.space.resultsOf table) → FreshSearch c log table key value

/-- What is found for a key that is looked up: a fetched row that has a key which reads like it. In an
index, name and key are read together. -/
inductive FreshHit (log : List (Event ρ)) (table : String) : Lookup → (key : CompositeKey) → (text : String) → Prop
  | primary {keys key format row text own} (fetched : FetchedText log table format row text)
      (identified : format.primaryKey row = some own) (same : own.text = key.text) :
    FreshHit log table (.primary keys) key text
  | unique {index keys key format row text index' own} (fetched : FetchedText log table format row text)
      (identified : (index', own) ∈ format.uniqueKeys row)
      (same : index' ++ ":" ++ own.text = index ++ ":" ++ key.text) :
    FreshHit log table (.unique index keys) key text

/-- The reads have the same table, query text and parameters. -/
def Query.Alike (query query' : Query) : Prop :=
  query.table = query'.table ∧
    searchText query.sql query.params = searchText query'.sql query'.params

/-- What a leader of a read like this one leaves, among known reads: a failure, or an outcome made of a fetched
answer to a read like it. Or the leader found one fetched row for each key that it looked up, and counted the
rows as it read them. -/
inductive FreshOutcome (Known : ActivityId → Query → RowFormat ρ → Prop) (log : List (Event ρ))
    (query : Query) : Outcome → Prop
  | failed (text : String) : FreshOutcome Known log query (.failed text)
  | nothing {other format result} (fetch : Fetched log other format result)
      (alike : other.Alike query) (nothing : other.shape.normalize result = none) :
    FreshOutcome Known log query .notFound
  | found {other format result} {found : ResultSet ρ} {payload}
      (fetch : Fetched log other format result) (alike : other.Alike query)
      (answered : other.shape.normalize result = some found)
      (written : format.Writes found.rows payload) :
    FreshOutcome Known log query (.found payload found.rowsAffected)
  | rows {leader flight} {other : Query} {format : RowFormat ρ} {lookup : Lookup} {texts : List String}
      {payload : String} {rows : List ρ} (led : .joined leader other (.leader flight) ∈ log)
      (known : Known leader other format) (alike : other.Alike query) (asked : other.lookup = some lookup)
      (nonempty : lookup.keys ≠ []) (single : other.shape = .one → lookup.keys.eraseDups.length = 1)
      (each : List.Forall₂ (FreshHit log query.table lookup) lookup.keys.eraseDups texts)
      (written : payload = "[" ++ ",".intercalate texts ++ "]")
      (readable : format.decodeAll payload = some rows) :
    FreshOutcome Known log query (.found payload rows.length.toUInt64)

/-- A result that a read returns: a fetched answer to it, or what a fresh outcome gives. -/
inductive FreshAnswer (Known : ActivityId → Query → RowFormat ρ → Prop) (log : List (Event ρ))
    (query : Query) (format : RowFormat ρ) :
    Option (ResultSet ρ) → Prop
  | fetched {result} (fetch : Fetched log query format result) :
    FreshAnswer Known log query format (query.shape.normalize result)
  | left {outcome answer} (fresh : FreshOutcome Known log query outcome)
      (gives : outcome.Gives format (.ok answer)) : FreshAnswer Known log query format answer

/-! ## Longer logs -/

section

variable {Known Known' : ActivityId → Query → RowFormat ρ → Prop} {log : List (Event ρ)} {query : Query}
  {format : RowFormat ρ} {c c' : Cache} {table key value : String}

theorem Fetched.append {result : Option (ResultSet ρ)} (h : Fetched log query format result)
    (events : List (Event ρ)) : Fetched (log ++ events) query format result := by
  obtain ⟨reader, earlier, later, rfl, hasked⟩ := h
  exact ⟨reader, earlier, later ++ events, by simp, hasked⟩

/-- An answer that comes now, to a read that asked before. -/
theorem Fetched.of_delivered {result : Option (ResultSet ρ)} {reader : ActivityId}
    {events later : List (Event ρ)} (asked : .asked reader query ∈ log)
    (delivered : events = .delivered reader query format (.answered result) :: later) :
    Fetched (log ++ events) query format result :=
  ⟨reader, log, later, by rw [delivered], asked⟩

theorem FetchedText.append {row : ρ} {text : String} (h : FetchedText log table format row text)
    (events : List (Event ρ)) : FetchedText (log ++ events) table format row text := by
  obtain ⟨fetch, same, answered, mem, written⟩ := h
  exact ⟨fetch.append events, same, answered, mem, written⟩

theorem FreshRow.append (h : FreshRow c log table key value) (space : c'.space = c.space)
    (events : List (Event ρ)) : FreshRow c' (log ++ events) table key value := by
  cases h with
  | primary fetched identified => exact space ▸ .primary (fetched.append events) identified
  | unique fetched identified => exact space ▸ .unique (fetched.append events) identified

theorem FreshHit.append {lookup : Lookup} {sought : CompositeKey} (h : FreshHit log table lookup sought value)
    (events : List (Event ρ)) : FreshHit (log ++ events) table lookup sought value := by
  cases h with
  | primary fetched identified same => exact .primary (fetched.append events) identified same
  | unique fetched identified same => exact .unique (fetched.append events) identified same

theorem FreshSearch.append (h : FreshSearch c log table key value) (space : c'.space = c.space)
    (events : List (Event ρ)) : FreshSearch c' (log ++ events) table key value := by
  have hkey := Cache.resultKey_of_space space
  cases h with
  | nothing fetch same nothing => exact hkey _ ▸ .nothing (fetch.append events) same nothing
  | found fetch same answered written =>
    exact hkey _ ▸ .found (fetch.append events) same answered written

theorem FreshEntry.append (h : FreshEntry c log table key value) (space : c'.space = c.space)
    (events : List (Event ρ)) : FreshEntry c' (log ++ events) table key value where
  row under := (h.row (space ▸ under)).append space events
  unique under := (h.unique (space ▸ under)).append space events
  result under := (h.result (space ▸ under)).append space events

theorem FreshOutcome.append {outcome : Outcome} (h : FreshOutcome Known log query outcome)
    (kept : ∀ i query format, Known i query format → Known' i query format) (events : List (Event ρ)) :
    FreshOutcome Known' (log ++ events) query outcome := by
  cases h with
  | failed text => exact .failed text
  | nothing fetch alike nothing => exact .nothing (fetch.append events) alike nothing
  | found fetch alike answered written =>
    exact .found (fetch.append events) alike answered written
  | rows led known alike asked nonempty single each written readable =>
    exact .rows (List.mem_append_left events led) (kept _ _ _ known) alike asked nonempty single
      (each.imp fun _ _ hit => hit.append events) written readable

theorem FreshAnswer.append {answer : Option (ResultSet ρ)} (h : FreshAnswer Known log query format answer)
    (kept : ∀ i query format, Known i query format → Known' i query format) (events : List (Event ρ)) :
    FreshAnswer Known' (log ++ events) query format answer := by
  cases h with
  | fetched fetch => exact .fetched (fetch.append events)
  | left fresh gives => exact .left (fresh.append kept events) gives

/-! ## From answers to entries and back -/

theorem Query.Alike.refl (query : Query) : query.Alike query := ⟨rfl, rfl⟩

theorem Query.Alike.trans {first second third : Query} (h : first.Alike second) (h' : second.Alike third) :
    first.Alike third := ⟨h.1.trans h'.1, h.2.trans h'.2⟩

theorem FreshOutcome.of_alike {other : Query} {outcome : Outcome}
    (h : FreshOutcome Known log other outcome) (alike : other.Alike query) :
    FreshOutcome Known log query outcome := by
  cases h with
  | failed text => exact .failed text
  | nothing fetch alike' nothing => exact .nothing fetch (alike'.trans alike) nothing
  | found fetch alike' answered written => exact .found fetch (alike'.trans alike) answered written
  | rows led known alike' asked nonempty single each written readable =>
    exact .rows led known (alike'.trans alike) asked nonempty single (alike.1 ▸ each) written readable

theorem FreshRow.hit {lookup : Lookup} {sought : CompositeKey}
    (h : FreshRow c log table (c.pointKey table lookup sought) value) :
    FreshHit log table lookup sought value := by
  -- the key of the store is a key of the row, so it stands in the same namespace
  generalize hkey : c.pointKey table lookup sought = key at h
  cases lookup with
  | primary keys =>
    cases h with
    | primary fetched identified =>
      exact .primary fetched identified (KeyLayout.text_of_rowKey hkey).symm
    | unique => exact absurd hkey (KeyLayout.rowKey_ne_indexKey _ _ _)
  | unique index keys =>
    cases h with
    | primary => exact absurd hkey.symm (KeyLayout.rowKey_ne_indexKey _ _ _)
    | unique fetched identified =>
      exact .unique fetched identified (KeyLayout.text_of_indexKey hkey).symm

theorem Read.Fills.fresh {result : Option (ResultSet ρ)} {known : List String}
    (h : Read.Fills c query format result known key value) (free : ColonFree query.table)
    (free' : ColonFree table) (fetch : query.table = table → Fetched log query format result) :
    FreshEntry c log table key value := by
  -- a key stands in one namespace of one table
  have hkey : ∃ letter rest, key.toList = c.space.inNamespace letter query.table.toList rest ∧
      (Fetched log query format result →
        (letter = 's' ∧ FreshSearch c log query.table key value) ∨
          ((letter = 'p' ∨ letter = 'u') ∧ FreshRow c log query.table key value)) := by
    cases h with
    | search fills =>
      cases fills with
      | absence level nothing =>
        exact ⟨_, _, KeyLayout.resultKey_toList _ _ _ _,
          fun fetch => .inl ⟨rfl, .nothing fetch rfl nothing⟩⟩
      | found level answered written =>
        exact ⟨_, _, KeyLayout.resultKey_toList _ _ _ _,
          fun fetch => .inl ⟨rfl, .found fetch rfl answered written⟩⟩
    | primary answered mem written identified =>
      exact ⟨_, _, KeyLayout.rowKey_toList _ _ _,
        fun fetch => .inr ⟨.inl rfl, .primary ⟨fetch, rfl, answered, mem, written⟩ identified⟩⟩
    | unique answered mem written identified =>
      exact ⟨_, _, KeyLayout.indexKey_toList _ _ _ _,
        fun fetch => .inr ⟨.inr rfl, .unique ⟨fetch, rfl, answered, mem, written⟩ identified⟩⟩
  obtain ⟨letter, rest, hlist, hfresh⟩ := hkey
  refine ⟨?_, ?_, ?_⟩
  · intro under
    obtain ⟨rfl, rfl⟩ :=
      (KeyLayout.isUnder_inNamespace hlist (KeyLayout.rowsOf_toList _ _) free free').mp under
    rcases hfresh (fetch rfl) with ⟨hletter, -⟩ | ⟨-, hrow⟩
    · exact absurd hletter (by decide)
    · exact hrow
  · intro under
    obtain ⟨rfl, rfl⟩ :=
      (KeyLayout.isUnder_inNamespace hlist (KeyLayout.uniquesOf_toList _ _) free free').mp under
    rcases hfresh (fetch rfl) with ⟨hletter, -⟩ | ⟨-, hrow⟩
    · exact absurd hletter (by decide)
    · exact hrow
  · intro under
    obtain ⟨rfl, rfl⟩ :=
      (KeyLayout.isUnder_inNamespace hlist (KeyLayout.resultsOf_toList _ _) free free').mp under
    rcases hfresh (fetch rfl) with ⟨-, hsearch⟩ | ⟨hletter, -⟩
    · exact hsearch
    · exact absurd hletter (by decide)

theorem FreshSearch.outcome (h : FreshSearch c log query.table (c.resultKey query) value) :
    (value = SearchEntry.absenceMark ∧ FreshOutcome Known log query .notFound) ∨
      ∃ rowsAffected payload, value = SearchEntry.encode rowsAffected payload ∧
        FreshOutcome Known log query (.found payload rowsAffected) := by
  have halike : ∀ other : Query, other.table = query.table →
      c.resultKey other = c.resultKey query → other.Alike query := by
    intro other htable hkey
    rw [Cache.resultKey, htable, Cache.resultKey] at hkey
    exact ⟨htable, KeyLayout.searchText_of_resultKey hkey⟩
  generalize hkey : c.resultKey query = key at h
  cases h with
  | nothing fetch same nothing => exact .inl ⟨rfl, .nothing fetch (halike _ same hkey.symm) nothing⟩
  | found fetch same answered written =>
    exact .inr ⟨_, _, rfl, .found fetch (halike _ same hkey.symm) answered
      (RowFormat.encodeAll_eq_some_iff.mp written)⟩

end

/-! ## Stages -/

/-- What the stage of a read has to do with fresh results: flights are followed only from a first one
on, replies that came are fresh, the data source was asked within the log, and so are the results
kept or returned. -/
def FreshStage (Known : ActivityId → Query → RowFormat ρ → Prop) (c : Cache) (first : FlightId)
    (log : List (Event ρ)) (reader : ActivityId) (query : Query) (format : RowFormat ρ) :
    ReadStage ρ → Prop
  | .ready => True
  | .bypassing => False
  | .following flight => first ≤ flight
  | .awaitingPoints _ sought operation => c.config.level.cachesPoints ∧
    ∃ lookup, query.pointLookup? = some (lookup, sought) ∧
      operation.LooksUpAll (c.pointKeys query.table lookup sought) (FreshRow c log query.table)
  | .awaitingSearch _ operation => c.config.level.cachesSearches ∧
    operation.LooksUp (c.resultKey query) (FreshSearch c log query.table (c.resultKey query))
  | .fetching _ => .asked reader query ∈ log
  | .filling _ result outcome _ =>
    FreshAnswer Known log query format result ∧ FreshOutcome Known log query outcome
  | .ended answer => ∀ result, answer = .returned (.ok result) → FreshAnswer Known log query format result

section

variable {Known Known' : ActivityId → Query → RowFormat ρ → Prop} {c c' : Cache} {first : FlightId}
  {log : List (Event ρ)} {reader : ActivityId} {query : Query} {format : RowFormat ρ}

theorem FreshStage.append {stage : ReadStage ρ}
    (h : FreshStage Known c first log reader query format stage) (grows : c.Grows c')
    (kept : ∀ i query format, Known i query format → Known' i query format) (events : List (Event ρ)) :
    FreshStage Known' c' first (log ++ events) reader query format stage := by
  have hpoints := Cache.pointKeys_of_space grows.space query.table
  have hresult := Cache.resultKey_of_space grows.space query
  cases stage with
  | ready => trivial
  | bypassing => exact h
  | following flight => exact h
  | awaitingPoints flight sought operation =>
    obtain ⟨hlevel, lookup, hlookup, hlooks⟩ := h
    refine ⟨grows.config ▸ hlevel, lookup, hlookup, ?_⟩
    rw [hpoints]
    exact hlooks.mono fun _ _ fresh => fresh.append grows.space events
  | awaitingSearch flight operation =>
    refine ⟨grows.config ▸ h.1, ?_⟩
    rw [hresult]
    exact h.2.mono fun _ fresh => fresh.append grows.space events
  | fetching flight => exact List.mem_append_left events h
  | filling flight result outcome jobs => exact ⟨h.1.append kept events, h.2.append kept events⟩
  | ended answer => exact fun result hresult => (h result hresult).append kept events

theorem Cache.isUnder_of_mem_pointKeys {lookup : Lookup} {sought : List CompositeKey} {table key : String}
    (mem : key ∈ c.pointKeys table lookup sought) :
    isUnder key (c.space.rowsOf table) ∨ isUnder key (c.space.uniquesOf table) := by
  cases lookup with
  | primary keys =>
    obtain ⟨primary, -, rfl⟩ := List.mem_map.mp mem
    exact .inl (KeyLayout.isUnder_rowsOf _ _ _)
  | unique index keys =>
    obtain ⟨unique, -, rfl⟩ := List.mem_map.mp mem
    exact .inr (KeyLayout.isUnder_uniquesOf _ _ _ _)

variable [Medium σ] [LawfulMedium σ] {now : Nat} {store : σ} {before : ReadStage ρ}
  {outcome? : Option (FetchOutcome ρ)}

theorem FreshStage.of_pointsStep {flight : FlightId} {sought : List CompositeKey}
    {operation : Operation .slots} {step : StoreStep σ .slots}
    (h : FreshStage Known c first log reader query format (.awaitingPoints flight sought operation))
    (held : ∀ key value, LawfulMedium.Holds store now key value → c.Serves query.table key →
      FreshEntry c log query.table key value)
    (unanswered : ∀ reply, operation ≠ .answered reply)
    (taken : Medium.step? now store operation = some step) :
    FreshStage Known c first log reader query format
      (.awaitingPoints flight sought step.operation) := by
  obtain ⟨hlevel, lookup, hlookup, hlooks⟩ := h
  refine ⟨hlevel, lookup, hlookup, hlooks.step (fun key value hmem hheld => ?_) unanswered taken⟩
  have hunder := Cache.isUnder_of_mem_pointKeys hmem
  have hentry := held key value hheld (.inl ⟨hlevel, hunder⟩)
  exact hunder.elim hentry.row hentry.unique

theorem FreshStage.of_searchStep {flight : FlightId} {operation : Operation .text}
    {step : StoreStep σ .text}
    (h : FreshStage Known c first log reader query format (.awaitingSearch flight operation))
    (held : ∀ key value, LawfulMedium.Holds store now key value → c.Serves query.table key →
      FreshEntry c log query.table key value)
    (unanswered : ∀ reply, operation ≠ .answered reply)
    (taken : Medium.step? now store operation = some step) :
    FreshStage Known c first log reader query format (.awaitingSearch flight step.operation) := by
  obtain ⟨hlevel, hlooks⟩ := h
  refine ⟨hlevel, Operation.LooksUp.step hlooks (fun stored hheld => ?_) unanswered taken⟩
  have hunder : isUnder (c.resultKey query) (c.space.resultsOf query.table) :=
    KeyLayout.isUnder_resultsOf _ _ _ _
  exact (held _ stored hheld (.inr ⟨hlevel, hunder⟩)).result hunder

/-! ## Hits -/

theorem FreshStage.of_pointHit {flight : FlightId} {sought : List CompositeKey}
    {slots : List (Option String)} {payload : String} {rows : List ρ}
    (h : FreshStage Known c first log reader query format
      (.awaitingPoints flight sought (.answered (.ok slots))))
    (known : Known reader query format) (led : .joined reader query (.leader flight) ∈ log)
    (hit : Read.pointPayload? sought slots = some payload)
    (read : format.decodeAll payload = some rows) :
    FreshOutcome Known log query (.found payload (ResultSet.many rows).rowsAffected) := by
  obtain ⟨texts, rfl, hlength, rfl⟩ := Read.of_pointPayload? hit
  obtain ⟨-, lookup, hlookup, hlooks⟩ := h
  obtain ⟨hasked, rfl, hnonempty, hsingle⟩ := Query.pointLookup?_eq_some.mp hlookup
  have hfound := hlooks.forall₂ (hlength.trans Cache.length_pointKeys.symm)
  rw [Cache.pointKeys_eq] at hfound
  have heach := (List.forall₂_map_left_iff.mp hfound).imp fun key text found => found.2.hit
  exact .rows led known (.refl query) hasked hnonempty hsingle heach rfl read

theorem FreshStage.of_absence {flight : FlightId}
    (h : FreshStage Known c first log reader query format
      (.awaitingSearch flight (.answered (.ok SearchEntry.absenceMark)))) :
    FreshOutcome Known log query .notFound := by
  rcases h.2.found.outcome with ⟨-, houtcome⟩ |
    ⟨rowsAffected, payload, hstored, -⟩
  · exact houtcome
  · exact absurd hstored.symm (SearchEntry.encode_ne_absenceMark rowsAffected payload)

theorem FreshStage.of_searchHit {flight : FlightId} {stored payload : String}
    {rowsAffected : UInt64}
    (h : FreshStage Known c first log reader query format
      (.awaitingSearch flight (.answered (.ok stored))))
    (present : stored ≠ SearchEntry.absenceMark)
    (hit : SearchEntry.decode? stored = some (rowsAffected, payload)) :
    FreshOutcome Known log query (.found payload rowsAffected) := by
  rcases h.2.found.outcome with ⟨habsent, -⟩ | ⟨count, text, rfl, houtcome⟩
  · exact absurd habsent present
  · rw [SearchEntry.decode?_encode] at hit
    obtain ⟨rfl, rfl⟩ := Prod.mk.inj (Option.some.inj hit)
    exact houtcome

/-! ## Turns -/

/-- The events of a turn tell what the data source answered in it. -/
def Tells (events : List (Event ρ)) (reader : ActivityId) (query : Query) (format : RowFormat ρ)
    (outcome? : Option (FetchOutcome ρ)) : Prop :=
  ∀ outcome, outcome? = some outcome →
    ∃ later, events = .delivered reader query format outcome :: later

/-- Turns of a read keep its stage fresh, and leave fresh outcomes, if the store holds only fresh
entries of the table and the flights have left only fresh outcomes. -/
theorem FreshStage.rules {events : List (Event ρ)}
    (h : FreshStage Known c first log reader query format before) (known : Known reader query format)
    (led : ∀ flight, before.leads? = some flight → .joined reader query (.leader flight) ∈ log)
    (cached : c.config.caches query.table)
    (held : ∀ key value, LawfulMedium.Holds store now key value → c.Serves query.table key →
      FreshEntry c log query.table key value)
    (registered : ∀ flight, c.flights.registry[query.flightName]? = some flight → first ≤ flight)
    (left : ∀ flight outcome, before = .following flight →
      c.flights.state? flight = some (.completed outcome) → FreshOutcome Known log query outcome)
    (tells : Tells events reader query format outcome?) :
    StageRules
      (fun stage asks => (asks → .asked reader query ∈ events) →
        FreshStage Known c first (log ++ events) reader query format stage)
      (fun outcome _ => FreshOutcome Known (log ++ events) query outcome) now c store query format before
      outcome? := by
  -- what held before the turn still holds of the longer log
  have hkept : FreshStage Known c first (log ++ events) reader query format before :=
    h.append (.refl c) (fun _ _ _ => id) events
  have hended : ∀ (answer : Answer ρ), (∀ result, answer ≠ .returned (.ok result)) →
      FreshStage Known c first (log ++ events) reader query format (.ended answer) :=
    fun answer hanswer result hresult => absurd hresult (hanswer result)
  have hreturns : ∀ result, FreshAnswer Known (log ++ events) query format result →
      FreshStage Known c first (log ++ events) reader query format (.ended (.returned (.ok result))) := by
    rintro result hfresh _ ⟨⟩
    exact hfresh
  have hfetched : ∀ flight result, before = .fetching flight →
      outcome? = some (.answered result) → Fetched (log ++ events) query format result := by
    rintro flight result rfl houtcome
    obtain ⟨later, hevents⟩ := tells _ houtcome
    exact .of_delivered h hevents
  constructor
  case brokeDown => exact fun _ => hended _ (by simp)
  case aborted => exact fun _ => hended _ (by simp)
  case failed => exact fun flight text _ _ => ⟨.failed text, fun _ => hended _ (by simp)⟩
  case bypass =>
    intro huncached
    rw [cached] at huncached
    cases huncached
  case follow => exact fun flight _ hregistered _ => registered flight hregistered
  case looks =>
    constructor
    case points => exact fun flight lookup sought hlevel hasked _ => ⟨hlevel, lookup, hasked, .inl (.inl rfl)⟩
    case search => exact fun flight hlevel _ => ⟨hlevel, .inl (.inl rfl)⟩
    case fetch => exact fun flight hasks => List.mem_append_right log (hasks rfl)
  case adopt =>
    intro flight outcome hbefore hleft _ result hresult
    have hgives := Outcome.gives_adopt format outcome
    rw [Answer.returned.inj hresult] at hgives
    exact .left ((left flight outcome hbefore hleft).append (fun _ _ _ => id) events) hgives
  case pointsGoOn =>
    rintro flight sought operation step rfl hunanswered htaken _
    exact (h.of_pointsStep held hunanswered htaken).append (.refl c) (fun _ _ _ => id) events
  case pointHit =>
    rintro flight sought slots payload rows rfl hpayload hrows
    have houtcome := hkept.of_pointHit known (List.mem_append_left events (led flight rfl)) hpayload hrows
    exact ⟨houtcome, fun _ => hreturns _ (.left houtcome (.rows hrows))⟩
  case searchGoOn =>
    rintro flight operation step rfl hunanswered htaken _
    exact (h.of_searchStep held hunanswered htaken).append (.refl c) (fun _ _ _ => id) events
  case absence =>
    rintro flight rfl
    exact ⟨hkept.of_absence, fun _ => hreturns _ (.left hkept.of_absence .notFound)⟩
  case searchHit =>
    rintro flight stored rowsAffected payload rows rfl hstored hdecoded hrows
    have houtcome := hkept.of_searchHit hstored hdecoded
    exact ⟨houtcome, fun _ => hreturns _ (.left houtcome (.rows hrows))⟩
  case notFound =>
    intro flight result hbefore houtcome hnone
    have hfetch := hfetched flight result hbefore houtcome
    have houtcome : FreshOutcome Known (log ++ events) query .notFound :=
      .nothing hfetch (.refl query) hnone
    have hanswer : FreshAnswer Known (log ++ events) query format none := hnone ▸ .fetched hfetch
    exact ⟨houtcome, fun _ => hreturns _ hanswer, fun _ _ => ⟨hanswer, houtcome⟩⟩
  case unwritable =>
    intro flight result found hbefore houtcome hfound _ _
    exact hreturns _ (hfound ▸ .fetched (hfetched flight result hbefore houtcome))
  case found =>
    intro flight result found payload hbefore houtcome hfound hpayload
    have hfetch := hfetched flight result hbefore houtcome
    have houtcome : FreshOutcome Known (log ++ events) query (.found payload found.rowsAffected) :=
      .found hfetch (.refl query) hfound (RowFormat.encodeAll_eq_some_iff.mp hpayload)
    have hanswer : FreshAnswer Known (log ++ events) query format (some found) :=
      hfound ▸ .fetched hfetch
    exact ⟨houtcome, fun _ => hreturns _ hanswer, fun _ _ => ⟨hanswer, houtcome⟩⟩
  case filling =>
    rintro flight result outcome jobs rfl
    exact ⟨hkept.2, fun _ => hreturns _ hkept.1, fun _ _ => hkept⟩
  case bypassed =>
    rintro result rfl
    exact h.elim
  case bypassFailed => exact fun text _ _ _ => hended _ (by simp)

end

end ReadThrough
