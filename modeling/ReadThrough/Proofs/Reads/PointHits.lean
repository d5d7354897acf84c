import ReadThrough.Proofs.Reads.Answers

/-! # Rows found by their keys

A read that finds an entry for each key it looks up returns the rows of these entries. The entries were
made of rows that the data source answered to reads of the table, one under each key of a row, so the
row found under a key has this key itself.

* `Lookup.Identifies` says that a row has a key that was looked up, and `soughtRows_of_fetched` that the
  rows found under keys have them;
* `Activity.of_pointHit`: the turn in which a read returns what it found;
* `point_hits_return_sought_rows` is the theorem.
-/

namespace ReadThrough
set_option autoImplicit false

variable {ρ σ : Type}

/-! ## Rows under their keys -/

theorem Shape.eq_of_normalize {shape : Shape} {result : Option (ResultSet ρ)} {found : ResultSet ρ}
    (h : shape.normalize result = some found) : result = some found := by
  cases result with
  | none => cases h
  | some fetched =>
    simp only [normalize] at h
    split at h
    · cases h
    · exact h

/-- The row has a key that reads like this one, where the lookup looks for keys. -/
def Lookup.Identifies (lookup : Lookup) (format : RowFormat ρ) (key : CompositeKey) (row : ρ) : Prop :=
  match lookup with
  | .primary _ => ∃ own, format.primaryKey row = some own ∧ own.text = key.text
  | .unique index _ => ∃ own, (index, own) ∈ format.uniqueKeys row ∧ own.text = key.text

/-- A row that the data source answered to a read of the table, and that has the key. -/
structure SoughtRow (log : List (Event ρ)) (format : RowFormat ρ) (table : String) (lookup : Lookup)
    (key : CompositeKey) (row : ρ) : Prop where
  fetched : ∃ i query found, .delivered i query format (.answered (some found)) ∈ log ∧
    query.table = table ∧ row ∈ found.rows
  identified : lookup.Identifies format key row

/-- All tables that the data source answered about in the log have names free of colons. -/
def PlainTablesIn (log : List (Event ρ)) : Prop :=
  ∀ i query format outcome, .delivered i query format outcome ∈ log → ColonFree query.table

/-- All rows of the format have unique keys under names free of colons only. -/
def RowFormat.PlainIndexes (format : RowFormat ρ) : Prop :=
  ∀ row index key, (index, key) ∈ format.uniqueKeys row → ColonFree index

section

variable {c : Cache} {log : List (Event ρ)} {format : RowFormat ρ} {table : String} {row : ρ}
  {key : CompositeKey} {sought : List CompositeKey} {rows : List ρ}

theorem FetchedRow.of_rowKey (h : FetchedRow c log format (c.space.rowKey table key) row)
    (tables : PlainTablesIn log) (free : ColonFree table) (keys : List CompositeKey) :
    SoughtRow log format table (.primary keys) key row := by
  obtain ⟨hdelivered, hanswered, hrow, ⟨own, hown, hkey⟩ | ⟨index, own, -, hkey⟩⟩ := h
  · obtain rfl := Shape.eq_of_normalize hanswered
    obtain ⟨htable, htext⟩ := KeyLayout.of_rowKey free (tables _ _ _ _ hdelivered) hkey
    exact ⟨⟨_, _, _, hdelivered, htable.symm, hrow⟩, own, hown, htext.symm⟩
  · exact absurd hkey (KeyLayout.rowKey_ne_indexKey _ _ _)

theorem FetchedRow.of_indexKey {index : String}
    (h : FetchedRow c log format (c.space.indexKey table index key) row)
    (tables : PlainTablesIn log) (indexes : format.PlainIndexes) (free : ColonFree table)
    (freeIndex : ColonFree index) (keys : List CompositeKey) :
    SoughtRow log format table (.unique index keys) key row := by
  obtain ⟨hdelivered, hanswered, hrow, ⟨own, -, hkey⟩ | ⟨index', own, hown, hkey⟩⟩ := h
  · exact absurd hkey.symm (KeyLayout.rowKey_ne_indexKey _ _ _)
  · obtain rfl := Shape.eq_of_normalize hanswered
    obtain ⟨htable, rfl, htext⟩ := KeyLayout.of_indexKey free (tables _ _ _ _ hdelivered) freeIndex
      (indexes _ _ _ hown) hkey
    exact ⟨⟨_, _, _, hdelivered, htable.symm, hrow⟩, own, hown, htext.symm⟩

theorem soughtRows_of_fetched {lookup : Lookup}
    (fetched : List.Forall₂ (FetchedRow c log format) (c.pointKeys table lookup sought) rows)
    (tables : PlainTablesIn log) (indexes : format.PlainIndexes) (free : ColonFree table)
    (freeIndex : ∀ index keys, lookup = .unique index keys → ColonFree index) :
    List.Forall₂ (SoughtRow log format table lookup) sought rows := by
  cases lookup with
  | primary keys =>
    refine (List.forall₂_map_left_iff.mp fetched).imp fun key row h => ?_
    exact h.of_rowKey tables free keys
  | unique index keys =>
    refine (List.forall₂_map_left_iff.mp fetched).imp fun key row h => ?_
    exact h.of_indexKey tables indexes free (freeIndex index keys rfl) keys

end

/-! ## The turn of a hit -/

theorem Read.lookUpSearch_ne_ended (c : Cache) (query : Query) (flight : FlightId)
    (notices : List Notice) (answer : Answer ρ) :
    (lookUpSearch c query flight notices : Turn (ReadStage ρ)).stage ≠ .ended answer := by
  unfold lookUpSearch
  split
  · simp
  · simp [miss]

theorem Read.of_afterPoints {c : Cache} {query : Query} {format : RowFormat ρ} {flight : FlightId}
    {sought : List CompositeKey} {reply : Reply .slots} {result : ReadResult ρ}
    (h : (afterPoints c query format flight sought reply).stage = .ended (.returned result)) :
    ∃ slots payload rows, reply = .ok slots ∧ pointPayload? sought slots = some payload ∧
      format.decodeAll payload = some rows ∧ result = .ok (some (.many rows)) ∧
      (afterPoints c query format flight sought reply).cache.flights =
        c.flights.complete flight (.found payload (ResultSet.many rows).rowsAffected) := by
  unfold afterPoints at h ⊢
  split at h
  · cases h
  · exact absurd h (lookUpSearch_ne_ended _ _ _ _ _)
  · split at h
    · exact absurd h (lookUpSearch_ne_ended _ _ _ _ _)
    · rename_i slots _ payload hpayload
      split at h
      · exact absurd h (lookUpSearch_ne_ended _ _ _ _ _)
      · rename_i rows hrows
        obtain rfl := Answer.returned.inj (ReadStage.ended.inj h)
        exact ⟨slots, payload, rows, rfl, hpayload, hrows, rfl, rfl⟩

/-- A read that waits for the entries of rows, and then returns, returns what it found, and leaves it
to its followers. -/
theorem Activity.of_pointHit [Medium σ] {now : Nat} {c : Cache} {store : σ} {query : Query}
    {format : RowFormat ρ} {flight : FlightId} {sought : List CompositeKey}
    {operation : Operation .slots} {move : Move ρ} {step : ActivityStep ρ σ} {result : ReadResult ρ}
    (taken : (Activity.read query format (.awaitingPoints flight sought operation)).move? now c store
      move = some step)
    (ended : step.activity = .read query format (.ended (.returned result))) :
    ∃ slots payload rows, operation = .answered (.ok slots) ∧
      Read.pointPayload? sought slots = some payload ∧ format.decodeAll payload = some rows ∧
      result = .ok (some (.many rows)) ∧ step.cache.flights =
        c.flights.complete flight (.found payload (ResultSet.many rows).rowsAffected) := by
  cases move with
  | go mover =>
    cases operation with
    | answered reply =>
      obtain rfl := Option.some.inj taken
      obtain ⟨-, -, hstage⟩ := Activity.read.inj ended
      obtain ⟨slots, payload, rows, rfl, hpayload, hrows, hresult, hflights⟩ :=
        Read.of_afterPoints hstage
      exact ⟨slots, payload, rows, rfl, hpayload, hrows, hresult, hflights⟩
    | asked call | held call =>
      obtain ⟨stored, -, rfl⟩ := Option.map_eq_some_iff.mp taken
      cases ended
  | goJob mover index => cases taken
  | deliver mover outcome => cases taken
  | abort mover =>
    obtain rfl := Option.some.inj taken
    cases ended

/-! ## Point hits -/

namespace World

section

variable {w : World ρ σ} {log : List (Event ρ)} {format : RowFormat ρ} {law : ReadLaw ρ}

theorem Obeys.answeredIn (h : Obeys law log w)
    (same : ∀ j query' format' stage, w.Reads j query' format' stage → format' = format) :
    AnsweredIn format log := by
  intro event hmem format' hformat
  obtain ⟨query', format'', stage, hevent, hthere⟩ := h.known event hmem
  exact (hevent.2 format' hformat).trans (same _ _ _ _ hthere)

theorem Obeys.plainTables (h : Obeys law log w)
    (tables : ∀ j query' format' stage, w.Reads j query' format' stage → ColonFree query'.table) :
    PlainTablesIn log := by
  intro j query' format' outcome hmem
  obtain ⟨query'', format'', stage, hevent, hthere⟩ := h.known _ hmem
  obtain rfl : query' = query'' := hevent.1
  exact tables _ _ _ _ hthere

end

variable [Medium σ] {w w' w'' : World ρ σ} {log : List (Event ρ)} {i : ActivityId} {query : Query}
  {format : RowFormat ρ} {action : Action ρ σ}

theorem turn_of_stages {before after : ReadStage ρ} (was : w.Reads i query format before)
    (acts : w.act? action = some w') (is : w'.Reads i query format after) (differ : before ≠ after) :
    ∃ move step, (Activity.read query format before).move? w.now w.node.cache w.store move = some step ∧
      step.activity = .read query format after ∧ w' = w.after i step := by
  -- whoever else moves, the read stays where it was
  rcases act?_cases acts with ⟨move, query', format', stage, step, -, hmoved, taken, rfl⟩ | ⟨-, haside⟩
  · by_cases hi : i = move.activity
    · subst hi
      obtain ⟨rfl, rfl, rfl⟩ := was.inj hmoved
      have hmover := after_activities_mover hmoved step
      exact ⟨move, step, taken, Option.some.inj (hmover.symm.trans is), rfl⟩
    · have hkept := (keepsReads_after w move.activity step).kept _ _ _ _ hi was
      exact absurd (hkept.inj is).2.2 differ
  · have hkept := haside.reads.kept _ _ _ _ not_false was
    exact absurd (hkept.inj is).2.2 differ

variable [LawfulMedium σ]

/-- On a store that was empty, and that may lose entries at any time, in any run of reads, changes and
direct operations that store nothing, with rows that are read back as they were written and names free
of colons. A read that waits for the entries of rows and then returns had a lookup, and returns one row
for each distinct key of it, in order. Every row was answered by the data source to a read of the table
and has the key. The followers get the rows as they are written. -/
theorem point_hits_return_sought_rows (new : w.IsNew) (empty : ∀ key value, ¬ w.Holds key value)
    (run : Runs CallsAmidLoss w log w')
    (same : ∀ j query' format' stage, w'.Reads j query' format' stage → format' = format)
    (back : ∀ rows, format.ReadsBack rows)
    (tables : ∀ j query' format' stage, w'.Reads j query' format' stage → ColonFree query'.table)
    (indexes : format.PlainIndexes)
    (index : ∀ name keys, query.lookup = some (.unique name keys) → ColonFree name)
    {flight : FlightId} {sought : List CompositeKey} {operation : Operation .slots}
    {result : ReadResult ρ}
    (waits : w'.Reads i query format (.awaitingPoints flight sought operation))
    (acts : w'.act? action = some w'') (returned : w''.Reads i query format (.ended (.returned result))) :
    ∃ lookup rows payload, query.lookup = some lookup ∧
      List.Forall₂ (SoughtRow log format query.table lookup) lookup.keys.eraseDups rows ∧
      result = .ok (some ⟨rows, lookup.keys.eraseDups.length.toUInt64⟩) ∧
      format.Writes rows payload ∧
      w''.flights.state? flight =
        some (.completed (.found payload lookup.keys.eraseDups.length.toUInt64)) := by
  obtain ⟨-, hobeys⟩ := stocked_amid_loss new empty run
  obtain ⟨move, step, taken, hended, rfl⟩ := turn_of_stages waits acts returned (by simp)
  obtain ⟨slots, payload, rows, rfl, hhit, hread, rfl, hflights⟩ := Activity.of_pointHit taken hended
  obtain ⟨lookup, hlookup, hlooks⟩ : (storeGrounds w.node.cache).Points log query sought
    (.answered (.ok slots)) := hobeys.reads _ _ _ _ waits
  obtain ⟨hasked, rfl, -, -⟩ := Query.pointLookup?_eq_some.mp hlookup
  -- the texts found are those of rows that were fetched, and these rows have the keys
  obtain ⟨hfetched, hwritten⟩ := fetchedRows_of_hit (hobeys.answeredIn same) back hlooks hhit hread
  have hsought := soughtRows_of_fetched hfetched (hobeys.plainTables tables) indexes
    (tables _ _ _ _ waits) fun name keys hunique => index name keys (hunique ▸ hasked)
  have hcount : (ResultSet.many rows).rowsAffected = lookup.keys.eraseDups.length.toUInt64 := by
    rw [ResultSet.many, hsought.length_eq]
  have hrunning : w'.node.cache.flights.profile? flight = some (query.flightName, .running) :=
    hobeys.led.leads _ _ _ _ _ waits rfl
  have hdone : (w'.after i step).flights.profile? flight =
      some (query.flightName, .completed (.found payload (ResultSet.many rows).rowsAffected)) := by
    rw [flights, after, hflights, Flights.complete, Flights.profile?_finish, hrunning,
      Option.map_some, if_pos rfl]
  refine ⟨lookup, rows, payload, hasked, hsought, ?_, RowFormat.encodeAll_eq_some_iff.mp hwritten, ?_⟩
  · rw [← hcount]
    rfl
  · rw [← hcount]
    exact Flights.state?_of_profile? hdone

/-! ## A run on rows of bits -/

/-- Bits as rows that are their own keys. -/
def keyedBits : RowFormat Bool :=
  { bits with
    primaryKey := fun bit => some (.single (bitText bit))
    uniqueKeys := fun bit => [("bit", .single (bitText bit))] }

def bitsByKey : Query :=
  { usersRead with lookup := some (.primary [.single "0", .single "1", .single "0"]) }

def fetchAndLookUp : List (Action Bool RecordingStore) :=
  [.read usersRead keyedBits, .move (.go 0), .move (.go 0), .move (.go 0),
    .move (.deliver 0 (.answered (some (.many [true, false])))), .move (.goJob 0 0),
    .move (.goJob 0 0), .move (.goJob 0 1), .move (.goJob 0 1), .move (.go 0),
    .read bitsByKey keyedBits, .move (.go 1), .move (.go 1)]

def keyedBitsRead (query : Query) (stage : ReadStage Bool) : Activity Bool :=
  .read query keyedBits stage

theorem reads_keyedBits {w : World Bool RecordingStore} {first second : Query}
    {stage stage' : ReadStage Bool}
    (h : w.node.activities = [keyedBitsRead first stage, keyedBitsRead second stage'])
    {j : ActivityId} {query : Query} {format : RowFormat Bool} {stage'' : ReadStage Bool}
    (read : w.Reads j query format stage'') :
    format = keyedBits ∧ (query = first ∨ query = second) := by
  rw [Reads, h] at read
  rcases j with _ | _ | j
  · obtain ⟨rfl, rfl, -⟩ := Activity.read.inj (Option.some.inj read)
    exact ⟨rfl, .inl rfl⟩
  · obtain ⟨rfl, rfl, -⟩ := Activity.read.inj (Option.some.inj read)
    exact ⟨rfl, .inr rfl⟩
  · cases read

/-- Two rows are found by their keys, in the order of the lookup and not in that of the fetch. -/
theorem fetched_bits_found_by_key :
    ∃ (w w' : World Bool RecordingStore) (log : List (Event Bool)) (operation : Operation .slots),
      bitsAtRest.IsNew ∧ (∀ key value, ¬ bitsAtRest.Holds key value) ∧
      Runs CallsAmidLoss bitsAtRest log w ∧
      (∀ j query format stage, w.Reads j query format stage → format = keyedBits) ∧
      (∀ rows, keyedBits.ReadsBack rows) ∧
      (∀ j query format stage, w.Reads j query format stage → ColonFree query.table) ∧
      keyedBits.PlainIndexes ∧
      (∀ name keys, bitsByKey.lookup = some (.unique name keys) → ColonFree name) ∧
      w.Reads 1 bitsByKey keyedBits (.awaitingPoints 1 [.single "0", .single "1"] operation) ∧
      w.act? (.move (.go 1)) = some w' ∧
      w'.Reads 1 bitsByKey keyedBits (.ended (.returned (.ok (some (.many [false, true]))))) ∧
      List.Forall₂ (SoughtRow log keyedBits "users" (.primary [.single "0", .single "1", .single "0"]))
        [.single "0", .single "1"] [false, true] ∧
      w'.flights.state? 1 = some (.completed (.found "[0,1]" 2)) := by
  have hrun : (bitsAtRest.perform? Calls fetchAndLookUp).bind (fun last =>
        (last.1.act? (.move (.go 1))).map fun w' => (last.1.node.activities, w'.node.activities)) =
      some ([keyedBitsRead usersRead (.ended (.returned (.ok (some (.many [true, false]))))),
          keyedBitsRead bitsByKey (.awaitingPoints 1 [.single "0", .single "1"]
            (.answered (.ok [some "0", some "1"])))],
        [keyedBitsRead usersRead (.ended (.returned (.ok (some (.many [true, false]))))),
          keyedBitsRead bitsByKey (.ended (.returned (.ok (some (.many [false, true])))))]) := by cbv
  obtain ⟨⟨w, log⟩, hlast, hnext⟩ := Option.bind_eq_some_iff.mp hrun
  obtain ⟨w', acts, hfacts⟩ := Option.map_eq_some_iff.mp hnext
  obtain ⟨hbefore, hafter⟩ := Prod.mk.inj hfacts
  have run : Runs CallsAmidLoss bitsAtRest log w :=
    (Runs.of_perform? hlast).imp fun _ _ => Calls.amidLoss
  have same : ∀ j query format stage, w.Reads j query format stage → format = keyedBits :=
    fun _ _ _ _ read => (reads_keyedBits hbefore read).1
  have tables : ∀ j query format stage, w.Reads j query format stage → ColonFree query.table := by
    intro j query format stage read
    obtain ⟨-, rfl | rfl⟩ := reads_keyedBits hbefore read
    · decide
    · decide
  have indexes : keyedBits.PlainIndexes := by
    intro row index key hmem
    obtain ⟨rfl, -⟩ := Prod.mk.inj (List.mem_singleton.mp hmem)
    decide
  have index : ∀ name keys, bitsByKey.lookup = some (.unique name keys) → ColonFree name := by
    intro name keys hunique
    cases hunique
  have waits : w.Reads 1 bitsByKey keyedBits (.awaitingPoints 1 [.single "0", .single "1"]
      (.answered (.ok [some "0", some "1"]))) := by
    rw [Reads, hbefore]
    rfl
  have returned : w'.Reads 1 bitsByKey keyedBits
      (.ended (.returned (.ok (some (.many [false, true]))))) := by
    rw [Reads, hafter]
    rfl
  obtain ⟨lookup, rows, payload, hlookup, hrows, hresult, hwritten, hdone⟩ :=
    point_hits_return_sought_rows bitsAtRest_isNew bitsAtRest_holds_nothing run same bits_readsBack
      tables indexes index waits acts returned
  obtain rfl := Option.some.inj hlookup
  obtain ⟨rfl, -⟩ := ResultSet.mk.inj (Option.some.inj (Except.ok.inj hresult))
  obtain rfl : "[0,1]" = payload := Option.some.inj (RowFormat.encodeAll_eq_some_iff.mpr hwritten)
  exact ⟨w, w', log, _, bitsAtRest_isNew, bitsAtRest_holds_nothing, run, same, bits_readsBack, tables,
    indexes, index, waits, acts, returned, hrows, hdone⟩

end World

end ReadThrough
