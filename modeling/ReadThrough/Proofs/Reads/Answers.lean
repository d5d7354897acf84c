import ReadThrough.Proofs.Flights.LateReads
import ReadThrough.Proofs.Freshness.Filled
import ReadThrough.Proofs.Reads.Conduct
import ReadThrough.Proofs.Reads.Lookups
import ReadThrough.Proofs.Store.Media

/-! # Where answers come from

If a row format reads back what it writes, and nobody else stores anything, every answer is an answer
of the data source: to the read itself, or to a read of the same key. On a table that is not cached it
is passed on as it is. On a cached table it has the shape of the read that the data source answered,
because neither the keys of searches nor those of flights tell shapes apart.

* `FilledIn.row` and `FilledIn.result` read a stored entry back;
* `storeGrounds` is what reads go by, `Stocked.hold` that they can;
* `FromFetch` are the answers that the cache gives, `Answers` all that reads return;
* `Respects` are answers in the shape of the read that gets them;
* `answers_of_run` is the theorem, with what follows if all reads of the key have one shape;
* `cached_answer_misses_shape` shows what happens otherwise;
* `bits` are rows that are read back as they were written.
-/

namespace ReadThrough
set_option autoImplicit false

variable {ρ σ : Type}

/-! ## Entries read back -/

/-- All that the data source answered in the log was rows in this format. -/
def AnsweredIn (format : RowFormat ρ) (log : List (Event ρ)) : Prop :=
  ∀ event ∈ log, ∀ format', event.format? = some format' → format' = format

/-- A row of an answer that is stored under this key. -/
inductive FetchedRow (c : Cache) (log : List (Event ρ)) (format : RowFormat ρ) (key : String)
    (row : ρ) : Prop
  | intro {i query result found} (delivered : .delivered i query format (.answered result) ∈ log)
      (answered : query.shape.normalize result = some found) (mem : row ∈ found.rows)
      (keyed : (∃ primary, format.primaryKey row = some primary ∧
          key = c.space.rowKey query.table primary) ∨
        ∃ index unique, (index, unique) ∈ format.uniqueKeys row ∧
          key = c.space.indexKey query.table index unique) :
    FetchedRow c log format key row

section

variable {c : Cache} {log : List (Event ρ)} {format : RowFormat ρ} {query : Query}
  {lookup : Lookup} {sought : List CompositeKey} {table key text : String}

theorem Cache.ne_resultKey_of_mem_pointKeys (mem : key ∈ c.pointKeys table lookup sought) :
    key ≠ c.resultKey query := by
  cases lookup with
  | primary keys =>
    obtain ⟨primary, -, rfl⟩ := List.mem_map.mp mem
    exact KeyLayout.rowKey_ne_resultKey _ _ _
  | unique index keys =>
    obtain ⟨unique, -, rfl⟩ := List.mem_map.mp mem
    exact KeyLayout.indexKey_ne_resultKey _ _ _ _

theorem FilledIn.row (h : FilledIn c log key text) (one : AnsweredIn format log)
    (mem : key ∈ c.pointKeys table lookup sought) :
    ∃ row, FetchedRow c log format key row ∧ format.encode row = some text := by
  obtain ⟨i, query, format', result, known, hdelivered, hfills⟩ := h
  obtain rfl := one _ hdelivered format' rfl
  cases hfills with
  | search fills => exact absurd fills.key_eq (Cache.ne_resultKey_of_mem_pointKeys mem)
  | primary answered hrow written identified =>
    exact ⟨_, .intro hdelivered answered hrow (.inl ⟨_, identified, rfl⟩), written⟩
  | unique answered hrow written identified =>
    exact ⟨_, .intro hdelivered answered hrow (.inr ⟨_, _, identified, rfl⟩), written⟩

/-- What is stored for a search was answered to a read of the same key. -/
theorem FilledIn.result {stored : String} (h : FilledIn c log (c.resultKey query) stored)
    (one : AnsweredIn format log) :
    ∃ i query' result, query'.flightName = query.flightName ∧
      .delivered i query' format (.answered result) ∈ log ∧
      ((stored = SearchEntry.absenceMark ∧ query'.shape.normalize result = none) ∨
        ∃ found payload, stored = SearchEntry.encode found.rowsAffected payload ∧
          query'.shape.normalize result = some found ∧
          format.encodeAll found.rows = some payload) := by
  generalize hkey : c.resultKey query = key at h
  obtain ⟨i, query', format', result, known, hdelivered, hfills⟩ := h
  obtain rfl := one _ hdelivered format' rfl
  cases hfills with
  | search fills =>
    have halike : query'.flightName = query.flightName :=
      KeyLayout.flightName_of_resultKey (fills.key_eq.symm.trans hkey.symm)
    refine ⟨i, query', result, halike, hdelivered, ?_⟩
    cases fills with
    | absence level nothing => exact .inl ⟨rfl, nothing⟩
    | found level answered written => exact .inr ⟨_, _, rfl, answered, written⟩
  | primary => exact absurd hkey.symm (KeyLayout.rowKey_ne_resultKey _ _ _)
  | unique => exact absurd hkey.symm (KeyLayout.indexKey_ne_resultKey _ _ _ _)

/-- Texts stored under keys are rows that were fetched. -/
theorem fetchedRows_of_filled {keys texts : List String}
    (h : List.Forall₂ (fun key text => ∃ row, FetchedRow c log format key row ∧
      format.encode row = some text) keys texts) :
    ∃ rows, List.Forall₂ (FetchedRow c log format) keys rows ∧
      format.encodeAll rows = some (rowArray texts) := by
  suffices hrows : ∃ rows, List.Forall₂ (FetchedRow c log format) keys rows ∧
      rows.mapM format.encode = some texts by
    obtain ⟨rows, hfetched, hwritten⟩ := hrows
    exact ⟨rows, hfetched, by rw [RowFormat.encodeAll, hwritten, Option.map_some]⟩
  induction h with
  | nil => exact ⟨[], .nil, rfl⟩
  | cons first _ ih =>
    obtain ⟨row, hfetched, hwritten⟩ := first
    obtain ⟨rows, hrest, hothers⟩ := ih
    exact ⟨row :: rows, .cons hfetched hrest, by simp [hwritten, hothers]⟩

/-- If all keys looked up have entries, the rows read from them are rows that were fetched. -/
theorem fetchedRows_of_hit {slots : List (Option String)} {payload : String} {rows : List ρ}
    (one : AnsweredIn format log) (back : ∀ rows, format.ReadsBack rows)
    (looks : (Operation.answered (.ok slots)).LooksUpAll (c.pointKeys table lookup sought)
      (FilledIn c log))
    (hit : Read.pointPayload? sought slots = some payload)
    (read : format.decodeAll payload = some rows) :
    List.Forall₂ (FetchedRow c log format) (c.pointKeys table lookup sought) rows ∧
      format.encodeAll rows = some payload := by
  obtain ⟨texts, rfl, hlength, rfl⟩ := Read.of_pointPayload? hit
  have hfound := looks.forall₂ (hlength.trans Cache.length_pointKeys.symm)
  obtain ⟨fetched, hrows, hwritten⟩ := fetchedRows_of_filled
    (hfound.imp fun key text h => h.2.row one h.1)
  obtain rfl := Option.some.inj (read.symm.trans (back fetched _ hwritten))
  exact ⟨hrows, hwritten⟩

end

/-! ## What reads go by -/

/-- On a store whose entries were all fetched: lookups find such entries. -/
def storeGrounds (c : Cache) : Grounds ρ where
  Bypasses query := c.config.caches query.table = false
  Points log query sought operation := ∃ lookup, query.pointLookup? = some (lookup, sought) ∧
    operation.LooksUpAll (c.pointKeys query.table lookup sought) (FilledIn c log)
  Search log query operation :=
    operation.LooksUp (c.resultKey query) (FilledIn c log (c.resultKey query))
  keepsPoints := by
    rintro log events query sought operation ⟨lookup, hlookup, h⟩
    exact ⟨lookup, hlookup, h.mono fun _ _ filled => filled.append (.refl c) events⟩
  keepsSearch log events query operation h := h.mono fun _ filled => filled.append (.refl c) events

namespace World

variable [Medium σ] [LawfulMedium σ] {w w' : World ρ σ} {c : Cache} {log : List (Event ρ)}

theorem Stocked.hold (h : Stocked c log w) (query : Query) :
    (storeGrounds c).Hold log w.now w.node.cache w.store query := by
  have hpoints := Cache.pointKeys_of_space h.grows.space query.table
  refine ⟨?_, ?_, ?_, ?_, ?_⟩
  · intro huncached
    rwa [h.grows.config] at huncached
  · intro lookup sought hlookup
    exact ⟨lookup, hlookup, hpoints lookup sought ▸ .inl (.inl rfl)⟩
  · rintro sought operation step ⟨lookup, hlookup, hlooks⟩ hunanswered htaken
    exact ⟨lookup, hlookup, hlooks.step (fun key value _ => h.held key value) hunanswered htaken⟩
  · exact Cache.resultKey_of_space h.grows.space query ▸ .inl (.inl rfl)
  · exact fun operation step hlooks => hlooks.step (h.held _)

theorem stocked_amid_loss (new : w.IsNew) (empty : ∀ key value, ¬ w.Holds key value)
    (run : Runs CallsAmidLoss w log w') :
    Stocked w.node.cache log w' ∧ Obeys (conduct (storeGrounds w.node.cache)) log w' := by
  induction run with
  | refl => exact ⟨.of_new new empty, .of_new new⟩
  | step action _ admitted acts ih =>
    obtain ⟨hstocked, hobeys⟩ := ih
    exact ⟨hstocked.stepAmidLoss admitted acts, hobeys.step acts fun move query format before _ was =>
      conduct_rules (hobeys.reads _ _ _ _ was) (hstocked.hold query)⟩

theorem stocked_of_run (new : w.IsNew) (empty : ∀ key value, ¬ w.Holds key value)
    (run : Runs Calls w log w') :
    Stocked w.node.cache log w' ∧ Obeys (conduct (storeGrounds w.node.cache)) log w' :=
  stocked_amid_loss new empty (run.imp fun _ _ => Calls.amidLoss)

end World

/-! ## Answers of the cache -/

/-- What the cache answers to a read. -/
inductive FromFetch (c : Cache) (log : List (Event ρ)) (i : ActivityId) (query : Query)
    (format : RowFormat ρ) : Option (ResultSet ρ) → Prop
  | own {result} (delivered : .delivered i query format (.answered result) ∈ log) :
    FromFetch c log i query format (query.shape.normalize result)
  /-- What was stored of the answer to a read of the same key, in the shape of that read. -/
  | stored {j query' result} (alike : query'.flightName = query.flightName)
      (delivered : .delivered j query' format (.answered result) ∈ log) :
    FromFetch c log i query format (query'.shape.normalize result)
  /-- Stored rows, one under each key that the read looks up. -/
  | rows {lookup sought rows} (looked : query.pointLookup? = some (lookup, sought))
      (fetched : List.Forall₂ (FetchedRow c log format) (c.pointKeys query.table lookup sought) rows) :
    FromFetch c log i query format (some (.many rows))

section

variable {c : Cache} {log : List (Event ρ)} {i : ActivityId} {query : Query}
  {format : RowFormat ρ} {outcome : Outcome} {result : Option (ResultSet ρ)}

theorem LeftBy.fromFetch
    (h : LeftBy (storeGrounds c) log i query format outcome (.ok result))
    (one : AnsweredIn format log) (back : ∀ rows, format.ReadsBack rows) :
    FromFetch c log i query format result := by
  cases h with
  | pointHit replied hit read =>
    obtain ⟨lookup, hlookup, hlooks⟩ := replied
    exact .rows hlookup (fetchedRows_of_hit one back hlooks hit read).1
  | absence replied =>
    obtain ⟨j, query', result, halike, hdelivered, ⟨-, hnothing⟩ | ⟨found, payload, hsame, -⟩⟩ :=
      replied.found.result one
    · exact hnothing ▸ .stored halike hdelivered
    · exact absurd hsame.symm (SearchEntry.encode_ne_absenceMark _ _)
  | searchHit replied present hit read =>
    obtain ⟨j, query', result, halike, hdelivered, ⟨habsent, -⟩ |
      ⟨found, payload, rfl, hfound, hwritten⟩⟩ := replied.found.result one
    · exact absurd habsent present
    · rw [SearchEntry.decode?_encode] at hit
      obtain ⟨rfl, rfl⟩ := Prod.mk.inj (Option.some.inj hit)
      obtain rfl := Option.some.inj (read.symm.trans (back found.rows _ hwritten))
      exact hfound ▸ .stored halike hdelivered
  | notFound delivered nothing => exact nothing ▸ .own delivered
  | found delivered answered written => exact answered ▸ .own delivered

end

/-! ## Answers of reads -/

/-- What a read returns, unless it returns a failure. -/
inductive Answers (c : Cache) (log : List (Event ρ)) (i : ActivityId) (query : Query)
    (format : RowFormat ρ) : Option (ResultSet ρ) → Prop
  /-- The table is not cached, and what the data source answered is passed on as it is. -/
  | bypassed {result} (uncached : c.config.caches query.table = false)
      (delivered : .delivered i query format (.answered result) ∈ log) :
    Answers c log i query format result
  | cached {result} (h : FromFetch c log i query format result) : Answers c log i query format result
  /-- The leader of the same key returned it. -/
  | shared {leader query' flight result} (adopted : .adopted i query flight ∈ log)
      (led : .joined leader query' (.leader flight) ∈ log)
      (alike : query'.flightName = query.flightName) (h : FromFetch c log leader query' format result) :
    Answers c log i query format result

/-- An answer in the shape of the read, made of an answer of the data source to a read of the same key
or of rows looked up for such a read. -/
inductive Shaped (c : Cache) (log : List (Event ρ)) (query : Query) (format : RowFormat ρ) :
    Option (ResultSet ρ) → Prop
  | fetched {j query' result} (alike : query'.flightName = query.flightName)
      (delivered : .delivered j query' format (.answered result) ∈ log) :
    Shaped c log query format (query.shape.normalize result)
  | rows {query' : Query} {lookup sought rows} (alike : query'.flightName = query.flightName)
      (looked : query'.pointLookup? = some (lookup, sought))
      (fetched : List.Forall₂ (FetchedRow c log format) (c.pointKeys query'.table lookup sought)
        rows) :
    Shaped c log query format (some (.many rows))

/-- An answer respects the shape of the read: one row is not answered without rows, and many are not
answered by none unless the data source did so. -/
structure Respects (c : Cache) (log : List (Event ρ)) (query : Query) (format : RowFormat ρ)
    (result : Option (ResultSet ρ)) : Prop where
  shaped : Shaped c log query format result
  one : query.shape = .one → ∀ found, result = some found → found.rows ≠ []
  many : query.shape = .many → result = none → ∃ j query',
    query'.flightName = query.flightName ∧ .delivered j query' format (.answered none) ∈ log

@[simp]
theorem Shape.normalize_many (result : Option (ResultSet ρ)) : Shape.many.normalize result = result := by
  cases result <;> simp [normalize]

theorem Shape.rows_of_normalize_one {result : Option (ResultSet ρ)} {found : ResultSet ρ}
    (h : Shape.one.normalize result = some found) : found.rows ≠ [] := by
  cases result with
  | none => cases h
  | some fetched =>
    simp only [normalize, true_and] at h
    split at h
    · cases h
    · rename_i hrows
      obtain rfl := Option.some.inj h
      simpa using hrows

section

variable {c : Cache} {log : List (Event ρ)} {i : ActivityId} {query query' : Query}
  {format : RowFormat ρ} {result : Option (ResultSet ρ)}

theorem Shaped.respects (h : Shaped c log query format result) :
    Respects c log query format result := by
  refine ⟨h, ?_, ?_⟩
  · intro hone found hfound
    cases h with
    | fetched alike delivered => exact Shape.rows_of_normalize_one (hone ▸ hfound)
    | @rows query' lookup sought rows alike looked fetched =>
      obtain rfl := Option.some.inj hfound
      rintro rfl
      have hkeys : c.pointKeys query'.table lookup sought = [] := List.forall₂_nil_right_iff.mp fetched
      apply Query.sought_ne_nil looked
      cases lookup <;> exact List.map_eq_nil_iff.mp hkeys
  · intro hmany hnone
    cases h with
    | @fetched j query' answered alike delivered =>
      rw [hmany, Shape.normalize_many] at hnone
      exact ⟨j, query', alike, hnone ▸ delivered⟩
    | rows => cases hnone

/-- Answers of the cache are shaped if all reads of the key that were answered have the same shape. -/
theorem FromFetch.shaped (h : FromFetch c log i query' format result)
    (alike : query'.flightName = query.flightName)
    (shapes : ∀ j query'' format' outcome, .delivered j query'' format' outcome ∈ log →
      query''.flightName = query.flightName → query''.shape = query.shape) :
    Shaped c log query format result := by
  cases h with
  | own delivered =>
    rw [shapes _ _ _ _ delivered alike]
    exact .fetched alike delivered
  | stored halike delivered =>
    rw [shapes _ _ _ _ delivered (halike.trans alike)]
    exact .fetched (halike.trans alike) delivered
  | rows looked fetched => exact .rows alike looked fetched

end

namespace World

variable [Medium σ] [LawfulMedium σ] {w w' : World ρ σ} {log : List (Event ρ)} {i : ActivityId}
  {query : Query} {format : RowFormat ρ} {result : Option (ResultSet ρ)}

/-- On a store that was empty, in any run of reads and changes whose rows are read back as they were
written: what a read returns is an answer of the data source, passed on, or in the shape of the read
of the same key that the data source answered, or rows that were looked up. It respects the shape of
the read, if all reads of the key that were answered have this shape, and the answer does not bypass
the cache in a read of one row. -/
theorem answers_of_run (new : w.IsNew) (empty : ∀ key value, ¬ w.Holds key value)
    (run : Runs Calls w log w')
    (same : ∀ j query' format' stage, w'.Reads j query' format' stage → format' = format)
    (back : ∀ rows, format.ReadsBack rows)
    (read : w'.Reads i query format (.ended (.returned (.ok result)))) :
    Answers w.node.cache log i query format result ∧
      (query.shape = .many ∨ w.node.cache.config.caches query.table →
        (∀ j query' format' outcome, .delivered j query' format' outcome ∈ log →
          query'.flightName = query.flightName → query'.shape = query.shape) →
        Respects w.node.cache log query format result) := by
  obtain ⟨-, hobeys⟩ := stocked_of_run new empty run
  have hone : AnsweredIn format log := by
    intro event hmem format' hformat
    obtain ⟨query', format'', stage, hevent, hthere⟩ := hobeys.known event hmem
    exact (hevent.2 format' hformat).trans (same _ _ _ _ hthere)
  have hanswers : Answers w.node.cache log i query format result := by
    have hreturns : Returns (storeGrounds w.node.cache) log i query format (.ok result) :=
      hobeys.reads _ _ _ _ read
    cases hreturns with
    | left left => exact .cached (left.fromFetch hone back)
    | unwritable delivered answered => exact .cached (answered ▸ .own delivered)
    | bypassed bypasses delivered => exact .bypassed bypasses delivered
    | adopted adopted =>
      obtain ⟨outcome, leader, query', format', result', hadopts, halike, hled, hreturned, hleft⟩ :=
        hobeys.of_adopted new run read adopted
      obtain rfl := same _ _ _ _ hreturned
      obtain rfl := hadopts.symm.trans (hleft.adopt fun found _ => back found.rows)
      exact .shared adopted hled halike (hleft.fromFetch hone back)
  refine ⟨hanswers, fun hcached hshapes => Shaped.respects ?_⟩
  cases hanswers with
  | bypassed uncached delivered =>
    rcases hcached with hmany | hcached
    · have hsame : query.shape.normalize result = result := by rw [hmany, Shape.normalize_many]
      exact hsame ▸ .fetched rfl delivered
    · cases hcached.symm.trans uncached
  | cached h => exact h.shaped rfl hshapes
  | shared adopted led alike h => exact h.shaped alike hshapes

/-! ## Runs on rows of bits -/

def bitOf? : Char → Option Bool
  | '0' => some false
  | '1' => some true
  | _ => none

def bitText (bit : Bool) : String := if bit then "1" else "0"

/-- Bits as rows, without keys. -/
def bits : RowFormat Bool where
  encode bit := some (bitText bit)
  decodeAll text := some (text.toList.filterMap bitOf?)
  primaryKey _ := none
  uniqueKeys _ := []

theorem bitOf?_intercalate (rows : List Bool) :
    ([','].intercalate (rows.map fun bit => (bitText bit).toList)).filterMap bitOf? = rows := by
  induction rows with
  | nil => rfl
  | cons bit rest ih =>
    cases rest with
    | nil => cases bit <;> rfl
    | cons next others =>
      rw [List.map_cons] at ih
      rw [List.map_cons, List.map_cons, List.intercalate_cons_cons, List.filterMap_append, ih]
      cases bit <;> rfl

theorem bits_readsBack (rows : List Bool) : bits.ReadsBack rows := by
  have hwritten : rows.mapM bits.encode = some (rows.map bitText) := List.mapM_pure
  intro payload hpayload
  rw [RowFormat.encodeAll, hwritten] at hpayload
  obtain rfl := Option.some.inj hpayload
  have hread := bitOf?_intercalate rows
  simp [bits, rowArray, String.toList_intercalate, bitOf?, Function.comp_def, hread]

def bitsAtRest : World Bool RecordingStore :=
  { node := { cache := { config := {}, space := ⟨"a"⟩ } }, store := {} }

theorem bitsAtRest_isNew : bitsAtRest.IsNew := ⟨⟨{}, "a", rfl⟩, rfl⟩

theorem bitsAtRest_holds_nothing (key value : String) : ¬ bitsAtRest.Holds key value := by
  intro held
  have hentry : (∅ : Std.TreeMap String String)[key]? = some value := held
  simp at hentry

/-- A read that fetches this answer and stores it, and another that finds what is stored. -/
def readTwice (first second : Query) (result : Option (ResultSet Bool)) :
    List (Action Bool RecordingStore) :=
  [.read first bits, .move (.go 0), .move (.go 0), .move (.go 0),
    .move (.deliver 0 (.answered result)), .move (.goJob 0 0), .move (.goJob 0 0), .move (.go 0),
    .read second bits, .move (.go 1), .move (.go 1), .move (.go 1)]

def returnedBits (query : Query) (result : Option (ResultSet Bool)) : Activity Bool :=
  .read query bits (.ended (.returned (.ok result)))

theorem reads_bits {w : World Bool RecordingStore} {first second : Query}
    {result result' : Option (ResultSet Bool)}
    (h : w.node.activities = [returnedBits first result, returnedBits second result'])
    (i : ActivityId) (query : Query) (format : RowFormat Bool) (stage : ReadStage Bool)
    (read : w.Reads i query format stage) : format = bits := by
  rw [Reads, h] at read
  rcases i with _ | _ | i
  · exact (Activity.read.inj (Option.some.inj read)).2.1.symm
  · exact (Activity.read.inj (Option.some.inj read)).2.1.symm
  · cases read

/-- The second of two alike reads returns what the first has stored. -/
theorem second_read_returns_stored_bits :
    ∃ (w : World Bool RecordingStore) (log : List (Event Bool)),
      bitsAtRest.IsNew ∧ (∀ key value, ¬ bitsAtRest.Holds key value) ∧ Runs Calls bitsAtRest log w ∧
      (∀ i query format stage, w.Reads i query format stage → format = bits) ∧
      (∀ rows, bits.ReadsBack rows) ∧ (∀ asked, .asked 1 asked ∉ log) ∧
      w.Reads 1 usersRead bits (.ended (.returned (.ok (some (.many [true, false]))))) ∧
      Respects bitsAtRest.node.cache log usersRead bits (some (.many [true, false])) := by
  have hrun : (bitsAtRest.perform? Calls (readTwice usersRead usersRead
        (some (.many [true, false])))).map (fun last => (last.1.node.activities, last.2)) =
      some ([returnedBits usersRead (some (.many [true, false])),
          returnedBits usersRead (some (.many [true, false]))],
        [.joined 0 usersRead (.leader 0), .asked 0 usersRead,
          .delivered 0 usersRead bits (.answered (some (.many [true, false]))),
          .joined 1 usersRead (.leader 1)]) := by cbv
  obtain ⟨⟨w, log⟩, hlast, hfacts⟩ := Option.map_eq_some_iff.mp hrun
  simp only [Prod.mk.injEq] at hfacts
  obtain ⟨hactivities, hlog⟩ := hfacts
  have run : Runs Calls bitsAtRest log w := .of_perform? hlast
  have read : w.Reads 1 usersRead bits (.ended (.returned (.ok (some (.many [true, false]))))) := by
    rw [Reads, hactivities]
    rfl
  have shapes : ∀ j query format outcome, .delivered j query format outcome ∈ log →
      query.flightName = usersRead.flightName → query.shape = usersRead.shape := by
    intro j query format outcome hmem _
    simp only [hlog, List.mem_cons, Event.delivered.injEq, reduceCtorEq, List.not_mem_nil, or_false,
      false_or] at hmem
    obtain ⟨-, rfl, -⟩ := hmem
    rfl
  exact ⟨w, log, bitsAtRest_isNew, bitsAtRest_holds_nothing, run, reads_bits hactivities,
    bits_readsBack, by simp [hlog], read,
    (answers_of_run bitsAtRest_isNew bitsAtRest_holds_nothing run (reads_bits hactivities)
      bits_readsBack read).2 (.inl rfl) shapes⟩

def singleRead : Query := { usersRead with shape := .one }

/-- A read of many rows finds none, and what is stored of this answers a read of one row: it gets an
answer that no answer of the data source is to a read of one row. -/
theorem cached_answer_misses_shape :
    ∃ (w : World Bool RecordingStore) (log : List (Event Bool)),
      bitsAtRest.IsNew ∧ (∀ key value, ¬ bitsAtRest.Holds key value) ∧ Runs Calls bitsAtRest log w ∧
      (∀ i query format stage, w.Reads i query format stage → format = bits) ∧
      (∀ rows, bits.ReadsBack rows) ∧
      w.Reads 1 singleRead bits (.ended (.returned (.ok (some (.many []))))) ∧
      ∀ result, singleRead.shape.normalize result ≠ some (.many ([] : List Bool)) := by
  have hrun : (bitsAtRest.perform? Calls (readTwice usersRead singleRead (some (.many [])))).map
        (fun last => last.1.node.activities) =
      some [returnedBits usersRead (some (.many [])),
        returnedBits singleRead (some (.many []))] := by cbv
  obtain ⟨⟨w, log⟩, hlast, hactivities⟩ := Option.map_eq_some_iff.mp hrun
  refine ⟨w, log, bitsAtRest_isNew, bitsAtRest_holds_nothing, .of_perform? hlast,
    reads_bits hactivities, bits_readsBack, ?_, ?_⟩
  · rw [Reads, hactivities]
    rfl
  · intro result hnormal
    exact Shape.rows_of_normalize_one hnormal rfl

end World

end ReadThrough
