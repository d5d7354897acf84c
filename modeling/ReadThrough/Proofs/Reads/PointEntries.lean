import ReadThrough.Proofs.Json.Framing
import ReadThrough.Proofs.Reads.PointHits
import ReadThrough.Proofs.Store.InProcessDeadlines
import ReadThrough.Row

/-! # Entries that answer a read by key

A read that looks up rows by key puts the entries it finds into one array and reads that. If each entry is one row
by itself, the read is answered with these rows. Entries are text that anyone may have stored, though, and as long
as each is one JSON value, nothing else answers the read.

* `RowFormat.decodeOne?` is the row that a text holds by itself, `Json.IsLone` says that it is one value;
* `pointProbe` goes through the lookup of rows in a store that is asked once;
* `point_lookup_hits_on_entries_of_one_row` is the theorem, and `point_lookup_hits_on_two_rows` shows what an entry
  of two values does.
-/

namespace ReadThrough
set_option autoImplicit false

variable {ρ σ : Type}

/-! ## Rows in texts -/

/-- Rows are read from an array item by item. -/
def RowFormat.ReadsItems (format : RowFormat ρ) (row : Json → Option ρ) : Prop :=
  ∀ text, format.decodeAll text =
    match Json.parse? text with
    | some (.array items) => items.mapM row
    | _ => none

/-- The row in a text that is one row by itself. -/
def RowFormat.decodeOne? (format : RowFormat ρ) (text : String) : Option ρ :=
  match format.decodeAll (rowArray [text]) with
  | some [row] => some row
  | _ => none

/-- By itself the text is one JSON value. -/
def Json.IsLone (text : String) : Prop := ∃ value, parse? (rowArray [text]) = some (.array [value])

section

variable {format : RowFormat ρ} {row : Json → Option ρ}

theorem decodeAll_eq_some (items : format.ReadsItems row) {text : String} {rows : List ρ} :
    format.decodeAll text = some rows ↔
      ∃ values, Json.parse? text = some (.array values) ∧
        List.Forall₂ (fun value r => row value = some r) values rows := by
  rw [items]
  constructor
  · intro h
    split at h
    · rename_i values hparse
      exact ⟨values, hparse, mapM_eq_some_iff.mp h⟩
    · cases h
  · rintro ⟨values, hparse, hrows⟩
    rw [hparse]
    exact mapM_eq_some_iff.mpr hrows

theorem decodeOne?_eq_some (items : format.ReadsItems row) {text : String} {r : ρ} :
    format.decodeOne? text = some r ↔
      ∃ value, Json.parse? (rowArray [text]) = some (.array [value]) ∧ row value = some r := by
  have hone : format.decodeOne? text = some r ↔ format.decodeAll (rowArray [text]) = some [r] := by
    unfold RowFormat.decodeOne?
    constructor
    · intro h
      split at h
      · rename_i hall
        rw [hall, Option.some.inj h]
      · cases h
    · intro h
      rw [h]
  rw [hone, decodeAll_eq_some items]
  constructor
  · rintro ⟨values, hparse, hrows⟩
    obtain ⟨value, others, hrow, hothers, rfl⟩ := List.forall₂_cons_right_iff.mp hrows
    obtain rfl := List.forall₂_nil_right_iff.mp hothers
    exact ⟨value, hparse, hrow⟩
  · rintro ⟨value, hparse, hrow⟩
    exact ⟨[value], hparse, .cons hrow .nil⟩

/-- Entries that are rows one by one hold these rows together. -/
theorem decodeAll_of_each (items : format.ReadsItems row) {texts : List String} {rows : List ρ}
    (each : List.Forall₂ (fun text r => format.decodeOne? text = some r) texts rows) :
    format.decodeAll (rowArray texts) = some rows := by
  obtain ⟨values, hsingle, hrows⟩ : ∃ values,
      List.Forall₂ (fun text value => Json.parse? (rowArray [text]) = some (.array [value])) texts values ∧
        List.Forall₂ (fun value r => row value = some r) values rows := by
    induction each with
    | nil => exact ⟨[], .nil, .nil⟩
    | cons hone _ ih =>
      obtain ⟨value, hparse, hrow⟩ := (decodeOne?_eq_some items).mp hone
      obtain ⟨values, hsingle, hrows⟩ := ih
      exact ⟨value :: values, .cons hparse hsingle, .cons hrow hrows⟩
  exact (decodeAll_eq_some items).mpr ⟨values, Json.parse?_rowArray hsingle, hrows⟩

/-- Entries that are values one by one hold no other rows together than each by itself. -/
theorem each_of_decodeAll (items : format.ReadsItems row) {texts : List String} {rows : List ρ}
    (lone : ∀ text ∈ texts, Json.IsLone text) (all : format.decodeAll (rowArray texts) = some rows) :
    List.Forall₂ (fun text r => format.decodeOne? text = some r) texts rows := by
  obtain ⟨values, hsingle⟩ : ∃ values,
      List.Forall₂ (fun text value => Json.parse? (rowArray [text]) = some (.array [value])) texts values := by
    clear all
    induction texts with
    | nil => exact ⟨[], .nil⟩
    | cons text texts ih =>
      obtain ⟨⟨value, hparse⟩, hothers⟩ := List.forall_mem_cons.mp lone
      obtain ⟨values, hsingle⟩ := ih hothers
      exact ⟨value :: values, .cons hparse hsingle⟩
  obtain ⟨values', hparse, hrows⟩ := (decodeAll_eq_some items).mp all
  rw [Json.parse?_rowArray hsingle] at hparse
  obtain rfl := Json.array.inj (Option.some.inj hparse)
  clear hparse all lone
  induction hsingle generalizing rows with
  | nil =>
    obtain rfl := List.forall₂_nil_left_iff.mp hrows
    exact .nil
  | cons hone _ ih =>
    obtain ⟨r, others, hrow, hothers, rfl⟩ := List.forall₂_cons_left_iff.mp hrows
    exact .cons ((decodeOne?_eq_some items).mpr ⟨_, hone, hrow⟩) (ih hothers)

end

/-! ## Looking rows up -/

/-- Asked now for several keys, the store answers at once with what it has under each. -/
def Medium.Shows [Medium σ] (store : σ) (now : Nat) (found : String → Option String) : Prop :=
  ∀ keys, ∃ step, Medium.step? now store (.asked (.getAll keys)) = some step ∧
    step.operation = .answered (.ok (keys.map found))

/-- What the store has now under a key. -/
def DatedMedium.found? [Medium σ] [DatedMedium σ] (store : σ) (now : Nat) (key : String) : Option String :=
  (DatedMedium.slot? store key).bind (·.valueAt now)

theorem DatedMedium.shows [Medium σ] [DatedMedium σ] (store : σ) (now : Nat) :
    Medium.Shows store now (DatedMedium.found? store now) :=
  fun _ => ⟨_, DatedMedium.inOneGo.step_asks (.inl rfl), DatedMedium.reads rfl⟩

/-- Where a leading read stands after it looked for rows in a store that is asked once, now. -/
def pointProbe [Medium σ] (c : Cache) (query : Query) (format : RowFormat ρ) (flight : FlightId) (store : σ)
    (now : Nat) : Option (ReadStage ρ) :=
  match (Read.lookUp c query flight [] : Turn (ReadStage ρ)).stage with
  | .awaitingPoints flight sought operation =>
    match Medium.step? now store operation with
    | some ⟨_, .answered reply, _⟩ => some (Read.afterPoints c query format flight sought reply).stage
    | _ => none
  | stage => some stage

/-- The read may be answered by key, and under each key that it looks for there is an entry that by itself is one
row, namely this one. -/
inductive FoundByKey (c : Cache) (query : Query) (format : RowFormat ρ) (found : String → Option String)
    (rows : List ρ) : Prop
  | intro {lookup : Lookup} (asked : query.lookup = some lookup) (nonempty : lookup.keys ≠ [])
      (single : query.shape = .one → lookup.keys.eraseDups.length = 1)
      (each : List.Forall₂ (fun key row => ∃ text, found (c.pointKey query.table lookup key) = some text ∧
        format.decodeOne? text = some row) lookup.keys.eraseDups rows) : FoundByKey c query format found rows

section

variable [Medium σ] {c : Cache} {query : Query} {format : RowFormat ρ} {flight : FlightId} {store : σ} {now : Nat}
  {found : String → Option String}

theorem pointProbe_of_lookup {lookup : Lookup} {sought : List CompositeKey} (level : c.config.level.cachesPoints)
    (shows : Medium.Shows store now found) (asked : query.pointLookup? = some (lookup, sought)) :
    pointProbe c query format flight store now = some (Read.afterPoints c query format flight sought
      (.ok (sought.map fun key => found (c.pointKey query.table lookup key)))).stage := by
  obtain ⟨⟨next, operation, notices⟩, htaken, hanswered⟩ := shows (c.pointKeys query.table lookup sought)
  subst hanswered
  have hstage : (Read.lookUp c query flight [] : Turn (ReadStage ρ)).stage =
      .awaitingPoints flight sought (.asked (.getAll (c.pointKeys query.table lookup sought))) := by
    simp [Read.lookUp, level, asked]
  unfold pointProbe
  rw [hstage]
  dsimp only
  rw [htaken]
  dsimp only
  rw [Cache.pointKeys_eq, List.map_map]
  rfl

theorem pointProbe_of_no_lookup (asked : query.pointLookup? = none) :
    pointProbe c query format flight store now =
      some (Read.lookUpSearch c query flight [] : Turn (ReadStage ρ)).stage := by
  have hlookUp : (Read.lookUp c query flight [] : Turn (ReadStage ρ)) = Read.lookUpSearch c query flight [] := by
    unfold Read.lookUp
    rw [asked]
    split <;> rfl
  unfold pointProbe
  rw [hlookUp]
  unfold Read.lookUpSearch
  by_cases hlevel : c.config.level.cachesSearches = true
  · rw [if_pos hlevel]
  · rw [if_neg hlevel]
    rfl

/-- The entries found are read as one array. -/
theorem afterPoints_of_texts {sought : List CompositeKey} {slots : List (Option String)} {texts : List String}
    {rows : List ρ} (entries : slots = texts.map some) (length : texts.length = sought.length)
    (decoded : format.decodeAll (rowArray texts) = some rows) :
    (Read.afterPoints c query format flight sought (.ok slots)).stage =
      .ended (.returned (.ok (some (.many rows)))) := by
  have hpayload : Read.pointPayload? sought slots = some (rowArray texts) := by
    have htexts : slots.mapM id = some texts := by
      rw [entries, mapM_eq_some_iff, List.forall₂_map_left_iff]
      exact List.forall₂_same.mpr fun _ _ => rfl
    simp [Read.pointPayload?, htexts, length]
  simp [Read.afterPoints, hpayload, decoded, Read.concludeHit, Read.conclude]

/-- What does not answer the read leaves it to its search. -/
theorem afterPoints_hits_or_searches {sought : List CompositeKey} {slots : List (Option String)} :
    (∃ texts rows, slots = texts.map some ∧ format.decodeAll (rowArray texts) = some rows ∧
      (Read.afterPoints c query format flight sought (.ok slots)).stage =
        .ended (.returned (.ok (some (.many rows))))) ∨
    (Read.afterPoints c query format flight sought (.ok slots)).stage =
      (Read.lookUpSearch c query flight [] : Turn (ReadStage ρ)).stage := by
  have hsearch : ∀ notices, (Read.lookUpSearch c query flight notices : Turn (ReadStage ρ)).stage =
      (Read.lookUpSearch c query flight [] : Turn (ReadStage ρ)).stage := by
    intro notices
    unfold Read.lookUpSearch
    split <;> rfl
  unfold Read.afterPoints
  dsimp only
  split
  · exact .inr (hsearch _)
  · rename_i payload hpayload
    obtain ⟨texts, rfl, -, hslots⟩ := Read.of_pointPayload? hpayload
    split
    · exact .inr (hsearch _)
    · rename_i rows hrows
      exact .inl ⟨texts, rows, hslots.symm, hrows, rfl⟩

/-- Entries found under keys, each of them one row, are texts that are these rows. -/
theorem forall₂_found_iff {find : CompositeKey → Option String} {decode : String → Option ρ}
    {keys : List CompositeKey} {rows : List ρ} :
    List.Forall₂ (fun key row => ∃ text, find key = some text ∧ decode text = some row) keys rows ↔
      ∃ texts, keys.map find = texts.map some ∧
        List.Forall₂ (fun text row => decode text = some row) texts rows := by
  induction keys generalizing rows with
  | nil =>
    simp only [List.forall₂_nil_left_iff, List.map_nil]
    constructor
    · rintro rfl
      exact ⟨[], rfl, .nil⟩
    · rintro ⟨texts, hnil, hrows⟩
      obtain rfl := List.map_eq_nil_iff.mp hnil.symm
      exact List.forall₂_nil_left_iff.mp hrows
  | cons key keys ih =>
    rw [List.forall₂_cons_left_iff]
    constructor
    · rintro ⟨row, rows, ⟨text, hfound, hrow⟩, hrest, rfl⟩
      obtain ⟨texts, hfounds, hrows⟩ := ih.mp hrest
      exact ⟨text :: texts, by rw [List.map_cons, hfound, hfounds, List.map_cons], .cons hrow hrows⟩
    · rintro ⟨texts, hfounds, hrows⟩
      obtain ⟨text, texts, rfl, hfound, hrest⟩ := List.map_eq_cons_iff.mp hfounds.symm
      obtain ⟨row, rows, hrow, hothers, rfl⟩ := List.forall₂_cons_left_iff.mp hrows
      exact ⟨row, rows, ⟨text, hfound.symm, hrow⟩, ih.mpr ⟨texts, hrest.symm, hothers⟩, rfl⟩

/-- Texts that were found and are rows together answer the read, if each is one value. -/
theorem foundByKey_of_texts {row : Json → Option ρ} (items : format.ReadsItems row) {lookup : Lookup}
    {sought : List CompositeKey} {texts : List String} {rows : List ρ}
    (asked : query.pointLookup? = some (lookup, sought))
    (lone : ∀ key ∈ lookup.keys, ∀ text, found (c.pointKey query.table lookup key) = some text → Json.IsLone text)
    (entries : (sought.map fun key => found (c.pointKey query.table lookup key)) = texts.map some)
    (decoded : format.decodeAll (rowArray texts) = some rows) : FoundByKey c query format found rows := by
  obtain ⟨hlookup, rfl, hnonempty, hsingle⟩ := Query.pointLookup?_eq_some.mp asked
  have hlone : ∀ text ∈ texts, Json.IsLone text := by
    intro text htext
    have hmem : some text ∈ texts.map some := List.mem_map_of_mem htext
    rw [← entries] at hmem
    obtain ⟨key, hkey, hfound⟩ := List.mem_map.mp hmem
    exact lone key (List.mem_eraseDups.mp hkey) text hfound
  exact .intro hlookup hnonempty hsingle
    (forall₂_found_iff.mpr ⟨texts, entries, each_of_decodeAll items hlone decoded⟩)

end

/-- A leading read looks for rows by key, in a store that answers with what it has. If under each key there is an
entry that by itself is one row, the read is answered with these rows, in the order of the keys. As long as the
entries are single values, nothing else answers it, and it goes on to its search. -/
theorem point_lookup_hits_on_entries_of_one_row [Medium σ] {c : Cache} {query : Query} {format : RowFormat ρ}
    {row : Json → Option ρ} (items : format.ReadsItems row) (flight : FlightId) {store : σ} {now : Nat}
    {found : String → Option String} (level : c.config.level.cachesPoints)
    (shows : Medium.Shows store now found) :
    (∀ rows, FoundByKey c query format found rows →
      pointProbe c query format flight store now = some (.ended (.returned (.ok (some (.many rows)))))) ∧
    ((∀ lookup, query.lookup = some lookup → ∀ key ∈ lookup.keys, ∀ text,
        found (c.pointKey query.table lookup key) = some text → Json.IsLone text) →
      (∀ rows, pointProbe c query format flight store now = some (.ended (.returned (.ok (some (.many rows))))) →
        FoundByKey c query format found rows) ∧
      ((∀ rows, ¬ FoundByKey c query format found rows) → pointProbe c query format flight store now =
        some (Read.lookUpSearch c query flight [] : Turn (ReadStage ρ)).stage)) := by
  have hended : ∀ rows : List ρ, (Read.lookUpSearch c query flight [] : Turn (ReadStage ρ)).stage ≠
      .ended (.returned (.ok (some (.many rows)))) :=
    fun rows => Read.lookUpSearch_ne_ended _ _ _ _ _
  cases hasked : query.pointLookup? with
  | none =>
    rw [pointProbe_of_no_lookup hasked]
    refine ⟨fun rows hrows => ?_, fun _ => ⟨fun rows h => absurd (Option.some.inj h) (hended rows), fun _ => rfl⟩⟩
    obtain ⟨asked, nonempty, single, -⟩ := hrows
    rw [Query.pointLookup?_eq_some.mpr ⟨asked, rfl, nonempty, single⟩] at hasked
    cases hasked
  | some found? =>
    obtain ⟨lookup, sought⟩ := found?
    obtain ⟨hlookup, rfl, hnonempty, hsingle⟩ := Query.pointLookup?_eq_some.mp hasked
    rw [pointProbe_of_lookup level shows hasked]
    refine ⟨?_, fun lone => ?_⟩
    · rintro rows ⟨asked, -, -, each⟩
      obtain rfl := Option.some.inj (hlookup.symm.trans asked)
      obtain ⟨texts, hslots, hrows⟩ := forall₂_found_iff.mp each
      have hlength : texts.length = lookup.keys.eraseDups.length := by
        simpa using (congrArg List.length hslots).symm
      rw [afterPoints_of_texts hslots hlength (decodeAll_of_each items hrows)]
    · have hlone : ∀ key ∈ lookup.keys, ∀ text,
          found (c.pointKey query.table lookup key) = some text → Json.IsLone text := lone lookup hlookup
      have hstage := @afterPoints_hits_or_searches ρ c query format flight lookup.keys.eraseDups
        (lookup.keys.eraseDups.map fun key => found (c.pointKey query.table lookup key))
      rcases hstage with ⟨texts, rows, hslots, hdecoded, hstage⟩ | hstage
      · have hrows : FoundByKey c query format found rows :=
          foundByKey_of_texts items hasked hlone hslots hdecoded
        rw [hstage]
        refine ⟨fun rows' h => ?_, fun hmiss => absurd hrows (hmiss rows)⟩
        cases h
        exact hrows
      · rw [hstage]
        exact ⟨fun rows h => absurd (Option.some.inj h) (hended rows), fun _ => rfl⟩

def plainCache : Cache := { config := {}, space := ⟨"a"⟩ }

/-- A read of the user with the key 5. -/
def userFive : Query := { table := "users", sql := "select", lookup := some (.primary [.single "5"]) }

/-- A store that was given this text as the entry of the user. -/
def givenUserFive (text : String) : RecencyStore :=
  let new : RecencyStore := ⟨1, Nat.zero_lt_one, [], some ⟨.zero, false, "a"⟩, .steady⟩
  (new.put 0 ⟨KeyLayout.rowKey ⟨"a"⟩ "users" (.single "5"), text⟩).1

/-- Where the read stands after it looked for the user there. -/
def probedUserFive (text : String) : Option (ReadStage Row) :=
  pointProbe plainCache userFive Row.integers 0 (givenUserFive text) 0

/-- The read of the user is answered by key with the one row that the text is by itself. -/
theorem foundUserFive_iff {text : String} {rows : List Row} :
    FoundByKey plainCache userFive Row.integers (DatedMedium.found? (givenUserFive text) 0) rows ↔
      ∃ row, Row.integers.decodeOne? text = some row ∧ rows = [row] := by
  have hsought : (Lookup.primary [.single "5"]).keys.eraseDups = [.single "5"] := by decide
  constructor
  · rintro ⟨asked, -, -, each⟩
    obtain rfl := Option.some.inj asked
    rw [hsought] at each
    obtain ⟨row, others, ⟨found, hfound, hrow⟩, hothers, rfl⟩ := List.forall₂_cons_left_iff.mp each
    obtain rfl := List.forall₂_nil_left_iff.mp hothers
    obtain rfl : text = found := Option.some.inj hfound
    exact ⟨row, hrow, rfl⟩
  · rintro ⟨row, hrow, rfl⟩
    refine .intro rfl (by decide) (fun h => by cases h) ?_
    rw [hsought]
    exact .cons ⟨text, rfl, hrow⟩ .nil

theorem point_lookup_hit_on_user_only :
    probedUserFive "5" = some (.ended (.returned (.ok (some (.many [.integer 5]))))) ∧
      probedUserFive "true" =
        some (Read.lookUpSearch plainCache userFive 0 [] : Turn (ReadStage Row)).stage := by
  have hlookup (text : String) :=
    @point_lookup_hits_on_entries_of_one_row Row RecencyStore _ plainCache userFive Row.integers _ (fun _ => rfl) 0
      (givenUserFive text) 0 _ rfl (DatedMedium.shows _ 0)
  constructor
  · exact (hlookup "5").1 _ (foundUserFive_iff.mpr ⟨.integer 5, by cbv, rfl⟩)
  · refine ((hlookup "true").2 fun lookup asked key hkey text hfound => ?_).2 fun rows hrows => ?_
    · obtain rfl := Option.some.inj asked
      obtain rfl := List.mem_singleton.mp hkey
      obtain rfl : "true" = text := Option.some.inj hfound
      exact ⟨.bool true, by cbv⟩
    · obtain ⟨row, hrow, -⟩ := foundUserFive_iff.mp hrows
      have hnone : Row.integers.decodeOne? "true" = none := by cbv
      rw [hnone] at hrow
      cases hrow

/-- One entry that holds two values answers a read of one key with two rows. -/
theorem point_lookup_hits_on_two_rows :
    probedUserFive "1,2" = some (.ended (.returned (.ok (some (.many [.integer 1, .integer 2]))))) ∧
      ∀ rows, ¬ FoundByKey plainCache userFive Row.integers
        (DatedMedium.found? (givenUserFive "1,2") 0) rows := by
  constructor
  · cbv
  · intro rows hrows
    obtain ⟨row, hrow, -⟩ := foundUserFive_iff.mp hrows
    have hnone : Row.integers.decodeOne? "1,2" = none := by cbv
    rw [hnone] at hrow
    cases hrow

end ReadThrough
