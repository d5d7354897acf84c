import Mathlib.Data.List.Forall2
import ReadThrough.Proofs.Flights.Turns

/-! # The turns of reads

One specification for each turn of a read. Beside the flights it follows any property of stages and
any property of outcomes, given what the turn can make of them.

* `Outcome.Gives` says what a follower returns for an outcome;
* `StageRules` says which stages and outcomes the next turn of a read may come to;
* `Read.Takes` is what a turn does: to the flights, the stage, the outcomes left, and the cache;
* `Activity.move?_read` puts the specifications together for all moves of a read, and
  `Activity.move?_other` says what the moves of other activities do to the cache.
-/

namespace ReadThrough
set_option autoImplicit false

variable {ρ σ : Type}

theorem mapM_eq_some_iff {α β : Type} {f : α → Option β} {items : List α} {results : List β} :
    items.mapM f = some results ↔ List.Forall₂ (fun item result => f item = some result) items results := by
  induction items generalizing results with
  | nil => simp [eq_comm]
  | cons item items ih =>
    simp only [List.mapM_cons, Option.pure_def, Option.bind_eq_bind, Option.bind_eq_some_iff,
      List.forall₂_cons_left_iff, ih]
    constructor
    · rintro ⟨result, hitem, results', hitems, h⟩
      exact ⟨result, results', hitem, hitems, (Option.some.inj h).symm⟩
    · rintro ⟨result, results', hitem, hitems, rfl⟩
      exact ⟨result, hitem, results', hitems, rfl⟩

/-! ## What a turn keeps -/

/-- The configuration and the layout stay, and no index is forgotten. -/
structure Cache.Grows (c c' : Cache) : Prop where
  config : c'.config = c.config
  space : c'.space = c.space
  indexes : ∀ table index, index ∈ c.knownIndexes table → index ∈ c'.knownIndexes table

theorem Cache.Grows.of_same {c c' : Cache} (config : c'.config = c.config)
    (space : c'.space = c.space) (indexes : c'.indexes = c.indexes) : c.Grows c' := by
  refine ⟨config, space, fun table index h => ?_⟩
  rw [Cache.knownIndexes] at h ⊢
  rwa [indexes]

theorem Cache.Grows.refl (c : Cache) : c.Grows c := .of_same rfl rfl rfl

theorem Cache.Grows.trans {c c' c'' : Cache} (h : c.Grows c') (h' : c'.Grows c'') : c.Grows c'' :=
  ⟨h'.config.trans h.config, h'.space.trans h.space,
    fun table index hknown => h'.indexes table index (h.indexes table index hknown)⟩

theorem Cache.pointKeys_of_space {c c' : Cache} (space : c'.space = c.space) (table : String)
    (lookup : Lookup) (sought : List CompositeKey) :
    c'.pointKeys table lookup sought = c.pointKeys table lookup sought := by
  cases lookup <;> simp only [Cache.pointKeys, space]

theorem Cache.resultKey_of_space {c c' : Cache} (space : c'.space = c.space) (query : Query) :
    c'.resultKey query = c.resultKey query := by
  rw [Cache.resultKey, Cache.resultKey, space]

theorem mem_knownIndexes_learnIndexes {c : Cache} {table table' index : String}
    {names : List String} :
    index ∈ (c.learnIndexes table names).knownIndexes table' ↔
      (table = table' ∧ index ∈ names) ∨ index ∈ c.knownIndexes table' := by
  unfold Cache.learnIndexes
  split
  · rename_i hnone
    have hempty : names = [] := List.isEmpty_iff.mp hnone
    simp [hempty]
  · simp only [Cache.knownIndexes, Std.TreeMap.getD_insert, Std.TreeSet.mem_toList]
    by_cases h : table = table'
    · subst h
      simp [Std.TreeSet.mem_insertMany_list, or_comm]
    · simp [h]

theorem Cache.grows_learnIndexes (c : Cache) (table : String) (names : List String) :
    c.Grows (c.learnIndexes table names) := by
  refine ⟨?_, ?_, fun table' index h => mem_knownIndexes_learnIndexes.mpr (.inr h)⟩
  · unfold Cache.learnIndexes
    split <;> rfl
  · unfold Cache.learnIndexes
    split <;> rfl

theorem learnIndexes_flights (c : Cache) (table : String) (names : List String) :
    (c.learnIndexes table names).flights = c.flights := by
  unfold Cache.learnIndexes
  split <;> rfl

/-! ## Results -/

/-- What a read returns, if it returns. -/
abbrev ReadResult (ρ : Type) := Except Failure (Option (ResultSet ρ))

/-- What an outcome gives to a follower: the rows that its payload is read as, with the row count that was
left, or a failure if it cannot be read; nothing found; or the failure of the data source. -/
inductive Outcome.Gives (format : RowFormat ρ) : Outcome → ReadResult ρ → Prop
  | rows {payload rowsAffected rows} (read : format.decodeAll payload = some rows) :
    Gives format (.found payload rowsAffected) (.ok (some ⟨rows, rowsAffected⟩))
  | unreadable {payload rowsAffected} (unread : format.decodeAll payload = none) :
    Gives format (.found payload rowsAffected) (.error .deserialization)
  | notFound : Gives format .notFound (.ok none)
  | failed {text} : Gives format (.failed text) (.error (.dataSource text))

theorem Outcome.gives_adopt (format : RowFormat ρ) (outcome : Outcome) :
    outcome.Gives format (Read.adopt format outcome) := by
  cases outcome with
  | found payload rowsAffected =>
    rw [Read.adopt]
    split
    · rename_i rows hread
      exact .rows hread
    · rename_i hunread
      exact .unreadable hunread
  | notFound => exact .notFound
  | failed text => exact .failed

theorem Outcome.Gives.eq_adopt {format : RowFormat ρ} {outcome : Outcome} {result : ReadResult ρ}
    (h : outcome.Gives format result) : result = Read.adopt format outcome := by
  cases h with
  | rows read => rw [Read.adopt, read]
  | unreadable unread => rw [Read.adopt, unread]
  | notFound => rfl
  | failed => rfl

/-! ## Rules -/

structure LookUpRules (Stage : ReadStage ρ → Bool → Prop) (c : Cache) (query : Query) : Prop where
  points : ∀ flight lookup sought, c.config.level.cachesPoints →
    query.pointLookup? = some (lookup, sought) →
    Stage (.awaitingPoints flight sought
      (.asked (.getAll (c.pointKeys query.table lookup sought)))) false
  search : ∀ flight, c.config.level.cachesSearches →
    Stage (.awaitingSearch flight (.asked (.get (c.resultKey query)))) false
  fetch : ∀ flight, Stage (.fetching flight) true

/-- Where the next turn of a read may lead: `Stage` holds of the stages, given whether the turn asks
the data source, and `Leaves` of the outcomes that a leader leaves, with what it returns itself. -/
structure StageRules [Medium σ] (Stage : ReadStage ρ → Bool → Prop)
    (Leaves : Outcome → ReadResult ρ → Prop) (now : Nat) (c : Cache) (store : σ) (query : Query)
    (format : RowFormat ρ) (before : ReadStage ρ) (outcome? : Option (FetchOutcome ρ)) : Prop where
  brokeDown : Stage (.ended .brokeDown) false
  aborted : Stage (.ended .aborted) false
  failed : ∀ flight text, before = .fetching flight → outcome? = some (.failed text) →
    Leaves (.failed text) (.error (.dataSource text)) ∧
      Stage (.ended (.returned (.error (.dataSource text)))) false
  bypass : c.config.caches query.table = false → Stage .bypassing true
  follow : ∀ flight, before.Joins c.flights →
    c.flights.registry[query.flightName]? = some flight → Stage (.following flight) false
  looks : LookUpRules Stage c query
  adopt : ∀ flight outcome, before = .following flight →
    c.flights.state? flight = some (.completed outcome) →
    Stage (.ended (.returned (Read.adopt format outcome))) false
  pointsGoOn : ∀ flight sought operation (step : StoreStep σ .slots),
    before = .awaitingPoints flight sought operation → (∀ reply, operation ≠ .answered reply) →
    Medium.step? now store operation = some step →
    Stage (.awaitingPoints flight sought step.operation) false
  pointHit : ∀ flight sought slots payload rows,
    before = .awaitingPoints flight sought (.answered (.ok slots)) →
    Read.pointPayload? sought slots = some payload → format.decodeAll payload = some rows →
    Leaves (.found payload (ResultSet.many rows).rowsAffected) (.ok (some (.many rows))) ∧
      Stage (.ended (.returned (.ok (some (.many rows))))) false
  searchGoOn : ∀ flight operation (step : StoreStep σ .text),
    before = .awaitingSearch flight operation → (∀ reply, operation ≠ .answered reply) →
    Medium.step? now store operation = some step →
    Stage (.awaitingSearch flight step.operation) false
  absence : ∀ flight, before = .awaitingSearch flight (.answered (.ok SearchEntry.absenceMark)) →
    Leaves .notFound (.ok none) ∧ Stage (.ended (.returned (.ok none))) false
  searchHit : ∀ flight stored rowsAffected payload rows,
    before = .awaitingSearch flight (.answered (.ok stored)) →
    stored ≠ SearchEntry.absenceMark → SearchEntry.decode? stored = some (rowsAffected, payload) →
    format.decodeAll payload = some rows →
    Leaves (.found payload rowsAffected) (.ok (some ⟨rows, rowsAffected⟩)) ∧
      Stage (.ended (.returned (.ok (some ⟨rows, rowsAffected⟩)))) false
  notFound : ∀ flight result, before = .fetching flight → outcome? = some (.answered result) →
    query.shape.normalize result = none →
    Leaves .notFound (.ok none) ∧ Stage (.ended (.returned (.ok none))) false ∧
      ∀ jobs, Stage (.filling flight none .notFound jobs) false
  unwritable : ∀ flight result fetched, before = .fetching flight →
    outcome? = some (.answered result) → query.shape.normalize result = some fetched →
    format.encodeAll fetched.rows = none → Stage (.ended (.returned (.ok (some fetched)))) false
  found : ∀ flight result fetched payload, before = .fetching flight →
    outcome? = some (.answered result) → query.shape.normalize result = some fetched →
    format.encodeAll fetched.rows = some payload →
    Leaves (.found payload fetched.rowsAffected) (.ok (some fetched)) ∧
      Stage (.ended (.returned (.ok (some fetched)))) false ∧
      ∀ jobs, Stage (.filling flight (some fetched) (.found payload fetched.rowsAffected) jobs) false
  filling : ∀ flight result outcome jobs, before = .filling flight result outcome jobs →
    Leaves outcome (.ok result) ∧ Stage (.ended (.returned (.ok result))) false ∧
      ∀ jobs', Stage (.filling flight result outcome jobs') false
  bypassed : ∀ result, before = .bypassing → outcome? = some (.answered result) →
    Stage (.ended (.returned (.ok result))) false
  bypassFailed : ∀ text, before = .bypassing → outcome? = some (.failed text) →
    Stage (.ended (.returned (.error (.dataSource text)))) false

theorem StageRules.free [Medium σ] (now : Nat) (c : Cache) (store : σ) (query : Query)
    (format : RowFormat ρ) (before : ReadStage ρ) (outcome? : Option (FetchOutcome ρ)) :
    StageRules (fun _ _ => True) (fun _ _ => True) now c store query format before outcome? := by
  constructor
  case looks => constructor <;> simp
  all_goals simp

theorem StageRules.imp [Medium σ] {Stage : ReadStage ρ → Bool → Prop}
    {Leaves : Outcome → ReadResult ρ → Prop} {now : Nat} {c : Cache} {store : σ} {query : Query} {format : RowFormat ρ}
    {before : ReadStage ρ} {outcome? : Option (FetchOutcome ρ)} {p : Prop}
    (h : p → StageRules Stage Leaves now c store query format before outcome?) :
    StageRules (fun stage asks => p → Stage stage asks)
      (fun outcome result => p → Leaves outcome result) now c store query format before
      outcome? := by
  by_cases hp : p
  · simpa only [hp, true_imp_iff] using h hp
  · simpa only [hp, false_imp_iff] using StageRules.free now c store query format before outcome?

namespace Read

/-- What a turn of a read does. An outcome that a flight has after it, and had not before, is one
that the read left, which led the flight and returned. -/
structure Takes (Stage : ReadStage ρ → Bool → Prop) (Leaves : Outcome → ReadResult ρ → Prop)
    (c : Cache) (query : Query) (format : RowFormat ρ) (before : ReadStage ρ)
    (turn : Turn (ReadStage ρ)) : Prop where
  flights : FlightTurn query format c.flights before turn.cache.flights turn.stage
  stage : Stage turn.stage turn.fetches
  grows : c.Grows turn.cache
  leaves : ∀ flight key outcome,
    turn.cache.flights.profile? flight = some (key, .completed outcome) →
    c.flights.profile? flight = some (key, .completed outcome) ∨
      (before.leads? = some flight ∧
        ∃ result, turn.stage = .ended (.returned result) ∧ Leaves outcome result)
  spawned : c.config.detachesUpkeep = false → turn.spawned = []

/-- What a turn of a leading read does: it goes on leading, or ends its flight and itself. -/
structure LeadsOn (Stage : ReadStage ρ → Bool → Prop) (Leaves : Outcome → ReadResult ρ → Prop)
    (c : Cache) (flight : FlightId) (turn : Turn (ReadStage ρ)) : Prop where
  stage : Stage turn.stage turn.fetches
  grows : c.Grows turn.cache
  flights : (turn.stage.leads? = some flight ∧ turn.cache.flights = c.flights) ∨
    ∃ state answer, state ≠ .running ∧
      (∀ outcome, state = .completed outcome →
        ∃ result, answer = .returned result ∧ Leaves outcome result) ∧
      turn.cache.flights = c.flights.finish flight state ∧ turn.stage = .ended answer
  spawned : c.config.detachesUpkeep = false → turn.spawned = []

variable {Stage : ReadStage ρ → Bool → Prop} {Leaves : Outcome → ReadResult ρ → Prop} {c : Cache}
  {query : Query} {format : RowFormat ρ} {flight : FlightId}

theorem LeadsOn.takes {before : ReadStage ρ} {turn : Turn (ReadStage ρ)}
    (h : LeadsOn Stage Leaves c flight turn) (leads : before.leads? = some flight) :
    Takes Stage Leaves c query format before turn := by
  rcases h.flights with ⟨hleads, hsame⟩ | ⟨state, answer, hstate, hleaves, hfinish, hended⟩
  · refine ⟨?_, h.stage, h.grows, ?_, h.spawned⟩
    · rw [hsame]
      refine .goOn ?_ ?_ ?_
      · cases before <;> simp_all [ReadStage.leads?, ReadStage.answer?]
      · rintro f rfl
        simp [ReadStage.leads?] at leads
      · rw [ReadStage.role?_of_leads hleads, ReadStage.role?_of_leads leads]
    · intro f key outcome hprofile
      rw [hsame] at hprofile
      exact .inl hprofile
  · refine ⟨?_, h.stage, h.grows, ?_, h.spawned⟩
    · rw [hfinish, hended]
      exact .finish leads hstate
    · intro f key outcome hprofile
      rw [hfinish, Flights.profile?_finish] at hprofile
      obtain ⟨⟨key', state'⟩, hold, hnew⟩ := Option.map_eq_some_iff.mp hprofile
      split at hnew
      · rename_i hsame
        subst hsame
        obtain ⟨-, hcompleted⟩ := Prod.mk.inj hnew
        obtain ⟨result, rfl, hleft⟩ := hleaves outcome hcompleted
        exact .inr ⟨leads, result, hended, hleft⟩
      · exact .inl (hnew ▸ hold)

/-! ## Endings of a leader -/

theorem breakOff_leadsOn {answer : Answer ρ} {notices : List Notice}
    (stage : Stage (.ended answer) false) :
    LeadsOn Stage Leaves c flight (breakOff c (some flight) answer notices) where
  stage := stage
  grows := .of_same rfl rfl rfl
  flights := .inr ⟨.abandoned, answer, by simp, by simp, rfl, rfl⟩
  spawned _ := rfl

theorem LeadsOn.of_completed {turn : Turn (ReadStage ρ)} {outcome : Outcome}
    {result : ReadResult ρ} (leaves : Leaves outcome result)
    (stage : Stage (.ended (.returned result)) turn.fetches)
    (ends : turn.stage = .ended (.returned result)) (grows : c.Grows turn.cache)
    (flights : turn.cache.flights = c.flights.finish flight (.completed outcome))
    (spawned : turn.spawned = []) : LeadsOn Stage Leaves c flight turn := by
  refine ⟨ends ▸ stage, grows, .inr ⟨.completed outcome, .returned result, ?_, ?_, flights, ends⟩,
    fun _ => spawned⟩
  · simp
  · intro other hother
    exact ⟨result, rfl, FlightState.completed.inj hother ▸ leaves⟩

theorem conclude_leadsOn {outcome : Outcome} {result : ReadResult ρ}
    {notices : List Notice} (leaves : Leaves outcome result)
    (stage : Stage (.ended (.returned result)) false) :
    LeadsOn Stage Leaves c flight (conclude c flight outcome result notices) :=
  .of_completed leaves stage rfl (.of_same rfl rfl rfl) rfl rfl

theorem concludeHit_leadsOn {outcome : Outcome} {result : Option (ResultSet ρ)}
    {notices : List Notice} (leaves : Leaves outcome (.ok result))
    (stage : Stage (.ended (.returned (.ok result))) false) :
    LeadsOn Stage Leaves c flight (concludeHit c flight outcome result notices) :=
  .of_completed leaves stage rfl (.of_same rfl rfl rfl) rfl rfl

theorem afterFill_leadsOn {result : Option (ResultSet ρ)} {outcome : Outcome}
    {notices : List Notice} (leaves : Leaves outcome (.ok result))
    (stage : Stage (.ended (.returned (.ok result))) false) :
    LeadsOn Stage Leaves c flight (afterFill c query flight result outcome notices) :=
  .of_completed leaves stage rfl (.of_same rfl rfl rfl) rfl rfl

/-! ## Looking up -/

/-- A turn that goes on leading without ending anything. -/
structure GoesOn (Stage : ReadStage ρ → Bool → Prop) (c : Cache) (flight : FlightId)
    (turn : Turn (ReadStage ρ)) : Prop where
  stage : Stage turn.stage turn.fetches
  grows : c.Grows turn.cache
  leads : turn.stage.leads? = some flight
  flights : turn.cache.flights = c.flights
  spawned : turn.spawned = []

theorem GoesOn.leadsOn {turn : Turn (ReadStage ρ)} (h : GoesOn Stage c flight turn) :
    LeadsOn Stage Leaves c flight turn :=
  ⟨h.stage, h.grows, .inl ⟨h.leads, h.flights⟩, fun _ => h.spawned⟩

theorem miss_goesOn (stage : Stage (.fetching flight) true) (notices : List Notice) :
    GoesOn Stage c flight (miss c query flight notices) :=
  ⟨stage, .of_same rfl rfl rfl, rfl, rfl, rfl⟩

theorem lookUpSearch_goesOn (rules : LookUpRules Stage c query)
    (notices : List Notice) : GoesOn Stage c flight (lookUpSearch c query flight notices) := by
  unfold lookUpSearch
  split
  · rename_i hlevel
    exact ⟨rules.search flight hlevel, .refl c, rfl, rfl, rfl⟩
  · exact miss_goesOn (rules.fetch flight) notices

theorem lookUp_goesOn (rules : LookUpRules Stage c query) (flight : FlightId)
    (notices : List Notice) : GoesOn Stage c flight (lookUp c query flight notices) := by
  unfold lookUp
  split
  · rename_i hlevel
    split
    · rename_i lookup sought hlookup
      exact ⟨rules.points flight lookup sought hlevel hlookup, .refl c, rfl, rfl, rfl⟩
    · exact lookUpSearch_goesOn rules notices
  · exact lookUpSearch_goesOn rules notices

theorem map_some_of_mapM {slots : List (Option String)} {texts : List String}
    (h : slots.mapM id = some texts) : texts.map some = slots := by
  have heach : List.Forall₂ (fun slot text => some text = slot) slots texts :=
    (mapM_eq_some_iff.mp h).imp fun _ _ => Eq.symm
  exact List.forall₂_eq_eq_eq ▸ List.forall₂_map_left_iff.mpr heach.flip

/-- A point hit is made of one text for each row sought, in order. -/
theorem of_pointPayload? {sought : List CompositeKey} {slots : List (Option String)}
    {payload : String} (h : pointPayload? sought slots = some payload) :
    ∃ texts, payload = rowArray texts ∧ texts.length = sought.length ∧ texts.map some = slots := by
  unfold pointPayload? at h
  split at h
  · rename_i texts htexts
    split at h
    · rename_i hlength
      obtain rfl := Option.some.inj h
      exact ⟨texts, rfl, hlength, map_some_of_mapM htexts⟩
    · cases h
  · cases h

section

variable [Medium σ] {now : Nat} {store : σ} {before : ReadStage ρ}
  {outcome? : Option (FetchOutcome ρ)}

theorem afterPoints_leadsOn {sought : List CompositeKey} {reply : Reply .slots}
    (rules : StageRules Stage Leaves now c store query format
      (.awaitingPoints flight sought (.answered reply)) outcome?) :
    LeadsOn Stage Leaves c flight (afterPoints c query format flight sought reply) := by
  unfold afterPoints
  split
  · exact breakOff_leadsOn rules.brokeDown
  · exact (lookUpSearch_goesOn rules.looks _).leadsOn
  · split
    · exact (lookUpSearch_goesOn rules.looks _).leadsOn
    · rename_i payload hpayload
      split
      · exact (lookUpSearch_goesOn rules.looks _).leadsOn
      · rename_i rows hrows
        obtain ⟨hleaves, hstage⟩ := rules.pointHit flight sought _ payload rows rfl hpayload hrows
        exact concludeHit_leadsOn hleaves hstage

theorem afterSearch_leadsOn {reply : Reply .text}
    (rules : StageRules Stage Leaves now c store query format
      (.awaitingSearch flight (.answered reply)) outcome?) :
    LeadsOn Stage Leaves c flight (afterSearch c query format flight reply) := by
  unfold afterSearch
  split
  · exact breakOff_leadsOn rules.brokeDown
  · exact (miss_goesOn (rules.looks.fetch flight) _).leadsOn
  · split
    · rename_i stored hstored
      obtain ⟨hleaves, hstage⟩ := rules.absence flight (by rw [hstored])
      exact concludeHit_leadsOn hleaves hstage
    · rename_i stored hstored
      split
      · exact (miss_goesOn (rules.looks.fetch flight) _).leadsOn
      · rename_i rowsAffected payload hentry
        split
        · exact (miss_goesOn (rules.looks.fetch flight) _).leadsOn
        · rename_i rows hrows
          obtain ⟨hleaves, hstage⟩ :=
            rules.searchHit flight stored rowsAffected payload rows rfl hstored hentry hrows
          exact concludeHit_leadsOn hleaves hstage

/-! ## Filling -/

theorem keep_leadsOn {plan : FillPlan} {result : Option (ResultSet ρ)} {outcome : Outcome}
    (flights : plan.cache.flights = c.flights) (grows : c.Grows plan.cache)
    (leaves : Leaves outcome (.ok result)) (ends : Stage (.ended (.returned (.ok result))) false)
    (fills : ∀ jobs, Stage (.filling flight result outcome jobs) false) :
    LeadsOn Stage Leaves c flight (keep plan query flight result outcome) := by
  have hfinish : plan.cache.flights.complete flight outcome =
      c.flights.finish flight (.completed outcome) := by rw [flights, Flights.complete]
  have hleaves : ∀ outcome', FlightState.completed outcome = .completed outcome' →
      ∃ result', Answer.returned (.ok result) = .returned result' ∧ Leaves outcome' result' :=
    fun _ h => ⟨.ok result, rfl, FlightState.completed.inj h ▸ leaves⟩
  have hgrows : c.Grows { plan.cache with flights := plan.cache.flights.complete flight outcome } :=
    grows.trans (.of_same rfl rfl rfl)
  by_cases hd : plan.cache.config.detachesUpkeep
  · have hdetaches : c.config.detachesUpkeep = true := grows.config ▸ hd
    simp only [keep, hd, if_true, afterFill, conclude]
    exact ⟨ends, hgrows, .inr ⟨_, _, by simp, hleaves, hfinish, rfl⟩, by simp [hdetaches]⟩
  · by_cases hj : plan.jobs.isEmpty
    · simp only [keep, hd, hj, if_true, Bool.false_eq_true, if_false, afterFill, conclude]
      exact ⟨ends, hgrows, .inr ⟨_, _, by simp, hleaves, hfinish, rfl⟩, fun _ => rfl⟩
    · simp only [keep, hd, hj, Bool.false_eq_true, if_false]
      exact ⟨fills _, grows, .inl ⟨rfl, flights⟩, fun _ => rfl⟩

theorem rowsPlan_cache (c : Cache) (query : Query) (format : RowFormat ρ) (fetched : ResultSet ρ)
    (payload : String) :
    (rowsPlan c query format fetched payload).cache.flights = c.flights ∧
      c.Grows (rowsPlan c query format fetched payload).cache := by
  unfold rowsPlan
  split
  · dsimp only
    split
    · exact ⟨learnIndexes_flights c _ _, c.grows_learnIndexes _ _⟩
    · exact ⟨rfl, .refl c⟩
  · exact ⟨rfl, .refl c⟩

theorem notFoundPlan_cache (c : Cache) (query : Query) : (notFoundPlan c query).cache = c := by
  unfold notFoundPlan
  split <;> rfl

theorem afterFetch_leadsOn {outcome : FetchOutcome ρ}
    (rules : StageRules Stage Leaves now c store query format (.fetching flight) (some outcome)) :
    LeadsOn Stage Leaves c flight (afterFetch c query format flight outcome) := by
  unfold afterFetch
  split
  · exact breakOff_leadsOn rules.brokeDown
  · rename_i text
    obtain ⟨hleaves, hends⟩ := rules.failed flight text rfl rfl
    exact conclude_leadsOn hleaves hends
  · rename_i result
    split
    · rename_i hnone
      obtain ⟨hleaves, hends, hfills⟩ := rules.notFound flight result rfl rfl hnone
      have hcache := notFoundPlan_cache c query
      exact keep_leadsOn (by rw [hcache]) (hcache.symm ▸ .refl c) hleaves hends hfills
    · rename_i fetched hfetched
      split
      · rename_i hunwritable
        exact breakOff_leadsOn (rules.unwritable flight result fetched rfl rfl hfetched hunwritable)
      · rename_i payload hpayload
        obtain ⟨hleaves, hends, hfills⟩ :=
          rules.found flight result fetched payload rfl rfl hfetched hpayload
        obtain ⟨hflights, hgrows⟩ := rowsPlan_cache c query format fetched payload
        exact keep_leadsOn hflights hgrows hleaves hends hfills

/-! ## Joining -/

theorem join_takes (rules : StageRules Stage Leaves now c store query format before outcome?)
    (joins : before.Joins c.flights)
    (notices : List Notice) :
    Takes Stage Leaves c query format before (join c query notices) := by
  have hrole := c.flights.join_role query.flightName
  unfold join
  split
  · rename_i flights flight hjoin
    rw [hjoin] at hrole
    have hreg : c.flights.registry[query.flightName]? = some flight := by
      split at hrole <;> simp_all
    have hflights : flights = (c.flights.join query.flightName).1 := by rw [hjoin]
    subst hflights
    refine ⟨.follow joins hreg, rules.follow flight joins hreg, .of_same rfl rfl rfl, ?_, fun _ => rfl⟩
    intro f key outcome hprofile
    rw [Flights.profile?_join_of_registered hreg] at hprofile
    exact .inl hprofile
  · rename_i flights flight hjoin
    rw [hjoin] at hrole
    obtain ⟨hfree, hlen⟩ : c.flights.registry[query.flightName]? = none ∧
        flight = c.flights.all.length := by
      split at hrole <;> simp_all
    have hflights : flights = (c.flights.join query.flightName).1 := by rw [hjoin]
    subst hflights hlen
    -- what is looked up depends on the configuration and the layout only
    have hlooks : LookUpRules Stage { c with flights := (c.flights.join query.flightName).1 } query :=
      ⟨rules.looks.points, rules.looks.search, rules.looks.fetch⟩
    have hgoes := lookUp_goesOn hlooks c.flights.all.length notices
    have hjoined : c.Grows { c with flights := (c.flights.join query.flightName).1 } :=
      .of_same rfl rfl rfl
    refine ⟨?_, hgoes.stage, hjoined.trans hgoes.grows, ?_, fun _ => hgoes.spawned⟩
    · rw [hgoes.flights]
      exact .lead joins hfree hgoes.leads
    · intro f key outcome hprofile
      rw [hgoes.flights, Flights.profile?_join_of_free hfree] at hprofile
      split at hprofile
      · cases hprofile
      · exact .inl hprofile

theorem start_takes (rules : StageRules Stage Leaves now c store query format .ready outcome?) :
    Takes Stage Leaves c query format .ready (start c query) := by
  unfold start
  split
  · exact join_takes rules trivial []
  · rename_i huncached
    refine ⟨.goOn rfl (by simp) rfl, rules.bypass (by simpa using huncached), .refl c, ?_,
      fun _ => rfl⟩
    intro f key outcome hprofile
    exact .inl hprofile

theorem afterFlight?_takes {turn : Turn (ReadStage ρ)}
    (rules : StageRules Stage Leaves now c store query format (.following flight) outcome?)
    (h : afterFlight? c query format flight = some turn) :
    Takes Stage Leaves c query format (.following flight) turn := by
  unfold afterFlight? at h
  split at h
  · rename_i outcome hdone
    obtain rfl := Option.some.inj h
    refine ⟨.adopt hdone, rules.adopt flight outcome rfl hdone, .of_same rfl rfl rfl, ?_,
      fun _ => rfl⟩
    intro f key outcome hprofile
    exact .inl hprofile
  · rename_i habandoned
    obtain rfl := Option.some.inj h
    exact join_takes rules habandoned _
  · cases h
  · cases h

theorem afterBypass_takes {outcome : FetchOutcome ρ}
    (rules : StageRules Stage Leaves now c store query format .bypassing (some outcome)) :
    Takes Stage Leaves c query format .bypassing (afterBypass c outcome) := by
  have hkept : ∀ answer, Stage (.ended answer) false →
      Takes Stage Leaves c query format .bypassing { cache := c, stage := .ended answer } := by
    intro answer hstage
    exact ⟨.goOn rfl (by simp) rfl, hstage, .refl c, fun _ _ _ h => .inl h, fun _ => rfl⟩
  cases outcome with
  | brokeDown => exact hkept _ rules.brokeDown
  | failed text => exact hkept _ (rules.bypassFailed text rfl rfl)
  | answered result => exact hkept _ (rules.bypassed result rfl rfl)

/-- A read that is broken off abandons the flight that it leads, if any. -/
theorem abort_takes (active : before.answer? = none)
    (rules : StageRules Stage Leaves now c store query format before outcome?) :
    Takes Stage Leaves c query format before (breakOff c before.leads? .aborted []) := by
  cases hleads : before.leads? with
  | some flight => exact (breakOff_leadsOn rules.aborted).takes hleads
  | none =>
    refine ⟨?_, rules.aborted, .of_same rfl rfl rfl, fun _ _ _ h => .inl h, fun _ => rfl⟩
    cases before with
    | ready | bypassing => exact .goOn rfl (by simp) rfl
    | following flight => exact .quit
    | ended answer => cases active
    | awaitingPoints | awaitingSearch | fetching | filling => cases hleads

theorem join_role? (c : Cache) (query : Query) (notices : List Notice) :
    (join c query notices : Turn (ReadStage ρ)).stage.role? =
      some (c.flights.join query.flightName).2 := by
  unfold join
  split
  · rename_i flights flight hjoin
    rw [hjoin]
    rfl
  · rename_i flights flight hjoin
    have hrules : LookUpRules (fun (_ : ReadStage ρ) _ => True) { c with flights := flights } query :=
      ⟨by simp, by simp, by simp⟩
    rw [hjoin]
    exact ReadStage.role?_of_leads (lookUp_goesOn hrules flight notices).leads

end

end Read

/-! ## Moves of a read -/

namespace Activity

variable {Stage : ReadStage ρ → Bool → Prop} {Leaves : Outcome → ReadResult ρ → Prop} {now : Nat}
  {c : Cache} {store : σ} {query : Query} {format : RowFormat ρ} {before : ReadStage ρ}
  {outcome? : Option (FetchOutcome ρ)} {step : ActivityStep ρ σ}

def TakesTurn (Stage : ReadStage ρ → Bool → Prop) (Leaves : Outcome → ReadResult ρ → Prop)
    (c : Cache) (query : Query) (format : RowFormat ρ) (before : ReadStage ρ)
    (step : ActivityStep ρ σ) : Prop :=
  ∃ turn : Turn (ReadStage ρ), Read.Takes Stage Leaves c query format before turn ∧
    step.activity = .read query format turn.stage ∧ step.cache = turn.cache ∧
    step.fetches = turn.fetches ∧ step.spawned = turn.spawned

theorem takesTurn_of_readTurn {turn : Turn (ReadStage ρ)}
    (h : some (ofReadTurn query format store turn) = some step)
    (takes : Read.Takes Stage Leaves c query format before turn) :
    TakesTurn Stage Leaves c query format before step := by
  obtain rfl := Option.some.inj h
  exact ⟨turn, takes, rfl, rfl, rfl, rfl⟩

theorem takesTurn_of_storeStep [Medium σ] {kind : ReplyKind} {operation : Operation kind}
    {flight : FlightId} {stage : Operation kind → ReadStage ρ}
    (h : storeStep? now c store operation (fun op => .read query format (stage op)) = some step)
    (leads : ∀ op, (stage op).leads? = some flight)
    (goesOn : ∀ taken : StoreStep σ kind, Medium.step? now store operation = some taken →
      Stage (stage taken.operation) false) :
    TakesTurn Stage Leaves c query format (stage operation) step := by
  obtain ⟨taken, htaken, rfl⟩ := Option.map_eq_some_iff.mp h
  have hgoes : Read.GoesOn Stage c flight { cache := c, stage := stage taken.operation } :=
    ⟨goesOn taken htaken, .refl c, leads _, rfl, rfl⟩
  exact ⟨_, hgoes.leadsOn.takes (leads operation), rfl, rfl, rfl, rfl⟩

theorem goRead?_takesTurn [Medium σ]
    (rules : StageRules Stage Leaves now c store query format before outcome?)
    (h : goRead? now c store query format before = some step) :
    TakesTurn Stage Leaves c query format before step := by
  unfold goRead? at h
  split at h
  · exact takesTurn_of_readTurn h (Read.start_takes rules)
  · obtain ⟨turn, hturn, rfl⟩ := Option.map_eq_some_iff.mp h
    exact ⟨turn, Read.afterFlight?_takes rules hturn, rfl, rfl, rfl, rfl⟩
  · exact takesTurn_of_readTurn h ((Read.afterPoints_leadsOn rules).takes rfl)
  · rename_i hunanswered
    exact takesTurn_of_storeStep h (fun _ => rfl) fun taken =>
      rules.pointsGoOn _ _ _ taken rfl hunanswered
  · exact takesTurn_of_readTurn h ((Read.afterSearch_leadsOn rules).takes rfl)
  · rename_i hunanswered
    exact takesTurn_of_storeStep h (fun _ => rfl) fun taken =>
      rules.searchGoOn _ _ taken rfl hunanswered
  · rename_i flight result outcome jobs
    obtain ⟨hleaves, hends, -⟩ := rules.filling flight result outcome jobs rfl
    split at h
    · exact takesTurn_of_readTurn h ((Read.breakOff_leadsOn rules.brokeDown).takes rfl)
    · split at h
      · exact takesTurn_of_readTurn h ((Read.afterFill_leadsOn hleaves hends).takes rfl)
      · cases h
  · cases h
  · cases h
  · cases h

theorem deliver?_takesTurn [Medium σ] {outcome : FetchOutcome ρ}
    (rules : StageRules Stage Leaves now c store query format before (some outcome))
    (h : deliver? c store outcome (.read query format before) = some step) :
    TakesTurn Stage Leaves c query format before step := by
  cases before with
  | fetching flight => exact takesTurn_of_readTurn h ((Read.afterFetch_leadsOn rules).takes rfl)
  | bypassing => exact takesTurn_of_readTurn h (Read.afterBypass_takes rules)
  | _ => cases h

theorem abort?_takesTurn [Medium σ]
    (rules : StageRules Stage Leaves now c store query format before outcome?)
    (h : abort? c store (.read query format before) = some step) :
    TakesTurn Stage Leaves c query format before step := by
  cases before with
  | ended => cases h
  | _ => exact takesTurn_of_readTurn h (Read.abort_takes rfl rules)

theorem goJob?_takesTurn [Medium σ] {index : Nat}
    (rules : StageRules Stage Leaves now c store query format before outcome?)
    (h : goJob? now c store (.read query format before) index = some step) :
    TakesTurn Stage Leaves c query format before step := by
  simp only [goJob?, Option.bind_eq_bind, Option.bind_eq_some_iff] at h
  obtain ⟨run, hrun, taken, -, ⟨⟩⟩ := h
  cases before with
  | filling flight result outcome jobs =>
    obtain ⟨-, -, hfills⟩ := rules.filling flight result outcome jobs rfl
    have hgoes : Read.GoesOn Stage c flight
        { cache := c, stage := .filling flight result outcome (jobs.set index taken.run) } :=
      ⟨hfills _, .refl c, rfl, rfl, rfl⟩
    exact ⟨_, hgoes.leadsOn.takes rfl, rfl, rfl, rfl, rfl⟩
  | _ => simp [jobs] at hrun

theorem move?_read [Medium σ] {move : Move ρ}
    (rules : StageRules Stage Leaves now c store query format before move.outcome?)
    (h : (Activity.read query format before).move? now c store move = some step) :
    TakesTurn Stage Leaves c query format before step := by
  cases move with
  | go => exact goRead?_takesTurn rules h
  | goJob => exact goJob?_takesTurn rules h
  | deliver => exact deliver?_takesTurn rules h
  | abort => exact abort?_takesTurn rules h

/-! ## Moves of other activities -/

def isRead : Activity ρ → Bool
  | .read .. => true
  | _ => false

/-- The activity as it was started; of a job sent off nothing is left. -/
def origin : Activity ρ → Activity ρ
  | .read query format _ => .ofQuery query format
  | .change event _ => .ofChange event
  | .request asked _ => .ofRequest asked
  | .job _ => .job .finished

theorem isRead_origin (activity : Activity ρ) : activity.origin.isRead = activity.isRead := by
  cases activity <;> rfl

theorem origin_withJobs (jobs : List JobRun) (activity : Activity ρ) :
    (activity.withJobs jobs).origin = activity.origin := by
  unfold withJobs
  split <;> rfl

/-- What a move of an activity that is no read does: it leaves the flights alone unless the activity
is a change that has an effect and begins. -/
structure MovesOther (c : Cache) (activity : Activity ρ) (step : ActivityStep ρ σ) : Prop where
  origin : step.activity.origin = activity.origin
  grows : c.Grows step.cache
  flights : step.cache.flights = c.flights ∨
    ∃ event, activity = .change event .ready ∧ c.isInvalidatedBy event ∧
      step.cache.flights = c.flights.forgetStarting (flightsOf event.table)
  spawned : c.config.detachesUpkeep = false → step.spawned = []

theorem MovesOther.of_same {activity : Activity ρ} (origin : step.activity.origin = activity.origin)
    (cache : step.cache = c) (spawned : step.spawned = []) : MovesOther c activity step :=
  ⟨origin, cache ▸ .refl c, .inl (by rw [cache]), fun _ => spawned⟩

theorem MovesOther.other {activity : Activity ρ} (h : MovesOther c activity step)
    (other : activity.isRead = false) : step.activity.isRead = false := by
  rw [← isRead_origin, h.origin, isRead_origin, other]

theorem prepare_cache {kind : ReplyKind} (c : Cache) (asked : Request kind) :
    (c.prepare asked).1.flights = c.flights ∧ c.Grows (c.prepare asked).1 := by
  cases asked with
  | putUniques table index rows =>
    exact ⟨learnIndexes_flights c table [index], c.grows_learnIndexes table [index]⟩
  | _ => exact ⟨rfl, .of_same rfl rfl rfl⟩

theorem start_cache (c : Cache) (event : Change) :
    c.Grows (Invalidation.start c event).cache ∧
      ((Invalidation.start c event).cache.flights = c.flights ∨
        (c.isInvalidatedBy event ∧ (Invalidation.start c event).cache.flights =
          c.flights.forgetStarting (flightsOf event.table))) ∧
      (c.config.detachesUpkeep = false → (Invalidation.start c event).spawned = []) := by
  unfold Invalidation.start
  split
  · rename_i heffective
    dsimp only
    split
    · rename_i hdetaches
      exact ⟨.of_same rfl rfl rfl, .inr ⟨heffective, rfl⟩, by simp [hdetaches]⟩
    · split <;> exact ⟨.of_same rfl rfl rfl, .inr ⟨heffective, rfl⟩, fun _ => rfl⟩
  · exact ⟨.refl c, .inl rfl, fun _ => rfl⟩

theorem go?_other [Medium σ] {activity : Activity ρ} (h : activity.go? now c store = some step)
    (other : activity.isRead = false) : MovesOther c activity step := by
  cases activity with
  | read => cases other
  | change event stage =>
    cases stage with
    | ready =>
      obtain rfl := Option.some.inj h
      obtain ⟨hgrows, hflights, hspawned⟩ := start_cache c event
      exact ⟨rfl, hgrows, hflights.imp id fun h => ⟨event, rfl, h⟩, hspawned⟩
    | deleting jobs =>
      simp only [go?, goInvalidation?] at h
      split at h
      · obtain rfl := Option.some.inj h
        exact .of_same rfl rfl rfl
      · cases h
    | ended | aborted => cases h
  | job run =>
    obtain ⟨taken, -, rfl⟩ := Option.map_eq_some_iff.mp h
    exact .of_same rfl rfl rfl
  | request asked stage =>
    cases stage with
    | ready =>
      obtain rfl := Option.some.inj h
      obtain ⟨hflights, hgrows⟩ := prepare_cache c asked
      exact ⟨rfl, hgrows, .inl hflights, fun _ => rfl⟩
    | waiting operation =>
      cases operation with
      | answered reply =>
        obtain rfl := Option.some.inj h
        exact .of_same rfl rfl rfl
      | _ =>
        obtain ⟨taken, -, rfl⟩ := Option.map_eq_some_iff.mp h
        exact .of_same rfl rfl rfl
    | ended | aborted => cases h

theorem abort?_other {activity : Activity ρ} (h : activity.abort? c store = some step)
    (other : activity.isRead = false) : MovesOther c activity step := by
  cases activity with
  | read => cases other
  | change event stage =>
    cases stage with
    | ready | deleting =>
      obtain rfl := Option.some.inj h
      exact .of_same rfl rfl rfl
    | ended | aborted => cases h
  | job run =>
    cases run with
    | working =>
      obtain rfl := Option.some.inj h
      exact .of_same rfl rfl rfl
    | finished | brokeDown => cases h
  | request asked stage =>
    cases stage with
    | ready | waiting =>
      obtain rfl := Option.some.inj h
      exact .of_same rfl rfl rfl
    | ended | aborted => cases h

theorem move?_other [Medium σ] {activity : Activity ρ} {move : Move ρ}
    (h : activity.move? now c store move = some step) (other : activity.isRead = false) :
    MovesOther c activity step := by
  cases move with
  | go => exact go?_other h other
  | goJob _ index =>
    simp only [move?, goJob?, Option.bind_eq_bind, Option.bind_eq_some_iff] at h
    obtain ⟨run, -, taken, -, ⟨⟩⟩ := h
    exact .of_same (origin_withJobs _ _) rfl rfl
  | deliver _ outcome => cases activity <;> first | cases h | cases other
  | abort => exact abort?_other h other

/-- An activity stays the same through all its moves, but for its stage. -/
theorem move?_origin [Medium σ] {activity : Activity ρ} {move : Move ρ}
    (h : activity.move? now c store move = some step) : step.activity.origin = activity.origin := by
  cases hkind : activity.isRead with
  | true =>
    cases activity with
    | read query format before =>
      obtain ⟨turn, -, hactivity, -⟩ := move?_read (.free now c store query format before _) h
      rw [hactivity]
      rfl
    | change | job | request => cases hkind
  | false => exact (move?_other h hkind).origin

/-- No move takes back what the cache knows. Jobs are sent off only if they are not waited for. -/
theorem move?_grows [Medium σ] {activity : Activity ρ} {move : Move ρ}
    (h : activity.move? now c store move = some step) :
    c.Grows step.cache ∧ (c.config.detachesUpkeep = false → step.spawned = []) := by
  cases hkind : activity.isRead with
  | true =>
    cases activity with
    | read query format before =>
      obtain ⟨turn, hturn, -, hcache, -, hspawned⟩ :=
        move?_read (.free now c store query format before _) h
      rw [hcache, hspawned]
      exact ⟨hturn.grows, hturn.spawned⟩
    | change | job | request => cases hkind
  | false =>
    have hother := move?_other h hkind
    exact ⟨hother.grows, hother.spawned⟩

end Activity

end ReadThrough
