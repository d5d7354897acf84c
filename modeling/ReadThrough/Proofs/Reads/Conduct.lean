import ReadThrough.Proofs.Reads.Laws

/-! # The conduct of reads

How a read comes to its result, and how a leader comes to the outcome that it leaves: from a hit, from
an answer of the data source, or from the outcome of a flight. Which hits there can be depends on the
store; what is known of its replies is a parameter.

* `Grounds` is what is known of what a read goes by;
* `LeftBy` are the outcomes that leaders leave, `Returns` the results of reads;
* `conduct` is the law, and `conduct_rules` says that all turns keep it.
-/

namespace ReadThrough
set_option autoImplicit false

variable {ρ σ : Type}

/-! ## Results and outcomes -/

/-- What is known of the reads that go past the cache, and of the operations on the store that reads
wait for. -/
structure Grounds (ρ : Type) where
  Bypasses : Query → Prop
  Points : List (Event ρ) → Query → List CompositeKey → Operation .slots → Prop
  Search : List (Event ρ) → Query → Operation .text → Prop
  keepsPoints : ∀ log events query sought operation, Points log query sought operation →
    Points (log ++ events) query sought operation
  keepsSearch : ∀ log events query operation, Search log query operation →
    Search (log ++ events) query operation

/-- Nothing is known. -/
def Grounds.none : Grounds ρ where
  Bypasses _ := True
  Points _ _ _ _ := True
  Search _ _ _ := True
  keepsPoints _ _ _ _ _ := id
  keepsSearch _ _ _ _ := id

section

variable (grounds : Grounds ρ) (log : List (Event ρ)) (i : ActivityId) (query : Query)
  (format : RowFormat ρ)

/-- What a leader leaves, with the result that it returns itself. -/
inductive LeftBy : Outcome → ReadResult ρ → Prop
  | pointHit {sought slots payload rows}
      (replied : grounds.Points log query sought (.answered (.ok slots)))
      (hit : Read.pointPayload? sought slots = some payload)
      (read : format.decodeAll payload = some rows) :
    LeftBy (.found payload (ResultSet.many rows).rowsAffected) (.ok (some (.many rows)))
  | absence (replied : grounds.Search log query (.answered (.ok SearchEntry.absenceMark))) :
    LeftBy .notFound (.ok none)
  | searchHit {stored payload rowsAffected rows}
      (replied : grounds.Search log query (.answered (.ok stored)))
      (present : stored ≠ SearchEntry.absenceMark)
      (hit : SearchEntry.decode? stored = some (rowsAffected, payload))
      (read : format.decodeAll payload = some rows) :
    LeftBy (.found payload rowsAffected) (.ok (some ⟨rows, rowsAffected⟩))
  | notFound {result} (delivered : .delivered i query format (.answered result) ∈ log)
      (nothing : query.shape.normalize result = none) : LeftBy .notFound (.ok none)
  | found {result found payload} (delivered : .delivered i query format (.answered result) ∈ log)
      (answered : query.shape.normalize result = some found)
      (written : format.encodeAll found.rows = some payload) :
    LeftBy (.found payload found.rowsAffected) (.ok (some found))
  | failed {text} (delivered : .delivered i query format (.failed text) ∈ log) :
    LeftBy (.failed text) (.error (.dataSource text))

/-- How a read comes to its result. -/
inductive Returns : ReadResult ρ → Prop
  | left {outcome result} (left : LeftBy grounds log i query format outcome result) : Returns result
  | unwritable {result found} (delivered : .delivered i query format (.answered result) ∈ log)
      (answered : query.shape.normalize result = some found)
      (unwritten : format.encodeAll found.rows = none) : Returns (.ok (some found))
  | bypassed {result} (bypasses : grounds.Bypasses query)
      (delivered : .delivered i query format (.answered result) ∈ log) : Returns (.ok result)
  | bypassFailed {text} (bypasses : grounds.Bypasses query)
      (delivered : .delivered i query format (.failed text) ∈ log) :
    Returns (.error (.dataSource text))
  /-- It followed a flight. -/
  | adopted {flight result} (adopted : .adopted i query flight ∈ log) : Returns result

/-- What is known of a read at each stage. Who has not led a flight has not asked the data source. -/
def Conducts : ReadStage ρ → Prop
  | .ready | .following _ => ∀ asked, .asked i asked ∉ log
  | .bypassing => grounds.Bypasses query
  | .awaitingPoints _ sought operation => grounds.Points log query sought operation
  | .awaitingSearch _ operation => grounds.Search log query operation
  | .filling _ result outcome _ => LeftBy grounds log i query format outcome (.ok result)
  | .ended (.returned result) => Returns grounds log i query format result
  | .fetching _ | .ended .brokeDown | .ended .aborted => True

end

section

variable {grounds : Grounds ρ} {log : List (Event ρ)} {i : ActivityId} {query : Query}
  {format : RowFormat ρ}

theorem LeftBy.append {outcome : Outcome} {result : ReadResult ρ}
    (h : LeftBy grounds log i query format outcome result) (events : List (Event ρ)) :
    LeftBy grounds (log ++ events) i query format outcome result := by
  cases h with
  | pointHit replied hit read => exact .pointHit (grounds.keepsPoints _ _ _ _ _ replied) hit read
  | absence replied => exact .absence (grounds.keepsSearch _ _ _ _ replied)
  | searchHit replied present hit read =>
    exact .searchHit (grounds.keepsSearch _ _ _ _ replied) present hit read
  | notFound delivered nothing => exact .notFound (List.mem_append_left _ delivered) nothing
  | found delivered answered written =>
    exact .found (List.mem_append_left _ delivered) answered written
  | failed delivered => exact .failed (List.mem_append_left _ delivered)

theorem Returns.append {result : ReadResult ρ} (h : Returns grounds log i query format result)
    (events : List (Event ρ)) : Returns grounds (log ++ events) i query format result := by
  cases h with
  | left left => exact .left (left.append events)
  | unwritable delivered answered unwritten =>
    exact .unwritable (List.mem_append_left _ delivered) answered unwritten
  | bypassed bypasses delivered => exact .bypassed bypasses (List.mem_append_left _ delivered)
  | bypassFailed bypasses delivered => exact .bypassFailed bypasses (List.mem_append_left _ delivered)
  | adopted adopted => exact .adopted (List.mem_append_left _ adopted)

/-- A stage is not affected by events of others. -/
theorem Conducts.append {stage : ReadStage ρ} (h : Conducts grounds log i query format stage)
    {events : List (Event ρ)} (unasked : ∀ asked, .asked i asked ∉ events) :
    Conducts grounds (log ++ events) i query format stage := by
  cases stage with
  | ready | following =>
    intro asked hmem
    rcases List.mem_append.mp hmem with hold | hnew
    · exact h asked hold
    · exact unasked asked hnew
  | bypassing => exact h
  | awaitingPoints flight sought operation => exact grounds.keepsPoints _ _ _ _ _ h
  | awaitingSearch flight operation => exact grounds.keepsSearch _ _ _ _ h
  | fetching => trivial
  | filling flight result outcome jobs => exact LeftBy.append h events
  | ended answer =>
    cases answer with
    | returned result => exact Returns.append h events
    | brokeDown | aborted => trivial

end

/-! ## Rows that are read back -/

/-- What is written for these rows is read as these rows. -/
def RowFormat.ReadsBack (format : RowFormat ρ) (rows : List ρ) : Prop :=
  ∀ payload, format.encodeAll rows = some payload → format.decodeAll payload = some rows

def RowFormat.ReadsBackResult (format : RowFormat ρ) (result : ReadResult ρ) : Prop :=
  ∀ found, result = .ok (some found) → format.ReadsBack found.rows

/-- A follower that reads rows as its leader does adopts what the leader returned. -/
theorem LeftBy.adopt {grounds : Grounds ρ} {log : List (Event ρ)} {i : ActivityId} {query : Query}
    {format : RowFormat ρ} {outcome : Outcome} {result : ReadResult ρ}
    (h : LeftBy grounds log i query format outcome result) (back : format.ReadsBackResult result) :
    Read.adopt format outcome = result := by
  cases h with
  | pointHit replied hit read =>
    rw [Read.adopt, read]
    rfl
  | searchHit replied present hit read => rw [Read.adopt, read]
  | found delivered answered written => rw [Read.adopt, back _ rfl _ written]
  | absence | notFound | failed => rfl

/-! ## The law -/

def conduct (grounds : Grounds ρ) : ReadLaw ρ where
  Stage log i query format stage := Conducts grounds log i query format stage
  Leaves log i query format outcome result := LeftBy grounds log i query format outcome result
  starts _ _ _ _ others _ hmem := others _ hmem rfl
  keeps _ _ _ _ _ _ others h := Conducts.append h fun _ hmem => others _ hmem rfl
  keepsLeft _ _ _ _ _ _ _ h := LeftBy.append h _

/-- What a turn of a read goes by, when the read looks something up, or goes past the cache. -/
structure Grounds.Hold [Medium σ] (grounds : Grounds ρ) (log : List (Event ρ)) (now : Nat)
    (c : Cache) (store : σ) (query : Query) : Prop where
  bypasses : c.config.caches query.table = false → grounds.Bypasses query
  points : ∀ lookup sought, query.pointLookup? = some (lookup, sought) →
    grounds.Points log query sought (.asked (.getAll (c.pointKeys query.table lookup sought)))
  pointsStep : ∀ sought operation (step : StoreStep σ .slots),
    grounds.Points log query sought operation → (∀ reply, operation ≠ .answered reply) →
    Medium.step? now store operation = some step → grounds.Points log query sought step.operation
  search : grounds.Search log query (.asked (.get (c.resultKey query)))
  searchStep : ∀ operation (step : StoreStep σ .text), grounds.Search log query operation →
    (∀ reply, operation ≠ .answered reply) → Medium.step? now store operation = some step →
    grounds.Search log query step.operation

theorem Grounds.none_hold [Medium σ] (log : List (Event ρ)) (now : Nat) (c : Cache) (store : σ)
    (query : Query) : Grounds.none.Hold log now c store query :=
  ⟨fun _ => trivial, fun _ _ _ => trivial, fun _ _ _ _ _ _ => trivial, trivial,
    fun _ _ _ _ _ => trivial⟩

variable [Medium σ]

/-- A leader that returns at once leaves what it returns. -/
theorem LeftBy.concluded {grounds : Grounds ρ} {log : List (Event ρ)} {move : Move ρ} {query : Query}
    {format : RowFormat ρ} {before : ReadStage ρ} {outcome : Outcome} {result : ReadResult ρ}
    (h : LeftBy grounds (log ++ move.events query format before (.ended (.returned result)) false)
      move.activity query format outcome result) :
    (conduct grounds).LeavesAfter log move query format before outcome result ∧
      (conduct grounds).StageAfter log move query format before (.ended (.returned result)) false :=
  ⟨h, .left h⟩

theorem conduct_rules {grounds : Grounds ρ} {log : List (Event ρ)} {move : Move ρ} {query : Query}
    {format : RowFormat ρ} {before : ReadStage ρ} {now : Nat} {c : Cache} {store : σ}
    (h : Conducts grounds log move.activity query format before)
    (hold : grounds.Hold log now c store query) :
    StageRules ((conduct grounds).StageAfter log move query format before)
      ((conduct grounds).LeavesAfter log move query format before) now c store query format before
      move.outcome? := by
  -- what the data source answers in a turn is an event of the turn, whatever it leads to
  have hdelivered : ∀ {outcome} after asks, move.outcome? = some outcome →
      .delivered move.activity query format outcome ∈
        log ++ move.events query format before after asks := fun after asks houtcome =>
    List.mem_append_right _ (delivered_mem_events.mpr ⟨rfl, rfl, rfl, houtcome⟩)
  -- and what held before the turn still holds of the longer log, if the turn does not ask
  have hkept : ∀ after, Conducts grounds
      (log ++ move.events query format before after false) move.activity query format before := by
    intro after
    refine h.append fun asked hmem => ?_
    cases (asked_mem_events.mp hmem).2.2
  constructor
  case brokeDown => trivial
  case aborted => trivial
  case failed =>
    intro flight text _ houtcome
    exact LeftBy.concluded (.failed (hdelivered _ false houtcome))
  case bypass => exact hold.bypasses
  case follow =>
    intro flight joins _
    have hbefore := hkept (.following flight)
    cases before with
    | ready | following => exact hbefore
    | _ => cases joins
  case looks =>
    constructor
    case points =>
      exact fun flight lookup sought _ hlookup =>
        grounds.keepsPoints _ _ _ _ _ (hold.points lookup sought hlookup)
    case search => exact fun flight _ => grounds.keepsSearch _ _ _ _ hold.search
    case fetch => exact fun _ => trivial
  case adopt =>
    rintro flight outcome rfl _
    exact .adopted (List.mem_append_right _ (adopted_mem_events.mpr ⟨rfl, rfl, rfl⟩))
  case pointsGoOn =>
    rintro flight sought operation step rfl hunanswered htaken
    exact grounds.keepsPoints _ _ _ _ _ (hold.pointsStep sought operation step h hunanswered htaken)
  case pointHit =>
    rintro flight sought slots payload rows rfl hpayload hrows
    exact LeftBy.concluded (.pointHit (hkept _) hpayload hrows)
  case searchGoOn =>
    rintro flight operation step rfl hunanswered htaken
    exact grounds.keepsSearch _ _ _ _ (hold.searchStep operation step h hunanswered htaken)
  case absence =>
    rintro flight rfl
    exact LeftBy.concluded (.absence (hkept _))
  case searchHit =>
    rintro flight stored rowsAffected payload rows rfl hpresent hdecoded hrows
    exact LeftBy.concluded (.searchHit (hkept _) hpresent hdecoded hrows)
  case notFound =>
    intro flight result _ houtcome hnothing
    obtain ⟨hleaves, hended⟩ := LeftBy.concluded (.notFound (hdelivered _ false houtcome) hnothing)
    exact ⟨hleaves, hended, fun jobs => .notFound (hdelivered _ false houtcome) hnothing⟩
  case unwritable =>
    intro flight result found _ houtcome hfound hunwritten
    exact .unwritable (hdelivered _ false houtcome) hfound hunwritten
  case found =>
    intro flight result found payload _ houtcome hfound hpayload
    obtain ⟨hleaves, hended⟩ :=
      LeftBy.concluded (.found (hdelivered _ false houtcome) hfound hpayload)
    exact ⟨hleaves, hended, fun jobs => .found (hdelivered _ false houtcome) hfound hpayload⟩
  case filling =>
    rintro flight result outcome jobs rfl
    exact ⟨hkept _, .left (hkept (.ended (.returned (.ok result)))), fun jobs' => hkept _⟩
  case bypassed =>
    rintro result rfl houtcome
    exact .bypassed h (hdelivered _ false houtcome)
  case bypassFailed =>
    rintro text rfl houtcome
    exact .bypassFailed h (hdelivered _ false houtcome)

namespace World

variable {admits : World ρ σ → Action ρ σ → Prop} {w w' : World ρ σ} {log : List (Event ρ)}

/-- The conduct of reads on any store, in any run. -/
theorem conducted_of_run (new : w.IsNew) (run : Runs admits w log w') :
    Obeys (conduct .none) log w' := by
  induction run with
  | refl => exact .of_new new
  | step action _ _ acts ih =>
    exact ih.step acts fun move query format before _ was =>
      conduct_rules (ih.reads _ _ _ _ was) (Grounds.none_hold _ _ _ _ _)

/-- Who has returned what a flight had left still has it, and the flight still shows it. -/
theorem adopted_of_run (new : w.IsNew) (run : Runs admits w log w') {i : ActivityId} {query : Query}
    {flight : FlightId} (adopted : .adopted i query flight ∈ log) :
    ∃ format outcome, w'.flights.profile? flight = some (query.flightName, .completed outcome) ∧
      w'.Reads i query format (.ended (.returned (Read.adopt format outcome))) := by
  induction run with
  | refl => cases adopted
  | step action run _ acts ih =>
    have hled := (Led.of_new new).run run
    have hstep := act?_flightStep acts
    rcases List.mem_append.mp adopted with hold | hnew
    · obtain ⟨format, outcome, hprofile, hread⟩ := ih hold
      exact ⟨format, outcome, hstep.keeps_ended hled (by simp) hprofile, hstep.keeps_answer hread⟩
    · obtain ⟨format, outcome, hfollowed, hleft, hflights, hread⟩ := hstep.of_adopted hnew
      obtain ⟨state, hprofile⟩ := hled.follows i query format flight hfollowed
      obtain rfl := Option.some.inj ((Flights.state?_of_profile? hprofile).symm.trans hleft)
      exact ⟨format, outcome, hflights ▸ hprofile, hread⟩

/-- A read that followed a flight returned what the leader of the flight has left. -/
theorem Obeys.of_adopted {grounds : Grounds ρ} (obeys : Obeys (conduct grounds) log w')
    (new : w.IsNew) (run : Runs admits w log w') {i : ActivityId} {query : Query}
    {format : RowFormat ρ} {result : ReadResult ρ} {flight : FlightId}
    (read : w'.Reads i query format (.ended (.returned result)))
    (adopted : .adopted i query flight ∈ log) :
    ∃ outcome leader query' format' result', Read.adopt format outcome = result ∧
      query'.flightName = query.flightName ∧ .joined leader query' (.leader flight) ∈ log ∧
      w'.Reads leader query' format' (.ended (.returned result')) ∧
      LeftBy grounds log leader query' format' outcome result' := by
  obtain ⟨format₀, outcome, hprofile, hended⟩ := adopted_of_run new run adopted
  obtain ⟨-, rfl, hstage⟩ := read.inj hended
  obtain rfl := Answer.returned.inj (ReadStage.ended.inj hstage)
  obtain ⟨leader, query', format', result', halike, hled, hreturned, hleft⟩ :=
    obeys.left flight _ outcome hprofile
  exact ⟨outcome, leader, query', format', result', rfl, halike, hled, hreturned, hleft⟩

end World

end ReadThrough
