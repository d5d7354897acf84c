import ReadThrough.Proofs.Flights.LateReads
import ReadThrough.Proofs.Freshness.Provenance
import ReadThrough.Proofs.Reads.Laws
import ReadThrough.Proofs.Store.Media

/-! # Reads after a sweep are fresh

After a change that names no keys has returned, a read of the table that starts later returns only
what was fetched since: whether the store answers it, from any namespace, or the leader of a flight,
or the data source itself.

* `Fresh` is the invariant of the run after the change: everything that a read of the table could be
  served was fetched since;
* `Fresh.of_turn` and `Fresh.of_calm` are its preservation;
* `reads_after_sweep_are_fresh` is the theorem.
-/

namespace ReadThrough
set_option autoImplicit false

variable {ρ σ : Type} [Medium σ] [LawfulMedium σ]

/-! ## The invariant -/

namespace World

/-- There is a read with this number, of this query and in this format. -/
def Knows (w : World ρ σ) (i : ActivityId) (query : Query) (format : RowFormat ρ) : Prop :=
  ∃ stage, w.Reads i query format stage

/-- Since the world `w₁`, with these events, all that the store and the flights have for reads of the
table was fetched. Reads that had ended by then do not count. -/
structure Fresh (w₁ : World ρ σ) (table : String) (log : List (Event ρ)) (w : World ρ σ) :
    Prop where
  tidy : Tidy w
  led : Led w
  cached : w.node.cache.config.caches table
  length : w₁.flights.all.length ≤ w.flights.all.length
  reads : ∀ i query format stage, w.Reads i query format stage → query.table = table →
    (∃ answer, stage = .ended answer ∧ w₁.Reads i query format (.ended answer)) ∨
      FreshStage w.Knows w.node.cache w₁.flights.all.length log i query format stage
  leading : ∀ i query format stage flight, w.Reads i query format stage → stage.leads? = some flight →
    .joined i query (.leader flight) ∈ log
  held : ∀ key value, w.Holds key value → w.node.cache.Serves table key →
    FreshEntry w.node.cache log table key value
  stores : ∀ i query format stage key value, w.Reads i query format stage →
    (Activity.read query format stage).Stores key value →
      FreshEntry w.node.cache log table key value
  registered : ∀ (key : String) (flight : FlightId), w.flights.registry[key]? = some flight →
    w₁.flights.all.length ≤ flight
  left : ∀ flight query outcome, query.table = table → w₁.flights.all.length ≤ flight →
    w.flights.profile? flight = some (query.flightName, .completed outcome) →
      FreshOutcome w.Knows log query outcome

variable {w₁ w w' : World ρ σ} {table : String} {log : List (Event ρ)}

omit [Medium σ] [LawfulMedium σ] in
theorem KeepsReads.knows (h : KeepsReads (fun _ => False) w w') (i : ActivityId) (query : Query)
    (format : RowFormat ρ) (known : w.Knows i query format) : w'.Knows i query format := by
  obtain ⟨stage, hread⟩ := known
  exact ⟨stage, h.kept i query format stage not_false hread⟩

theorem not_stores_of_ready {query : Query} {format : RowFormat ρ} (key value : String) :
    ¬ (Activity.read query format .ready).Stores key value :=
  Activity.not_stores_of_origin rfl key value

/-- When no read is under way and nothing is served, nothing is stale. -/
theorem Fresh.of_none_served (tidy : Tidy w) (led : Led w) (cached : w.node.cache.config.caches table)
    (resting : Resting w) (none : ∀ key value, w.Holds key value → ¬ w.node.cache.Serves table key) :
    Fresh w table [] w := by
  refine ⟨tidy, led, cached, Nat.le_refl _, ?_, ?_, ?_, ?_, ?_, ?_⟩
  · intro i query format stage hread _
    rcases resting i query format stage hread with rfl | ⟨answer, rfl⟩
    · exact .inr trivial
    · exact .inl ⟨answer, rfl, hread⟩
  · intro i query format stage flight hread hleads
    rcases resting i query format stage hread with rfl | ⟨answer, rfl⟩ <;> cases hleads
  · intro key value held serves
    exact absurd serves (none key value held)
  · intro i query format stage key value hread hstores
    obtain ⟨flight, result, outcome, jobs, rfl, -⟩ := Activity.of_read_stores hstores
    rcases resting i query format _ hread with hready | ⟨answer, hended⟩
    · cases hready
    · cases hended
  · intro key flight hregistered
    -- a registered flight runs, and a running flight has a leader under way
    obtain ⟨f, hf, hkey, hopen⟩ := led.exact.sound key flight hregistered
    obtain ⟨i, query, format, stage, hread, hleads⟩ :=
      led.led flight key (by simp [Flights.profile?, hf, hkey, hopen.1])
    rcases resting i query format stage hread with rfl | ⟨answer, rfl⟩
    · cases hleads
    · cases hleads
  · intro flight query outcome _ hle hprofile
    exact absurd (Flights.lt_length_of_profile? hprofile) (Nat.not_lt.mpr hle)

theorem Fresh.of_calm (h : Fresh w₁ table log w) (calm : Calm w w') (tidy : Tidy w') (led : Led w')
    (length : w.flights.all.length ≤ w'.flights.all.length) (events : List (Event ρ)) :
    Fresh w₁ table (log ++ events) w' := by
  refine ⟨tidy, led, calm.grows.config ▸ h.cached, Nat.le_trans h.length length, ?_, ?_, ?_, ?_, ?_, ?_⟩
  · intro i query format stage hread htable
    rcases calm.reads.old i query format stage not_false hread with hold | ⟨rfl, -⟩
    · rcases h.reads i query format stage hold htable with hended | hfresh
      · exact .inl hended
      · exact .inr (hfresh.append calm.grows calm.reads.knows events)
    · exact .inr trivial
  · intro i query format stage flight hread hleads
    rcases calm.reads.old i query format stage not_false hread with hold | ⟨rfl, -⟩
    · exact List.mem_append_left events (h.leading i query format stage flight hold hleads)
    · cases hleads
  · intro key value held serves
    exact (h.held key value (calm.held key value held) (calm.grows.serves_iff.mp serves)).append
      calm.grows.space events
  · intro i query format stage key value hread hstores
    rcases calm.reads.old i query format stage not_false hread with hold | ⟨rfl, -⟩
    · exact (h.stores i query format stage key value hold hstores).append calm.grows.space events
    · exact absurd hstores (not_stores_of_ready key value)
  · intro key flight hregistered
    exact h.registered key flight (calm.registry key flight hregistered)
  · intro flight query outcome htable hle hprofile
    rw [calm.profile] at hprofile
    exact (h.left flight query outcome htable hle hprofile).append calm.reads.knows events

/-! ## Turns of reads -/

theorem tells_events {move : Move ρ} {query : Query} {format : RowFormat ρ}
    {before after : ReadStage ρ} {asks : Bool} :
    Tells (move.events query format before after asks) move.activity query format
      move.outcome? := by
  intro outcome houtcome
  simp [Move.events, houtcome]

section

variable {move : Move ρ} {query : Query} {format : RowFormat ρ} {before : ReadStage ρ}
  {step : ActivityStep ρ σ} {events : List (Event ρ)}

omit [LawfulMedium σ] in
theorem tells_of_turn (was : w.Reads move.activity query format before)
    (taken : (Activity.read query format before).move? w.now w.node.cache w.store move = some step) :
    Tells (w.events (w.after move.activity step) (.move move)) move.activity query format
      move.outcome? := by
  obtain ⟨turn, -, hactivity, -⟩ :=
    Activity.move?_read (.free w.now w.node.cache w.store query format _ _) taken
  have hmover := after_activities_mover was step
  rw [hactivity] at hmover
  rw [events_of_read move was hmover]
  exact tells_events

omit [Medium σ] [LawfulMedium σ] in
theorem knows_after {after : ReadStage ρ} (was : w.Reads move.activity query format before)
    (is : (w.after move.activity step).Reads move.activity query format after) (i : ActivityId)
    (query' : Query) (format' : RowFormat ρ) (known : w.Knows i query' format') :
    (w.after move.activity step).Knows i query' format' := by
  obtain ⟨stage, hread⟩ := known
  by_cases hi : i = move.activity
  · subst hi
    obtain ⟨rfl, rfl, rfl⟩ := was.inj hread
    exact ⟨_, is⟩
  · exact ⟨stage, (keepsReads_after w move.activity step).kept i _ _ _ hi hread⟩

/-- A read that takes a turn started late, if it is one of the table: one that has ended takes none. -/
theorem Fresh.stage_of_mover (h : Fresh w₁ table log w)
    (was : w.Reads move.activity query format before)
    (taken : (Activity.read query format before).move? w.now w.node.cache w.store move = some step)
    (same : query.table = table) :
    FreshStage w.Knows w.node.cache w₁.flights.all.length log move.activity query format before := by
  rcases h.reads _ _ _ _ was same with ⟨answer, rfl, -⟩ | hfresh
  · obtain ⟨turn, hturn, -⟩ :=
      Activity.move?_read (.free w.now w.node.cache w.store query format _ _) taken
    exact absurd hturn.flights FlightTurn.not_of_ended
  · exact hfresh

theorem Fresh.takes (h : Fresh w₁ table log w)
    (was : w.Reads move.activity query format before)
    (taken : (Activity.read query format before).move? w.now w.node.cache w.store move = some step)
    (happens : w.events (w.after move.activity step) (.move move) = events) :
    ∃ turn : Turn (ReadStage ρ), step.activity = .read query format turn.stage ∧
      step.cache = turn.cache ∧ Read.Takes
        (fun stage _ => query.table = table → FreshStage w.Knows w.node.cache w₁.flights.all.length
          (log ++ events) move.activity query format stage)
        (fun outcome _ => query.table = table → FreshOutcome w.Knows (log ++ events) query outcome)
        w.node.cache query format before turn := by
  have hrules : query.table = table → StageRules
      (fun stage asks => (asks → .asked move.activity query ∈ events) →
        FreshStage w.Knows w.node.cache w₁.flights.all.length (log ++ events) move.activity query format
          stage)
      (fun outcome _ => FreshOutcome w.Knows (log ++ events) query outcome) w.now w.node.cache w.store
        query format before move.outcome? := by
    intro htable
    have hstage := h.stage_of_mover was taken htable
    refine hstage.rules ⟨_, was⟩ (fun flight hleads => h.leading _ _ _ _ flight was hleads) ?_ ?_ ?_ ?_
      (happens ▸ tells_of_turn was taken)
    · rw [htable]
      exact h.cached
    · rw [htable]
      exact h.held
    · exact fun flight hregistered => h.registered _ flight hregistered
    · rintro flight outcome rfl hleft
      obtain ⟨state, hprofile⟩ := h.led.follows _ _ _ _ was
      have hstate := Flights.state?_of_profile? hprofile
      obtain rfl := Option.some.inj (hstate.symm.trans hleft)
      exact h.left flight query outcome htable hstage hprofile
  obtain ⟨turn, hturn, hactivity, hcache, hfetches, -⟩ := Activity.move?_read (.imp hrules) taken
  have hasked : turn.fetches → .asked move.activity query ∈ events := by
    intro hasks
    have hmover := after_activities_mover was step
    rw [hactivity] at hmover
    rw [← happens, events_of_read move was hmover]
    refine asked_mem_events.mpr ⟨rfl, rfl, ?_⟩
    simp [after, hfetches, hasks]
  exact ⟨turn, hactivity, hcache, { hturn with stage := fun htable => hturn.stage htable hasked }⟩

/-- What a read stores after its turn is fresh: it was going to store it before, or fetched it just
now. -/
theorem Fresh.stores_of_turn (h : Fresh w₁ table log w) (free : ColonFree table)
    (was : w.Reads move.activity query format before)
    (taken : (Activity.read query format before).move? w.now w.node.cache w.store move = some step)
    (happens : w.events (w.after move.activity step) (.move move) = events)
    {key value : String} (stores : step.activity.Stores key value) :
    FreshEntry step.cache (log ++ events) table key value := by
  have hgrows := (Activity.move?_grows taken).1
  rcases (Activity.move?_entries taken).stores key value stores with hbefore | hsupplies
  · exact (h.stores _ _ _ _ key value was hbefore).append hgrows.space events
  · obtain ⟨flight, result, rfl, houtcome, hfills⟩ := hsupplies.of_read
    have hfetch : query.table = table → Fetched (log ++ events) query format result := by
      intro htable
      obtain ⟨later, hlater⟩ := tells_of_turn was taken _ houtcome
      exact .of_delivered (h.stage_of_mover was taken htable) (happens ▸ hlater)
    have hentry := (hfills.fresh (h.tidy.plain _ _ was) free hfetch).append hgrows.space []
    rwa [List.append_nil] at hentry

/-- What the flights have left after a turn of a read is fresh: it was left before, or by the read to
those who read alike. -/
theorem Fresh.left_of_turn (h : Fresh w₁ table log w) (free : ColonFree table)
    (was : w.Reads move.activity query format before)
    (taken : (Activity.read query format before).move? w.now w.node.cache w.store move = some step)
    (happens : w.events (w.after move.activity step) (.move move) = events)
    {flight : FlightId} {query' : Query} {outcome : Outcome} (same : query'.table = table)
    (late : w₁.flights.all.length ≤ flight)
    (left : step.cache.flights.profile? flight = some (query'.flightName, .completed outcome)) :
    FreshOutcome w.Knows (log ++ events) query' outcome := by
  obtain ⟨turn, -, hcache, hturn⟩ := h.takes was taken happens
  rw [hcache] at left
  have hkept : ∀ i query format, w.Knows i query format → w.Knows i query format := fun _ _ _ => id
  rcases hturn.leaves flight _ outcome left with hbefore | ⟨-, -, -, hleaves⟩
  · exact (h.left flight query' outcome same late hbefore).append hkept events
  · rcases h.led.of_completed was hturn.flights left with hbefore | hkey
    · exact (h.left flight query' outcome same late hbefore).append hkept events
    · obtain ⟨htable, htext⟩ := of_flightName (same ▸ free) (h.tidy.plain _ _ was) hkey
      have hfresh := hleaves (htable.symm.trans same)
      exact hfresh.of_alike ⟨htable.symm, htext.symm⟩

theorem Fresh.of_turn (h : Fresh w₁ table log w) (free : ColonFree table)
    (was : w.Reads move.activity query format before)
    (taken : (Activity.read query format before).move? w.now w.node.cache w.store move = some step) :
    Fresh w₁ table (log ++ w.events (w.after move.activity step) (.move move))
      (w.after move.activity step) := by
  have hacts : w.act? (.move move) = some (w.after move.activity step) :=
    act?_move_iff.mpr ⟨_, step, was, taken, rfl⟩
  have hstep := act?_flightStep hacts
  have hplain : w.Plain (.move move) := trivial
  generalize happens : w.events (w.after move.activity step) (.move move) = events at hstep ⊢
  obtain ⟨turn, hactivity, hcache, hturn⟩ := h.takes was taken happens
  have hgrows : w.node.cache.Grows step.cache := hcache ▸ hturn.grows
  have hmover : (w.after move.activity step).Reads move.activity query format turn.stage :=
    (after_activities_mover was step).trans (congrArg some hactivity)
  have hold : ∀ {i query' format' stage}, i ≠ move.activity →
      (w.after move.activity step).Reads i query' format' stage →
      w.Reads i query' format' stage ∨ stage = .ready := by
    intro i query' format' stage hi hread
    exact ((keepsReads_after w move.activity step).old i _ _ _ hi hread).imp id And.left
  have hknows := knows_after was hmover
  refine ⟨h.tidy.step hplain hacts, hstep.led h.led, ?_,
    Nat.le_trans h.length hstep.length_le, ?_, ?_, ?_, ?_, ?_, ?_⟩
  · show step.cache.config.caches table
    rw [hgrows.config]
    exact h.cached
  · intro i query' format' stage hread htable
    by_cases hi : i = move.activity
    · subst hi
      obtain ⟨rfl, rfl, rfl⟩ := World.Reads.inj hmover hread
      have hfresh := (hturn.stage htable).append hgrows hknows []
      rw [List.append_nil] at hfresh
      exact .inr hfresh
    · rcases hold hi hread with hbefore | rfl
      · rcases h.reads i query' format' stage hbefore htable with hended | hfresh
        · exact .inl hended
        · exact .inr (hfresh.append hgrows hknows events)
      · exact .inr trivial
  · intro i query' format' stage flight hread hleads
    by_cases hi : i = move.activity
    · subst hi
      obtain ⟨rfl, rfl, rfl⟩ := World.Reads.inj hmover hread
      rcases hturn.flights.of_leads hleads with hled | hjoined
      · exact List.mem_append_left events (h.leading _ _ _ _ flight was hled)
      · rw [← happens, events_of_read move was hmover]
        exact List.mem_append_right log (joined_mem_events.mpr ⟨rfl, rfl, hjoined⟩)
    · rcases hold hi hread with hbefore | rfl
      · exact List.mem_append_left events (h.leading i query' format' stage flight hbefore hleads)
      · cases hleads
  · intro key value held serves
    rcases (Activity.move?_entries taken).held key value held with hbefore | hstores
    · exact (h.held key value hbefore (hgrows.serves_iff.mp serves)).append hgrows.space events
    · exact (h.stores _ _ _ _ key value was hstores).append hgrows.space events
  · intro i query' format' stage key value hread hstores
    by_cases hi : i = move.activity
    · subst hi
      obtain ⟨rfl, rfl, rfl⟩ := World.Reads.inj hmover hread
      exact h.stores_of_turn free was taken happens (hactivity ▸ hstores)
    · rcases hold hi hread with hbefore | rfl
      · exact (h.stores i query' format' stage key value hbefore hstores).append hgrows.space events
      · exact absurd hstores (not_stores_of_ready key value)
  · intro key flight hregistered
    rcases hstep.of_registered hregistered with hbefore | ⟨i, query', hjoined⟩
    · exact h.registered key flight hbefore
    · have hnew := (hstep.of_leaderJoined ⟨i, query', hjoined⟩).1
      exact hnew ▸ h.length
  · intro flight query' outcome htable hle hprofile
    have hfresh := (h.left_of_turn free was taken happens htable hle hprofile).append hknows []
    rwa [List.append_nil] at hfresh

end

/-! ## Runs after a sweep -/

/-- Table names are free of colons, the store belongs to the cache alone, and no direct operation
moves that stores something. -/
def WithoutPuts (w : World ρ σ) (action : Action ρ σ) : Prop :=
  w.Plain action ∧ w.Moves (fun activity => activity.isRead ∨ activity.fills? = none) action

instance (w : World ρ σ) (action : Action ρ σ) : Decidable (w.WithoutPuts action) :=
  inferInstanceAs (Decidable (w.Plain action ∧
    w.Moves (fun activity => activity.isRead ∨ activity.fills? = none) action))

theorem Fresh.run {events : List (Event ρ)} (h : Fresh w₁ table log w) (free : ColonFree table)
    (run : Runs WithoutPuts w events w') : Fresh w₁ table (log ++ events) w' := by
  induction run with
  | refl => simpa using h
  | @step past w' w'' action _ admitted acts ih =>
    have hcalm : w'.Moves (·.fills? = none) action →
        Fresh w₁ table (log ++ (past ++ w'.events w'' action)) w'' := by
      intro hidle
      have hstep := act?_flightStep acts
      rw [← List.append_assoc]
      exact ih.of_calm (act?_calm ih.tidy admitted.1 hidle acts) (ih.tidy.step admitted.1 acts)
        (hstep.led ih.led) hstep.length_le _
    cases action with
    | move move =>
      obtain ⟨activity, step, found, taken, rfl⟩ := act?_move_iff.mp acts
      rcases admitted.2 activity found with hread | hidle
      · cases activity with
        | read query format before =>
          rw [← List.append_assoc]
          exact ih.of_turn free found taken
        | change | job | request => cases hread
      · refine hcalm fun other hother => ?_
        obtain rfl := Option.some.inj (found.symm.trans hother)
        exact hidle
    | _ => exact hcalm trivial

/-- After a change that updates or deletes rows and names no keys, called while no read is under way
and undisturbed until it returns, every read of the table that ends later with a result returns one
that was fetched since, in any run without direct operations that store something. -/
theorem reads_after_sweep_are_fresh {start w₀ w₂ : World ρ σ} {before during : List (Event ρ)}
    {writer : ActivityId} {change : Change} (new : start.IsNew)
    (waits : start.node.cache.config.detachesUpkeep = false)
    (reliable : LawfulMedium.Reliable start.store) (empty : ∀ key value, ¬ start.Holds key value)
    (earlier : Runs Plain start before w₀) (resting : Resting w₀)
    (called : w₀.node.activities[writer]? = some (.change change .ready))
    (effective : w₀.node.cache.Heeds change) (sweeps : change.SweepsAll)
    (sweep : Runs Undisturbed w₀ during w₁)
    (returned : w₁.node.activities[writer]? = some (.change change .ended))
    (later : Runs WithoutPuts w₁ log w₂) {i : ActivityId} {query : Query} {format : RowFormat ρ}
    {answer : Option (ResultSet ρ)} (same : query.table = change.table)
    (late : ∀ answer, ¬ w₁.Reads i query format (.ended answer))
    (ended : w₂.Reads i query format (.ended (.returned (.ok answer)))) :
    FreshAnswer w₂.Knows log query format answer := by
  have htidy₀ : Tidy w₀ := (Tidy.of_new new waits reliable empty).run (fun _ _ h => h) earlier
  have htidy₁ : Tidy w₁ := htidy₀.run (fun _ _ h => h.1) sweep
  have hled₁ : Led w₁ := ((Led.of_new new).run earlier).run sweep
  have hfree : ColonFree change.table := htidy₀.plain _ _ called
  obtain ⟨hresting, hgrows, hnone⟩ :=
    none_served_of_sweep htidy₀ resting called (Cache.isInvalidatedBy_iff.mpr effective) sweeps sweep
      returned
  have hcached : w₁.node.cache.config.caches change.table := by
    rw [hgrows.config]
    exact Configuration.caches_iff.mpr ⟨effective.level, effective.listed⟩
  have hfresh : Fresh w₁ change.table log w₂ :=
    (Fresh.of_none_served htidy₁ hled₁ hcached hresting hnone).run hfree later
  rcases hfresh.reads i query format _ ended same with ⟨answer', -, hbefore⟩ | hstage
  · exact absurd hbefore (late answer')
  · exact hstage answer rfl

/-- A read that fetches one number and stores it, as the activity of this number. -/
def fetchingRead (i : ActivityId) (n : Int64) : List (Action Row RecordingStore) :=
  [.read usersRead Row.integers, .move (.go i), .move (.go i), .move (.go i),
    .move (.deliver i (.answered (some (.one (.integer n))))), .move (.goJob i 0),
    .move (.goJob i 0), .move (.goJob i 1), .move (.goJob i 1), .move (.go i)]

/-- The invalidation of the activity of this number, from its first turn to its return. -/
def wholeSweep (i : ActivityId) : List (Action Row RecordingStore) :=
  [.move (.go i), .move (.goJob i 0), .move (.goJob i 0), .move (.goJob i 1), .move (.goJob i 1),
    .move (.go i)]

def storedRead (i : ActivityId) : List (Action Row RecordingStore) :=
  [.read usersRead Row.integers, .move (.go i), .move (.go i), .move (.go i)]

def returnedNumber (n : Int64) : Activity Row :=
  .read usersRead Row.integers (.ended (.returned (.ok (some (.one (.integer n))))))

theorem Resting.of_activities {w : World Row RecordingStore} {n : Int64}
    (h : w.node.activities = [returnedNumber n, .change usersChange .ready]) : Resting w := by
  intro i query format stage hread
  rw [Reads, h] at hread
  rcases i with _ | _ | i
  · obtain ⟨-, -, rfl⟩ := Activity.read.inj (Option.some.inj hread)
    exact .inr ⟨_, rfl⟩
  · cases hread
  · cases hread

/-- A read stores what it fetched, a change sweeps it, another read fetches and stores another number,
and a third one is answered by the store. -/
theorem stored_read_after_sweep_is_fresh :
    ∃ (w₀ w₁ w₂ : World Row RecordingStore) (before during log : List (Event Row)),
      atRest.IsNew ∧ atRest.node.cache.config.detachesUpkeep = false ∧
      LawfulMedium.Reliable atRest.store ∧ (∀ key value, ¬ atRest.Holds key value) ∧
      Runs Plain atRest before w₀ ∧ Resting w₀ ∧
      w₀.node.activities[1]? = some (.change usersChange .ready) ∧
      w₀.node.cache.Heeds usersChange ∧ usersChange.SweepsAll ∧
      Runs Undisturbed w₀ during w₁ ∧
      w₁.node.activities[1]? = some (.change usersChange .ended) ∧
      Runs WithoutPuts w₁ log w₂ ∧
      (∀ answer, ¬ w₁.Reads 3 usersRead Row.integers (.ended answer)) ∧
      w₂.Reads 3 usersRead Row.integers (.ended (.returned (.ok (some (.one (.integer 7)))))) ∧
      FreshAnswer w₂.Knows log usersRead Row.integers (some (.one (.integer 7))) := by
  have hrun : ((atRest.perform? Plain (fetchingRead 0 5 ++ [.change usersChange])).bind fun first =>
      (first.1.perform? Undisturbed (wholeSweep 1)).bind fun second =>
        (second.1.perform? WithoutPuts (fetchingRead 2 7 ++ storedRead 3)).map fun third =>
          (first.1.node.activities, first.1.node.cache.isInvalidatedBy usersChange,
            second.1.node.activities[1]?, second.1.node.activities[3]?,
            third.1.node.activities[3]?)) =
      some ([returnedNumber 5, .change usersChange .ready], true,
        some (.change usersChange .ended), none, some (returnedNumber 7)) := by cbv
  obtain ⟨⟨w₀, before⟩, hfirst, hrest⟩ := Option.bind_eq_some_iff.mp hrun
  obtain ⟨⟨w₁, during⟩, hsecond, hrest⟩ := Option.bind_eq_some_iff.mp hrest
  obtain ⟨⟨w₂, log⟩, hthird, hfacts⟩ := Option.map_eq_some_iff.mp hrest
  simp only [Prod.mk.injEq] at hfacts
  obtain ⟨hactivities, hheeds, returned, hlate, ended⟩ := hfacts
  have new : atRest.IsNew := ⟨⟨{}, "a", rfl⟩, rfl⟩
  have reliable : LawfulMedium.Reliable atRest.store := by
    intro method
    rfl
  have empty : ∀ key value, ¬ atRest.Holds key value := by
    intro key value held
    have hentry : (∅ : Std.TreeMap String String)[key]? = some value := held
    simp at hentry
  have called : w₀.node.activities[1]? = some (.change usersChange .ready) := by
    rw [hactivities]
    rfl
  have resting : Resting w₀ := .of_activities hactivities
  have effective : w₀.node.cache.Heeds usersChange := Cache.isInvalidatedBy_iff.mp hheeds
  have sweeps : usersChange.SweepsAll := ⟨by decide, .inl rfl, by simp [usersChange]⟩
  have late : ∀ answer, ¬ w₁.Reads 3 usersRead Row.integers (.ended answer) := by
    intro answer hread
    cases hlate.symm.trans hread
  exact ⟨w₀, w₁, w₂, before, during, log, new, rfl, reliable, empty, .of_perform? hfirst, resting,
    called, effective, sweeps, .of_perform? hsecond, returned, .of_perform? hthird, late, ended,
    reads_after_sweep_are_fresh new rfl reliable empty (.of_perform? hfirst) resting called
      effective sweeps (.of_perform? hsecond) returned (.of_perform? hthird) rfl late ended⟩

end World

end ReadThrough
