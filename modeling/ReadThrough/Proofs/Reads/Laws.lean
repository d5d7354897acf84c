import ReadThrough.Proofs.Flights.Leaders

/-! # Laws of reads

Some properties hold of every read on its own, given what has happened so far: of where it stands, and
of the outcome that it leaves as a leader. To establish one it is enough to look at single turns.

* `World.act?_cases`: an action is a turn of one read, or it leaves all reads as they are;
* `ReadLaw` is such a property, and `World.Obeys` says that a world obeys it, together with who the
  leaders were that left what the followers get;
* `Obeys.step`: a step keeps the law, if turns do.
-/

namespace ReadThrough
set_option autoImplicit false

variable {ρ σ : Type}

/-! ## Whose events -/

def Event.reader : Event ρ → ActivityId
  | .delivered reader _ _ _ | .joined reader _ _ | .asked reader _ | .adopted reader _ _ => reader

def Event.query : Event ρ → Query
  | .delivered _ query _ _ | .joined _ query _ | .asked _ query | .adopted _ query _ => query

/-- The row format in which the data source answered. -/
def Event.format? : Event ρ → Option (RowFormat ρ)
  | .delivered _ _ format _ => some format
  | .joined _ _ _ | .asked _ _ | .adopted _ _ _ => none

/-- The event is one of a read of this query in this row format. -/
def Event.IsOf (event : Event ρ) (query : Query) (format : RowFormat ρ) : Prop :=
  event.query = query ∧ ∀ format', event.format? = some format' → format' = format

theorem of_mem_events {move : Move ρ} {query : Query} {format : RowFormat ρ}
    {before after : ReadStage ρ} {asks : Bool} {event : Event ρ}
    (h : event ∈ move.events query format before after asks) :
    event.reader = move.activity ∧ event.IsOf query format := by
  cases event with
  | delivered i q f outcome =>
    obtain ⟨hi, hq, hf, -⟩ := delivered_mem_events.mp h
    refine ⟨hi.symm, hq.symm, ?_⟩
    rintro _ ⟨⟩
    exact hf.symm
  | joined i q role =>
    obtain ⟨hi, hq, -⟩ := joined_mem_events.mp h
    exact ⟨hi.symm, hq.symm, by simp [Event.format?]⟩
  | asked i q =>
    obtain ⟨hi, hq, -⟩ := asked_mem_events.mp h
    exact ⟨hi.symm, hq.symm, by simp [Event.format?]⟩
  | adopted i q flight =>
    obtain ⟨hi, hq, -⟩ := adopted_mem_events.mp h
    exact ⟨hi.symm, hq.symm, by simp [Event.format?]⟩

/-- The events of a turn begin with those of the same turn if it does not ask. -/
theorem Move.events_of_asks (move : Move ρ) (query : Query) (format : RowFormat ρ)
    (before after : ReadStage ρ) (asks : Bool) :
    ∃ rest, move.events query format before after asks =
      move.events query format before after false ++ rest :=
  ⟨if asks then [.asked move.activity query] else [], by simp [Move.events]⟩

/-! ## Turns of reads, and everything else -/

/-- A read that leads a flight after a turn led it before, or has just joined it. -/
theorem FlightTurn.of_leads {query : Query} {format : RowFormat ρ} {flights flights' : Flights Outcome}
    {before after : ReadStage ρ} (turn : FlightTurn query format flights before flights' after)
    {flight : FlightId} (h : after.leads? = some flight) :
    before.leads? = some flight ∨ before.joined? after = some (.leader flight) := by
  cases turn with
  | goOn active alone same => exact .inl (ReadStage.leads?_of_role? same ▸ h)
  | lead joins free leads =>
    right
    rw [← ReadStage.role?_of_leads h]
    cases before with
    | ready | following => rfl
    | _ => cases joins
  | follow | finish | adopt | quit => cases h

namespace World

section

variable {w w' : World ρ σ} {move : Move ρ} {query : Query} {format : RowFormat ρ}
  {step : ActivityStep ρ σ}

theorem reader_of_mem_events {event : Event ρ}
    (h : event ∈ w.events w' (.move move)) : event.reader = move.activity := by
  simp only [events] at h
  split at h
  · exact (of_mem_events h).1
  · cases h

theorem events_after {before stage : ReadStage ρ}
    (was : w.Reads move.activity query format before)
    (is : step.activity = .read query format stage) :
    w.events (w.after move.activity step) (.move move) =
      move.events query format before stage step.fetches := by
  have hmover := after_activities_mover was step
  rw [is] at hmover
  rw [events_of_read move was hmover]
  congr 1
  cases hf : step.fetches <;> simp [after, hf]

end

/-- All reads stay as they are, new ones have not begun, and what became of flights stays. -/
structure Aside (w w' : World ρ σ) : Prop where
  reads : KeepsReads (fun _ => False) w w'
  profile : ∀ flight, w'.flights.profile? flight = w.flights.profile? flight

variable [Medium σ] {w w' : World ρ σ} {action : Action ρ σ} {log : List (Event ρ)}

theorem act?_cases (acts : w.act? action = some w') :
    (∃ move query format before step, action = .move move ∧
      w.Reads move.activity query format before ∧
      (Activity.read query format before).move? w.now w.node.cache w.store move = some step ∧
      w' = w.after move.activity step) ∨
    (w.events w' action = [] ∧ Aside w w') := by
  cases action with
  | read query format =>
    obtain rfl := Option.some.inj acts
    exact .inr ⟨rfl, keepsReads_enter (by rintro _ _ _ ⟨⟩; rfl), fun _ => rfl⟩
  | change event =>
    obtain rfl := Option.some.inj acts
    exact .inr ⟨rfl, keepsReads_enter (by rintro _ _ _ ⟨⟩), fun _ => rfl⟩
  | request asked =>
    obtain rfl := Option.some.inj acts
    exact .inr ⟨rfl, keepsReads_enter (by rintro _ _ _ ⟨⟩), fun _ => rfl⟩
  | forget query =>
    obtain rfl := Option.some.inj acts
    exact .inr ⟨rfl, keepsReads_of_activities rfl, Flights.profile?_forget _ _⟩
  | wait nanos =>
    obtain rfl := Option.some.inj acts
    exact .inr ⟨rfl, keepsReads_of_activities rfl, fun _ => rfl⟩
  | disturb store =>
    obtain rfl := Option.some.inj acts
    exact .inr ⟨rfl, keepsReads_of_activities rfl, fun _ => rfl⟩
  | move move =>
    obtain ⟨activity, step, found, taken, rfl⟩ := act?_move_iff.mp acts
    cases hkind : activity.isRead with
    | true =>
      cases activity with
      | read query format before => exact .inl ⟨move, query, format, before, step, rfl, found, taken, rfl⟩
      | change | job | request => cases hkind
    | false =>
      have hother := Activity.move?_other taken hkind
      have hreads := (keepsReads_after w move.activity step).of_other found
        (after_activities_mover found step) hkind (hother.other hkind)
      refine .inr ⟨events_of_other found hkind, hreads, fun flight => ?_⟩
      rcases hother.flights with hsame | ⟨event, -, -, hforgot⟩
      · rw [flights, after, hsame]
        rfl
      · rw [flights, after, hforgot, Flights.profile?_forgetStarting]
        rfl

/-- Who asks the data source in a step waits for it afterwards. -/
theorem of_asked (acts : w.act? action = some w') {i : ActivityId} {query : Query}
    (h : .asked i query ∈ w.events w' action) :
    ∃ format stage, w'.Reads i query format stage ∧
      (stage = .bypassing ∨ ∃ flight, stage = .fetching flight) := by
  rcases act?_cases acts with ⟨move, query', format, before, step, rfl, was, taken, rfl⟩ | ⟨hnone, -⟩
  · have hrules : StageRules
        (fun stage asks => asks = true → stage = .bypassing ∨ ∃ flight, stage = .fetching flight)
        (fun _ _ => True) w.now w.node.cache w.store query' format before move.outcome? := by
      constructor
      case looks => constructor <;> simp
      all_goals simp
    obtain ⟨turn, hturn, hactivity, -, hfetches, -⟩ := Activity.move?_read hrules taken
    rw [events_after was hactivity, asked_mem_events] at h
    obtain ⟨rfl, rfl, hasks⟩ := h
    have hmover : (w.after move.activity step).Reads move.activity query' format turn.stage :=
      (after_activities_mover was step).trans (congrArg some hactivity)
    exact ⟨format, turn.stage, hmover, hturn.stage (hfetches.symm.trans hasks)⟩
  · rw [hnone] at h
    cases h

end World

/-! ## Laws -/

/-- A property of the stages of reads, and of the outcomes that leaders leave beside what they return,
given the events so far. What happens to other reads does not matter to it. -/
structure ReadLaw (ρ : Type) where
  Stage : List (Event ρ) → ActivityId → Query → RowFormat ρ → ReadStage ρ → Prop
  Leaves : List (Event ρ) → ActivityId → Query → RowFormat ρ → Outcome → ReadResult ρ → Prop
  starts : ∀ log i query format, (∀ event ∈ log, event.reader ≠ i) → Stage log i query format .ready
  keeps : ∀ log events i query format stage, (∀ event ∈ events, event.reader ≠ i) →
    Stage log i query format stage → Stage (log ++ events) i query format stage
  keepsLeft : ∀ log events i query format outcome result, Leaves log i query format outcome result →
    Leaves (log ++ events) i query format outcome result

namespace ReadLaw

/-- The law of the stages that a turn may lead to. -/
def StageAfter (law : ReadLaw ρ) (log : List (Event ρ)) (move : Move ρ) (query : Query)
    (format : RowFormat ρ) (before stage : ReadStage ρ) (asks : Bool) : Prop :=
  law.Stage (log ++ move.events query format before stage asks) move.activity query format stage

/-- The law of the outcomes that a turn may leave. -/
def LeavesAfter (law : ReadLaw ρ) (log : List (Event ρ)) (move : Move ρ) (query : Query)
    (format : RowFormat ρ) (before : ReadStage ρ) (outcome : Outcome) (result : ReadResult ρ) : Prop :=
  law.Leaves (log ++ move.events query format before (.ended (.returned result)) false)
    move.activity query format outcome result

end ReadLaw

namespace World

/-- All reads obey a law, and so does what flights have left: it comes from their leaders, which
joined the flights as leaders and have returned. -/
structure Obeys (law : ReadLaw ρ) (log : List (Event ρ)) (w : World ρ σ) : Prop where
  led : Led w
  known : ∀ event ∈ log, ∃ query format stage, event.IsOf query format ∧
    w.Reads event.reader query format stage
  reads : ∀ i query format stage, w.Reads i query format stage → law.Stage log i query format stage
  leading : ∀ i query format stage flight, w.Reads i query format stage →
    stage.leads? = some flight → .joined i query (.leader flight) ∈ log
  left : ∀ flight key outcome, w.flights.profile? flight = some (key, .completed outcome) →
    ∃ i query format result, query.flightName = key ∧ .joined i query (.leader flight) ∈ log ∧
      w.Reads i query format (.ended (.returned result)) ∧
      law.Leaves log i query format outcome result

variable {law : ReadLaw ρ} {log : List (Event ρ)} {w w' : World ρ σ}

theorem Obeys.of_new (new : w.IsNew) : Obeys law [] w := by
  refine ⟨.of_new new, by simp, ?_, ?_, ?_⟩
  · intro i query format stage hread
    exact absurd hread (new.not_reads i query format stage)
  · intro i query format stage flight hread
    exact absurd hread (new.not_reads i query format stage)
  · intro flight key outcome hprofile
    rw [new.flights] at hprofile
    simp [Flights.profile?] at hprofile

theorem Obeys.of_aside (h : Obeys law log w) (aside : Aside w w') (led : Led w') :
    Obeys law log w' := by
  refine ⟨led, ?_, ?_, ?_, ?_⟩
  · intro event hmem
    obtain ⟨query, format, stage, hevent, hread⟩ := h.known event hmem
    exact ⟨query, format, stage, hevent, aside.reads.kept _ _ _ _ not_false hread⟩
  · intro i query format stage hread
    rcases aside.reads.old i query format stage not_false hread with hold | ⟨rfl, hnew⟩
    · exact h.reads i query format stage hold
    · refine law.starts log i query format fun event hmem hi => ?_
      obtain ⟨query', format', stage', -, hthere⟩ := h.known event hmem
      rw [Reads, hi, hnew] at hthere
      cases hthere
  · intro i query format stage flight hread hleads
    rcases aside.reads.old i query format stage not_false hread with hold | ⟨rfl, -⟩
    · exact h.leading i query format stage flight hold hleads
    · cases hleads
  · intro flight key outcome hprofile
    rw [aside.profile] at hprofile
    obtain ⟨i, query, format, result, hkey, hjoined, hread, hleaves⟩ :=
      h.left flight key outcome hprofile
    exact ⟨i, query, format, result, hkey, hjoined, aside.reads.kept _ _ _ _ not_false hread, hleaves⟩

variable [Medium σ]

theorem Obeys.of_turn {move : Move ρ} {query : Query} {format : RowFormat ρ}
    {before : ReadStage ρ} {step : ActivityStep ρ σ} (h : Obeys law log w)
    (was : w.Reads move.activity query format before)
    (taken : (Activity.read query format before).move? w.now w.node.cache w.store move = some step)
    (rules : StageRules (law.StageAfter log move query format before)
      (law.LeavesAfter log move query format before) w.now w.node.cache w.store query format before
      move.outcome?) :
    Obeys law (log ++ w.events (w.after move.activity step) (.move move))
      (w.after move.activity step) := by
  have hstep := act?_flightStep (act?_move_iff.mpr ⟨_, step, was, taken, rfl⟩)
  obtain ⟨turn, hturn, hactivity, hcache, hfetches, -⟩ := Activity.move?_read rules taken
  have hmover : (w.after move.activity step).Reads move.activity query format turn.stage :=
    (after_activities_mover was step).trans (congrArg some hactivity)
  have hevents : w.events (w.after move.activity step) (.move move) =
      move.events query format before turn.stage turn.fetches := by
    rw [events_after was hactivity, hfetches]
  have hreads := keepsReads_after w move.activity step
  have hothers : ∀ i, i ≠ move.activity →
      ∀ event ∈ w.events (w.after move.activity step) (.move move), event.reader ≠ i := by
    intro i hi event hmem hreader
    rw [hevents] at hmem
    exact hi (hreader.symm.trans (of_mem_events hmem).1)
  refine ⟨hstep.led h.led, ?_, ?_, ?_, ?_⟩
  · intro event hmem
    rcases List.mem_append.mp hmem with hold | hnew
    · obtain ⟨query', format', stage, hevent, hread⟩ := h.known event hold
      by_cases hi : event.reader = move.activity
      · rw [hi] at hread ⊢
        obtain ⟨rfl, rfl, -⟩ := was.inj hread
        exact ⟨query, format, turn.stage, hevent, hmover⟩
      · exact ⟨query', format', stage, hevent, hreads.kept _ _ _ _ hi hread⟩
    · obtain ⟨hreader, hevent⟩ := of_mem_events (hevents ▸ hnew)
      exact ⟨query, format, turn.stage, hevent, hreader ▸ hmover⟩
  · intro i query' format' stage hread
    by_cases hi : i = move.activity
    · subst hi
      obtain ⟨rfl, rfl, rfl⟩ := hmover.inj hread
      exact hevents ▸ hturn.stage
    · rcases hreads.old i query' format' stage hi hread with hold | ⟨rfl, hnew⟩
      · exact law.keeps _ _ i query' format' stage (hothers i hi) (h.reads i query' format' stage hold)
      · refine law.starts _ i query' format' fun event hmem hreader => ?_
        rcases List.mem_append.mp hmem with hold | hnow
        · obtain ⟨query'', format'', stage', -, hthere⟩ := h.known event hold
          rw [Reads, hreader, hnew] at hthere
          cases hthere
        · exact hothers i hi event hnow hreader
  · intro i query' format' stage flight hread hleads
    by_cases hi : i = move.activity
    · subst hi
      obtain ⟨rfl, rfl, rfl⟩ := hmover.inj hread
      rcases hturn.flights.of_leads hleads with hbefore | hjoined
      · exact List.mem_append_left _ (h.leading _ _ _ _ _ was hbefore)
      · exact List.mem_append_right _ (hevents ▸ joined_mem_events.mpr ⟨rfl, rfl, hjoined⟩)
    · have hold := hreads.of_role hi hread (ReadStage.role?_of_leads hleads)
      exact List.mem_append_left _ (h.leading i query' format' stage flight hold hleads)
  · intro flight key outcome hprofile
    have hprofile' : turn.cache.flights.profile? flight = some (key, .completed outcome) := by
      rwa [flights, after, hcache] at hprofile
    rcases hturn.leaves flight key outcome hprofile' with hbefore | ⟨hleads, result, hended, hleaves⟩
    · obtain ⟨i, query', format', result, hkey, hjoined, hread, hleft⟩ :=
        h.left flight key outcome hbefore
      exact ⟨i, query', format', result, hkey, List.mem_append_left _ hjoined,
        hstep.keeps_answer hread, law.keepsLeft _ _ i query' format' outcome result hleft⟩
    · have hrunning := h.led.leads _ _ _ _ _ was hleads
      have hkey : key = query.flightName := by
        rcases h.led.of_completed was hturn.flights hprofile' with hbefore | hkey
        · cases hbefore.symm.trans hrunning
        · exact hkey
      refine ⟨move.activity, query, format, result, hkey.symm,
        List.mem_append_left _ (h.leading _ _ _ _ _ was hleads), hended ▸ hmover, ?_⟩
      obtain ⟨rest, hrest⟩ := move.events_of_asks query format before turn.stage turn.fetches
      rw [hevents, hrest, ← List.append_assoc, hended]
      exact law.keepsLeft _ _ _ _ _ _ _ hleaves

/-- A step keeps a law, if all turns of reads do. -/
theorem Obeys.step {action : Action ρ σ} (h : Obeys law log w) (acts : w.act? action = some w')
    (rules : ∀ move query format before, action = .move move →
      w.Reads move.activity query format before →
      StageRules (law.StageAfter log move query format before)
        (law.LeavesAfter log move query format before) w.now w.node.cache w.store query format before
        move.outcome?) :
    Obeys law (log ++ w.events w' action) w' := by
  rcases act?_cases acts with ⟨move, query, format, before, step, rfl, was, taken, rfl⟩ |
    ⟨hnone, haside⟩
  · exact h.of_turn was taken (rules move query format before rfl was)
  · rw [hnone, List.append_nil]
    exact h.of_aside haside ((act?_flightStep acts).led h.led)

end World

end ReadThrough
