import ReadThrough.Proofs.Reads.Turns

/-! # Flights over the steps of a world

Seen from the flights, an action does nothing, forgets, or is a turn of one read; all other reads
stay as they are.

* `World.FlightStep` lists the three cases, and `World.act?_flightStep` says that there are no
  others;
* the lemmas after it read the events of a step: who joined, who took over an outcome, who follows,
  and what is registered.
-/

namespace ReadThrough
set_option autoImplicit false

variable {ρ σ : Type}

/-! ## Three kinds of steps -/

namespace World

/-- Apart from some activities, the reads are the same in both worlds, and new ones have not
begun. -/
structure KeepsReads (except : ActivityId → Prop) (w w' : World ρ σ) : Prop where
  kept : ∀ i query format stage, ¬ except i → w.Reads i query format stage →
    w'.Reads i query format stage
  old : ∀ i query format stage, ¬ except i → w'.Reads i query format stage →
    w.Reads i query format stage ∨ (stage = .ready ∧ w.node.activities[i]? = none)

/-- What an action does to reads and flights, with its events. -/
inductive FlightStep (w : World ρ σ) : List (Event ρ) → World ρ σ → Prop
  | quiet {w'} (reads : KeepsReads (fun _ => False) w w') (flights : w'.flights = w.flights) :
    FlightStep w [] w'
  | forgets {w'} (reads : KeepsReads (fun _ => False) w w')
      (flights : ∃ key, w'.flights = w.flights.forget key ∨
        w'.flights = w.flights.forgetStarting key) :
    FlightStep w [] w'
  | turn {w'} {move : Move ρ} {query format before after asks}
      (reads : KeepsReads (· = move.activity) w w')
      (was : w.Reads move.activity query format before)
      (is : w'.Reads move.activity query format after)
      (turn : FlightTurn query format w.flights before w'.flights after) :
    FlightStep w (move.events query format before after asks) w'

theorem keepsReads_of_activities {w w' : World ρ σ}
    (h : w'.node.activities = w.node.activities) : KeepsReads (fun _ => False) w w' := by
  constructor
  · intro i query format stage _ hread
    rwa [Reads, h]
  · intro i query format stage _ hread
    left
    rwa [Reads, h] at hread

theorem keepsReads_enter {w : World ρ σ} {activity : Activity ρ}
    (new : ∀ query format stage, activity = .read query format stage → stage = .ready) :
    KeepsReads (fun _ => False) w (w.enter activity) := by
  constructor
  · intro i query format stage _ hread
    exact enter_activities_of_some activity hread
  · intro i query format stage _ hread
    rcases of_enter_activities hread with ⟨hi, hactivity⟩ | hold
    · refine .inr ⟨new query format stage hactivity.symm, ?_⟩
      rw [hi]
      exact List.getElem?_eq_none (Nat.le_refl _)
    · exact .inl hold

theorem keepsReads_after (w : World ρ σ) (mover : ActivityId) (step : ActivityStep ρ σ) :
    KeepsReads (· = mover) w (w.after mover step) := by
  constructor
  · intro i query format stage hi hread
    exact after_activities_other step hi hread
  · intro i query format stage hi hread
    rcases of_after_activities hread with ⟨hmover, -⟩ | ⟨-, hold⟩ | ⟨job, -, hjob⟩
    · exact absurd hmover hi
    · exact .inl hold
    · cases hjob

theorem KeepsReads.of_other {w w' : World ρ σ} {mover : ActivityId} {activity activity' : Activity ρ}
    (h : KeepsReads (· = mover) w w') (found : w.node.activities[mover]? = some activity)
    (found' : w'.node.activities[mover]? = some activity') (other : activity.isRead = false)
    (other' : activity'.isRead = false) : KeepsReads (fun _ => False) w w' := by
  constructor
  · intro i query format stage _ hread
    refine h.kept i query format stage ?_ hread
    rintro rfl
    have hactivity := Option.some.inj (found.symm.trans hread)
    rw [hactivity] at other
    cases other
  · intro i query format stage _ hread
    refine h.old i query format stage ?_ hread
    rintro rfl
    have hactivity := Option.some.inj (found'.symm.trans hread)
    rw [hactivity] at other'
    cases other'

theorem events_of_other {w w' : World ρ σ} {move : Move ρ} {activity : Activity ρ}
    (found : w.node.activities[move.activity]? = some activity) (other : activity.isRead = false) :
    w.events w' (.move move) = [] := by
  simp only [events, found]
  cases activity <;> first | rfl | cases other

theorem events_of_read {w w' : World ρ σ} (move : Move ρ) {query : Query} {format : RowFormat ρ}
    {before after : ReadStage ρ} (was : w.Reads move.activity query format before)
    (is : w'.Reads move.activity query format after) :
    w.events w' (.move move) =
      move.events query format before after (w.node.fetches < w'.node.fetches) := by
  rw [Reads] at was is
  simp only [events, was, is]

theorem act?_flightStep [Medium σ] {w w' : World ρ σ} {action : Action ρ σ}
    (acts : w.act? action = some w') : FlightStep w (w.events w' action) w' := by
  cases action with
  | read query format =>
    obtain rfl := Option.some.inj acts
    exact .quiet (keepsReads_enter (by rintro _ _ _ ⟨⟩; rfl)) rfl
  | change event =>
    obtain rfl := Option.some.inj acts
    exact .quiet (keepsReads_enter (by rintro _ _ _ ⟨⟩)) rfl
  | request asked =>
    obtain rfl := Option.some.inj acts
    exact .quiet (keepsReads_enter (by rintro _ _ _ ⟨⟩)) rfl
  | forget query =>
    obtain rfl := Option.some.inj acts
    exact .forgets (keepsReads_of_activities rfl) ⟨query.flightName, .inl rfl⟩
  | wait nanos =>
    obtain rfl := Option.some.inj acts
    exact .quiet (keepsReads_of_activities rfl) rfl
  | disturb store =>
    obtain rfl := Option.some.inj acts
    exact .quiet (keepsReads_of_activities rfl) rfl
  | move move =>
    obtain ⟨activity, step, found, taken, rfl⟩ := act?_move_iff.mp acts
    have hreads := keepsReads_after w move.activity step
    have hmover := after_activities_mover found step
    cases hkind : activity.isRead with
    | true =>
      cases activity with
      | read query format before =>
        have hrules := StageRules.free w.now w.node.cache w.store query format before move.outcome?
        obtain ⟨turn, hturn, hafter, hcache, -⟩ := Activity.move?_read hrules taken
        rw [hafter] at hmover
        have hflights : (w.after move.activity step).flights = turn.cache.flights := by
          rw [flights, after, hcache]
        rw [events_of_read move found hmover]
        exact .turn hreads found hmover (hflights ▸ hturn.flights)
      | change | job | request => cases hkind
    | false =>
      have hother := Activity.move?_other taken hkind
      have hkept := hreads.of_other found hmover hkind (hother.other hkind)
      rw [events_of_other found hkind]
      rcases hother.flights with hsame | ⟨event, -, -, hforgot⟩
      · exact .quiet hkept hsame
      · exact .forgets hkept ⟨flightsOf event.table, .inr hforgot⟩

theorem act?_grows [Medium σ] {w w' : World ρ σ} {action : Action ρ σ}
    (acts : w.act? action = some w') : w.node.cache.Grows w'.node.cache := by
  cases action with
  | move move =>
    obtain ⟨activity, step, -, taken, rfl⟩ := act?_move_iff.mp acts
    exact (Activity.move?_grows taken).1
  | _ =>
    obtain rfl := Option.some.inj acts
    exact .of_same rfl rfl rfl

theorem grows_of_run [Medium σ] {admits : World ρ σ → Action ρ σ → Prop} {w w' : World ρ σ}
    {log : List (Event ρ)} (run : Runs admits w log w') : w.node.cache.Grows w'.node.cache := by
  induction run with
  | refl => exact .refl w.node.cache
  | step action _ _ acts ih => exact ih.trans (act?_grows acts)

/-! ## What events say -/

variable {w w' : World ρ σ} {log : List (Event ρ)}

theorem Reads.inj {i : ActivityId} {query query' : Query} {format format' : RowFormat ρ}
    {stage stage' : ReadStage ρ} (h : w.Reads i query format stage)
    (h' : w.Reads i query' format' stage') : query = query' ∧ format = format' ∧ stage = stage' := by
  have hsame := Option.some.inj (Eq.trans (Eq.symm h) h')
  simpa using hsame

namespace FlightStep

theorem keeps_answer (step : FlightStep w log w') {i : ActivityId} {query : Query}
    {format : RowFormat ρ} {answer : Answer ρ} (h : w.Reads i query format (.ended answer)) :
    w'.Reads i query format (.ended answer) := by
  cases step with
  | quiet reads => exact reads.kept i query format _ not_false h
  | forgets reads => exact reads.kept i query format _ not_false h
  | turn reads was is taken =>
    refine reads.kept i query format _ ?_ h
    rintro rfl
    obtain ⟨-, -, rfl⟩ := was.inj h
    exact FlightTurn.not_of_ended taken

theorem of_joined (step : FlightStep w log w') {i : ActivityId} {query : Query}
    {role : FlightRole} (h : .joined i query role ∈ log) :
    ∃ format before after, w.Reads i query format before ∧ w'.Reads i query format after ∧
      before.Joins w.flights ∧ w'.flights = (w.flights.join query.flightName).1 ∧
      role = (w.flights.join query.flightName).2 ∧ after.role? = some role := by
  cases step with
  | quiet => cases h
  | forgets => cases h
  | turn reads was is taken =>
    obtain ⟨rfl, rfl, hrole⟩ := joined_mem_events.mp h
    exact ⟨_, _, _, was, is, taken.of_joined? hrole⟩

theorem of_adopted (step : FlightStep w log w') {i : ActivityId} {query : Query}
    {flight : FlightId} (h : .adopted i query flight ∈ log) :
    ∃ format outcome, w.Reads i query format (.following flight) ∧
      w.flights.state? flight = some (.completed outcome) ∧ w'.flights = w.flights ∧
      w'.Reads i query format (.ended (.returned (Read.adopt format outcome))) := by
  cases step with
  | quiet => cases h
  | forgets => cases h
  | turn reads was is taken =>
    obtain ⟨rfl, rfl, hflight⟩ := adopted_mem_events.mp h
    obtain ⟨rfl, hsame, outcome, hdone, rfl⟩ := taken.of_adopted? hflight
    exact ⟨_, outcome, was, hdone, hsame, is⟩

theorem of_following (step : FlightStep w log w') {i : ActivityId} {query : Query}
    {format : RowFormat ρ} {flight : FlightId} (h : w'.Reads i query format (.following flight)) :
    w.Reads i query format (.following flight) ∨ .joined i query (.follower flight) ∈ log := by
  cases step with
  | quiet reads =>
    rcases reads.old i query format _ not_false h with hold | ⟨hstage, -⟩
    · exact .inl hold
    · cases hstage
  | forgets reads =>
    rcases reads.old i query format _ not_false h with hold | ⟨hstage, -⟩
    · exact .inl hold
    · cases hstage
  | turn reads was is taken =>
    rename_i move query' format' before after asks
    by_cases hi : i = move.activity
    · subst hi
      obtain ⟨rfl, rfl, rfl⟩ := is.inj h
      exact .inr (joined_mem_events.mpr ⟨rfl, rfl, taken.joined?_of_following⟩)
    · rcases reads.old i query format _ hi h with hold | ⟨hstage, -⟩
      · exact .inl hold
      · cases hstage

theorem of_registered (step : FlightStep w log w') {key : String} {flight : FlightId}
    (h : w'.flights.registry[key]? = some flight) :
    w.flights.registry[key]? = some flight ∨
      ∃ i query, .joined i query (.leader flight) ∈ log := by
  cases step with
  | quiet reads flights => exact .inl (flights ▸ h)
  | forgets reads forgot =>
    left
    obtain ⟨start, hstart | hstart⟩ := forgot
    · rw [hstart, Flights.forget_registry] at h
      split at h
      · cases h
      · exact h
    · rw [hstart, Flights.forgetStarting_registry] at h
      split at h
      · cases h
      · exact h
  | turn reads was is taken =>
    rename_i move query format before after asks
    generalize w'.flights = flights' at taken h
    cases taken with
    | goOn | adopt | quit => exact .inl h
    | follow joins registered =>
      rw [Flights.join_of_registered registered] at h
      exact .inl h
    | lead joins free leads =>
      rw [Flights.join_of_free free, Std.TreeMap.getElem?_insert] at h
      split at h
      · obtain rfl := Option.some.inj h
        refine .inr ⟨move.activity, query, joined_mem_events.mpr ⟨rfl, rfl, ?_⟩⟩
        rw [← ReadStage.role?_of_leads leads]
        cases before with
        | ready | following => rfl
        | _ => cases joins
      · exact .inl h
    | finish leads ended => exact .inl (Flights.registry_of_finish h)

end FlightStep

end World

end ReadThrough
