import Mathlib
import ReadThrough.Proofs.Flights.Leaders
import ReadThrough.Row
import ReadThrough.Store.Recording

/-! # Late reads start afresh

A change that has an effect forgets the flights of its table. From then on no read of the table
follows a flight that was led before, while the followers which such a flight already had still get
what it leaves.

* `Afresh`: all flights that can be joined, or are followed by late reads, are led by late reads;
* `Received`: what becomes of a read that followed a flight, and `GoesOn` in the turn in which it stops;
* `late_reads_start_afresh`: both, over all runs.
-/

namespace ReadThrough
set_option autoImplicit false

variable {ρ σ : Type}

/-! ## Joining in a log -/

def LeaderJoined (log : List (Event ρ)) (flight : FlightId) : Prop :=
  ∃ reader query, .joined reader query (.leader flight) ∈ log

def HasJoined (log : List (Event ρ)) (reader : ActivityId) : Prop :=
  ∃ query role, .joined reader query role ∈ log

theorem LeaderJoined.append_left {log : List (Event ρ)} {flight : FlightId}
    (h : LeaderJoined log flight) (events : List (Event ρ)) : LeaderJoined (log ++ events) flight := by
  obtain ⟨reader, query, hmem⟩ := h
  exact ⟨reader, query, List.mem_append_left _ hmem⟩

theorem LeaderJoined.append_right {events : List (Event ρ)} {flight : FlightId}
    (h : LeaderJoined events flight) (log : List (Event ρ)) : LeaderJoined (log ++ events) flight := by
  obtain ⟨reader, query, hmem⟩ := h
  exact ⟨reader, query, List.mem_append_right _ hmem⟩

theorem hasJoined_append {log events : List (Event ρ)} {reader : ActivityId} :
    HasJoined (log ++ events) reader ↔ HasJoined log reader ∨ HasJoined events reader := by
  simp [HasJoined, List.mem_append, exists_or]

/-- An event of a longer log stands in the old part, with the same events before it, or it is one of
the new events. -/
theorem event_of_append {log events earlier later : List (Event ρ)} {event : Event ρ}
    (h : log ++ events = earlier ++ event :: later) :
    (∃ rest, log = earlier ++ event :: rest) ∨
      ∃ middle rest, earlier = log ++ middle ∧ events = middle ++ event :: rest := by
  rcases List.append_eq_append_iff.mp h with ⟨middle, hearlier, hevents⟩ | ⟨rest, hlog, hrest⟩
  · exact .inr ⟨middle, later, hearlier, hevents⟩
  · cases rest with
    | nil => exact .inr ⟨[], later, by simpa using hlog.symm, by simpa using hrest.symm⟩
    | cons first rest =>
      obtain ⟨rfl, -⟩ := List.cons.inj hrest
      exact .inl ⟨rest, hlog⟩

theorem flightsOf_prefix_flightName (query : Query) :
    (flightsOf query.table).toList <+: query.flightName.toList := by
  simp only [flightsOf, Query.flightName, flightName, String.toList_append]
  exact List.prefix_append _ _

namespace World

variable {w w' : World ρ σ} {log events : List (Event ρ)}

/-! ## The numbers of flights led -/

theorem FlightStep.length_le (step : FlightStep w events w') :
    w.flights.all.length ≤ w'.flights.all.length := by
  cases step with
  | quiet reads flights => simp [flights]
  | forgets reads forgot =>
    obtain ⟨start, hstart | hstart⟩ := forgot
    · simp [hstart, Flights.length_forget]
    · simp [hstart, Flights.length_forgetStarting]
  | turn reads was is taken =>
    generalize w'.flights = flights' at taken
    cases taken with
    | goOn | adopt | quit => exact Nat.le_refl _
    | follow joins registered => simp [Flights.length_join_of_registered registered]
    | lead joins free leads =>
      rw [Flights.length_join_of_free free]
      exact Nat.le_succ _
    | finish leads ended => simp [Flights.length_finish]

theorem FlightStep.of_leaderJoined (step : FlightStep w events w') {flight : FlightId}
    (h : LeaderJoined events flight) :
    flight = w.flights.all.length ∧ flight < w'.flights.all.length := by
  obtain ⟨reader, query, hmem⟩ := h
  obtain ⟨format, before, after, -, -, -, hflights, hrole, -⟩ := step.of_joined hmem
  rw [Flights.join_role] at hrole
  split at hrole
  · cases hrole
  · rename_i hfree
    obtain rfl := FlightRole.leader.inj hrole
    rw [hflights, Flights.length_join_of_free hfree]
    exact ⟨rfl, Nat.lt_succ_self _⟩

theorem leaderJoined_of_run [Medium σ] {admits : World ρ σ → Action ρ σ → Prop}
    (run : Runs admits w log w') :
    w.flights.all.length ≤ w'.flights.all.length ∧ ∀ flight, LeaderJoined log flight →
      w.flights.all.length ≤ flight ∧ flight < w'.flights.all.length := by
  induction run with
  | refl => exact ⟨Nat.le_refl _, by rintro flight ⟨reader, query, hmem⟩; cases hmem⟩
  | step action run _ acts ih =>
    obtain ⟨hle, hrange⟩ := ih
    have hstep := act?_flightStep acts
    refine ⟨Nat.le_trans hle hstep.length_le, ?_⟩
    rintro flight ⟨reader, query, hmem⟩
    rcases List.mem_append.mp hmem with hold | hnew
    · obtain ⟨hfrom, hto⟩ := hrange flight ⟨reader, query, hold⟩
      exact ⟨hfrom, Nat.lt_of_lt_of_le hto hstep.length_le⟩
    · obtain ⟨hflight, hlt⟩ := hstep.of_leaderJoined ⟨reader, query, hnew⟩
      exact ⟨hflight ▸ hle, hlt⟩

/-! ## What late reads join -/

/-- As far as the table is concerned, everything that reads join or follow since the log began is led
by reads that joined since then. -/
structure Afresh (table : String) (log : List (Event ρ)) (w : World ρ σ) : Prop where
  registered : ∀ (key : String) (flight : FlightId), (flightsOf table).toList <+: key.toList →
    w.flights.registry[key]? = some flight → LeaderJoined log flight
  following : ∀ i query format flight, query.table = table → HasJoined log i →
    w.Reads i query format (.following flight) → LeaderJoined log flight
  joined : ∀ earlier later i query flight,
    log = earlier ++ .joined i query (.follower flight) :: later → query.table = table →
    LeaderJoined earlier flight
  adopted : ∀ earlier later i query flight,
    log = earlier ++ .adopted i query flight :: later → query.table = table →
    HasJoined earlier i → LeaderJoined earlier flight

theorem Afresh.of_forgotten {table : String}
    (forgot : w.flights = w'.flights.forgetStarting (flightsOf table)) :
    Afresh table ([] : List (Event ρ)) w := by
  refine ⟨?_, ?_, ?_, ?_⟩
  · intro key flight hstarts hregistered
    rw [forgot, Flights.forgetStarting_registry, if_pos hstarts] at hregistered
    cases hregistered
  · rintro i query format flight - ⟨query', role, hmem⟩
    cases hmem
  · intro earlier later i query flight hlog
    simp at hlog
  · intro earlier later i query flight hlog
    simp at hlog

theorem Afresh.of_joined {table : String} (h : Afresh table log w) (step : FlightStep w events w')
    {i : ActivityId} {query : Query} {flight : FlightId} (htable : query.table = table)
    (hmem : .joined i query (.follower flight) ∈ events) : LeaderJoined log flight := by
  obtain ⟨format, before, after, -, -, -, -, hrole, -⟩ := step.of_joined hmem
  rw [Flights.join_role] at hrole
  split at hrole
  · rename_i flight' hregistered
    obtain rfl := FlightRole.follower.inj hrole
    exact h.registered _ _ (htable ▸ flightsOf_prefix_flightName query) hregistered
  · cases hrole

theorem Afresh.step {table : String} (h : Afresh table log w) (step : FlightStep w events w') :
    Afresh table (log ++ events) w' := by
  refine ⟨?_, ?_, ?_, ?_⟩
  · intro key flight hstarts hregistered
    rcases step.of_registered hregistered with hold | hnew
    · exact (h.registered key flight hstarts hold).append_left events
    · exact LeaderJoined.append_right hnew log
  · intro i query format flight htable hjoined hread
    rcases step.of_following hread with hold | hnew
    · rcases hasJoined_append.mp hjoined with hearlier | ⟨query', role, hnow⟩
      · exact (h.following i query format flight htable hearlier hold).append_left events
      · -- a read that joins in a step follows the flight that it joined
        obtain ⟨format', before, after, hbefore, hafter, -, -, hrole, hstage⟩ :=
          step.of_joined hnow
        obtain ⟨rfl, rfl, rfl⟩ := hafter.inj hread
        obtain rfl : .follower flight = role := Option.some.inj hstage
        exact (h.of_joined step htable hnow).append_left events
    · exact (h.of_joined step htable hnew).append_left events
  · intro earlier later i query flight hlog htable
    rcases event_of_append hlog with ⟨rest, hold⟩ | ⟨middle, rest, rfl, hnew⟩
    · exact h.joined earlier rest i query flight hold htable
    · have hmem : .joined i query (.follower flight) ∈ events := by simp [hnew]
      exact (h.of_joined step htable hmem).append_left middle
  · intro earlier later i query flight hlog htable hjoined
    rcases event_of_append hlog with ⟨rest, hold⟩ | ⟨middle, rest, rfl, hnew⟩
    · exact h.adopted earlier rest i query flight hold htable hjoined
    · have hmem : .adopted i query flight ∈ events := by simp [hnew]
      obtain ⟨format, outcome, hfollows, -, -, hends⟩ := step.of_adopted hmem
      rcases hasJoined_append.mp hjoined with hearlier | ⟨query', role, hnow⟩
      · exact (h.following i query format flight htable hearlier hfollows).append_left middle
      · -- a read does not join in the step in which it ends
        have hmem' : .joined i query' role ∈ events := by simp [hnew, hnow]
        obtain ⟨format', before, after, -, hafter, -, -, -, hstage⟩ := step.of_joined hmem'
        obtain ⟨-, -, rfl⟩ := hafter.inj hends
        cases hstage

/-! ## What becomes of followers -/

/-- What a read that followed a flight has come to, given the events since. -/
inductive Received (i : ActivityId) (query : Query) (format : RowFormat ρ) (flight : FlightId)
    (log : List (Event ρ)) (w : World ρ σ) : Prop
  | waiting (h : w.Reads i query format (.following flight))
  | broken (h : w.Reads i query format (.ended .aborted))
  /-- It returned what the flight left. -/
  | answered (outcome : Outcome) (result : ReadResult ρ)
      (left : w.flights.state? flight = some (.completed outcome)) (gives : outcome.Gives format result)
      (h : w.Reads i query format (.ended (.returned result)))
  /-- The flight left nothing, and the read joined again. -/
  | again (left : w.flights.state? flight = some .abandoned) (h : HasJoined log i)

theorem Received.step {i : ActivityId} {query : Query} {format : RowFormat ρ} {flight : FlightId}
    (h : Received i query format flight log w) (hl : Led w) (step : FlightStep w events w') :
    Received i query format flight (log ++ events) w' := by
  cases h with
  | broken h => exact .broken (step.keeps_answer h)
  | answered outcome result left gives h =>
    exact .answered outcome result (step.keeps_state? hl (by simp) left) gives (step.keeps_answer h)
  | again left h =>
    exact .again (step.keeps_state? hl (by simp) left) (hasJoined_append.mpr (.inl h))
  | waiting h =>
    cases step with
    | quiet reads => exact .waiting (reads.kept i query format _ not_false h)
    | forgets reads => exact .waiting (reads.kept i query format _ not_false h)
    | turn reads was is taken =>
      rename_i move query' format' before after asks
      by_cases hi : i = move.activity
      · subst hi
        obtain ⟨rfl, rfl, rfl⟩ := was.inj h
        have hstep : FlightStep w
            (move.events query' format' (.following flight) after asks) w' :=
          .turn reads was is taken
        -- what a read does that follows a flight depends on what the flight left
        have hagain : w.flights.state? flight = some .abandoned →
            (∃ role, after.role? = some role) →
            Received move.activity query' format' flight
              (log ++ move.events query' format' (.following flight) after asks) w' := by
          rintro left ⟨role, hrole⟩
          refine .again (hstep.keeps_state? hl (by simp) left) ?_
          exact hasJoined_append.mpr
            (.inr ⟨query', role, joined_mem_events.mpr ⟨rfl, rfl, hrole⟩⟩)
        generalize hflights : w'.flights = flights' at taken
        cases taken with
        | goOn active alone => exact absurd rfl (alone flight)
        | follow joins registered => exact hagain joins ⟨_, rfl⟩
        | lead joins free leads => exact hagain joins ⟨_, ReadStage.role?_of_leads leads⟩
        | finish leads => cases leads
        | adopt done => exact .answered _ _ (hflights ▸ done) (Outcome.gives_adopt _ _) is
        | quit => exact .broken is
      · exact .waiting (reads.kept i query format _ hi h)

/-- What becomes of a read in a turn in which it stops following a flight: it returns what the flight has
left, or joins again, if it has left nothing. -/
inductive GoesOn (w : World ρ σ) (i : ActivityId) (query : Query) (format : RowFormat ρ)
    (flight : FlightId) (next : World ρ σ) : Prop
  | returns (outcome : Outcome) (result : ReadResult ρ)
      (left : w.flights.state? flight = some (.completed outcome)) (gives : outcome.Gives format result)
      (ended : next.Reads i query format (.ended (.returned result)))
  | joins (left : w.flights.state? flight = some .abandoned)
      (joined : HasJoined (w.events next (.move (.go i))) i)

/-- A follower waits only as long as its leader is at work. After that it can go on. -/
theorem Led.follower_goes_on [Medium σ] (h : Led w) {i : ActivityId} {query : Query}
    {format : RowFormat ρ} {flight : FlightId} (hread : w.Reads i query format (.following flight)) :
    (∃ j, w.Leads j flight) ∨
      ∃ next, w.act? (.move (.go i)) = some next ∧ w.GoesOn i query format flight next := by
  obtain ⟨state, hprofile⟩ := h.follows i query format flight hread
  have hstate : w.node.cache.flights.state? flight = some state := Flights.state?_of_profile? hprofile
  have hgo : ∀ turn, Read.afterFlight? w.node.cache query format flight = some turn →
      w.act? (.move (.go i)) =
        some (w.after i (Activity.ofReadTurn query format w.store turn)) := by
    intro turn hturn
    refine act?_move_iff.mpr ⟨_, _, hread, ?_, rfl⟩
    simp [Activity.move?, Activity.go?, Activity.goRead?, hturn]
  cases state with
  | running => exact .inl (h.led flight _ hprofile)
  | completed outcome =>
    refine .inr ⟨_, hgo _ (by rw [Read.afterFlight?, hstate]),
      .returns outcome _ hstate (Outcome.gives_adopt format outcome) ?_⟩
    exact after_activities_mover hread _
  | abandoned =>
    have hturn := hgo _ (by rw [Read.afterFlight?, hstate])
    have hmover := after_activities_mover hread
      (Activity.ofReadTurn query format w.store
        (Read.join w.node.cache query [.abandonedFlight query.flightName]))
    refine .inr ⟨_, hturn, .joins hstate ⟨query, (w.flights.join query.flightName).2, ?_⟩⟩
    rw [events_of_read (.go i) hread hmover]
    exact joined_mem_events.mpr ⟨rfl, rfl, Read.join_role? _ _ _⟩

/-! ## Changes and later reads -/

/-- What holds of reads after the flights of a table were forgotten: `before` and `log` are the events
before and after that, in a run that went on from `w` to `w'`. -/
structure StartsAfresh [Medium σ] (table : String) (before : List (Event ρ)) (w : World ρ σ)
    (log : List (Event ρ)) (w' : World ρ σ) : Prop where
  /-- Whoever joins as a follower finds a leader that joined late too. -/
  joined : ∀ earlier later i query flight,
    log = earlier ++ .joined i query (.follower flight) :: later → query.table = table →
    LeaderJoined earlier flight ∧ ¬ LeaderJoined before flight
  /-- Whoever returns an outcome after joining late has it from such a leader. -/
  adopted : ∀ earlier later i query flight,
    log = earlier ++ .adopted i query flight :: later → query.table = table →
    HasJoined earlier i → LeaderJoined earlier flight ∧ ¬ LeaderJoined before flight
  /-- Whoever followed a flight already still gets what it leaves. -/
  received : ∀ i query format flight, w.Reads i query format (.following flight) →
    Received i query format flight log w'
  /-- No follower waits for a leader that is gone. -/
  goesOn : ∀ i query format flight, w'.Reads i query format (.following flight) →
    (∃ j, w'.Leads j flight) ∨
      ∃ next, w'.act? (.move (.go i)) = some next ∧ w'.GoesOn i query format flight next

/-- The first turn of a change that has an effect forgets the flights of its table, and concerns no
read. -/
theorem of_change_turn [Medium σ] {writer : ActivityId} {change : Change}
    (called : w.node.activities[writer]? = some (.change change .ready))
    (effective : w.node.cache.isInvalidatedBy change)
    (turn : w.act? (.move (.go writer)) = some w') :
    w'.flights = w.flights.forgetStarting (flightsOf change.table) ∧
      KeepsReads (fun _ => False) w w' := by
  obtain ⟨activity, step, found, taken, rfl⟩ := act?_move_iff.mp turn
  obtain rfl := Option.some.inj (called.symm.trans found)
  have hother := (Activity.move?_other taken rfl).other rfl
  refine ⟨?_, (keepsReads_after w writer step).of_other called
    (after_activities_mover called step) rfl hother⟩
  obtain rfl := Option.some.inj taken
  simp only [flights, after, Activity.ofInvalidationTurn, Invalidation.start, effective, if_true]
  split
  · rfl
  · split <;> rfl

/-- Once a change that has an effect took its first turn, reads on its table that join follow only
flights led by reads that joined since then, in any run; reads that followed a flight before get what
it leaves. -/
theorem late_reads_start_afresh [Medium σ] {start w₀ w₁ w₂ : World ρ σ}
    {before log : List (Event ρ)} {writer : ActivityId} {change : Change} (new : start.IsNew)
    (earlier : Runs Unrestricted start before w₀)
    (called : w₀.node.activities[writer]? = some (.change change .ready))
    (effective : w₀.node.cache.Heeds change)
    (turn : w₀.act? (.move (.go writer)) = some w₁) (later : Runs Unrestricted w₁ log w₂) :
    StartsAfresh change.table before w₀ log w₂ := by
  obtain ⟨hforgot, hreads⟩ := of_change_turn called (Cache.isInvalidatedBy_iff.mpr effective) turn
  have hled : Led w₁ := (act?_flightStep turn).led ((Led.of_new new).run earlier)
  -- flights are numbered in the order in which they start
  have hnever : ∀ flight, LeaderJoined log flight → ¬ LeaderJoined before flight := by
    intro flight hafter hbefore
    have hlt := ((leaderJoined_of_run earlier).2 flight hbefore).2
    have hle := ((leaderJoined_of_run later).2 flight hafter).1
    rw [hforgot, Flights.length_forgetStarting] at hle
    exact Nat.lt_irrefl _ (Nat.lt_of_lt_of_le hlt hle)
  have hafresh : Led w₂ ∧ Afresh change.table log w₂ ∧
      ∀ i query format flight, w₀.Reads i query format (.following flight) →
        Received i query format flight log w₂ := by
    induction later with
    | refl =>
      refine ⟨hled, .of_forgotten hforgot, ?_⟩
      intro i query format flight hread
      exact .waiting (hreads.kept i query format _ not_false hread)
    | step action _ _ acts ih =>
      obtain ⟨hl, ha, hr⟩ := ih (fun flight hafter => hnever flight (hafter.append_left _))
      have hstep := act?_flightStep acts
      refine ⟨hstep.led hl, ha.step hstep, ?_⟩
      intro i query format flight hread
      exact (hr i query format flight hread).step hl hstep
  obtain ⟨hled₂, hafresh, hreceived⟩ := hafresh
  refine ⟨?_, ?_, hreceived, ?_⟩
  · intro earlier' later' i query flight hlog htable
    have hlate := hafresh.joined earlier' later' i query flight hlog htable
    exact ⟨hlate, hnever flight (hlog ▸ hlate.append_left _)⟩
  · intro earlier' later' i query flight hlog htable hjoined
    have hlate := hafresh.adopted earlier' later' i query flight hlog htable hjoined
    exact ⟨hlate, hnever flight (hlog ▸ hlate.append_left _)⟩
  · intro i query format flight hread
    exact hled₂.follower_goes_on hread

def usersRead : Query := { table := "users", sql := "select" }

def usersChange : Change := { table := "users", kind := .update, rowsAffected := 1 }

def atRest : World Row RecordingStore :=
  { node := { cache := { config := {}, space := ⟨"a"⟩ } }, store := {} }

/-- Two callers read alike, as the activities of these numbers. -/
def twoReads (first second : ActivityId) : List (Action Row RecordingStore) :=
  [.read usersRead Row.integers, .move (.go first), .read usersRead Row.integers,
    .move (.go second)]

/-- The leader of a flight, which looks its search up, misses and fetches this number, up to the answer of
the data source. -/
def fetching (leader : ActivityId) (n : Int64) : List (Action Row RecordingStore) :=
  [.move (.go leader), .move (.go leader), .move (.deliver leader (.answered (some (.one (.integer n)))))]

/-- The leader stores what it fetched and returns it, and its follower goes on. -/
def sharing (leader follower : ActivityId) : List (Action Row RecordingStore) :=
  [.move (.goJob leader 0), .move (.goJob leader 0), .move (.goJob leader 1), .move (.goJob leader 1),
    .move (.go leader), .move (.go follower)]

/-- Two reads share a flight, a change of the table takes its first turn, and two more reads share
another flight. Either follower returns what its own leader fetched. -/
theorem late_reads_share_second_flight :
    ∃ (w₀ w₁ w₂ : World Row RecordingStore) (before log : List (Event Row)),
      atRest.IsNew ∧ Runs Unrestricted atRest before w₀ ∧
      w₀.node.activities[2]? = some (.change usersChange .ready) ∧
      w₀.node.cache.Heeds usersChange ∧ w₀.act? (.move (.go 2)) = some w₁ ∧
      Runs Unrestricted w₁ log w₂ ∧ w₀.Reads 1 usersRead Row.integers (.following 0) ∧
      .joined 4 usersRead (.follower 1) ∈ log ∧
      w₂.Reads 1 usersRead Row.integers (.ended (.returned (.ok (some (.one (.integer 5)))))) ∧
      w₂.Reads 4 usersRead Row.integers (.ended (.returned (.ok (some (.one (.integer 7)))))) ∧
      StartsAfresh usersChange.table before w₀ log w₂ := by
  have hrun : ((atRest.perform? Unrestricted (twoReads 0 1 ++ [.change usersChange])).bind fun first =>
      (first.1.act? (.move (.go 2))).bind fun w₁ =>
        (w₁.perform? Unrestricted
            (twoReads 3 4 ++ fetching 3 7 ++ fetching 0 5 ++ sharing 3 4 ++ sharing 0 1)).map fun second =>
          (first.1.node.activities[2]?, first.1.node.cache.isInvalidatedBy usersChange,
            first.1.node.activities[1]?, second.2[1]?, second.1.node.activities[1]?,
            second.1.node.activities[4]?)) =
      some (some (.change usersChange .ready), true,
        some (.read usersRead Row.integers (.following 0)), some (.joined 4 usersRead (.follower 1)),
        some (.read usersRead Row.integers (.ended (.returned (.ok (some (.one (.integer 5))))))),
        some (.read usersRead Row.integers (.ended (.returned (.ok (some (.one (.integer 7)))))))) := by
    cbv
  obtain ⟨⟨w₀, before⟩, hfirst, hrest⟩ := Option.bind_eq_some_iff.mp hrun
  obtain ⟨w₁, hturn, hrest⟩ := Option.bind_eq_some_iff.mp hrest
  obtain ⟨⟨w₂, log⟩, hsecond, hfacts⟩ := Option.map_eq_some_iff.mp hrest
  simp only [Prod.mk.injEq] at hfacts
  obtain ⟨called, hheeds, followed, joined, received, returned⟩ := hfacts
  have new : atRest.IsNew := ⟨⟨{}, "a", rfl⟩, rfl⟩
  have earlier : Runs Unrestricted atRest before w₀ := .of_perform? hfirst
  have later : Runs Unrestricted w₁ log w₂ := .of_perform? hsecond
  have effective : w₀.node.cache.Heeds usersChange := Cache.isInvalidatedBy_iff.mp hheeds
  exact ⟨w₀, w₁, w₂, before, log, new, earlier, called, effective, hturn, later, followed,
    List.mem_of_getElem? joined, received, returned,
    late_reads_start_afresh new earlier called effective hturn later⟩

end World

end ReadThrough
