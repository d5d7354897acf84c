import ReadThrough.Node
import ReadThrough.Proofs.Flights.Registry
import ReadThrough.Proofs.Run

/-! # What turns do to flights

The turns of a read are many, but to the flights they do only six things: nothing, follow a flight,
lead one, end the flight led, take over an outcome, or stop following.

* `FlightTurn` lists the six cases, with the stages before and after;
* the lemmas after it read off a turn who joined, who took over an outcome, and who follows.
-/

namespace ReadThrough
set_option autoImplicit false

variable {ρ : Type}

/-! ## Six kinds of turns -/

namespace ReadStage

def answer? : ReadStage ρ → Option (Answer ρ)
  | .ended answer => some answer
  | _ => none

/-- A read at this stage joins a flight when it goes on. -/
def Joins (flights : Flights Outcome) : ReadStage ρ → Prop
  | .ready => True
  | .following flight => flights.state? flight = some .abandoned
  | _ => False

theorem role?_of_leads {stage : ReadStage ρ} {flight : FlightId}
    (h : stage.leads? = some flight) : stage.role? = some (.leader flight) := by
  cases stage <;> simp_all [role?, leads?]

theorem role?_eq_leader_iff {stage : ReadStage ρ} {flight : FlightId} :
    stage.role? = some (.leader flight) ↔ stage.leads? = some flight := by
  cases stage <;> simp [role?, leads?]

theorem role?_eq_follower_iff {stage : ReadStage ρ} {flight : FlightId} :
    stage.role? = some (.follower flight) ↔ stage = .following flight := by
  cases stage <;> simp [role?, leads?]

theorem leads?_of_role? {before after : ReadStage ρ} (same : after.role? = before.role?) :
    after.leads? = before.leads? := by
  refine Option.ext fun flight => ?_
  rw [← role?_eq_leader_iff, ← role?_eq_leader_iff, same]

theorem Joins.leads? {flights : Flights Outcome} {stage : ReadStage ρ} (h : stage.Joins flights) :
    stage.leads? = none := by
  cases stage <;> first | rfl | cases h

end ReadStage

/-- What a turn of a read does to the flights. -/
inductive FlightTurn (query : Query) (format : RowFormat ρ) (flights : Flights Outcome) :
    (before : ReadStage ρ) → (flights' : Flights Outcome) → (after : ReadStage ρ) → Prop
  | goOn {before after} (active : before.answer? = none) (alone : ∀ f, before ≠ .following f)
      (same : after.role? = before.role?) : FlightTurn query format flights before flights after
  | follow {before flight} (joins : before.Joins flights)
      (registered : flights.registry[query.flightName]? = some flight) :
    FlightTurn query format flights before (flights.join query.flightName).1 (.following flight)
  | lead {before after} (joins : before.Joins flights)
      (free : flights.registry[query.flightName]? = none)
      (leads : after.leads? = some flights.all.length) :
    FlightTurn query format flights before (flights.join query.flightName).1 after
  | finish {before flight state answer} (leads : before.leads? = some flight)
      (ended : state ≠ .running) :
    FlightTurn query format flights before (flights.finish flight state) (.ended answer)
  | adopt {flight outcome} (done : flights.state? flight = some (.completed outcome)) :
    FlightTurn query format flights (.following flight) flights
      (.ended (.returned (Read.adopt format outcome)))
  | quit {flight} : FlightTurn query format flights (.following flight) flights (.ended .aborted)

namespace FlightTurn

variable {query : Query} {format : RowFormat ρ} {flights flights' : Flights Outcome}
  {before after : ReadStage ρ}

theorem of_joined? (turn : FlightTurn query format flights before flights' after)
    {role : FlightRole} (h : before.joined? after = some role) :
    before.Joins flights ∧ flights' = (flights.join query.flightName).1 ∧
      role = (flights.join query.flightName).2 ∧ after.role? = some role := by
  cases turn with
  | goOn active alone same =>
    cases before with
    | following flight => exact absurd rfl (alone flight)
    | ready => cases same.symm.trans h
    | _ => cases h
  | follow joins registered =>
    rw [Flights.join_of_registered registered]
    cases before with
    | ready | following => exact ⟨joins, rfl, (Option.some.inj h).symm, h⟩
    | _ => cases h
  | lead joins free leads =>
    rw [Flights.join_of_free free]
    cases before with
    | ready | following =>
      have hrole : some (.leader flights.all.length) = some role :=
        (ReadStage.role?_of_leads leads).symm.trans h
      exact ⟨joins, rfl, (Option.some.inj hrole).symm, h⟩
    | _ => cases h
  | finish leads ended => cases before <;> cases h
  | adopt done => cases h
  | quit => cases h

theorem of_adopted? (turn : FlightTurn query format flights before flights' after)
    {flight : FlightId} (h : before.adopted? after = some flight) :
    before = .following flight ∧ flights' = flights ∧ ∃ outcome,
      flights.state? flight = some (.completed outcome) ∧
      after = .ended (.returned (Read.adopt format outcome)) := by
  cases turn with
  | goOn active alone same =>
    cases before with
    | following flight => exact absurd rfl (alone flight)
    | _ => cases h
  | follow => cases before <;> cases h
  | lead joins free leads =>
    cases before with
    | following =>
      cases after with
      | ended => cases leads
      | _ => cases h
    | _ => cases h
  | finish leads ended =>
    cases before with
    | following => cases leads
    | _ => cases h
  | adopt done =>
    obtain rfl := Option.some.inj h
    exact ⟨rfl, rfl, _, done, rfl⟩
  | quit => cases h

/-- A read that follows a flight after a turn has just joined it, because a read does not follow a
flight for two turns. -/
theorem joined?_of_following {flight : FlightId}
    (turn : FlightTurn query format flights before flights' (.following flight)) :
    before.joined? (.following flight) = some (.follower flight) := by
  cases turn with
  | goOn active alone same =>
    exact absurd (ReadStage.role?_eq_follower_iff.mp same.symm) (alone flight)
  | follow joins registered =>
    cases before with
    | ready | following => rfl
    | _ => cases joins
  | lead joins free leads => cases leads

theorem not_of_ended {answer : Answer ρ} :
    ¬ FlightTurn query format flights (.ended answer) flights' after := by
  rintro (⟨active⟩ | ⟨joins⟩ | ⟨joins⟩ | ⟨leads⟩)
  · cases active
  · cases joins
  · cases joins
  · cases leads

end FlightTurn

end ReadThrough
