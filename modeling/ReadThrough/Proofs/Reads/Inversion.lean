import ReadThrough.Proofs.Reads.Turns

/-! # The turns of reads, one by one

What a read can do next depends on where it stands, and there is one case for each of the functions that
make up its turns.

* `Read.Goes` lists the cases; where the store takes a step for the read, it says which;
* `Activity.move?_goes`: every move of a read is one of them.
-/

namespace ReadThrough
set_option autoImplicit false

variable {ρ σ : Type}

section

variable [Medium σ] (now : Nat) (c : Cache) (store : σ) (query : Query) (format : RowFormat ρ)

/-- The turns that a read can take. -/
inductive Read.Goes : ReadStage ρ → Turn (ReadStage ρ) → Prop
  | start : Goes .ready (Read.start c query)
  | follow {flight turn} (left : Read.afterFlight? c query format flight = some turn) :
    Goes (.following flight) turn
  | points {flight sought reply} : Goes (.awaitingPoints flight sought (.answered reply))
      (Read.afterPoints c query format flight sought reply)
  /-- The store takes a step for the read. -/
  | pointsGoOn {flight sought operation} {step : StoreStep σ .slots}
      (taken : Medium.step? now store operation = some step) :
    Goes (.awaitingPoints flight sought operation)
      { cache := c, stage := .awaitingPoints flight sought step.operation, notices := step.notices }
  | search {flight reply} : Goes (.awaitingSearch flight (.answered reply))
      (Read.afterSearch c query format flight reply)
  | searchGoesOn {flight operation} {step : StoreStep σ .text}
      (taken : Medium.step? now store operation = some step) :
    Goes (.awaitingSearch flight operation)
      { cache := c, stage := .awaitingSearch flight step.operation, notices := step.notices }
  | fetched {flight outcome} : Goes (.fetching flight) (Read.afterFetch c query format flight outcome)
  | bypassed {outcome} : Goes .bypassing (Read.afterBypass c outcome)
  /-- A job that the read waits for takes a step. -/
  | fillGoesOn {flight result outcome jobs index run} {step : JobStep σ}
      (found : jobs[index]? = some run) (taken : run.step? now store = some step) :
    Goes (.filling flight result outcome jobs)
      { cache := c
        stage := .filling flight result outcome (jobs.set index step.run)
        notices := step.notices }
  | fillBroke {flight result outcome jobs} : Goes (.filling flight result outcome jobs)
      (Read.breakOff c (some flight) .brokeDown [])
  | filled {flight result outcome jobs} : Goes (.filling flight result outcome jobs)
      (Read.afterFill c query flight result outcome [])
  | aborted {before} (active : before.answer? = none) :
    Goes before (Read.breakOff c before.leads? .aborted [])

end

namespace Activity

variable [Medium σ] {now : Nat} {c : Cache} {store : σ} {query : Query} {format : RowFormat ρ}
  {before : ReadStage ρ} {step : ActivityStep ρ σ}

/-- The step of an activity is a turn that its read can take; the store may take part in it. -/
def StepsBy (now : Nat) (c : Cache) (store : σ) (query : Query) (format : RowFormat ρ)
    (before : ReadStage ρ) (step : ActivityStep ρ σ) : Prop :=
  ∃ turn, Read.Goes now c store query format before turn ∧
    step = ofReadTurn query format step.store turn

theorem StepsBy.of_turn {turn : Turn (ReadStage ρ)}
    (h : some (ofReadTurn query format store turn) = some step)
    (goes : Read.Goes now c store query format before turn) :
    StepsBy now c store query format before step := by
  obtain rfl := Option.some.inj h
  exact ⟨turn, goes, rfl⟩

theorem goRead?_goes (h : goRead? now c store query format before = some step) :
    StepsBy now c store query format before step := by
  unfold goRead? at h
  split at h
  · exact .of_turn h .start
  · obtain ⟨turn, hleft, rfl⟩ := Option.map_eq_some_iff.mp h
    exact ⟨turn, .follow hleft, rfl⟩
  · exact .of_turn h .points
  · obtain ⟨taken, htaken, rfl⟩ := Option.map_eq_some_iff.mp h
    exact ⟨_, .pointsGoOn htaken, rfl⟩
  · exact .of_turn h .search
  · obtain ⟨taken, htaken, rfl⟩ := Option.map_eq_some_iff.mp h
    exact ⟨_, .searchGoesOn htaken, rfl⟩
  · split at h
    · exact .of_turn h .fillBroke
    · split at h
      · exact .of_turn h .filled
      · cases h
  · cases h
  · cases h
  · cases h

theorem goJob?_goes {index : Nat}
    (h : goJob? now c store (.read query format before) index = some step) :
    StepsBy now c store query format before step := by
  simp only [goJob?, Option.bind_eq_bind, Option.bind_eq_some_iff] at h
  obtain ⟨run, hrun, taken, htaken, ⟨⟩⟩ := h
  cases before with
  | filling flight result outcome jobs => exact ⟨_, .fillGoesOn hrun htaken, rfl⟩
  | _ => cases hrun

theorem move?_goes {move : Move ρ}
    (h : (Activity.read query format before).move? now c store move = some step) :
    StepsBy now c store query format before step := by
  cases move with
  | go => exact goRead?_goes h
  | goJob => exact goJob?_goes h
  | deliver _ outcome =>
    cases before with
    | fetching flight => exact .of_turn h .fetched
    | bypassing => exact .of_turn h .bypassed
    | _ => cases h
  | abort =>
    cases before with
    | ended => cases h
    | _ => exact .of_turn h (.aborted rfl)

end Activity

end ReadThrough
