import ReadThrough.Proofs.Sharing.Confinement

/-! # Moves and the store

A move that has to do with the store is a step of the store on an operation of the activity, and nothing
else. So what a move does depends on what the store holds under the keys of the cache, and it changes
nothing under other keys.

* `Activity.asks?` is the operation of which a move has the store take a step, if any;
* `Activity.MoveKind` are the two kinds of moves, and `move?_kind` goes through all activities;
* `move?_agree` and `move?_alike` say what follows for stores that can be shared.
-/

namespace ReadThrough
set_option autoImplicit false

variable {ρ σ : Type}

/-! ## What the store is asked in a move -/

/-- An operation of any kind. -/
structure AnyOperation where
  kind : ReplyKind
  operation : Operation kind

/-- The operation, unless it is answered. -/
def Operation.pending? {k : ReplyKind} : Operation k → Option AnyOperation
  | .answered _ => none
  | operation => some ⟨k, operation⟩

def JobRun.pending? : JobRun → Option AnyOperation
  | .working _ operation _ _ => operation.pending?
  | .finished | .brokeDown => none

/-- The operation of the activity, or of one of its jobs, of which the move has the store take a step. -/
def Activity.asks? (activity : Activity ρ) : Move ρ → Option AnyOperation
  | .go _ =>
    match activity with
    | .read _ _ (.awaitingPoints _ _ operation) => operation.pending?
    | .read _ _ (.awaitingSearch _ operation) => operation.pending?
    | .job run => run.pending?
    | .request _ (.waiting operation) => operation.pending?
    | _ => none
  | .goJob _ index => activity.jobs[index]?.bind JobRun.pending?
  | .deliver _ _ | .abort _ => none

/-! ## Moves and the store -/

/-- How a step of a job has to do with the store. -/
inductive JobRun.StepKind (σ : Type) [Medium σ] (now : Nat) (run : JobRun) : Prop
  /-- The step is the same on every store, and leaves it as it is. -/
  | turn (unasked : run.pending? = none) (next : Option (JobStep Unit))
      (steps : ∀ store : σ, run.step? now store = next.map fun step =>
        { store := store, run := step.run, notices := step.notices })
  /-- The store takes a step on the call in progress. -/
  | step (operation : Operation .done) (asked : run.pending? = some ⟨.done, operation⟩)
      (waits : Operation .done → JobRun)
      (within : ∀ Own, run.Concerns Own → operation.Concerns Own)
      (steps : ∀ store : σ, run.step? now store = (Medium.step? now store operation).map fun step =>
        { store := step.store, run := waits step.operation, notices := step.notices })

theorem JobRun.step?_kind (σ : Type) [Medium σ] (now : Nat) (run : JobRun) :
    run.StepKind σ now := by
  cases run with
  | working job operation onFailure rest =>
    cases operation with
    | answered reply =>
      refine .turn rfl (some (receive () job onFailure rest reply)) fun store => ?_
      cases reply with
      | ok => rfl
      | error fault => cases fault <;> rfl
    | asked call =>
      exact .step (.asked call) rfl (.working job · onFailure rest) (fun _ own => own.1) fun _ => rfl
    | held call =>
      exact .step (.held call) rfl (.working job · onFailure rest) (fun _ own => own.1) fun _ => rfl
    | sweeping keys =>
      exact .step (.sweeping keys) rfl (.working job · onFailure rest) (fun _ own => own.1) fun _ => rfl
  | finished | brokeDown => exact .turn rfl none fun _ => rfl

/-- A step that leaves the store as it is, on this store. -/
def ActivityStep.on (step : ActivityStep ρ Unit) (store : σ) : ActivityStep ρ σ :=
  { cache := step.cache
    store := store
    activity := step.activity
    notices := step.notices
    spawned := step.spawned
    fetches := step.fetches }

namespace Activity

/-- How a move has to do with the store. -/
inductive MoveKind (σ : Type) [Medium σ] (now : Nat) (c : Cache) (activity : Activity ρ)
    (move : Move ρ) : Prop
  /-- The move is the same on every store, and leaves it as it is. -/
  | turn (unasked : activity.asks? move = none) (next : Option (ActivityStep ρ Unit))
      (moves : ∀ store : σ, activity.move? now c store move = next.map (·.on store))
  /-- The store takes a step on an operation that the activity waits for. -/
  | step {k : ReplyKind} (operation : Operation k) (asked : activity.asks? move = some ⟨k, operation⟩)
      (waits : Operation k → Activity ρ)
      (within : ∀ Own, activity.Concerns Own → operation.Concerns Own)
      (moves : ∀ store : σ, activity.move? now c store move = storeStep? now c store operation waits)

theorem Concerns.jobs {activity : Activity ρ} {Own : String → Prop} (h : activity.Concerns Own) :
    ∀ run ∈ activity.jobs, run.Concerns Own := by
  intro run hrun
  cases activity with
  | read query format stage =>
    cases stage with
    | filling => exact h run hrun
    | _ => cases hrun
  | change event stage =>
    cases stage with
    | deleting => exact h run hrun
    | _ => cases hrun
  | job | request => cases hrun

section

variable [Medium σ] (now : Nat) (c : Cache)

theorem goRead?_kind (query : Query) (format : RowFormat ρ) (stage : ReadStage ρ) (mover : ActivityId) :
    MoveKind σ now c (.read query format stage) (.go mover) := by
  cases stage with
  | ready => exact .turn rfl (some (ofReadTurn query format () (Read.start c query))) fun _ => rfl
  | following flight =>
    refine .turn rfl ((Read.afterFlight? c query format flight).map (ofReadTurn query format ()))
      fun store => ?_
    rw [Option.map_map]
    rfl
  | awaitingPoints flight sought operation =>
    cases operation with
    | answered reply =>
      exact .turn rfl (some (ofReadTurn query format ()
        (Read.afterPoints c query format flight sought reply))) fun _ => rfl
    | asked call =>
      exact .step (.asked call) rfl (fun operation => .read query format
        (.awaitingPoints flight sought operation)) (fun _ own => own) fun _ => rfl
    | held call =>
      exact .step (.held call) rfl (fun operation => .read query format
        (.awaitingPoints flight sought operation)) (fun _ own => own) fun _ => rfl
  | awaitingSearch flight operation =>
    cases operation with
    | answered reply =>
      exact .turn rfl (some (ofReadTurn query format ()
        (Read.afterSearch c query format flight reply))) fun _ => rfl
    | asked call =>
      exact .step (.asked call) rfl (fun operation => .read query format
        (.awaitingSearch flight operation)) (fun _ own => own) fun _ => rfl
    | held call =>
      exact .step (.held call) rfl (fun operation => .read query format
        (.awaitingSearch flight operation)) (fun _ own => own) fun _ => rfl
  | filling flight result outcome jobs =>
    refine .turn rfl (if jobs.any JobRun.isBroken then
        some (ofReadTurn query format () (Read.breakOff c (some flight) .brokeDown []))
      else if jobs.all JobRun.isFinished then
        some (ofReadTurn query format () (Read.afterFill c query flight result outcome []))
      else none) fun store => ?_
    simp only [move?, go?, goRead?]
    split
    · rfl
    · split <;> rfl
  | bypassing | fetching | ended => exact .turn rfl none fun _ => rfl

theorem goInvalidation?_kind (event : Change) (stage : InvalidationStage) (mover : ActivityId) :
    MoveKind σ now c (.change event stage : Activity ρ) (.go mover) := by
  refine .turn rfl (goInvalidation? c () event stage) fun store => ?_
  cases stage with
  | ready => rfl
  | deleting jobs =>
    simp only [move?, go?, goInvalidation?]
    split <;> rfl
  | ended | aborted => rfl

theorem goRequest?_kind {k : ReplyKind} (asked : Request k) (stage : RequestStage k)
    (mover : ActivityId) : MoveKind σ now c (.request asked stage : Activity ρ) (.go mover) := by
  cases stage with
  | ready =>
    exact .turn rfl (some {
      cache := (c.prepare asked).1
      store := ()
      activity := .request asked (.waiting (.asked (c.prepare asked).2)) }) fun _ => rfl
  | waiting operation =>
    cases operation with
    | answered reply =>
      cases reply with
      | ok value =>
        exact .turn rfl (some {
          cache := c
          store := ()
          activity := .request asked (.ended (.ok value)) }) fun _ => rfl
      | error fault =>
        exact .turn rfl (some {
          cache := c
          store := ()
          activity := .request asked (.ended (.error fault))
          notices := Cache.failureNotice asked }) fun _ => rfl
    | asked call =>
      exact .step (.asked call) rfl (fun operation => .request asked (.waiting operation))
        (fun _ own => own) fun _ => rfl
    | held call =>
      exact .step (.held call) rfl (fun operation => .request asked (.waiting operation))
        (fun _ own => own) fun _ => rfl
    | sweeping rest =>
      exact .step (.sweeping rest) rfl (fun operation => .request asked (.waiting operation))
        (fun _ own => own) fun _ => rfl
  | ended | aborted => exact .turn rfl none fun _ => rfl

theorem goJob?_kind (activity : Activity ρ) (mover : ActivityId) (index : Nat) :
    MoveKind σ now c activity (.goJob mover index) := by
  have hasks : activity.asks? (.goJob mover index) = activity.jobs[index]?.bind JobRun.pending? := rfl
  cases hrun : activity.jobs[index]? with
  | none =>
    rw [hrun, Option.bind_none] at hasks
    refine .turn hasks none fun store => ?_
    simp only [move?, goJob?, hrun]
    rfl
  | some run =>
    rw [hrun, Option.bind_some] at hasks
    have hmem := List.mem_of_getElem? hrun
    cases JobRun.step?_kind σ now run with
    | turn unasked next steps =>
      refine .turn (hasks.trans unasked) (next.map fun step => {
        cache := c
        store := ()
        activity := activity.withJobs (activity.jobs.set index step.run)
        notices := step.notices }) fun store => ?_
      simp only [move?, goJob?, hrun, Option.bind_eq_bind, Option.bind_some, steps]
      cases next <;> rfl
    | step operation asked waits within steps =>
      refine .step operation (hasks.trans asked) (fun operation =>
        activity.withJobs (activity.jobs.set index (waits operation)))
        (fun Own own => within Own (own.jobs run hmem)) fun store => ?_
      simp only [move?, goJob?, hrun, Option.bind_eq_bind, Option.bind_some, steps, storeStep?]
      cases Medium.step? now store operation <;> rfl

theorem move?_kind (activity : Activity ρ) (move : Move ρ) : MoveKind σ now c activity move := by
  cases move with
  | go mover =>
    cases activity with
    | read query format stage => exact goRead?_kind now c query format stage mover
    | change event stage => exact goInvalidation?_kind now c event stage mover
    | request asked stage => exact goRequest?_kind now c asked stage mover
    | job run =>
      cases JobRun.step?_kind σ now run with
      | turn unasked next steps =>
        refine .turn unasked (next.map fun step =>
          { cache := c, store := (), activity := .job step.run, notices := step.notices }) fun store => ?_
        simp only [move?, go?, steps]
        cases next <;> rfl
      | step operation asked waits within steps =>
        refine .step operation asked (fun operation => .job (waits operation)) within fun store => ?_
        simp only [move?, go?, steps, storeStep?]
        cases Medium.step? now store operation <;> rfl
  | goJob mover index => exact goJob?_kind now c activity mover index
  | deliver mover outcome =>
    refine .turn rfl (activity.deliver? c () outcome) fun store => ?_
    cases activity with
    | read query format stage => cases stage <;> rfl
    | change | request | job => rfl
  | abort mover =>
    refine .turn rfl (activity.abort? c ()) fun store => ?_
    cases activity with
    | read query format stage => cases stage <;> rfl
    | change event stage => cases stage <;> rfl
    | request asked stage => cases stage <;> rfl
    | job run => cases run <;> rfl

end

section

variable [Medium σ] [LawfulMedium σ] [MapMedium σ] [SharedMedium σ] {now : Nat} {c : Cache}
  {store store' : σ} {activity : Activity ρ} {move : Move ρ} {step : ActivityStep ρ σ}

theorem move?_faithful (taken : activity.move? now c store move = some step)
    (faithful : SharedMedium.Faithful store) : SharedMedium.Faithful step.store := by
  cases (move?_kind now c activity move : MoveKind σ now c activity move) with
  | turn unasked next moves =>
    rw [moves, Option.map_eq_some_iff] at taken
    obtain ⟨turn, -, rfl⟩ := taken
    exact faithful
  | step operation asked waits within moves =>
    rw [moves] at taken
    obtain ⟨moved, hmoved, rfl⟩ := Option.map_eq_some_iff.mp taken
    exact SharedMedium.faithful faithful hmoved

/-- A move leaves all keys alone but those of its own cache. -/
theorem move?_agree {Others : String → Prop} (taken : activity.move? now c store move = some step)
    (faithful : SharedMedium.Faithful store) (own : activity.Concerns c.space.Owns)
    (apart : ∀ key, Others key → ¬ c.space.Owns key) :
    LawfulMedium.Agree Others now step.store store := by
  cases (move?_kind now c activity move : MoveKind σ now c activity move) with
  | turn unasked next moves =>
    rw [moves, Option.map_eq_some_iff] at taken
    obtain ⟨turn, -, rfl⟩ := taken
    exact .refl Others now store
  | step operation asked waits within moves =>
    rw [moves] at taken
    obtain ⟨moved, hmoved, rfl⟩ := Option.map_eq_some_iff.mp taken
    exact LawfulMedium.agree_of_step (SharedMedium.dependable faithful) (within _ own) apart hmoved

/-- Two steps that differ at most in what the stores hold under keys of other kinds. -/
structure StepsAlike (Own : String → Prop) (now : Nat) (step step' : ActivityStep ρ σ) : Prop where
  cache : step'.cache = step.cache
  activity : step'.activity = step.activity
  spawned : step'.spawned = step.spawned
  fetches : step'.fetches = step.fetches
  stores : LawfulMedium.Agree Own now step.store step'.store

/-- What a move does depends only on what the store holds under the keys of the cache. -/
theorem move?_alike (taken : activity.move? now c store move = some step)
    (faithful : SharedMedium.Faithful store) (faithful' : SharedMedium.Faithful store')
    (own : activity.Concerns c.space.Owns)
    (agree : LawfulMedium.Agree c.space.Owns now store store') :
    ∃ step', activity.move? now c store' move = some step' ∧
      StepsAlike c.space.Owns now step step' := by
  cases (move?_kind now c activity move : MoveKind σ now c activity move) with
  | turn unasked next moves =>
    rw [moves, Option.map_eq_some_iff] at taken
    obtain ⟨turn, hturn, rfl⟩ := taken
    refine ⟨turn.on store', ?_, rfl, rfl, rfl, rfl, agree⟩
    rw [moves, hturn]
    rfl
  | step operation asked waits within moves =>
    rw [moves] at taken
    obtain ⟨moved, hmoved, rfl⟩ := Option.map_eq_some_iff.mp taken
    obtain ⟨moved', hmoved', hoperation, hagree⟩ :=
      SharedMedium.same faithful faithful' (within _ own) agree hmoved
    refine ⟨_, (moves store').trans (congrArg (Option.map _) hmoved'), rfl, ?_, rfl, rfl, hagree⟩
    exact congrArg waits hoperation

end

end Activity

end ReadThrough
