import ReadThrough.Invalidation

/-! # A cache at work

A `Node` is a cache together with the activities that its callers have started. Activities take
turns; a turn ends where its activity waits for the store, for the data source or for another
activity.

* an `Activity` is a read, an invalidation, a job sent off, or a direct operation;
* a `Move` says which activity goes on, and how: by itself, by one of its jobs, by an answer of the
  data source, or not at all any more;
* `Node.move?` makes a move, if the activity can go on in that way.

Nothing here prefers one activity to another: a run is any list of moves.
-/

namespace ReadThrough

/-! ## Activities -/

/-- Where a direct operation stands. -/
inductive RequestStage (kind : ReplyKind)
  | ready
  | waiting (operation : Operation kind)
  | ended (reply : Reply kind)
  | aborted

/-- A piece of work in progress. -/
inductive Activity (ρ : Type)
  | read (query : Query) (format : RowFormat ρ) (stage : ReadStage ρ)
  | change (change : Change) (stage : InvalidationStage)
  | job (run : JobRun)
  | request {kind : ReplyKind} (request : Request kind) (stage : RequestStage kind)

namespace Activity

variable {ρ : Type}

def ofQuery (query : Query) (format : RowFormat ρ) : Activity ρ := .read query format .ready

def ofChange (change : Change) : Activity ρ := .change change .ready

def ofJob (job : Job) : Activity ρ := .job (.start job)

def ofRequest {kind : ReplyKind} (request : Request kind) : Activity ρ := .request request .ready

def jobs : Activity ρ → List JobRun
  | .read _ _ (.filling _ _ _ jobs) => jobs
  | .change _ (.deleting jobs) => jobs
  | _ => []

def withJobs (jobs : List JobRun) : Activity ρ → Activity ρ
  | .read query format (.filling flight result outcome _) =>
    .read query format (.filling flight result outcome jobs)
  | .change event (.deleting _) => .change event (.deleting jobs)
  | activity => activity

def isHeld : Activity ρ → Bool
  | .read _ _ (.awaitingPoints _ _ operation) => operation.isHeld
  | .read _ _ (.awaitingSearch _ operation) => operation.isHeld
  | .job run => run.isHeld
  | .request _ (.waiting operation) => operation.isHeld
  | activity => activity.jobs.any JobRun.isHeld

/-- Whether the activity is between two portions of a sweep of its own. -/
def isSweeping : Activity ρ → Bool
  | .job run => run.isSweeping
  | .request _ (.waiting operation) => operation.isSweeping
  | _ => false

def follows? : Activity ρ → Option FlightId
  | .read _ _ (.following flight) => some flight
  | _ => none

end Activity

/-! ## Nodes and moves -/

/-- A cache, the activities started on it in order, and how often the data source was asked. -/
structure Node (ρ : Type) where
  cache : Cache
  activities : List (Activity ρ) := []
  fetches : Nat := 0

abbrev ActivityId := Nat

/-- How an activity goes on. -/
inductive Move (ρ : Type)
  /-- The activity itself takes a turn, or the store takes a step for it. -/
  | go (activity : ActivityId)
  /-- One of the jobs that the activity waits for takes a step. -/
  | goJob (activity : ActivityId) (job : Nat)
  /-- The data source answers the activity. -/
  | deliver (activity : ActivityId) (outcome : FetchOutcome ρ)
  | abort (activity : ActivityId)

def Move.activity {ρ : Type} : Move ρ → ActivityId
  | .go activity | .goJob activity _ | .deliver activity _ | .abort activity => activity

/-- An activity, the cache and the store after a move, with what the move gave rise to. -/
structure ActivityStep (ρ σ : Type) where
  cache : Cache
  store : σ
  activity : Activity ρ
  notices : List Notice := []
  spawned : List Job := []
  fetches : Bool := false

namespace Activity

variable {ρ σ : Type}

def ofReadTurn (query : Query) (format : RowFormat ρ) (store : σ) (turn : Turn (ReadStage ρ)) :
    ActivityStep ρ σ :=
  { cache := turn.cache
    store := store
    activity := .read query format turn.stage
    notices := turn.notices
    spawned := turn.spawned
    fetches := turn.fetches }

def ofInvalidationTurn (change : Change) (store : σ) (turn : Turn InvalidationStage) :
    ActivityStep ρ σ :=
  { cache := turn.cache
    store := store
    activity := .change change turn.stage
    notices := turn.notices
    spawned := turn.spawned
    fetches := turn.fetches }

/-- The store takes a step for an activity, which then has this operation in progress. -/
def storeStep? [Medium σ] {kind : ReplyKind} (now : Nat) (c : Cache) (store : σ)
    (operation : Operation kind) (activity : Operation kind → Activity ρ) :
    Option (ActivityStep ρ σ) :=
  (Medium.step? now store operation).map fun step =>
    { cache := c
      store := step.store
      activity := activity step.operation
      notices := step.notices }

def goRead? [Medium σ] (now : Nat) (c : Cache) (store : σ) (query : Query)
    (format : RowFormat ρ) : ReadStage ρ → Option (ActivityStep ρ σ)
  | .ready => some (ofReadTurn query format store (Read.start c query))
  | .following flight =>
    (Read.afterFlight? c query format flight).map (ofReadTurn query format store)
  | .awaitingPoints flight sought (.answered reply) =>
    some (ofReadTurn query format store (Read.afterPoints c query format flight sought reply))
  | .awaitingPoints flight sought operation =>
    storeStep? now c store operation fun operation =>
      .read query format (.awaitingPoints flight sought operation)
  | .awaitingSearch flight (.answered reply) =>
    some (ofReadTurn query format store (Read.afterSearch c query format flight reply))
  | .awaitingSearch flight operation =>
    storeStep? now c store operation fun operation =>
      .read query format (.awaitingSearch flight operation)
  | .filling flight result outcome jobs =>
    if jobs.any JobRun.isBroken then
      some (ofReadTurn query format store (Read.breakOff c (some flight) .brokeDown []))
    else if jobs.all JobRun.isFinished then
      some (ofReadTurn query format store (Read.afterFill c query flight result outcome []))
    else none
  | .bypassing | .fetching _ | .ended _ => none

def goInvalidation? (c : Cache) (store : σ) (change : Change) :
    InvalidationStage → Option (ActivityStep ρ σ)
  | .ready => some (ofInvalidationTurn change store (Invalidation.start c change))
  | .deleting jobs =>
    if jobs.all fun job => job.isFinished || job.isBroken then
      some (ofInvalidationTurn change store { cache := c, stage := .ended })
    else none
  | .ended | .aborted => none

/-- A direct operation goes on by itself or by a step of the store. -/
def goRequest? [Medium σ] {kind : ReplyKind} (now : Nat) (c : Cache) (store : σ)
    (request : Request kind) : RequestStage kind → Option (ActivityStep ρ σ)
  | .ready =>
    let (c, call) := c.prepare request
    some { cache := c, store := store, activity := .request request (.waiting (.asked call)) }
  | .waiting (.answered reply) =>
    let notices :=
      match reply with
      | .ok _ => []
      | .error _ => Cache.failureNotice request
    some { cache := c
           store := store
           activity := .request request (.ended reply)
           notices := notices }
  | .waiting operation =>
    storeStep? now c store operation fun operation => .request request (.waiting operation)
  | .ended _ | .aborted => none

/-- An activity goes on by itself or by a step of the store. -/
def go? [Medium σ] (now : Nat) (c : Cache) (store : σ) :
    Activity ρ → Option (ActivityStep ρ σ)
  | .read query format stage => goRead? now c store query format stage
  | .change event stage => goInvalidation? c store event stage
  | .request asked stage => goRequest? now c store asked stage
  | .job run =>
    (run.step? now store).map fun step =>
      { cache := c, store := step.store, activity := .job step.run, notices := step.notices }

/-- One of the jobs that an activity waits for takes a step. -/
def goJob? [Medium σ] (now : Nat) (c : Cache) (store : σ) (activity : Activity ρ) (index : Nat) :
    Option (ActivityStep ρ σ) := do
  let run ← activity.jobs[index]?
  let step ← run.step? now store
  return {
    cache := c
    store := step.store
    activity := activity.withJobs (activity.jobs.set index step.run)
    notices := step.notices }

/-- The data source answers an activity that waits for it. -/
def deliver? (c : Cache) (store : σ) (outcome : FetchOutcome ρ) :
    Activity ρ → Option (ActivityStep ρ σ)
  | .read query format (.fetching flight) =>
    some (ofReadTurn query format store (Read.afterFetch c query format flight outcome))
  | .read query format .bypassing =>
    some (ofReadTurn query format store (Read.afterBypass c outcome))
  | _ => none

/-- An activity that has not ended is broken off, and with it the jobs that it waits for. -/
def abort? (c : Cache) (store : σ) : Activity ρ → Option (ActivityStep ρ σ)
  | .read _ _ (.ended _) => none
  | .read query format stage =>
    some (ofReadTurn query format store (Read.breakOff c stage.leads? .aborted []))
  | .change _ .ended | .change _ .aborted => none
  | .change event _ => some (ofInvalidationTurn event store { cache := c, stage := .aborted })
  | .request _ (.ended _) | .request _ .aborted => none
  | .request asked _ =>
    some { cache := c, store := store, activity := .request asked .aborted }
  | .job .finished | .job .brokeDown => none
  | .job _ => some { cache := c, store := store, activity := .job .brokeDown }

def move? [Medium σ] (now : Nat) (c : Cache) (store : σ) (activity : Activity ρ) :
    Move ρ → Option (ActivityStep ρ σ)
  | .go _ => activity.go? now c store
  | .goJob _ index => activity.goJob? now c store index
  | .deliver _ outcome => activity.deliver? c store outcome
  | .abort _ => activity.abort? c store

end Activity

/-- A node and its store after a move, with what was reported. -/
structure NodeStep (ρ σ : Type) where
  node : Node ρ
  store : σ
  notices : List Notice

namespace Node

variable {ρ σ : Type}

/-- Start an activity. It is the last one, and its number is the count of activities before it. -/
def start (node : Node ρ) (activity : Activity ρ) : Node ρ :=
  { node with activities := node.activities ++ [activity] }

/-- Make a move, if its activity can go on in that way. Jobs that are sent off become activities. -/
def move? [Medium σ] (now : Nat) (node : Node ρ) (store : σ) (move : Move ρ) :
    Option (NodeStep ρ σ) := do
  let activity ← node.activities[move.activity]?
  let step ← activity.move? now node.cache store move
  return {
    node := {
      cache := step.cache
      activities :=
        node.activities.set move.activity step.activity ++ step.spawned.map Activity.ofJob
      fetches := if step.fetches then node.fetches + 1 else node.fetches }
    store := step.store
    notices := step.notices }

end Node

end ReadThrough
