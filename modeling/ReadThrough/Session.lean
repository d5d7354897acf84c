import ReadThrough.Node
import ReadThrough.Store

/-! # Sessions

A `Session` runs several caches over stores that they may share, on one thread. Activities wait in
a queue; the first one runs until it has to wait, and whatever can go on then joins the queue at its
end. A session is settled when the queue is empty.

* `Session.connect` sets a cache up on a store;
* `Session.begin` starts an activity, `Session.openGate`, `Session.release` and `Session.abort` let
  activities go on, and each of them settles the session;
* every step on the way is a `Node.move?`, so a session is one run among those a node can make.
-/

namespace ReadThrough

/-! ## State -/

/-- An activity of a session: the number of its node, and its number there. -/
structure ActivityRef where
  node : Nat
  activity : ActivityId
deriving DecidableEq

/-- What the data source is going to answer a read, as soon as the gate is open. -/
structure Source (ρ : Type) where
  outcome : FetchOutcome ρ
  gate : Option String

/-- A node and the number of its store. -/
structure Station (ρ : Type) where
  node : Node ρ
  store : Nat

/-- Caches at work, with an empty place for each that could not be set up; stores; the time; what
the data source will answer; the gates that are open; the activities whose calls are held back, in
the order in which they were; and what was reported. -/
structure Session (ρ : Type) where
  stations : Array (Option (Station ρ)) := #[]
  stores : Array Store := #[]
  now : Nat := 0
  sources : List (ActivityRef × Source ρ) := []
  openGates : List String := []
  parked : List ActivityRef := []
  notices : List Notice := []

namespace Session

variable {ρ : Type}

def station? (s : Session ρ) (place : Nat) : Option (Station ρ) := (s.stations[place]?).join

def activity? (s : Session ρ) (ref : ActivityRef) : Option (Activity ρ) :=
  (s.station? ref.node).bind fun station => station.node.activities[ref.activity]?

def fetches (s : Session ρ) : Nat :=
  s.stations.foldl (fun n place => n + (place.map fun station => station.node.fetches).getD 0) 0

def move? (s : Session ρ) (place : Nat) (move : Move ρ) : Option (Session ρ) := do
  let station ← s.station? place
  let store ← s.stores[station.store]?
  let step ← station.node.move? s.now store move
  return { s with
    stations := s.stations.set! place (some { station with node := step.node })
    stores := s.stores.set! station.store step.store
    notices := s.notices ++ step.notices }

/-! ## Turns of an activity -/

/-- The answer that the data source has ready for an activity. -/
def readyOutcome? (s : Session ρ) (ref : ActivityRef) : Option (FetchOutcome ρ) :=
  match s.sources.lookup ref with
  | some ⟨outcome, none⟩ => some outcome
  | some ⟨outcome, some gate⟩ => if s.openGates.contains gate then some outcome else none
  | none => none

def openJob? (jobs : List JobRun) (start : Nat) : Option Nat :=
  ((jobs.mapIdx fun i job => (i, job)).find? fun entry =>
    start ≤ entry.1 && !entry.2.isFinished && !entry.2.isBroken).map (·.1)

/-- The next move of an activity by itself: a turn, or taking in what the data source has ready. -/
def goOn? (s : Session ρ) (ref : ActivityRef) : Option (Session ρ) :=
  match s.move? ref.node (.go ref.activity) with
  | some next => some next
  | none => do
    let outcome ← s.readyOutcome? ref
    s.move? ref.node (.deliver ref.activity outcome)

/-- Run an activity until it has to wait, with the jobs it waits for each run in order as far as
they go; jobs before `job` have been. The second component says whether the activity only made way
for others in the middle of a sweep. -/
def runActivity :
    (turns : Nat) → Session ρ → ActivityRef → (job : Nat) → (madeWay : Bool) → Session ρ × Bool
  | 0, s, _, _, madeWay => (s, madeWay)
  | turns + 1, s, ref, job, madeWay =>
    let jobs := ((s.activity? ref).map Activity.jobs).getD []
    match if jobs.any JobRun.isBroken then none else openJob? jobs job with
    | some i =>
      match s.move? ref.node (.goJob ref.activity i) with
      | none => runActivity turns s ref (i + 1) madeWay
      | some next =>
        let sweeping := (((next.activity? ref).bind fun activity => activity.jobs[i]?).map
          JobRun.isSweeping).getD false
        if sweeping then runActivity turns next ref (i + 1) true
        else runActivity turns next ref i madeWay
    | none =>
      match s.goOn? ref with
      | none => (s, madeWay)
      | some next =>
        if ((next.activity? ref).map Activity.isSweeping).getD false then (next, true)
        else runActivity turns next ref 0 madeWay

/-! ## Settling -/

/-- The activities of a node from a number on that follow a flight which has ended. -/
def wokenFollowers (place : Nat) (node : Node ρ) : List ActivityRef :=
  (node.activities.mapIdx fun i activity => (i, activity)).filterMap fun entry =>
    match entry.2.follows? with
    | none => none
    | some flight =>
      match node.cache.flights.state? flight with
      | some .running | none => none
      | some _ => some ⟨place, entry.1⟩

/-- The jobs sent off by a node since it had `count` activities. -/
def newActivities (place : Nat) (node : Node ρ) (count : Nat) : List ActivityRef :=
  (List.range (node.activities.length - count)).map fun i => ⟨place, count + i⟩

/-- What joins the queue after an activity of a node ran: jobs sent off, then followers that can go
on. -/
def woken (s : Session ρ) (place count : Nat) (queue : List ActivityRef) : List ActivityRef :=
  match s.station? place with
  | none => []
  | some station =>
    newActivities place station.node count ++
      (wokenFollowers place station.node).filter fun ref => !queue.contains ref

def park (s : Session ρ) (ref : ActivityRef) : Session ρ :=
  if ((s.activity? ref).map Activity.isHeld).getD false && !s.parked.contains ref then
    { s with parked := s.parked ++ [ref] }
  else s

/-- Run the activities of a queue until nothing can go on. Activities that made way come after all
others. -/
def settleFor : (turns : Nat) → Session ρ → (queue later : List ActivityRef) → Session ρ
  | 0, s, _, _ => s
  | turns + 1, s, queue, later =>
    match queue, later with
    | [], [] => s
    | [], later => settleFor turns s later []
    | ref :: rest, later =>
      let count := ((s.station? ref.node).map fun station => station.node.activities.length).getD 0
      let (next, madeWay) := runActivity stepLimit s ref 0 false
      let next := next.park ref
      settleFor turns next (rest ++ next.woken ref.node count rest)
        (if madeWay then later ++ [ref] else later)

/-- Run until nothing can go on, starting with some activities. -/
def settle (s : Session ρ) (queue : List ActivityRef) : Session ρ :=
  settleFor stepLimit s queue []

/-! ## What callers do -/

def addStore (s : Session ρ) (store : Store) : Session ρ × Nat :=
  ({ s with stores := s.stores.push store }, s.stores.size)

def callStore {k : ReplyKind} (s : Session ρ) (number : Nat) (call : Call k) :
    Session ρ × Option (Operation k) :=
  match s.stores[number]? with
  | none => (s, none)
  | some store =>
    let (store, operation, notices) := Medium.run s.now store call
    ({ s with
        stores := s.stores.set! number store
        notices := s.notices ++ notices }, some operation)

def leaveEmpty (s : Session ρ) : Session ρ := { s with stations := s.stations.push none }

/-- Set a cache up on a store, and say how it went. Its place stays empty if the configuration is
refused or the store cannot be set up. There is no answer if there is no such store, or if it does
not answer by itself. -/
def connect (s : Session ρ) (config : Configuration) (drawnId : String) (number : Nat) :
    Session ρ × Option (Except Failure Unit) :=
  match Cache.create config drawnId, s.stores[number]? with
  | .error failure, _ => (s.leaveEmpty, some (.error failure))
  | .ok _, none => (s.leaveEmpty, none)
  | .ok c, some store =>
    match s.callStore number (.init c.settings) with
    | (s, some (.answered (.ok _))) =>
      ({ s with
          stations := s.stations.push (some ⟨{ cache := c }, number⟩)
          notices := s.notices ++
            [.cacheReady c.space.id (Medium.kind store) c.config.level] }, some (.ok ()))
    | (s, some (.answered (.error (.failed failure)))) =>
      ({ s.leaveEmpty with
          notices := s.notices ++ [.storeInitFailed (Medium.kind store)] },
        some (.error failure))
    | (s, _) => (s.leaveEmpty, none)

/-- Start an activity at a place and settle. A read comes with what the data source will answer. -/
def begin (s : Session ρ) (place : Nat) (activity : Activity ρ) (source : Option (Source ρ)) :
    Session ρ × Option ActivityRef :=
  match s.station? place with
  | none => (s, none)
  | some station =>
    let ref : ActivityRef := ⟨place, station.node.activities.length⟩
    let s := { s with
      stations := s.stations.set! place
        (some { station with node := station.node.start activity })
      sources :=
        match source with
        | some source => (ref, source) :: s.sources
        | none => s.sources }
    (s.settle [ref], some ref)

/-- Open a gate for good, and settle with the activities that wait at it. -/
def openGate (s : Session ρ) (gate : String) : Session ρ :=
  let waiting := s.sources.reverse.filterMap fun entry =>
    if entry.2.gate = some gate then some entry.1 else none
  { s with openGates := gate :: s.openGates }.settle waiting

/-- Break an activity off, and settle with the activities that waited for it. -/
def abort (s : Session ρ) (ref : ActivityRef) : Session ρ :=
  match s.move? ref.node (.abort ref.activity) with
  | none => s
  | some next =>
    let next := { next with parked := next.parked.filter (· ≠ ref) }
    next.settle <| match next.station? ref.node with
      | some station => wokenFollowers ref.node station.node
      | none => []

/-- Let the calls go on that a recording store holds back, in the order in which they were held. -/
def release (s : Session ρ) (number : Nat) : Session ρ :=
  match s.stores[number]? with
  | some (.recording store) =>
    let parkedHere (ref : ActivityRef) : Bool :=
      (s.station? ref.node).any fun station => station.store = number
    { s with
      stores := s.stores.set! number (.recording store.release)
      parked := s.parked.filter fun ref => !parkedHere ref }.settle (s.parked.filter parkedHere)
  | _ => s

def forgetRead (s : Session ρ) (place : Nat) (query : Query) : Session ρ :=
  match s.station? place with
  | none => s
  | some station =>
    { s with
      stations := s.stations.set! place
        (some { station with
          node := { station.node with
            cache := station.node.cache.forgetRead query } }) }

def sleep (s : Session ρ) (nanos : Nat) : Session ρ := { s with now := s.now + nanos }

end Session

end ReadThrough
