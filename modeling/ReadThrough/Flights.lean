import Std.Data.TreeMap

/-! # In-flight reads

A *flight* is one read of the data source that identical reads may share. Its leader does the work;
those who join it while it is registered are its followers and wait for what the leader leaves.

* `Flights` keeps every flight ever led, by number, and the registry of those that can be joined;
* `join`, `forget`, `forgetStarting`, `complete` and `abandon` are all that happens to it;
* a follower reads what became of its flight with `state?`.
-/

namespace ReadThrough

/-- How a flight stands. -/
inductive FlightState (α : Type)
  | running
  | completed (value : α)
  | abandoned
deriving DecidableEq

/-- A shared read: its key, how it stands, how many followers ever joined it, and whether it was
removed from the registry while running. -/
structure Flight (α : Type) where
  key : String
  state : FlightState α := .running
  followers : Nat := 0
  forgotten : Bool := false

abbrev FlightId := Nat

/-- The part a caller plays in a flight. -/
inductive FlightRole
  | leader (flight : FlightId)
  | follower (flight : FlightId)
deriving DecidableEq

/-- All flights in the order in which they started, and the registry: by key, the flight that a
caller for the key joins. -/
structure Flights (α : Type) where
  all : List (Flight α) := []
  registry : Std.TreeMap String FlightId := ∅

namespace Flights

variable {α : Type}

def state? (flights : Flights α) (flight : FlightId) : Option (FlightState α) :=
  flights.all[flight]?.map Flight.state

def followers (flights : Flights α) (flight : FlightId) : Nat :=
  (flights.all[flight]?.map Flight.followers).getD 0

def openCount (flights : Flights α) : Nat := flights.registry.size

/-- Join the flight of a key, or lead a new one if there is none to join. -/
def join (flights : Flights α) (key : String) : Flights α × FlightRole :=
  match flights.registry[key]? with
  | some flight =>
    ({ flights with
        all := flights.all.modify flight fun f => { f with followers := f.followers + 1 } },
      .follower flight)
  | none =>
    let flight := flights.all.length
    ({ all := flights.all ++ [{ key := key }], registry := flights.registry.insert key flight },
      .leader flight)

def markForgotten (flights : Flights α) (ids : List FlightId) : List (Flight α) :=
  flights.all.mapIdx fun i f => if i ∈ ids then { f with forgotten := true } else f

/-- Let later callers for a key start afresh. Those who joined already still wait for the flight. -/
def forget (flights : Flights α) (key : String) : Flights α :=
  match flights.registry[key]? with
  | some flight =>
    { all := flights.markForgotten [flight], registry := flights.registry.erase key }
  | none => flights

/-- Forget the flights of all keys that start with a text. -/
def forgetStarting (flights : Flights α) (start : String) : Flights α :=
  let starts (key : String) : Bool := start.toList.isPrefixOf key.toList
  let matching := (flights.registry.toList.filter fun entry => starts entry.1).map (·.2)
  { all := flights.markForgotten matching
    registry := flights.registry.filter fun key _ => !starts key }

/-- End a flight. Its key leaves the registry, unless the flight was forgotten: then the key may
belong to a newer flight. -/
def finish (flights : Flights α) (flight : FlightId) (state : FlightState α) : Flights α :=
  match flights.all[flight]? with
  | none => flights
  | some f =>
    { all := flights.all.modify flight fun f => { f with state := state }
      registry := if f.forgotten then flights.registry else flights.registry.erase f.key }

/-- The leader leaves a value to its followers and ends the flight. -/
def complete (flights : Flights α) (flight : FlightId) (value : α) : Flights α :=
  flights.finish flight (.completed value)

def abandon (flights : Flights α) (flight : FlightId) : Flights α :=
  flights.finish flight .abandoned

end Flights

end ReadThrough
