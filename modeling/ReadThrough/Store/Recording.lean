import Std.Data.TreeMap
import ReadThrough.Store.Call

/-! # The recording store

A plain map for trying a cache out. It logs every call, can be told to fail calls, to hold
them back, and to leave out the last slot of its answers. Nothing in it expires.

* `RecordingStore.fail`, `hold`, `release` and `shorten` give the instructions;
* a call is logged first, then waits while its method is held back, then fails if a failure is due,
  and only then acts;
* asking for several keys at once is asking for one after another, up to the first that is absent.
-/

namespace ReadThrough

/-- A call of any kind. -/
structure AnyCall where
  kind : ReplyKind
  call : Call kind

def Call.method {k : ReplyKind} : Call k → String
  | .init _ => "init"
  | .contains _ | .containsAll _ => "exists"
  | .get _ => "get"
  | .getAll _ => "batch_get"
  | .put _ => "set"
  | .putAll _ => "batch_set"
  | .delete _ => "delete"
  | .deleteAll _ => "batch_delete"
  | .sweep _ => "delete_prefix"
  | .clear => "clear"

/-- The entries, the calls logged, newest first, and the instructions in force. -/
structure RecordingStore where
  entries : Std.TreeMap String String := ∅
  log : List AnyCall := []
  failures : Std.TreeMap String Nat := ∅
  heldMethods : List String := []
  shortAnswers : Nat := 0

namespace RecordingStore

/-! ## Instructions -/

/-- Let the next calls of a method fail, so many of them. -/
def fail (store : RecordingStore) (method : String) (times : Nat) : RecordingStore :=
  { store with failures := store.failures.insert method times }

/-- Hold back the calls of a method from now on. -/
def hold (store : RecordingStore) (method : String) : RecordingStore :=
  { store with heldMethods := method :: store.heldMethods }

def release (store : RecordingStore) : RecordingStore :=
  { store with heldMethods := [] }

/-- Leave out the last slot of so many answers. -/
def shorten (store : RecordingStore) (times : Nat) : RecordingStore :=
  { store with shortAnswers := times }

/-! ## Calls -/

/-- The slots for several keys. The last one is missing while short answers are due. -/
def slots (store : RecordingStore) (keys : List String) :
    RecordingStore × List (Option String) :=
  let values := keys.map fun key => store.entries[key]?
  if 0 < store.shortAnswers then
    ({ store with shortAnswers := store.shortAnswers - 1 }, values.dropLast)
  else (store, values)

def eraseAll (store : RecordingStore) (keys : List String) : RecordingStore :=
  { store with entries := keys.foldl (fun map key => map.erase key) store.entries }

/-- Carry out a call that is neither held back nor refused. -/
def act {k : ReplyKind} (store : RecordingStore) : Call k → StoreStep RecordingStore k
  | .init _ | .clear => .answer store (.ok ())
  | .contains key => .answer store (.ok (store.entries.contains key))
  | .containsAll [] => .answer store (.ok true)
  | .containsAll (key :: rest) =>
    if store.entries.contains key then { store := store, operation := .asked (.containsAll rest) }
    else .answer store (.ok false)
  | .get key =>
    match store.entries[key]? with
    | some value => .answer store (.ok value)
    | none => .answer store (.error (.failed .notFound))
  | .getAll keys =>
    let (store, values) := store.slots keys
    .answer store (.ok values)
  | .put entry =>
    .answer { store with entries := store.entries.insert entry.key entry.value } (.ok ())
  | .putAll entries =>
    .answer { store with
      entries := entries.foldl (fun map entry => map.insert entry.key entry.value) store.entries }
      (.ok ())
  | .delete key => .answer { store with entries := store.entries.erase key } (.ok ())
  | .deleteAll keys => .answer (store.eraseAll keys) (.ok ())
  | .sweep segments =>
    .answer { store with entries := store.entries.filter fun key _ => !isUnder key segments }
      (.ok ())

/-- Fail a call if a failure of its method is due, else carry it out. -/
def attempt {k : ReplyKind} (store : RecordingStore) (call : Call k) :
    StoreStep RecordingStore k :=
  match store.failures.getD call.method 0 with
  | 0 => store.act call
  | times + 1 =>
    .answer { store with failures := store.failures.insert call.method times }
      (.error (.failed (.backend (.refused call.method))))

/-- What is logged of a call; asking for no keys at all is not logged. -/
def logged? {k : ReplyKind} : Call k → Option AnyCall
  | .containsAll [] => none
  | .containsAll (key :: _) => some ⟨.flag, .contains key⟩
  | call => some ⟨k, call⟩

/-- The next step of an operation. A held one has none as long as its method is held back. A sweep
takes a single step here; one that has keys left would delete them in another. -/
def step? {k : ReplyKind} (store : RecordingStore) :
    Operation k → Option (StoreStep RecordingStore k)
  | .asked call =>
    match logged? call with
    | none => some (store.act call)
    | some record =>
      let store := { store with log := record :: store.log }
      if call.method ∈ store.heldMethods then some { store := store, operation := .held call }
      else some (store.attempt call)
  | .held call => if call.method ∈ store.heldMethods then none else some (store.attempt call)
  | .sweeping rest => some (.answer (store.eraseAll rest) (.ok ()))
  | .answered _ => none

instance : Medium RecordingStore where
  kind _ := .record
  step? _ store operation := store.step? operation

end RecordingStore

end ReadThrough
