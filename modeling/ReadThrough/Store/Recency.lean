import ReadThrough.Store.Call

/-! # The recency store

An in-process store of bounded size. Its slots stand in the order of their last use, the latest
first; when there are too many, the last one goes. A slot whose deadline has passed reads as absent,
and goes when it is looked at.

* `RecencyStore.look` reads a key, and moves a live slot to the front;
* `RecencyStore.place` stores a slot at the front;
* a read never moves a deadline.
-/

namespace ReadThrough

/-- A value, and the time from which it is gone, if any. -/
structure Slot where
  value : String
  deadline : Option Nat
deriving DecidableEq

def Slot.isStale (slot : Slot) (now : Nat) : Bool :=
  match slot.deadline with
  | some deadline => deadline ≤ now
  | none => false

/-- The last second that the clock can show, in nanoseconds, is before this. -/
def clockLimit : Nat := Int64.size / 2 * nanosPerSecond

/-- The slots from the latest used to the earliest, the greatest number of them, the settings of the
first set-up, and the factors for times to live. -/
structure RecencyStore where
  capacity : Nat
  capacity_pos : 0 < capacity
  slots : List (String × Slot) := []
  settings : Option Settings := none
  jitter : Jitter := .steady

namespace RecencyStore

/-- An empty store. Its capacity must not be zero. -/
def create (capacity : Nat) (jitter : Jitter) : Except Failure RecencyStore :=
  if h : 0 < capacity then .ok { capacity := capacity, capacity_pos := h, jitter := jitter }
  else .error (.configuration .noCapacity)

def notReady : Fault := .failed (.configuration (.usedBeforeInit .lru))

/-- Keep the settings if they are the first, and report if not. -/
def init (store : RecencyStore) (settings : Settings) : RecencyStore × List Notice :=
  match store.settings with
  | none => ({ store with settings := some settings }, [])
  | some _ => (store, [.alreadyInitialized .lru])

/-! ## Single keys -/

def without (key : String) (slots : List (String × Slot)) : List (String × Slot) :=
  slots.filter fun entry => entry.1 ≠ key

/-- Read a key at a given time. A live slot moves to the front, an expired one goes. -/
def look (store : RecencyStore) (now : Nat) (key : String) : RecencyStore × Option String :=
  match store.slots.lookup key with
  | none => (store, none)
  | some slot =>
    if slot.isStale now then ({ store with slots := without key store.slots }, none)
    else ({ store with slots := (key, slot) :: without key store.slots }, some slot.value)

/-- Put a slot to the front; the last slot goes if there are too many. -/
def place (store : RecencyStore) (key : String) (slot : Slot) : RecencyStore :=
  { store with slots := ((key, slot) :: without key store.slots).take store.capacity }

def delete (store : RecencyStore) (key : String) : RecencyStore :=
  { store with slots := without key store.slots }

/-- The deadline of an entry that lives so long from now. Work breaks down beyond the clock. -/
def deadline (now : Nat) : Option Duration → Except Fault (Option Nat)
  | none => .ok none
  | some ttl =>
    if now + ttl.nanos < clockLimit then .ok (some (now + ttl.nanos)) else .error .brokeDown

/-- A slot for a value, with a fresh time to live. -/
def newSlot (store : RecencyStore) (now : Nat) (value : String) :
    RecencyStore × Except Fault Slot :=
  match store.settings with
  | none => (store, .error notReady)
  | some settings =>
    let drawn := { store with jitter := store.jitter.advance }
    match settings.lifetime store.jitter.next with
    | .error fault => (drawn, .error fault)
    | .ok ttl =>
      match deadline now ttl with
      | .error fault => (drawn, .error fault)
      | .ok deadline => (drawn, .ok ⟨value, deadline⟩)

def put (store : RecencyStore) (now : Nat) (entry : Entry) : RecencyStore × Reply .done :=
  match store.newSlot now entry.value with
  | (store, .ok slot) => (store.place entry.key slot, .ok ())
  | (store, .error fault) => (store, .error fault)

/-! ## Several keys -/

def lookAll (store : RecencyStore) (now : Nat) :
    List String → RecencyStore × List (Option String)
  | [] => (store, [])
  | key :: rest =>
    let (store, value) := store.look now key
    let (store, values) := store.lookAll now rest
    (store, value :: values)

/-- Look for several keys, up to the first that is absent. -/
def containsAll (store : RecencyStore) (now : Nat) : List String → RecencyStore × Bool
  | [] => (store, true)
  | key :: rest =>
    match store.look now key with
    | (store, some _) => store.containsAll now rest
    | (store, none) => (store, false)

/-- Slots for several entries. No slot is made once one cannot be. -/
def newSlots (store : RecencyStore) (now : Nat) :
    List Entry → RecencyStore × Except Fault (List (String × Slot))
  | [] => (store, .ok [])
  | entry :: rest =>
    match store.newSlot now entry.value with
    | (store, .error fault) => (store, .error fault)
    | (store, .ok slot) =>
      match store.newSlots now rest with
      | (store, .error fault) => (store, .error fault)
      | (store, .ok slots) => (store, .ok ((entry.key, slot) :: slots))

def putAll (store : RecencyStore) (now : Nat) (entries : List Entry) :
    RecencyStore × Reply .done :=
  match store.newSlots now entries with
  | (store, .ok slots) =>
    (slots.foldl (fun store entry => store.place entry.1 entry.2) store, .ok ())
  | (store, .error fault) => (store, .error fault)

def deleteAll (store : RecencyStore) (keys : List String) : RecencyStore :=
  keys.foldl delete store

/-! ## Sweeps and calls -/

def sweepKeys (store : RecencyStore) (segments : String) : List String :=
  (store.slots.filter fun entry => isUnder entry.1 segments).map (·.1)

def sweepOn (store : RecencyStore) (keys : List String) : StoreStep RecencyStore .done :=
  match keys with
  | [] => .answer store (.ok ())
  | _ =>
    { store := store.deleteAll (keys.take sweepPortion)
      operation := .sweeping (keys.drop sweepPortion) }

def start {k : ReplyKind} (store : RecencyStore) (now : Nat) : Call k → StoreStep RecencyStore k
  | .init settings =>
    let (store, notices) := store.init settings
    { store := store, operation := .answered (.ok ()), notices := notices }
  | .contains key =>
    let (store, value) := store.look now key
    .answer store (.ok value.isSome)
  | .containsAll keys =>
    let (store, all) := store.containsAll now keys
    .answer store (.ok all)
  | .get key =>
    match store.look now key with
    | (store, some value) => .answer store (.ok value)
    | (store, none) => .answer store (.error (.failed .notFound))
  | .getAll keys =>
    let (store, values) := store.lookAll now keys
    .answer store (.ok values)
  | .put entry =>
    let (store, reply) := store.put now entry
    .answer store reply
  | .putAll entries =>
    let (store, reply) := store.putAll now entries
    .answer store reply
  | .delete key => .answer (store.delete key) (.ok ())
  | .deleteAll keys => .answer (store.deleteAll keys) (.ok ())
  | .sweep segments => store.sweepOn (store.sweepKeys segments)
  | .clear =>
    match store.settings with
    | none => .answer store (.error notReady)
    | some settings => store.sweepOn (store.sweepKeys settings.scope)

/-- The next step of an operation; an answered one has none. -/
def step? {k : ReplyKind} (now : Nat) (store : RecencyStore) :
    Operation k → Option (StoreStep RecencyStore k)
  | .asked call | .held call => some (store.start now call)
  | .sweeping rest => some (store.sweepOn rest)
  | .answered _ => none

instance : Medium RecencyStore where
  kind _ := .lru
  step? now store operation := store.step? now operation

end RecencyStore

end ReadThrough
