import Std.Data.TreeMap
import ReadThrough.Store.Call

/-! # The expiring store

An in-process store in which every entry has a deadline. It never drops an entry before that.

* `ExpiringStore.get?` reads an entry as long as its deadline lies ahead;
* `ExpiringStore.put` draws a time to live for each entry it stores;
* `ExpiringStore.sweepKeys` are the keys that a sweep sets out to delete.
-/

namespace ReadThrough

/-- A value and the time from which it is gone. -/
structure DatedValue where
  value : String
  deadline : Nat
deriving DecidableEq

/-- The entries, the settings of the first set-up, and the factors for times to live. -/
structure ExpiringStore where
  entries : Std.TreeMap String DatedValue := ∅
  settings : Option Settings := none
  jitter : Jitter := .steady

namespace ExpiringStore

def notReady : Fault := .failed (.configuration (.usedBeforeInit .memory))

/-- Keep the settings if they are the first, and report if not. -/
def init (store : ExpiringStore) (settings : Settings) : ExpiringStore × List Notice :=
  match store.settings with
  | none => ({ store with settings := some settings }, [])
  | some _ => (store, [.alreadyInitialized .memory])

/-- The value of a key whose deadline lies ahead. -/
def get? (store : ExpiringStore) (now : Nat) (key : String) : Option String :=
  match store.entries[key]? with
  | some dated => if now < dated.deadline then some dated.value else none
  | none => none

def put (store : ExpiringStore) (now : Nat) (entry : Entry) : ExpiringStore × Reply .done :=
  match store.settings with
  | none => (store, .error notReady)
  | some settings =>
    let drawn := { store with jitter := store.jitter.advance }
    match settings.boundedLifetime store.jitter.next with
    | .error fault => (drawn, .error fault)
    | .ok ttl =>
      ({ drawn with
          entries := drawn.entries.insert entry.key ⟨entry.value, now + ttl.nanos⟩ }, .ok ())

/-- Store entries one after another, up to the first that cannot be stored. -/
def putAll (store : ExpiringStore) (now : Nat) : List Entry → ExpiringStore × Reply .done
  | [] => (store, .ok ())
  | entry :: rest =>
    match store.put now entry with
    | (store, .ok ()) => putAll store now rest
    | (store, .error fault) => (store, .error fault)

def delete (store : ExpiringStore) (key : String) : ExpiringStore :=
  { store with entries := store.entries.erase key }

def deleteAll (store : ExpiringStore) (keys : List String) : ExpiringStore :=
  keys.foldl delete store

def sweepKeys (store : ExpiringStore) (now : Nat) (segments : String) : List String :=
  (store.entries.toList.filter fun entry =>
    isUnder entry.1 segments && now < entry.2.deadline).map (·.1)

def sweepOn (store : ExpiringStore) (keys : List String) : StoreStep ExpiringStore .done :=
  match keys with
  | [] => .answer store (.ok ())
  | _ =>
    { store := store.deleteAll (keys.take sweepPortion)
      operation := .sweeping (keys.drop sweepPortion) }

def start {k : ReplyKind} (store : ExpiringStore) (now : Nat) :
    Call k → StoreStep ExpiringStore k
  | .init settings =>
    let (store, notices) := store.init settings
    { store := store, operation := .answered (.ok ()), notices := notices }
  | .contains key => .answer store (.ok (store.get? now key).isSome)
  | .containsAll keys => .answer store (.ok (keys.all fun key => (store.get? now key).isSome))
  | .get key =>
    match store.get? now key with
    | some value => .answer store (.ok value)
    | none => .answer store (.error (.failed .notFound))
  | .getAll keys => .answer store (.ok (keys.map (store.get? now)))
  | .put entry =>
    let (store, reply) := store.put now entry
    .answer store reply
  | .putAll entries =>
    let (store, reply) := store.putAll now entries
    .answer store reply
  | .delete key => .answer (store.delete key) (.ok ())
  | .deleteAll keys => .answer (store.deleteAll keys) (.ok ())
  | .sweep segments => store.sweepOn (store.sweepKeys now segments)
  | .clear =>
    match store.settings with
    | none => .answer store (.error notReady)
    | some settings => store.sweepOn (store.sweepKeys now settings.scope)

/-- The next step of an operation; an answered one has none. -/
def step? {k : ReplyKind} (now : Nat) (store : ExpiringStore) :
    Operation k → Option (StoreStep ExpiringStore k)
  | .asked call | .held call => some (store.start now call)
  | .sweeping rest => some (store.sweepOn rest)
  | .answered _ => none

instance : Medium ExpiringStore where
  kind _ := .memory
  step? now store operation := store.step? now operation

end ExpiringStore

end ReadThrough
