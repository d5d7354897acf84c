import Std.Data.TreeSet
import ReadThrough.Counters
import ReadThrough.Flights
import ReadThrough.Query
import ReadThrough.RowFormat
import ReadThrough.SearchEntry
import ReadThrough.Store.Call

/-! # Caches

A `Cache` stands between callers and a data source. It owns a key layout, the counters, the
in-flight reads and the unique indexes it knows of; entries are in a store outside.

* `Cache.create` checks a configuration;
* `Request` lists the direct operations on the cache, and `Cache.prepare` turns each into a
  single store call.
-/

namespace ReadThrough

/-- What a leading read leaves to its followers: rows as they are stored, or that there are none, or
the data source's failure. -/
inductive Outcome
  | found (payload : String) (rowsAffected : UInt64)
  | notFound
  | failed (text : String)
deriving DecidableEq

/-- The state of a cache between two accesses to its store. -/
structure Cache where
  config : Configuration
  space : KeyLayout
  counters : Counters := {}
  flights : Flights Outcome := {}
  /-- The unique indexes of a table that were declared, or seen while filling. -/
  indexes : Std.TreeMap String (Std.TreeSet String) := ∅

namespace Cache

/-! ## Creation -/

/-- A cache for a valid configuration. The drawn id is used if the configuration has none. -/
def create (config : Configuration) (drawnId : String) : Except Failure Cache :=
  match config.check with
  | .error failure => .error failure
  | .ok () => .ok {
      config := config
      space := ⟨config.instanceId.getD drawnId⟩
      indexes := config.declaredIndexes.map fun _ names => .ofList names }

def settings (c : Cache) : Settings :=
  ⟨c.config.ttl, c.config.debug, c.space.id⟩

def debugText (c : Cache) (store : StoreKind) : String :=
  Text.recordText "Coordinator" [
    ("instance_id", Text.quoted c.space.id),
    ("store", Text.quoted store.name),
    ("config", c.config.debugText)]

/-! ## Reports and indexes -/

/-- A notice that is given only when accesses are logged. -/
def accessNotice (c : Cache) (notice : Notice) : List Notice :=
  if c.config.debug then [notice] else []

/-- The unique indexes known for a table, in the order of their names. -/
def knownIndexes (c : Cache) (table : String) : List String :=
  (c.indexes.getD table ∅).toList

def learnIndexes (c : Cache) (table : String) (names : List String) : Cache :=
  if names.isEmpty then c
  else { c with indexes := c.indexes.insert table ((c.indexes.getD table ∅).insertMany names) }

/-! ## Keys -/

def pointKeys (c : Cache) (table : String) (lookup : Lookup) (sought : List CompositeKey) :
    List String :=
  match lookup with
  | .primary _ => sought.map (c.space.rowKey table)
  | .unique index _ => sought.map (c.space.indexKey table index)

def resultKey (c : Cache) (query : Query) : String :=
  c.space.resultKey query.table query.sql query.params

end Cache

/-! ## Direct operations -/

/-- A direct operation on the cache, with the kind of its reply. -/
inductive Request : ReplyKind → Type
  /-- Zero the counters and drop all entries under the instance id. -/
  | reset : Request .done
  | invalidateSearches (table : String) : Request .done
  | invalidatePrimary (table : String) (key : CompositeKey) : Request .done
  | invalidatePrimaries (table : String) (keys : List CompositeKey) : Request .done
  | invalidateAllPrimaries (table : String) : Request .done
  | invalidateUniques (table index : String) (keys : List CompositeKey) : Request .done
  | invalidateAllUniques (table index : String) : Request .done
  | containsPrimaries (table : String) (keys : List CompositeKey) : Request .flag
  | containsSearch (table sql : String) (params : List Param) : Request .flag
  | putPrimaries (table : String) (rows : List (CompositeKey × String)) : Request .done
  | putUniques (table index : String) (rows : List (CompositeKey × String)) : Request .done
  | putSearch (table sql : String) (params : List Param) (value : String) : Request .done
  | getSearch (table sql : String) (params : List Param) : Request .text
  | getPrimaries (table : String) (keys : List CompositeKey) : Request .slots
  | getUniques (table index : String) (keys : List CompositeKey) : Request .slots

namespace Cache

/-- What a direct operation changes in the cache, and the call that it makes. A reset zeroes
the counters before its sweep, and storing under an index makes the index known. -/
def prepare {k : ReplyKind} (c : Cache) : Request k → Cache × Call k
  | .reset => ({ c with counters := {} }, .sweep c.space.id)
  | .invalidateSearches table => (c, .sweep (c.space.resultsOf table))
  | .invalidatePrimary table key => (c, .delete (c.space.rowKey table key))
  | .invalidatePrimaries table keys => (c, .deleteAll (keys.map (c.space.rowKey table)))
  | .invalidateAllPrimaries table => (c, .sweep (c.space.rowsOf table))
  | .invalidateUniques table index keys =>
    (c, .deleteAll (keys.map (c.space.indexKey table index)))
  | .invalidateAllUniques table index => (c, .sweep (c.space.indexOf table index))
  | .containsPrimaries table keys => (c, .containsAll (keys.map (c.space.rowKey table)))
  | .containsSearch table sql params => (c, .contains (c.space.resultKey table sql params))
  | .putPrimaries table rows =>
    (c, .putAll (rows.map fun row => ⟨c.space.rowKey table row.1, row.2⟩))
  | .putUniques table index rows =>
    (c.learnIndexes table [index],
      .putAll (rows.map fun row => ⟨c.space.indexKey table index row.1, row.2⟩))
  | .putSearch table sql params value => (c, .put ⟨c.space.resultKey table sql params, value⟩)
  | .getSearch table sql params => (c, .get (c.space.resultKey table sql params))
  | .getPrimaries table keys => (c, .getAll (keys.map (c.space.rowKey table)))
  | .getUniques table index keys => (c, .getAll (keys.map (c.space.indexKey table index)))

/-- The notice that a failed direct operation gives; only a reset gives one. -/
def failureNotice {k : ReplyKind} : Request k → List Notice
  | .reset => [.resetFailed]
  | _ => []

/-- Let later callers start afresh instead of joining the in-flight read like this one. -/
def forgetRead (c : Cache) (query : Query) : Cache :=
  { c with flights := c.flights.forget query.flightName }

end Cache

end ReadThrough
