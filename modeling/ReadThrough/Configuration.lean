import Std.Data.TreeMap
import ReadThrough.Duration
import ReadThrough.Failure
import ReadThrough.Text.Quoted

/-! # Configuration of a cache

* `Level` selects the namespaces that are read and filled;
* `Configuration` holds the settings, with the defaults of its fields;
* `Configuration.check` rejects empty names and instance ids that would break the layout of keys.
-/

namespace ReadThrough

/-- Which namespaces a cache reads and fills. -/
inductive Level
  | off
  | onlyPrimary
  | onlySearch
  | all
deriving DecidableEq

namespace Level

/-- Whether rows are cached under their primary and unique keys. -/
def cachesPoints : Level → Bool
  | .onlyPrimary | .all => true
  | .off | .onlySearch => false

def cachesSearches : Level → Bool
  | .onlySearch | .all => true
  | .off | .onlyPrimary => false

def text : Level → String
  | .off => "Off"
  | .onlyPrimary => "OnlyPrimary"
  | .onlySearch => "OnlySearch"
  | .all => "All"

end Level

/-- The settings of a cache. -/
structure Configuration where
  level : Level := .all
  /-- The base time to live of every entry; zero means that entries do not expire. -/
  ttl : Duration := .zero
  /-- Results with more rows are not cached; zero means no limit. -/
  rowLimit : Nat := 0
  /-- Only these tables are cached; an empty list caches every table. -/
  tables : List String := []
  /-- Unique indexes declared for a table. -/
  declaredIndexes : Std.TreeMap String (List String) := ∅
  /-- Whether a change deletes the entries that it may have made stale. -/
  invalidates : Bool := true
  /-- Whether fills and invalidations run without being waited for. -/
  detachesUpkeep : Bool := false
  /-- Whether a result without rows is remembered. -/
  remembersAbsence : Bool := true
  /-- Whether each access is logged. -/
  debug : Bool := false
  /-- The instance id; drawn when unset. -/
  instanceId : Option String := none
  /-- The storage medium; the in-process one when unset. -/
  storage : Option StoreKind := none

namespace Configuration

def declareIndexes (config : Configuration) (table : String) (indexes : List String) :
    Configuration :=
  { config with
    declaredIndexes := config.declaredIndexes.insert table
      (config.declaredIndexes.getD table [] ++ indexes) }

def admits (config : Configuration) (table : String) : Bool :=
  config.tables.isEmpty || config.tables.contains table

/-- Whether reads and changes of a table go through the cache. -/
def caches (config : Configuration) (table : String) : Bool :=
  config.level != .off && config.admits table

theorem caches_iff {config : Configuration} {table : String} : config.caches table ↔
    config.level ≠ .off ∧ (config.tables = [] ∨ table ∈ config.tables) := by
  simp [caches, admits]

/-- Whether a result of `count` rows is small enough to be cached. -/
def admitsCount (config : Configuration) (count : Nat) : Bool :=
  config.rowLimit = 0 || count ≤ config.rowLimit

theorem admitsCount_iff {config : Configuration} {count : Nat} :
    config.admitsCount count ↔ config.rowLimit = 0 ∨ count ≤ config.rowLimit := by
  simp [admitsCount]

/-- Whether a text can be an instance id: it is not empty and contains no colon. -/
def isInstanceId (id : String) : Bool :=
  !id.isEmpty && !id.toList.contains ':'

/-- Refuse empty names in the allow-list, then in the index declarations, then a bad instance id. -/
def check (config : Configuration) : Except Failure Unit :=
  if config.tables.any String.isEmpty then .error (.configuration .emptyTableName)
  else if config.declaredIndexes.toList.any fun declared =>
      declared.1.isEmpty || declared.2.any String.isEmpty then
    .error (.configuration .emptyIndexName)
  else
    match config.instanceId with
    | some id => if isInstanceId id then .ok () else .error (.configuration (.badInstanceId id))
    | none => .ok ()

def debugText (config : Configuration) : String :=
  Text.recordText "CacheConfig" [
    ("level", config.level.text),
    ("ttl", config.ttl.text),
    ("max_item_count", toString config.rowLimit),
    ("tables", Text.listText (config.tables.map Text.quoted)),
    ("unique_indexes", Text.mapText (config.declaredIndexes.toList.map fun declared =>
      (Text.quoted declared.1, Text.listText (declared.2.map Text.quoted)))),
    ("invalidate_on_write", Text.boolText config.invalidates),
    ("async_write", Text.boolText config.detachesUpkeep),
    ("penetration_protection", Text.boolText config.remembersAbsence),
    ("debug", Text.boolText config.debug),
    ("instance_id", Text.optionText (config.instanceId.map Text.quoted)),
    ("storage", Text.optionText (config.storage.map fun kind => Text.quoted kind.name))]

end Configuration

end ReadThrough
