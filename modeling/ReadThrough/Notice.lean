import ReadThrough.Configuration
import ReadThrough.Change

/-! # Notices

What caches and stores report while they work. A `Notice` is data; `Notice.severity`,
`Notice.message` and `Notice.fields` say how it is logged.
-/

namespace ReadThrough

/-- How serious a notice is. -/
inductive Severity
  | debug
  | info
  | warn
  | error
deriving DecidableEq

def Severity.text : Severity → String
  | .debug => "DEBUG"
  | .info => "INFO"
  | .warn => "WARN"
  | .error => "ERROR"

/-- A deletion from the point namespaces: some keys, or all keys under a prefix. -/
inductive Deletion
  | keys (list : List String)
  | under (segments : String)
deriving DecidableEq

def Deletion.debugText : Deletion → String
  | .keys list => Text.tupleText "Keys" [Text.listText (list.map Text.quoted)]
  | .under segments => Text.tupleText "Prefix" [Text.quoted segments]

/-- A report. -/
inductive Notice
  | storeInitFailed (store : StoreKind)
  | cacheReady (instanceId : String) (store : StoreKind) (level : Level)
  | resetFailed
  | abandonedFlight (key : String)
  | followerHit (key : String)
  | pointHit (table : String) (keys : Nat)
  | searchHit (table sql : String)
  | negativeHit (table sql : String)
  | miss (table sql : String)
  | pointLookupFailed (table : String)
  | searchLookupFailed (table sql : String)
  | pointEntriesUnreadable (table : String)
  | searchEntryMalformed (table sql : String)
  | searchEntryUnreadable (table : String)
  | rowsShared (key : String) (followers : Nat)
  | rowsUnencodable (table : String)
  | rowUnencodable (table : String)
  | overItemLimit (table : String) (rows : Nat)
  | noPrimaryKey (table : String)
  | rememberingNotFound (table sql : String)
  | searchFillFailed (table : String)
  | pointFillFailed (table : String) (count : Nat)
  | negativeFillFailed (table : String)
  | invalidating (table : String) (kind : ChangeKind)
  | deletionFailed (table : String) (deletion : Deletion)
  | pointsInvalidated (table : String) (deletions : Nat)
  | searchesInvalidated (table : String)
  | sweepFailed (table : String)
  | alreadyInitialized (store : StoreKind)
  | remoteReady (script : String)
  | remoteSweep (segments : String) (deleted : Nat)
deriving DecidableEq

namespace Notice

def severity : Notice → Severity
  | .cacheReady .. | .remoteReady .. => .info
  | .pointEntriesUnreadable .. | .searchEntryMalformed .. | .searchEntryUnreadable ..
  | .rowsUnencodable .. | .rowUnencodable .. => .warn
  | .storeInitFailed .. | .resetFailed | .pointLookupFailed .. | .searchLookupFailed ..
  | .searchFillFailed .. | .pointFillFailed .. | .negativeFillFailed .. | .deletionFailed ..
  | .sweepFailed .. => .error
  | _ => .debug

def message : Notice → String
  | .storeInitFailed .. => "cache store init failed"
  | .cacheReady .. => "cache coordinator initialized"
  | .resetFailed => "cache reset failed"
  | .abandonedFlight .. => "in-flight read abandoned, joining again"
  | .followerHit .. => "singleflight hit"
  | .pointHit .. => "point cache hit"
  | .searchHit .. => "search cache hit"
  | .negativeHit .. => "negative cache hit"
  | .miss .. => "cache miss"
  | .pointLookupFailed .. => "point cache lookup failed"
  | .searchLookupFailed .. => "search cache lookup failed"
  | .pointEntriesUnreadable .. => "cannot decode point cache entries"
  | .searchEntryMalformed .. => "malformed search cache entry"
  | .searchEntryUnreadable .. => "cannot decode search cache entry"
  | .rowsShared .. => "fetched rows shared"
  | .rowsUnencodable .. => "cannot encode rows, not cached"
  | .rowUnencodable .. => "cannot encode row, not cached"
  | .overItemLimit .. => "result over item limit, not cached"
  | .noPrimaryKey .. => "rows without a primary key, primary cache skipped"
  | .rememberingNotFound .. => "caching not-found result"
  | .searchFillFailed .. => "set search cache failed"
  | .pointFillFailed .. => "set point cache failed"
  | .negativeFillFailed .. => "set negative cache failed"
  | .invalidating .. => "invalidating after write"
  | .deletionFailed .. => "invalidating point cache failed"
  | .pointsInvalidated .. => "point cache invalidated"
  | .searchesInvalidated .. => "search cache invalidated"
  | .sweepFailed .. => "invalidating search cache failed"
  | .alreadyInitialized store => store.name ++ " store already initialized, keeping first settings"
  | .remoteReady .. => "redis store initialized"
  | .remoteSweep .. => "redis prefix sweep finished"

def fields : Notice → List (String × String)
  | .storeInitFailed store => [("store", store.name)]
  | .cacheReady instanceId store level =>
    [("instance_id", instanceId), ("store", store.name), ("level", level.text)]
  | .resetFailed | .alreadyInitialized _ => []
  | .abandonedFlight key | .followerHit key => [("key", key)]
  | .pointHit table keys => [("table", table), ("keys", toString keys)]
  | .searchHit table sql | .negativeHit table sql | .miss table sql
  | .searchLookupFailed table sql | .searchEntryMalformed table sql
  | .rememberingNotFound table sql => [("table", table), ("sql", sql)]
  | .pointLookupFailed table | .pointEntriesUnreadable table | .searchEntryUnreadable table
  | .rowsUnencodable table | .rowUnencodable table | .noPrimaryKey table
  | .searchFillFailed table | .negativeFillFailed table | .searchesInvalidated table
  | .sweepFailed table => [("table", table)]
  | .rowsShared key followers => [("key", key), ("followers", toString followers)]
  | .overItemLimit table rows => [("table", table), ("rows", toString rows)]
  | .pointFillFailed table count => [("table", table), ("count", toString count)]
  | .invalidating table kind => [("table", table), ("kind", kind.text)]
  | .deletionFailed table deletion => [("table", table), ("purge", deletion.debugText)]
  | .pointsInvalidated table deletions => [("table", table), ("purges", toString deletions)]
  | .remoteReady script => [("script", script)]
  | .remoteSweep segments deleted => [("prefix", segments), ("deleted", toString deleted)]

end Notice

end ReadThrough
