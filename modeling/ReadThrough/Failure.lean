import ReadThrough.StoreKind
import ReadThrough.Text.Quoted

/-! # Failures

A `Failure` says why an operation did not succeed. Its causes are data; `Failure.message` words
them.
-/

namespace ReadThrough

/-! ## Causes -/

/-- What is wrong with a configuration, or with the order of calls. -/
inductive Misconfiguration
  | emptyTableName
  | emptyIndexName
  | badInstanceId (id : String)
  | noCapacity
  | usedBeforeInit (store : StoreKind)
  | noServer
  | badAddress (address reason : String)
  | stated (text : String)
deriving DecidableEq

/-- What a storage medium reports. -/
inductive BackendFault
  | refused (method : String)
  | client (text : String)
  | server (text : String)
  | unreadableReply
  | stated (text : String)
deriving DecidableEq

/-- Why an operation did not succeed. A missing key is an expected answer of a lookup; the
wording of a failure of the data source is the data source's own. -/
inductive Failure
  | notFound
  | backend (fault : BackendFault)
  | serialization
  | deserialization
  | configuration (fault : Misconfiguration)
  | dataSource (text : String)
deriving DecidableEq

/-! ## Wording -/

def Misconfiguration.message : Misconfiguration → String
  | .emptyTableName => "table allow-list contains an empty table name"
  | .emptyIndexName => "unique index declarations contain an empty name"
  | .badInstanceId id =>
    "instance id " ++ Text.quoted id ++ " must be non-empty and must not contain ':'"
  | .noCapacity => "lru store capacity must be greater than zero"
  | .usedBeforeInit store => store.name ++ " store used before init"
  | .noServer => "redis store needs a url or a client"
  | .badAddress address reason =>
    "invalid redis url " ++ Text.quoted address ++ ": " ++ reason ++ "- InvalidClientConfig"
  | .stated text => text

def BackendFault.message : BackendFault → String
  | .refused method => method ++ " refused"
  | .client text => "client says - ClientError: " ++ text
  | .server text => text
  | .unreadableReply => "reply of an unexpected type"
  | .stated text => text

namespace Failure

def message : Failure → String
  | .notFound => "Not found"
  | .backend fault => "Backend error: " ++ fault.message
  | .serialization => "Serialization error"
  | .deserialization => "Deserialization error"
  | .configuration fault => "Configuration error: " ++ fault.message
  | .dataSource text => text

def kind : Failure → String
  | .notFound => "NotFound"
  | .backend _ => "Backend"
  | .serialization => "Serialization"
  | .deserialization => "Deserialization"
  | .configuration _ => "Configuration"
  | .dataSource _ => "Upstream"

/-- The wording of what lies behind a failure of the storage medium. -/
def source? : Failure → Option String
  | .backend fault => some fault.message
  | _ => none

/-- Whether the failure is the expected answer of a lookup. -/
def isAbsence : Failure → Bool
  | .notFound => true
  | _ => false

end Failure

end ReadThrough
