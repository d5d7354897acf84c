/-! # Storage media

The media that entries can be kept in, by name.
-/

namespace ReadThrough

/-- A storage medium, by name. -/
inductive StoreKind
  | memory
  | lru
  | redis
  | record
deriving DecidableEq

def StoreKind.name : StoreKind → String
  | .memory => "memory"
  | .lru => "lru"
  | .redis => "redis"
  | .record => "record"

end ReadThrough
