/-! # Hit and miss counters

How many reads were answered from the cache, and how many went to the data source, since the last
reset. The counts are words of 64 bits.
-/

namespace ReadThrough

/-- The counts of hits and misses. -/
structure Counters where
  hits : UInt64 := 0
  misses : UInt64 := 0
deriving DecidableEq

namespace Counters

def hit (c : Counters) : Counters := { c with hits := c.hits + 1 }

/-- Count a miss. -/
def miss (c : Counters) : Counters := { c with misses := c.misses + 1 }

def lookups (c : Counters) : UInt64 := c.hits + c.misses

/-- The share of hits among all reads counted; zero before the first. -/
def hitShare (c : Counters) : Float :=
  if c.lookups = 0 then 0 else c.hits.toFloat / c.lookups.toFloat

end Counters

end ReadThrough
