import ReadThrough.Read

/-! # Invalidation after changes

A committed change makes entries stale. What it named is deleted exactly, what it left open is
swept, and so is every search of the table and every known index that it does not mention. A
creation only concerns searches.

* `Cache.isInvalidatedBy` says which changes have an effect, and `Cache.Heeds` spells it out;
* `Cache.deletions` lists the deletions from the point namespaces;
* `Invalidation.start` is the turn that begins an invalidation.
-/

namespace ReadThrough

namespace Cache

/-- Whether a change has an effect on the cache. -/
def isInvalidatedBy (c : Cache) (change : Change) : Bool :=
  change.rowsAffected != 0 && c.config.invalidates && c.config.caches change.table

/-- The change touched rows, changes invalidate, and the table is cached. -/
structure Heeds (c : Cache) (change : Change) : Prop where
  touched : change.rowsAffected ≠ 0
  invalidates : c.config.invalidates
  level : c.config.level ≠ .off
  listed : c.config.tables = [] ∨ change.table ∈ c.config.tables

theorem isInvalidatedBy_iff {c : Cache} {change : Change} : c.isInvalidatedBy change ↔ c.Heeds change := by
  simp only [isInvalidatedBy, Bool.and_eq_true, bne_iff_ne, Configuration.caches_iff]
  constructor
  · rintro ⟨⟨touched, invalidates⟩, level, listed⟩
    exact ⟨touched, invalidates, level, listed⟩
  · rintro ⟨touched, invalidates, level, listed⟩
    exact ⟨⟨touched, invalidates⟩, level, listed⟩

theorem isInvalidatedBy_eq_false_iff {c : Cache} {change : Change} :
    c.isInvalidatedBy change = false ↔ ¬ c.Heeds change := by
  rw [← isInvalidatedBy_iff, Bool.not_eq_true]

/-- The deletion of the primary entries that a change touched. -/
def rowDeletion (c : Cache) (change : Change) : Deletion :=
  match namedKeys? change.primaryKeys with
  | some keys => .keys (keys.map (c.space.rowKey change.table))
  | none => .under (c.space.rowsOf change.table)

/-- The deletion of the entries of an index that a change mentions. -/
def indexDeletion (c : Cache) (change : Change) (named : IndexKeys) : Deletion :=
  match namedKeys? named.keys with
  | some keys => .keys (keys.map (c.space.indexKey change.table named.index))
  | none => .under (c.space.indexOf change.table named.index)

/-- The deletions of whole indexes that are known and not mentioned. -/
def unmentionedDeletions (c : Cache) (change : Change) : List Deletion :=
  ((c.knownIndexes change.table).filter fun index => !change.mentions index).map fun index =>
    .under (c.space.indexOf change.table index)

def deletions (c : Cache) (change : Change) : List Deletion :=
  c.rowDeletion change ::
    change.indexes.map (c.indexDeletion change) ++ c.unmentionedDeletions change

/-- The jobs of an invalidation. -/
def invalidationJobs (c : Cache) (change : Change) : List Job :=
  (if change.kind ≠ .create ∧ c.config.level.cachesPoints then
    [.deletePoints change.table (c.deletions change)] else []) ++
  (if c.config.level.cachesSearches then
    [.sweepSearches change.table (c.space.resultsOf change.table)] else [])

end Cache

/-- Where an invalidation stands. -/
inductive InvalidationStage
  | ready
  | deleting (jobs : List JobRun)
  | ended
  | aborted

namespace Invalidation

/-- The first turn. Reads in flight may return rows from before the change, so no later caller may
join them. -/
def start (c : Cache) (change : Change) : Turn InvalidationStage :=
  if c.isInvalidatedBy change then
    let c := { c with flights := c.flights.forgetStarting (flightsOf change.table) }
    let jobs := c.invalidationJobs change
    let notices := c.accessNotice (.invalidating change.table change.kind)
    if c.config.detachesUpkeep then
      { cache := c, stage := .ended, notices := notices, spawned := jobs }
    else if jobs.isEmpty then { cache := c, stage := .ended, notices := notices }
    else { cache := c, stage := .deleting (jobs.map JobRun.start), notices := notices }
  else { cache := c, stage := .ended }

end Invalidation

end ReadThrough
