import ReadThrough.KeyLayout

/-! # Changes of tables

A `Change` describes a change that was committed to a table: its kind, how many rows it touched, and
the keys its predicate named. A key list that is missing or empty stands for unknown keys.
-/

namespace ReadThrough

/-- What a change does to rows. -/
inductive ChangeKind
  | create
  | update
  | delete
deriving DecidableEq

def ChangeKind.text : ChangeKind → String
  | .create => "Create"
  | .update => "Update"
  | .delete => "Delete"

/-- The keys of a unique index that a change touched. -/
structure IndexKeys where
  index : String
  keys : Option (List CompositeKey)

/-- A change that was committed to a table. -/
structure Change where
  table : String
  kind : ChangeKind
  rowsAffected : UInt64
  primaryKeys : Option (List CompositeKey) := none
  indexes : List IndexKeys := []

def namedKeys? : Option (List CompositeKey) → Option (List CompositeKey)
  | some (key :: rest) => some (key :: rest)
  | _ => none

def keyListText (keys : Option (List CompositeKey)) : String :=
  Text.optionText (keys.map fun keys => Text.listText (keys.map CompositeKey.debugText))

def IndexKeys.debugText (named : IndexKeys) : String :=
  Text.recordText "UniqueIndexKeys" [
    ("index", Text.quoted named.index),
    ("keys", keyListText named.keys)]

namespace Change

def mentions (change : Change) (index : String) : Bool :=
  change.indexes.any fun named => named.index = index

def debugText (change : Change) : String :=
  Text.recordText "WriteEvent" [
    ("table", Text.quoted change.table),
    ("kind", change.kind.text),
    ("rows_affected", toString change.rowsAffected.toNat),
    ("primary_keys", keyListText change.primaryKeys),
    ("unique_indexes", Text.listText (change.indexes.map IndexKeys.debugText))]

end Change

end ReadThrough
