import ReadThrough.KeyLayout

/-! # Reads

* `Query` is one read of a table: its text and parameters, the shape of its answer, and the point
  lookup its predicate amounts to, if any;
* `ResultSet` is what the data source or the cache answers.
-/

namespace ReadThrough

/-- Whether a caller expects a single row or a collection. -/
inductive Shape
  | one
  | many
deriving DecidableEq

def Shape.text : Shape → String
  | .one => "One"
  | .many => "Many"

/-- A lookup of rows by primary keys, or by keys of a unique index. -/
inductive Lookup
  | primary (keys : List CompositeKey)
  | unique (index : String) (keys : List CompositeKey)

namespace Lookup

def sought : Lookup → List CompositeKey
  | .primary keys => CompositeKey.distinct keys
  | .unique _ keys => CompositeKey.distinct keys

def debugText : Lookup → String
  | .primary keys => Text.tupleText "Primary" [Text.listText (keys.map CompositeKey.debugText)]
  | .unique index keys =>
    Text.recordText "Unique" [
      ("index", Text.quoted index),
      ("keys", Text.listText (keys.map CompositeKey.debugText))]

end Lookup

/-- One read of a table. -/
structure Query where
  table : String
  sql : String
  params : List Param := []
  shape : Shape := .many
  lookup : Option Lookup := none

namespace Query

def flightName (query : Query) : String :=
  ReadThrough.flightName query.table query.sql query.params

/-- The lookup with its keys, if it can answer the read: there must be at least one key, and exactly
one when a single row is expected. -/
def pointLookup? (query : Query) : Option (Lookup × List CompositeKey) :=
  match query.lookup with
  | none => none
  | some lookup =>
    let sought := lookup.sought
    if sought.isEmpty || (query.shape == .one && sought.length != 1) then none
    else some (lookup, sought)

def debugText (query : Query) : String :=
  Text.recordText "Query" [
    ("table", Text.quoted query.table),
    ("sql", Text.quoted query.sql),
    ("params", Text.listText (query.params.map Param.debugText)),
    ("shape", query.shape.text),
    ("lookup", Text.optionText (query.lookup.map Lookup.debugText))]

end Query

/-- Rows, and the row count that goes with them. -/
structure ResultSet (ρ : Type) where
  rows : List ρ
  rowsAffected : UInt64

namespace ResultSet

def one {ρ : Type} (row : ρ) : ResultSet ρ := ⟨[row], 1⟩

def many {ρ : Type} (rows : List ρ) : ResultSet ρ := ⟨rows, rows.length.toUInt64⟩

def first? {ρ : Type} (fetched : ResultSet ρ) : Option ρ := fetched.rows.head?

end ResultSet

/-- An answer without rows is no answer to a read of a single row. -/
def Shape.normalize {ρ : Type} (shape : Shape) : Option (ResultSet ρ) → Option (ResultSet ρ)
  | none => none
  | some fetched => if shape = .one ∧ fetched.rows.isEmpty then none else some fetched

end ReadThrough
