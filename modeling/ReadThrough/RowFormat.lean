import ReadThrough.CompositeKey

/-! # Row formats

What the cache has to know about rows: how one row is written, how an array of rows is read, and
which keys a row has. Writing or reading may fail. Several rows are written as the array of what is
written for each.
-/

namespace ReadThrough

def rowArray (rows : List String) : String :=
  "[" ++ String.intercalate "," rows ++ "]"

/-- How rows of a type are stored and identified. -/
structure RowFormat (ρ : Type) where
  /-- The text of one row. -/
  encode : ρ → Option String
  /-- The rows of an array. -/
  decodeAll : String → Option (List ρ)
  /-- The primary key, unless it is unset. -/
  primaryKey : ρ → Option CompositeKey
  /-- The keys under unique indexes, with the names of the indexes. -/
  uniqueKeys : ρ → List (String × CompositeKey)

namespace RowFormat

/-- The text of an array of rows, if each row can be written. -/
def encodeAll {ρ : Type} (format : RowFormat ρ) (rows : List ρ) : Option String :=
  (rows.mapM format.encode).map rowArray

end RowFormat

end ReadThrough
