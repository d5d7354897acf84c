import ReadThrough.Json.Parser
import ReadThrough.Json.Printer
import ReadThrough.RowFormat

/-! # Rows

Two kinds of rows:

* a *record* names its own keys and carries any JSON value;
* an *integer* is its own primary key, except that zero has none.

`Row.records` and `Row.integers` are their formats.
-/

namespace ReadThrough

/-- A row that lists its keys beside its data. -/
structure RecordRow where
  primaryKey : Option CompositeKey
  uniqueKeys : List (String × CompositeKey)
  data : Json

/-- A row. -/
inductive Row
  | record (row : RecordRow)
  | integer (value : Int64)

/-! ## Conversion to and from JSON -/

def CompositeKey.toJson (key : CompositeKey) : Json := .array (key.values.map .text)

def CompositeKey.ofJson? : Json → Option CompositeKey
  | .array items => do
    let values ← items.mapM fun
      | .text value => some value
      | _ => none
    return ⟨values⟩
  | _ => none

namespace Row

/-- The name of an index and a key of it, as an array of two. -/
def indexedKeyOfJson? : Json → Option (String × CompositeKey)
  | .array [.text index, key] => (CompositeKey.ofJson? key).map (index, ·)
  | _ => none

def primaryKeyOfJson? : Json → Option (Option CompositeKey)
  | .null => some none
  | key => (CompositeKey.ofJson? key).map some

/-- Read a record. Members of other names do not matter. -/
def recordOfJson? (json : Json) : Option Row := do
  let primaryKey ← primaryKeyOfJson? (← json.member? "pk")
  let .array indexed ← json.member? "uk" | none
  let uniqueKeys ← indexed.mapM indexedKeyOfJson?
  let data ← json.member? "data"
  return .record ⟨primaryKey, uniqueKeys, data⟩

def integerOfJson? : Json → Option Row
  | .number (.whole value) =>
    if Int64.minValue.toInt ≤ value ∧ value ≤ Int64.maxValue.toInt then
      some (.integer (Int64.ofInt value))
    else none
  | _ => none

/-- The members of a row as they are written, in this order. -/
def toJson : Row → Json
  | .record row => .members [
      ("pk", (row.primaryKey.map CompositeKey.toJson).getD .null),
      ("uk", .array (row.uniqueKeys.map fun entry => .array [.text entry.1, entry.2.toJson])),
      ("data", row.data)]
  | .integer value => .whole value.toInt

/-! ## Formats -/

def unencodableData : String := "!unencodable"

def isEncodable : Row → Bool
  | .record ⟨_, _, .text data⟩ => data != unencodableData
  | _ => true

def encode (row : Row) : Option String :=
  if row.isEncodable then some row.toJson.print else none

def primaryKey : Row → Option CompositeKey
  | .record row => row.primaryKey
  | .integer value => if value = 0 then none else some (.single (toString value.toInt))

def uniqueKeys : Row → List (String × CompositeKey)
  | .record row => row.uniqueKeys
  | .integer _ => []

def decodeAll (row : Json → Option Row) (text : String) : Option (List Row) :=
  match Json.parse? text with
  | some (.array items) => items.mapM row
  | _ => none

def records : RowFormat Row := ⟨encode, decodeAll recordOfJson?, primaryKey, uniqueKeys⟩

def integers : RowFormat Row := ⟨encode, decodeAll integerOfJson?, primaryKey, uniqueKeys⟩

end Row

end ReadThrough
