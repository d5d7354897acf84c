import Std.Data.TreeMap
import ReadThrough.Text.Quoted

/-! # Composite keys

The values of a primary key or of a unique index, in column order, as texts.

* `CompositeKey.ofColumns` puts named values into the order of their column names;
* `CompositeKey.text` joins the values with colons;
* `CompositeKey.distinct` drops repeated keys from a list.
-/

namespace ReadThrough

/-- The values of the columns of a key, in order. -/
structure CompositeKey where
  values : List String
deriving DecidableEq

namespace CompositeKey

def single (value : String) : CompositeKey := ⟨[value]⟩

/-- The values of named columns, in increasing order of the names. A column given twice keeps its
last value. -/
def ofColumns (columns : List (String × String)) : CompositeKey :=
  let sorted : Std.TreeMap String String :=
    columns.foldl (fun sorted column => sorted.insert column.1 column.2) ∅
  ⟨sorted.toList.map (·.2)⟩

def text (key : CompositeKey) : String := String.intercalate ":" key.values

def debugText (key : CompositeKey) : String :=
  Text.tupleText "KeyTuple" [Text.listText (key.values.map Text.quoted)]

/-- A list of keys without repetitions, each where it first occurs. -/
def distinct (keys : List CompositeKey) : List CompositeKey :=
  keys.foldl (fun kept key => if key ∈ kept then kept else kept ++ [key]) []

end CompositeKey

end ReadThrough
