import ReadThrough.CompositeKey
import ReadThrough.Param

/-! # The layout of stored keys

All keys of one cache stand under its instance id, in one of three namespaces:

* `id:p:table:key` for the row with a primary key;
* `id:u:table:index:key` for the row with a key of a unique index;
* `id:s:table:sql:param:…` for the result of a search.

The prefixes of a namespace end on a whole segment, and `isUnder` respects segments. In-flight reads
have keys of their own, without an instance id.
-/

namespace ReadThrough

/-! ## Segments -/

/-- Whether a key lies under a prefix: the prefix, then a colon, then anything. -/
def isUnder (key segments : String) : Bool :=
  (segments.toList ++ [':']).isPrefixOf key.toList

/-- Query text and parameters, with a colon before each parameter. -/
def searchText (sql : String) (params : List Param) : String :=
  sql ++ String.join (params.map fun param => ":" ++ param.keyText)

/-! ## Keys of in-flight reads -/

def flightName (table sql : String) (params : List Param) : String :=
  table ++ ":" ++ searchText sql params

/-- What the flight keys of all reads on a table start with. -/
def flightsOf (table : String) : String := table ++ ":"

/-! ## Stored keys -/

/-- The layout of keys under one instance id. -/
structure KeyLayout where
  id : String
deriving DecidableEq

namespace KeyLayout

def rowsOf (space : KeyLayout) (table : String) : String :=
  space.id ++ ":p:" ++ table

def rowKey (space : KeyLayout) (table : String) (key : CompositeKey) : String :=
  space.rowsOf table ++ ":" ++ key.text

def indexOf (space : KeyLayout) (table index : String) : String :=
  space.id ++ ":u:" ++ table ++ ":" ++ index

def indexKey (space : KeyLayout) (table index : String) (key : CompositeKey) : String :=
  space.indexOf table index ++ ":" ++ key.text

def resultsOf (space : KeyLayout) (table : String) : String :=
  space.id ++ ":s:" ++ table

def resultKey (space : KeyLayout) (table sql : String) (params : List Param) : String :=
  space.resultsOf table ++ ":" ++ searchText sql params

end KeyLayout

/-! ## Instance ids -/

def instanceIdLength : Nat := 5

def instanceIdAlphabet : List Char :=
  "ABCDEFGHIJKLMNOPQRSTUVWXYZabcdefghijklmnopqrstuvwxyz0123456789".toList

/-- The instance id that a draw stands for: its last digits in base 62. -/
def instanceIdOfDraw (draw : Nat) : String :=
  String.ofList <| (List.range instanceIdLength).map fun place =>
    instanceIdAlphabet.getD (draw / Nat.pow 62 place % 62) 'A'

end ReadThrough
