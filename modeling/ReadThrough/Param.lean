import ReadThrough.Decimal
import ReadThrough.Text.Quoted

/-! # Query parameters

A `Param` is a value bound to a query. `Param.text` is its spelling inside keys; `Param.debugText`
names the kind of value as well.
-/

namespace ReadThrough

/-- A value bound to a query. -/
inductive Param
  | null
  | bool (value : Bool)
  | int (value : Int64)
  | uint (value : UInt64)
  | float (value : Float)
  | text (value : String)
  | list (items : List Param)

namespace Param

instance : Inhabited Param := ⟨.null⟩

mutual

def keyText : Param → String
  | .null => "NULL"
  | .bool value => Text.boolText value
  | .int value => toString value.toInt
  | .uint value => toString value.toNat
  | .float value => Decimal.Layout.plain.text value.toBits
  | .text value => value
  | .list items => "[" ++ String.intercalate " " (keyTexts items) ++ "]"

def keyTexts : List Param → List String
  | [] => []
  | item :: rest => keyText item :: keyTexts rest

end

mutual

def debugText : Param → String
  | .null => "Null"
  | .bool value => Text.tupleText "Bool" [Text.boolText value]
  | .int value => Text.tupleText "Int" [toString value.toInt]
  | .uint value => Text.tupleText "UInt" [toString value.toNat]
  | .float value => Text.tupleText "Float" [Decimal.Layout.diagnostic.text value.toBits]
  | .text value => Text.tupleText "Text" [Text.quoted value]
  | .list items => Text.tupleText "List" [Text.listText (debugTexts items)]

def debugTexts : List Param → List String
  | [] => []
  | item :: rest => debugText item :: debugTexts rest

end

end Param

end ReadThrough
