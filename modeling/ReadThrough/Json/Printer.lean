import ReadThrough.Decimal
import ReadThrough.Json.Basic

/-! # Compact JSON text

`Json.print` writes a value without blanks. Inside strings only the quote, the backslash and the
controls below the space are escaped. A double without a finite value is written as null.
-/

namespace ReadThrough.Json

/-- The escape of a control character: its short form if it has one, else its number. -/
def escapedControl (code : Nat) : String :=
  match code with
  | 8 => "\\b"
  | 9 => "\\t"
  | 10 => "\\n"
  | 12 => "\\f"
  | 13 => "\\r"
  | _ => "\\u00" ++ (if code < 16 then "0" else "1") ++ String.ofList (Nat.toDigits 16 (code % 16))

def stringChar (c : Char) : String :=
  if c = '"' then "\\\""
  else if c = '\\' then "\\\\"
  else if c.toNat < 0x20 then escapedControl c.toNat
  else c.toString

def printString (s : String) : String :=
  "\"" ++ String.join (s.toList.map stringChar) ++ "\""

/-- A number; a whole number has neither point nor exponent. -/
def printNumber : Number → String
  | .whole value => toString value
  | .double bits =>
    match Decimal.Binary64.ofBits bits with
    | .finite .. => Decimal.Layout.json.text bits
    | _ => "null"

def bracketed (first last : String) (parts : List String) : String :=
  first ++ String.intercalate "," parts ++ last

mutual

def print : Json → String
  | .null => "null"
  | .bool value => if value then "true" else "false"
  | .number value => printNumber value
  | .text value => printString value
  | .array items => bracketed "[" "]" (printItems items)
  | .members list => bracketed "\x7b" "\x7d" (printMembers list)

def printItems : List Json → List String
  | [] => []
  | item :: rest => print item :: printItems rest

def printMembers : List (String × Json) → List String
  | [] => []
  | (name, value) :: rest => (printString name ++ ":" ++ print value) :: printMembers rest

end

end ReadThrough.Json
