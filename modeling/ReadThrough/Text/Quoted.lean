import ReadThrough.Text.CharacterClass

/-! # Quoted strings and written-out values

Texts for people reading logs and diagnostics:

* `quoted` writes a string between double quotes, so that every character can be told apart;
* `recordText`, `tupleText`, `listText`, `mapText` and `optionText` write out a structured value.
-/

namespace ReadThrough.Text

/-! ## Characters and strings -/

/-- A natural number in lower-case hexadecimal, without leading zeros. -/
def hexadecimal (n : Nat) : String :=
  String.ofList (Nat.toDigits 16 n)

/-- A character as it stands between double quotes. Controls with a short name take it; characters
that join their neighbour or have no picture are given by number; an apostrophe stays bare. -/
def quotedChar (c : Char) : String :=
  if c = '\x00' then "\\0"
  else if c = '\t' then "\\t"
  else if c = '\r' then "\\r"
  else if c = '\n' then "\\n"
  else if c = '\\' then "\\\\"
  else if c = '"' then "\\\""
  else if isGraphemeExtender c || isUnprintable c then "\\u\x7b" ++ hexadecimal c.toNat ++ "\x7d"
  else c.toString

def quoted (s : String) : String :=
  "\"" ++ String.join (s.toList.map quotedChar) ++ "\""

/-! ## Structured values -/

/-- Parts one after another, with a comma and a space between two. -/
def commaSeparated (parts : List String) : String :=
  String.intercalate ", " parts

def listText (items : List String) : String :=
  "[" ++ commaSeparated items ++ "]"

def mapText (entries : List (String × String)) : String :=
  "\x7b" ++ commaSeparated (entries.map fun entry => entry.1 ++ ": " ++ entry.2) ++ "\x7d"

def recordText (name : String) (fields : List (String × String)) : String :=
  name ++ " \x7b " ++ commaSeparated (fields.map fun field => field.1 ++ ": " ++ field.2) ++ " \x7d"

def tupleText (name : String) (arguments : List String) : String :=
  name ++ "(" ++ commaSeparated arguments ++ ")"

def optionText : Option String → String
  | none => "None"
  | some text => tupleText "Some" [text]

def boolText (b : Bool) : String :=
  if b then "true" else "false"

end ReadThrough.Text
