import ReadThrough.Json.Basic
import ReadThrough.Text.Digits

/-! # Reading JSON

`Json.parse?` reads a whole text as one JSON value. It is strict: nothing but white space may stand
around the value, escaped surrogates must come in pairs, a number must fit a double, and arrays and
objects may lie at most `maxDepth` deep in one another. The depth left bounds the recursion.
-/

namespace ReadThrough.Json

/-- A reader takes characters from the front of a text and returns those it left. -/
abbrev Reader (α : Type) := List Char → Option (α × List Char)

def maxDepth : Nat := 127

/-! ## White space and literals -/

def isBlank (c : Char) : Bool :=
  c = ' ' || c = '\t' || c = '\n' || c = '\r'

def skipBlanks (cs : List Char) : List Char := cs.dropWhile isBlank

def literal (word : List Char) : Reader Unit :=
  fun cs => if word.isPrefixOf cs then some ((), cs.drop word.length) else none

/-! ## Numbers -/

def digits (cs : List Char) : List Char × List Char :=
  (cs.takeWhile Char.isDigit, cs.dropWhile Char.isDigit)

/-- The double nearest to `significand * 10 ^ exponent`, unless that is too large. A scale beyond
any double's is decided without computing the power. -/
def nearestDouble (negative : Bool) (significand : Nat) (exponent : Int) : Option Number :=
  let size := exponent + ((toString significand).length : Int)
  let magnitude : Float :=
    if significand = 0 ∨ size < -400 then 0
    else Float.ofScientific significand (exponent < 0) exponent.natAbs
  if significand ≠ 0 ∧ 400 < size then none
  else if magnitude.isInf then none
  else some (.double (if negative then (-magnitude).toBits else magnitude.toBits))

/-- A whole number that fits 64 bits stays whole; any other becomes a double, and so does minus
zero. -/
def wholeNumber (negative : Bool) (n : Nat) : Option Number :=
  if negative then
    if 0 < n ∧ n ≤ Int64.size / 2 then some (.whole (-(n : Int))) else nearestDouble true n 0
  else if n < UInt64.size then some (.whole n) else nearestDouble false n 0

/-- The whole part of a number: a zero, or digits that do not start with zero. -/
def wholePart : Reader (List Char) := fun cs =>
  match digits cs with
  | ([], _) => none
  | ('0' :: rest, after) => if rest.isEmpty then some (['0'], after) else none
  | (ds, after) => some (ds, after)

def fractionPart : Reader (Option (List Char))
  | '.' :: cs =>
    match digits cs with
    | ([], _) => none
    | (ds, after) => some (some ds, after)
  | cs => some (none, cs)

def exponentPart : Reader (Option Int)
  | c :: cs =>
    if c = 'e' ∨ c = 'E' then
      let (negative, cs) := match cs with
        | '-' :: rest => (true, rest)
        | '+' :: rest => (false, rest)
        | rest => (false, rest)
      match digits cs with
      | ([], _) => none
      | (ds, after) =>
        let magnitude : Int := Text.valueOfDigits ds
        some (some (if negative then -magnitude else magnitude), after)
    else some (none, c :: cs)
  | [] => some (none, [])

def readNumber : Reader Number := fun cs => do
  let (negative, cs) := match cs with
    | '-' :: rest => (true, rest)
    | rest => (false, rest)
  let (whole, cs) ← wholePart cs
  let (fraction, cs) ← fractionPart cs
  let (exponent, cs) ← exponentPart cs
  let value ← match fraction, exponent with
    | none, none => wholeNumber negative (Text.valueOfDigits whole)
    | _, _ =>
      let fraction := fraction.getD []
      nearestDouble negative (Text.valueOfDigits (whole ++ fraction))
        (exponent.getD 0 - fraction.length)
  return (value, cs)

/-! ## Strings -/

def hexDigit? (c : Char) : Option Nat :=
  if '0' ≤ c ∧ c ≤ '9' then some (c.toNat - '0'.toNat)
  else if 'a' ≤ c ∧ c ≤ 'f' then some (c.toNat - 'a'.toNat + 10)
  else if 'A' ≤ c ∧ c ≤ 'F' then some (c.toNat - 'A'.toNat + 10)
  else none

def hexCode : Reader Nat
  | a :: b :: c :: d :: rest => do
    let high := (← hexDigit? a) * 16 + (← hexDigit? b)
    let low := (← hexDigit? c) * 16 + (← hexDigit? d)
    return (high * 256 + low, rest)
  | _ => none

/-- The character after a backslash and the letter u. A character beyond the first 65536 is a pair
of surrogates; a surrogate alone is refused. -/
def numberedChar : Reader Char := fun cs => do
  let (first, cs) ← hexCode cs
  if 0xD800 ≤ first ∧ first < 0xDC00 then
    match cs with
    | '\\' :: 'u' :: cs =>
      let (second, cs) ← hexCode cs
      if 0xDC00 ≤ second ∧ second < 0xE000 then
        return (Char.ofNat (0x10000 + (first - 0xD800) * 0x400 + (second - 0xDC00)), cs)
      else none
    | _ => none
  else if 0xDC00 ≤ first ∧ first < 0xE000 then none
  else return (Char.ofNat first, cs)

def escapedChar : Reader Char
  | '"' :: cs => some ('"', cs)
  | '\\' :: cs => some ('\\', cs)
  | '/' :: cs => some ('/', cs)
  | 'b' :: cs => some ('\x08', cs)
  | 'f' :: cs => some ('\x0c', cs)
  | 'n' :: cs => some ('\n', cs)
  | 'r' :: cs => some ('\r', cs)
  | 't' :: cs => some ('\t', cs)
  | 'u' :: cs => numberedChar cs
  | _ => none

/-- The characters up to the closing quote, newest first, at most `count` of them. -/
def stringChars : (count : Nat) → (read : List Char) → Reader (List Char)
  | 0, _, _ => none
  | _ + 1, _, [] => none
  | _ + 1, read, '"' :: cs => some (read, cs)
  | count + 1, read, '\\' :: cs =>
    match escapedChar cs with
    | some (c, rest) => stringChars count (c :: read) rest
    | none => none
  | count + 1, read, c :: cs =>
    if c.toNat < 0x20 then none else stringChars count (c :: read) cs

/-- The rest of a string whose opening quote has been read. -/
def stringBody : Reader String := fun cs => do
  let (read, rest) ← stringChars (cs.length + 1) [] cs
  return (String.ofList read.reverse, rest)

/-! ## Arrays and objects -/

/-- Items up to the closing character, newest first, at most `count` of them; commas stand between
two items and nowhere else. -/
def items {α : Type} (item : Reader α) (last : Char) :
    (count : Nat) → (read : List α) → Reader (List α)
  | 0, _, _ => none
  | count + 1, read, cs =>
    match item cs with
    | none => none
    | some (value, rest) =>
      match skipBlanks rest with
      | ',' :: rest => items item last count (value :: read) rest
      | c :: rest => if c = last then some (value :: read, rest) else none
      | [] => none

/-- The rest of an array or an object whose opening character has been read. -/
def sequence {α : Type} (item : Reader α) (last : Char) : Reader (List α) := fun cs =>
  match skipBlanks cs with
  | [] => none
  | c :: rest =>
    if c = last then some ([], rest)
    else do
      let (read, rest) ← items item last (cs.length + 1) [] cs
      return (read.reverse, rest)

def namedItem {α : Type} (item : Reader α) : Reader (String × α) := fun cs =>
  match skipBlanks cs with
  | '"' :: cs => do
    let (name, cs) ← stringBody cs
    match skipBlanks cs with
    | ':' :: cs =>
      let (value, cs) ← item cs
      return ((name, value), cs)
    | _ => none
  | _ => none

/-- A value, white space before it included. Arrays and objects are read only while some depth is
left, and their parts with one level less. -/
def readValue : (depth : Nat) → Reader Json
  | depth, cs =>
    match skipBlanks cs with
    | 'n' :: cs => (literal "ull".toList cs).map fun r => (.null, r.2)
    | 't' :: cs => (literal "rue".toList cs).map fun r => (.bool true, r.2)
    | 'f' :: cs => (literal "alse".toList cs).map fun r => (.bool false, r.2)
    | '"' :: cs => (stringBody cs).map fun r => (.text r.1, r.2)
    | '[' :: cs =>
      match depth with
      | 0 => none
      | depth + 1 => (sequence (readValue depth) ']' cs).map fun r => (.array r.1, r.2)
    | '\x7b' :: cs =>
      match depth with
      | 0 => none
      | depth + 1 =>
        (sequence (namedItem (readValue depth)) '\x7d' cs).map fun r => (object r.1, r.2)
    | cs => (readNumber cs).map fun r => (.number r.1, r.2)

def parseWithin? (depth : Nat) (s : String) : Option Json :=
  match readValue depth s.toList with
  | some (result, rest) => if (skipBlanks rest).isEmpty then some result else none
  | none => none

def parse? (s : String) : Option Json := parseWithin? maxDepth s

end ReadThrough.Json
