import ReadThrough.Text.Digits

/-! # The wire protocol

What is said between a remote store and its server.

* a `Command` is a list of words;
* a `WireReply` is what the server says to it, and `asText?`, `asSlots?`, `asPage?` and the like
  read a reply as a value;
* a `Line` is a connection whose replies are known beforehand.
-/

namespace ReadThrough

abbrev Command := List String

/-- What a server replies. -/
inductive WireReply
  | nil
  | int (value : Int64)
  | bulk (text : String)
  | status (text : String)
  | array (items : List WireReply)
  | error (text : String)

namespace WireReply

/-! ## Reading replies -/

mutual

def firstError? : WireReply → Option String
  | .error text => some text
  | .array items => firstErrorOf? items
  | _ => none

def firstErrorOf? : List WireReply → Option String
  | [] => none
  | item :: rest =>
    match firstError? item with
    | some text => some text
    | none => firstErrorOf? rest

end

def decimalInt64? (text : String) : Option Int64 :=
  let value? : Option Int :=
    match text.toList with
    | '-' :: digits => (Text.natOfDigits? digits).map fun n => -(n : Int)
    | digits => (Text.natOfSigned? digits).map fun n => (n : Int)
  match value? with
  | some value =>
    if Int64.minValue.toInt ≤ value ∧ value ≤ Int64.maxValue.toInt then
      some (Int64.ofInt value)
    else none
  | none => none

def decimalUInt64? (text : String) : Option UInt64 :=
  match Text.natOfSigned? text.toList with
  | some n => if n < UInt64.size then some n.toUInt64 else none
  | none => none

/-- A text. Numbers count as their decimal digits. -/
def asText? : WireReply → Option String
  | .bulk text | .status text => some text
  | .int value => some (toString value.toInt)
  | _ => none

def asSlot? : WireReply → Option (Option String)
  | .nil => some none
  | reply => reply.asText?.map some

def asInt64? : WireReply → Option Int64
  | .int value => some value
  | .bulk text | .status text => decimalInt64? text
  | _ => none

/-- A cursor. A negative number counts as the word of the same bits. -/
def asCursor? : WireReply → Option UInt64
  | .int value => some value.toUInt64
  | .bulk text | .status text => decimalUInt64? text
  | _ => none

/-- A list of items. Nil is the empty list, and a single text a list of one item. -/
def asList? {α : Type} (item : WireReply → Option α) : WireReply → Option (List α)
  | .nil => some []
  | .bulk text => (item (.bulk text)).map fun value => [value]
  | .array items => items.mapM item
  | _ => none

def asSlots? (reply : WireReply) : Option (List (Option String)) := reply.asList? asSlot?

def asPage? : WireReply → Option (UInt64 × List String)
  | .array [cursor, keys] => do
    let cursor ← cursor.asCursor?
    let keys ← keys.asList? asText?
    return (cursor, keys)
  | _ => none

def asAnything? (_ : WireReply) : Option Unit := some ()

/-- Whether an error says that the server does not know a script. -/
def isUnknownScript (error : String) : Bool :=
  error.toList.takeWhile (· != ' ') = "NOSCRIPT".toList

end WireReply

/-! ## Lines -/

/-- A connection: the replies still to come, and the commands sent, newest first. -/
structure Line where
  replies : List WireReply := []
  sent : List Command := []

/-- Send a command and take the next reply. When none is left the server reports an error. -/
def Line.send (line : Line) (command : Command) : Line × WireReply :=
  match line.replies with
  | [] => ({ line with sent := command :: line.sent }, .error "ERR no scripted reply")
  | reply :: rest => (⟨rest, command :: line.sent⟩, reply)

end ReadThrough
