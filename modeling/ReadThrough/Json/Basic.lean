/-! # JSON values

* `Json` is a JSON text as data; an object lists its members in increasing order of their names,
  one member a name;
* `Json.member?` looks one up, `Json.object` builds an object from members in any order.
-/

namespace ReadThrough

/-- A JSON number: a whole number of at most 64 bits, or a double given by its bits. -/
inductive Json.Number
  | whole (value : Int)
  | double (bits : UInt64)
deriving DecidableEq

/-- A JSON value. -/
inductive Json
  | null
  | bool (value : Bool)
  | number (value : Json.Number)
  | text (value : String)
  | array (items : List Json)
  | members (list : List (String × Json))

namespace Json

instance : Inhabited Json := ⟨.null⟩

def whole (value : Int) : Json := .number (.whole value)

/-- Put a member into a list that is sorted by name. A member of the same name gives way. -/
def insertMember (name : String) (value : Json) : List (String × Json) → List (String × Json)
  | [] => [(name, value)]
  | (first, held) :: rest =>
    if name < first then (name, value) :: (first, held) :: rest
    else if name = first then (name, value) :: rest
    else (first, held) :: insertMember name value rest

/-- The object with the given members; of two members with one name the later one counts. -/
def object (list : List (String × Json)) : Json :=
  .members (list.foldl (fun sorted member => insertMember member.1 member.2 sorted) [])

def member? (name : String) : Json → Option Json
  | .members list => list.lookup name
  | _ => none

end Json

end ReadThrough
