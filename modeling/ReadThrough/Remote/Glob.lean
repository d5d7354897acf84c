import ReadThrough.KeyLayout

/-! # Glob patterns

A remote server selects keys by a glob pattern.

* `Glob.matchesList` says which texts a pattern stands for;
* `Glob.underPattern` is the pattern for the keys that lie under a prefix: every character that has
  a meaning of its own is escaped, and then anything may follow a colon.
-/

namespace ReadThrough.Glob

/-! ## Meaning -/

/-- Read a class from behind its opening bracket: whether it holds a character, and the pattern
after it. A backslash takes the next character as it is, and a dash stands for a range. -/
def classHolds (c : Char) : List Char → Bool → Bool × List Char
  | [], found => (found, [])
  | ']' :: rest, found => (found, rest)
  | '\\' :: d :: rest, found => classHolds c rest (found || c = d)
  | low :: '-' :: high :: rest, found =>
    classHolds c rest (found || (low ≤ c && c ≤ high) || (high ≤ c && c ≤ low))
  | d :: rest, found => classHolds c rest (found || c = d)

/-- Whether a class, read from behind its opening bracket, admits a character, and the pattern after
it. A caret at the start turns the class round. -/
def classAdmits (c : Char) : List Char → Bool × List Char
  | '^' :: rest =>
    let (found, after) := classHolds c rest false
    (!found, after)
  | rest => classHolds c rest false

def anySuffix (test : List Char → Bool) : List Char → Bool
  | [] => test []
  | c :: rest => test (c :: rest) || anySuffix test rest

/-- Match a pattern against a text; `fuel` bounds the number of pattern characters looked at. -/
def matchesFor : (fuel : Nat) → (pattern text : List Char) → Bool
  | 0, _, text => text.isEmpty
  | _ + 1, [], text => text.isEmpty
  | fuel + 1, '*' :: rest, text => anySuffix (matchesFor fuel rest) text
  | fuel + 1, '?' :: rest, text =>
    match text with
    | [] => false
    | _ :: text => matchesFor fuel rest text
  | fuel + 1, '[' :: rest, text =>
    match text with
    | [] => false
    | c :: text =>
      let (admitted, after) := classAdmits c rest
      admitted && matchesFor fuel after text
  | fuel + 1, '\\' :: d :: rest, text =>
    match text with
    | [] => false
    | c :: text => c = d && matchesFor fuel rest text
  | fuel + 1, d :: rest, text =>
    match text with
    | [] => false
    | c :: text => c = d && matchesFor fuel rest text

/-- Whether a text matches a pattern: a star stands for any characters, a question mark for one, a
class in brackets for one of its members, a backslash takes the next character as it is, and every
other character stands for itself. -/
def matchesList (pattern text : List Char) : Bool := matchesFor pattern.length pattern text

/-! ## Patterns for prefixes -/

/-- Whether a character has a meaning of its own in a pattern. -/
def isSpecial (c : Char) : Bool :=
  c = '*' || c = '?' || c = '[' || c = ']' || c = '\\'

/-- A text in which no character keeps a meaning of its own. -/
def escape (text : List Char) : List Char :=
  text.flatMap fun c => if isSpecial c then ['\\', c] else [c]

def underPattern (segments : String) : String :=
  String.ofList (escape segments.toList ++ [':', '*'])

end ReadThrough.Glob
