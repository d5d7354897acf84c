import ReadThrough.Text.Digits

/-! # Stored search results

A search key holds either the mark of a search that found nothing, or a row count, a bar and
the rows. `SearchEntry.encode` and `SearchEntry.decode?` convert the second form.
-/

namespace ReadThrough.SearchEntry

def absenceMark : String := "recordNotFound"

def encode (rowsAffected : UInt64) (payload : String) : String :=
  toString rowsAffected.toNat ++ "|" ++ payload

/-- A row count: decimal digits, perhaps after a plus sign, with a value below `2 ^ 64`. -/
def count? (text : List Char) : Option UInt64 :=
  match Text.natOfSigned? text with
  | some n => if n < UInt64.size then some n.toUInt64 else none
  | none => none

/-- The row count and the rows of a stored form: what stands before and after its first bar. -/
def decode? (stored : String) : Option (UInt64 × String) :=
  let before := stored.toList.takeWhile (· != '|')
  match stored.toList.dropWhile (· != '|') with
  | [] => none
  | _ :: payload =>
    match count? before with
    | some n => some (n, String.ofList payload)
    | none => none

end ReadThrough.SearchEntry
