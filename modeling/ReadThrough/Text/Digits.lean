/-! # Decimal digits

Reading natural numbers: `valueOfDigits` is the number that digits stand for, and `natOfDigits?`
reads a text that is nothing but digits.
-/

namespace ReadThrough.Text

def valueOfDigits (digits : List Char) : Nat :=
  digits.foldl (fun n d => 10 * n + (d.toNat - '0'.toNat)) 0

/-- The number written with decimal digits; there has to be at least one, and nothing else. -/
def natOfDigits? (digits : List Char) : Option Nat :=
  if digits.isEmpty || !digits.all Char.isDigit then none else some (valueOfDigits digits)

/-- The number written with decimal digits, perhaps after a plus sign. -/
def natOfSigned? (text : List Char) : Option Nat :=
  match text with
  | '+' :: digits => natOfDigits? digits
  | digits => natOfDigits? digits

end ReadThrough.Text
