/-! # Decimal text of binary floating-point numbers

A double is written with the fewest decimal digits that read back as the same double.

* `Binary64` splits the bits of a double into sign and magnitude;
* `Interval.shortest` finds the coarsest decimal grid that meets the interval of reals which round
  to the double, and the grid point nearest to it;
* a `Layout` decides between positional and exponent notation.

All of it is exact arithmetic on natural numbers.
-/

namespace ReadThrough.Decimal

/-! ## Doubles -/

/-- What the bits of a double stand for. A finite magnitude is `significand * 2 ^ exponent`;
`narrowBelow` says that the next smaller double is only half as far away as the next larger. -/
inductive Binary64
  | notANumber
  | infinite (negative : Bool)
  | finite (negative : Bool) (significand : Nat) (exponent : Int) (narrowBelow : Bool)

/-- Read sign, exponent field (11 bits) and fraction field (52 bits). -/
def Binary64.ofBits (bits : UInt64) : Binary64 :=
  let negative := bits >>> 63 == 1
  let field := ((bits >>> 52) &&& 0x7FF).toNat
  let fraction := (bits &&& 0xFFFFFFFFFFFFF).toNat
  if field = 0x7FF then
    if fraction = 0 then .infinite negative else .notANumber
  else if field = 0 then .finite negative fraction (-1074) false
  else .finite negative (fraction + 0x10000000000000) (field - 1075) (fraction = 0 && 1 < field)

/-! ## The fewest digits that read back -/

/-- A decimal number `digits * 10 ^ exponent`. -/
structure Number where
  digits : Nat
  exponent : Int
deriving Repr, DecidableEq

/-- The reals that round to one double: from `low` to `high` around `centre`, all three in units of
`numerator / denominator`. The ends belong to the interval when `closed` holds. -/
structure Interval where
  low : Nat
  centre : Nat
  high : Nat
  closed : Bool
  numerator : Nat
  denominator : Nat

/-- The interval of a positive finite double. Its ends lie half-way to the neighbours, and belong to
it when the significand is even. -/
def Interval.around (significand : Nat) (exponent : Int) (narrowBelow : Bool) : Interval :=
  { low := 4 * significand - (if narrowBelow then 1 else 2)
    centre := 4 * significand
    high := 4 * significand + 2
    closed := significand % 2 = 0
    numerator := Nat.pow 2 (exponent - 2).toNat
    denominator := Nat.pow 2 (2 - exponent).toNat }

/-- The point of the grid of multiples of `10 ^ exponent` that lies in the interval, if any. Of two
such points the one nearer to the centre is taken, and of two equally near ones the lower. -/
def Interval.onGrid (i : Interval) (exponent : Int) : Option Nat :=
  let unit := i.numerator * Nat.pow 10 (-exponent).toNat
  let step := i.denominator * Nat.pow 10 exponent.toNat
  let below := i.centre * unit / step
  let above := below + 1
  let belowInside := if i.closed then i.low * unit ≤ below * step else i.low * unit < below * step
  let aboveInside :=
    if i.closed then above * step ≤ i.high * unit else above * step < i.high * unit
  if belowInside ∧ aboveInside then
    if i.centre * unit - below * step ≤ above * step - i.centre * unit then some below
    else some above
  else if belowInside then some below
  else if aboveInside then some above
  else none

/-- Search the grids from `10 ^ exponent` downwards, at most `count` of them. -/
def Interval.searchGrids (i : Interval) (exponent : Int) : (count : Nat) → Number
  | 0 => ⟨0, 0⟩
  | count + 1 =>
    match i.onGrid exponent with
    | some digits => ⟨digits, exponent⟩
    | none => i.searchGrids (exponent - 1) count

/-- The point on the coarsest decimal grid that meets the interval. Every double has one between
`10 ^ 309` and `10 ^ (-325)`. -/
def Interval.shortest (i : Interval) : Number :=
  i.searchGrids 309 635

/-! ## Notation -/

/-- How a finite number is written: for which decimal exponents of its first digit it is written
positionally (`none`: for all), and what marks a whole number written positionally. -/
structure Layout where
  positional : Option (Int × Int)
  wholeMark : String

/-- Text inside keys is always positional, and a whole number has no point. -/
def Layout.plain : Layout := ⟨none, ""⟩

/-- Diagnostic text keeps a point, and is positional from `10 ^ (-4)` to below `10 ^ 16`. -/
def Layout.diagnostic : Layout := ⟨some (-4, 15), ".0"⟩

/-- A number in a JSON text keeps a point, and is positional from `10 ^ (-5)` to below `10 ^ 16`. -/
def Layout.json : Layout := ⟨some (-5, 15), ".0"⟩

def zeros (count : Nat) : String :=
  String.ofList (List.replicate count '0')

def Number.positionalText (x : Number) (wholeMark : String) : String :=
  let text := toString x.digits
  if 0 ≤ x.exponent then text ++ zeros x.exponent.toNat ++ wholeMark
  else
    let places := (-x.exponent).toNat
    if places < text.length then
      let whole := text.length - places
      String.ofList (text.toList.take whole) ++ "." ++ String.ofList (text.toList.drop whole)
    else "0." ++ zeros (places - text.length) ++ text

/-- One digit before the point, then the exponent after the letter e. -/
def Number.exponentText (x : Number) : String :=
  let digits := (toString x.digits).toList
  let exponent := toString (x.exponent + (digits.length : Int) - 1)
  let fraction := digits.drop 1
  String.ofList (digits.take 1) ++ (if fraction.isEmpty then "" else "." ++ String.ofList fraction)
    ++ "e" ++ exponent

def Layout.numberText (layout : Layout) (x : Number) : String :=
  let first := x.exponent + ((toString x.digits).length : Int) - 1
  match layout.positional with
  | none => x.positionalText layout.wholeMark
  | some (least, greatest) =>
    if least ≤ first ∧ first ≤ greatest then x.positionalText layout.wholeMark
    else x.exponentText

/-- The text of a double, given by its bits. Zero keeps its sign. -/
def Layout.text (layout : Layout) (bits : UInt64) : String :=
  let sign (negative : Bool) := if negative then "-" else ""
  match Binary64.ofBits bits with
  | .notANumber => "NaN"
  | .infinite negative => sign negative ++ "inf"
  | .finite negative significand exponent narrowBelow =>
    if significand = 0 then sign negative ++ "0" ++ layout.wholeMark
    else
      sign negative ++ layout.numberText (Interval.around significand exponent narrowBelow).shortest

end ReadThrough.Decimal
