/-! # Durations

Lengths of time in whole nanoseconds, below `2 ^ 64` seconds.

* `Duration.scale?` multiplies by a `Factor`, an exact rational between 9/10 and 11/10;
* `Duration.text` writes a duration in the largest unit that has a nonzero whole part.
-/

namespace ReadThrough

/-! ## Durations -/

def nanosPerSecond : Nat := 1000000000

/-- A length of time, held to the nanosecond and shorter than `2 ^ 64` seconds. -/
structure Duration where
  nanos : Nat
  nanos_lt : nanos < UInt64.size * nanosPerSecond
deriving DecidableEq

namespace Duration

def zero : Duration := ⟨0, by decide⟩

instance : Inhabited Duration := ⟨zero⟩

/-- The duration of that many nanoseconds, if it is short enough. -/
def ofNanos? (nanos : Nat) : Option Duration :=
  if h : nanos < UInt64.size * nanosPerSecond then some ⟨nanos, h⟩ else none

def ofParts (seconds : UInt64) (nanos : Fin nanosPerSecond) : Duration where
  nanos := seconds.toNat * nanosPerSecond + nanos
  nanos_lt := by
    have hs := seconds.toNat_lt_size
    have hn := nanos.isLt
    calc seconds.toNat * nanosPerSecond + nanos
        < seconds.toNat * nanosPerSecond + nanosPerSecond := by omega
      _ = (seconds.toNat + 1) * nanosPerSecond := (Nat.succ_mul _ _).symm
      _ ≤ UInt64.size * nanosPerSecond := Nat.mul_le_mul_right _ (by omega)

def seconds (d : Duration) : Nat := d.nanos / nanosPerSecond

def millis (d : Duration) : Nat := d.nanos / 1000000

def isZero (d : Duration) : Bool := d.nanos = 0

def oneDay : Duration := ⟨86400 * nanosPerSecond, by decide⟩

end Duration

/-! ## Scaling -/

/-- A rational factor between 9/10 and 11/10. -/
structure Factor where
  num : Nat
  den : Nat
  den_pos : 0 < den
  low : 9 * den ≤ 10 * num
  high : 10 * num ≤ 11 * den

namespace Factor

def least : Factor := ⟨9, 10, by decide, by decide, by decide⟩

def one : Factor := ⟨1, 1, by decide, by decide, by decide⟩

def greatest : Factor := ⟨11, 10, by decide, by decide, by decide⟩

/-- One of 199 factors spread evenly over the open band; neighbouring indices are far apart. -/
def spread (index : Nat) : Factor where
  num := 901 + index * 37 % 199
  den := 1000
  den_pos := by decide
  low := by omega
  high := by have := Nat.mod_lt (index * 37) (y := 199) (by decide); omega

end Factor

/-- A duration multiplied by a factor, to the nearest nanosecond. There is no result when it would
reach `2 ^ 64` seconds. -/
def Duration.scale? (d : Duration) (f : Factor) : Option Duration :=
  Duration.ofNanos? ((2 * d.nanos * f.num + f.den) / (2 * f.den))

/-! ## Text -/

/-- A whole part and a fraction of `width` decimal places, without zeros at the end. -/
def fixedPoint (whole fraction width : Nat) : String :=
  let places := toString fraction
  let padded := List.replicate (width - places.length) '0' ++ places.toList
  let kept := (padded.reverse.dropWhile (· = '0')).reverse
  toString whole ++ (if kept.isEmpty then "" else "." ++ String.ofList kept)

/-- A duration in the largest unit whose whole part is not zero: seconds, milliseconds, microseconds
or nanoseconds. -/
def Duration.text (d : Duration) : String :=
  if nanosPerSecond ≤ d.nanos then
    fixedPoint (d.nanos / nanosPerSecond) (d.nanos % nanosPerSecond) 9 ++ "s"
  else if 1000000 ≤ d.nanos then fixedPoint (d.nanos / 1000000) (d.nanos % 1000000) 6 ++ "ms"
  else if 1000 ≤ d.nanos then fixedPoint (d.nanos / 1000) (d.nanos % 1000) 3 ++ "µs"
  else toString d.nanos ++ "ns"

end ReadThrough
