import StackVm.Binary64.Basic
/-!
# Decimal numbers and their shortest choice

A decimal is a natural number of units of a power of ten. `Binary64.ofDecimal` reads one;
`Binary64.shortest` chooses, among the decimals that read back to a number, one with the fewest
digits, of those the nearest, and of two equally near the greater.
-/

namespace StackVm

/-- A power of ten. -/
def tenPow (n : Nat) : Nat := Nat.pow 10 n

/-- The number `digits * 10 ^ exponent`. -/
structure Decimal where
  /-- The digits, as a natural number. -/
  digits : Nat
  /-- The power of ten that they count. -/
  exponent : Int
  deriving DecidableEq, Inhabited, Repr

namespace Decimal

/-- The numerator of a decimal. -/
def numerator (d : Decimal) : Nat := d.digits * tenPow d.exponent.toNat

/-- The denominator of a decimal. -/
def denominator (d : Decimal) : Nat := tenPow (-d.exponent).toNat

/-- The digits as characters. -/
def digitChars (d : Decimal) : List Char := Nat.toDigits 10 d.digits

/-- Where the point stands, counted from the first digit. -/
def point (d : Decimal) : Int := d.digitChars.length + d.exponent

/-- Drops up to `n` zeros from the end of the digits. -/
def dropZeros : Nat → Decimal → Decimal
  | 0, d => d
  | n + 1, d => if d.digits % 10 = 0 then dropZeros n ⟨d.digits / 10, d.exponent + 1⟩ else d

/-- The same number without zeros at the end of its digits. -/
def normalize (d : Decimal) : Decimal := dropZeros d.digitChars.length d

end Decimal

namespace Binary64

/-- The magnitude nearest to a decimal. A number of more than 310 places is past every finite one
and a number with 330 zeros after its point is below half the least, so neither is computed. -/
def magnitudeOfDecimal (d : Decimal) : Nat :=
  if d.digits = 0 then 0
  else if 310 < d.point then infinity
  else if d.point < -330 then 0
  else nearest d.numerator d.denominator

/-- The number nearest to a decimal with a sign. -/
def ofDecimal (negative : Bool) (d : Decimal) : Binary64 :=
  ofMagnitude negative (magnitudeOfDecimal d)

/-! ## The shortest decimal -/

/-- A quotient in units of `10 ^ e`, rounded down. -/
def floorAt (num den : Nat) (e : Int) : Nat :=
  num * tenPow (-e).toNat / (den * tenPow e.toNat)

/-- How many of the first `n` places after the point of a quotient below one are zeros. -/
def leadingZeros (num den : Nat) : Nat → Nat
  | 0 => 0
  | n + 1 => if num * 10 < den then leadingZeros (num * 10) den n + 1 else 0

/-- Where the point of a quotient stands, counted from its first digit that is not zero. -/
def decimalPoint (num den : Nat) : Int :=
  if den ≤ num then (Nat.toDigits 10 (num / den)).length
  else -(leadingZeros num den 400 : Int)

/-- Of the two neighbours of a magnitude among the decimals in units of `10 ^ e`, the one that
reads back to it; of two, the nearer, and of two equally near the upper. -/
def onGrid? (magnitude : Nat) (e : Int) : Option Decimal :=
  let num := numerator magnitude
  let den := denominator magnitude
  let units := floorAt num den e
  let lower : Decimal := ⟨units, e⟩
  let upper : Decimal := ⟨units + 1, e⟩
  if magnitudeOfDecimal lower = magnitude then
    if magnitudeOfDecimal upper = magnitude
        ∧ (2 * units + 1) * den * tenPow e.toNat ≤ 2 * num * tenPow (-e).toNat then some upper
    else some lower
  else if magnitudeOfDecimal upper = magnitude then some upper
  else none

/-- The exact value of a finite magnitude, as a decimal. -/
def exactDecimal (magnitude : Nat) : Decimal :=
  ⟨numerator magnitude * Nat.pow 5 (-exponent magnitude).toNat, min 0 (exponent magnitude)⟩

/-- The decimal that a finite magnitude is written by. Seventeen digits always read back; the exact
value stands last so that the choice reads back by its form alone. -/
def shortest (magnitude : Nat) : Decimal :=
  let point := decimalPoint (numerator magnitude) (denominator magnitude)
  let found := (List.range 17).findSome? fun n => onGrid? magnitude (point - (n + 1 : Nat))
  (found.getD (exactDecimal magnitude)).normalize

end Binary64

end StackVm
