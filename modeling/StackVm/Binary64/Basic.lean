/-!
# Binary64 numbers

A double-precision number is its 64 bits: two numbers are the same exactly when their bits are, so
the zeros differ and every pattern of a not-a-number is a number of its own. Below the sign bit the
bits are the *magnitude*, which orders the non-negative numbers: the finite ones, then infinity,
then the patterns that are no number. A finite magnitude is a significand times a power of two, here
as a fraction of naturals, and `nearest` goes back from a fraction, a tie to the even significand.
-/

namespace StackVm

/-- A double-precision number, by its bits. -/
structure Binary64 where
  /-- The sign, the exponent and the fraction, from the highest bit. -/
  bits : UInt64
  deriving DecidableEq, Inhabited, Repr

namespace Binary64

/-- A power of two. -/
def twoPow (n : Nat) : Nat := Nat.pow 2 n

/-- The sign bit, `2 ^ 63`. -/
def signBit : Nat := 0x8000000000000000

/-- The least normal magnitude, `2 ^ 52`, which is also the bit that normal significands hide. -/
def hiddenBit : Nat := 0x10000000000000

/-- Whether the sign bit is set. -/
def isNegative (x : Binary64) : Bool := decide (signBit ≤ x.bits.toNat)

/-- The bits below the sign. -/
def magnitude (x : Binary64) : Nat := x.bits.toNat % signBit

/-- The number with a given sign and magnitude. -/
def ofMagnitude (negative : Bool) (magnitude : Nat) : Binary64 :=
  ⟨UInt64.ofNat (if negative then signBit + magnitude else magnitude)⟩

/-- The magnitude of infinity, the least that is not finite. -/
def infinity : Nat := 0x7FF * hiddenBit

/-- A pattern that stands for no number. -/
def isNaN (x : Binary64) : Bool := decide (infinity < x.magnitude)

/-- Neither infinite nor a pattern that stands for no number. -/
def isFinite (x : Binary64) : Bool := decide (x.magnitude < infinity)

/-- The significand of a finite magnitude: below the hidden bit all of it, above its low part with
that bit. -/
def significand (magnitude : Nat) : Nat :=
  if magnitude < hiddenBit then magnitude else hiddenBit + magnitude % hiddenBit

/-- The power of two that the significand counts. -/
def exponent (magnitude : Nat) : Int :=
  if magnitude < hiddenBit then -1074 else (magnitude / hiddenBit : Nat) - 1075

/-- The numerator of a finite magnitude's value. -/
def numerator (magnitude : Nat) : Nat :=
  significand magnitude * twoPow (exponent magnitude).toNat

/-- The denominator of a finite magnitude's value. -/
def denominator (magnitude : Nat) : Nat :=
  twoPow (-exponent magnitude).toNat

/-! ## The nearest number -/

/-- A quotient to the nearest natural, a tie to the even one. -/
def roundQuotient (num den : Nat) : Nat :=
  if 2 * (num % den) < den then num / den
  else if den < 2 * (num % den) then num / den + 1
  else num / den + num / den % 2

/-- The greatest `e` with `2 ^ e` at most the quotient of two positive numbers. -/
def binaryPlace (num den : Nat) : Int :=
  let e : Int := (num.log2 : Int) - den.log2
  if den * twoPow e.toNat ≤ num * twoPow (-e).toNat then e else e - 1

/-- The power of two that the significand of a quotient counts. -/
def unitPlace (num den : Nat) : Int :=
  max (-1074) (binaryPlace num den - 52)

/-- The magnitude nearest to a quotient. A significand that rounds up to the next power of two
carries into the exponent, which is the same addition; past the greatest number lies infinity. -/
def nearest (num den : Nat) : Nat :=
  if num = 0 then 0
  else
    let q := unitPlace num den
    min ((q + 1074).toNat * hiddenBit
      + roundQuotient (num * twoPow (-q).toNat) (den * twoPow q.toNat)) infinity

end Binary64

end StackVm
