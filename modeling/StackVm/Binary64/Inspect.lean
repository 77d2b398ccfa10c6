import StackVm.Binary64.Decimal
/-!
# Float literals

A finite number has two plain texts: its shortest decimal with the point behind the first digit and
an exponent (`scientific`), and the same decimal with the point in place (`positional`). Neither has
a point where no digit follows it. A literal is made from them by steps on texts. The exponent that
the first one ends in decides: from -4 to 15 the second one is taken; beyond, what stands before the
exponent of the first, and the exponent follows with its sign and at least two digits. Where there
is no point, a point and a zero are added.
-/

namespace StackVm

namespace Decimal

/-! ## Plain texts -/

/-- The exponent of the first digit. -/
def leadExponent (d : Decimal) : Int := d.point - 1

/-- A point with the digits behind it, if there are any. -/
def withPoint : List Char → List Char
  | [] => []
  | fraction => '.' :: fraction

/-- The digits with the point behind the first. -/
def mantissa (d : Decimal) : List Char :=
  match d.digitChars with
  | [] => []
  | lead :: rest => lead :: withPoint rest

/-- A minus sign, or nothing. -/
def signChars (negative : Bool) : List Char := if negative then ['-'] else []

/-- An integer without a plus sign. -/
def integerChars (e : Int) : List Char := signChars (e < 0) ++ Nat.toDigits 10 e.natAbs

/-- The digits with the point behind the first, and the exponent of that digit. -/
def scientific (d : Decimal) : List Char := d.mantissa ++ 'e' :: integerChars d.leadExponent

/-- The digits with the point in place. -/
def positional (d : Decimal) : List Char :=
  let digits := d.digitChars
  if d.point ≤ 0 then '0' :: '.' :: (List.replicate (-d.point).toNat '0' ++ digits)
  else if (digits.length : Int) ≤ d.point then
    digits ++ List.replicate (d.point - digits.length).toNat '0'
  else digits.take d.point.toNat ++ '.' :: digits.drop d.point.toNat

/-! ## Steps on texts -/

/-- What stands before the first occurrence of a character. -/
def before (stop : Char) (text : List Char) : List Char := text.takeWhile (· != stop)

/-- What stands behind the first occurrence of a character. -/
def behind (stop : Char) (text : List Char) : List Char := (text.dropWhile (· != stop)).tail

/-- A text in two at the first occurrence of a character, if there is one. -/
def splitOnce (stop : Char) (text : List Char) : Option (List Char × List Char) :=
  if stop ∈ text then some (before stop text, behind stop text) else none

/-- The number that one digit or more denote. -/
def natural? (digits : List Char) : Option Nat :=
  if digits ≠ [] ∧ digits.all Char.isDigit then some (Nat.ofDigitChars 10 digits 0) else none

/-- The integer that digits denote, maybe with a sign in front of them. -/
def signed? : List Char → Option Int
  | '-' :: digits => (natural? digits).map fun (n : Nat) => -(n : Int)
  | '+' :: digits => (natural? digits).map fun (n : Nat) => (n : Int)
  | digits => (natural? digits).map fun (n : Nat) => (n : Int)

/-- The same, if it has 32 bits. -/
def integer? (text : List Char) : Option Int :=
  (signed? text).filter fun i => -0x80000000 ≤ i ∧ i < 0x80000000

/-- What stands before the exponent of a text, and the exponent. One that is not there or cannot be
read counts as zero. -/
def splitExponent (text : List Char) : List Char × Int :=
  match splitOnce 'e' text with
  | some (mantissa, exponent) => (mantissa, (integer? exponent).getD 0)
  | none => (text, 0)

/-- A text with a point: one that has none gets it, and a zero behind it. -/
def withFraction (text : List Char) : List Char :=
  if '.' ∈ text then text else text ++ ['.', '0']

/-- An exponent with its sign and at least two digits. -/
def exponentChars (e : Int) : List Char :=
  (if e < 0 then '-' else '+') ::
    (if e.natAbs < 10 then '0' :: Nat.toDigits 10 e.natAbs else Nat.toDigits 10 e.natAbs)

end Decimal

namespace Binary64

open Decimal (signChars splitExponent withFraction exponentChars)

/-- The text of a finite number with the point behind the first digit, and an exponent. -/
def scientific (x : Binary64) : List Char :=
  signChars x.isNegative ++
    if x.magnitude = 0 then ['0', 'e', '0'] else (shortest x.magnitude).scientific

/-- The text of a finite number with the point in place. -/
def positional (x : Binary64) : List Char :=
  signChars x.isNegative ++
    if x.magnitude = 0 then ['0'] else (shortest x.magnitude).positional

/-- The literal of a number. Every pattern that stands for no number has the same one. -/
def inspect (x : Binary64) : List Char :=
  if x.isNaN then "NaN".toList
  else if !x.isFinite then if x.isNegative then "-Infinity".toList else "Infinity".toList
  else if x.magnitude = 0 then if x.isNegative then "-0.0".toList else "0.0".toList
  else
    let (mantissa, exponent) := splitExponent x.scientific
    if -4 ≤ exponent ∧ exponent < 16 then withFraction x.positional
    else withFraction mantissa ++ 'e' :: exponentChars exponent

end Binary64

end StackVm
