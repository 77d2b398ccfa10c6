import StackVm.Binary64.Decimal
import StackVm.Toml.Item
import StackVm.Toml.Scan
/-!
# Numbers, days and times of TOML

Digits may be divided by single underscores. An integer has 64 bits and may be written in base
sixteen, eight or two; a number with a fraction or an exponent is rounded to the nearest float, and
refused where that is positive infinity. Days have to be in the calendar.
-/

namespace StackVm.Toml

/-! ## Digits -/

/-- The digits that may follow a first one: an underscore counts only before a digit. -/
def moreDigits (isDigit : Char → Bool) : List Char → List Char × List Char
  | [] => ([], [])
  | c :: rest =>
    if isDigit c then
      let (digits, rest) := moreDigits isDigit rest
      (c :: digits, rest)
    else if c = '_' && rest.head?.any isDigit then moreDigits isDigit rest
    else ([], c :: rest)

/-- One digit or more, divided by underscores. -/
def digits (isDigit : Char → Bool) : Reader (List Char) := fun s => do
  match s with
  | c :: rest =>
    guard (isDigit c)
    let (more, rest) := moreDigits isDigit rest
    return (c :: more, rest)
  | [] => none

/-- Whether a sign is negative, and the text after it. -/
def sign : List Char → Bool × List Char
  | '+' :: rest => (false, rest)
  | '-' :: rest => (true, rest)
  | s => (false, s)

/-- The digits of a whole number in base ten: a zero stands alone. -/
def wholeDigits : Reader (List Char) := fun s =>
  match s with
  | '0' :: rest => some (['0'], rest)
  | s => digits Char.isDigit s

/-- The number that digits in a base stand for. -/
def ofDigits (base : Nat) (digits : List Char) : Nat :=
  digits.foldl (fun n c => base * n + (Text.hexValue? c).getD 0) 0

/-! ## Integers and floats -/

/-- An integer, if it has 64 bits. -/
def bounded? (i : Int) : Option Int :=
  if -0x8000000000000000 ≤ i ∧ i < 0x8000000000000000 then some i else none

/-- An integer in a base after its two marking characters. -/
def basedInteger (base : Nat) (isDigit : Char → Bool) : Reader Item := fun s => do
  let (digits, rest) ← digits isDigit s
  return (.integer (← bounded? (ofDigits base digits)), rest)

/-- An integer. -/
def integer : Reader Item := fun s =>
  match s with
  | '0' :: 'x' :: rest => basedInteger 16 (fun c => (Text.hexValue? c).isSome) rest
  | '0' :: 'o' :: rest => basedInteger 8 (fun c => '0' ≤ c && c ≤ '7') rest
  | '0' :: 'b' :: rest => basedInteger 2 (fun c => c == '0' || c == '1') rest
  | s => do
    let (negative, rest) := sign s
    let (digits, rest) ← wholeDigits rest
    let n : Int := ofDigits 10 digits
    return (.integer (← bounded? (if negative then -n else n)), rest)

/-- An exponent after its letter. -/
def exponent : Reader Int := fun s => do
  let (negative, rest) := sign s
  let (digits, rest) ← digits Char.isDigit rest
  let n : Int := ofDigits 10 digits
  return (if negative then -n else n, rest)

/-- The exponent at the start of a text, if there is a letter for one. -/
def exponent? (s : List Char) : Option (Option Int × List Char) := do
  match s with
  | 'e' :: rest | 'E' :: rest =>
    let (e, rest) ← exponent rest
    return (some e, rest)
  | s => return (none, s)

/-- The digits after a point, if there is one. -/
def fraction? (s : List Char) : Option (Option (List Char) × List Char) := do
  match s with
  | '.' :: rest =>
    let (digits, rest) ← digits Char.isDigit rest
    return (some digits, rest)
  | s => return (none, s)

/-- A special float by its name. -/
def specialFloat (negative : Bool) : Reader Item := fun s =>
  match s with
  | 'i' :: 'n' :: 'f' :: rest => some (.float (.ofMagnitude negative Binary64.infinity), rest)
  | 'n' :: 'a' :: 'n' :: rest =>
    some (.float (.ofMagnitude negative (Binary64.infinity + Binary64.hiddenBit / 2)), rest)
  | _ => none

/-- A number with a fraction, an exponent or both. -/
def decimalFloat (negative : Bool) : Reader Item := fun s => do
  let (whole, rest) ← wholeDigits s
  let (places, rest) ← fraction? rest
  let (e, rest) ← exponent? rest
  guard (places.isSome || e.isSome)
  let places := places.getD []
  let x := Binary64.ofDecimal negative ⟨ofDigits 10 (whole ++ places), e.getD 0 - places.length⟩
  guard (x != .ofMagnitude false Binary64.infinity)
  return (.float x, rest)

/-- A float. -/
def float : Reader Item := fun s =>
  let (negative, rest) := sign s
  decimalFloat negative rest <|> specialFloat negative rest

/-! ## Days and times -/

/-- A number of exactly so many digits within bounds. -/
def fixedDigits (count least greatest : Nat) : Reader Nat := fun s => do
  let text := s.take count
  guard (text.length = count && text.all Char.isDigit)
  let n := ofDigits 10 text
  guard (least ≤ n && n ≤ greatest)
  return (n, s.drop count)

/-- The text after a character. -/
def after? (c : Char) : List Char → Option (List Char)
  | d :: rest => if d = c then some rest else none
  | [] => none

/-- The number of days of a month. -/
def daysOfMonth (year month : Nat) : Nat :=
  if month = 2 then
    if year % 4 = 0 ∧ (year % 100 ≠ 0 ∨ year % 400 = 0) then 29 else 28
  else if month = 4 ∨ month = 6 ∨ month = 9 ∨ month = 11 then 30
  else 31

/-- A day. -/
def date : Reader Date := fun s => do
  let (year, rest) ← fixedDigits 4 0 9999 s
  let (month, rest) ← fixedDigits 2 1 12 (← after? '-' rest)
  let (day, rest) ← fixedDigits 2 1 (daysOfMonth year month) (← after? '-' rest)
  return (⟨year, month, day⟩, rest)

/-- The fraction of a second after its point, in units of `10 ^ -9`; no point, no fraction. -/
def secondFraction (s : List Char) : Option (Nat × List Char) := do
  match s with
  | '.' :: rest =>
    let text := rest.takeWhile Char.isDigit
    guard (!text.isEmpty)
    let kept := text.take 9
    return (ofDigits 10 kept * tenPow (9 - kept.length), rest.dropWhile Char.isDigit)
  | s => return (0, s)

/-- A time of day. -/
def time : Reader Time := fun s => do
  let (hour, rest) ← fixedDigits 2 0 23 s
  let (minute, rest) ← fixedDigits 2 0 59 (← after? ':' rest)
  let (second, rest) ← fixedDigits 2 0 60 (← after? ':' rest)
  let (nanosecond, rest) ← secondFraction rest
  return (⟨hour, minute, second, nanosecond⟩, rest)

/-- An offset from universal time, in minutes, if there is one. -/
def offset? (s : List Char) : Option (Option Int × List Char) := do
  match s with
  | 'Z' :: rest | 'z' :: rest => return (some 0, rest)
  | c :: rest =>
    if c = '+' ∨ c = '-' then
      let (hour, rest) ← fixedDigits 2 0 23 rest
      let (minute, rest) ← fixedDigits 2 0 59 (← after? ':' rest)
      let minutes : Int := 60 * hour + minute
      return (some (if c = '-' then -minutes else minutes), rest)
    else return (none, s)
  | [] => return (none, [])

/-- The time of a day, after the letter or the blank that divides them. -/
def timeOfDay : Reader (Time × Option Int) := fun s => do
  match s with
  | c :: rest =>
    guard (c == 'T' || c == 't' || c == ' ')
    let (t, rest) ← time rest
    let (offset, rest) ← offset? rest
    return ((t, offset), rest)
  | [] => none

/-- A day, a time or both. A blank after a day belongs to it only if a time follows. -/
def dateTime : Reader Item := fun s =>
  match date s with
  | some (d, rest) =>
    match timeOfDay rest with
    | some ((t, offset), rest) => some (.dateTime (.moment d t offset), rest)
    | none => some (.dateTime (.day d), rest)
  | none => do
    let (t, rest) ← time s
    return (.dateTime (.time t), rest)

end StackVm.Toml
