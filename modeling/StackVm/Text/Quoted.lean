import StackVm.Text.Hex
import StackVm.Unicode.Property
/-!
# Double-quoted literals

A text is written between double quotes. The quote, the backslash and the named controls are
written as a backslash and a letter; any other control as `\u` and four hexadecimal digits, or more
in braces. A number sign is escaped only where it would open an interpolation, that is before a
brace, a dollar or an at sign. `decode` reads the part between the quotes back, one character at a
time; it knows the escapes that are in fact written, which are those without braces.
-/

namespace StackVm.Text.Quoted

/-- The characters written as a backslash and a letter, each with its letter. -/
def letters : List (Char × Char) :=
  [('"', '"'), ('\\', '\\'), ('\n', 'n'), ('\t', 't'), ('\r', 'r'), ('\x0c', 'f'), ('\x0b', 'v'),
   ('\x08', 'b'), ('\x07', 'a'), ('\x1b', 'e')]

/-- Whether a number sign before this text would open an interpolation. -/
def opensInterpolation : List Char → Bool
  | [] => false
  | c :: _ => c == '\x7b' || c == '$' || c == '@'

/-- How one character is written, given the text after it. -/
def encodeChar (c : Char) (rest : List Char) : List Char :=
  match letters.lookup c with
  | some letter => ['\\', letter]
  | none =>
    if c = '#' ∧ opensInterpolation rest then ['\\', '#']
    else if Unicode.isControl c then
      if c.toNat < 0x10000 then '\\' :: 'u' :: hex4 c.toNat
      else '\\' :: 'u' :: '\x7b' :: (hexDigits c.toNat ++ ['\x7d'])
    else [c]

/-- The part of a literal between its quotes. -/
def encode : List Char → List Char
  | [] => []
  | c :: rest => encodeChar c rest ++ encode rest

/-- The whole literal. -/
def literal (text : List Char) : List Char :=
  '"' :: (encode text ++ ['"'])

/-- The character that a letter after a backslash stands for. -/
def ofLetter? (letter : Char) : Option Char :=
  if letter = '#' then some '#'
  else (letters.find? fun entry => entry.2 == letter).map Prod.fst

/-- Reads one character, and leaves what follows it. A backslash that starts no known escape is
refused; every other character stands for itself. -/
def readChar : List Char → Option (Char × List Char)
  | [] => none
  | '\\' :: 'u' :: a :: b :: c :: d :: rest => do
    let code := 4096 * (← hexValue? a) + 256 * (← hexValue? b) + 16 * (← hexValue? c)
      + (← hexValue? d)
    return (Char.ofNat code, rest)
  | '\\' :: letter :: rest => (ofLetter? letter).map (·, rest)
  | '\\' :: [] => none
  | c :: rest => some (c, rest)

/-- What follows a character is shorter than the text that it was read from. -/
theorem length_lt_of_readChar {text rest : List Char} {c : Char}
    (h : readChar text = some (c, rest)) : rest.length < text.length := by
  revert h
  fun_cases readChar text with
  | case1 | case4 => intro h; cases h
  | case2 w x y z tail =>
    intro h
    simp only [Option.bind_eq_bind, Option.bind_eq_some_iff] at h
    obtain ⟨_, _, _, _, _, _, _, _, heq⟩ := h
    obtain ⟨-, rfl⟩ := Prod.mk.inj (Option.some.inj heq)
    simp only [List.length_cons]
    omega
  | case3 letter tail =>
    intro h
    obtain ⟨_, _, heq⟩ := Option.map_eq_some_iff.1 h
    obtain ⟨-, rfl⟩ := Prod.mk.inj heq
    simp only [List.length_cons]
    omega
  | case5 d tail =>
    intro h
    obtain ⟨-, rfl⟩ := Prod.mk.inj (Option.some.inj h)
    exact Nat.lt_succ_self _

/-- Reads the part of a literal between its quotes, up to its end. -/
def decode (text : List Char) : Option (List Char) :=
  if text = [] then some []
  else
    match _hread : readChar text with
    | some (c, rest) => (decode rest).map (c :: ·)
    | none => none
termination_by text.length
decreasing_by exact length_lt_of_readChar _hread

end StackVm.Text.Quoted
