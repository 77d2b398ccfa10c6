import StackVm.Unicode.Property
/-!
# Dumps of records

The diagnostic form of a structured value: its name and, between braces, its fields. A text in a
dump is quoted, and what could not be told apart in print is written by its code point.
-/

namespace StackVm.Text.Record

/-- A name alone, or with its fields in order. -/
def dump (name : String) (fields : List (String × String)) : String :=
  match fields with
  | [] => name
  | _ :: _ =>
    name ++ " \x7b " ++ ", ".intercalate (fields.map fun field => field.1 ++ ": " ++ field.2)
      ++ " \x7d"

/-- A sequence in brackets. -/
def dumpList (items : List String) : String :=
  "[" ++ ", ".intercalate items ++ "]"

/-- How one character of a text is written in a dump. One that a reader could not see, or not tell
apart from the character before it, is written by its code point. -/
def escapeChar (c : Char) : List Char :=
  if c = '\x00' then ['\\', '0']
  else if c = '\t' then ['\\', 't']
  else if c = '\r' then ['\\', 'r']
  else if c = '\n' then ['\\', 'n']
  else if c = '\\' ∨ c = '"' then ['\\', c]
  else if ¬ Unicode.isDistinct c then
    ['\\', 'u', '\x7b'] ++ Nat.toDigits 16 c.toNat ++ ['\x7d']
  else [c]

/-- A text in quotes. -/
def dumpText (text : String) : String :=
  "\"" ++ String.ofList (text.toList.flatMap escapeChar) ++ "\""

/-- A truth value. -/
def dumpBool (b : Bool) : String := if b then "true" else "false"

end StackVm.Text.Record
