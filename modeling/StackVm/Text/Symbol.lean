import StackVm.Text.Quoted
/-!
# Symbol literals

A symbol is written after a colon. Operators and identifiers stand bare; an identifier may carry
the sigil of a variable in front or one method mark behind. Any other name is quoted.
-/

namespace StackVm.Text.Symbol

/-- The operator names. -/
def operators : List String :=
  ["+", "-", "*", "/", "%", "**", "==", "===", "!=", "<=>", "<", "<=", ">", ">=", "<<", ">>", "!",
   "~", "+@", "-@", "[]", "[]=", "=~", "!~", "&", "|", "^", "`"]

/-- A letter or underscore, then letters, numbers and underscores. -/
def isPlainName : List Char → Bool
  | [] => false
  | c :: rest =>
    (c == '_' || Unicode.isAlphabetic c) && rest.all fun d => d == '_' || Unicode.isAlphanumeric d

/-- A name without one mark at its end: a question mark, an exclamation mark or an equals sign. -/
def withoutMark (name : List Char) : List Char :=
  match name.getLast? with
  | some c => if c == '?' || c == '!' || c == '=' then name.dropLast else name
  | none => name

/-- The part of a name that has to be an identifier. A sigil and a mark exclude each other. -/
def stem : List Char → List Char
  | '@' :: '@' :: rest => rest
  | '@' :: rest => rest
  | '$' :: rest => rest
  | name => withoutMark name

/-- Whether a name needs no quotes. -/
def isBare (name : List Char) : Bool :=
  operators.any (fun operator => operator.toList == name) || isPlainName (stem name)

/-- The whole literal. -/
def literal (name : List Char) : List Char :=
  ':' :: if isBare name then name else Quoted.literal name

end StackVm.Text.Symbol
