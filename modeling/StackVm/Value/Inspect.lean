import StackVm.Binary64.Inspect
import StackVm.Text.Symbol
import StackVm.Value.Basic
/-!
# Literals of values

The text that a value is shown by. A class shows its qualified name; a hash its entries between
braces, each key and value joined by an arrow.

`Value.literal` states the text and `Value.writeLiteral` writes it in front of what follows, so that
no part of a nested hash is copied once more for every hash around it.
-/

namespace StackVm

namespace Value

mutual

/-- The characters of a value's literal. -/
def literal : Value → List Char
  | .nil => "nil".toList
  | .bool true => "true".toList
  | .bool false => "false".toList
  | .integer i => (toString i.toInt).toList
  | .float x => x.inspect
  | .symbol name => Text.Symbol.literal name.toList
  | .string text => Text.Quoted.literal text.toList
  | .classHandle c => c.name.toList
  | .hash entries => '\x7b' :: (literalOfEntries entries ++ ['\x7d'])

/-- The characters of a hash's entries, divided by a comma and a blank. -/
def literalOfEntries : Entries → List Char
  | [] => []
  | [(key, value)] => literal key ++ '=' :: '>' :: literal value
  | (key, value) :: next :: rest =>
    literal key ++ '=' :: '>' :: (literal value ++ ',' :: ' ' :: literalOfEntries (next :: rest))

end

mutual

/-- A value's literal, written in front of a text. -/
def writeLiteral : Value → List Char → List Char
  | .hash entries, text => '\x7b' :: writeEntries entries ('\x7d' :: text)
  | v, text => literal v ++ text

/-- The literals of a hash's entries, written in front of a text. -/
def writeEntries : Entries → List Char → List Char
  | [], text => text
  | [(key, value)], text => writeLiteral key ('=' :: '>' :: writeLiteral value text)
  | (key, value) :: next :: rest, text =>
    writeLiteral key ('=' :: '>' ::
      writeLiteral value (',' :: ' ' :: writeEntries (next :: rest) text))

end

mutual

/-- What is written is the literal. -/
theorem writeLiteral_eq : (v : Value) → (text : List Char) →
    writeLiteral v text = literal v ++ text
  | .hash entries, text => by simp [writeLiteral, literal, writeEntries_eq entries]
  | .nil, _ | .bool _, _ | .integer _, _ | .float _, _ | .symbol _, _ | .string _, _
  | .classHandle _, _ => by simp [writeLiteral]

/-- What is written of entries are their literals. -/
theorem writeEntries_eq : (entries : Entries) → (text : List Char) →
    writeEntries entries text = literalOfEntries entries ++ text
  | [], _ => by simp [writeEntries, literalOfEntries]
  | [(key, value)], _ => by
    simp [writeEntries, literalOfEntries, writeLiteral_eq key, writeLiteral_eq value]
  | (key, value) :: next :: rest, _ => by
    simp [writeEntries, literalOfEntries, writeLiteral_eq key, writeLiteral_eq value,
      writeEntries_eq (next :: rest)]

end

/-- The literal of a value. -/
def inspect (v : Value) : String := String.ofList (v.writeLiteral [])

/-- The characters of the text are those of the literal. -/
theorem inspect_eq (v : Value) : v.inspect = String.ofList v.literal := by
  simp [inspect, writeLiteral_eq]

end Value

end StackVm
