import StackVm.Instruction.Basic
import StackVm.Text.Record
import StackVm.Value.Inspect
/-!
# Listings

A program is listed one instruction a row: its position in at least four digits, a blank, and the
instruction's line. A line is the mnemonic in a column of 38 characters, a blank and the operand;
`putOne`, which is a mnemonic alone, stands without the column. Blanks at the end of a line do not
enter the listing.
-/

namespace StackVm

namespace Instruction

/-- The width of the column of mnemonics. -/
def columnWidth : Nat := 38

/-- The operand as it stands after the mnemonic. -/
def operand? : Instruction → Option (List Char)
  | .getConstant name => some (Text.Symbol.literal name.toList)
  | .newHash size => some (Nat.toDigits 10 size.toNat)
  | .setInlineCache slot => some ("<is:".toList ++ Nat.toDigits 10 slot.toNat ++ ['>'])
  | .putObject object => some object.literal
  | .setN index => some (Nat.toDigits 10 index.toNat)
  | .nop | .putOne => none

/-- The mnemonic, with blanks up to the width of its column. -/
def column (i : Instruction) : List Char :=
  i.mnemonic.toList ++ List.replicate (columnWidth - i.mnemonic.toList.length) ' '

/-- The line of an instruction. -/
def line (i : Instruction) : List Char :=
  match i, i.operand? with
  | .putOne, _ => i.mnemonic.toList
  | _, some operand => i.column ++ ' ' :: operand
  | _, none => i.column

/-- The diagnostic form of an instruction. -/
def dump : Instruction → String
  | .getConstant name => Text.Record.dump "GetConstant" [("name", Text.Record.dumpText name)]
  | .newHash size => Text.Record.dump "NewHash" [("size", toString size.toNat)]
  | .nop => Text.Record.dump "Nop" []
  | .setInlineCache slot =>
    Text.Record.dump "OptSetInlineCache" [("cache", toString slot.toNat)]
  | .putObject object => Text.Record.dump "PutObject" [("object", object.inspect)]
  | .putOne => Text.Record.dump "PutObjectInt2Fix1" []
  | .setN index => Text.Record.dump "SetN" [("index", toString index.toNat)]

end Instruction

/-- The diagnostic form of an effect. -/
def Effect.dump (effect : Effect) : String :=
  Text.Record.dump "StackEffect"
    [("pops", toString effect.pops.toNat), ("pushes", toString effect.pushes.toNat),
     ("min_depth", toString effect.minDepth.toNat)]

namespace Listing

/-- A text without the blanks at its end. -/
def trimEnd (text : List Char) : List Char :=
  (text.reverse.dropWhile Unicode.isWhiteSpace).reverse

/-- A position in at least four digits. -/
def positionChars (position : Nat) : List Char :=
  let digits := Nat.toDigits 10 position
  List.replicate (4 - digits.length) '0' ++ digits

/-- The row of an instruction at a position. -/
def row (position : Nat) (i : Instruction) : List Char :=
  positionChars position ++ ' ' :: (trimEnd i.line ++ ['\n'])

/-- The rows of a program whose first instruction has a given position. -/
def rowsFrom (position : Nat) (code : List Instruction) : List (List Char) :=
  (code.zipIdx position).map fun entry => row entry.2 entry.1

/-- The listing of a program. -/
def render (code : List Instruction) : String :=
  String.ofList (rowsFrom 0 code).flatten

end Listing

end StackVm
