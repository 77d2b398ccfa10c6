import StackVm.Value.Equality
import StackVm.Word
/-!
# Instructions

The seven instructions of the machine with their operands, and what each does to the height of the
operand stack. Sizes and depths are 64-bit words; the depth that `setN` needs stops at the greatest
word instead of wrapping.
-/

namespace StackVm

/-- An instruction with its operands. -/
inductive Instruction where
  /-- Pops a scope and a flag and pushes the constant of that name. -/
  | getConstant (name : String)
  /-- Pops keys and values in turn and pushes the hash of them. -/
  | newHash (size : UInt64)
  /-- Does nothing. -/
  | nop
  /-- Keeps the constant resolved last in a cache slot. -/
  | setInlineCache (slot : UInt32)
  /-- Pushes a literal. -/
  | putObject (object : Value)
  /-- Pushes the integer one. -/
  | putOne
  /-- Copies the top value over the one at a depth; the top has depth zero. -/
  | setN (index : UInt64)
  deriving Inhabited

/-- What an instruction asks of the operand stack and does to its height. -/
structure Effect where
  /-- The number of values taken. -/
  pops : UInt64
  /-- The number of values put. -/
  pushes : UInt64
  /-- The least depth that the instruction runs at. -/
  minDepth : UInt64
  deriving DecidableEq, Repr

namespace Effect

/-- The change in height, as a 64-bit integer: each count is read as one, so that a count of
`2 ^ 63` or more is negative. -/
def net (effect : Effect) : Int64 := effect.pushes.toInt64 - effect.pops.toInt64

/-- The effect of an instruction that needs just the values it takes. -/
def taking (pops pushes : UInt64) : Effect := ⟨pops, pushes, pops⟩

end Effect

namespace Instruction

/-- The name that an instruction is listed by. -/
def mnemonic : Instruction → String
  | .getConstant _ => "getconstant"
  | .newHash _ => "newhash"
  | .nop => "nop"
  | .setInlineCache _ => "opt_setinlinecache"
  | .putObject _ => "putobject"
  | .putOne => "putobject_INT2FIX_1_"
  | .setN _ => "setn"

/-- The effect of an instruction. -/
def effect : Instruction → Effect
  | .getConstant _ => .taking 2 1
  | .newHash size => .taking size 1
  | .nop | .setInlineCache _ => .taking 0 0
  | .putObject _ | .putOne => .taking 0 1
  | .setN index => ⟨0, 0, saturatingSucc index⟩

/-- Whether an instruction announces the line it stands on. -/
def announcesLine : Instruction → Bool
  | .putObject _ | .putOne => true
  | _ => false

/-- The short form of an instruction: the literal one has an instruction of its own. -/
def compact : Instruction → Instruction
  | .putObject (.integer i) => if i = 1 then .putOne else .putObject (.integer i)
  | i => i

/-- The form of an instruction that spells its literal out. -/
def expand : Instruction → Instruction
  | .putOne => .putObject (.integer 1)
  | i => i

/-- The same instruction with equal operands. -/
def eql : Instruction → Instruction → Bool
  | .getConstant a, .getConstant b => a == b
  | .newHash a, .newHash b => a == b
  | .nop, .nop => true
  | .setInlineCache a, .setInlineCache b => a == b
  | .putObject a, .putObject b => a.equals b
  | .putOne, .putOne => true
  | .setN a, .setN b => a == b
  | _, _ => false

end Instruction

end StackVm
