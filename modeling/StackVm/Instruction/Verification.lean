import StackVm.Instruction.Basic
/-!
# Verification

A straight-line program can be checked without running it. First every hash size has to be even;
then the height of the stack, from zero, has to suffice for each instruction and to stay within a
fixed bound. The result is the greatest height reached.
-/

namespace StackVm

/-- Why a program is refused. -/
inductive VerificationError where
  /-- A hash of an odd number of values. -/
  | oddHashSize (size : UInt64) (position : Nat)
  /-- An instruction that needs more values than there are. -/
  | stackUnderflow (position : Nat) (needed depth : UInt64)
  /-- A height above the bound after an instruction. -/
  | stackOverflow (position : Nat) (depth : UInt64)
  deriving DecidableEq, Repr

/-- The wording of a verification error. -/
def VerificationError.message : VerificationError → String
  | .oddHashSize size position => s!"newhash size {size.toNat} is odd at position {position}"
  | .stackUnderflow position needed depth =>
    s!"Stack underflow at position {position}: needs {needed.toNat}, depth {depth.toNat}"
  | .stackOverflow position depth =>
    s!"Stack overflow at position {position} (depth: {depth.toNat})"

namespace Verification

/-- The greatest height that a verified program may reach. -/
def heightBound : UInt64 := 1024

/-- The position of the first hash of odd size in a program that starts at a position. -/
def checkSizes (position : Nat) : List Instruction → Except VerificationError Unit
  | [] => .ok ()
  | .newHash size :: rest =>
    if size % 2 = 0 then checkSizes (position + 1) rest else .error (.oddHashSize size position)
  | _ :: rest => checkSizes (position + 1) rest

/-- The height that an instruction leaves, from the height before it. -/
def nextDepth (depth : UInt64) (i : Instruction) : UInt64 :=
  depth - i.effect.pops + i.effect.pushes

/-- Follows the height of the stack through a program that starts at a position with a height, the
greatest one so far being known. -/
def checkDepths (position : Nat) (depth greatest : UInt64) :
    List Instruction → Except VerificationError UInt64
  | [] => .ok greatest
  | i :: rest =>
    if depth < i.effect.minDepth then .error (.stackUnderflow position i.effect.minDepth depth)
    else
      let next := nextDepth depth i
      if heightBound < next then .error (.stackOverflow position next)
      else checkDepths (position + 1) next (max greatest next) rest

/-- The greatest height of the stack that a program reaches, or the first reason against it. -/
def check (code : List Instruction) : Except VerificationError UInt64 := do
  checkSizes 0 code
  checkDepths 0 0 0 code

end Verification

end StackVm
