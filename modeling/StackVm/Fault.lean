/-!
# Faults

Why the machine stops at an instruction.
-/

namespace StackVm

/-- The reason why an instruction, or an operation on the operand stack, fails. -/
inductive Fault where
  /-- The stack holds as many values as it may. -/
  | stackOverflow (limit : Nat)
  /-- More values are needed than there are. -/
  | stackUnderflow (needed depth : Nat)
  /-- A constant has no value. -/
  | uninitializedConstant (name : String)
  /-- The scope of a constant, here by its literal, is neither a class nor a module. -/
  | notAClass (scope : String)
  /-- A hash of an odd number of values. -/
  | oddHashSize (size : Nat)
  /-- The instructions granted are used up. -/
  | stepLimitExceeded (limit : Nat)
  deriving DecidableEq, Repr

/-- The wording of a fault. -/
def Fault.message : Fault → String
  | .stackOverflow limit => s!"Stack overflow (limit {limit} slots)"
  | .stackUnderflow needed depth => s!"Stack underflow: needed {needed} values, found {depth}"
  | .uninitializedConstant name => "uninitialized constant " ++ name
  | .notAClass scope => "Type error: " ++ scope ++ " is not a class/module"
  | .oddHashSize size => s!"Invalid operand: newhash size must be even, got {size}"
  | .stepLimitExceeded limit => s!"Step limit of {limit} instructions exceeded"

end StackVm
