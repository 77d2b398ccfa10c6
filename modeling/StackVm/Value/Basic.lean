import StackVm.Binary64.Basic
import StackVm.ClassHandle
/-!
# Values

What the operand stack holds. Integers have 64 bits, floats are compared by their bits, and a hash
keeps its entries in the order in which their keys were first inserted.
-/

namespace StackVm

/-- A value of the machine. -/
inductive Value where
  /-- The absent value. -/
  | nil
  /-- A truth value. -/
  | bool (b : Bool)
  /-- A 64-bit integer. -/
  | integer (i : Int64)
  /-- A double-precision number. -/
  | float (x : Binary64)
  /-- A symbol, by its name. -/
  | symbol (name : String)
  /-- A string. -/
  | string (text : String)
  /-- A class or module. -/
  | classHandle (c : ClassHandle)
  /-- A mapping, by its entries in insertion order. -/
  | hash (entries : List (Value × Value))
  deriving Inhabited

/-- Keys with their values, in insertion order. -/
abbrev Entries := List (Value × Value)

namespace Value

/-- Whether this is the absent value. -/
def isNil : Value → Bool
  | .nil => true
  | _ => false

/-- Everything counts as true except the absent value and `false`. -/
def isTruthy : Value → Bool
  | .nil => false
  | .bool b => b
  | _ => true

theorem isNil_iff {v : Value} : v.isNil = true ↔ v = .nil := by
  cases v <;> simp [isNil]

theorem isTruthy_eq_false_iff {v : Value} : v.isTruthy = false ↔ v = .nil ∨ v = .bool false := by
  cases v <;> simp [isTruthy]

/-- The truth value, if it is one. -/
def bool? : Value → Option Bool
  | .bool b => some b
  | _ => none

/-- The integer, if it is one. -/
def integer? : Value → Option Int64
  | .integer i => some i
  | _ => none

/-- The float, if it is one. -/
def float? : Value → Option Binary64
  | .float x => some x
  | _ => none

/-- The class or module, if it is one. -/
def classHandle? : Value → Option ClassHandle
  | .classHandle c => some c
  | _ => none

/-- The entries, if it is a hash. -/
def entries? : Value → Option Entries
  | .hash entries => some entries
  | _ => none

/-- The name of the class that the value belongs to. -/
def className : Value → String
  | .nil => "NilClass"
  | .bool true => "TrueClass"
  | .bool false => "FalseClass"
  | .integer _ => "Integer"
  | .float _ => "Float"
  | .symbol _ => "Symbol"
  | .string _ => "String"
  | .classHandle c => if c.isModule then "Module" else "Class"
  | .hash _ => "Hash"

end Value

end StackVm
