import StackVm.Value.Equality
/-!
# Environments

What the machine needs to know of the world of objects: which value a constant name has in a scope,
which hash pairs build, and a serial that tells whether constants may have changed since it was
last read.
-/

namespace StackVm

/-- Why a constant could not be resolved. -/
inductive LookupError where
  /-- No constant of this qualified name can be reached from the scope. -/
  | constantNotFound (name : String)
  /-- The scope, here by its literal, is neither a class nor a module. -/
  | notAClass (scope : String)
  deriving DecidableEq, Repr

/-- The wording of a look-up error. -/
def LookupError.message : LookupError → String
  | .constantNotFound name => "uninitialized constant " ++ name
  | .notAClass scope => scope ++ " is not a class/module"

/-- What instructions run against. -/
structure Environment where
  /-- The value of a constant in a scope; the absent value as scope means the top level. -/
  resolve : Value → String → Except LookupError Value
  /-- The hash that pairs build, in order. -/
  buildHash : List (Value × Value) → Value := Value.ofPairs
  /-- A number that changes with each definition of a constant. -/
  serial : UInt64 := 0

namespace Environment

/-- An environment with one scope for all names. The first binding of a name counts, and the serial
never changes. -/
def flat (bindings : List (String × Value)) : Environment where
  resolve _ name :=
    match bindings.lookup name with
    | some value => .ok value
    | none => .error (.constantNotFound name)

end Environment

end StackVm
