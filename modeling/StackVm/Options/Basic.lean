import StackVm.Stack
/-!
# Options

The limits and switches that a machine is created with.
-/

namespace StackVm

/-- How a machine runs. -/
structure Options where
  /-- The number of values that the operand stack may hold. -/
  maxStackSize : UInt64 := Stack.defaultLimit
  /-- Whether finalised look-ups fill cache slots. -/
  inlineCaching : Bool := false
  /-- Whether line events reach an observer. -/
  traceLines : Bool := true
  /-- The number of instructions granted, if there is a bound. -/
  maxSteps : Option UInt64 := none
  deriving DecidableEq, Inhabited, Repr

/-- Why options cannot be used. -/
inductive OptionsError where
  /-- The text is no document with options. -/
  | malformed
  /-- The stack could hold nothing. -/
  | noStack
  /-- No instruction could run. -/
  | noSteps
  deriving DecidableEq, Repr

/-- The wording of an options error. What makes a text malformed is not told. -/
def OptionsError.message : OptionsError → String
  | .malformed => "Invalid VM configuration"
  | .noStack => "Invalid VM configuration: max_stack_size must be greater than zero"
  | .noSteps => "Invalid VM configuration: max_steps must be greater than zero when set"

namespace Options

/-- Refuses options that no machine can run with. -/
def validate (o : Options) : Except OptionsError Unit :=
  if o.maxStackSize = 0 then .error .noStack
  else if o.maxSteps = some 0 then .error .noSteps
  else .ok ()

/-- The default options with caches filled. -/
def caching : Options := { inlineCaching := true }

/-- The default options with a bound on the instructions. -/
def bounded (steps : UInt64) : Options := { maxSteps := some steps }

/-- The diagnostic form of options. -/
def dump (o : Options) : String :=
  Text.Record.dump "VmOptions"
    [("max_stack_size", toString o.maxStackSize.toNat),
     ("inline_caching", Text.Record.dumpBool o.inlineCaching),
     ("trace_lines", Text.Record.dumpBool o.traceLines),
     ("max_steps", match o.maxSteps with
        | none => "None"
        | some n => "Some(" ++ toString n.toNat ++ ")")]

end Options

end StackVm
