import StackVm.ConstantCache
import StackVm.Options.Basic
/-!
# Machines

The state of one activation: its operand stack, its constant cache, the constant it resolved last,
who observes its line events, its options and the number of instructions it has run.
-/

namespace StackVm

/-- A constant that was looked up. -/
structure FoundConstant where
  /-- The name as the program has it. -/
  name : String
  /-- The value found. -/
  value : Value
  /-- The serial that the look-up was made under. -/
  serial : UInt64
  deriving Inhabited

/-- What an observer is told. -/
inductive Event where
  /-- A line starts at an instruction, here by its mnemonic. -/
  | line (mnemonic : String)
  deriving DecidableEq, Repr

/-- The wording of an event. -/
def Event.message : Event → String
  | .line mnemonic => "line (" ++ mnemonic ++ ")"

/-- The state of one activation. -/
structure Machine where
  /-- What tells this activation from others. -/
  id : Nat
  /-- The operand stack. -/
  stack : Stack
  /-- The constant cache. -/
  cache : ConstantCache := {}
  /-- The constant resolved last and not yet kept in a slot. -/
  pending : Option FoundConstant := none
  /-- The name of the observer of line events, if there is one. -/
  observer : Option String := none
  /-- The options that it was created with. -/
  options : Options
  /-- The number of instructions started, in a word that wraps. -/
  stepCount : UInt64 := 0
  deriving Inhabited

namespace Machine

/-- A machine with an empty stack. -/
def create (id : Nat) (options : Options) : Machine where
  id
  stack := .empty options.maxStackSize
  options

/-- The number of instructions started, as far as a word counts. -/
def steps (m : Machine) : Nat := m.stepCount.toNat

/-- Whether someone is told of line events. -/
def isObserved (m : Machine) : Bool := m.options.traceLines && m.observer.isSome

/-- What the observer is told where an event happens. -/
def emit (m : Machine) (event : Event) : List Event := if m.isObserved then [event] else []

/-- The diagnostic form of a machine. -/
def dump (m : Machine) : String :=
  Text.Record.dump "ExecutionContext"
    [("id", "ContextId(" ++ toString m.id ++ ")"),
     ("stack", Text.Record.dumpList (m.stack.toList.map Value.inspect)),
     ("inline_caches", toString m.cache.size),
     ("trace_hook", Text.Record.dumpBool m.observer.isSome),
     ("options", m.options.dump),
     ("steps", toString m.steps)]

end Machine

end StackVm
