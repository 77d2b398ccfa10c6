import StackVm.Options.Basic
import StackVm.Toml.Document
/-!
# Options in TOML

Options are written one key and value a line, a bound on the instructions only where there is one.
In a document any of the four keys may be missing, which leaves the default, and other keys and
tables are passed over. TOML integers have 64 bits with a sign, so greater numbers cannot be
written.
-/

namespace StackVm.Options

/-! ## Writing -/

/-- One line of a document. -/
def documentLine (key value : String) : String := key ++ " = " ++ value ++ "\n"

/-- A number as TOML writes it, if it can. -/
def integerText? (n : UInt64) : Option String :=
  if n.toNat < 0x8000000000000000 then some (toString n.toNat) else none

/-- The document that holds just these options. -/
def toToml? (o : Options) : Option String := do
  let size ← integerText? o.maxStackSize
  let steps ← match o.maxSteps with
    | none => some ""
    | some n => (integerText? n).map (documentLine "max_steps")
  return documentLine "max_stack_size" size
    ++ documentLine "inline_caching" (Text.Record.dumpBool o.inlineCaching)
    ++ documentLine "trace_lines" (Text.Record.dumpBool o.traceLines)
    ++ steps

/-! ## Reading -/

/-- The number under a key; nothing if the key is missing, a failure if there is no such number. -/
def number? (table : Toml.Table) (key : String) : Option (Option UInt64) :=
  match table.lookup key with
  | none => some none
  | some (.integer i) => if 0 ≤ i then some (some (UInt64.ofNat i.toNat)) else none
  | some _ => none

/-- The truth value under a key; nothing if the key is missing, a failure if there is none. -/
def switch? (table : Toml.Table) (key : String) : Option (Option Bool) :=
  match table.lookup key with
  | none => some none
  | some (.boolean b) => some (some b)
  | some _ => none

/-- The options that a document's top level gives. -/
def ofTable? (table : Toml.Table) : Option Options := do
  let initial : Options := {}
  let size ← number? table "max_stack_size"
  let caching ← switch? table "inline_caching"
  let lines ← switch? table "trace_lines"
  let steps ← number? table "max_steps"
  return {
    maxStackSize := size.getD initial.maxStackSize
    inlineCaching := caching.getD initial.inlineCaching
    traceLines := lines.getD initial.traceLines
    maxSteps := steps }

/-- Reads options from a document and checks that they can be used. -/
def ofToml (text : String) : Except OptionsError Options :=
  match (Toml.parse? text).bind ofTable? with
  | none => .error .malformed
  | some o => do
    o.validate
    return o

end StackVm.Options
