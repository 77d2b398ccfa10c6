import StackVm.Environment
import StackVm.Instruction.Basic
import StackVm.Machine.Basic
/-!
# Execution

What each instruction does to a machine. An instruction that fails may still have changed it: it
has used up a step, and a look-up that fails has taken its operands. A program runs up to its first
failing instruction.
-/

namespace StackVm

/-- The result of running something on a machine. -/
structure Outcome where
  /-- The machine afterwards, also when it failed. -/
  machine : Machine
  /-- Whether it succeeded. -/
  result : Except Fault Unit := .ok ()
  /-- What the observer was told, in order. -/
  events : List Event := []

/-- The fault that a failed look-up of a constant is. -/
def LookupError.toFault : LookupError → Fault
  | .constantNotFound name => .uninitializedConstant name
  | .notAClass scope => .notAClass scope

namespace Machine

/-- Stops with a fault. -/
def fail (m : Machine) (fault : Fault) : Outcome := { machine := m, result := .error fault }

/-- Uses up a step, if one is granted. -/
def spendStep (m : Machine) : Except Fault Machine :=
  match m.options.maxSteps with
  | some limit =>
    if limit ≤ m.stepCount then .error (.stepLimitExceeded limit.toNat)
    else .ok { m with stepCount := m.stepCount + 1 }
  | none => .ok { m with stepCount := m.stepCount + 1 }

/-- Pushes a value, once the observer has been told of events. -/
def push (m : Machine) (v : Value) (events : List Event) : Outcome :=
  match m.stack.checkRoom with
  | .error fault => { m.fail fault with events }
  | .ok _ => { machine := { m with stack := m.stack.put v }, events }

/-- What the observer is told of the line that an instruction stands on. -/
def announcement (m : Machine) (i : Instruction) : List Event :=
  if i.announcesLine then m.emit (.line i.mnemonic) else []

/-- Pushes the literal of an instruction. The room is checked before the line is announced, and by
the push once more, so that a push that does not fit is no event. -/
def putObject (m : Machine) (i : Instruction) (v : Value) : Outcome :=
  match m.stack.checkRoom with
  | .error fault => m.fail fault
  | .ok _ => m.push v (m.announcement i)

/-- Resolves a constant in a scope and pushes it. It is noted with the serial that the look-up was
made under, until a slot keeps it or another look-up succeeds. -/
def resolveConstant (m : Machine) (env : Environment) (name : String) (scope flag : Value) :
    Outcome :=
  if scope.isNil && !flag.isTruthy then m.fail (.uninitializedConstant name)
  else
    match env.resolve scope name with
    | .error e => m.fail e.toFault
    | .ok value => { m with pending := some ⟨name, value, env.serial⟩ }.push value []

/-- Takes a scope and, above it, a flag that allows the scope to be absent, and pushes the constant
of that name. -/
def getConstant (m : Machine) (env : Environment) (name : String) : Outcome :=
  match m.stack.topPair? with
  | none => m.fail (.stackUnderflow 2 m.stack.depth)
  | some (scope, flag) =>
    { m with stack := m.stack.drop 2 }.resolveConstant env name scope flag

/-- Adjacent values as pairs. -/
def pairUp : List Value → List (Value × Value)
  | key :: value :: rest => (key, value) :: pairUp rest
  | _ => []

/-- Takes keys and values in turn and pushes the hash of them. An odd size is refused before the
stack is looked at. -/
def newHash (m : Machine) (env : Environment) (size : UInt64) : Outcome :=
  if size % 2 = 0 then
    match m.stack.checkDepth size with
    | .error fault => m.fail fault
    | .ok _ =>
      let pairs := pairUp (m.stack.top size.toNat)
      { m with stack := m.stack.drop size.toNat }.push (env.buildHash pairs) []
  else m.fail (.oddHashSize size.toNat)

/-- Copies the top value over the one at a depth. -/
def setN (m : Machine) (index : UInt64) : Outcome :=
  match m.stack.get 0 with
  | .error fault => m.fail fault
  | .ok v =>
    if index.toNat < m.stack.depth then
      { machine := { m with stack := m.stack.replace index.toNat v } }
    else m.fail (m.stack.missingAt index)

/-- Keeps the constant resolved last in a slot. Each look-up fills one slot at most. -/
def setInlineCache (m : Machine) (token : UInt32) : Outcome :=
  if m.options.inlineCaching then
    match m.pending with
    | some c =>
      { machine :=
          { m with cache := m.cache.store token c.value c.serial, pending := none } }
    | none => { machine := m }
  else { machine := m }

/-- Runs an instruction for which a step has been used up. -/
def perform (m : Machine) (env : Environment) : Instruction → Outcome
  | .getConstant name => m.getConstant env name
  | .newHash size => m.newHash env size
  | .nop => { machine := m }
  | .setInlineCache token => m.setInlineCache token
  | .putObject object => m.putObject (.putObject object) object
  | .putOne => m.putObject .putOne (.integer 1)
  | .setN index => m.setN index

/-- Runs an instruction. -/
def execute (m : Machine) (env : Environment) (i : Instruction) : Outcome :=
  match m.spendStep with
  | .error fault => m.fail fault
  | .ok m => m.perform env i

/-- Runs a program whose first instruction has a position, each instruction against the environment
that it finds at its own. The observer has been told `told` so far, the latest event first. -/
def runFrom (told : List Event) (position : Nat) (m : Machine) (envs : Nat → Environment) :
    List Instruction → Outcome
  | [] => { machine := m, events := told.reverse }
  | i :: rest =>
    let outcome := m.execute (envs position) i
    let told := outcome.events.reverse ++ told
    match outcome.result with
    | .ok _ => outcome.machine.runFrom told (position + 1) envs rest
    | .error _ => { outcome with events := told.reverse }

/-- Runs a program up to its first failing instruction, while the world of objects may change: each
instruction finds the environment of its position. -/
def runUnder (m : Machine) (envs : Nat → Environment) (code : List Instruction) : Outcome :=
  m.runFrom [] 0 envs code

/-- Runs a program up to its first failing instruction against one environment. -/
def run (m : Machine) (env : Environment) (code : List Instruction) : Outcome :=
  m.runUnder (fun _ => env) code

/-! ## A run, step by step -/

/-- What was told before a run only stands before what is told in it, and of the environments only
those from its position on count. -/
theorem runFrom_append (told before : List Event) {position position' : Nat}
    {envs envs' : Nat → Environment} (h : ∀ k, envs (position + k) = envs' (position' + k))
    (m : Machine) (code : List Instruction) :
    m.runFrom (told ++ before) position envs code =
      let outcome := m.runFrom told position' envs' code
      { outcome with events := before.reverse ++ outcome.events } := by
  induction code generalizing told position position' m with
  | nil => simp [runFrom]
  | cons i rest ih =>
    have here : envs position = envs' position' := h 0
    have there : ∀ k, envs (position + 1 + k) = envs' (position' + 1 + k) := fun k => by
      simpa [Nat.add_assoc, Nat.add_comm 1 k] using h (k + 1)
    simp only [runFrom, here]
    split
    · rw [← List.append_assoc, ih _ there]
    · simp

/-- A run from a position on is a run under what is found from there. -/
theorem runFrom_eq_runUnder (told : List Event) (position : Nat) (m : Machine)
    (envs : Nat → Environment) (code : List Instruction) :
    m.runFrom told position envs code =
      let outcome := m.runUnder (fun k => envs (position + k)) code
      { outcome with events := told.reverse ++ outcome.events } :=
  runFrom_append [] told (fun k => by simp) m code

@[simp]
theorem runUnder_nil (m : Machine) (envs : Nat → Environment) :
    m.runUnder envs [] = { machine := m } := rfl

/-- **A run is its first instruction and, if that succeeds, the run of the rest** on the machine it
leaves. -/
theorem runUnder_cons (m : Machine) (envs : Nat → Environment) (i : Instruction)
    (rest : List Instruction) :
    m.runUnder envs (i :: rest) =
      match (m.execute (envs 0) i).result with
      | .ok _ =>
        let next := (m.execute (envs 0) i).machine.runUnder (fun k => envs (k + 1)) rest
        { next with events := (m.execute (envs 0) i).events ++ next.events }
      | .error _ => m.execute (envs 0) i := by
  rw [runUnder, runFrom]
  split
  · rw [runFrom_eq_runUnder]
    simp [Nat.add_comm 1]
  · simp

end Machine

end StackVm
