import Mathlib.Data.List.Basic
import Mathlib.Data.List.Induction
import StackVm.ClassTable
import StackVm.Proofs.Depth
/-!
# Machines that share a class table

A world has one class table and any number of machines that run against it. What happens in it is a
history of definitions in the table and of instructions executed by single machines, in any order.
`World.moments` lists a history together with the world that each action was taken in, so that what
an action did can be said of the moment it happened at.
-/

namespace StackVm

/-! ## Definitions -/

/-- A definition in a class table. -/
inductive Definition where
  /-- Of a class, with its superclass and its namespace if they are given. -/
  | ofClass (name : String) (superclass space : Option ClassHandle)
  /-- Of a module, with its namespace if it is given. -/
  | ofModule (name : String) (space : Option ClassHandle)
  /-- Of a constant of a class or module. -/
  | ofConstant (owner : ClassHandle) (name : String) (value : Value)
  /-- Of a constant of the top level. -/
  | ofGlobal (name : String) (value : Value)

/-- The class table after a definition. -/
def ClassTable.define (t : ClassTable) : Definition → ClassTable
  | .ofClass name superclass space => (t.defineClass name superclass space).2
  | .ofModule name space => (t.defineModule name space).2
  | .ofConstant owner name value => t.defineConstant owner name value
  | .ofGlobal name value => t.defineGlobal name value

/-- **Every definition moves the serial on by one.** -/
theorem ClassTable.serial_define (t : ClassTable) (d : Definition) :
    (t.define d).serial = t.serial + 1 := by
  cases d <;> rfl

/-! ## Worlds and their histories -/

/-- The last of a kind in a history is the first that is met from its end. -/
theorem find?_reverse_eq_some_iff {α : Type} {kind : α → Bool} {history : List α} {x : α} :
    history.reverse.find? kind = some x ↔
      kind x ∧ ∃ earlier later, history = earlier ++ x :: later ∧ ∀ y ∈ later, ¬kind y := by
  simp only [List.find?_eq_some_iff_append, Bool.not_eq_eq_eq_not, Bool.not_true,
    Bool.not_eq_true]
  refine and_congr_right fun _ => ?_
  constructor
  · rintro ⟨later, earlier, hhistory, hlater⟩
    refine ⟨earlier.reverse, later.reverse, ?_, fun y hy => hlater y (List.mem_reverse.1 hy)⟩
    rw [← List.reverse_reverse history, hhistory]
    simp
  · rintro ⟨earlier, later, rfl, hlater⟩
    refine ⟨later.reverse, earlier.reverse, ?_, fun y hy => hlater y (List.mem_reverse.1 hy)⟩
    simp

/-- A class table and the machines that run against it. -/
structure World where
  /-- The class table. -/
  table : ClassTable
  /-- The machines, by number. -/
  machines : Nat → Machine

/-- What can happen in a world. -/
inductive Action where
  /-- A definition in the class table. -/
  | define (d : Definition)
  /-- An instruction, executed by one of the machines. -/
  | execute (machine : Nat) (i : Instruction)

/-- Whether an action is a definition. -/
def Action.isDefinition : Action → Bool
  | .define _ => true
  | .execute _ _ => false

namespace World

variable {w : World} {history : List Action}

/-- What an instruction comes to when a machine of the world executes it. -/
def outcome (w : World) (machine : Nat) (i : Instruction) : Outcome :=
  (w.machines machine).execute w.table.environment i

/-- The world after an action. An instruction that fails leaves what it left of its machine. -/
def step (w : World) : Action → World
  | .define d => { w with table := w.table.define d }
  | .execute machine i =>
    { w with machines := fun k =>
      if k = machine then (w.outcome machine i).machine else w.machines k }

/-- The world after a history, the oldest action first. -/
def after (w : World) (history : List Action) : World := history.foldl step w

@[simp]
theorem after_nil (w : World) : w.after [] = w := rfl

@[simp]
theorem after_cons (w : World) (a : Action) (history : List Action) :
    w.after (a :: history) = (w.step a).after history := rfl

@[simp]
theorem after_append (w : World) (earlier later : List Action) :
    w.after (earlier ++ later) = (w.after earlier).after later := by
  simp [after]

/-- An action and the world that it is taken in. -/
structure Moment where
  /-- The world before the action. -/
  world : World
  /-- The action. -/
  action : Action

/-- The moments of a history. -/
def moments (w : World) : List Action → List Moment
  | [] => []
  | a :: history => ⟨w, a⟩ :: (w.step a).moments history

theorem moments_append (w : World) (earlier later : List Action) :
    w.moments (earlier ++ later) = w.moments earlier ++ (w.after earlier).moments later := by
  induction earlier generalizing w with
  | nil => rfl
  | cons a earlier ih => simp [moments, ih]

/-- A machine that an action is not about stays as it is. -/
theorem machines_step_of_ne {machine k : Nat} {i : Instruction} (h : k ≠ machine) :
    (w.step (.execute machine i)).machines k = w.machines k := by
  simp [step, h]

/-- The machine that executes an instruction is left as its outcome says. -/
@[simp]
theorem machines_step_self (w : World) (machine : Nat) (i : Instruction) :
    (w.step (.execute machine i)).machines machine = (w.outcome machine i).machine := by
  simp [step]

/-! ## The serial and the table along a history -/

/-- **The serial counts the definitions of a history**, modulo the number of words. -/
theorem serial_after (w : World) (history : List Action) :
    (w.after history).table.serial =
      w.table.serial + UInt64.ofNat (history.countP Action.isDefinition) := by
  induction history generalizing w with
  | nil => simp
  | cons a history ih =>
    rw [after_cons, ih]
    cases a with
    | define d =>
      have hcount : (Action.define d :: history).countP Action.isDefinition =
          history.countP Action.isDefinition + 1 := List.countP_cons_of_pos rfl
      rw [hcount, UInt64.ofNat_add, step, ClassTable.serial_define, UInt64.add_assoc]
      congr 1
      exact UInt64.add_comm _ _
    | execute machine i =>
      have hcount : (Action.execute machine i :: history).countP Action.isDefinition =
          history.countP Action.isDefinition :=
        List.countP_cons_of_neg (by simp [Action.isDefinition])
      rw [hcount, step]

/-- Without definitions the class table stays as it is. -/
theorem table_after (h : history.countP Action.isDefinition = 0) :
    (w.after history).table = w.table := by
  induction history generalizing w with
  | nil => rfl
  | cons a history ih =>
    obtain ⟨hrest, hfirst⟩ : history.countP Action.isDefinition = 0 ∧ a.isDefinition = false := by
      simpa [List.countP_cons] using h
    cases a with
    | define d => simp [Action.isDefinition] at hfirst
    | execute machine i => rw [after_cons, ih hrest, step]

/-- **A serial that is still the same has seen no definition**, as long as there are fewer than
words. -/
theorem count_eq_zero_of_serial (hfew : history.countP Action.isDefinition < UInt64.size)
    (h : (w.after history).table.serial = w.table.serial) :
    history.countP Action.isDefinition = 0 := by
  -- Fewer definitions than words cannot bring the serial round to where it was.
  rw [serial_after] at h
  have hnat := congrArg UInt64.toNat h
  have hserial := w.table.serial.toNat_lt
  rw [UInt64.toNat_add, UInt64.toNat_ofNat_of_lt' hfew] at hnat
  simp only [UInt64.size] at hfew
  omega

/-- What each machine keeps over an instruction, all machines of a world keep over a history. -/
theorem machines_keep {P : Machine → Prop}
    (hstep : ∀ m env i, P m → P (Machine.execute m env i).machine)
    (hstart : ∀ k, P (w.machines k)) : ∀ k, P ((w.after history).machines k) := by
  induction history generalizing w with
  | nil => exact hstart
  | cons a history ih =>
    refine ih fun k => ?_
    cases a with
    | define d => exact hstart k
    | execute machine i =>
      by_cases hk : k = machine
      · subst hk
        rw [machines_step_self]
        exact hstep _ _ _ (hstart k)
      · rw [machines_step_of_ne hk]
        exact hstart k

/-- Stacks within their limits stay so. -/
theorem fits_after (hfits : ∀ k, (w.machines k).Fits) (history : List Action) :
    ∀ k, ((w.after history).machines k).Fits :=
  machines_keep (fun m env i h => (Machine.executes_execute m env i).fits h) hfits

/-- Also over a single action. -/
theorem fits_step (hfits : ∀ k, (w.machines k).Fits) (a : Action) :
    ∀ k, ((w.step a).machines k).Fits :=
  fits_after hfits [a]

end World

end StackVm
