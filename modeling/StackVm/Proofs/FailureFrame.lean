import StackVm.Proofs.FaultOrder
import StackVm.Proofs.StepBudget
/-!
# What a failed instruction leaves behind

An instruction that fails has done nothing but pay its step, and one that is refused its step not
even that. There is one exception: a look-up takes its operands before it looks, so one that does
not find its constant leaves the stack without them. Two more rules would leave a trace of what
failed, those of a constant and of a hash that do not fit on the stack once their operands are
taken. A stack within its limit has room for them (`Performs.failed`), and every stack that a
machine can come to have is within its limit (`Reachable.fits`).
-/

namespace StackVm

namespace Machine

variable {m : Machine} {env : Environment} {i : Instruction} {o : Outcome} {fault : Fault}

/-! ## The machines that there are -/

/-- The machines that can come about. Stacks may be exchanged between them, so that a machine may
have a stack whose limit is not the one of its options. -/
inductive Reachable : Machine → Prop
  /-- A machine that has just been created. -/
  | created (id : Nat) (options : Options) : Reachable (create id options)
  /-- A machine after another use of it. -/
  | used {m : Machine} (h : Reachable m) (u : Use) : Reachable (m.use u)
  /-- A machine that has got the stack of another. -/
  | restacked {m other : Machine} (h : Reachable m) (hother : Reachable other) :
      Reachable { m with stack := other.stack }

/-- A session leads to such a machine. -/
theorem Reachable.session (h : m.Reachable) (uses : List Use) : (m.session uses).Reachable := by
  induction uses generalizing m with
  | nil => exact h
  | cons first uses ih => exact ih (h.used first)

/-- **Every stack is within its limit.** -/
theorem Reachable.fits (h : m.Reachable) : m.Fits := by
  induction h with
  | created id options => exact Nat.zero_le _
  | @used m _ u ih => exact @fits_session m [u] ih
  | restacked _ _ _ ih => exact ih

/-! ## One instruction -/

/-- A machine is left without the two operands of a look-up, and otherwise as it was. -/
def LosesOperands (m : Machine) (i : Instruction) (after : Machine) : Prop :=
  ∃ name below scope flag, i = .getConstant name ∧ m.stack.toList = below ++ [scope, flag] ∧
    after = { m with stack := m.stack.drop 2 }

/-- **An instruction that fails on a stack within its limit tells nobody and changes nothing**,
unless it is a look-up that does not find its constant. -/
theorem Performs.failed (h : m.Performs env i o) (hfits : m.Fits)
    (hfault : o.result = .error fault) :
    o.events = [] ∧ (¬fault.OfConstant ∧ o.machine = m ∨
      fault.OfConstant ∧ m.LosesOperands i o.machine) := by
  unfold Fits at hfits
  cases h with
  | push | found | hash | copied | nop | kept | notKept => cases hfault
  | missing hstack hlookup =>
    cases hfault
    have hmisses : m.MissesConstant env _ fault :=
      missesConstant_iff.2 ⟨_, _, _, _, rfl, hstack, hlookup⟩
    exact ⟨rfl, .inr ⟨hmisses.ofConstant, _, _, _, _, rfl, hstack, rfl⟩⟩
  | foundFull hstack _ hfull =>
    -- The operands made room for the constant.
    have hdepth := depth_of_pair hstack
    omega
  | @hashFull size _ hdepth hfull =>
    -- So did the keys and values for the hash, if there were any.
    have hnone : size.toNat = 0 := by omega
    cases hfault
    refine ⟨rfl, .inl ⟨False.elim, ?_⟩⟩
    rw [fail, hnone, Stack.drop_zero]
  | pushFull | operandsMissing | hashShort | hashOdd | copyShort | copyEmpty =>
    cases hfault
    exact ⟨rfl, .inl ⟨False.elim, rfl⟩⟩

/-- What an instruction that failed has left of a machine. -/
structure Aborted (m : Machine) (i : Instruction) (fault : Fault) (o : Outcome) : Prop where
  /-- The cache is as it was, -/
  cache : o.machine.cache = m.cache
  /-- and so is the constant that waits for a slot. -/
  pending : o.machine.pending = m.pending
  /-- The options are as they were, -/
  options : o.machine.options = m.options
  /-- the machine is the same -/
  id : o.machine.id = m.id
  /-- and has the same observer, -/
  observer : o.machine.observer = m.observer
  /-- who was told nothing. -/
  silent : o.events = []
  /-- An instruction that was refused its step has not used it up, -/
  refused : ∀ limit, fault = .stepLimitExceeded limit → o.machine.stepCount = m.stepCount
  /-- any other has used up one. -/
  paid : (∀ limit, fault ≠ .stepLimitExceeded limit) → o.machine.stepCount = m.stepCount + 1
  /-- The stack is as it was, -/
  stack : ¬fault.OfConstant → o.machine.stack = m.stack
  /-- but a look-up that did not find its constant has taken its two operands. -/
  operands : fault.OfConstant → ∃ name scope flag, i = .getConstant name ∧
    m.stack.toList = o.machine.stack.toList ++ [scope, flag] ∧
    o.machine.stack.limit = m.stack.limit

/-- **A failed instruction leaves nothing half done.** -/
theorem execute_aborted (hreach : m.Reachable) (env : Environment) (i : Instruction)
    (hfault : (m.execute env i).result = .error fault) :
    m.Aborted i fault (m.execute env i) := by
  have hrule := executes_execute m env i
  generalize m.execute env i = o at hrule hfault ⊢
  cases hrule with
  | refused hlimit hspent =>
    cases hfault
    exact ⟨rfl, rfl, rfl, rfl, rfl, rfl, fun _ _ => rfl, fun h => absurd rfl (h _), fun _ => rfl,
      False.elim⟩
  | granted _ hrun =>
    have hcost := hrun.ne_stepLimitExceeded hfault
    have hfits : m.paid.Fits := hreach.fits
    obtain ⟨hsilent, ⟨hother, hmachine⟩ | ⟨hconstant, name, below, scope, flag, hi, hstack,
      hmachine⟩⟩ := hrun.failed hfits hfault
    · obtain ⟨_, _, _⟩ := o
      subst hmachine hsilent
      exact ⟨rfl, rfl, rfl, rfl, rfl, rfl, fun limit h => absurd h (hcost limit), fun _ => rfl,
        fun _ => rfl, fun h => absurd h hother⟩
    · obtain ⟨_, _, _⟩ := o
      subst hmachine hsilent
      refine ⟨rfl, rfl, rfl, rfl, rfl, rfl, fun limit h => absurd h (hcost limit), fun _ => rfl,
        fun h => absurd hconstant h, fun _ => ⟨name, scope, flag, hi, ?_, rfl⟩⟩
      rw [toList_drop_two hstack]
      exact hstack

/-- A machine with a full stack, a constant that waits for a slot, an observer, and one step used
up, after some more uses of it. -/
def worn (uses : List Use) : Machine :=
  (create 0 { maxStackSize := 2, inlineCaching := true, maxSteps := some 2 }).session
    (.observe (some "log") :: .operate (.push .nil) :: .operate (.push (.bool true)) ::
      .execute (.flat [("A", .integer 1)]) (.getConstant "A") :: .operate (.push .nil) :: uses)

/-- A literal that does not fit leaves its stack, a look-up that finds nothing leaves it without its
operands, and an instruction that is refused its step leaves it again. -/
theorem execute_aborted_worn :
    ((worn []).Reachable ∧
      ((worn []).execute (.flat []) .putOne).result = .error (.stackOverflow 2) ∧
      (worn []).Aborted .putOne (.stackOverflow 2) ((worn []).execute (.flat []) .putOne)) ∧
    (((worn []).execute (.flat []) (.getConstant "B")).result =
        .error (.uninitializedConstant "B") ∧
      (worn []).Aborted (.getConstant "B") (.uninitializedConstant "B")
        ((worn []).execute (.flat []) (.getConstant "B"))) ∧
    (worn [.execute (.flat []) .nop]).Reachable ∧
      ((worn [.execute (.flat []) .nop]).execute (.flat []) .nop).result =
        .error (.stepLimitExceeded 2) ∧
      (worn [.execute (.flat []) .nop]).Aborted .nop (.stepLimitExceeded 2)
        ((worn [.execute (.flat []) .nop]).execute (.flat []) .nop) := by
  have hreach : ∀ uses, (worn uses).Reachable := fun uses => (Reachable.created 0 _).session _
  refine ⟨⟨hreach [], rfl, ?_⟩, ⟨rfl, ?_⟩, hreach _, rfl, ?_⟩
  · exact execute_aborted (hreach []) (.flat []) .putOne rfl
  · exact execute_aborted (hreach []) (.flat []) (.getConstant "B") rfl
  · exact execute_aborted (hreach _) (.flat []) .nop rfl

end Machine

end StackVm
