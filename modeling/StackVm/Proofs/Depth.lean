import StackVm.Proofs.Rules
/-!
# The depth of the stack along a run

An instruction that succeeds changes the depth of the stack by its effect (`Performs.depth_eq`), and
one whose effect finds enough values fails only at a look-up or at the limit of the stack
(`Performs.result_of_minDepth`). A run is made up of its parts (`run_append`), and what each
instruction keeps a run keeps (`run_keeps`), among it that the stack stays within its limit.
-/

namespace StackVm

/-- The successor of a word is one more, up to the greatest word. -/
theorem toNat_saturatingSucc (n : UInt64) :
    (saturatingSucc n).toNat = min (n.toNat + 1) (UInt64.size - 1) := by
  have hword := n.toNat_lt
  simp only [UInt64.size]
  unfold saturatingSucc
  split
  · rename_i hzero
    have hlast : (n.toNat + 1) % 18446744073709551616 = 0 := by
      simpa using congrArg UInt64.toNat hzero
    omega
  · rename_i hnext
    have hlast : (n.toNat + 1) % 18446744073709551616 ≠ 0 := by
      simpa [← UInt64.toNat_inj] using hnext
    rw [UInt64.toNat_add, UInt64.toNat_one]
    omega

/-- Below the greatest words, the least depth that a copy needs is one more than its index. -/
theorem saturatingSucc_le_iff {index : UInt64} {depth : Nat} (hdepth : depth < UInt64.size - 1) :
    (saturatingSucc index).toNat ≤ depth ↔ index.toNat < depth := by
  rw [toNat_saturatingSucc]
  omega

/-- The outcome of something that ran after something else: the observer was told of both. -/
def Outcome.andThen (first next : Outcome) : Outcome :=
  { next with events := first.events ++ next.events }

theorem Outcome.andThen_assoc (first second third : Outcome) :
    first.andThen (second.andThen third) = (first.andThen second).andThen third := by
  simp [andThen]

namespace Machine

variable {m : Machine} {env : Environment} {i : Instruction} {o : Outcome}

/-! ## One instruction -/

/-- The stack holds no more values than it may. -/
def Fits (m : Machine) : Prop := m.stack.depth ≤ m.stack.limit.toNat

/-- **A stack that keeps its limit goes on keeping it**, also where the instruction fails. -/
theorem Performs.fits (h : m.Performs env i o) (hfits : m.Fits) : o.machine.Fits := by
  unfold Fits at hfits ⊢
  rw [h.frame.2.2]
  cases h <;> simp only [fail, Stack.depth_put, Stack.depth_drop, Stack.depth_replace] <;> omega

/-- The same for an instruction that pays its step. -/
theorem Executes.fits (h : m.Executes env i o) (hfits : m.Fits) : o.machine.Fits := by
  cases h with
  | granted _ hrun => exact hrun.fits hfits
  | refused _ _ => exact hfits

/-- **An instruction that succeeds changes the depth by its effect.** -/
theorem Performs.depth_eq (h : m.Performs env i o) (hok : o.result = .ok ()) :
    o.machine.stack.depth = m.stack.depth - i.effect.pops.toNat + i.effect.pushes.toNat := by
  cases h with
  | push hi _ => simp [Instruction.effect_of_literal hi, Effect.taking]
  | found => simp [Instruction.effect, Effect.taking]
  | hash => simp [Instruction.effect, Effect.taking]
  | copied => simp [Instruction.effect]
  | nop | kept | notKept => simp [Instruction.effect, Effect.taking]
  | pushFull | foundFull | missing | operandsMissing | hashFull | hashShort | hashOdd | copyShort
  | copyEmpty => cases hok

/-- The same for an instruction that pays its step. -/
theorem Executes.depth_eq (h : m.Executes env i o) (hok : o.result = .ok ()) :
    o.machine.stack.depth = m.stack.depth - i.effect.pops.toNat + i.effect.pushes.toNat := by
  cases h with
  | granted _ hrun => exact hrun.depth_eq hok
  | refused _ _ => cases hok

/-- A hash of odd size fails, whether its step is granted or not. -/
theorem Executes.error_of_odd {size : UInt64} (h : m.Executes env (.newHash size) o)
    (hodd : size % 2 ≠ 0) : ∃ fault, o.result = .error fault := by
  cases h with
  | granted _ hrun =>
    cases hrun with
    | push hi _ | pushFull hi _ => cases hi
    | hash heven _ _ | hashFull heven _ _ | hashShort heven _ => exact absurd heven hodd
    | hashOdd _ => exact ⟨_, rfl⟩
  | refused _ _ => exact ⟨_, rfl⟩

/-- An instruction is a look-up whose operands are on the stack and which fails with a fault. -/
def FailsLookup (m : Machine) (env : Environment) (i : Instruction) (fault : Fault) : Prop :=
  ∃ name below scope flag, i = .getConstant name ∧ m.stack.toList = below ++ [scope, flag] ∧
    lookup env name scope flag = .error fault

/-- **With the values that its effect asks for, an instruction succeeds, fails at a look-up or meets
the limit of the stack**, and the limit only where its effect goes past it. -/
theorem Performs.result_of_minDepth (h : m.Performs env i o) (hfits : m.Fits)
    (hsmall : m.stack.depth < UInt64.size - 1) (hdepth : i.effect.minDepth.toNat ≤ m.stack.depth)
    (heven : ∀ size, i = .newHash size → size % 2 = 0) :
    o.result = .ok () ∨ (∃ fault, m.FailsLookup env i fault ∧ o.result = .error fault) ∨
      o.result = .error (.stackOverflow m.stack.limit.toNat) ∧
        m.stack.limit.toNat < m.stack.depth - i.effect.pops.toNat + i.effect.pushes.toNat := by
  unfold Fits at hfits
  cases h with
  | push | found | hash | copied | nop | kept | notKept => exact .inl rfl
  | missing hstack hlookup => exact .inr (.inl ⟨_, ⟨_, _, _, _, rfl, hstack, hlookup⟩, rfl⟩)
  | pushFull hi hfull =>
    refine .inr (.inr ⟨rfl, ?_⟩)
    rw [Instruction.effect_of_literal hi]
    change m.stack.limit.toNat < m.stack.depth - 0 + 1
    omega
  | foundFull hstack _ hfull =>
    -- The operands that a look-up takes leave room for what it finds.
    have hlen := depth_of_pair hstack
    omega
  | hashFull _ _ hfull =>
    refine .inr (.inr ⟨rfl, ?_⟩)
    simp only [Instruction.effect, Effect.taking, UInt64.toNat_one]
    omega
  | operandsMissing hshort =>
    simp only [Instruction.effect, Effect.taking, UInt64.reduceToNat] at hdepth
    omega
  | hashShort _ hshort =>
    simp only [Instruction.effect, Effect.taking] at hdepth
    omega
  | hashOdd hodd => exact absurd (heven _ rfl) hodd
  | copyShort _ hshort =>
    have hindex := (saturatingSucc_le_iff hsmall).1 hdepth
    omega
  | copyEmpty hempty =>
    have hindex := (saturatingSucc_le_iff hsmall).1 hdepth
    omega

/-- **Without the values that its effect asks for, an instruction fails for the want of them**, and
reports the depth that there is. -/
theorem Performs.underflow (h : m.Performs env i o) (hsmall : m.stack.depth < UInt64.size - 1)
    (hshort : m.stack.depth < i.effect.minDepth.toNat)
    (heven : ∀ size, i = .newHash size → size % 2 = 0) :
    ∃ needed, o.result = .error (.stackUnderflow needed m.stack.depth) := by
  cases h with
  | operandsMissing | hashShort => exact ⟨_, rfl⟩
  | copyShort => exact ⟨_, rfl⟩
  | copyEmpty hempty => exact ⟨1, by rw [hempty]; rfl⟩
  | hashOdd hodd => exact absurd (heven _ rfl) hodd
  | push hi _ | pushFull hi _ =>
    rw [Instruction.effect_of_literal hi] at hshort
    exact absurd hshort (Nat.not_lt_zero _)
  | found hstack _ _ | foundFull hstack _ _ | missing hstack _ =>
    have hpair := depth_of_pair hstack
    simp only [Instruction.effect, Effect.taking, UInt64.reduceToNat] at hshort
    omega
  | hash _ hdepth _ | hashFull _ hdepth _ => exact absurd hshort (Nat.not_lt.2 hdepth)
  | copied _ hindex =>
    exact absurd hshort (Nat.not_lt.2 ((saturatingSucc_le_iff hsmall).2 hindex))
  | nop | kept | notKept => exact absurd hshort (Nat.not_lt_zero _)

/-- **With them, it meets the limit of the stack wherever its effect goes past it.** -/
theorem Performs.overflow (h : m.Performs env i o) (hfits : m.Fits)
    (hsmall : m.stack.depth < UInt64.size - 1) (hdepth : i.effect.minDepth.toNat ≤ m.stack.depth)
    (heven : ∀ size, i = .newHash size → size % 2 = 0)
    (hover : m.stack.limit.toNat <
      m.stack.depth - i.effect.pops.toNat + i.effect.pushes.toNat) :
    o.result = .error (.stackOverflow m.stack.limit.toNat) := by
  rcases h.result_of_minDepth hfits hsmall hdepth heven with hok | ⟨fault, hfails, -⟩ | ⟨hfull, -⟩
  · -- It would leave more values than the limit allows.
    have hkept := h.fits hfits
    unfold Fits at hkept
    rw [h.depth_eq hok, h.frame.2.2] at hkept
    omega
  · -- A look-up leaves fewer values than it finds.
    obtain ⟨name, below, scope, flag, rfl, hstack, -⟩ := hfails
    have hpair := depth_of_pair hstack
    unfold Fits at hfits
    simp only [Instruction.effect, Effect.taking, UInt64.reduceToNat] at hover
    omega
  · exact hfull

/-! ## The steps that are left -/

/-- The machine may run a number of instructions before its steps are used up. -/
def HasSteps (m : Machine) (count : Nat) : Prop :=
  ∀ limit, m.options.maxSteps = some limit → m.steps + count ≤ limit.toNat

/-- A machine with more steps left has fewer, too. -/
theorem HasSteps.mono {count count' : Nat} (h : m.HasSteps count') (hle : count ≤ count') :
    m.HasSteps count := fun limit hlimit => by
  have := h limit hlimit
  omega

/-- A machine with steps left pays for its next instruction. -/
theorem Executes.performs {count : Nat} (h : m.Executes env i o) (hsteps : m.HasSteps (count + 1)) :
    m.paid.Performs env i o := by
  cases h with
  | granted _ hrun => exact hrun
  | refused hlimit hspent =>
    have := hsteps _ hlimit
    omega

/-- And has one step fewer afterwards. -/
theorem Executes.hasSteps {count : Nat} (h : m.Executes env i o) (hsteps : m.HasSteps (count + 1)) :
    o.machine.HasSteps count := by
  obtain ⟨hoptions, hcost, -⟩ := h.frame
  intro limit hlimit
  have := hsteps limit (hoptions ▸ hlimit)
  omega

/-! ## Runs -/

/-- What the instructions after a number of others find. -/
def later (envs : Nat → Environment) (count : Nat) : Nat → Environment := fun k => envs (k + count)

theorem later_later (envs : Nat → Environment) (first second : Nat) :
    later (later envs first) second = later envs (first + second) := by
  funext k
  simp only [later]
  congr 1
  omega

variable {envs : Nat → Environment} {code before after : List Instruction}

/-- A run whose first instruction succeeds is that instruction and then the run of the rest. -/
theorem run_cons_of_ok (hok : (m.execute (envs 0) i).result = .ok ()) :
    m.runUnder envs (i :: code) =
      (m.execute (envs 0) i).andThen
        ((m.execute (envs 0) i).machine.runUnder (later envs 1) code) := by
  rw [runUnder_cons, hok]
  rfl

/-- It has the result of the rest. -/
theorem result_run_cons (hok : (m.execute (envs 0) i).result = .ok ()) :
    (m.runUnder envs (i :: code)).result =
      ((m.execute (envs 0) i).machine.runUnder (later envs 1) code).result := by
  rw [run_cons_of_ok hok]
  rfl

/-- And ends on the machine that the rest leaves. -/
theorem machine_run_cons (hok : (m.execute (envs 0) i).result = .ok ()) :
    (m.runUnder envs (i :: code)).machine =
      ((m.execute (envs 0) i).machine.runUnder (later envs 1) code).machine := by
  rw [run_cons_of_ok hok]
  rfl

/-- A run whose first instruction fails ends with it. -/
theorem run_cons_of_error {fault : Fault} (hfault : (m.execute (envs 0) i).result = .error fault) :
    m.runUnder envs (i :: code) = m.execute (envs 0) i := by
  rw [runUnder_cons, hfault]

/-- A run that succeeds has a first instruction that succeeds. -/
theorem execute_ok_of_run (hok : (m.runUnder envs (i :: code)).result = .ok ()) :
    (m.execute (envs 0) i).result = .ok () := by
  cases hresult : (m.execute (envs 0) i).result with
  | ok => rfl
  | error fault => rw [run_cons_of_error hresult, hresult] at hok; cases hok

/-- **A run whose first part succeeds goes on with the second** on the machine that it leaves. -/
theorem run_append (hok : (m.runUnder envs before).result = .ok ()) :
    m.runUnder envs (before ++ after) =
      (m.runUnder envs before).andThen
        ((m.runUnder envs before).machine.runUnder (later envs before.length) after) := by
  induction before generalizing m envs with
  | nil => rfl
  | cons i before ih =>
    have hfirst := execute_ok_of_run hok
    rw [result_run_cons hfirst] at hok
    rw [List.cons_append, run_cons_of_ok hfirst, run_cons_of_ok hfirst, ih hok, later_later,
      Nat.add_comm 1, Outcome.andThen_assoc]
    rfl

/-- One whose first part fails ends with it. -/
theorem run_append_of_error {fault : Fault}
    (hfault : (m.runUnder envs before).result = .error fault) :
    m.runUnder envs (before ++ after) = m.runUnder envs before := by
  induction before generalizing m envs with
  | nil => cases hfault
  | cons i before ih =>
    cases hfirst : (m.execute (envs 0) i).result with
    | error => rw [List.cons_append, run_cons_of_error hfirst, run_cons_of_error hfirst]
    | ok =>
      rw [result_run_cons hfirst] at hfault
      rw [List.cons_append, run_cons_of_ok hfirst, run_cons_of_ok hfirst, ih hfault]

/-- So the first part of a run that succeeds does so too. -/
theorem run_ok_of_append (hok : (m.runUnder envs (before ++ after)).result = .ok ()) :
    (m.runUnder envs before).result = .ok () := by
  cases hresult : (m.runUnder envs before).result with
  | ok => rfl
  | error fault => rw [run_append_of_error hresult, hresult] at hok; cases hok

/-- **What each instruction keeps, a run keeps.** -/
theorem run_keeps {P : Machine → Prop} (hstep : ∀ m env i, P m → P (m.execute env i).machine)
    (hstart : P m) : P (m.runUnder envs code).machine := by
  induction code generalizing m envs with
  | nil => exact hstart
  | cons i code ih =>
    cases hresult : (m.execute (envs 0) i).result with
    | ok => rw [machine_run_cons hresult]; exact ih (hstep m (envs 0) i hstart)
    | error fault => rw [run_cons_of_error hresult]; exact hstep m (envs 0) i hstart

/-- A run keeps the limit of the stack. -/
theorem limit_run (m : Machine) (envs : Nat → Environment) (code : List Instruction) :
    (m.runUnder envs code).machine.stack.limit = m.stack.limit :=
  run_keeps (P := fun n => n.stack.limit = m.stack.limit)
    (fun n env i h => (executes_execute n env i).frame.2.2.trans h) rfl

/-- A run keeps the stack within its limit. -/
theorem fits_run (hfits : m.Fits) : (m.runUnder envs code).machine.Fits :=
  run_keeps (fun n env i h => (executes_execute n env i).fits h) hfits

/-- A run costs a step for each instruction at most. -/
theorem hasSteps_run {count : Nat} (hsteps : m.HasSteps (code.length + count)) :
    (m.runUnder envs code).machine.HasSteps count := by
  induction code generalizing m envs with
  | nil => exact hsteps.mono (by omega)
  | cons i code ih =>
    have hsteps' : m.HasSteps (code.length + count + 1) := by
      rw [List.length_cons, Nat.add_right_comm] at hsteps
      exact hsteps
    have hleft := (executes_execute m (envs 0) i).hasSteps hsteps'
    cases hresult : (m.execute (envs 0) i).result with
    | ok => rw [machine_run_cons hresult]; exact ih hleft
    | error fault => rw [run_cons_of_error hresult]; exact hleft.mono (by omega)

end Machine

end StackVm
