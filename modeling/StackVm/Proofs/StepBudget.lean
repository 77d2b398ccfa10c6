import StackVm.Proofs.Sessions
/-!
# A budget of steps only truncates a run

An instruction pays its step first, and does nothing else with the budget. So a run that has the
steps it needs goes as it would without a limit (`run_withBudget`); a run that succeeds has paid a
step for each instruction (`steps_run`); and where the budget is used up the next instruction is
refused before it does anything (`run_of_spent`). A run with a budget is therefore the run without
one of as many instructions as there are steps left.
-/

namespace StackVm

/-- The machine with another budget of steps, or none. -/
def Machine.withBudget (m : Machine) (budget : Option UInt64) : Machine :=
  { m with options := { m.options with maxSteps := budget } }

/-- The outcome with another budget for the machine that is left. -/
def Outcome.withBudget (o : Outcome) (budget : Option UInt64) : Outcome :=
  { o with machine := o.machine.withBudget budget }

/-- A budget that is put back has not changed. -/
theorem Outcome.withBudget_back {o : Outcome} {budget : Option UInt64}
    (h : o.machine.options.maxSteps = budget) (other : Option UInt64) :
    (o.withBudget other).withBudget budget = o := by
  subst h
  rfl

namespace Machine

variable {m : Machine} {env : Environment} {i : Instruction} {o : Outcome} {fault : Fault}
variable {envs : Nat → Environment} {code : List Instruction} {limit : UInt64}

/-! ## One instruction -/

/-- No rule looks at the budget. -/
theorem Performs.withBudget (h : m.Performs env i o) (budget : Option UInt64) :
    (m.withBudget budget).Performs env i (o.withBudget budget) := by
  cases h with
  | push hi hroom => exact .push hi hroom
  | pushFull hi hfull => exact .pushFull hi hfull
  | found hstack hlookup hroom => exact .found hstack hlookup hroom
  | foundFull hstack hlookup hfull => exact .foundFull hstack hlookup hfull
  | missing hstack hlookup => exact .missing hstack hlookup
  | operandsMissing hshort => exact .operandsMissing hshort
  | hash heven hdepth hroom => exact .hash heven hdepth hroom
  | hashFull heven hdepth hfull => exact .hashFull heven hdepth hfull
  | hashShort heven hshort => exact .hashShort heven hshort
  | hashOdd hodd => exact .hashOdd hodd
  | copied htop hdepth => exact .copied htop hdepth
  | copyShort hpos hshort => exact .copyShort hpos hshort
  | copyEmpty hempty => exact .copyEmpty hempty
  | nop => exact .nop
  | kept hcaching hpending => exact .kept hcaching hpending
  | notKept hnone => exact .notKept hnone

/-- **An instruction that is granted its step goes as without a limit.** -/
theorem execute_withBudget (h : m.MayStep) :
    (m.withBudget none).execute env i = (m.execute env i).withBudget none := by
  have hfree : (m.withBudget none).MayStep := by
    rintro limit ⟨⟩
  rw [execute_of_mayStep hfree, execute_of_mayStep h]
  exact ((performs_perform m.paid env i).withBudget none).perform_eq

/-- The fault of an instruction that was granted its step is another than the refusal of a step. -/
theorem Performs.ne_stepLimitExceeded (h : m.Performs env i o) (hfault : o.result = .error fault)
    (count : Nat) : fault ≠ .stepLimitExceeded count := by
  rintro rfl
  cases h with
  | missing _ hlookup =>
    cases hfault
    rcases fault_of_lookup hlookup with ⟨_, hname⟩ | ⟨_, htext⟩
    · cases hname
    · cases htext
  | _ => cases hfault

/-- With a budget, an instruction that was granted its step has used up one more. -/
theorem Performs.steps_eq (h : m.paid.Performs env i o) (hleft : m.steps < limit.toNat) :
    o.machine.steps = m.steps + 1 :=
  (congrArg UInt64.toNat h.frame.2.1).trans (steps_paid_of_lt hleft)

/-- **A failing instruction costs a step, and a refused one nothing at all.** -/
theorem Executes.cost (h : m.Executes env i o) (hlimit : m.options.maxSteps = some limit)
    (hfault : o.result = .error fault) :
    fault = .stepLimitExceeded limit.toNat ∧ limit.toNat ≤ m.steps ∧ o.machine = m ∨
      fault ≠ .stepLimitExceeded limit.toNat ∧ m.steps < limit.toNat ∧
        o.machine.steps = m.steps + 1 := by
  cases h with
  | granted hstep hrun =>
    have hleft := hstep limit hlimit
    exact .inr ⟨hrun.ne_stepLimitExceeded hfault _, hleft, hrun.steps_eq hleft⟩
  | @refused limit' hlimit' hspent =>
    obtain rfl : limit' = limit := Option.some.inj (hlimit'.symm.trans hlimit)
    cases hfault
    exact .inl ⟨rfl, hspent, rfl⟩

/-- No instruction goes past the budget. -/
theorem Executes.steps_le (h : m.Executes env i o) (hlimit : m.options.maxSteps = some limit)
    (hle : m.steps ≤ limit.toNat) : o.machine.steps ≤ limit.toNat := by
  cases h with
  | granted hstep hrun =>
    rw [hrun.steps_eq (hstep limit hlimit)]
    exact hstep limit hlimit
  | refused => exact hle

/-! ## Runs -/

theorem HasSteps.mayStep {count : Nat} (h : m.HasSteps (count + 1)) : m.MayStep := by
  intro limit hlimit
  have := h limit hlimit
  omega

/-- **A run that has the steps it needs goes as without a limit.** -/
theorem run_withBudget (h : m.HasSteps code.length) :
    (m.withBudget none).runUnder envs code = (m.runUnder envs code).withBudget none := by
  induction code generalizing m envs with
  | nil => rfl
  | cons i code ih =>
    have hexec := @execute_withBudget m (envs 0) i (HasSteps.mayStep h)
    cases hresult : (m.execute (envs 0) i).result with
    | error fault =>
      have hresult' : ((m.withBudget none).execute (envs 0) i).result = .error fault := by
        rw [hexec]
        exact hresult
      rw [run_cons_of_error hresult, run_cons_of_error hresult', hexec]
    | ok =>
      have hresult' : ((m.withBudget none).execute (envs 0) i).result = .ok () := by
        rw [hexec]
        exact hresult
      have hleft := (executes_execute m (envs 0) i).hasSteps h
      rw [run_cons_of_ok hresult, run_cons_of_ok hresult', hexec]
      exact congrArg _ (ih hleft)

/-- **A run that succeeds has paid a step of its budget for each instruction.** -/
theorem steps_run (hlimit : m.options.maxSteps = some limit)
    (hok : (m.runUnder envs code).result = .ok ()) :
    (m.runUnder envs code).machine.steps = m.steps + code.length := by
  induction code generalizing m envs with
  | nil => rfl
  | cons i code ih =>
    have hfirst := execute_ok_of_run hok
    have hrule := executes_execute m (envs 0) i
    have hlimit' : (m.execute (envs 0) i).machine.options.maxSteps = some limit := by
      rw [hrule.frame.1, hlimit]
    have hpaid : (m.execute (envs 0) i).machine.steps = m.steps + 1 := by
      generalize m.execute (envs 0) i = o at hrule hfirst ⊢
      cases hrule with
      | granted hstep hrun => exact hrun.steps_eq (hstep limit hlimit)
      | refused => cases hfirst
    rw [result_run_cons hfirst] at hok
    rw [machine_run_cons hfirst, ih hlimit' hok, hpaid, List.length_cons]
    omega

/-- A run keeps the options. -/
theorem options_run (m : Machine) (envs : Nat → Environment) (code : List Instruction) :
    (m.runUnder envs code).machine.options = m.options :=
  run_keeps (P := fun n => n.options = m.options)
    (fun n env i h => (executes_execute n env i).frame.1.trans h) rfl

/-- **Where the budget is used up, a run stops before its first instruction.** -/
theorem run_of_spent (hlimit : m.options.maxSteps = some limit) (hspent : limit.toNat ≤ m.steps)
    (hne : code ≠ []) : m.runUnder envs code = m.fail (.stepLimitExceeded limit.toNat) := by
  obtain ⟨i, rest, rfl⟩ := List.exists_cons_of_ne_nil hne
  have hrefused : m.execute (envs 0) i = m.fail (.stepLimitExceeded limit.toNat) :=
    (Executes.refused hlimit hspent).execute_eq
  have hresult : (m.execute (envs 0) i).result = .error (.stepLimitExceeded limit.toNat) := by
    rw [hrefused]
    rfl
  rw [run_cons_of_error hresult, hrefused]

/-- The instructions that there are steps for run as without a limit. -/
theorem run_granted (hlimit : m.options.maxSteps = some limit) :
    ((m.withBudget none).runUnder envs (code.take (limit.toNat - m.steps))).withBudget
        (some limit) = m.runUnder envs (code.take (limit.toNat - m.steps)) := by
  have hback : ((m.runUnder envs (code.take (limit.toNat - m.steps))).withBudget none).withBudget
      (some limit) = m.runUnder envs (code.take (limit.toNat - m.steps)) :=
    Outcome.withBudget_back (by rw [options_run, hlimit]) none
  rcases Nat.lt_or_ge m.steps limit.toNat with hleft | hspent
  · have hsteps : m.HasSteps (code.take (limit.toNat - m.steps)).length := by
      intro limit' hlimit'
      obtain rfl : limit' = limit := Option.some.inj (hlimit'.symm.trans hlimit)
      rw [List.length_take]
      omega
    rw [run_withBudget hsteps, hback]
  · rw [Nat.sub_eq_zero_of_le hspent, List.take_zero] at hback ⊢
    exact hback

/-- What comes after them is refused. -/
theorem run_beyond (hlimit : m.options.maxSteps = some limit)
    (hok : (m.runUnder envs (code.take (limit.toNat - m.steps))).result = .ok ())
    (hmore : code.take (limit.toNat - m.steps) ≠ code) :
    m.runUnder envs code =
      { m.runUnder envs (code.take (limit.toNat - m.steps)) with
        result := .error (.stepLimitExceeded limit.toNat) } := by
  have hrest : code.drop (limit.toNat - m.steps) ≠ [] := by
    intro hnil
    exact hmore (by simpa [hnil] using List.take_append_drop (limit.toNat - m.steps) code)
  have hspent : limit.toNat ≤
      (m.runUnder envs (code.take (limit.toNat - m.steps))).machine.steps := by
    have hlength := List.length_pos_of_ne_nil hrest
    rw [List.length_drop] at hlength
    rw [steps_run hlimit hok, List.length_take]
    omega
  have hsplit : m.runUnder envs (code.take (limit.toNat - m.steps) ++
      code.drop (limit.toNat - m.steps)) = _ := run_append hok
  rw [List.take_append_drop, run_of_spent (by rw [options_run, hlimit]) hspent hrest] at hsplit
  rw [hsplit]
  simp [Outcome.andThen, fail]

/-- **No session takes a machine past its budget.** -/
theorem steps_session_le (hlimit : m.options.maxSteps = some limit) (hle : m.steps ≤ limit.toNat)
    (uses : List Use) : (m.session uses).steps ≤ limit.toNat := by
  refine (session_keeps (P := fun n => n.options = m.options ∧ n.steps ≤ limit.toNat) ?_
    (fun _ _ h => h) (fun _ _ _ h => h) ⟨rfl, hle⟩).2
  intro n env i ⟨hoptions, hsteps⟩
  have hrule := executes_execute n env i
  exact ⟨hrule.frame.1.trans hoptions, hrule.steps_le (by rw [hoptions, hlimit]) hsteps⟩

/-- **A budget only truncates.** Let a machine have a budget, and run as many instructions of a
program as it has steps left on the same machine without a limit. If they fail, the program fails
alike, with the same machine and the same events. If they succeed and are the whole program, so does
the program. If they succeed and are not, it is refused its next step, and the machine and the
events are those that they leave. So no session takes a machine past its budget; and at any point of
a session an instruction that fails has cost a step, unless it was refused, which leaves the machine
as it was. -/
theorem run_truncated (hlimit : m.options.maxSteps = some limit) (envs : Nat → Environment)
    (code : List Instruction) :
    let granted := code.take (limit.toNat - m.steps)
    let free := (m.withBudget none).runUnder envs granted
    let held := m.runUnder envs code
    (∀ fault, free.result = .error fault → held = free.withBudget (some limit)) ∧
      (free.result = .ok () → granted = code → held = free.withBudget (some limit)) ∧
      (free.result = .ok () → granted ≠ code →
        held = { free.withBudget (some limit) with
          result := .error (.stepLimitExceeded limit.toNat) }) ∧
      (∀ uses, m.steps ≤ limit.toNat → (m.session uses).steps ≤ limit.toNat) ∧
      ∀ uses env i fault, let n := m.session uses
        (n.execute env i).result = .error fault →
          fault = .stepLimitExceeded limit.toNat ∧ limit.toNat ≤ n.steps ∧
              (n.execute env i).machine = n ∨
            fault ≠ .stepLimitExceeded limit.toNat ∧ n.steps < limit.toNat ∧
              (n.execute env i).machine.steps = n.steps + 1 := by
  intro granted free held
  have hgranted : free.withBudget (some limit) = m.runUnder envs granted := run_granted hlimit
  have hresult : free.result = (m.runUnder envs granted).result := by
    rw [← hgranted]
    rfl
  refine ⟨?_, ?_, ?_, ?_, ?_⟩
  · intro fault hfault
    rw [hresult] at hfault
    have hsplit : m.runUnder envs (granted ++ code.drop (limit.toNat - m.steps)) =
        m.runUnder envs granted := run_append_of_error hfault
    rw [List.take_append_drop] at hsplit
    rw [hgranted]
    exact hsplit
  · intro _ hall
    rw [hgranted, hall]
  · intro hok hmore
    rw [hresult] at hok
    rw [hgranted]
    exact run_beyond hlimit hok hmore
  · intro uses hle
    exact steps_session_le hlimit hle uses
  · intro uses env i fault n hfault
    have hoptions : n.options.maxSteps = some limit := by
      rw [options_session, hlimit]
    exact (executes_execute n env i).cost hoptions hfault

/-- A machine with two steps left of three. -/
def rationed : Machine := { create 0 { maxSteps := some 3 } with stepCount := 1 }

/-- Three instructions on it: the third is refused. Where the second fails, the third is not
reached; and the second has cost a step. -/
theorem run_truncated_rationed :
    rationed.options.maxSteps = some 3 ∧
      (rationed.runUnder (fun _ => .flat []) [.putOne, .putOne, .setN 1] =
        { ((rationed.withBudget none).runUnder (fun _ => .flat []) [.putOne, .putOne]).withBudget
            (some 3) with result := .error (.stepLimitExceeded 3) }) ∧
      (rationed.runUnder (fun _ => .flat []) [.putOne, .newHash 4, .nop] =
        ((rationed.withBudget none).runUnder (fun _ => .flat []) [.putOne, .newHash 4]).withBudget
          (some 3)) ∧
      (rationed.runUnder (fun _ => .flat []) [.putOne, .newHash 4, .nop]).machine.steps = 3 := by
  have hlimit : rationed.options.maxSteps = some 3 := rfl
  refine ⟨hlimit, ?_, ?_, rfl⟩
  · exact (run_truncated hlimit (fun _ => .flat []) [.putOne, .putOne, .setN 1]).2.2.1 rfl
      (fun h => nomatch congrArg List.length h)
  · exact (run_truncated hlimit (fun _ => .flat []) [.putOne, .newHash 4, .nop]).1
      (.stackUnderflow 4 1) rfl

end Machine

end StackVm
