import StackVm.Proofs.RefusedRun
/-!
# What is said to be needed

An instruction that lacks values reports how many there are and how many it needs. Verification
takes the second number from the effect of the instruction; the machine takes it from whichever
check has failed. These numbers are the same (`Performs.reported`) but for one case. A copy reads
the top of the stack before it looks for the place to copy to, and on an empty stack it reports the
one value that it did not find there, however deep the place (`Instruction.Groundless`).
-/

namespace StackVm

namespace Instruction

variable {i : Instruction} {needed depth : Nat}

/-- A copy to below the top where there is no top. -/
def Groundless (i : Instruction) (depth : Nat) : Prop :=
  depth = 0 ∧ ∃ index, i = .setN index ∧ index ≠ 0

/-- It needs more than one value. -/
theorem Groundless.one_lt (h : i.Groundless depth) : 1 < i.effect.minDepth.toNat := by
  obtain ⟨-, index, rfl, hindex⟩ := h
  have hpos : index.toNat ≠ 0 := fun hzero => hindex (UInt64.toNat_inj.1 hzero)
  by_contra hnot
  have hsmall : (saturatingSucc index).toNat ≤ 1 := Nat.not_lt.1 hnot
  have hlt := (saturatingSucc_le_iff (by decide)).1 hsmall
  omega

/-- What an instruction is said to need where it lacks values. -/
inductive Reported (i : Instruction) (depth : Nat) : Nat → Prop
  /-- All that it needs. -/
  | whole (h : ¬i.Groundless depth) : Reported i depth i.effect.minDepth.toNat
  /-- Only a top. -/
  | top (h : i.Groundless depth) : Reported i depth 1

/-- The number is right unless the instruction is a groundless copy. -/
theorem Reported.eq_iff (h : i.Reported depth needed) :
    needed = i.effect.minDepth.toNat ↔ ¬i.Groundless depth := by
  cases h with
  | whole h => exact iff_of_true rfl h
  | top h => exact iff_of_false (Nat.ne_of_lt h.one_lt) (not_not_intro h)

/-- A groundless copy is said to need one value. -/
theorem Reported.eq_one (h : i.Reported depth needed) (hcopy : i.Groundless depth) :
    needed = 1 := by
  cases h with
  | whole hnot => exact absurd hcopy hnot
  | top => rfl

end Instruction

namespace Machine

open Verification

variable {m : Machine} {env : Environment} {envs : Nat → Environment} {i : Instruction}
variable {o : Outcome} {code : List Instruction} {needed depth position : Nat}
variable {required height : UInt64}

/-! ## One instruction -/

/-- **A report of missing values states the depth that there is**, and what the instruction needs,
as far as it was looked at. -/
theorem Performs.reported (h : m.Performs env i o)
    (hfault : o.result = .error (.stackUnderflow needed depth)) :
    depth = m.stack.depth ∧ i.Reported depth needed := by
  cases h with
  | push | found | hash | copied | nop | kept | notKept => cases hfault
  | pushFull | foundFull | hashFull | hashOdd => cases hfault
  | missing _ hlookup =>
    cases hfault
    rcases fault_of_lookup hlookup with ⟨_, hname⟩ | ⟨_, htext⟩
    · cases hname
    · cases htext
  | operandsMissing | hashShort =>
    cases hfault
    exact ⟨rfl, .whole fun ⟨_, _, hcopy, _⟩ => nomatch hcopy⟩
  | copyShort hpos =>
    cases hfault
    exact ⟨rfl, .whole fun ⟨hempty, _⟩ => Nat.ne_of_gt hpos hempty⟩
  | @copyEmpty index hempty =>
    cases hfault
    refine ⟨hempty.symm, ?_⟩
    by_cases hindex : index = 0
    · subst hindex
      refine .whole ?_
      rintro ⟨-, _, ⟨⟩, hne⟩
      exact hne rfl
    · exact .top ⟨rfl, index, rfl, hindex⟩

/-- The same for an instruction that pays its step. -/
theorem Executes.reported (h : m.Executes env i o)
    (hfault : o.result = .error (.stackUnderflow needed depth)) :
    depth = m.stack.depth ∧ i.Reported depth needed := by
  cases h with
  | granted _ hrun => exact hrun.reported hfault
  | refused => cases hfault

/-! ## Whole programs -/

/-- A program is refused for a lack of values at an instruction that needs as many as reported, at
the depth that was computed; all before it is accepted. -/
theorem refused_at (hcheck : check code = .error (.stackUnderflow position required height)) :
    ∃ before i after top, code = before ++ i :: after ∧ before.length = position ∧
      checkDepths 0 0 0 before = .ok top ∧ i.effect.minDepth = required ∧
      depthAfter 0 before = height := by
  rcases check_eq_error hcheck with hsizes | ⟨-, hdepths⟩
  · obtain ⟨_, _, _, _, _, herror⟩ := checkSizes_eq_error hsizes
    cases herror
  · obtain ⟨before, i, after, top, hcode, hbefore, hagainst⟩ := checkDepths_eq_error hdepths
    cases hagainst
    exact ⟨before, i, after, top, hcode, (Nat.zero_add _).symm, hbefore, rfl, rfl⟩

/-- **A run that stops where verification has refused its program reports the same depth**, and of
the same instruction. -/
theorem StopsAt.reported (hstops : m.StopsAt envs code position (.stackUnderflow needed depth))
    (hempty : m.stack.depth = 0)
    (hcheck : check code = .error (.stackUnderflow position required height)) :
    depth = height.toNat ∧
      ∃ i, code[position]? = some i ∧ i.effect.minDepth = required ∧ i.Reported depth needed := by
  obtain ⟨before, i, after, top, rfl, rfl, hbefore, hrequired, rfl⟩ := refused_at hcheck
  obtain ⟨before', i', after', hcode, hlength, hok, hfault⟩ := hstops
  obtain ⟨rfl, hrest⟩ := List.append_inj hcode hlength.symm
  cases hrest
  have hreached : (m.runUnder envs before).machine.stack.depth = (depthAfter 0 before).toNat :=
    @depth_run m envs before [] 0 0 0 top (by rwa [List.append_nil]) (by decide) hempty hok
  obtain ⟨hdepth, hreported⟩ := (executes_execute _ _ i).reported hfault
  exact ⟨hdepth.trans hreached, i, by simp, hrequired, hreported⟩

/-- **A lack of values is reported as the effect states it, but for groundless copies.** The depth
in a report is the one before the instruction, and what is said to be needed is what the effect of
the instruction asks for exactly if it is no copy from an empty stack to below its top; such a copy
is said to need one value. So where verification refuses a program and its run, from an empty
stack, stops for the same reason, the two reports have the same numbers, with the same exception. -/
theorem underflow_stated (m : Machine) :
    (∀ (env : Environment) (i : Instruction) (needed depth : Nat),
      (m.execute env i).result = .error (.stackUnderflow needed depth) →
        depth = m.stack.depth ∧ (needed = i.effect.minDepth.toNat ↔ ¬i.Groundless depth) ∧
          (i.Groundless depth → needed = 1)) ∧
    ∀ (envs : Nat → Environment) (code : List Instruction) (position needed depth : Nat)
      (required height : UInt64), m.stack.depth = 0 →
      check code = .error (.stackUnderflow position required height) →
      m.StopsAt envs code position (.stackUnderflow needed depth) →
        depth = height.toNat ∧
          (needed = required.toNat ↔ ∀ i, code[position]? = some i → ¬i.Groundless depth) := by
  refine ⟨?_, ?_⟩
  · intro env i needed depth hfault
    obtain ⟨hdepth, hreported⟩ := (executes_execute m env i).reported hfault
    exact ⟨hdepth, hreported.eq_iff, hreported.eq_one⟩
  · intro envs code position needed depth required height hempty hcheck hstops
    obtain ⟨hdepth, i, hi, rfl, hreported⟩ := hstops.reported hempty hcheck
    refine ⟨hdepth, hreported.eq_iff.trans ?_⟩
    simp only [hi, Option.some.injEq, forall_eq']

/-- A hash of four from one value needs four, for the machine as for verification. -/
theorem underflow_stated_hash :
    ((roomy.execute (.flat []) (.newHash 4)).result = .error (.stackUnderflow 4 0) ∧
      0 = roomy.stack.depth ∧
      (4 = (Instruction.newHash 4).effect.minDepth.toNat ↔
        ¬(Instruction.newHash 4).Groundless 0) ∧
      ((Instruction.newHash 4).Groundless 0 → 4 = 1)) ∧
    check [.putOne, .newHash 4] = .error (.stackUnderflow 1 4 1) ∧
      roomy.StopsAt (fun _ => .flat []) [.putOne, .newHash 4] 1 (.stackUnderflow 4 1) ∧
      (4 = (4 : UInt64).toNat ↔
        ∀ i, [Instruction.putOne, .newHash 4][1]? = some i → ¬i.Groundless 1) := by
  have hstops : roomy.StopsAt (fun _ => .flat []) [.putOne, .newHash 4] 1 (.stackUnderflow 4 1) :=
    ⟨[.putOne], .newHash 4, [], rfl, rfl, rfl, rfl⟩
  refine ⟨⟨rfl, ?_⟩, rfl, hstops, ?_⟩
  · exact (underflow_stated roomy).1 (.flat []) (.newHash 4) 4 0 rfl
  · exact ((underflow_stated roomy).2 _ _ 1 4 1 4 1 rfl rfl hstops).2

/-- A groundless copy. To copy the top to two below it takes three values, which is what
verification reports; the machine, whose stack is empty, reports one. -/
theorem underflow_misstated :
    (roomy.execute (.flat []) (.setN 2)).result = .error (.stackUnderflow 1 0) ∧
      (1 : Nat) ≠ (Instruction.setN 2).effect.minDepth.toNat ∧
      check [.setN 2] = .error (.stackUnderflow 0 3 0) ∧
      roomy.StopsAt (fun _ => .flat []) [.setN 2] 0 (.stackUnderflow 1 0) :=
  ⟨rfl, by decide, rfl, [], .setN 2, [], rfl, rfl, rfl, rfl⟩

end Machine

end StackVm
