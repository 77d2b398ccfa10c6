import StackVm.Instruction.Verification
import StackVm.Proofs.Depth
/-!
# Runs of verified programs

Verification follows the depth of the stack without running anything. On a machine that starts with
an empty stack and has the steps, the run of an accepted program has at each instruction exactly the
depth that verification computed (`depth_run`), so nothing can stop it but a look-up that fails or a
stack smaller than the greatest depth (`result_run`). That depth is reached by every run that
succeeds, and so a smaller stack does stop it.
-/

namespace StackVm

namespace Verification

/-! ## What is computed -/

/-- The depth that verification has computed after a program, from the depth before it. -/
def depthAfter (depth : UInt64) (code : List Instruction) : UInt64 := code.foldl nextDepth depth

variable {i : Instruction} {code : List Instruction} {position : Nat}
variable {depth greatest top : UInt64}

/-- An instruction takes no more values than it asks for. -/
theorem pops_le_minDepth (i : Instruction) : i.effect.pops ≤ i.effect.minDepth := by
  cases i <;> simp [Instruction.effect, Effect.taking]

/-- An instruction puts one value at most. -/
theorem pushes_le_one (i : Instruction) : i.effect.pushes.toNat ≤ 1 := by
  cases i <;> simp [Instruction.effect, Effect.taking]

/-- Within the bound, the next depth is computed without wrapping. -/
theorem toNat_nextDepth (hdepth : i.effect.minDepth ≤ depth) (hbound : depth ≤ heightBound) :
    (nextDepth depth i).toNat =
      depth.toNat - i.effect.pops.toNat + i.effect.pushes.toNat := by
  have hpops : i.effect.pops ≤ depth := UInt64.le_trans (pops_le_minDepth i) hdepth
  have hpushes := pushes_le_one i
  have hsmall : depth.toNat ≤ 1024 := UInt64.le_iff_toNat_le.1 hbound
  rw [nextDepth, UInt64.toNat_add, UInt64.toNat_sub_of_le _ _ hpops]
  omega

/-- The bound is far below the greatest words. -/
theorem toNat_lt_of_le_heightBound (hbound : depth ≤ heightBound) :
    depth.toNat < UInt64.size - 1 := by
  have hle : depth.toNat ≤ 1024 := UInt64.le_iff_toNat_le.1 hbound
  simp only [UInt64.size]
  omega

/-- What acceptance says of the first instruction, and of the rest. -/
theorem checkDepths_cons (h : checkDepths position depth greatest (i :: code) = .ok top) :
    i.effect.minDepth ≤ depth ∧ nextDepth depth i ≤ heightBound ∧
      checkDepths (position + 1) (nextDepth depth i) (max greatest (nextDepth depth i)) code
        = .ok top := by
  rw [checkDepths] at h
  split at h
  · cases h
  · rename_i hmin
    simp only at h
    split at h
    · cases h
    · rename_i hbound
      exact ⟨UInt64.not_lt.1 hmin, UInt64.not_lt.1 hbound, h⟩

/-- A word is at most its maximum with another, on either side. -/
theorem le_max (a b : UInt64) : a ≤ max a b ∧ b ≤ max a b := by
  rw [UInt64.max_def]
  split
  · rename_i hle
    exact ⟨hle, UInt64.le_refl b⟩
  · rename_i hle
    exact ⟨UInt64.le_refl a, UInt64.le_of_lt (UInt64.not_le.1 hle)⟩

/-- The greatest depth only grows. -/
theorem greatest_le (h : checkDepths position depth greatest code = .ok top) : greatest ≤ top := by
  induction code generalizing position depth greatest with
  | nil =>
    obtain rfl : greatest = top := by simpa [checkDepths] using h
    exact UInt64.le_refl greatest
  | cons i code ih =>
    obtain ⟨-, -, hrest⟩ := checkDepths_cons h
    exact UInt64.le_trans (le_max _ _).1 (ih hrest)

/-- **The greatest depth is one of those computed**, or the one known before. -/
theorem greatest_or_reached (h : checkDepths position depth greatest code = .ok top) :
    top = greatest ∨ ∃ before after, before ++ after = code ∧ depthAfter depth before = top := by
  induction code generalizing position depth greatest with
  | nil => exact .inl (by simpa [checkDepths] using h.symm)
  | cons i code ih =>
    obtain ⟨-, -, hrest⟩ := checkDepths_cons h
    rcases ih hrest with htop | ⟨before, after, rfl, hreached⟩
    · rw [UInt64.max_def] at htop
      split at htop
      · exact .inr ⟨[i], code, rfl, htop.symm⟩
      · exact .inl htop
    · exact .inr ⟨i :: before, after, rfl, hreached⟩

/-- An accepted program builds hashes of even size only. -/
theorem even_of_checkSizes (h : checkSizes position code = .ok ()) :
    ∀ i ∈ code, ∀ size, i = .newHash size → size % 2 = 0 := by
  induction code generalizing position with
  | nil => simp
  | cons first code ih =>
    intro i hi size hsize
    subst hsize
    cases first with
    | newHash other =>
      rw [checkSizes] at h
      split at h
      · rename_i heven
        rcases List.mem_cons.1 hi with hfirst | hrest
        · obtain rfl : size = other := by simpa using hfirst
          exact heven
        · exact ih h _ hrest size rfl
      · cases h
    | getConstant | nop | setInlineCache | putObject | putOne | setN =>
      rw [checkSizes] at h
      · exact ih h _ (by simpa using hi) size rfl
      · simp

/-- Acceptance is that of the two passes. -/
theorem check_eq_ok (h : check code = .ok top) :
    checkSizes 0 code = .ok () ∧ checkDepths 0 0 0 code = .ok top := by
  unfold check at h
  cases hsizes : checkSizes 0 code with
  | error e => rw [hsizes] at h; cases h
  | ok u => rw [hsizes] at h; exact ⟨rfl, h⟩

end Verification

namespace Machine

open Verification

variable {m : Machine} {envs : Nat → Environment} {code before after : List Instruction}
variable {position : Nat} {depth greatest top : UInt64}

/-! ## What happens -/

/-- A run stops at a look-up: all before it succeeds, and there it fails with a fault. -/
def StopsAtLookup (m : Machine) (envs : Nat → Environment) (code : List Instruction)
    (fault : Fault) : Prop :=
  ∃ before i after, code = before ++ i :: after ∧ (m.runUnder envs before).result = .ok () ∧
    (m.runUnder envs before).machine.FailsLookup (envs before.length) i fault

/-- A look-up that stops the rest of a program stops the program. -/
theorem StopsAtLookup.cons {i : Instruction} {fault : Fault}
    (hok : (m.execute (envs 0) i).result = .ok ())
    (h : (m.execute (envs 0) i).machine.StopsAtLookup (later envs 1) code fault) :
    m.StopsAtLookup envs (i :: code) fault := by
  obtain ⟨before, j, after, rfl, hbefore, hfails⟩ := h
  refine ⟨i :: before, j, after, rfl, ?_, ?_⟩
  · rw [result_run_cons hok, hbefore]
  · rw [machine_run_cons hok]
    exact hfails

/-- **The stack has the depth that was computed**, after each part of an accepted program that runs
through. -/
theorem depth_run (hcheck : checkDepths position depth greatest (before ++ after) = .ok top)
    (hbound : depth ≤ heightBound) (hdepth : m.stack.depth = depth.toNat)
    (hok : (m.runUnder envs before).result = .ok ()) :
    (m.runUnder envs before).machine.stack.depth = (depthAfter depth before).toNat := by
  induction before generalizing m envs position depth greatest with
  | nil => exact hdepth
  | cons i before ih =>
    obtain ⟨hmin, hnext, hrest⟩ := checkDepths_cons hcheck
    have hfirst := execute_ok_of_run hok
    rw [result_run_cons hfirst] at hok
    rw [machine_run_cons hfirst]
    refine ih hrest hnext ?_ hok
    rw [(executes_execute m (envs 0) i).depth_eq hfirst, toNat_nextDepth hmin hbound, hdepth]

/-- **An accepted program runs through, stops at a look-up or meets the limit of the stack**, and
the limit only where its greatest depth lies above it. -/
theorem result_run (hcheck : checkDepths position depth greatest code = .ok top)
    (heven : ∀ i ∈ code, ∀ size, i = .newHash size → size % 2 = 0)
    (hbound : depth ≤ heightBound) (hdepth : m.stack.depth = depth.toNat) (hfits : m.Fits)
    (hsteps : m.HasSteps code.length) :
    (m.runUnder envs code).result = .ok () ∨
      (∃ fault, m.StopsAtLookup envs code fault ∧ (m.runUnder envs code).result = .error fault) ∨
      (m.runUnder envs code).result = .error (.stackOverflow m.stack.limit.toNat) ∧
        m.stack.limit < top := by
  -- On the program: each instruction hands on the depth that was computed, the limit and the steps.
  induction code generalizing m envs position depth greatest with
  | nil => exact .inl rfl
  | cons i code ih =>
    obtain ⟨hmin, hnext, hrest⟩ := checkDepths_cons hcheck
    have hexec := executes_execute m (envs 0) i
    have hpaid : m.paid.stack = m.stack := rfl
    have hsmall : m.stack.depth < UInt64.size - 1 := hdepth ▸ toNat_lt_of_le_heightBound hbound
    have hmin' : i.effect.minDepth.toNat ≤ m.stack.depth :=
      hdepth ▸ UInt64.le_iff_toNat_le.1 hmin
    rcases (hexec.performs hsteps).result_of_minDepth hfits hsmall hmin' (heven i (by simp)) with
      hok | ⟨fault, hfails, hfault⟩ | ⟨hfull, hover⟩
    · -- The machine it leaves is again one that the rest was accepted for.
      have hdepth' : (m.execute (envs 0) i).machine.stack.depth = (nextDepth depth i).toNat := by
        rw [hexec.depth_eq hok, toNat_nextDepth hmin hbound, hdepth]
      have hlimit : (m.execute (envs 0) i).machine.stack.limit = m.stack.limit := hexec.frame.2.2
      rw [result_run_cons hok]
      rcases ih hrest (fun j hj => heven j (by simp [hj])) hnext hdepth' (hexec.fits hfits)
          (hexec.hasSteps hsteps) with hrun | ⟨fault, hstops, hfault⟩ | ⟨hfull, hover⟩
      · exact .inl hrun
      · exact .inr (.inl ⟨fault, hstops.cons hok, hfault⟩)
      · rw [hlimit] at hfull hover
        exact .inr (.inr ⟨hfull, hover⟩)
    · refine .inr (.inl ⟨fault, ⟨[], i, code, rfl, rfl, hfails⟩, ?_⟩)
      rw [run_cons_of_error hfault, hfault]
    · -- The depth that is refused was computed too, so the greatest is no less.
      refine .inr (.inr ⟨by rw [run_cons_of_error hfull, hfull, hpaid], ?_⟩)
      have htop : nextDepth depth i ≤ top := UInt64.le_trans (le_max _ _).2 (greatest_le hrest)
      rw [hpaid, hdepth, ← toNat_nextDepth hmin hbound] at hover
      exact UInt64.lt_iff_toNat_lt.2 (Nat.lt_of_lt_of_le hover (UInt64.le_iff_toNat_le.1 htop))

/-- **Verification is sound and its depth is tight.** Let a program be accepted with a greatest
depth, and let a machine with an empty stack have the steps for it. On a stack of at least that
limit the program runs through or stops at a look-up; after each part that runs through, the stack
has the depth that was computed; a run that succeeds reaches the greatest depth; and a smaller stack
overflows, unless a look-up stops the run before. -/
theorem run_of_accepted (envs : Nat → Environment) (hcheck : check code = .ok top)
    (hempty : m.stack.depth = 0) (hsteps : m.HasSteps code.length) :
    (top ≤ m.stack.limit →
      (m.runUnder envs code).result = .ok () ∨
        ∃ fault, (m.runUnder envs code).result = .error fault ∧ m.StopsAtLookup envs code fault ∧
          ((∃ name, fault = .uninitializedConstant name) ∨ ∃ text, fault = .notAClass text)) ∧
    (∀ before after, before ++ after = code → (m.runUnder envs before).result = .ok () →
      (m.runUnder envs before).machine.stack.depth = (depthAfter 0 before).toNat) ∧
    ((m.runUnder envs code).result = .ok () →
      ∃ before after, before ++ after = code ∧ (m.runUnder envs before).result = .ok () ∧
        (m.runUnder envs before).machine.stack.depth = top.toNat) ∧
    (m.stack.limit < top → (∀ fault, ¬ m.StopsAtLookup envs code fault) →
      (m.runUnder envs code).result = .error (.stackOverflow m.stack.limit.toNat)) := by
  obtain ⟨hsizes, hdepths⟩ := check_eq_ok hcheck
  have hzero : (0 : UInt64) ≤ heightBound := by decide
  have hfits : m.Fits := by unfold Fits; omega
  have hresult := @result_run m envs code _ _ _ _ hdepths (even_of_checkSizes hsizes) hzero hempty
    hfits hsteps
  have hdepth : ∀ before after, before ++ after = code → (m.runUnder envs before).result = .ok () →
      (m.runUnder envs before).machine.stack.depth = (depthAfter 0 before).toNat := by
    rintro before after rfl hok
    exact depth_run hdepths hzero hempty hok
  have hreached : (m.runUnder envs code).result = .ok () →
      ∃ before after, before ++ after = code ∧ (m.runUnder envs before).result = .ok () ∧
        (m.runUnder envs before).machine.stack.depth = top.toNat := by
    intro hok
    rcases greatest_or_reached hdepths with rfl | ⟨before, after, rfl, rfl⟩
    · exact ⟨[], code, rfl, rfl, hempty⟩
    · have hbefore := run_ok_of_append hok
      exact ⟨before, after, rfl, hbefore, hdepth before after rfl hbefore⟩
  refine ⟨fun htop => ?_, hdepth, hreached, fun hsmall hno => ?_⟩
  · rcases hresult with hok | ⟨fault, hstops, hfault⟩ | ⟨-, hover⟩
    · exact .inl hok
    · refine .inr ⟨fault, hfault, hstops, ?_⟩
      obtain ⟨_, _, _, _, _, _, _, _, _, _, _, hlookup⟩ := hstops
      exact fault_of_lookup hlookup
    · exact absurd htop (UInt64.not_le.2 hover)
  · rcases hresult with hok | ⟨fault, hstops, -⟩ | ⟨hfull, -⟩
    · -- A run that succeeds would hold more values than the limit allows.
      obtain ⟨before, after, rfl, -, hdepth⟩ := hreached hok
      have hle : (m.runUnder envs before).machine.Fits := fits_run hfits
      unfold Fits at hle
      rw [limit_run, hdepth] at hle
      exact absurd (UInt64.le_iff_toNat_le.2 hle) (UInt64.not_le.2 hsmall)
    · exact absurd hstops (hno fault)
    · exact hfull

/-- Two values and a look-up: a stack for two suffices, and with the constant at hand is used to its
limit; a stack for one overflows. -/
theorem run_of_accepted_pair :
    check [.putObject .nil, .putOne, .getConstant "A"] = .ok 2 ∧
    ((create 0 { maxStackSize := 2, maxSteps := some 3 }).runUnder (fun _ => .flat [("A", .nil)])
        [.putObject .nil, .putOne]).machine.stack.depth = 2 ∧
    (∃ before after, before ++ after = [.putObject .nil, .putOne, .getConstant "A"] ∧
      ((create 0 { maxStackSize := 2, maxSteps := some 3 }).runUnder
        (fun _ => .flat [("A", .nil)]) before).result = .ok () ∧
      ((create 0 { maxStackSize := 2, maxSteps := some 3 }).runUnder
        (fun _ => .flat [("A", .nil)]) before).machine.stack.depth = 2) ∧
    ((create 0 { maxStackSize := 1 }).runUnder (fun _ => .flat [("A", .nil)])
        [.putOne, .putOne]).result = .error (.stackOverflow 1) := by
  have hsteps : (create 0 { maxStackSize := 2, maxSteps := some 3 }).HasSteps 3 := by
    rintro limit ⟨⟩
    decide
  have hpair := @run_of_accepted (create 0 { maxStackSize := 2, maxSteps := some 3 })
    [.putObject .nil, .putOne, .getConstant "A"] 2 (fun _ => .flat [("A", .nil)]) rfl rfl hsteps
  have hone := @run_of_accepted (create 0 { maxStackSize := 1 }) [.putOne, .putOne] 2
    (fun _ => .flat [("A", .nil)]) rfl rfl (by rintro limit ⟨⟩)
  refine ⟨rfl, hpair.2.1 _ [.getConstant "A"] rfl rfl, hpair.2.2.1 rfl, hone.2.2.2 (by decide) ?_⟩
  rintro fault ⟨before, _, after, hcode, -, name, _, _, _, rfl, -⟩
  have hmem : Instruction.getConstant name ∈ [Instruction.putOne, .putOne] := by simp [hcode]
  simp at hmem

end Machine

end StackVm
