import StackVm.Proofs.VerifiedRun
/-!
# Runs of refused programs

Verification refuses nothing that the machine could run. A program that is refused for the depth of
the stack is accepted up to the instruction that is refused (`checkDepths_eq_error`). So its run
gets there, unless a look-up stops it before, and the stack has then the depth that was computed:
what verification found wanting the machine finds wanting too. The sizes of hashes are verified
before any depth. A run may therefore stop before the hash of odd size that was refused, but never
gets past it.
-/

namespace StackVm

namespace Verification

variable {i : Instruction} {code before : List Instruction} {position : Nat}
variable {depth greatest top : UInt64} {e : VerificationError}

/-! ## Where a program is refused -/

/-- The first pass refuses a hash of odd size. -/
theorem checkSizes_eq_error (h : checkSizes position code = .error e) :
    ∃ before size after, code = before ++ .newHash size :: after ∧ size % 2 ≠ 0 ∧
      e = .oddHashSize size (position + before.length) := by
  fun_induction checkSizes position code with
  | case1 => cases h
  | case2 position size rest _ ih =>
    obtain ⟨before, odd, after, rfl, hodd, he⟩ := ih h
    exact ⟨.newHash size :: before, odd, after, rfl, hodd,
      by rw [he, List.length_cons, Nat.add_right_comm, Nat.add_assoc]⟩
  | case3 position size rest hodd => exact ⟨[], size, rest, rfl, hodd, by simpa using h.symm⟩
  | case4 position first rest _ ih =>
    obtain ⟨before, odd, after, rfl, hodd, he⟩ := ih h
    exact ⟨first :: before, odd, after, rfl, hodd,
      by rw [he, List.length_cons, Nat.add_right_comm, Nat.add_assoc]⟩

/-- An instruction that has the values it asks for and stays within the bound is passed. -/
theorem checkDepths_cons_eq (hmin : i.effect.minDepth ≤ depth)
    (hnext : nextDepth depth i ≤ heightBound) :
    checkDepths position depth greatest (i :: code) =
      checkDepths (position + 1) (nextDepth depth i) (max greatest (nextDepth depth i)) code := by
  rw [checkDepths, if_neg (UInt64.not_lt.2 hmin)]
  exact if_neg (UInt64.not_lt.2 hnext)

/-- What the second pass has against an instruction at a position, from the depth before it. -/
inductive Objection (position : Nat) (depth : UInt64) (i : Instruction) : VerificationError → Prop
  /-- It asks for more values than there are. -/
  | short (hshort : depth < i.effect.minDepth) :
      Objection position depth i (.stackUnderflow position i.effect.minDepth depth)
  /-- It has the values that it asks for, and goes past the bound. -/
  | full (hmin : i.effect.minDepth ≤ depth) (hover : heightBound < nextDepth depth i) :
      Objection position depth i (.stackOverflow position (nextDepth depth i))

/-- **The second pass refuses the first instruction that it has something against**: all before it
is accepted. -/
theorem checkDepths_eq_error (h : checkDepths position depth greatest code = .error e) :
    ∃ before i after top, code = before ++ i :: after ∧
      checkDepths position depth greatest before = .ok top ∧
      Objection (position + before.length) (depthAfter depth before) i e := by
  induction code generalizing position depth greatest with
  | nil => cases h
  | cons i code ih =>
    by_cases hmin : depth < i.effect.minDepth
    · rw [checkDepths, if_pos hmin] at h
      cases h
      exact ⟨[], i, code, greatest, rfl, rfl, .short hmin⟩
    · by_cases hnext : heightBound < nextDepth depth i
      · rw [checkDepths, if_neg hmin] at h
        simp only [hnext, ↓reduceIte] at h
        cases h
        exact ⟨[], i, code, greatest, rfl, rfl, .full (UInt64.not_lt.1 hmin) hnext⟩
      · rw [UInt64.not_lt] at hmin hnext
        rw [checkDepths_cons_eq hmin hnext] at h
        obtain ⟨before, j, after, top, rfl, hbefore, hagainst⟩ := ih h
        refine ⟨i :: before, j, after, top, rfl, ?_, ?_⟩
        · rw [checkDepths_cons_eq hmin hnext, hbefore]
        · rw [List.length_cons, Nat.add_comm before.length, ← Nat.add_assoc]
          exact hagainst

/-- What is accepted stays within the bound, and so does its greatest depth. -/
theorem le_heightBound_of_checkDepths (h : checkDepths position depth greatest code = .ok top)
    (hdepth : depth ≤ heightBound) (hgreatest : greatest ≤ heightBound) :
    depthAfter depth code ≤ heightBound ∧ top ≤ heightBound := by
  induction code generalizing position depth greatest with
  | nil =>
    obtain rfl : greatest = top := by simpa [checkDepths] using h
    exact ⟨hdepth, hgreatest⟩
  | cons i code ih =>
    obtain ⟨-, hnext, hrest⟩ := checkDepths_cons h
    refine ih hrest hnext ?_
    rw [UInt64.max_def]
    split <;> assumption

/-- A refusal is that of the first pass, or that of the second where the first found nothing. -/
theorem check_eq_error (h : check code = .error e) :
    checkSizes 0 code = .error e ∨
      checkSizes 0 code = .ok () ∧ checkDepths 0 0 0 code = .error e := by
  unfold check at h
  cases hsizes : checkSizes 0 code with
  | error e' =>
    rw [hsizes] at h
    cases h
    exact .inl rfl
  | ok u =>
    rw [hsizes] at h
    exact .inr ⟨rfl, h⟩

end Verification

namespace Machine

open Verification

variable {m : Machine} {envs : Nat → Environment} {i : Instruction}
variable {code before after : List Instruction} {position : Nat} {fault : Fault}

/-! ## Where a run stops -/

/-- A run stops at a position with a fault: the instructions before it succeed, and the one there
fails. -/
def StopsAt (m : Machine) (envs : Nat → Environment) (code : List Instruction) (position : Nat)
    (fault : Fault) : Prop :=
  ∃ before i after, code = before ++ i :: after ∧ before.length = position ∧
    (m.runUnder envs before).result = .ok () ∧
    ((m.runUnder envs before).machine.execute (envs position) i).result = .error fault

/-- A run that stops somewhere fails. -/
theorem StopsAt.result (h : m.StopsAt envs code position fault) :
    (m.runUnder envs code).result = .error fault := by
  obtain ⟨before, i, after, rfl, rfl, hok, hfault⟩ := h
  have hfirst : ((m.runUnder envs before).machine.execute (later envs before.length 0) i).result =
      .error fault := by
    rw [later, Nat.zero_add]
    exact hfault
  rw [run_append hok, run_cons_of_error hfirst]
  exact hfirst

/-- Where the first part of a program stops, the program does. -/
theorem StopsAt.append (h : m.StopsAt envs before position fault) :
    m.StopsAt envs (before ++ after) position fault := by
  obtain ⟨first, i, rest, rfl, hrest⟩ := h
  exact ⟨first, i, rest ++ after, by simp, hrest⟩

/-- **A run that fails stops somewhere**, at one of its instructions. -/
theorem exists_stopsAt (h : (m.runUnder envs code).result = .error fault) :
    ∃ position < code.length, m.StopsAt envs code position fault := by
  induction code generalizing m envs with
  | nil => cases h
  | cons i code ih =>
    cases hresult : (m.execute (envs 0) i).result with
    | error fault' =>
      rw [run_cons_of_error hresult] at h
      exact ⟨0, Nat.succ_pos _, [], i, code, rfl, rfl, rfl, h⟩
    | ok =>
      rw [result_run_cons hresult] at h
      obtain ⟨position, hlt, before, j, after, rfl, rfl, hok, hfault⟩ := ih h
      refine ⟨before.length + 1, Nat.succ_lt_succ hlt, i :: before, j, after, rfl, rfl, ?_, ?_⟩
      · rw [result_run_cons hresult, hok]
      · rw [machine_run_cons hresult]
        exact hfault

/-! ## What the machine finds wanting

In this section a machine starts with an empty stack whose limit is the bound of verification, and
has the steps for a program. -/

variable {top : UInt64} {e : VerificationError}

/-- The machine that verification thinks of. -/
structure Suits (m : Machine) (code : List Instruction) : Prop where
  /-- Its stack is empty. -/
  empty : m.stack.depth = 0
  /-- Its stack may hold as many values as a verified program may push. -/
  limit : m.stack.limit = heightBound
  /-- It has the steps for the program. -/
  steps : m.HasSteps code.length

theorem Suits.fits (h : m.Suits code) : m.Fits := by
  unfold Fits
  rw [h.empty]
  exact Nat.zero_le _

/-- A part of the program that was accepted runs through or stops at a look-up. -/
theorem Suits.result_run (h : m.Suits (before ++ after))
    (hbefore : checkDepths 0 0 0 before = .ok top)
    (heven : ∀ j ∈ before ++ after, ∀ size, j = .newHash size → size % 2 = 0) :
    (m.runUnder envs before).result = .ok () ∨
      ∃ fault, m.StopsAtLookup envs before fault ∧
        (m.runUnder envs before).result = .error fault := by
  have hzero : (0 : UInt64) ≤ heightBound := by decide
  have hsteps : m.HasSteps before.length := h.steps.mono (by simp)
  have heven' : ∀ j ∈ before, ∀ size, j = .newHash size → size % 2 = 0 :=
    fun j hj => heven j (List.mem_append_left _ hj)
  rcases @Machine.result_run m envs before 0 0 0 top hbefore heven' hzero h.empty h.fits hsteps with
    hok | hstops | ⟨-, hover⟩
  · exact .inl hok
  · exact .inr hstops
  · -- What is accepted stays within the bound, which the limit is.
    rw [h.limit] at hover
    exact absurd (le_heightBound_of_checkDepths hbefore hzero hzero).2 (UInt64.not_le.2 hover)

/-- So it runs through if it does not stop at a look-up. -/
theorem Suits.gets_to (h : m.Suits (before ++ after)) (hbefore : checkDepths 0 0 0 before = .ok top)
    (heven : ∀ j ∈ before ++ after, ∀ size, j = .newHash size → size % 2 = 0)
    (hno : ∀ fault, ¬ m.StopsAtLookup envs before fault) :
    (m.runUnder envs before).result = .ok () := by
  rcases @Suits.result_run m envs before after top h hbefore heven with hok | ⟨fault, hlookup, -⟩
  · exact hok
  · exact absurd hlookup (hno fault)

/-- And the program fails if it fails where that part has run through. -/
theorem Suits.fails (h : m.Suits (before ++ after)) (hbefore : checkDepths 0 0 0 before = .ok top)
    (heven : ∀ j ∈ before ++ after, ∀ size, j = .newHash size → size % 2 = 0)
    (hstops : (m.runUnder envs before).result = .ok () →
      ∃ position fault, m.StopsAt envs (before ++ after) position fault) :
    ∃ fault, (m.runUnder envs (before ++ after)).result = .error fault := by
  rcases @Suits.result_run m envs before after top h hbefore heven with hok | ⟨fault, -, hfault⟩
  · obtain ⟨position, fault, hstops⟩ := hstops hok
    exact ⟨fault, hstops.result⟩
  · exact ⟨fault, by rw [run_append_of_error hfault, hfault]⟩

/-- Where it runs through, the next instruction finds the depth that was computed, and a step. -/
theorem Suits.reached (h : m.Suits (before ++ i :: after))
    (hbefore : checkDepths 0 0 0 before = .ok top)
    (hok : (m.runUnder envs before).result = .ok ()) :
    (m.runUnder envs before).machine.stack.depth = (depthAfter 0 before).toNat ∧
      depthAfter 0 before ≤ heightBound ∧ (m.runUnder envs before).machine.HasSteps 1 := by
  have hzero : (0 : UInt64) ≤ heightBound := by decide
  have hdepth : (m.runUnder envs before).machine.stack.depth = (depthAfter 0 before).toNat :=
    @depth_run m envs before [] 0 0 0 top (by rwa [List.append_nil]) hzero h.empty hok
  exact ⟨hdepth, (le_heightBound_of_checkDepths hbefore hzero hzero).1,
    hasSteps_run (h.steps.mono (by simp))⟩

/-- **What lacks values for verification lacks them for the machine.** -/
theorem Suits.underflow (h : m.Suits (before ++ i :: after))
    (hbefore : checkDepths 0 0 0 before = .ok top)
    (heven : ∀ size, i = .newHash size → size % 2 = 0)
    (hok : (m.runUnder envs before).result = .ok ())
    (hshort : depthAfter 0 before < i.effect.minDepth) :
    ∃ needed, m.StopsAt envs (before ++ i :: after) before.length
      (.stackUnderflow needed (depthAfter 0 before).toNat) := by
  obtain ⟨hdepth, hbound, hsteps⟩ := h.reached hbefore hok
  have hexec := executes_execute (m.runUnder envs before).machine (envs before.length) i
  have hsmall := toNat_lt_of_le_heightBound hbound
  have hlacks := UInt64.lt_iff_toNat_lt.1 hshort
  rw [← hdepth] at hsmall hlacks ⊢
  obtain ⟨needed, hfault⟩ := (hexec.performs hsteps).underflow hsmall hlacks heven
  exact ⟨needed, before, i, after, rfl, rfl, hok, hfault⟩

/-- **What goes past the bound of verification goes past the limit of the machine.** -/
theorem Suits.overflow (h : m.Suits (before ++ i :: after))
    (hbefore : checkDepths 0 0 0 before = .ok top)
    (heven : ∀ size, i = .newHash size → size % 2 = 0)
    (hok : (m.runUnder envs before).result = .ok ())
    (hmin : i.effect.minDepth ≤ depthAfter 0 before)
    (hover : heightBound < nextDepth (depthAfter 0 before) i) :
    m.StopsAt envs (before ++ i :: after) before.length (.stackOverflow m.stack.limit.toNat) := by
  obtain ⟨hdepth, hbound, hsteps⟩ := h.reached hbefore hok
  have hexec := executes_execute (m.runUnder envs before).machine (envs before.length) i
  have hsmall := toNat_lt_of_le_heightBound hbound
  have hhas := UInt64.le_iff_toNat_le.1 hmin
  have hpast := UInt64.lt_iff_toNat_lt.1 hover
  rw [toNat_nextDepth hmin hbound, ← h.limit, ← limit_run m envs before] at hpast
  rw [← hdepth] at hsmall hhas hpast
  have hfault := (hexec.performs hsteps).overflow (fits_run h.fits) hsmall hhas heven hpast
  exact ⟨before, i, after, rfl, rfl, hok, limit_run m envs before ▸ hfault⟩

/-- No run gets past a hash of odd size. -/
theorem stopsAt_of_odd {size : UInt64} (hodd : size % 2 ≠ 0) :
    ∃ stop ≤ before.length, ∃ fault,
      m.StopsAt envs (before ++ .newHash size :: after) stop fault := by
  cases hresult : (m.runUnder envs before).result with
  | error fault =>
    obtain ⟨stop, hlt, hstops⟩ := exists_stopsAt hresult
    exact ⟨stop, Nat.le_of_lt hlt, fault, hstops.append⟩
  | ok =>
    have hexec := executes_execute (m.runUnder envs before).machine (envs before.length)
      (.newHash size)
    obtain ⟨fault, hfault⟩ := hexec.error_of_odd hodd
    exact ⟨before.length, Nat.le_refl _, fault, before, _, after, rfl, rfl, hresult, hfault⟩

/-- **Verification is complete.** Let a program be refused, and let a machine have an empty stack
that may hold as many values as verification allows, and the steps for the program. Then its run
fails. If the program was refused for a lack of values, or for going past the bound, the run stops
just where it was refused, with a fault that says the same, unless a look-up stops it before. If it
was refused for a hash of odd size, the run stops there or before. -/
theorem run_of_refused (envs : Nat → Environment) (hcheck : check code = .error e)
    (hempty : m.stack.depth = 0) (hlimit : m.stack.limit = heightBound)
    (hsteps : m.HasSteps code.length) :
    (∃ fault, (m.runUnder envs code).result = .error fault) ∧
    (∀ position needed depth, e = .stackUnderflow position needed depth →
      (∀ fault, ¬ m.StopsAtLookup envs (code.take position) fault) →
      ∃ needed', m.StopsAt envs code position (.stackUnderflow needed' depth.toNat)) ∧
    (∀ position depth, e = .stackOverflow position depth →
      (∀ fault, ¬ m.StopsAtLookup envs (code.take position) fault) →
      m.StopsAt envs code position (.stackOverflow m.stack.limit.toNat)) ∧
    (∀ size position, e = .oddHashSize size position →
      ∃ stop ≤ position, ∃ fault, m.StopsAt envs code stop fault) := by
  have hsuits : m.Suits code := ⟨hempty, hlimit, hsteps⟩
  rcases check_eq_error hcheck with hsizes | ⟨hsizes, hdepths⟩
  · obtain ⟨before, size, after, rfl, hodd, rfl⟩ := checkSizes_eq_error hsizes
    rw [Nat.zero_add]
    obtain ⟨stop, hle, fault, hstops⟩ := @stopsAt_of_odd m envs before after size hodd
    refine ⟨⟨fault, hstops.result⟩, by rintro _ _ _ ⟨⟩, by rintro _ _ ⟨⟩, ?_⟩
    rintro _ _ ⟨⟩
    exact ⟨stop, hle, fault, hstops⟩
  · obtain ⟨before, i, after, top, rfl, hbefore, hagainst⟩ := checkDepths_eq_error hdepths
    rw [Nat.zero_add] at hagainst
    have heven := even_of_checkSizes hsizes
    have heven' := heven i (by simp)
    cases hagainst with
    | short hshort =>
      refine ⟨hsuits.fails hbefore heven fun hok => ?_, ?_, by rintro _ _ ⟨⟩, by rintro _ _ ⟨⟩⟩
      · obtain ⟨needed, hstops⟩ := hsuits.underflow hbefore heven' hok hshort
        exact ⟨_, _, hstops⟩
      · rintro _ _ _ ⟨⟩ hno
        rw [List.take_left] at hno
        exact hsuits.underflow hbefore heven' (hsuits.gets_to hbefore heven hno) hshort
    | full hmin hover =>
      refine ⟨hsuits.fails hbefore heven fun hok => ?_, by rintro _ _ _ ⟨⟩, ?_, by rintro _ _ ⟨⟩⟩
      · exact ⟨_, _, hsuits.overflow hbefore heven' hok hmin hover⟩
      · rintro _ _ ⟨⟩ hno
        rw [List.take_left] at hno
        exact hsuits.overflow hbefore heven' (hsuits.gets_to hbefore heven hno) hmin hover

/-! ## Three refusals -/

/-- A program without look-ups does not stop at one. -/
theorem not_stopsAtLookup (h : ∀ name, Instruction.getConstant name ∉ code) :
    ¬ m.StopsAtLookup envs code fault := by
  rintro ⟨before, _, after, rfl, -, name, _, _, _, rfl, -⟩
  exact h name (by simp)

/-- A machine that a verified program may use to the full. -/
def roomy : Machine := create 0 { maxStackSize := heightBound }

theorem hasSteps_roomy (count : Nat) : roomy.HasSteps count := by
  rintro limit ⟨⟩

/-- A copy to where there is no value, one value too many, and a hash of odd size that the run does
not get to. -/
theorem run_of_refused_thrice :
    (check [.putOne, .nop, .setN 3] = .error (.stackUnderflow 2 4 1) ∧
      ∃ needed, roomy.StopsAt (fun _ => .flat []) [.putOne, .nop, .setN 3] 2
        (.stackUnderflow needed 1)) ∧
    (check (List.replicate 1025 .putOne) = .error (.stackOverflow 1024 1025) ∧
      roomy.StopsAt (fun _ => .flat []) (List.replicate 1025 .putOne) 1024
        (.stackOverflow 1024)) ∧
    (check [.putOne, .newHash 2, .newHash 3] = .error (.oddHashSize 3 2) ∧
      ∃ stop ≤ 2, ∃ fault, roomy.StopsAt (fun _ => .flat []) [.putOne, .newHash 2, .newHash 3] stop
        fault) := by
  have hshort : check [.putOne, .nop, .setN 3] = .error (.stackUnderflow 2 4 1) := rfl
  have hfull : check (List.replicate 1025 .putOne) = .error (.stackOverflow 1024 1025) := by
    decide +kernel
  have hodd : check [.putOne, .newHash 2, .newHash 3] = .error (.oddHashSize 3 2) := rfl
  refine ⟨⟨hshort, ?_⟩, ⟨hfull, ?_⟩, hodd, ?_⟩
  · refine (run_of_refused (fun _ => .flat []) hshort rfl rfl (hasSteps_roomy _)).2.1 2 4 1 rfl
      fun fault => not_stopsAtLookup ?_
    simp
  · refine (run_of_refused (fun _ => .flat []) hfull rfl rfl (hasSteps_roomy _)).2.2.1 1024 1025 rfl
      fun fault => not_stopsAtLookup fun name hmem => ?_
    cases List.eq_of_mem_replicate (List.mem_of_mem_take hmem)
  · exact (run_of_refused (fun _ => .flat []) hodd rfl rfl (hasSteps_roomy _)).2.2.2 3 2 rfl

end Machine

end StackVm
