import StackVm.Proofs.VerifiedRun
/-!
# The effect of an instruction is exact

The effect of an instruction tells how many values it needs, takes and puts. An instruction that
succeeds has found the values it needs, has changed the depth by those it takes and puts, and has
left alone whatever lies deeper than those it needs (`Performs.take_eq`). A copy takes and puts
nothing; it changes one value, the one at its depth (`Executes.copied`).
-/

namespace StackVm

/-- An array in memory has fewer than `2 ^ 63` values. -/
def Stack.InMemory (s : Stack) : Prop := s.depth < 0x8000000000000000

theorem Stack.InMemory.lt {s : Stack} (h : s.InMemory) : s.depth < UInt64.size - 1 :=
  Nat.lt_trans h (by decide)

/-- A stack whose top values are replaced by one keeps the others. -/
theorem Stack.take_drop_put (s : Stack) (count : Nat) (v : Value) :
    ((s.drop count).put v).toList.take (s.depth - count) = s.toList.take (s.depth - count) := by
  have hlength : (s.toList.take (s.depth - count)).length = s.depth - count := by
    rw [List.length_take, ← depth_eq_length]
    omega
  rw [toList_put, toList_drop, List.take_append_of_le_length (Nat.le_of_eq hlength.symm),
    List.take_take, Nat.min_self]

namespace Machine

variable {m : Machine} {env : Environment} {i : Instruction} {o : Outcome}

/-- **An instruction that succeeds has found the values it needs.** -/
theorem Executes.minDepth_le (h : m.Executes env i o) (hok : o.result = .ok ())
    (hsmall : m.stack.depth < UInt64.size - 1) : i.effect.minDepth.toNat ≤ m.stack.depth := by
  have heven : ∀ size, i = .newHash size → size % 2 = 0 := by
    rintro size rfl
    by_contra hodd
    obtain ⟨fault, hfault⟩ := h.error_of_odd hodd
    rw [hok] at hfault
    cases hfault
  cases h with
  | refused => cases hok
  | granted _ hrun =>
    by_contra hshort
    obtain ⟨needed, hfault⟩ := hrun.underflow hsmall (Nat.not_le.1 hshort) heven
    rw [hok] at hfault
    cases hfault

/-- The place of the value that a copy replaces lies above those that it leaves alone. -/
theorem lt_saturatingSucc {index : UInt64} {depth : Nat} (hindex : index.toNat < depth)
    (hsmall : depth < UInt64.size - 1) : index.toNat < (saturatingSucc index).toNat := by
  rw [toNat_saturatingSucc]
  omega

/-- **It leaves alone what lies deeper than those.** -/
theorem Performs.take_eq (h : m.Performs env i o) (hok : o.result = .ok ())
    (hsmall : m.stack.depth < UInt64.size - 1) :
    o.machine.stack.toList.take (m.stack.depth - i.effect.minDepth.toNat) =
      m.stack.toList.take (m.stack.depth - i.effect.minDepth.toNat) := by
  cases h with
  | push hi _ =>
    rw [Instruction.effect_of_literal hi]
    change (m.stack.put _).toList.take m.stack.depth = m.stack.toList.take m.stack.depth
    rw [Stack.toList_put, m.stack.depth_eq_length, List.take_append_of_le_length (Nat.le_refl _)]
  | found => exact m.stack.take_drop_put 2 _
  | hash => exact m.stack.take_drop_put _ _
  | copied _ hindex =>
    have habove := lt_saturatingSucc hindex hsmall
    rw [Stack.toList_replace]
    refine List.take_set_of_le ?_
    change m.stack.depth - (saturatingSucc _).toNat ≤ _
    omega
  | nop | kept | notKept => rfl
  | pushFull | foundFull | missing | operandsMissing | hashFull | hashShort | hashOdd | copyShort
  | copyEmpty => cases hok

/-- The same for an instruction that pays its step. -/
theorem Executes.take_eq (h : m.Executes env i o) (hok : o.result = .ok ())
    (hsmall : m.stack.depth < UInt64.size - 1) :
    o.machine.stack.toList.take (m.stack.depth - i.effect.minDepth.toNat) =
      m.stack.toList.take (m.stack.depth - i.effect.minDepth.toNat) := by
  cases h with
  | granted _ hrun => exact hrun.take_eq hok hsmall
  | refused => cases hok

/-- **A copy replaces one value by the top.** -/
theorem Executes.copied {index : UInt64} (h : m.Executes env (.setN index) o)
    (hok : o.result = .ok ()) :
    ∃ v, m.stack.toList.getLast? = some v ∧ index.toNat < m.stack.depth ∧
      o.machine.stack.toList = m.stack.toList.set (m.stack.depth - 1 - index.toNat) v := by
  cases h with
  | refused => cases hok
  | granted _ hrun =>
    cases hrun with
    | push hi _ | pushFull hi _ => cases hi
    | @copied _ v htop hindex => exact ⟨v, htop, hindex, Stack.toList_replace _ _ _⟩
    | copyShort | copyEmpty => cases hok

/-- So the other values stay, and so does the top, which is in that place as well now. -/
theorem Executes.copied_frame {index : UInt64} (h : m.Executes env (.setN index) o)
    (hok : o.result = .ok ()) :
    (∀ k < m.stack.depth, k ≠ index.toNat →
        o.machine.stack.toList[m.stack.depth - 1 - k]? = m.stack.toList[m.stack.depth - 1 - k]?) ∧
      o.machine.stack.toList[m.stack.depth - 1 - index.toNat]? = m.stack.toList.getLast? ∧
      o.machine.stack.toList.getLast? = m.stack.toList.getLast? := by
  obtain ⟨v, htop, hindex, hcopied⟩ := h.copied hok
  have hlength := m.stack.depth_eq_length
  have hother : ∀ k < m.stack.depth, k ≠ index.toNat →
      o.machine.stack.toList[m.stack.depth - 1 - k]? = m.stack.toList[m.stack.depth - 1 - k]? := by
    intro k hk hne
    rw [hcopied, List.getElem?_set_ne (by omega)]
  have hplace : o.machine.stack.toList[m.stack.depth - 1 - index.toNat]? =
      m.stack.toList.getLast? := by
    rw [hcopied, List.getElem?_set_self (by omega), htop]
  refine ⟨hother, hplace, ?_⟩
  rw [List.getLast?_eq_getElem?, hcopied, List.length_set, ← hcopied, ← hlength]
  by_cases hzero : index.toNat = 0
  · simpa [hzero] using hplace
  · have htop' := hother 0 (by omega) (Ne.symm hzero)
    rwa [Nat.sub_zero, hlength, ← List.getLast?_eq_getElem?, ← hlength] at htop'

/-- A stack is what the effect of an instruction makes of another. Values are counted from the top
of the stack before, and are found by their places from its bottom. -/
structure Applied (i : Instruction) (before after : Stack) : Prop where
  /-- The values it needs were there. -/
  enough : i.effect.minDepth.toNat ≤ before.depth
  /-- The depth has changed by those that it takes and those that it puts. -/
  depth : after.depth + i.effect.pops.toNat = before.depth + i.effect.pushes.toNat
  /-- Every value deeper than those it needs is in its place. -/
  frame : ∀ k, i.effect.minDepth.toNat ≤ k → k < before.depth →
    after.toList[before.depth - 1 - k]? = before.toList[before.depth - 1 - k]?
  /-- A copy leaves every value in its place but the one at its depth, -/
  others : ∀ index, i = .setN index → ∀ k < before.depth, k ≠ index.toNat →
    after.toList[before.depth - 1 - k]? = before.toList[before.depth - 1 - k]?
  /-- which is the old top now, -/
  copied : ∀ index, i = .setN index →
    after.toList[before.depth - 1 - index.toNat]? = before.toList.getLast?
  /-- and it leaves the top. -/
  top : ∀ index, i = .setN index → after.toList.getLast? = before.toList.getLast?

/-- **The effect of an instruction is exact.** On a stack in memory, an instruction that succeeds
leaves what its effect makes of the stack. -/
theorem effect_exact (hmemory : m.stack.InMemory) (hok : (m.execute env i).result = .ok ()) :
    Applied i m.stack (m.execute env i).machine.stack := by
  have hrule := executes_execute m env i
  have henough := hrule.minDepth_le hok hmemory.lt
  refine ⟨henough, ?_, ?_, ?_, ?_, ?_⟩
  · have hdepth := hrule.depth_eq hok
    have hpops := UInt64.le_iff_toNat_le.1 (Verification.pops_le_minDepth i)
    omega
  · intro k hdeep hk
    have hplace : m.stack.depth - 1 - k < m.stack.depth - i.effect.minDepth.toNat := by omega
    rw [← List.getElem?_take_of_lt hplace, hrule.take_eq hok hmemory.lt,
      List.getElem?_take_of_lt hplace]
  · rintro index rfl
    exact (hrule.copied_frame hok).1
  · rintro index rfl
    exact (hrule.copied_frame hok).2.1
  · rintro index rfl
    exact (hrule.copied_frame hok).2.2

/-- A machine with three values. -/
def threefold : Machine :=
  { create 0 {} with stack := ⟨#[.integer 1, .integer 2, .integer 3], 65536⟩ }

/-- Three values: a copy replaces the deepest by the top, and a hash takes the two above it. -/
theorem effect_exact_threefold :
    threefold.stack.InMemory ∧
      ((threefold.execute (.flat []) (.setN 2)).result = .ok () ∧
        Applied (.setN 2) threefold.stack (threefold.execute (.flat []) (.setN 2)).machine.stack) ∧
      (threefold.execute (.flat []) (.newHash 2)).result = .ok () ∧
        Applied (.newHash 2) threefold.stack
          (threefold.execute (.flat []) (.newHash 2)).machine.stack := by
  have hmemory : threefold.stack.InMemory := by
    change 3 < 0x8000000000000000
    decide
  exact ⟨hmemory, ⟨rfl, effect_exact hmemory rfl⟩, rfl, effect_exact hmemory rfl⟩

end Machine

end StackVm
