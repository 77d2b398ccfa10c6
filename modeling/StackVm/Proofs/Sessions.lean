import StackVm.Proofs.Depth
/-!
# Sessions

A machine is not only run. Between runs single instructions are executed, its operand stack is
operated on directly, its cache is written to and its observer changes. A session is any sequence of
these, each of which may fail and leave things as they are. What each of them keeps a session keeps
(`session_keeps`): the options, the limit of the stack, and that the stack stays within it.
-/

namespace StackVm

namespace Stack

/-- An operation on a stack. Some only read it. -/
inductive Operation where
  /-- Puts a value on top. -/
  | push (v : Value)
  /-- Takes the top value. -/
  | pop
  /-- Takes a number of values. -/
  | popMany (count : UInt64)
  /-- Reads the value at a depth. -/
  | get (depth : UInt64)
  /-- Replaces the value at a depth. -/
  | set (depth : UInt64) (v : Value)
  /-- Checks that one more value fits. -/
  | checkRoom
  /-- Takes all values. -/
  | clear

/-- The stack after an operation: one that fails changes nothing. -/
def apply (s : Stack) : Operation → Stack
  | .push v => (s.push v).toOption.getD s
  | .pop => (s.pop.toOption.map Prod.snd).getD s
  | .popMany count => ((s.popMany count).toOption.map Prod.snd).getD s
  | .get _ | .checkRoom => s
  | .set depth v => (s.set depth v).toOption.getD s
  | .clear => s.clear

/-- A push either fits or meets the limit. -/
theorem push_eq (s : Stack) (v : Value) :
    s.push v =
      if s.depth < s.limit.toNat then .ok (s.put v)
      else .error (.stackOverflow s.limit.toNat) := by
  rw [push, checkRoom_eq]
  split <;> rfl

/-- A number of values is either there or missing. -/
theorem popMany_eq (s : Stack) (count : UInt64) :
    s.popMany count =
      if s.depth < count.toNat then .error (.stackUnderflow count.toNat s.depth)
      else .ok (s.top count.toNat, s.drop count.toNat) := by
  rw [popMany, checkDepth]
  split <;> rfl

/-- Taking no values leaves a stack as it is. -/
theorem drop_zero (s : Stack) : s.drop 0 = s :=
  ext_toList (by simp [depth_eq_length]) rfl

/-- So does taking values where there are none. -/
theorem drop_of_back?_eq_none {s : Stack} {count : Nat} (h : s.slots.back? = none) :
    s.drop count = s := by
  have hempty : s.slots = #[] := by simpa using h
  exact ext_toList (by simp [toList, drop, hempty]) rfl

theorem apply_push (s : Stack) (v : Value) :
    s.apply (.push v) = if s.depth < s.limit.toNat then s.put v else s := by
  rw [apply, push_eq]
  split <;> rfl

/-- Without a top value there is none to take. -/
theorem apply_pop (s : Stack) : s.apply .pop = s.drop 1 := by
  rw [apply, pop]
  split
  · rfl
  · rename_i hnone
    exact (drop_of_back?_eq_none hnone).symm

theorem apply_popMany (s : Stack) (count : UInt64) :
    s.apply (.popMany count) = if s.depth < count.toNat then s else s.drop count.toNat := by
  rw [apply, popMany_eq]
  split <;> rfl

theorem apply_set (s : Stack) (depth : UInt64) (v : Value) :
    s.apply (.set depth v) = if depth.toNat < s.depth then s.replace depth.toNat v else s := by
  by_cases hinside : depth.toNat < s.depth
  · rw [if_pos hinside, apply, set, if_pos hinside]
    rfl
  · rw [if_neg hinside, apply, set, if_neg hinside]
    rfl

/-- **An operation keeps the limit of a stack**, and goes deeper only up to it. -/
theorem apply_bounds (s : Stack) (op : Operation) :
    (s.apply op).limit = s.limit ∧ (s.apply op).depth ≤ max s.depth s.limit.toNat := by
  cases op with
  | push v =>
    rw [apply_push]
    split
    · exact ⟨rfl, by rw [depth_put]; omega⟩
    · exact ⟨rfl, by omega⟩
  | pop => exact ⟨by rw [apply_pop]; rfl, by rw [apply_pop, depth_drop]; omega⟩
  | popMany count =>
    rw [apply_popMany]
    split
    · exact ⟨rfl, by omega⟩
    · exact ⟨rfl, by rw [depth_drop]; omega⟩
  | set depth v =>
    rw [apply_set]
    split
    · exact ⟨rfl, by rw [depth_replace]; omega⟩
    · exact ⟨rfl, by omega⟩
  | get | checkRoom => exact ⟨rfl, Nat.le_max_left _ _⟩
  | clear => exact ⟨rfl, Nat.zero_le _⟩

end Stack

namespace Machine

/-- One use of a machine. -/
inductive Use where
  /-- An instruction is executed in an environment. -/
  | execute (env : Environment) (i : Instruction)
  /-- A program is run, while the environment may change. -/
  | run (envs : Nat → Environment) (code : List Instruction)
  /-- Its stack is operated on. -/
  | operate (op : Stack.Operation)
  /-- Its cache is written to, or emptied. -/
  | recache (cache : ConstantCache)
  /-- It gets another observer, or none. -/
  | observe (observer : Option String)

variable {m : Machine} {uses : List Use}

/-- The machine after one use. -/
def use (m : Machine) : Use → Machine
  | .execute env i => (m.execute env i).machine
  | .run envs code => (m.runUnder envs code).machine
  | .operate op => { m with stack := m.stack.apply op }
  | .recache cache => { m with cache }
  | .observe observer => { m with observer }

/-- The machine after a session, the first use first. -/
def session (m : Machine) (uses : List Use) : Machine := uses.foldl use m

/-- **What instructions and operations on the stack keep, a session keeps**, if it is no matter of
the cache and the observer. -/
theorem session_keeps {P : Machine → Prop} (hexec : ∀ m env i, P m → P (m.execute env i).machine)
    (hstack : ∀ m op, P m → P { m with stack := m.stack.apply op })
    (hrest : ∀ m cache observer, P m → P { m with cache, observer }) (hstart : P m) :
    P (m.session uses) := by
  induction uses generalizing m with
  | nil => exact hstart
  | cons first uses ih =>
    refine ih (m := m.use first) ?_
    cases first with
    | execute env i => exact hexec m env i hstart
    | run envs code => exact run_keeps hexec hstart
    | operate op => exact hstack m op hstart
    | recache cache => exact hrest m cache m.observer hstart
    | observe observer => exact hrest m m.cache observer hstart

/-- A session keeps the options. -/
theorem options_session (m : Machine) (uses : List Use) :
    (m.session uses).options = m.options :=
  session_keeps (P := fun n => n.options = m.options)
    (fun n env i h => (executes_execute n env i).frame.1.trans h) (fun _ _ h => h)
    (fun _ _ _ h => h) rfl

/-- A session keeps the stack within its limit. -/
theorem fits_session (hfits : m.Fits) : (m.session uses).Fits := by
  refine session_keeps (fun n env i h => (executes_execute n env i).fits h) ?_
    (fun _ _ _ h => h) hfits
  intro n op h
  obtain ⟨hlimit, hdepth⟩ := n.stack.apply_bounds op
  unfold Fits at h
  change (n.stack.apply op).depth ≤ (n.stack.apply op).limit.toNat
  rw [hlimit]
  omega

end Machine

end StackVm
