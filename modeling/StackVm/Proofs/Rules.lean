import Mathlib.Data.List.Basic
import StackVm.Machine.Execution
/-!
# The rules of execution

`Machine.Performs` says what running an instruction can do, one rule for each way it can go, with
the operand stack seen as the list of its values. `performs_perform` shows that the machine follows
the rules; a fact about a single instruction is then one case for each rule. A rule that applies
settles the outcome (`Performs.perform_eq`), so two machines are compared rule by rule as well.
`Machine.Executes` adds the step that every instruction costs.
-/

namespace StackVm

/-- The value that an instruction pushes as it stands in the program. -/
def Instruction.literal? : Instruction → Option Value
  | .putObject object => some object
  | .putOne => some (.integer 1)
  | _ => none

/-- Whatever the literal is, its push takes nothing and puts one value. -/
theorem Instruction.effect_of_literal {i : Instruction} {v : Value} (hi : i.literal? = some v) :
    i.effect = .taking 0 1 := by
  cases i <;> first | rfl | cases hi

/-- The instructions that push a literal announce their line. -/
theorem Instruction.announcesLine_of_literal {i : Instruction} {v : Value}
    (hi : i.literal? = some v) : i.announcesLine = true := by
  cases i with
  | putObject | putOne => rfl
  | getConstant | newHash | nop | setInlineCache | setN => cases hi

/-- There is room for one more value below the limit. -/
theorem Stack.checkRoom_eq (s : Stack) :
    s.checkRoom =
      if s.depth < s.limit.toNat then .ok () else .error (.stackOverflow s.limit.toNat) := by
  by_cases hroom : s.depth < s.limit.toNat
  · simp [checkRoom, isFull, hroom]
  · simp [checkRoom, isFull, hroom, Nat.not_lt.1 hroom]

namespace Machine

/-- The constant that a name stands for under two operands, a scope and a flag. A scope that is
absent must be allowed to be by the flag. -/
def lookup (env : Environment) (name : String) (scope flag : Value) : Except Fault Value :=
  if scope.isNil && !flag.isTruthy then .error (.uninitializedConstant name)
  else
    match env.resolve scope name with
    | .ok value => .ok value
    | .error e => .error e.toFault

/-- A failed look-up is one of the two faults of a constant. -/
theorem fault_of_lookup {env : Environment} {name : String} {scope flag : Value} {fault : Fault}
    (h : lookup env name scope flag = .error fault) :
    (∃ missing, fault = .uninitializedConstant missing) ∨ ∃ text, fault = .notAClass text := by
  unfold lookup at h
  split at h
  · exact .inl ⟨name, by simpa using h.symm⟩
  · split at h
    · cases h
    · rename_i e _
      cases e with
      | constantNotFound missing =>
        exact .inl ⟨missing, by simpa [LookupError.toFault] using h.symm⟩
      | notAClass text => exact .inr ⟨text, by simpa [LookupError.toFault] using h.symm⟩

/-- The rules for an instruction whose step has been paid. -/
inductive Performs (m : Machine) (env : Environment) : Instruction → Outcome → Prop
  /-- A literal is pushed where it fits. -/
  | push {i : Instruction} {v : Value} (hi : i.literal? = some v)
      (hroom : m.stack.depth < m.stack.limit.toNat) :
      Performs m env i
        { machine := { m with stack := m.stack.put v }, events := m.announcement i }
  /-- A literal that does not fit is refused. -/
  | pushFull {i : Instruction} {v : Value} (hi : i.literal? = some v)
      (hfull : m.stack.limit.toNat ≤ m.stack.depth) :
      Performs m env i (m.fail (.stackOverflow m.stack.limit.toNat))
  /-- A constant that is found takes the place of its operands, and is pending. -/
  | found {name : String} {below : List Value} {scope flag value : Value}
      (hstack : m.stack.toList = below ++ [scope, flag])
      (hlookup : lookup env name scope flag = .ok value)
      (hroom : below.length < m.stack.limit.toNat) :
      Performs m env (.getConstant name)
        { machine := { m with
            stack := (m.stack.drop 2).put value
            pending := some ⟨name, value, env.serial⟩ } }
  /-- A constant that is found may still not fit, on a stack that was above its limit. -/
  | foundFull {name : String} {below : List Value} {scope flag value : Value}
      (hstack : m.stack.toList = below ++ [scope, flag])
      (hlookup : lookup env name scope flag = .ok value)
      (hfull : m.stack.limit.toNat ≤ below.length) :
      Performs m env (.getConstant name)
        ({ m with
            stack := m.stack.drop 2
            pending := some ⟨name, value, env.serial⟩ }.fail
          (.stackOverflow m.stack.limit.toNat))
  /-- A constant that is not found has taken its operands. -/
  | missing {name : String} {below : List Value} {scope flag : Value} {fault : Fault}
      (hstack : m.stack.toList = below ++ [scope, flag])
      (hlookup : lookup env name scope flag = .error fault) :
      Performs m env (.getConstant name) ({ m with stack := m.stack.drop 2 }.fail fault)
  /-- A look-up without its operands is refused. -/
  | operandsMissing {name : String} (hshort : m.stack.depth < 2) :
      Performs m env (.getConstant name) (m.fail (.stackUnderflow 2 m.stack.depth))
  /-- A hash takes the place of its keys and values. -/
  | hash {size : UInt64} (heven : size % 2 = 0) (hdepth : size.toNat ≤ m.stack.depth)
      (hroom : m.stack.depth - size.toNat < m.stack.limit.toNat) :
      Performs m env (.newHash size)
        { machine := { m with
            stack := (m.stack.drop size.toNat).put
              (env.buildHash (pairUp (m.stack.top size.toNat))) } }
  /-- A hash that does not fit: an empty one on a full stack, or one on a stack that was above its
  limit. -/
  | hashFull {size : UInt64} (heven : size % 2 = 0) (hdepth : size.toNat ≤ m.stack.depth)
      (hfull : m.stack.limit.toNat ≤ m.stack.depth - size.toNat) :
      Performs m env (.newHash size)
        ({ m with stack := m.stack.drop size.toNat }.fail (.stackOverflow m.stack.limit.toNat))
  /-- A hash of more values than there are is refused. -/
  | hashShort {size : UInt64} (heven : size % 2 = 0) (hshort : m.stack.depth < size.toNat) :
      Performs m env (.newHash size) (m.fail (.stackUnderflow size.toNat m.stack.depth))
  /-- A hash of odd size is refused. -/
  | hashOdd {size : UInt64} (hodd : size % 2 ≠ 0) :
      Performs m env (.newHash size) (m.fail (.oddHashSize size.toNat))
  /-- The top value is copied over the one at a depth. -/
  | copied {index : UInt64} {v : Value} (htop : m.stack.toList.getLast? = some v)
      (hdepth : index.toNat < m.stack.depth) :
      Performs m env (.setN index) { machine := { m with stack := m.stack.replace index.toNat v } }
  /-- A copy to a depth without a value is refused. -/
  | copyShort {index : UInt64} (hpos : 0 < m.stack.depth) (hshort : m.stack.depth ≤ index.toNat) :
      Performs m env (.setN index) (m.fail (m.stack.missingAt index))
  /-- A copy on an empty stack is refused for the want of a top. -/
  | copyEmpty {index : UInt64} (hempty : m.stack.depth = 0) :
      Performs m env (.setN index) (m.fail (.stackUnderflow 1 0))
  /-- Nothing happens. -/
  | nop : Performs m env .nop { machine := m }
  /-- The pending constant is kept in a slot. -/
  | kept {token : UInt32} {c : FoundConstant} (hcaching : m.options.inlineCaching = true)
      (hpending : m.pending = some c) :
      Performs m env (.setInlineCache token)
        { machine := { m with cache := m.cache.store token c.value c.serial, pending := none } }
  /-- Without caching, or without a pending constant, nothing is kept. -/
  | notKept {token : UInt32} (h : m.options.inlineCaching = true → m.pending = none) :
      Performs m env (.setInlineCache token) { machine := m }

variable {m : Machine} {env : Environment}

/-! ## The machine follows the rules -/

/-- A push either fits or meets the limit. -/
theorem push_eq (m : Machine) (v : Value) (events : List Event) :
    m.push v events =
      if m.stack.depth < m.stack.limit.toNat then
        { machine := { m with stack := m.stack.put v }, events }
      else { m.fail (.stackOverflow m.stack.limit.toNat) with events } := by
  rw [push, Stack.checkRoom_eq]
  by_cases hroom : m.stack.depth < m.stack.limit.toNat
  · rw [if_pos hroom, if_pos hroom]
  · rw [if_neg hroom, if_neg hroom]

/-- So does that of a literal. The check of the push finds what the check before it has found. -/
theorem putObject_eq (m : Machine) (i : Instruction) (v : Value) :
    m.putObject i v =
      if m.stack.depth < m.stack.limit.toNat then
        { machine := { m with stack := m.stack.put v }, events := m.announcement i }
      else m.fail (.stackOverflow m.stack.limit.toNat) := by
  rw [putObject, push_eq, Stack.checkRoom_eq]
  by_cases hroom : m.stack.depth < m.stack.limit.toNat
  · rw [if_pos hroom, if_pos hroom, if_pos hroom]
  · rw [if_neg hroom, if_neg hroom, if_neg hroom]

/-- The look-up of a constant, through `lookup`. -/
theorem resolveConstant_eq (m : Machine) (env : Environment) (name : String)
    (scope flag : Value) :
    m.resolveConstant env name scope flag =
      match lookup env name scope flag with
      | .error fault => m.fail fault
      | .ok value => { m with pending := some ⟨name, value, env.serial⟩ }.push value [] := by
  unfold resolveConstant lookup
  split
  · rfl
  · cases env.resolve scope name <;> rfl

/-- The values that end the list of values are those on top, and the others are left without
them. -/
theorem take_top {s : Stack} {below above : List Value} (h : s.toList = below ++ above) :
    s.top above.length = above ∧ (s.drop above.length).toList = below := by
  have hleft : s.depth - above.length = below.length := by
    rw [Stack.depth_eq_length, h, List.length_append]
    omega
  rw [Stack.top_eq_drop, Stack.toList_drop, hleft, h]
  exact ⟨List.drop_left, List.take_left⟩

/-- The two top values are those that end the list of values. -/
theorem topPair?_eq_some {s : Stack} {lower upper : Value} (h : s.topPair? = some (lower, upper)) :
    ∃ below, s.toList = below ++ [lower, upper] := by
  unfold Stack.topPair? at h
  split at h
  · rename_i a b htop
    obtain ⟨rfl, rfl⟩ : a = lower ∧ b = upper := by simpa using h
    exact ⟨(s.drop 2).toList, by rw [← htop, Stack.toList_drop_append_top]⟩
  · cases h

/-- Fewer than two values have no top pair. -/
theorem topPair?_eq_none {s : Stack} (h : s.topPair? = none) : s.depth < 2 := by
  rcases Nat.lt_or_ge s.depth 2 with hshort | hlong
  · exact hshort
  · have hlen : (s.top 2).length = 2 := by
      rw [Stack.top_eq_drop, List.length_drop, ← Stack.depth_eq_length]
      omega
    obtain ⟨a, b, hab⟩ := List.length_eq_two.1 hlen
    simp [Stack.topPair?, hab] at h

/-- Two values or more end in a pair. -/
theorem exists_pair_of_depth {s : Stack} (h : 2 ≤ s.depth) :
    ∃ below lower upper, s.toList = below ++ [lower, upper] := by
  cases hpair : s.topPair? with
  | none => exact absurd (topPair?_eq_none hpair) (Nat.not_lt.2 h)
  | some pair => exact ⟨_, _, _, (topPair?_eq_some hpair).choose_spec⟩

/-- Two values and what lies below them make up the depth. -/
theorem depth_of_pair {s : Stack} {below : List Value} {lower upper : Value}
    (h : s.toList = below ++ [lower, upper]) : s.depth = below.length + 2 := by
  rw [Stack.depth_eq_length, h, List.length_append]
  rfl

/-- What lies below two values is what taking them leaves. -/
theorem toList_drop_two {s : Stack} {below : List Value} {lower upper : Value}
    (h : s.toList = below ++ [lower, upper]) : (s.drop 2).toList = below :=
  (take_top h).2

/-- A look-up follows the rules. -/
theorem performs_getConstant (m : Machine) (env : Environment) (name : String) :
    m.Performs env (.getConstant name) (m.getConstant env name) := by
  unfold getConstant
  split
  · rename_i h
    exact .operandsMissing (topPair?_eq_none h)
  · rename_i scope flag h
    obtain ⟨below, hstack⟩ := topPair?_eq_some h
    have hdepth : (m.stack.drop 2).depth = below.length := by
      rw [Stack.depth_eq_length, toList_drop_two hstack]
    rw [resolveConstant_eq]
    cases hlookup : lookup env name scope flag with
    | error fault => exact .missing hstack hlookup
    | ok value =>
      simp only [push_eq, hdepth]
      split
      · rename_i hroom
        exact .found hstack hlookup hroom
      · rename_i hfull
        exact .foundFull hstack hlookup (Nat.not_lt.1 hfull)

/-- The building of a hash follows the rules. -/
theorem performs_newHash (m : Machine) (env : Environment) (size : UInt64) :
    m.Performs env (.newHash size) (m.newHash env size) := by
  unfold newHash
  split
  · rename_i heven
    by_cases hdepth : m.stack.depth < size.toNat
    · simpa [Stack.checkDepth, hdepth] using Performs.hashShort heven hdepth
    · have hle : size.toNat ≤ m.stack.depth := Nat.not_lt.1 hdepth
      have hleft : (m.stack.drop size.toNat).depth = m.stack.depth - size.toNat := by
        simp [Stack.depth_eq_length]
      simp only [Stack.checkDepth, hdepth, ↓reduceIte, push_eq, hleft]
      split
      · rename_i hroom
        exact .hash heven hle hroom
      · rename_i hfull
        exact .hashFull heven hle (Nat.not_lt.1 hfull)
  · rename_i hodd
    exact .hashOdd hodd

/-- A copy follows the rules. -/
theorem performs_setN (m : Machine) (env : Environment) (index : UInt64) :
    m.Performs env (.setN index) (m.setN index) := by
  unfold setN Stack.get
  by_cases hpos : 0 < m.stack.slots.size
  · have htop : m.stack.toList.getLast? = some (m.stack.slots[m.stack.slots.size - 1]) := by
      simp [Stack.toList, List.getLast?_eq_getElem?]
    simp only [UInt64.toNat_zero, hpos, ↓reduceDIte, Nat.sub_zero]
    split
    · rename_i hdepth
      exact .copied htop hdepth
    · rename_i hshort
      exact .copyShort hpos (Nat.not_lt.1 hshort)
  · have hempty : m.stack.depth = 0 := Nat.eq_zero_of_not_pos hpos
    have hrule : m.Performs env (.setN index) _ := .copyEmpty hempty
    simpa [hpos, Stack.missingAt, hempty, saturatingSucc] using hrule

/-- The filling of a slot follows the rules. -/
theorem performs_setInlineCache (m : Machine) (env : Environment) (token : UInt32) :
    m.Performs env (.setInlineCache token) (m.setInlineCache token) := by
  unfold setInlineCache
  split
  · rename_i hcaching
    split
    · rename_i c hpending
      exact .kept hcaching hpending
    · rename_i hpending
      exact .notKept fun _ => hpending
  · rename_i hcaching
    exact .notKept fun h => absurd h hcaching

/-- The push of a literal follows the rules. -/
theorem performs_putObject {i : Instruction} {v : Value} (hi : i.literal? = some v) :
    m.Performs env i (m.putObject i v) := by
  rw [putObject_eq]
  split
  · rename_i hroom
    exact .push hi hroom
  · rename_i hfull
    exact .pushFull hi (Nat.not_lt.1 hfull)

/-- **The machine follows the rules.** -/
theorem performs_perform (m : Machine) (env : Environment) (i : Instruction) :
    m.Performs env i (m.perform env i) := by
  cases i with
  | getConstant name => exact performs_getConstant m env name
  | newHash size => exact performs_newHash m env size
  | nop => exact .nop
  | setInlineCache token => exact performs_setInlineCache m env token
  | putObject object => exact performs_putObject rfl
  | putOne => exact performs_putObject rfl
  | setN index => exact performs_setN m env index

variable {i : Instruction} {o : Outcome}

/-! ## The rules settle the outcome -/

/-- An instruction with a literal pushes it. -/
theorem perform_literal {v : Value} (hi : i.literal? = some v) :
    m.perform env i = m.putObject i v := by
  cases i with
  | putObject | putOne =>
    obtain rfl := Option.some.inj hi
    rfl
  | getConstant | newHash | nop | setInlineCache | setN => cases hi

/-- Two values that end the list of values are the two on top. -/
theorem topPair?_of_toList {s : Stack} {below : List Value} {lower upper : Value}
    (h : s.toList = below ++ [lower, upper]) : s.topPair? = some (lower, upper) := by
  have htop : s.top 2 = [lower, upper] := (take_top h).1
  rw [Stack.topPair?, htop]

/-- A look-up whose operands are at hand. -/
theorem perform_getConstant {name : String} {below : List Value} {scope flag : Value}
    (hstack : m.stack.toList = below ++ [scope, flag]) :
    m.perform env (.getConstant name) =
      match lookup env name scope flag with
      | .error fault => { m with stack := m.stack.drop 2 }.fail fault
      | .ok value =>
        { m with
          stack := m.stack.drop 2
          pending := some ⟨name, value, env.serial⟩ }.push value [] := by
  rw [perform, getConstant, topPair?_of_toList hstack]
  exact resolveConstant_eq _ env name scope flag

/-- A hash of even size whose keys and values are at hand. -/
theorem perform_newHash {size : UInt64} (heven : size % 2 = 0)
    (hdepth : size.toNat ≤ m.stack.depth) :
    m.perform env (.newHash size) =
      { m with stack := m.stack.drop size.toNat }.push
        (env.buildHash (pairUp (m.stack.top size.toNat))) [] := by
  simp [perform, newHash, heven, Stack.checkDepth, Nat.not_lt.2 hdepth]

/-- The value at the top ends the list of values. -/
theorem get_top {s : Stack} {v : Value} (h : s.toList.getLast? = some v) : s.get 0 = .ok v := by
  have hlast : s.slots[s.slots.size - 1]? = some v := by
    simpa [Stack.toList, List.getLast?_eq_getElem?] using h
  obtain ⟨hinside, hv⟩ := Array.getElem?_eq_some_iff.1 hlast
  have hpos : 0 < s.slots.size := by omega
  simp [Stack.get, hpos, hv]

/-- **The outcome is the one that a rule gives.** -/
theorem Performs.perform_eq (h : m.Performs env i o) : m.perform env i = o := by
  cases h with
  | push hi hroom => rw [perform_literal hi, putObject_eq, if_pos hroom]
  | pushFull hi hfull => rw [perform_literal hi, putObject_eq, if_neg (Nat.not_lt.2 hfull)]
  | @found name below scope flag value hstack hlookup hroom =>
    have hleft : (m.stack.drop 2).depth = below.length := by
      rw [Stack.depth_eq_length, toList_drop_two hstack]
    rw [perform_getConstant hstack, hlookup]
    exact (push_eq _ _ _).trans (if_pos (hleft ▸ hroom))
  | @foundFull name below scope flag value hstack hlookup hfull =>
    have hleft : (m.stack.drop 2).depth = below.length := by
      rw [Stack.depth_eq_length, toList_drop_two hstack]
    rw [perform_getConstant hstack, hlookup]
    exact (push_eq _ _ _).trans (if_neg (Nat.not_lt.2 (hleft ▸ hfull)))
  | missing hstack hlookup => rw [perform_getConstant hstack, hlookup]
  | operandsMissing hshort =>
    cases hpair : m.stack.topPair? with
    | none => simp [perform, getConstant, hpair]
    | some pair =>
      obtain ⟨below, hstack⟩ := topPair?_eq_some hpair
      have hlen := depth_of_pair hstack
      omega
  | hash heven hdepth hroom =>
    rw [perform_newHash heven hdepth]
    exact (push_eq _ _ _).trans (if_pos (by rwa [Stack.depth_drop]))
  | hashFull heven hdepth hfull =>
    rw [perform_newHash heven hdepth]
    exact (push_eq _ _ _).trans (if_neg (by rwa [Stack.depth_drop, Nat.not_lt]))
  | hashShort heven hshort => simp [perform, newHash, heven, Stack.checkDepth, hshort]
  | hashOdd hodd => simp [perform, newHash, hodd]
  | copied htop hdepth => simp [perform, setN, get_top htop, hdepth]
  | copyShort hpos hshort =>
    have hne : m.stack.toList ≠ [] := List.ne_nil_of_length_pos (Stack.depth_eq_length _ ▸ hpos)
    have htop := List.getLast?_eq_some_getLast hne
    simp [perform, setN, get_top htop, Nat.not_lt.2 hshort]
  | copyEmpty hempty =>
    have hsize : m.stack.slots.size = 0 := hempty
    simp [perform, setN, Stack.get, hsize, Stack.missingAt, hempty, saturatingSucc]
  | nop => rfl
  | kept hcaching hpending => simp [perform, setInlineCache, hcaching, hpending]
  | notKept h =>
    cases hcaching : m.options.inlineCaching with
    | false => simp [perform, setInlineCache, hcaching]
    | true => simp [perform, setInlineCache, hcaching, h hcaching]

/-! ## The step that an instruction costs -/

/-- Whether one more instruction is granted. -/
def MayStep (m : Machine) : Prop := ∀ limit, m.options.maxSteps = some limit → m.steps < limit.toNat

/-- The machine after the step of an instruction has been paid. -/
def paid (m : Machine) : Machine := { m with stepCount := m.stepCount + 1 }

/-- Paying a step adds one at most: behind the greatest word the count begins anew. -/
theorem steps_paid_le (m : Machine) : m.paid.steps ≤ m.steps + 1 := by
  rw [steps, paid, UInt64.toNat_add, UInt64.toNat_one]
  exact Nat.mod_le _ _

/-- Where steps are limited, paying one that is left adds just one. -/
theorem steps_paid_of_lt {limit : UInt64} (h : m.steps < limit.toNat) :
    m.paid.steps = m.steps + 1 := by
  have hword := limit.toNat_lt_size
  rw [steps, paid, UInt64.toNat_add, UInt64.toNat_one]
  exact Nat.mod_eq_of_lt (Nat.lt_of_le_of_lt h hword)

/-- The rules for an instruction that has its step still to pay. -/
inductive Executes (m : Machine) (env : Environment) (i : Instruction) : Outcome → Prop
  /-- The step is granted, and the instruction runs on the machine that has paid it. -/
  | granted {o : Outcome} (hstep : m.MayStep) (hrun : m.paid.Performs env i o) : Executes m env i o
  /-- The step is refused. -/
  | refused {limit : UInt64} (hlimit : m.options.maxSteps = some limit)
      (hspent : limit.toNat ≤ m.steps) : Executes m env i (m.fail (.stepLimitExceeded limit.toNat))

/-- **What executing an instruction can do.** -/
theorem executes_execute (m : Machine) (env : Environment) (i : Instruction) :
    m.Executes env i (m.execute env i) := by
  unfold execute spendStep
  cases hmax : m.options.maxSteps with
  | none => exact .granted (fun limit h => by simp [hmax] at h) (performs_perform m.paid env i)
  | some limit =>
    by_cases hspent : limit ≤ m.stepCount
    · have hrule : m.Executes env i _ := .refused hmax (UInt64.le_iff_toNat_le.1 hspent)
      simpa [hspent] using hrule
    · have hstep : m.MayStep := fun limit' h => by
        obtain rfl : limit = limit' := by simpa [hmax] using h
        exact Nat.not_le.1 fun hle => hspent (UInt64.le_iff_toNat_le.2 hle)
      simpa [hspent, paid] using Executes.granted hstep (performs_perform m.paid env i)

/-- Here too the outcome is the one that a rule gives. -/
theorem Executes.execute_eq (h : m.Executes env i o) : m.execute env i = o := by
  cases h with
  | granted hstep hrun =>
    have hpaid : m.spendStep = .ok m.paid := by
      unfold spendStep
      split
      · rename_i limit hlimit
        rw [if_neg fun hle => Nat.not_le.2 (hstep limit hlimit) (UInt64.le_iff_toNat_le.1 hle)]
        rfl
      · rfl
    rw [execute, hpaid]
    exact hrun.perform_eq
  | refused hlimit hspent => simp [execute, spendStep, hlimit, UInt64.le_iff_toNat_le.2 hspent]

/-- A machine is granted its next step, or has used up those it had. -/
theorem mayStep_or_spent (m : Machine) :
    m.MayStep ∨ ∃ limit, m.options.maxSteps = some limit ∧ limit.toNat ≤ m.steps := by
  cases hmax : m.options.maxSteps with
  | none => exact .inl fun limit h => by rw [hmax] at h; cases h
  | some limit =>
    rcases Nat.lt_or_ge m.steps limit.toNat with hleft | hspent
    · exact .inl fun limit' h => by rw [hmax] at h; cases h; exact hleft
    · exact .inr ⟨limit, rfl, hspent⟩

/-- An instruction that is granted its step is performed. -/
theorem execute_of_mayStep (h : m.MayStep) : m.execute env i = m.paid.perform env i :=
  (Executes.granted h (performs_perform m.paid env i)).execute_eq

/-! ## What every instruction leaves alone -/

/-- No rule touches the options, the steps or the limit of the stack. -/
theorem Performs.frame (h : m.Performs env i o) :
    o.machine.options = m.options ∧ o.machine.stepCount = m.stepCount ∧
      o.machine.stack.limit = m.stack.limit := by
  cases h <;> exact ⟨rfl, rfl, rfl⟩

/-- An execution keeps the options and the limit of the stack, and costs a step at most. -/
theorem Executes.frame (h : m.Executes env i o) :
    o.machine.options = m.options ∧ o.machine.steps ≤ m.steps + 1 ∧
      o.machine.stack.limit = m.stack.limit := by
  cases h with
  | granted _ hrun =>
    obtain ⟨hoptions, hcount, hlimit⟩ := hrun.frame
    refine ⟨hoptions, ?_, hlimit⟩
    rw [steps, hcount]
    exact m.steps_paid_le
  | refused _ _ => exact ⟨rfl, Nat.le_succ _, rfl⟩

end Machine

end StackVm
