import StackVm.Proofs.EffectFrame
import StackVm.Proofs.Sessions
/-!
# The order of faults

Several things can be wrong with an instruction at once, and the machine reports the first that it
comes to: the steps are used up; the size of a hash is odd; values are missing; there is no room; a
constant is not found. `Verdict` has one rule for each of these, with all that must not have been
wrong before it, and one for an instruction with nothing wrong. On a stack within its limit the
machine follows these rules (`verdict_execute`), and they leave no choice, so each fault is reported
in its own case and in no other.
-/

namespace StackVm

/-- The building of a hash from values that do not pair up. -/
def Instruction.OddSize (i : Instruction) : Prop := ∃ size, i = .newHash size ∧ size % 2 ≠ 0

/-- An instruction that puts a value and takes none. -/
def Instruction.OnlyPuts (i : Instruction) : Prop :=
  (∃ object, i = .putObject object) ∨ i = .putOne ∨ i = .newHash 0

/-- It is told by its effect. -/
theorem Instruction.onlyPuts_iff (i : Instruction) :
    i.OnlyPuts ↔ i.effect.pops.toNat = 0 ∧ i.effect.pushes.toNat = 1 := by
  cases i with
  | newHash size =>
    have hzero : size = 0 ↔ size.toNat = 0 := by rw [← UInt64.toNat_inj, UInt64.toNat_zero]
    simp [OnlyPuts, effect, Effect.taking, hzero]
  | _ => simp [OnlyPuts, effect, Effect.taking]

/-- The faults of a constant. -/
def Fault.OfConstant : Fault → Prop
  | .uninitializedConstant _ | .notAClass _ => True
  | _ => False

namespace Machine

variable {m : Machine} {env : Environment} {i : Instruction} {r : Except Fault Unit} {fault : Fault}

/-! ## What can be wrong -/

/-- There is no room for what an instruction puts. -/
def LacksRoom (m : Machine) (i : Instruction) : Prop :=
  m.stack.depth = m.stack.limit.toNat ∧ i.OnlyPuts

/-- A look-up that has its operands does not find its constant. -/
inductive MissesConstant (m : Machine) (env : Environment) : Instruction → Fault → Prop
  /-- The scope is absent, and the flag, being absent or false, does not allow it to be. -/
  | absent {name : String} {below : List Value} {flag : Value}
      (hstack : m.stack.toList = below ++ [.nil, flag])
      (hflag : flag = .nil ∨ flag = .bool false) :
      MissesConstant m env (.getConstant name) (.uninitializedConstant name)
  /-- The environment finds no constant of the name, and reports one that it has looked for. -/
  | unbound {name reported : String} {below : List Value} {scope flag : Value}
      (hstack : m.stack.toList = below ++ [scope, flag])
      (hallowed : scope = .nil → flag ≠ .nil ∧ flag ≠ .bool false)
      (hresolve : env.resolve scope name = .error (.constantNotFound reported)) :
      MissesConstant m env (.getConstant name) (.uninitializedConstant reported)
  /-- The environment takes the scope for neither a class nor a module. -/
  | misplaced {name text : String} {below : List Value} {scope flag : Value}
      (hstack : m.stack.toList = below ++ [scope, flag])
      (hallowed : scope = .nil → flag ≠ .nil ∧ flag ≠ .bool false)
      (hresolve : env.resolve scope name = .error (.notAClass text)) :
      MissesConstant m env (.getConstant name) (.notAClass text)

/-- It fails with a fault of a constant. -/
theorem MissesConstant.ofConstant (h : m.MissesConstant env i fault) : fault.OfConstant := by
  cases h with
  | absent | unbound | misplaced => trivial

/-- And with no other. -/
theorem MissesConstant.ofConstant_of_eq {other : Fault} (h : m.MissesConstant env i fault)
    (heq : (.error fault : Except Fault Unit) = .error other) : other.OfConstant := by
  cases heq
  exact h.ofConstant

/-- When a scope is refused before anything is looked up in it. -/
theorem scope_refused_iff {scope flag : Value} :
    (scope.isNil && !flag.isTruthy) = true ↔
      scope = .nil ∧ (flag = .nil ∨ flag = .bool false) := by
  rw [Bool.and_eq_true, Bool.not_eq_true', Value.isNil_iff, Value.isTruthy_eq_false_iff]

/-- Otherwise the look-up fails as the environment does. -/
theorem lookup_of_allowed {name : String} {scope flag : Value} {e : LookupError}
    (hallowed : scope = .nil → flag ≠ .nil ∧ flag ≠ .bool false)
    (hresolve : env.resolve scope name = .error e) :
    lookup env name scope flag = .error e.toFault := by
  have hnot : ¬(scope.isNil && !flag.isTruthy) = true := by
    rw [scope_refused_iff]
    rintro ⟨hnil, hflag⟩
    exact not_or.2 (hallowed hnil) hflag
  rw [lookup, if_neg hnot, hresolve]

/-- These are the ways in which a look-up fails. -/
theorem missesConstant_iff : m.MissesConstant env i fault ↔ m.FailsLookup env i fault := by
  constructor
  · intro h
    cases h with
    | absent hstack hflag =>
      exact ⟨_, _, _, _, rfl, hstack, if_pos (scope_refused_iff.2 ⟨rfl, hflag⟩)⟩
    | unbound hstack hallowed hresolve | misplaced hstack hallowed hresolve =>
      exact ⟨_, _, _, _, rfl, hstack, lookup_of_allowed hallowed hresolve⟩
  · rintro ⟨name, below, scope, flag, rfl, hstack, hlookup⟩
    unfold lookup at hlookup
    split at hlookup
    · rename_i hrefused
      obtain ⟨rfl, hflag⟩ := scope_refused_iff.1 hrefused
      cases hlookup
      exact .absent hstack hflag
    · rename_i hnot
      have hallowed : scope = .nil → flag ≠ .nil ∧ flag ≠ .bool false := fun hnil =>
        not_or.1 fun hflag => hnot (scope_refused_iff.2 ⟨hnil, hflag⟩)
      split at hlookup
      · cases hlookup
      · rename_i e hresolve
        cases hlookup
        cases e with
        | constantNotFound reported => exact .unbound hstack hallowed hresolve
        | notAClass text => exact .misplaced hstack hallowed hresolve

/-- Only one fault. -/
theorem MissesConstant.unique {fault' : Fault} (h : m.MissesConstant env i fault)
    (h' : m.MissesConstant env i fault') : fault = fault' := by
  obtain ⟨name, below, scope, flag, rfl, hstack, hlookup⟩ := missesConstant_iff.1 h
  obtain ⟨name', below', scope', flag', hi, hstack', hlookup'⟩ := missesConstant_iff.1 h'
  cases hi
  have hpair := (topPair?_of_toList hstack).symm.trans (topPair?_of_toList hstack')
  cases hpair
  exact Except.error.inj (hlookup.symm.trans hlookup')

/-- **On a stack within its limit, only what puts and does not take can go past the limit**, and
only where the stack is full. -/
theorem past_limit_iff (hfits : m.Fits) (hdepth : i.effect.minDepth.toNat ≤ m.stack.depth) :
    m.stack.limit.toNat < m.stack.depth - i.effect.pops.toNat + i.effect.pushes.toNat ↔
      m.LacksRoom i := by
  unfold Fits at hfits
  have hpops := UInt64.le_iff_toNat_le.1 (Verification.pops_le_minDepth i)
  have hpushes := Verification.pushes_le_one i
  rw [LacksRoom, Instruction.onlyPuts_iff]
  omega

/-! ## The verdict on an instruction -/

/-- What becomes of an instruction. Each rule has the checks before its own behind it. -/
inductive Verdict (m : Machine) (env : Environment) (i : Instruction) : Except Fault Unit → Prop
  /-- The steps are used up. -/
  | refused {limit : UInt64} (hlimit : m.options.maxSteps = some limit)
      (hspent : limit.toNat ≤ m.steps) : Verdict m env i (.error (.stepLimitExceeded limit.toNat))
  /-- The values of a hash do not pair up. -/
  | odd {size : UInt64} (hstep : m.MayStep) (hi : i = .newHash size) (hodd : size % 2 ≠ 0) :
      Verdict m env i (.error (.oddHashSize size.toNat))
  /-- Values are missing. -/
  | short {needed : Nat} (hstep : m.MayStep) (heven : ¬i.OddSize)
      (hshort : m.stack.depth < i.effect.minDepth.toNat) :
      Verdict m env i (.error (.stackUnderflow needed m.stack.depth))
  /-- There is no room. -/
  | full (hstep : m.MayStep) (heven : ¬i.OddSize)
      (hdepth : i.effect.minDepth.toNat ≤ m.stack.depth) (hfull : m.LacksRoom i) :
      Verdict m env i (.error (.stackOverflow m.stack.limit.toNat))
  /-- A constant is not found. -/
  | missing {fault : Fault} (hstep : m.MayStep) (heven : ¬i.OddSize)
      (hdepth : i.effect.minDepth.toNat ≤ m.stack.depth) (hroom : ¬m.LacksRoom i)
      (hmissing : m.MissesConstant env i fault) : Verdict m env i (.error fault)
  /-- Nothing is wrong. -/
  | done (hstep : m.MayStep) (heven : ¬i.OddSize)
      (hdepth : i.effect.minDepth.toNat ≤ m.stack.depth) (hroom : ¬m.LacksRoom i)
      (hfound : ∀ fault, ¬m.MissesConstant env i fault) : Verdict m env i (.ok ())

/-- **The machine checks in this order.** -/
theorem verdict_execute (hfits : m.Fits) (hmemory : m.stack.InMemory) (env : Environment)
    (i : Instruction) : m.Verdict env i (m.execute env i).result := by
  rcases m.mayStep_or_spent with hstep | ⟨limit, hlimit, hspent⟩
  swap
  · rw [(Executes.refused hlimit hspent).execute_eq]
    exact .refused hlimit hspent
  rw [execute_of_mayStep hstep]
  have hrule := performs_perform m.paid env i
  by_cases hodd : i.OddSize
  · obtain ⟨size, rfl, hodd⟩ := hodd
    rw [(Performs.hashOdd hodd).perform_eq]
    exact .odd hstep rfl hodd
  have heven : ∀ size, i = .newHash size → size % 2 = 0 :=
    fun size hi => by_contra fun h => hodd ⟨size, hi, h⟩
  rcases Nat.lt_or_ge m.stack.depth i.effect.minDepth.toNat with hshort | hdepth
  · obtain ⟨needed, hfault⟩ := hrule.underflow hmemory.lt hshort heven
    rw [hfault]
    exact .short hstep hodd hshort
  by_cases hfull : m.LacksRoom i
  · rw [hrule.overflow hfits hmemory.lt hdepth heven ((past_limit_iff hfits hdepth).2 hfull)]
    exact .full hstep hodd hdepth hfull
  by_cases hmissing : ∃ fault, m.MissesConstant env i fault
  · obtain ⟨fault, hmissing⟩ := hmissing
    obtain ⟨name, below, scope, flag, rfl, hstack, hlookup⟩ := missesConstant_iff.1 hmissing
    have hfails : m.paid.Performs env (.getConstant name) _ := .missing hstack hlookup
    rw [hfails.perform_eq]
    exact .missing hstep hodd hdepth hfull hmissing
  -- With all checks passed nothing is left but success.
  rcases hrule.result_of_minDepth hfits hmemory.lt hdepth heven with
    hok | ⟨fault, hfails, -⟩ | ⟨-, hpast⟩
  · rw [hok]
    exact .done hstep hodd hdepth hfull fun fault h => hmissing ⟨fault, h⟩
  · exact absurd ⟨fault, missesConstant_iff.2 hfails⟩ hmissing
  · exact absurd ((past_limit_iff hfits hdepth).1 hpast) hfull

/-! ## Each fault in its own case -/

/-- A machine that may make another step has not used up its steps. -/
theorem MayStep.not_spent (hstep : m.MayStep) {n : Nat} :
    ¬∃ limit, m.options.maxSteps = some limit ∧ limit.toNat = n ∧ n ≤ m.steps := by
  rintro ⟨limit, hlimit, rfl, hspent⟩
  exact Nat.not_le.2 (hstep limit hlimit) hspent

namespace Verdict

theorem refused_iff (h : m.Verdict env i r) (n : Nat) :
    r = .error (.stepLimitExceeded n) ↔
      ∃ limit, m.options.maxSteps = some limit ∧ limit.toNat = n ∧ n ≤ m.steps := by
  cases h with
  | @refused limit hlimit hspent =>
    constructor
    · rintro ⟨⟩
      exact ⟨limit, hlimit, rfl, hspent⟩
    · rintro ⟨limit', hlimit', rfl, -⟩
      cases hlimit.symm.trans hlimit'
      rfl
  | missing hstep _ _ _ hmissing =>
    exact iff_of_false hmissing.ofConstant_of_eq hstep.not_spent
  | odd hstep | short hstep | full hstep | done hstep =>
    exact iff_of_false (by rintro ⟨⟩) hstep.not_spent

theorem odd_iff (h : m.Verdict env i r) (hstep : m.MayStep) (n : Nat) :
    r = .error (.oddHashSize n) ↔ ∃ size, i = .newHash size ∧ size.toNat = n ∧ size % 2 ≠ 0 := by
  have hnot : ¬i.OddSize → ¬∃ size, i = .newHash size ∧ size.toNat = n ∧ size % 2 ≠ 0 := by
    rintro heven ⟨size, hi, rfl, hodd⟩
    exact heven ⟨size, hi, hodd⟩
  cases h with
  | refused hlimit hspent => exact absurd hspent (Nat.not_le.2 (hstep _ hlimit))
  | @odd size _ hi hodd =>
    subst hi
    constructor
    · rintro ⟨⟩
      exact ⟨size, rfl, rfl, hodd⟩
    · rintro ⟨size', hi, rfl, -⟩
      cases hi
      rfl
  | missing _ heven _ _ hmissing =>
    exact iff_of_false hmissing.ofConstant_of_eq (hnot heven)
  | short _ heven | full _ heven | done _ heven =>
    exact iff_of_false (by rintro ⟨⟩) (hnot heven)

theorem short_iff (h : m.Verdict env i r) (hstep : m.MayStep) (heven : ¬i.OddSize) :
    (∃ needed depth, r = .error (.stackUnderflow needed depth)) ↔
      m.stack.depth < i.effect.minDepth.toNat := by
  cases h with
  | refused hlimit hspent => exact absurd hspent (Nat.not_le.2 (hstep _ hlimit))
  | odd _ hi hodd => exact absurd ⟨_, hi, hodd⟩ heven
  | short _ _ hshort => exact iff_of_true ⟨_, _, rfl⟩ hshort
  | missing _ _ hdepth _ hmissing =>
    exact iff_of_false (fun ⟨_, _, h⟩ => hmissing.ofConstant_of_eq h) (Nat.not_lt.2 hdepth)
  | full _ _ hdepth | done _ _ hdepth =>
    exact iff_of_false (by rintro ⟨_, _, ⟨⟩⟩) (Nat.not_lt.2 hdepth)

theorem full_iff (h : m.Verdict env i r) (hstep : m.MayStep) (heven : ¬i.OddSize)
    (hdepth : i.effect.minDepth.toNat ≤ m.stack.depth) (n : Nat) :
    r = .error (.stackOverflow n) ↔ m.LacksRoom i ∧ n = m.stack.limit.toNat := by
  cases h with
  | refused hlimit hspent => exact absurd hspent (Nat.not_le.2 (hstep _ hlimit))
  | odd _ hi hodd => exact absurd ⟨_, hi, hodd⟩ heven
  | short _ _ hshort => exact absurd hdepth (Nat.not_le.2 hshort)
  | full _ _ _ hfull =>
    constructor
    · rintro ⟨⟩
      exact ⟨hfull, rfl⟩
    · rintro ⟨-, rfl⟩
      rfl
  | missing _ _ _ hroom hmissing =>
    exact iff_of_false hmissing.ofConstant_of_eq fun h => hroom h.1
  | done _ _ _ hroom => exact iff_of_false (by rintro ⟨⟩) fun h => hroom h.1

theorem missing_iff (h : m.Verdict env i r) (hstep : m.MayStep) (heven : ¬i.OddSize)
    (hdepth : i.effect.minDepth.toNat ≤ m.stack.depth) (hroom : ¬m.LacksRoom i) (fault : Fault) :
    r = .error fault ↔ m.MissesConstant env i fault := by
  cases h with
  | refused hlimit hspent => exact absurd hspent (Nat.not_le.2 (hstep _ hlimit))
  | odd _ hi hodd => exact absurd ⟨_, hi, hodd⟩ heven
  | short _ _ hshort => exact absurd hdepth (Nat.not_le.2 hshort)
  | full _ _ _ hfull => exact absurd hfull hroom
  | missing _ _ _ _ hmissing =>
    constructor
    · rintro ⟨⟩
      exact hmissing
    · intro hmissing'
      rw [hmissing.unique hmissing']
  | done _ _ _ _ hfound => exact iff_of_false (by rintro ⟨⟩) (hfound fault)

/-- What takes a value before it puts one has room for it. -/
theorem ne_stackOverflow (h : m.Verdict env i r) (htakes : ¬i.OnlyPuts) (n : Nat) :
    r ≠ .error (.stackOverflow n) := by
  rintro rfl
  cases h with
  | full _ _ _ hfull => exact htakes hfull.2
  | missing _ _ _ _ hmissing => exact hmissing.ofConstant

end Verdict

/-- A result is the one that the first thing wrong with an instruction leads to. -/
structure Classified (m : Machine) (env : Environment) (i : Instruction) (r : Except Fault Unit) :
    Prop where
  /-- A step is refused where those granted are used up. -/
  refused : ∀ n, r = .error (.stepLimitExceeded n) ↔
    ∃ limit, m.options.maxSteps = some limit ∧ limit.toNat = n ∧ n ≤ m.steps
  /-- Otherwise a hash is refused if its size is odd, whatever the depth. -/
  odd : m.MayStep → ∀ n, r = .error (.oddHashSize n) ↔
    ∃ size, i = .newHash size ∧ size.toNat = n ∧ size % 2 ≠ 0
  /-- Otherwise an instruction is refused if it needs more values than there are. -/
  short : m.MayStep → ¬i.OddSize →
    ((∃ needed depth, r = .error (.stackUnderflow needed depth)) ↔
      m.stack.depth < i.effect.minDepth.toNat)
  /-- Otherwise one that only puts is refused if the stack is full. -/
  full : m.MayStep → ¬i.OddSize → i.effect.minDepth.toNat ≤ m.stack.depth →
    ∀ n, r = .error (.stackOverflow n) ↔ m.LacksRoom i ∧ n = m.stack.limit.toNat
  /-- Otherwise a fault is that of a constant that is not found. -/
  missing : m.MayStep → ¬i.OddSize → i.effect.minDepth.toNat ≤ m.stack.depth → ¬m.LacksRoom i →
    ∀ fault, r = .error fault ↔ m.MissesConstant env i fault
  /-- Otherwise the instruction succeeds. -/
  done : m.MayStep → ¬i.OddSize → i.effect.minDepth.toNat ≤ m.stack.depth → ¬m.LacksRoom i →
    (∀ fault, ¬m.MissesConstant env i fault) → r = .ok ()
  /-- So a look-up always has room, -/
  lookup : ∀ name, i = .getConstant name → ∀ n, r ≠ .error (.stackOverflow n)
  /-- and so has a hash that is not empty. -/
  hash : ∀ size, i = .newHash size → 2 ≤ size.toNat → ∀ n, r ≠ .error (.stackOverflow n)

/-- **An instruction fails for the first thing that is wrong with it.** This is so on every machine
that a session leads to, in whatever environment, as long as its stack is one in memory. -/
theorem faults_in_order (id : Nat) (options : Options) (uses : List Use)
    (hmemory : ((create id options).session uses).stack.InMemory) (env : Environment)
    (i : Instruction) :
    let m := (create id options).session uses
    Classified m env i (m.execute env i).result := by
  intro m
  have hfits : m.Fits := fits_session (Nat.zero_le _)
  have hverdict := verdict_execute hfits hmemory env i
  refine ⟨hverdict.refused_iff, hverdict.odd_iff, hverdict.short_iff, hverdict.full_iff,
    hverdict.missing_iff, ?_, ?_, ?_⟩
  · intro hstep heven hdepth hroom hfound
    cases hresult : (m.execute env i).result with
    | ok => rfl
    | error fault =>
      exact absurd ((hverdict.missing_iff hstep heven hdepth hroom fault).1 hresult) (hfound fault)
  · rintro name rfl
    exact hverdict.ne_stackOverflow (by simp [Instruction.OnlyPuts])
  · rintro size rfl hsize
    refine hverdict.ne_stackOverflow ?_
    rintro (⟨_, ⟨⟩⟩ | ⟨⟨⟩⟩ | ⟨⟨⟩⟩)
    exact absurd hsize (by decide)

/-- A machine with room for one value and one step, after some uses of it. -/
def narrow (uses : List Use) : Machine :=
  (create 0 { maxStackSize := 1, maxSteps := some 1 }).session uses

/-- Its room is taken. An odd hash of more values than there are is refused for its size; a look-up,
for its operands, although the stack is full; a literal, for the room. When the step is used up as
well, all is refused for that. -/
theorem faults_in_order_narrow :
    (narrow [.operate (.push .nil)]).stack.InMemory ∧
      ((narrow [.operate (.push .nil)]).execute (.flat []) (.newHash 3)).result =
        .error (.oddHashSize 3) ∧
      (∃ needed depth,
        ((narrow [.operate (.push .nil)]).execute (.flat []) (.getConstant "A")).result =
          .error (.stackUnderflow needed depth)) ∧
      ((narrow [.operate (.push .nil)]).execute (.flat []) .putOne).result =
        .error (.stackOverflow 1) ∧
      (narrow [.operate (.push .nil), .execute (.flat []) .nop]).stack.InMemory ∧
      ((narrow [.operate (.push .nil), .execute (.flat []) .nop]).execute (.flat [])
        (.newHash 3)).result = .error (.stepLimitExceeded 1) := by
  have hmemory : (narrow [.operate (.push .nil)]).stack.InMemory := by
    change 1 < 0x8000000000000000
    decide
  have hmemory' : (narrow [.operate (.push .nil), .execute (.flat []) .nop]).stack.InMemory := by
    change 1 < 0x8000000000000000
    decide
  have hstep : (narrow [.operate (.push .nil)]).MayStep := by
    intro limit hlimit
    cases hlimit
    decide
  refine ⟨hmemory, ?_, ?_, ?_, hmemory', ?_⟩
  · exact ((faults_in_order 0 _ _ hmemory (.flat []) (.newHash 3)).odd hstep 3).2
      ⟨3, rfl, rfl, by decide⟩
  · exact ((faults_in_order 0 _ _ hmemory (.flat []) (.getConstant "A")).short hstep
      (fun ⟨_, h, _⟩ => nomatch h)).2 (by decide)
  · exact ((faults_in_order 0 _ _ hmemory (.flat []) .putOne).full hstep
      (fun ⟨_, h, _⟩ => nomatch h) (by decide) 1).2 ⟨⟨rfl, .inr (.inl rfl)⟩, rfl⟩
  · exact ((faults_in_order 0 _ _ hmemory' (.flat []) (.newHash 3)).refused 1).2
      ⟨1, rfl, rfl, by decide⟩

end Machine

end StackVm
