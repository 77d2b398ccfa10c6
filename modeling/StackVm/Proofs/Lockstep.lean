import Mathlib.Data.List.Forall2
import StackVm.Proofs.Depth
/-!
# Machines in lockstep

Two machines go in lockstep when their stacks hold related values place by place, under one limit,
and they have used as many steps of as many. Where programs differ by related literals only, and the
environment gives related answers to related questions, each instruction keeps two such machines in
lockstep (`execute_inStep`), so a run does too, through the programs or up to related faults
(`run_inStep`). Nothing else in a machine counts, and with values related by identity that is the
independence of a run from caches and observers.
-/

namespace StackVm

/-- Two answers concur: both are values, or both are errors, and the two are related. -/
inductive Concur {ε α : Type} (E : ε → ε → Prop) (R : α → α → Prop) :
    Except ε α → Except ε α → Prop
  /-- Both are values. -/
  | ok {a b : α} (h : R a b) : Concur E R (.ok a) (.ok b)
  /-- Both are errors. -/
  | error {e f : ε} (h : E e f) : Concur E R (.error e) (.error f)

namespace Concur

variable {ε α : Type} {E : ε → ε → Prop} {R : α → α → Prop} {x y : Except ε α}

/-- Answers that concur by identity are the same. -/
theorem eq (h : Concur Eq Eq x y) : x = y := by
  cases h with
  | ok h | error h => rw [h]

/-- What concurs with a value is a value. -/
theorem exists_ok {a : α} (h : Concur E R (.ok a) y) : ∃ b, y = .ok b ∧ R a b := by
  cases h with
  | ok h => exact ⟨_, rfl, h⟩

/-- What concurs with an error is an error. -/
theorem exists_error {e : ε} (h : Concur E R (.error e) y) : ∃ f, y = .error f ∧ E e f := by
  cases h with
  | error h => exact ⟨_, rfl, h⟩

theorem refl (hE : ∀ e, E e e) (hR : ∀ a, x = .ok a → R a a) : Concur E R x x := by
  cases x with
  | ok a => exact .ok (hR a rfl)
  | error e => exact .error (hE e)

end Concur

/-! ## Related stacks -/

/-- Two stacks with related values place by place, and one limit. -/
structure Stack.Related (R : Value → Value → Prop) (s t : Stack) : Prop where
  /-- The values are related, bottom to top. -/
  values : List.Forall₂ R s.toList t.toList
  /-- The limits are the same. -/
  limit : s.limit = t.limit

namespace Stack.Related

variable {R : Value → Value → Prop} {s t : Stack} {v w : Value}

theorem depth_eq (h : s.Related R t) : s.depth = t.depth := by
  rw [depth_eq_length, depth_eq_length]
  exact h.values.length_eq

theorem put (h : s.Related R t) (hv : R v w) : (s.put v).Related R (t.put w) := by
  refine ⟨?_, h.limit⟩
  rw [toList_put, toList_put]
  exact List.rel_append h.values (.cons hv .nil)

theorem drop (h : s.Related R t) (count : Nat) : (s.drop count).Related R (t.drop count) := by
  refine ⟨?_, h.limit⟩
  rw [toList_drop, toList_drop, h.depth_eq]
  exact List.forall₂_take _ h.values

theorem top (h : s.Related R t) (count : Nat) : List.Forall₂ R (s.top count) (t.top count) := by
  rw [top_eq_drop, top_eq_drop, h.depth_eq]
  exact List.forall₂_drop _ h.values

/-- Values replaced at one place leave the others related. -/
theorem forall₂_set {xs ys : List Value} (h : List.Forall₂ R xs ys) (hv : R v w) (k : Nat) :
    List.Forall₂ R (xs.set k v) (ys.set k w) := by
  induction h generalizing k with
  | nil => exact .nil
  | cons hfirst hrest ih =>
    cases k with
    | zero => exact .cons hv hrest
    | succ k => exact .cons hfirst (ih k)

theorem replace (h : s.Related R t) (hv : R v w) (depth : Nat) :
    (s.replace depth v).Related R (t.replace depth w) := by
  refine ⟨?_, h.limit⟩
  rw [toList_replace, toList_replace, h.depth_eq]
  exact forall₂_set h.values hv _

/-- What ends one of two related stacks has its like at the end of the other. -/
theorem exists_end {below ending : List Value} (h : s.Related R t)
    (hs : s.toList = below ++ ending) :
    ∃ below' ending', t.toList = below' ++ ending' ∧ List.Forall₂ R ending ending' := by
  have hending := List.forall₂_drop below.length h.values
  rw [hs, List.drop_left] at hending
  exact ⟨_, _, (List.take_append_drop _ _).symm, hending⟩

/-- A related pair of operands. -/
theorem pair {below : List Value} {lower upper : Value} (h : s.Related R t)
    (hs : s.toList = below ++ [lower, upper]) :
    ∃ below' lower' upper', t.toList = below' ++ [lower', upper'] ∧ R lower lower' ∧
      R upper upper' := by
  obtain ⟨below', ending', ht, hending⟩ := h.exists_end hs
  rw [List.forall₂_cons_left_iff] at hending
  obtain ⟨lower', _, hlower, hending, rfl⟩ := hending
  rw [List.forall₂_cons_left_iff] at hending
  obtain ⟨upper', _, hupper, hending, rfl⟩ := hending
  rw [List.forall₂_nil_left_iff] at hending
  subst hending
  exact ⟨below', lower', upper', ht, hlower, hupper⟩

/-- A related top. -/
theorem last (h : s.Related R t) (hs : s.toList.getLast? = some v) :
    ∃ w, t.toList.getLast? = some w ∧ R v w := by
  obtain ⟨below, hs⟩ := List.getLast?_eq_some_iff.1 hs
  obtain ⟨below', ending', ht, hending⟩ := h.exists_end hs
  rw [List.forall₂_cons_left_iff] at hending
  obtain ⟨w, _, hw, hending, rfl⟩ := hending
  rw [List.forall₂_nil_left_iff] at hending
  subst hending
  exact ⟨w, by rw [ht, List.getLast?_concat], hw⟩

/-- Stacks with the same values are the same. -/
theorem eq (h : s.Related Eq t) : s = t :=
  ext_toList (List.forall₂_eq_eq_eq ▸ h.values) h.limit

end Stack.Related

/-- A stack is related to itself, if its values are. -/
theorem Stack.related_self {R : Value → Value → Prop} (s : Stack) (hR : ∀ v ∈ s.toList, R v v) :
    s.Related R s :=
  ⟨List.forall₂_same.2 hR, rfl⟩

/-! ## Machines, programs and environments -/

/-- Two instructions that are the same, or push related literals. -/
inductive Instruction.InStep (R : Value → Value → Prop) : Instruction → Instruction → Prop
  /-- Both push a literal. -/
  | literal {i j : Instruction} {v w : Value} (hi : i.literal? = some v) (hj : j.literal? = some w)
      (h : R v w) : InStep R i j
  /-- Neither does, and they are the same. -/
  | same {i : Instruction} (hi : i.literal? = none) : InStep R i i

/-- An instruction is in step with itself, if its literal is related to itself. -/
theorem Instruction.inStep_self {R : Value → Value → Prop} (i : Instruction)
    (hR : ∀ v, i.literal? = some v → R v v) : i.InStep R i := by
  cases hi : i.literal? with
  | none => exact .same hi
  | some v => exact .literal hi hi (hR v hi)

/-- Two machines with related stacks that have used as many steps of as many. -/
structure Machine.InStep (R : Value → Value → Prop) (m n : Machine) : Prop where
  /-- The stacks are related. -/
  stack : m.stack.Related R n.stack
  /-- As many steps are used. -/
  steps : m.steps = n.steps
  /-- As many steps are granted. -/
  maxSteps : m.options.maxSteps = n.options.maxSteps

/-- Two outcomes that leave machines in step and concur on success. -/
structure Outcome.InStep (E : Fault → Fault → Prop) (R : Value → Value → Prop) (o p : Outcome) :
    Prop where
  /-- The machines are in step. -/
  machine : o.machine.InStep R p.machine
  /-- Both succeed, or both fail with related faults. -/
  result : Concur E Eq o.result p.result

/-- Two pairs with related keys and related values. -/
def Value.PairRelated (R : Value → Value → Prop) (p q : Value × Value) : Prop :=
  R p.1 q.1 ∧ R p.2 q.2

/-- An environment that gives related answers to related questions. -/
structure Environment.Respects (env : Environment) (E : Fault → Fault → Prop)
    (R : Value → Value → Prop) : Prop where
  /-- A look-up under related operands. -/
  lookup : ∀ name {scope scope' flag flag' : Value}, R scope scope' → R flag flag' →
    Concur E R (Machine.lookup env name scope flag) (Machine.lookup env name scope' flag')
  /-- A hash of related pairs. -/
  buildHash : ∀ {pairs pairs' : List (Value × Value)},
    List.Forall₂ (Value.PairRelated R) pairs pairs' → R (env.buildHash pairs) (env.buildHash pairs')

/-- Every environment gives the same answers to the same questions. -/
theorem Environment.respects_eq (env : Environment) : env.Respects Eq Eq where
  lookup name scope scope' flag flag' hscope hflag := by
    subst hscope hflag
    exact .refl (fun _ => rfl) fun _ _ => rfl
  buildHash {pairs pairs'} hpairs := by
    have hsame : pairs = pairs' := by
      rw [← List.forall₂_eq_eq_eq]
      exact hpairs.imp fun p q h => Prod.ext h.1 h.2
    rw [hsame]

namespace Machine

variable {E : Fault → Fault → Prop} {R : Value → Value → Prop}
variable {m n : Machine} {env : Environment} {i j : Instruction} {v w : Value}

/-- Related values make related pairs. -/
theorem forall₂_pairUp {xs ys : List Value} (h : List.Forall₂ R xs ys) :
    List.Forall₂ (Value.PairRelated R) (pairUp xs) (pairUp ys) := by
  fun_induction pairUp xs generalizing ys with
  | case1 key value rest ih =>
    obtain ⟨key', tail, hkey, htail, rfl⟩ := List.forall₂_cons_left_iff.1 h
    obtain ⟨value', rest', hvalue, hrest, rfl⟩ := List.forall₂_cons_left_iff.1 htail
    exact .cons ⟨hkey, hvalue⟩ (ih hrest)
  | case2 xs hshort =>
    -- Fewer than two values make no pair, here and there.
    rcases h with _ | ⟨hfirst, _ | ⟨hsecond, hrest⟩⟩
    · exact .nil
    · exact .nil
    · exact absurd rfl (hshort _ _ _)

/-! ## One instruction -/

/-- The filling of a slot succeeds, and concerns the cache alone. -/
theorem setInlineCache_frame (m : Machine) (token : UInt32) :
    (m.setInlineCache token).machine.stack = m.stack ∧
      (m.setInlineCache token).machine.steps = m.steps ∧
      (m.setInlineCache token).machine.options = m.options ∧
      (m.setInlineCache token).result = .ok () := by
  unfold setInlineCache
  split
  · split <;> exact ⟨rfl, rfl, rfl, rfl⟩
  · exact ⟨rfl, rfl, rfl, rfl⟩

section Step

variable (hE : ∀ fault, E fault fault)
include hE

/-- Related values are pushed in step, whatever is announced. -/
theorem push_inStep (hm : m.InStep R n) (hv : R v w) (events events' : List Event) :
    (m.push v events).InStep E R (n.push w events') := by
  rw [push_eq, push_eq, hm.stack.depth_eq, hm.stack.limit]
  split
  · exact ⟨⟨hm.stack.put hv, hm.steps, hm.maxSteps⟩, .ok rfl⟩
  · exact ⟨hm, .error (hE _)⟩

/-- And so are the literals of instructions. -/
theorem putObject_inStep (hm : m.InStep R n) (hv : R v w) :
    (m.putObject i v).InStep E R (n.putObject j w) := by
  rw [putObject, putObject, Stack.checkRoom_eq, Stack.checkRoom_eq, hm.stack.depth_eq,
    hm.stack.limit]
  by_cases hroom : n.stack.depth < n.stack.limit.toNat
  · rw [if_pos hroom]
    exact push_inStep hE hm hv _ _
  · rw [if_neg hroom]
    exact ⟨hm, .error (hE _)⟩

/-- A related copy. -/
theorem setN_inStep (hm : m.InStep R n) (index : UInt64) :
    (m.perform env (.setN index)).InStep E R (n.perform env (.setN index)) := by
  have hdepth := hm.stack.depth_eq
  rcases Nat.eq_zero_or_pos m.stack.depth with hempty | hpos
  · rw [(Performs.copyEmpty hempty).perform_eq, (Performs.copyEmpty (hdepth ▸ hempty)).perform_eq]
    exact ⟨hm, .error (hE _)⟩
  · rcases Nat.lt_or_ge index.toNat m.stack.depth with hinside | hshort
    · have hne : m.stack.toList ≠ [] := List.ne_nil_of_length_pos (Stack.depth_eq_length _ ▸ hpos)
      have htop := List.getLast?_eq_some_getLast hne
      obtain ⟨w, htop', hw⟩ := hm.stack.last htop
      rw [(Performs.copied htop hinside).perform_eq,
        (Performs.copied htop' (hdepth ▸ hinside)).perform_eq]
      exact ⟨⟨hm.stack.replace hw _, hm.steps, hm.maxSteps⟩, .ok rfl⟩
    · rw [(Performs.copyShort hpos hshort).perform_eq,
        (Performs.copyShort (hdepth ▸ hpos) (hdepth ▸ hshort)).perform_eq]
      refine ⟨hm, .error ?_⟩
      unfold Stack.missingAt
      rw [hdepth]
      exact hE _

variable (henv : env.Respects E R)
include henv

/-- A look-up under related operands. -/
theorem getConstant_inStep (hm : m.InStep R n) (name : String) :
    (m.perform env (.getConstant name)).InStep E R (n.perform env (.getConstant name)) := by
  have hdepth := hm.stack.depth_eq
  rcases Nat.lt_or_ge m.stack.depth 2 with hshort | hlong
  · rw [(Performs.operandsMissing hshort).perform_eq,
      (Performs.operandsMissing (hdepth ▸ hshort)).perform_eq, hdepth]
    exact ⟨hm, .error (hE _)⟩
  · obtain ⟨below, scope, flag, hstack⟩ := exists_pair_of_depth hlong
    obtain ⟨below', scope', flag', hstack', hscope, hflag⟩ := hm.stack.pair hstack
    rw [perform_getConstant hstack, perform_getConstant hstack']
    have hconcur := henv.lookup name hscope hflag
    revert hconcur
    generalize lookup env name scope flag = found, lookup env name scope' flag' = found'
    rintro (hvalue | hfault)
    · refine push_inStep hE ?_ hvalue _ _
      exact ⟨hm.stack.drop 2, hm.steps, hm.maxSteps⟩
    · exact ⟨⟨hm.stack.drop 2, hm.steps, hm.maxSteps⟩, .error hfault⟩

/-- A hash of related keys and values. -/
theorem newHash_inStep (hm : m.InStep R n) (size : UInt64) :
    (m.perform env (.newHash size)).InStep E R (n.perform env (.newHash size)) := by
  have hdepth := hm.stack.depth_eq
  by_cases heven : size % 2 = 0
  · rcases Nat.lt_or_ge m.stack.depth size.toNat with hshort | hsize
    · rw [(Performs.hashShort heven hshort).perform_eq,
        (Performs.hashShort heven (hdepth ▸ hshort)).perform_eq, hdepth]
      exact ⟨hm, .error (hE _)⟩
    · rw [perform_newHash heven hsize, perform_newHash heven (hdepth ▸ hsize)]
      have hpairs := forall₂_pairUp (hm.stack.top size.toNat)
      refine push_inStep hE ?_ (henv.buildHash hpairs) _ _
      exact ⟨hm.stack.drop _, hm.steps, hm.maxSteps⟩
  · rw [(Performs.hashOdd heven).perform_eq, (Performs.hashOdd heven).perform_eq]
    exact ⟨hm, .error (hE _)⟩

/-- **An instruction keeps machines in step**, whatever they hold in their caches. -/
theorem perform_inStep (hm : m.InStep R n) (hi : i.InStep R j) :
    (m.perform env i).InStep E R (n.perform env j) := by
  cases hi with
  | literal hi hj hv =>
    rw [perform_literal hi, perform_literal hj]
    exact putObject_inStep hE hm hv
  | same hi =>
    cases i with
    | getConstant name => exact getConstant_inStep hE henv hm name
    | newHash size => exact newHash_inStep hE henv hm size
    | setN index => exact setN_inStep hE hm index
    | nop => exact ⟨hm, .ok rfl⟩
    | setInlineCache token =>
      obtain ⟨hstack, hsteps, hoptions, hok⟩ := setInlineCache_frame m token
      obtain ⟨hstack', hsteps', hoptions', hok'⟩ := setInlineCache_frame n token
      rw [perform, perform]
      refine ⟨⟨?_, ?_, ?_⟩, ?_⟩
      · rw [hstack, hstack']
        exact hm.stack
      · rw [hsteps, hsteps']
        exact hm.steps
      · rw [hoptions, hoptions']
        exact hm.maxSteps
      · rw [hok, hok']
        exact .ok rfl
    | putObject | putOne => cases hi

/-- So does one that pays its step. -/
theorem execute_inStep (hm : m.InStep R n) (hi : i.InStep R j) :
    (m.execute env i).InStep E R (n.execute env j) := by
  rcases mayStep_or_spent m with hstep | ⟨limit, hlimit, hspent⟩
  · have hstep' : n.MayStep := by
      intro limit hlimit
      rw [← hm.steps]
      exact hstep limit (hm.maxSteps ▸ hlimit)
    have hcount : m.stepCount = n.stepCount := UInt64.toNat_inj.1 hm.steps
    have hpaid : m.paid.steps = n.paid.steps := by
      rw [steps, steps, paid, paid, hcount]
    rw [execute_of_mayStep hstep, execute_of_mayStep hstep']
    exact perform_inStep hE henv ⟨hm.stack, hpaid, hm.maxSteps⟩ hi
  · rw [(Executes.refused hlimit hspent).execute_eq,
      (Executes.refused (hm.maxSteps ▸ hlimit) (hm.steps ▸ hspent)).execute_eq]
    exact ⟨hm, .error (hE _)⟩

end Step

/-! ## Runs -/

variable {envs : Nat → Environment} {code code' : List Instruction}

/-- **Machines in step stay so over a run**: of programs in step, and against environments that
respect the relation. -/
theorem run_inStep (hE : ∀ fault, E fault fault) (henvs : ∀ k, (envs k).Respects E R)
    (hm : m.InStep R n) (hcode : List.Forall₂ (Instruction.InStep R) code code') :
    (m.runUnder envs code).InStep E R (n.runUnder envs code') := by
  induction hcode generalizing m n envs with
  | nil => exact ⟨hm, .ok rfl⟩
  | @cons i j code code' hi _ ih =>
    have hfirst := execute_inStep hE (henvs 0) hm hi
    have hresult := hfirst.result
    cases hok : (m.execute (envs 0) i).result with
    | ok =>
      rw [hok] at hresult
      obtain ⟨_, hok', -⟩ := hresult.exists_ok
      rw [run_cons_of_ok hok, run_cons_of_ok hok']
      have hrest := ih (fun k => henvs (k + 1)) hfirst.machine
      exact ⟨hrest.machine, hrest.result⟩
    | error =>
      rw [hok] at hresult
      obtain ⟨_, hfault, -⟩ := hresult.exists_error
      rw [run_cons_of_error hok, run_cons_of_error hfault]
      exact hfirst

/-! ## What a run does not depend on -/

/-- **A run is indifferent to caches and observers.** Of a machine it depends on the stack and on
the steps used and granted alone: machines that have these in common end with the same result, the
same stack and the same steps, also where they stop at a fault, and whatever environment each
instruction finds. -/
theorem run_indifferent (envs : Nat → Environment) (code : List Instruction)
    (hstack : m.stack = n.stack) (hsteps : m.steps = n.steps)
    (hmax : m.options.maxSteps = n.options.maxSteps) :
    (m.runUnder envs code).result = (n.runUnder envs code).result ∧
      (m.runUnder envs code).machine.stack = (n.runUnder envs code).machine.stack ∧
      (m.runUnder envs code).machine.steps = (n.runUnder envs code).machine.steps := by
  have hm : m.InStep Eq n := ⟨hstack ▸ m.stack.related_self fun _ _ => rfl, hsteps, hmax⟩
  have hcode : List.Forall₂ (Instruction.InStep Eq) code code :=
    List.forall₂_same.2 fun i _ => i.inStep_self fun _ _ => rfl
  have hrun := run_inStep (fun _ => rfl) (fun k => (envs k).respects_eq) hm hcode
  exact ⟨hrun.result.eq, hrun.machine.stack.eq, hrun.machine.steps⟩

/-- A machine without a cache or an observer. -/
def plain : Machine := create 0 { maxStackSize := 2 }

/-- A machine with a stack of that limit, where a slot is filled, a constant is pending and someone
observes. -/
def busy : Machine :=
  { create 7 { maxStackSize := 9, inlineCaching := true } with
    stack := .empty 2
    cache := ({} : ConstantCache).store 3 .nil 5
    pending := some ⟨"B", .nil, 1⟩
    observer := some "log" }

/-- Looks a constant up, fills two slots from it and pushes more than fits. -/
def finalising : List Instruction :=
  [.putObject .nil, .putOne, .getConstant "A", .setInlineCache 3, .setInlineCache 4, .putOne,
    .putOne]

/-- The busy machine stops where the plain one does. -/
theorem run_indifferent_busy :
    plain.stack = busy.stack ∧ plain.options.maxSteps = busy.options.maxSteps ∧
      (busy.runUnder (fun _ => .flat [("A", .integer 8)]) finalising).result =
        .error (.stackOverflow 2) ∧
      (busy.runUnder (fun _ => .flat [("A", .integer 8)]) finalising).machine.stack =
        ⟨#[.integer 8, .integer 1], 2⟩ ∧
      (busy.runUnder (fun _ => .flat [("A", .integer 8)]) finalising).machine.steps = 7 := by
  obtain ⟨hresult, hstack, hsteps⟩ :=
    @run_indifferent plain busy (fun _ => .flat [("A", .integer 8)]) finalising rfl rfl rfl
  exact ⟨rfl, rfl, hresult.symm.trans rfl, hstack.symm.trans rfl, hsteps.symm.trans rfl⟩

end Machine

end StackVm
