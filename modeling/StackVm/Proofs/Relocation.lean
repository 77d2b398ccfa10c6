import StackVm.Proofs.VerifiedRun
/-!
# Verified programs are relocatable

A program that was accepted reaches no deeper than the values it pushed itself: whatever lies below
them when it starts stays as it is and is not looked at. `Stack.above` puts values below those of a
stack. Each rule of execution that applies without them applies with them as well, as long as the
stack has room (`Performs.above`), and so the two runs go together instruction by instruction,
through the program or up to the same fault (`run_above`).
-/

namespace StackVm

namespace Stack

variable {s : Stack} {below : List Value}

/-- The stack with values put below its own. -/
def above (s : Stack) (below : List Value) : Stack :=
  { s with slots := below.toArray ++ s.slots }

@[simp]
theorem toList_above (s : Stack) (below : List Value) :
    (s.above below).toList = below ++ s.toList := by
  simp [above, toList]

@[simp]
theorem depth_above (s : Stack) (below : List Value) :
    (s.above below).depth = below.length + s.depth := by
  simp [depth_eq_length]

theorem put_above (s : Stack) (below : List Value) (v : Value) :
    (s.above below).put v = (s.put v).above below :=
  ext_toList (by simp) rfl

/-- The values that are taken are the stack's own, if it has as many. -/
theorem drop_above {count : Nat} (h : count ≤ s.depth) :
    (s.above below).drop count = (s.drop count).above below := by
  refine ext_toList ?_ rfl
  have hleft : below.length + s.depth - count = below.length + (s.depth - count) := by omega
  simp [hleft, List.take_length_add_append]

theorem top_above {count : Nat} (h : count ≤ s.depth) :
    (s.above below).top count = s.top count := by
  have hleft : below.length + s.depth - count = below.length + (s.depth - count) := by omega
  rw [top_eq_drop, top_eq_drop, toList_above, depth_above, hleft, List.drop_length_add_append]

/-- And so is the value that is replaced. -/
theorem replace_above {depth : Nat} (h : depth < s.depth) (v : Value) :
    (s.above below).replace depth v = (s.replace depth v).above below := by
  refine ext_toList ?_ rfl
  have hplace : below.length + s.depth - 1 - depth = below.length + (s.depth - 1 - depth) := by
    omega
  simp [hplace, List.set_append_right]

/-- Values below no others make up the stack alone. -/
theorem clear_above (s : Stack) : s.clear.above s.toList = s :=
  ext_toList (by rw [toList_above]; simp [clear, toList]) rfl

end Stack

/-- A machine with values put below those of its stack. -/
def Machine.above (m : Machine) (below : List Value) : Machine :=
  { m with stack := m.stack.above below }

/-- An outcome with values put below those of the stack that it leaves. -/
def Outcome.above (o : Outcome) (below : List Value) : Outcome :=
  { o with machine := o.machine.above below }

namespace Machine

open Verification

variable {m : Machine} {env : Environment} {i : Instruction} {o : Outcome} {below : List Value}

/-! ## One instruction

The rules that apply where a stack has the values and the room are those of a push, a look-up, a
hash and a copy. Each is shown to apply with values below. -/

theorem depth_above (m : Machine) (below : List Value) :
    (m.above below).stack.depth = below.length + m.stack.depth :=
  Stack.depth_above m.stack below

/-- What lies below a pair is the deeper for the values put below. -/
theorem toList_above_pair {own : List Value} {lower upper : Value}
    (h : m.stack.toList = own ++ [lower, upper]) :
    (m.above below).stack.toList = (below ++ own) ++ [lower, upper] := by
  simp [Machine.above, h]

theorem push_above {v : Value} (hi : i.literal? = some v)
    (hroom : below.length + m.stack.depth < m.stack.limit.toNat) :
    (m.above below).Performs env i
      { machine := { m with stack := (m.stack.put v).above below }
        events := m.announcement i } := by
  rw [← Stack.put_above]
  exact .push hi (Nat.lt_of_le_of_lt (Nat.le_of_eq (m.depth_above below)) hroom)

theorem found_above {name : String} {own : List Value} {scope flag value : Value}
    (hstack : m.stack.toList = own ++ [scope, flag])
    (hlookup : lookup env name scope flag = .ok value)
    (hroom : below.length + own.length < m.stack.limit.toNat) :
    (m.above below).Performs env (.getConstant name)
      { machine := { m with
          stack := ((m.stack.drop 2).put value).above below
          pending := some ⟨name, value, env.serial⟩ } } := by
  have hown := depth_of_pair hstack
  rw [← Stack.put_above, ← Stack.drop_above (by omega)]
  exact .found (toList_above_pair hstack) hlookup (by rwa [List.length_append])

theorem missing_above {name : String} {own : List Value} {scope flag : Value} {fault : Fault}
    (hstack : m.stack.toList = own ++ [scope, flag])
    (hlookup : lookup env name scope flag = .error fault) :
    (m.above below).Performs env (.getConstant name)
      ({ m with stack := (m.stack.drop 2).above below }.fail fault) := by
  have hown := depth_of_pair hstack
  rw [← Stack.drop_above (by omega)]
  exact .missing (toList_above_pair hstack) hlookup

theorem hash_above {size : UInt64} (heven : size % 2 = 0) (hsize : size.toNat ≤ m.stack.depth)
    (hroom : below.length + (m.stack.depth - size.toNat) < m.stack.limit.toNat) :
    (m.above below).Performs env (.newHash size)
      { machine := { m with
          stack := ((m.stack.drop size.toNat).put
            (env.buildHash (pairUp (m.stack.top size.toNat)))).above below } } := by
  have hdepth := m.depth_above below
  rw [← Stack.put_above, ← Stack.drop_above hsize, ← @Stack.top_above _ below _ hsize]
  refine .hash heven (by omega) (Nat.lt_of_le_of_lt ?_ hroom)
  omega

theorem copied_above {index : UInt64} {v : Value} (htop : m.stack.toList.getLast? = some v)
    (hindex : index.toNat < m.stack.depth) :
    (m.above below).Performs env (.setN index)
      { machine := { m with stack := (m.stack.replace index.toNat v).above below } } := by
  have hdepth := m.depth_above below
  rw [← Stack.replace_above hindex]
  exact .copied (by simp [Machine.above, htop]) (by omega)

/-- **A rule that applies on a stack applies on the same with values below it**, if the stack has
what the instruction asks for and there is room for what it leaves. -/
theorem Performs.above (h : m.Performs env i o) (hsmall : m.stack.depth < UInt64.size - 1)
    (hdepth : i.effect.minDepth.toNat ≤ m.stack.depth)
    (hroom : below.length + (m.stack.depth - i.effect.pops.toNat + i.effect.pushes.toNat) ≤
      m.stack.limit.toNat) :
    (m.above below).Performs env i (o.above below) := by
  cases h with
  | push hi _ =>
    rw [Instruction.effect_of_literal hi] at hroom
    exact push_above hi hroom
  | found hstack hlookup _ =>
    have hown := depth_of_pair hstack
    simp only [Instruction.effect, Effect.taking, UInt64.reduceToNat] at hroom
    exact found_above hstack hlookup (by omega)
  | missing hstack hlookup => exact missing_above hstack hlookup
  | hash heven hsize _ => exact hash_above heven hsize hroom
  | hashOdd hodd => exact .hashOdd hodd
  | copied htop hindex => exact copied_above htop hindex
  | nop => exact .nop
  | kept hcaching hpending => exact .kept hcaching hpending
  | notKept hnone => exact .notKept hnone
  -- The stack has room, also without the values below.
  | pushFull hi hfull =>
    rw [Instruction.effect_of_literal hi] at hroom
    simp only [Effect.taking, UInt64.reduceToNat] at hroom
    omega
  | foundFull hstack _ hfull =>
    have hown := depth_of_pair hstack
    simp only [Instruction.effect, Effect.taking, UInt64.reduceToNat] at hroom
    omega
  | hashFull _ _ hfull =>
    simp only [Instruction.effect, Effect.taking, UInt64.reduceToNat] at hroom
    omega
  -- The stack has the values that are asked for.
  | operandsMissing hshort => exact absurd hdepth (Nat.not_le.2 hshort)
  | hashShort _ hshort => exact absurd hdepth (Nat.not_le.2 hshort)
  | copyShort _ hshort =>
    exact absurd ((saturatingSucc_le_iff hsmall).1 hdepth) (Nat.not_lt.2 hshort)
  | copyEmpty hempty =>
    have hindex := (saturatingSucc_le_iff hsmall).1 hdepth
    omega

/-- So it is with the step that an instruction pays. -/
theorem Executes.above (h : m.Executes env i o) (hsmall : m.stack.depth < UInt64.size - 1)
    (hdepth : i.effect.minDepth.toNat ≤ m.stack.depth)
    (hroom : below.length + (m.stack.depth - i.effect.pops.toNat + i.effect.pushes.toNat) ≤
      m.stack.limit.toNat) :
    (m.above below).Executes env i (o.above below) := by
  cases h with
  | granted hstep hrun => exact .granted hstep (hrun.above hsmall hdepth hroom)
  | refused hlimit hspent => exact .refused hlimit hspent

/-! ## Runs -/

variable {envs : Nat → Environment} {code : List Instruction}
variable {position : Nat} {depth greatest top : UInt64}

/-- **The runs of an accepted program with and without values below go together**, if the stack has
room for both. -/
theorem run_above (hcheck : checkDepths position depth greatest code = .ok top)
    (hbound : depth ≤ heightBound) (hdepth : m.stack.depth = depth.toNat)
    (hroom : below.length + top.toNat ≤ m.stack.limit.toNat) :
    (m.above below).runUnder envs code = (m.runUnder envs code).above below := by
  -- On the program: each instruction leaves the depth that was computed, so the next may be
  -- compared in the same way.
  induction code generalizing m envs position depth greatest with
  | nil => rfl
  | cons i code ih =>
    obtain ⟨hmin, hnext, hrest⟩ := checkDepths_cons hcheck
    have hexec := executes_execute m (envs 0) i
    have hafter := toNat_nextDepth hmin hbound
    have htop : (nextDepth depth i).toNat ≤ top.toNat :=
      UInt64.le_iff_toNat_le.1 (UInt64.le_trans (le_max _ _).2 (greatest_le hrest))
    have hstep : (m.above below).execute (envs 0) i = (m.execute (envs 0) i).above below := by
      refine (hexec.above ?_ ?_ ?_).execute_eq
      · rw [hdepth]
        exact toNat_lt_of_le_heightBound hbound
      · rw [hdepth]
        exact UInt64.le_iff_toNat_le.1 hmin
      · rw [hdepth]
        omega
    cases hresult : (m.execute (envs 0) i).result with
    | error fault =>
      have hresult' : ((m.above below).execute (envs 0) i).result = .error fault := by
        rw [hstep]
        exact hresult
      rw [run_cons_of_error hresult, run_cons_of_error hresult', hstep]
    | ok =>
      have hresult' : ((m.above below).execute (envs 0) i).result = .ok () := by
        rw [hstep]
        exact hresult
      have hdepth' : (m.execute (envs 0) i).machine.stack.depth = (nextDepth depth i).toNat := by
        rw [hexec.depth_eq hresult, hafter, hdepth]
      have hroom' : below.length + top.toNat ≤
          (m.execute (envs 0) i).machine.stack.limit.toNat := by
        rw [hexec.frame.2.2]
        exact hroom
      rw [run_cons_of_ok hresult, run_cons_of_ok hresult', hstep]
      exact congrArg _ (ih hrest hnext hdepth' hroom')

/-- **Verified programs are relocatable.** Let a program be accepted with a greatest depth, and let
the stack of a machine have room for as many values on top of those it holds. Then the program does
on it what it does on the same machine with an empty stack: it ends with the same result and tells
the observer the same, what the stack held lies unchanged below what the program leaves, and the
rest of the machine is the same. -/
theorem run_relocated (envs : Nat → Environment) (hcheck : check code = .ok top)
    (hroom : m.stack.depth + top.toNat ≤ m.stack.limit.toNat) :
    let here := m.runUnder envs code
    let apart := { m with stack := m.stack.clear }.runUnder envs code
    here.result = apart.result ∧
      here.machine.stack.toList = m.stack.toList ++ apart.machine.stack.toList ∧
      here.machine = { apart.machine with stack := here.machine.stack } ∧
      here.events = apart.events := by
  have hrun : m.runUnder envs code =
      ({ m with stack := m.stack.clear }.runUnder envs code).above m.stack.toList := by
    have habove : { m with stack := m.stack.clear }.above m.stack.toList = m := by
      rw [Machine.above, Stack.clear_above]
    rw [← run_above (check_eq_ok hcheck).2 (by decide) rfl (by rwa [← Stack.depth_eq_length]),
      habove]
  simp only [hrun]
  exact ⟨rfl, Stack.toList_above _ _, rfl, rfl⟩

/-! ## A stack in use -/

/-- A machine whose stack holds two values and has room for three more. -/
def laden : Machine :=
  { create 0 { maxStackSize := 5 } with stack := ⟨#[.symbol "x", .nil], 5⟩ }

/-- A copy, a hash and a look-up, above a value that they leave alone. -/
def copying : List Instruction :=
  [.putOne, .putOne, .putObject .nil, .setN 1, .newHash 2, .putObject (.bool true),
    .getConstant "A"]

/-- Where the look-up fails, the two values stay, and above them lies what was left at that
point. -/
theorem run_relocated_laden :
    check copying = .ok 3 ∧
      (laden.runUnder (fun _ => .flat [("B", .nil)]) copying).result =
        .error (.uninitializedConstant "A") ∧
      (laden.runUnder (fun _ => .flat [("B", .nil)]) copying).machine.stack.toList =
        [.symbol "x", .nil, .integer 1] ∧
      (laden.runUnder (fun _ => .flat [("B", .nil)]) copying).machine.steps = 7 := by
  obtain ⟨hresult, hstack, hmachine, -⟩ :=
    @run_relocated laden copying 3 (fun _ => .flat [("B", .nil)]) rfl (by decide)
  exact ⟨rfl, hresult.trans rfl, hstack.trans rfl, (congrArg Machine.steps hmachine).trans rfl⟩

end Machine

end StackVm
