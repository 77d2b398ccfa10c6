import StackVm.Instruction.Verification
import StackVm.Machine.Execution
/-!
# The forms of a literal one

The integer one can be pushed as a literal or by an instruction of its own. `Instruction.compact`
picks the second form and `Instruction.expand` the first, and a program can be put into either: no
run and no verification tells it apart from what it was (`Interchangeable`), but for the names of
its instructions in what an observer is told. Everything is shown of `expand`; the short form of a
program expands to the same program, so the rest follows.
-/

namespace StackVm

namespace Instruction

variable (i : Instruction)

/-- The short form expands to what the instruction expands to. -/
theorem expand_compact : i.compact.expand = i.expand := by
  unfold compact
  split
  · rename_i n
    split
    · rename_i hone
      rw [hone]
      rfl
    · rfl
  · rfl

/-- And the other way round. -/
theorem compact_expand : i.expand.compact = i.compact := by
  cases i <;> rfl

/-- No short form spells the one out. -/
theorem compact_ne : i.compact ≠ .putObject (.integer 1) := by
  unfold compact
  split
  · rename_i n
    split
    · exact fun h => nomatch h
    · rename_i hone
      intro h
      injection h with h
      injection h with h
      exact hone h
  · rename_i hother
    exact hother 1

/-- No expanded form has the instruction for it. -/
theorem expand_ne : i.expand ≠ .putOne := by
  cases i <;> exact fun h => nomatch h

theorem effect_expand : i.expand.effect = i.effect := by
  cases i <;> rfl

end Instruction

open Instruction

/-! ## Verification -/

namespace Verification

theorem checkSizes_expand (position : Nat) (code : List Instruction) :
    checkSizes position (code.map expand) = checkSizes position code := by
  induction code generalizing position with
  | nil => rfl
  | cons i code ih =>
    cases i with
    | newHash size => simp only [List.map_cons, expand, checkSizes, ih]
    | _ => exact ih (position + 1)

theorem checkDepths_expand (position : Nat) (depth greatest : UInt64) (code : List Instruction) :
    checkDepths position depth greatest (code.map expand) =
      checkDepths position depth greatest code := by
  induction code generalizing position depth greatest with
  | nil => rfl
  | cons i code ih =>
    have hnext : nextDepth depth i.expand = nextDepth depth i := by
      rw [nextDepth, nextDepth, effect_expand]
    rw [List.map_cons, checkDepths, checkDepths, hnext, effect_expand]
    simp only [ih]

/-- **Verification does not tell the forms apart.** -/
theorem check_expand (code : List Instruction) : check (code.map expand) = check code := by
  rw [check, check, checkSizes_expand, checkDepths_expand]

end Verification

/-! ## Runs -/

namespace Machine

/-- Instructions that both announce their lines tell the observer as often. -/
theorem length_announcement (m : Machine) {i j : Instruction}
    (h : i.announcesLine = j.announcesLine) :
    (m.announcement i).length = (m.announcement j).length := by
  unfold announcement emit
  rw [h]
  cases j.announcesLine <;> cases m.isObserved <;> rfl

/-- The instruction that a literal is announced by changes nothing else. -/
theorem putObject_rename (m : Machine) {i j : Instruction}
    (h : i.announcesLine = j.announcesLine) (v : Value) :
    (m.putObject i v).machine = (m.putObject j v).machine ∧
      (m.putObject i v).result = (m.putObject j v).result ∧
      (m.putObject i v).events.length = (m.putObject j v).events.length := by
  unfold putObject push
  cases m.stack.checkRoom with
  | error => exact ⟨rfl, rfl, rfl⟩
  | ok => exact ⟨rfl, rfl, m.length_announcement h⟩

/-- **An instruction in its expanded form does what it did**, and tells the observer as often. -/
theorem execute_expand (m : Machine) (env : Environment) (i : Instruction) :
    (m.execute env i.expand).machine = (m.execute env i).machine ∧
      (m.execute env i.expand).result = (m.execute env i).result ∧
      (m.execute env i.expand).events.length = (m.execute env i).events.length := by
  cases i with
  | putOne =>
    unfold execute
    cases m.spendStep with
    | error => exact ⟨rfl, rfl, rfl⟩
    | ok m =>
      have hlines : (Instruction.putObject (.integer 1)).announcesLine = putOne.announcesLine := rfl
      exact m.putObject_rename hlines (.integer 1)
  | _ => exact ⟨rfl, rfl, rfl⟩

/-- **A program in its expanded form runs as it did.** -/
theorem runUnder_expand (m : Machine) (envs : Nat → Environment) (code : List Instruction) :
    (m.runUnder envs (code.map expand)).machine = (m.runUnder envs code).machine ∧
      (m.runUnder envs (code.map expand)).result = (m.runUnder envs code).result := by
  induction code generalizing m envs with
  | nil => exact ⟨rfl, rfl⟩
  | cons i code ih =>
    obtain ⟨hmachine, hresult, -⟩ := execute_expand m (envs 0) i
    rw [List.map_cons, runUnder_cons, runUnder_cons, hmachine, hresult]
    cases hfirst : (m.execute (envs 0) i).result with
    | ok => exact ih _ _
    | error => exact ⟨hmachine, hresult⟩

/-- What the observer is told in a run from a position on, each event with the position of the
instruction that announced it. -/
def traceFrom (position : Nat) (m : Machine) (envs : Nat → Environment) :
    List Instruction → List (Nat × Event)
  | [] => []
  | i :: rest =>
    let outcome := m.execute (envs position) i
    outcome.events.map (position, ·) ++
      match outcome.result with
      | .ok _ => outcome.machine.traceFrom (position + 1) envs rest
      | .error _ => []

/-- What the observer is told in a run, and where. -/
def trace (m : Machine) (envs : Nat → Environment) (code : List Instruction) : List (Nat × Event) :=
  m.traceFrom 0 envs code

/-- The events of the trace are those of the run. -/
theorem events_runFrom (told : List Event) (position : Nat) (m : Machine)
    (envs : Nat → Environment) (code : List Instruction) :
    (m.runFrom told position envs code).events =
      told.reverse ++ (m.traceFrom position envs code).map Prod.snd := by
  induction code generalizing told position m with
  | nil => simp [runFrom, traceFrom]
  | cons i code ih =>
    simp only [runFrom, traceFrom]
    cases (m.execute (envs position) i).result with
    | ok => simp [ih, Function.comp_def]
    | error => simp [Function.comp_def]

/-- **An expanded program is announced at the same positions.** -/
theorem positions_expand (position : Nat) (m : Machine) (envs : Nat → Environment)
    (code : List Instruction) :
    (m.traceFrom position envs (code.map expand)).map Prod.fst =
      (m.traceFrom position envs code).map Prod.fst := by
  induction code generalizing position m with
  | nil => rfl
  | cons i code ih =>
    obtain ⟨hmachine, hresult, hevents⟩ := execute_expand m (envs position) i
    simp only [List.map_cons, traceFrom, List.map_append, List.map_map, Function.comp_def,
      List.map_const', hmachine, hresult, hevents]
    cases (m.execute (envs position) i).result with
    | ok => rw [ih]
    | error => rfl

end Machine

/-! ## Whole programs -/

/-- Nothing but the names of instructions tells two programs apart: verification gives the same
answer on both, and on every machine, whatever environments they find, they have the same result,
leave the same machine, and tell the observer the same number of times and at the same positions. -/
structure Interchangeable (code code' : List Instruction) : Prop where
  check : Verification.check code = Verification.check code'
  result : ∀ (m : Machine) envs, (m.runUnder envs code).result = (m.runUnder envs code').result
  machine : ∀ (m : Machine) envs, (m.runUnder envs code).machine = (m.runUnder envs code').machine
  told : ∀ (m : Machine) envs,
    (m.runUnder envs code).events.length = (m.runUnder envs code').events.length
  positions : ∀ (m : Machine) envs,
    (m.trace envs code).map Prod.fst = (m.trace envs code').map Prod.fst

namespace Interchangeable

variable {code code' code'' : List Instruction}

theorem symm (h : Interchangeable code code') : Interchangeable code' code where
  check := h.check.symm
  result m envs := (h.result m envs).symm
  machine m envs := (h.machine m envs).symm
  told m envs := (h.told m envs).symm
  positions m envs := (h.positions m envs).symm

theorem trans (h : Interchangeable code code') (h' : Interchangeable code' code'') :
    Interchangeable code code'' where
  check := h.check.trans h'.check
  result m envs := (h.result m envs).trans (h'.result m envs)
  machine m envs := (h.machine m envs).trans (h'.machine m envs)
  told m envs := (h.told m envs).trans (h'.told m envs)
  positions m envs := (h.positions m envs).trans (h'.positions m envs)

/-- A program can be expanded. -/
theorem map_expand (code : List Instruction) : Interchangeable (code.map expand) code where
  check := Verification.check_expand code
  result m envs := (m.runUnder_expand envs code).2
  machine m envs := (m.runUnder_expand envs code).1
  told m envs := by
    have hpositions := congrArg List.length (m.positions_expand 0 envs code)
    simpa [Machine.runUnder, Machine.events_runFrom] using hpositions
  positions m envs := m.positions_expand 0 envs code

/-- And put into its short form, which expands to the same. -/
theorem map_compact (code : List Instruction) : Interchangeable (code.map compact) code := by
  have hshort := map_expand (code.map compact)
  have hsame : (code.map compact).map expand = code.map expand := by
    simp [Function.comp_def, expand_compact]
  rw [hsame] at hshort
  exact hshort.symm.trans (map_expand code)

end Interchangeable

/-- **The form of a literal one does not matter.** A program, its short form and its expanded form
are interchangeable. Each form of an instruction is the same from either of its forms; no short form
spells the one out, and no expanded form has the instruction for it. -/
theorem operand_forms (code : List Instruction) :
    Interchangeable (code.map compact) code ∧ Interchangeable (code.map expand) code ∧
      ∀ i : Instruction, i.compact.expand = i.expand ∧ i.expand.compact = i.compact ∧
        i.compact ≠ .putObject (.integer 1) ∧ i.expand ≠ .putOne :=
  ⟨.map_compact code, .map_expand code, fun i =>
    ⟨i.expand_compact, i.compact_expand, i.compact_ne, i.expand_ne⟩⟩

end StackVm
