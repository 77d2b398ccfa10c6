import StackVm.Proofs.RefusedRun
/-!
# Line events mirror pushes

The observer is told of a literal before it is pushed, and only once there is room for it. So an
instruction that succeeds has told of itself if it is one that announces its line, and one that
fails has told nothing (`Performs.told`). In a run the observer stays the same, and is told of the
instructions that succeed, in their order: of all of them if the run succeeds (`told_run`), and
otherwise of those before the one that fails (`StopsAt.told`).
-/

namespace StackVm

/-- The line events of a program all of whose instructions succeed. -/
def lineEvents (code : List Instruction) : List Event :=
  (code.filter Instruction.announcesLine).map fun i => .line i.mnemonic

theorem lineEvents_append (before after : List Instruction) :
    lineEvents (before ++ after) = lineEvents before ++ lineEvents after := by
  rw [lineEvents, List.filter_append, List.map_append]
  rfl

namespace Machine

variable {m : Machine} {env : Environment} {envs : Nat → Environment} {i : Instruction}
variable {o : Outcome} {code : List Instruction} {position : Nat} {fault : Fault}

/-- What the observer is told if the instructions of a program all succeed. -/
def told (m : Machine) (code : List Instruction) : List Event :=
  if m.isObserved then lineEvents code else []

theorem told_append (m : Machine) (before after : List Instruction) :
    m.told (before ++ after) = m.told before ++ m.told after := by
  unfold told
  split
  · exact lineEvents_append before after
  · rfl

/-! ## One instruction -/

/-- What the others would tell is nothing. -/
theorem told_of_silent (m : Machine) (hi : i.announcesLine = false) : m.told [i] = [] := by
  simp [told, lineEvents, hi]

/-- **An instruction that succeeds has told of itself, and one that fails has told nothing.** -/
theorem Performs.told (h : m.Performs env i o) :
    (o.result = .ok () → o.events = m.told [i]) ∧ ∀ fault, o.result = .error fault →
      o.events = [] := by
  cases h with
  | push hi _ =>
    refine ⟨fun _ => ?_, by rintro _ ⟨⟩⟩
    simp [announcement, emit, Machine.told, lineEvents, Instruction.announcesLine_of_literal hi]
  | found | hash | copied | nop | kept | notKept =>
    exact ⟨fun _ => (told_of_silent m rfl).symm, by rintro _ ⟨⟩⟩
  | pushFull | foundFull | missing | operandsMissing | hashFull | hashShort | hashOdd | copyShort
  | copyEmpty => exact ⟨by rintro ⟨⟩, fun _ _ => rfl⟩

/-- The same for an instruction that pays its step. -/
theorem Executes.told (h : m.Executes env i o) :
    (o.result = .ok () → o.events = m.told [i]) ∧ ∀ fault, o.result = .error fault →
      o.events = [] := by
  cases h with
  | granted _ hrun => exact hrun.told
  | refused => exact ⟨by rintro ⟨⟩, fun _ _ => rfl⟩

/-- No instruction changes who is told, or whether anyone is. -/
theorem Executes.isObserved (h : m.Executes env i o) : o.machine.isObserved = m.isObserved := by
  have hobserver : o.machine.observer = m.observer := by
    cases h with
    | granted _ hrun => cases hrun <;> rfl
    | refused => rfl
  rw [Machine.isObserved, Machine.isObserved, h.frame.1, hobserver]

/-! ## Runs -/

/-- **A run that succeeds has told of all its instructions.** -/
theorem told_run (hok : (m.runUnder envs code).result = .ok ()) :
    (m.runUnder envs code).events = m.told code := by
  induction code generalizing m envs with
  | nil => simp [told, lineEvents]
  | cons i code ih =>
    have hfirst := execute_ok_of_run hok
    have hrule := executes_execute m (envs 0) i
    have hsame : (m.execute (envs 0) i).machine.told code = m.told code := by
      rw [told, told, hrule.isObserved]
    rw [result_run_cons hfirst] at hok
    rw [run_cons_of_ok hfirst, Outcome.andThen, ← List.singleton_append, told_append,
      hrule.told.1 hfirst, ih hok, hsame]

/-- **A run that stops has told of the instructions before the one that fails.** -/
theorem StopsAt.told (h : m.StopsAt envs code position fault) :
    (m.runUnder envs code).events = m.told (code.take position) := by
  obtain ⟨before, i, after, rfl, rfl, hok, hfault⟩ := h
  have hfirst : ((m.runUnder envs before).machine.execute (later envs before.length 0) i).result =
      .error fault := by
    rw [later, Nat.zero_add]
    exact hfault
  rw [run_append hok, run_cons_of_error hfirst, Outcome.andThen, List.take_left, told_run hok,
    (executes_execute _ _ _).told.2 fault hfirst, List.append_nil]

/-- **Line events mirror the pushes that succeed.** Let a machine have an observer. With line events
on, the observer of a run is told once of each literal that was pushed, by the name of its
instruction and in order: of those of the whole program if the run succeeds, and of those before the
instruction that fails if it stops there, as every other run does. With line events off, the
observer is told nothing. And whatever the options, an instruction that tells something pushes a
literal and succeeds. -/
theorem events_mirror_pushes (m : Machine) (envs : Nat → Environment) (code : List Instruction) :
    (m.observer.isSome = true → m.options.traceLines = true →
      ((m.runUnder envs code).result = .ok () →
        (m.runUnder envs code).events = lineEvents code) ∧
      (∀ position fault, m.StopsAt envs code position fault →
        (m.runUnder envs code).events = lineEvents (code.take position)) ∧
      ∀ fault, (m.runUnder envs code).result = .error fault →
        ∃ position < code.length, m.StopsAt envs code position fault) ∧
    (m.options.traceLines = false → (m.runUnder envs code).events = []) ∧
    ∀ env i, (m.execute env i).events ≠ [] →
      (m.execute env i).result = .ok () ∧ i.announcesLine = true := by
  refine ⟨?_, ?_, ?_⟩
  · intro hobserver hlines
    have htold : ∀ code, m.told code = lineEvents code := fun code => by
      simp [told, Machine.isObserved, hobserver, hlines]
    refine ⟨fun hok => ?_, fun position fault hstops => ?_, fun fault => exists_stopsAt⟩
    · rw [told_run hok, htold]
    · rw [hstops.told, htold]
  · intro hlines
    have htold : ∀ code, m.told code = [] := fun code => by
      simp [told, Machine.isObserved, hlines]
    cases hresult : (m.runUnder envs code).result with
    | ok => rw [told_run hresult, htold]
    | error fault =>
      obtain ⟨position, -, hstops⟩ := exists_stopsAt hresult
      rw [hstops.told, htold]
  · intro env i hevents
    obtain ⟨hsucceeds, hfails⟩ := (executes_execute m env i).told
    cases hresult : (m.execute env i).result with
    | error fault => exact absurd (hfails fault hresult) hevents
    | ok =>
      refine ⟨rfl, ?_⟩
      by_contra hsilent
      rw [hsucceeds hresult, told_of_silent m (by simpa using hsilent)] at hevents
      exact hevents rfl

/-- A machine with an observer and room for two values. -/
def watched (lines : Bool) : Machine :=
  { create 0 { maxStackSize := 2, traceLines := lines } with observer := some "log" }

/-- Two literals are pushed and the third does not fit; the observer is told of two, and of none
with line events off. -/
theorem events_mirror_pushes_watched :
    (watched true).StopsAt (fun _ => .flat [])
        [.putObject .nil, .nop, .putOne, .putOne] 3 (.stackOverflow 2) ∧
      ((watched true).runUnder (fun _ => .flat [])
        [.putObject .nil, .nop, .putOne, .putOne]).events =
          [.line "putobject", .line "putobject_INT2FIX_1_"] ∧
      ((watched false).runUnder (fun _ => .flat [])
        [.putObject .nil, .nop, .putOne, .putOne]).events = [] := by
  have hstops : (watched true).StopsAt (fun _ => .flat [])
      [.putObject .nil, .nop, .putOne, .putOne] 3 (.stackOverflow 2) :=
    ⟨[.putObject .nil, .nop, .putOne], .putOne, [], rfl, rfl, rfl, rfl⟩
  refine ⟨hstops, ?_, ?_⟩
  · exact ((events_mirror_pushes (watched true) _ _).1 rfl rfl).2.1 3 _ hstops
  · exact (events_mirror_pushes (watched false) _ _).2.1 rfl

end Machine

end StackVm
