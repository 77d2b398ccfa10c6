import StackVm.Proofs.Registry
/-!
# Constants by the history of their definitions

What a constant is can be read off the history of a class table, without the table. A definition
binds a name in a class; of the bindings of a name in one class the latest counts, and of the
classes that a scope is searched in the first that ever bound the name. `DefinitionLog` lists the
bindings of a history, and `DefinitionLog.Answers` says what a look-up has to answer by them. The
table keeps its constants under identifiers of classes, which tell classes apart as long as there
are enough of them, so that it holds just what the log has as the latest (`own?_eq_some_iff`).
-/

namespace StackVm

/-- A name bound to a value in a class or module. -/
structure Binding where
  /-- The class or module that holds the name. -/
  owner : ClassHandle
  /-- The name. -/
  name : String
  /-- The value. -/
  value : Value

/-- Bindings in the order in which they were made. -/
abbrev DefinitionLog := List Binding

namespace DefinitionLog

variable {log : DefinitionLog} {b : Binding} {c : ClassHandle} {name : String} {v : Value}

/-- The last binding of a kind in a log has a value. -/
def LastOf (log : DefinitionLog) (P : Binding → Prop) (v : Value) : Prop :=
  ∃ earlier b later, log = earlier ++ b :: later ∧ P b ∧ b.value = v ∧ ∀ b' ∈ later, ¬ P b'

/-- A log binds a name in a class, now or earlier. -/
def Binds (log : DefinitionLog) (c : ClassHandle) (name : String) : Prop :=
  ∃ b ∈ log, b.owner = c ∧ b.name = name

instance : Decidable (log.Binds c name) :=
  inferInstanceAs (Decidable (∃ b ∈ log, b.owner = c ∧ b.name = name))

/-- The latest binding of a name in a class is to a value. -/
def Latest (log : DefinitionLog) (c : ClassHandle) (name : String) (v : Value) : Prop :=
  log.LastOf (fun b => b.owner = c ∧ b.name = name) v

/-- The first class of a path in which a log binds a name has it bound to a value. -/
def Finds (log : DefinitionLog) (path : List ClassHandle) (name : String) (v : Value) : Prop :=
  ∃ before c after, path = before ++ c :: after ∧ (∀ a ∈ before, ¬ log.Binds a name) ∧
    log.Latest c name v

/-- What a look-up of a name along a path of classes answers by a log. It finds a value if one of
the classes ever bound the name, namely that of the latest binding in the first such class;
otherwise it reports a missing constant. -/
structure Answers (log : DefinitionLog) (path : List ClassHandle) (name reported : String)
    (answer : Except LookupError Value) : Prop where
  /-- There is an answer if a class of the path ever bound the name. -/
  ok_iff : (∃ v, answer = .ok v) ↔ ∃ c ∈ path, log.Binds c name
  /-- The answer is the latest value in the first such class. -/
  eq_ok_iff : ∀ v, answer = .ok v ↔ log.Finds path name v
  /-- If there is none, the missing constant is reported. -/
  missing : (∀ c ∈ path, ¬ log.Binds c name) → answer = .error (.constantNotFound reported)

/-! ## The last binding -/

variable {P Q : Binding → Prop}

/-- The last binding of a kind is the first that is met from the end. -/
theorem lastOf_iff [DecidablePred P] :
    log.LastOf P v ↔ (log.reverse.find? P).map Binding.value = some v := by
  simp only [Option.map_eq_some_iff, find?_reverse_eq_some_iff, decide_eq_true_eq]
  constructor
  · rintro ⟨earlier, b, later, hlog, hb, hv, hlater⟩
    exact ⟨b, ⟨hb, earlier, later, hlog, hlater⟩, hv⟩
  · rintro ⟨b, ⟨hb, earlier, later, hlog, hlater⟩, hv⟩
    exact ⟨earlier, b, later, hlog, hb, hv, hlater⟩

/-- A new binding is the last of its kinds, and no other. -/
theorem lastOf_concat [DecidablePred P] :
    LastOf (log ++ [b]) P v ↔ if P b then b.value = v else log.LastOf P v := by
  rw [lastOf_iff, List.reverse_concat, List.find?_cons]
  by_cases hb : P b
  · simp [hb]
  · simp [hb, lastOf_iff]

/-- A log has a last binding of a kind if it has one at all. -/
theorem exists_lastOf_iff [DecidablePred P] : (∃ v, log.LastOf P v) ↔ ∃ b ∈ log, P b := by
  simp only [lastOf_iff, ← Option.isSome_iff_exists, Option.isSome_map, List.find?_isSome]
  simp

/-- Kinds that are the same in a log have the same last binding. -/
theorem LastOf.congr (h : log.LastOf P v) (hsame : ∀ b ∈ log, P b ↔ Q b) : log.LastOf Q v := by
  obtain ⟨earlier, b, later, rfl, hb, hv, hlater⟩ := h
  refine ⟨earlier, b, later, rfl, (hsame b (by simp)).1 hb, hv, ?_⟩
  intro b' hb' hQ
  exact hlater b' hb' ((hsame b' (by simp [hb'])).2 hQ)

/-- So a name is bound in a class just when it has a latest binding there. -/
theorem exists_latest_iff : (∃ v, log.Latest c name v) ↔ log.Binds c name :=
  exists_lastOf_iff

end DefinitionLog

namespace ClassTable

open DefinitionLog

variable {t : ClassTable} {history : List Definition} {d : Definition} {c : ClassHandle}
variable {log : DefinitionLog} {name : String} {v : Value}

/-! ## The log of a history -/

/-- The binding that a definition makes. A class or module that it defines is bound in its
namespace. -/
def binding (t : ClassTable) : Definition → Binding
  | .ofClass name superclass space =>
    ⟨space.getD object, name, .classHandle (t.defineClass name superclass space).1⟩
  | .ofModule name space => ⟨space.getD object, name, .classHandle (t.defineModule name space).1⟩
  | .ofConstant owner name value => ⟨owner, name, value⟩
  | .ofGlobal name value => ⟨object, name, value⟩

/-- The bindings that a history makes, from a class table on. -/
def bindings (t : ClassTable) : List Definition → DefinitionLog
  | [] => []
  | d :: rest => t.binding d :: (t.define d).bindings rest

/-- The core classes are bound at the top level. -/
def coreBindings : DefinitionLog := coreClasses.map fun c => ⟨object, c.name, .classHandle c⟩

theorem bindings_concat (t : ClassTable) (history : List Definition) (d : Definition) :
    t.bindings (history ++ [d]) = t.bindings history ++ [(t.after history).binding d] := by
  induction history generalizing t with
  | nil => rfl
  | cons first rest ih =>
    rw [List.cons_append, bindings, ih, bindings, List.cons_append]
    rfl

/-- A definition binds in `Object` or in a class that it refers to. -/
theorem owner_binding (t : ClassTable) (d : Definition) :
    (t.binding d).owner = object ∨ (t.binding d).owner ∈ d.handles := by
  cases d with
  | ofConstant owner name value => exact .inr (by simp [binding, Definition.handles])
  | ofGlobal name value => exact .inl rfl
  | ofClass _ _ space | ofModule _ space =>
    cases space with
    | none => exact .inl rfl
    | some space => exact .inr (by simp [binding, Definition.handles])

/-- All bindings of a history are in classes of the table that it made. -/
theorem owner_mem_classes (h : core.RefersWithin history) :
    ∀ b ∈ coreBindings ++ core.bindings history, b.owner ∈ (core.after history).classes := by
  induction history using List.reverseRecOn with
  | nil =>
    intro b hb
    obtain ⟨c, -, rfl⟩ : ∃ c ∈ coreClasses, ⟨object, c.name, .classHandle c⟩ = b := by
      simpa [bindings, coreBindings] using hb
    exact registered_core.object_mem
  | append_singleton history d ih =>
    obtain ⟨hbefore, hrefers⟩ := h.of_concat
    intro b hb
    rw [bindings_concat, ← List.append_assoc] at hb
    rw [after_concat]
    refine mem_classes_define ?_
    rcases List.mem_append.1 hb with hold | hnew
    · exact ih hbefore b hold
    · obtain rfl := List.mem_singleton.1 hnew
      rcases owner_binding (core.after history) d with howner | howner
      · rw [howner]
        exact (registered_after hbefore).object_mem
      · exact hrefers _ howner

/-! ## What the table holds -/

/-- A table of constants holds the latest bindings of a log, by the identifiers of their owners. -/
def Holds (constants : Std.HashMap (UInt32 × String) Value) (log : DefinitionLog) : Prop :=
  ∀ id name v, constants[(id, name)]? = some v ↔
    log.LastOf (fun b => b.owner.id = id ∧ b.name = name) v

/-- **An insertion is one more binding.** -/
theorem Holds.insert {constants : Std.HashMap (UInt32 × String) Value} (h : Holds constants log)
    (b : Binding) : Holds (constants.insert (b.owner.id, b.name) b.value) (log ++ [b]) := by
  intro id name v
  rw [lastOf_concat, Std.HashMap.getElem?_insert, ← h id name v]
  by_cases hb : b.owner.id = id ∧ b.name = name <;> simp [hb]

/-- The core table holds its classes. -/
theorem holds_core : Holds core.constants coreBindings := by
  unfold core coreBindings
  induction coreClasses using List.reverseRecOn with
  | nil => intro id name v; simp [LastOf]
  | append_singleton classes c ih =>
    rw [List.foldl_concat, List.map_append]
    exact ih.insert ⟨object, c.name, .classHandle c⟩

/-- Every definition is the insertion of its binding. -/
theorem constants_define (t : ClassTable) (d : Definition) :
    (t.define d).constants =
      t.constants.insert ((t.binding d).owner.id, (t.binding d).name) (t.binding d).value := by
  cases d <;> rfl

/-- **After a history the table holds the latest bindings of its log.** -/
theorem holds_after (history : List Definition) :
    Holds (core.after history).constants (coreBindings ++ core.bindings history) := by
  induction history using List.reverseRecOn with
  | nil => simpa [bindings] using holds_core
  | append_singleton history d ih =>
    rw [bindings_concat, ← List.append_assoc, after_concat, constants_define]
    exact ih.insert _

/-! ## Look-up by the log -/

/-- **A class of the table binds a name to the value of its latest definition there.** -/
theorem own?_eq_some_iff (hrefers : core.RefersWithin history)
    (hfew : (core.after history).classes.size < UInt32.size)
    (hc : c ∈ (core.after history).classes) :
    (core.after history).own? c.toClassHeader name = some v ↔
      Latest (coreBindings ++ core.bindings history) c name v := by
  -- The owners are classes of the table as well, which their identifiers tell apart.
  have hsame : ∀ b ∈ coreBindings ++ core.bindings history,
      b.owner.id = c.id ∧ b.name = name ↔ b.owner = c ∧ b.name = name := by
    intro b hb
    refine and_congr_left fun _ => ⟨?_, fun howner => by rw [howner]⟩
    exact (registered_after hrefers).eq_of_id_eq (Nat.le_of_lt hfew)
      (owner_mem_classes hrefers b hb) hc
  rw [own?, holds_after history]
  exact ⟨fun h => h.congr hsame, fun h => h.congr fun b hb => (hsame b hb).symm⟩

section

variable {path : List ClassHandle}
variable (hown : ∀ c ∈ path, ∀ v, t.own? c.toClassHeader name = some v ↔ log.Latest c name v)
include hown

/-- Classes without a value of a name are those that never bound it. -/
theorem own?_eq_none_iff (hc : c ∈ path) :
    t.own? c.toClassHeader name = none ↔ ¬ log.Binds c name := by
  rw [← exists_latest_iff, Option.eq_none_iff_forall_ne_some, not_exists]
  exact forall_congr' fun v => not_congr (hown c hc v)

/-- The first class that has a value of a name is the first that ever bound it. -/
theorem findSome?_own?_eq_some_iff :
    (path.findSome? fun c => t.own? c.toClassHeader name) = some v ↔ log.Finds path name v := by
  rw [List.findSome?_eq_some_iff]
  constructor
  · rintro ⟨before, c, after, rfl, hc, hbefore⟩
    refine ⟨before, c, after, rfl, fun a ha => ?_, (hown c (by simp) v).1 hc⟩
    exact (own?_eq_none_iff hown (by simp [ha])).1 (hbefore a ha)
  · rintro ⟨before, c, after, rfl, hbefore, hc⟩
    refine ⟨before, c, after, rfl, (hown c (by simp) v).2 hc, fun a ha => ?_⟩
    exact (own?_eq_none_iff hown (by simp [ha])).2 (hbefore a ha)

/-- A path without a value of a name is one whose classes never bound it. -/
theorem findSome?_own?_eq_none_iff :
    (path.findSome? fun c => t.own? c.toClassHeader name) = none ↔
      ∀ c ∈ path, ¬ log.Binds c name := by
  rw [List.findSome?_eq_none_iff]
  exact forall₂_congr fun c hc => own?_eq_none_iff hown hc

/-- **A look-up answers by the log**, if the classes it searches hold what the log has as the
latest. -/
theorem answers_resolve (scope : Value)
    (hpath : searchPath? scope = some (path.map ClassHandle.toClassHeader)) :
    log.Answers path name (reportedName scope name) (t.resolve scope name) := by
  rw [resolve, hpath]
  simp only [List.findSome?_map, Function.comp_def]
  cases hfound : path.findSome? fun c => t.own? c.toClassHeader name with
  | some value =>
    have hbinds : ¬ ∀ c ∈ path, ¬ log.Binds c name := by
      rw [← findSome?_own?_eq_none_iff hown, hfound]
      simp
    refine ⟨⟨fun _ => by simpa using hbinds, fun _ => ⟨value, rfl⟩⟩, fun v => ?_, ?_⟩
    · rw [← findSome?_own?_eq_some_iff hown, hfound]
      simp
    · exact fun hnever => absurd hnever hbinds
  | none =>
    have hnever := (findSome?_own?_eq_none_iff hown).1 hfound
    refine ⟨⟨by rintro ⟨v, ⟨⟩⟩, ?_⟩, fun v => ?_, fun _ => rfl⟩
    · rintro ⟨c, hc, hbinds⟩
      exact absurd hbinds (hnever c hc)
    · rw [← findSome?_own?_eq_some_iff hown, hfound]
      simp

end

/-- The name that is reported as missing in a class. -/
theorem qualify_eq (h : t.Registered) (hfew : t.classes.size < UInt32.size) (hc : c ∈ t.classes)
    (name : String) :
    qualify c name = if c = object then name else c.name ++ "::" ++ name := by
  have hid : c.id = object.id ↔ c = object :=
    ⟨h.eq_of_id_eq (Nat.le_of_lt hfew) hc h.object_mem, fun heq => by rw [heq]⟩
  simp only [qualify, hid]

/-- **Constants are looked up as the history of definitions says.** Nil stands for the top level and
is searched in `Object`; a class in itself, the classes above it and then `Object`. The answer is
the value of the latest definition of the name in the first of these that ever defined it, and
otherwise that the constant is missing. No other value is a scope. -/
theorem resolve_by_history {history : List Definition} (hrefers : core.RefersWithin history)
    (hfew : (core.after history).classes.size < UInt32.size) (name : String) :
    Answers (coreBindings ++ core.bindings history) [object] name name
        ((core.after history).resolve .nil name) ∧
      (∀ c ∈ (core.after history).classes,
        Answers (coreBindings ++ core.bindings history) (c.lineage ++ [object]) name
          (if c = object then name else c.name ++ "::" ++ name)
          ((core.after history).resolve (.classHandle c) name)) ∧
      ∀ scope : Value, scope ≠ .nil → (∀ c, scope ≠ .classHandle c) →
        (core.after history).resolve scope name = .error (.notAClass scope.inspect) := by
  have hregistered := registered_after hrefers
  refine ⟨?_, fun c hc => ?_, fun scope hnil hclass => ?_⟩
  · refine answers_resolve (fun c hc v => own?_eq_some_iff hrefers hfew ?_) .nil rfl
    obtain rfl := List.mem_singleton.1 hc
    exact hregistered.object_mem
  · rw [← qualify_eq hregistered hfew hc]
    refine answers_resolve (fun a ha v => own?_eq_some_iff hrefers hfew ?_) (.classHandle c) ?_
    · rcases List.mem_append.1 ha with hup | htop
      · exact hregistered.lineage_subset hc a hup
      · obtain rfl := List.mem_singleton.1 htop
        exact hregistered.object_mem
    · rw [List.map_append, ClassHandle.map_lineage]
      rfl
  · cases scope with
    | nil => exact absurd rfl hnil
    | classHandle c => exact absurd rfl (hclass c)
    | _ => rfl

/-- A class of the top level. -/
def upper : ClassHandle := (core.defineClass "A" none none).1

/-- A class below it. -/
def lower : ClassHandle :=
  ((core.define (.ofClass "A" none none)).defineClass "B" (some upper) none).1

/-- Defines the two classes, a constant at the top level and twice in the upper class, and then a
module that takes the name of the upper class. -/
def rebinding : List Definition :=
  [.ofClass "A" none none, .ofClass "B" (some upper) none, .ofGlobal "X" (.integer 1),
   .ofConstant upper "X" (.integer 2), .ofConstant upper "X" (.integer 3), .ofModule "A" none]

theorem resolve_by_history_rebinding :
    core.RefersWithin rebinding ∧ (core.after rebinding).classes.size < UInt32.size ∧
      lower ∈ (core.after rebinding).classes ∧
      (core.after rebinding).resolve (.classHandle lower) "X" = .ok (.integer 3) ∧
      (core.after rebinding).resolve .nil "X" = .ok (.integer 1) ∧
      (core.after rebinding).resolve (.classHandle lower) "Z" =
        .error (.constantNotFound "B::Z") := by
  have hrefers : core.RefersWithin rebinding := by decide +kernel
  have hfew : (core.after rebinding).classes.size < UInt32.size := by decide +kernel
  have hlower : lower ∈ (core.after rebinding).classes := by decide +kernel
  have habove : lower.superclass? = some upper := rfl
  have htop : upper.superclass? = some object := rfl
  have hX := resolve_by_history hrefers hfew "X"
  have hZ := resolve_by_history hrefers hfew "Z"
  refine ⟨hrefers, hfew, hlower, ?_, ?_, ?_⟩
  · refine ((hX.2.1 lower hlower).eq_ok_iff _).2
      ⟨[lower], upper, object.lineage ++ [object], ?_, by decide +kernel, lastOf_iff.2 rfl⟩
    rw [ClassHandle.lineage_of_superclass? habove, ClassHandle.lineage_of_superclass? htop]
    rfl
  · exact (hX.1.eq_ok_iff _).2 ⟨[], object, [], rfl, by simp, lastOf_iff.2 rfl⟩
  · have hnames : ∀ b ∈ coreBindings ++ core.bindings rebinding, b.name ≠ "Z" := by decide +kernel
    refine (hZ.2.1 lower hlower).missing ?_
    rintro c - ⟨b, hb, -, hname⟩
    exact hnames b hb hname

end ClassTable

end StackVm
