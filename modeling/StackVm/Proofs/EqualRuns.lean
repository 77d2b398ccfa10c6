import StackVm.Proofs.ConstantHistory
import StackVm.Proofs.Lockstep
import StackVm.Proofs.ValueEquality
/-!
# Equal programs on equal stacks behave equally

Equal values need not be identical: a hash equals another that lists the same entries in a different
order, and a class is told by its identifier. An insertion finds equal keys at the same place, so
pairs that are equal one by one build hashes that are (`Value.insert_congr`,
`Value.ofPairs_congr`). A class table answers equal scopes alike, since the identifier of one of its
classes tells the class (`ClassTable.respects_agree`). Two machines with equal values on their
stacks are therefore in lockstep; all that can differ is the literal of a scope that a fault cites.
-/

namespace StackVm

/-- Each element of one of two related lists has its like in the other. -/
theorem exists_related {α : Type} {R : α → α → Prop} {xs ys : List α} (h : List.Forall₂ R xs ys) :
    (∀ x ∈ xs, ∃ y ∈ ys, R x y) ∧ ∀ y ∈ ys, ∃ x ∈ xs, R x y := by
  induction h with
  | nil => simp
  | cons hfirst _ ih =>
    simp only [List.forall_mem_cons, List.exists_mem_cons_iff]
    exact ⟨⟨.inl hfirst, fun x hx => .inr (ih.1 x hx)⟩, .inl hfirst, fun y hy => .inr (ih.2 y hy)⟩

/-- Lists that are related element by element are so by any relation that follows for their
members. -/
theorem forall₂_imp_of_mem {α : Type} {R S : α → α → Prop} {xs ys : List α}
    (h : List.Forall₂ R xs ys) (himp : ∀ x ∈ xs, ∀ y ∈ ys, R x y → S x y) :
    List.Forall₂ S xs ys :=
  List.forall₂_iff_get.2 ⟨h.length_eq, fun _ hx hy =>
    himp _ (List.get_mem xs ⟨_, hx⟩) _ (List.get_mem ys ⟨_, hy⟩) (h.get hx hy)⟩

/-! ## Hashes of equal pairs -/

namespace Value

variable {a b : Value} {es fs : Entries}

/-- **An insertion respects equality.** An equal key goes to the same place, be it one that is taken
or the end. -/
theorem insert_congr {key key' value value' : Value} (hes : ∀ e ∈ es, e.1.WellFormed)
    (hfs : ∀ f ∈ fs, f.1.WellFormed) (hkey : key.WellFormed) (hkey' : key'.WellFormed)
    (h : List.Forall₂ EntryEql es fs) (hnew : EntryEql (key, value) (key', value')) :
    List.Forall₂ EntryEql (es.insert key value) (fs.insert key' value') := by
  induction h with
  | nil => exact .cons hnew .nil
  | @cons e f es fs hfirst hrest ih =>
    obtain ⟨hstored, hes⟩ := List.forall_mem_cons.1 hes
    obtain ⟨hstored', hfs⟩ := List.forall_mem_cons.1 hfs
    have hsame : key.equals e.1 = key'.equals f.1 := by
      rw [equals_eq_eql, equals_eq_eql]
      exact hkey.eql_congr hstored hkey' hstored' hnew.1 hfirst.1
    rw [Entries.insert, Entries.insert, hsame]
    split
    · exact .cons ⟨hfirst.1, hnew.2⟩ hrest
    · exact .cons hfirst (ih hes hfs)

/-- So does the insertion of pairs one after another. -/
theorem foldl_insert_congr {pairs pairs' : List (Value × Value)} (hes : (hash es).WellFormed)
    (hfs : (hash fs).WellFormed) (hpairs : ∀ p ∈ pairs, p.1.WellFormed ∧ p.2.WellFormed)
    (hpairs' : ∀ p ∈ pairs', p.1.WellFormed ∧ p.2.WellFormed) (h : List.Forall₂ EntryEql es fs)
    (hequal : List.Forall₂ EntryEql pairs pairs') :
    List.Forall₂ EntryEql
      (pairs.foldl (fun entries pair => Entries.insert entries pair.1 pair.2) es)
      (pairs'.foldl (fun entries pair => Entries.insert entries pair.1 pair.2) fs) := by
  induction hequal generalizing es fs with
  | nil => exact h
  | @cons p q pairs pairs' hfirst _ ih =>
    obtain ⟨hp, hpairs⟩ := List.forall_mem_cons.1 hpairs
    obtain ⟨hq, hpairs'⟩ := List.forall_mem_cons.1 hpairs'
    refine ih (hes.insert hp.1 hp.2) (hfs.insert hq.1 hq.2) hpairs hpairs' ?_
    exact insert_congr (wellFormed_hash_iff.1 hes).2.1 (wellFormed_hash_iff.1 hfs).2.1 hp.1 hq.1 h
      hfirst

/-- Entries that are equal one by one make equal hashes. -/
theorem eql_of_forall₂ (h : List.Forall₂ EntryEql es fs) : (hash es).eql (hash fs) = true :=
  eql_hash_iff.2 ⟨h.length_eq, (exists_related h).1⟩

/-- **Pairs that are equal one by one build equal hashes.** -/
theorem ofPairs_congr {pairs pairs' : List (Value × Value)}
    (hbuilt : ∀ p ∈ pairs ++ pairs', p.1.Built ∧ p.2.Built)
    (h : List.Forall₂ EntryEql pairs pairs') : (ofPairs pairs).eql (ofPairs pairs') = true := by
  have hempty : (hash []).WellFormed := wellFormed_hash_iff.2 ⟨.nil, by simp, by simp⟩
  have hpairs : ∀ p ∈ pairs ++ pairs', p.1.WellFormed ∧ p.2.WellFormed :=
    fun p hp => ⟨(hbuilt p hp).1.wellFormed, (hbuilt p hp).2.wellFormed⟩
  rw [List.forall_mem_append] at hpairs
  exact eql_of_forall₂ (foldl_insert_congr hempty hempty hpairs.1 hpairs.2 .nil h)

/-! ## What a look-up asks of a value -/

theorem isNil_eq_of_eql (h : a.eql b = true) : a.isNil = b.isNil := by
  cases a <;> cases b <;> simp_all [eql, isNil]

theorem isTruthy_eq_of_eql (h : a.eql b = true) : a.isTruthy = b.isTruthy := by
  cases a <;> cases b <;> simp_all [eql, isTruthy]

end Value

/-- The value that a definition is given, if it does not define a class or module. -/
def Definition.value? : Definition → Option Value
  | .ofConstant _ _ value | .ofGlobal _ value => some value
  | .ofClass _ _ _ | .ofModule _ _ => none

/-- Two faults that differ at most in the literal of a scope that is no class. -/
def Fault.Alike (f g : Fault) : Prop := f = g ∨ ∃ a b, f = .notAClass a ∧ g = .notAClass b

namespace ClassTable

open DefinitionLog

variable {t : ClassTable} {history : List Definition} {v w : Value} {name : String}

/-- A value of a class table: it can be built, and if it is a class it is one of the table's. -/
def Hosts (t : ClassTable) (v : Value) : Prop :=
  v.Built ∧ ∀ c, v = .classHandle c → c ∈ t.classes

/-- Two values of a class table that are equal. -/
def Agree (t : ClassTable) (v w : Value) : Prop := t.Hosts v ∧ t.Hosts w ∧ v.eql w = true

theorem agree_self (h : t.Hosts v) : t.Agree v v := ⟨h, h, v.eql_refl⟩

/-! ## Where the values of constants come from -/

/-- **A constant holds a value that a definition was given, or a class of the table.** -/
theorem value_of_binding :
    ∀ b ∈ coreBindings ++ core.bindings history,
      (∃ d ∈ history, d.value? = some b.value) ∨
        ∃ c ∈ (core.after history).classes, b.value = .classHandle c := by
  induction history using List.reverseRecOn with
  | nil =>
    intro b hb
    obtain ⟨c, hc, rfl⟩ : ∃ c ∈ coreClasses, ⟨object, c.name, .classHandle c⟩ = b := by
      simpa [bindings, coreBindings] using hb
    exact .inr ⟨c, List.mem_toArray.2 hc, rfl⟩
  | append_singleton history d ih =>
    intro b hb
    rw [bindings_concat, ← List.append_assoc] at hb
    rw [after_concat]
    rcases List.mem_append.1 hb with hold | hnew
    · rcases ih b hold with ⟨given, hgiven, hvalue⟩ | ⟨c, hc, hvalue⟩
      · exact .inl ⟨given, List.mem_append_left _ hgiven, hvalue⟩
      · exact .inr ⟨c, mem_classes_define hc, hvalue⟩
    · obtain rfl := List.mem_singleton.1 hnew
      cases d with
      | ofConstant | ofGlobal => exact .inl ⟨_, List.mem_concat_self, rfl⟩
      | ofClass | ofModule => exact .inr ⟨_, Array.mem_push_self, rfl⟩

/-- What a look-up finds, a binding of the history has as its value. -/
theorem exists_binding_of_resolve {scope : Value}
    (h : (core.after history).resolve scope name = .ok v) :
    ∃ b ∈ coreBindings ++ core.bindings history, b.value = v := by
  unfold resolve at h
  split at h
  · cases h
  · split at h
    · rename_i value hfound
      obtain rfl : value = v := by simpa using h
      obtain ⟨owner, -, howner⟩ := List.exists_of_findSome?_eq_some hfound
      obtain ⟨earlier, b, later, hlog, -, hvalue, -⟩ := (holds_after history _ _ _).1 howner
      exact ⟨b, by rw [hlog]; simp, hvalue⟩
    · cases h

/-- So a look-up finds values of the table, if the definitions were given such. -/
theorem hosts_of_resolve {scope : Value}
    (hdefined : ∀ d ∈ history, ∀ v, d.value? = some v → (core.after history).Hosts v)
    (h : (core.after history).resolve scope name = .ok v) : (core.after history).Hosts v := by
  obtain ⟨b, hb, rfl⟩ := exists_binding_of_resolve h
  rcases value_of_binding b hb with ⟨d, hd, hvalue⟩ | ⟨c, hc, hvalue⟩
  · exact hdefined d hd _ hvalue
  · rw [hvalue]
    refine ⟨.atom rfl, ?_⟩
    rintro _ ⟨⟩
    exact hc

/-! ## Equal scopes -/

/-- **Equal values of a table are the same scope, or no scope.** -/
theorem same_scope (hregistered : t.Registered) (hfew : t.classes.size ≤ UInt32.size)
    (h : t.Agree v w) : v = w ∨ searchPath? v = none ∧ searchPath? w = none := by
  obtain ⟨hv, hw, heql⟩ := h
  cases v with
  | nil =>
    cases w with
    | nil => exact .inl rfl
    | _ => simp [Value.eql] at heql
  | classHandle c =>
    cases w with
    | classHandle c' =>
      have hid : c.id = c'.id := by simpa [Value.eql] using heql
      rw [hregistered.eq_of_id_eq hfew (hv.2 c rfl) (hw.2 c' rfl) hid]
      exact .inl rfl
    | _ => simp [Value.eql] at heql
  | _ =>
    cases w with
    | nil | classHandle => simp [Value.eql] at heql
    | _ => exact .inr ⟨rfl, rfl⟩

/-- A value that is no scope is reported as such. -/
theorem resolve_of_searchPath?_eq_none (t : ClassTable) (name : String)
    (h : searchPath? v = none) : t.resolve v name = .error (.notAClass v.inspect) := by
  rw [resolve, h]

/-- **A class table answers equal questions alike.** -/
theorem respects_agree (hrefers : core.RefersWithin history)
    (hfew : (core.after history).classes.size ≤ UInt32.size)
    (hdefined : ∀ d ∈ history, ∀ v, d.value? = some v → (core.after history).Hosts v) :
    (core.after history).environment.Respects Fault.Alike (core.after history).Agree where
  lookup name scope scope' flag flag' hscope hflag := by
    have hrefl : ∀ fault : Fault, fault.Alike fault := fun _ => .inl rfl
    unfold Machine.lookup
    rw [Value.isNil_eq_of_eql hscope.2.2, Value.isTruthy_eq_of_eql hflag.2.2]
    split
    · exact .error (hrefl _)
    · rcases same_scope (registered_after hrefers) hfew hscope with rfl | ⟨hnone, hnone'⟩
      · cases hfound : (core.after history).environment.resolve scope name with
        | ok value => exact .ok (agree_self (hosts_of_resolve hdefined hfound))
        | error => exact .error (hrefl _)
      · have hfails := resolve_of_searchPath?_eq_none (core.after history) name hnone
        have hfails' := resolve_of_searchPath?_eq_none (core.after history) name hnone'
        simp only [environment, hfails, hfails']
        exact .error (.inr ⟨_, _, rfl, rfl⟩)
  buildHash {pairs pairs'} hpairs := by
    have hpair : ∀ p ∈ pairs, p.1.Built ∧ p.2.Built := by
      intro p hp
      obtain ⟨q, -, hkey, hvalue⟩ := (exists_related hpairs).1 p hp
      exact ⟨hkey.1.1, hvalue.1.1⟩
    have hpair' : ∀ q ∈ pairs', q.1.Built ∧ q.2.Built := by
      intro q hq
      obtain ⟨p, -, hkey, hvalue⟩ := (exists_related hpairs).2 q hq
      exact ⟨hkey.2.1.1, hvalue.2.1.1⟩
    refine ⟨⟨?_, by rintro _ ⟨⟩⟩, ⟨?_, by rintro _ ⟨⟩⟩, ?_⟩
    · exact .ofPairs (fun p hp => (hpair p hp).1) fun p hp => (hpair p hp).2
    · exact .ofPairs (fun q hq => (hpair' q hq).1) fun q hq => (hpair' q hq).2
    · refine Value.ofPairs_congr (List.forall_mem_append.2 ⟨hpair, hpair'⟩) ?_
      exact hpairs.imp fun p q h => ⟨h.1.2.2, h.2.2.2⟩

end ClassTable

/-! ## Runs -/

/-- Instructions that are equal are the same, or push equal literals. -/
theorem Instruction.eql_cases {i j : Instruction} (h : i.eql j = true) :
    i = j ∨ ∃ v w, i = .putObject v ∧ j = .putObject w ∧ v.eql w = true := by
  cases i <;> cases j <;> simp_all [Instruction.eql]

namespace Machine

open ClassTable

variable {t : ClassTable} {m n : Machine} {code code' : List Instruction}

/-- Programs that are equal, with literals of a table, are in step. -/
theorem inStep_of_eql (hliterals : ∀ i ∈ code ++ code', ∀ v, i.literal? = some v → t.Hosts v)
    (hcode : List.Forall₂ (fun i j => i.eql j = true) code code') :
    List.Forall₂ (Instruction.InStep t.Agree) code code' := by
  refine forall₂_imp_of_mem hcode fun i hi j hj hij => ?_
  have hhosts := hliterals i (List.mem_append_left _ hi)
  have hhosts' := hliterals j (List.mem_append_right _ hj)
  rcases Instruction.eql_cases hij with rfl | ⟨v, w, rfl, rfl, hvw⟩
  · exact i.inStep_self fun v hv => agree_self (hhosts v hv)
  · exact .literal rfl rfl ⟨hhosts v rfl, hhosts' w rfl, hvw⟩

/-- **Equal programs on equal stacks behave equally.** Take a class table that a history of
definitions made, with no more classes than identifiers, and let the values that it was given, those
on the stacks and the literals be values of the table. Equal programs on machines with equal values
on their stacks, and otherwise as many steps used and granted and one limit, both succeed or both
fail, with faults that differ at most in the literal of a scope that is no class; they leave equal
values on the stacks, with as many steps used. In particular, equal pairs build equal hashes. -/
theorem run_of_equal {history : List Definition} (hrefers : core.RefersWithin history)
    (hfew : (core.after history).classes.size ≤ UInt32.size)
    (hdefined : ∀ d ∈ history, ∀ v, d.value? = some v → (core.after history).Hosts v)
    (hliterals : ∀ i ∈ code ++ code', ∀ v, i.literal? = some v → (core.after history).Hosts v)
    (hvalues : ∀ v ∈ m.stack.toList ++ n.stack.toList, (core.after history).Hosts v)
    (hcode : List.Forall₂ (fun i j => i.eql j = true) code code')
    (hmachines : m.InStep (fun v w => v.equals w = true) n) :
    (m.run (core.after history).environment code).InStep Fault.Alike
        (fun v w => v.equals w = true) (n.run (core.after history).environment code') ∧
      ∀ pairs pairs' : List (Value × Value), (∀ p ∈ pairs ++ pairs', p.1.Built ∧ p.2.Built) →
        List.Forall₂ (fun p q => p.1.equals q.1 = true ∧ p.2.equals q.2 = true) pairs pairs' →
        (Value.ofPairs pairs).equals (Value.ofPairs pairs') = true := by
  simp only [Value.equals_eq_eql] at hmachines ⊢
  refine ⟨?_, fun pairs pairs' hbuilt h => Value.ofPairs_congr hbuilt h⟩
  have hm : m.InStep (core.after history).Agree n := by
    refine ⟨⟨?_, hmachines.stack.limit⟩, hmachines.steps, hmachines.maxSteps⟩
    refine forall₂_imp_of_mem hmachines.stack.values fun v hv w hw hvw => ?_
    exact ⟨hvalues v (List.mem_append_left _ hv), hvalues w (List.mem_append_right _ hw), hvw⟩
  have hrun := run_inStep (fun _ => .inl rfl)
    (fun _ => respects_agree hrefers hfew hdefined) hm (inStep_of_eql hliterals hcode)
  refine ⟨⟨⟨?_, hrun.machine.stack.limit⟩, hrun.machine.steps, hrun.machine.maxSteps⟩, hrun.result⟩
  exact hrun.machine.stack.values.imp fun v w h => h.2.2

/-! ## Hashes in two orders -/

/-- A machine that holds one value. -/
def holding (v : Value) : Machine := { create 0 {} with stack := ⟨#[v], 65536⟩ }

/-- Builds a hash whose key is the value held, and looks a constant up in a scope. -/
def keying (scope : Value) : List Instruction :=
  [.putObject (.bool true), .newHash 2, .putObject scope, .putOne, .getConstant "N"]

theorem hosts_keying {scope : Value} (hscope : t.Hosts scope) :
    ∀ i ∈ keying scope, ∀ v, i.literal? = some v → t.Hosts v := by
  simp only [keying, List.forall_mem_cons]
  refine ⟨?_, ?_, ?_, ?_, ?_, by simp⟩ <;> rintro v ⟨⟩
  · exact ⟨.atom rfl, by rintro _ ⟨⟩⟩
  · exact hscope
  · exact ⟨.atom rfl, by rintro _ ⟨⟩⟩

/-- A hash and the same in another order: as keys they build equal hashes, and as scopes they are
refused alike. -/
theorem run_of_equal_reordered :
    let there := (holding Value.renumbered).run
      (core.after [.ofGlobal "N" Value.numbered]).environment (keying Value.numbered)
    (∃ text, there.result = .error (.notAClass text)) ∧ there.machine.steps = 5 ∧
      List.Forall₂ (fun v w : Value => v.equals w = true)
        [.hash [(Value.numbered, .bool true)]] there.machine.stack.toList := by
  intro there
  have hnumbered : (core.after [.ofGlobal "N" Value.numbered]).Hosts Value.numbered :=
    ⟨Value.numbered_built, by rintro _ ⟨⟩⟩
  have hrenumbered : (core.after [.ofGlobal "N" Value.numbered]).Hosts Value.renumbered :=
    ⟨Value.renumbered_built, by rintro _ ⟨⟩⟩
  have hdefined : ∀ d ∈ [Definition.ofGlobal "N" Value.numbered], ∀ v, d.value? = some v →
      (core.after [.ofGlobal "N" Value.numbered]).Hosts v := by
    intro d hd v hv
    obtain rfl := List.mem_singleton.1 hd
    obtain rfl := Option.some.inj hv
    exact hnumbered
  have hvalues : ∀ v ∈ (holding Value.numbered).stack.toList ++
      (holding Value.renumbered).stack.toList,
      (core.after [.ofGlobal "N" Value.numbered]).Hosts v := by
    simp [holding, Stack.toList, hnumbered, hrenumbered]
  have hmachines : (holding Value.numbered).InStep (fun v w => v.equals w = true)
      (holding Value.renumbered) := ⟨⟨.cons (by decide +kernel) .nil, rfl⟩, rfl, rfl⟩
  obtain ⟨⟨hstack, hsteps, -⟩, hresult⟩ := (run_of_equal (by decide +kernel) (by decide +kernel)
    hdefined (List.forall_mem_append.2 ⟨hosts_keying hrenumbered, hosts_keying hnumbered⟩) hvalues
    (by decide +kernel) hmachines).1
  refine ⟨?_, hsteps.symm.trans rfl, hstack.values⟩
  have hfails : ((holding Value.numbered).run
      (core.after [.ofGlobal "N" Value.numbered]).environment (keying Value.renumbered)).result =
        .error (.notAClass Value.renumbered.inspect) := rfl
  rw [hfails] at hresult
  obtain ⟨fault, hfault, rfl | ⟨_, text, -, rfl⟩⟩ := hresult.exists_error
  · exact ⟨_, hfault⟩
  · exact ⟨text, hfault⟩

end Machine

end StackVm
