import StackVm.Proofs.World
/-!
# The registry of classes along a history of definitions

A class table is made by a history of definitions from the core classes, each of which refers to
classes that were there before it (`ClassTable.RefersWithin`). What every such table keeps to is
`ClassTable.Registered`: a class has the number of its place as its identifier, and its superclass
is a class of the table. So as long as there are no more classes than identifiers, an identifier
tells its class (`Registered.eq_of_id_eq`).
-/

namespace StackVm

/-- The classes and modules that a definition refers to. -/
def Definition.handles : Definition → List ClassHandle
  | .ofClass _ superclass space => superclass.toList ++ space.toList
  | .ofModule _ space => space.toList
  | .ofConstant owner _ _ => [owner]
  | .ofGlobal _ _ => []

/-- The superclass that a definition is given, if it is given one. -/
def Definition.superclass? : Definition → Option ClassHandle
  | .ofClass _ superclass _ => superclass
  | .ofModule _ _ | .ofConstant _ _ _ | .ofGlobal _ _ => none

theorem Definition.mem_handles_of_superclass? {d : Definition} {parent : ClassHandle}
    (h : d.superclass? = some parent) : parent ∈ d.handles := by
  cases d with
  | ofClass name superclass space =>
    have hsuper : superclass = some parent := h
    simp [handles, hsuper]
  | ofModule | ofConstant | ofGlobal => cases h

namespace ClassHandle

theorem length_parents_of_superclass? {c parent : ClassHandle} (h : c.superclass? = some parent) :
    parent.parents.length < c.parents.length := by
  unfold superclass? at h
  split at h
  · cases h
  · rename_i header rest hparents
    obtain rfl := Option.some.inj h
    simp [hparents]

/-- The class itself, its superclass, the superclass of that, and so on. -/
def lineage (c : ClassHandle) : List ClassHandle :=
  match _ : c.superclass? with
  | none => [c]
  | some parent => c :: parent.lineage
termination_by c.parents.length
decreasing_by exact length_parents_of_superclass? ‹_›

theorem lineage_of_superclass? {c parent : ClassHandle} (h : c.superclass? = some parent) :
    c.lineage = c :: parent.lineage := by
  rw [lineage]
  split <;> simp_all

/-- The headers of the lineage are the ancestors. -/
theorem map_lineage (c : ClassHandle) : c.lineage.map ClassHandle.toClassHeader = c.ancestors := by
  fun_induction lineage c with
  | case1 c h =>
    cases hparents : c.parents with
    | nil => simp [ancestors, hparents]
    | cons => simp [superclass?, hparents] at h
  | case2 c parent h ih =>
    cases hparents : c.parents with
    | nil => simp [superclass?, hparents] at h
    | cons header rest =>
      obtain rfl : { toClassHeader := header, parents := rest } = parent := by
        simpa [superclass?, hparents] using h
      rw [List.map_cons, ih, ancestors, ancestors, hparents]

end ClassHandle

namespace ClassTable

variable {t : ClassTable} {history : List Definition} {d : Definition} {c : ClassHandle}

/-- The class table after a history, the oldest definition first. -/
def after (t : ClassTable) (history : List Definition) : ClassTable := history.foldl define t

@[simp]
theorem after_nil (t : ClassTable) : t.after [] = t := rfl

theorem after_append (t : ClassTable) (history later : List Definition) :
    t.after (history ++ later) = (t.after history).after later :=
  List.foldl_append

@[simp]
theorem after_concat (t : ClassTable) (history : List Definition) (d : Definition) :
    t.after (history ++ [d]) = (t.after history).define d :=
  after_append t history [d]

/-- Every definition of a history refers to classes that the table holds when it is made. -/
def RefersWithin (t : ClassTable) (history : List Definition) : Prop :=
  ∀ earlier d later, history = earlier ++ d :: later →
    ∀ c ∈ d.handles, c ∈ (t.after earlier).classes

theorem RefersWithin.of_concat (h : t.RefersWithin (history ++ [d])) :
    t.RefersWithin history ∧ ∀ c ∈ d.handles, c ∈ (t.after history).classes := by
  refine ⟨?_, h history d [] rfl⟩
  rintro earlier d' later rfl
  exact h earlier d' (later ++ [d]) (by simp)

theorem refersWithin_cons_iff {rest : List Definition} :
    t.RefersWithin (d :: rest) ↔
      (∀ c ∈ d.handles, c ∈ t.classes) ∧ (t.define d).RefersWithin rest := by
  constructor
  · intro h
    refine ⟨h [] d rest rfl, ?_⟩
    rintro earlier d' later rfl
    exact h (d :: earlier) d' later rfl
  · rintro ⟨hfirst, hrest⟩ earlier d' later heq
    cases earlier with
    | nil =>
      obtain ⟨rfl, rfl⟩ := List.cons.inj heq
      exact hfirst
    | cons first earlier =>
      obtain ⟨rfl, rfl⟩ := List.cons.inj heq
      exact hrest earlier d' later rfl

/-- Whether a history refers to classes that are there can be decided along it. -/
def decidableRefersWithin (t : ClassTable) : (history : List Definition) →
    Decidable (t.RefersWithin history)
  | [] => .isTrue (by rintro (_ | _) _ _ ⟨⟩)
  | d :: rest =>
    have := (t.define d).decidableRefersWithin rest
    decidable_of_iff' _ refersWithin_cons_iff

instance : Decidable (t.RefersWithin history) := decidableRefersWithin t history

/-- Every superclass that a history gives is a class that the table holds by then. -/
def ExtendsWithin (t : ClassTable) (history : List Definition) : Prop :=
  ∀ earlier d later, history = earlier ++ d :: later →
    ∀ parent, d.superclass? = some parent → parent ∈ (t.after earlier).classes

theorem RefersWithin.extendsWithin (h : t.RefersWithin history) : t.ExtendsWithin history :=
  fun earlier d later heq parent hparent =>
    h earlier d later heq parent (Definition.mem_handles_of_superclass? hparent)

/-- **What every definition keeps, a history keeps**, if its superclasses are there. -/
theorem ExtendsWithin.keeps {P : ClassTable → Prop} (h : t.ExtendsWithin history) (hstart : P t)
    (hstep : ∀ t d, P t → (∀ parent, d.superclass? = some parent → parent ∈ t.classes) →
      P (t.define d)) : P (t.after history) := by
  induction history using List.reverseRecOn with
  | nil => exact hstart
  | append_singleton history d ih =>
    rw [after_concat]
    refine hstep _ d (ih ?_) (h history d [] rfl)
    rintro earlier d' later rfl
    exact h earlier d' (later ++ [d]) (by simp)

/-! ## What is registered -/

/-- The class or module that a definition makes, if it is the definition of one. -/
def made? (t : ClassTable) : Definition → Option ClassHandle
  | .ofClass name superclass space => some (t.defineClass name superclass space).1
  | .ofModule name space => some (t.defineModule name space).1
  | .ofConstant _ _ _ | .ofGlobal _ _ => none

/-- **A definition registers the class that it makes**, behind those that are there. -/
theorem classes_define (t : ClassTable) (d : Definition) :
    (t.made? d = none ∧ (t.define d).classes = t.classes) ∨
      ∃ c, t.made? d = some c ∧ (t.define d).classes = t.classes.push c := by
  cases d with
  | ofConstant | ofGlobal => exact .inl ⟨rfl, rfl⟩
  | ofClass | ofModule => exact .inr ⟨_, rfl, rfl⟩

/-- The class that is made has the next identifier. Its superclass is the one that is given or
`Object`, and a module has none. -/
theorem made?_spec (h : t.made? d = some c) :
    c.id = UInt32.ofNat t.classes.size ∧
      (∀ parent, c.superclass? = some parent → parent = object ∨ d.superclass? = some parent) ∧
      (c.superclass? = none ↔ c.isModule = true) := by
  cases d with
  | ofConstant | ofGlobal => cases h
  | ofModule name space =>
    obtain rfl := Option.some.inj h
    exact ⟨rfl, by rintro _ ⟨⟩, fun _ => rfl, fun _ => rfl⟩
  | ofClass name superclass space =>
    obtain rfl := Option.some.inj h
    refine ⟨rfl, ?_, by rintro ⟨⟩, by rintro ⟨⟩⟩
    rintro parent ⟨⟩
    cases superclass with
    | none => exact .inl rfl
    | some superclass => exact .inr rfl

/-- No definition takes a class away. -/
theorem mem_classes_define (h : c ∈ t.classes) : c ∈ (t.define d).classes := by
  rcases classes_define t d with ⟨-, hsame⟩ | ⟨new, -, hpush⟩
  · rwa [hsame]
  · rw [hpush]
    exact Array.mem_push_of_mem new h

/-- What holds of the classes of a table that a history made. -/
structure Registered (t : ClassTable) : Prop where
  /-- `Object` is one of them. -/
  object_mem : object ∈ t.classes
  /-- A class has the number of its place as its identifier. -/
  id_eq : ∀ k c, t.classes[k]? = some c → c.id = UInt32.ofNat k
  /-- The superclass of a class is one of them. -/
  superclass_mem : ∀ c ∈ t.classes, ∀ parent ∈ c.superclass?, parent ∈ t.classes

/-- The core classes are registered. -/
theorem registered_core : core.Registered where
  object_mem := List.mem_toArray.2 (by decide)
  id_eq k c hk := by
    have hall : ∀ entry ∈ coreClasses.zipIdx, entry.1.id = UInt32.ofNat entry.2 := by decide
    refine hall (c, k) (List.mk_mem_zipIdx_iff_getElem?.2 ?_)
    simpa [core] using hk
  superclass_mem := by
    have hall : ∀ c ∈ coreClasses, ∀ parent ∈ c.superclass?, parent ∈ coreClasses := by decide
    simpa [core] using hall

/-- The superclass of a class that is made is there before it. -/
theorem Registered.mem_of_made? {parent : ClassHandle} (h : t.Registered)
    (hextends : ∀ parent, d.superclass? = some parent → parent ∈ t.classes)
    (hmade : t.made? d = some c) (hparent : c.superclass? = some parent) : parent ∈ t.classes := by
  obtain ⟨-, hsuper, -⟩ := made?_spec hmade
  rcases hsuper parent hparent with rfl | hgiven
  · exact h.object_mem
  · exact hextends parent hgiven

/-- **A definition keeps the registry in order.** -/
theorem Registered.define (h : t.Registered)
    (hextends : ∀ parent, d.superclass? = some parent → parent ∈ t.classes) :
    (t.define d).Registered := by
  rcases classes_define t d with ⟨-, hsame⟩ | ⟨c, hmade, hpush⟩
  · exact ⟨hsame ▸ h.object_mem, hsame ▸ h.id_eq, hsame ▸ h.superclass_mem⟩
  · obtain ⟨hid, -, -⟩ := made?_spec hmade
    refine ⟨?_, ?_, ?_⟩
    · exact mem_classes_define h.object_mem
    · intro k a hk
      rw [hpush, Array.getElem?_push] at hk
      split at hk
      · rename_i hlast
        obtain rfl := Option.some.inj hk
        rw [hid, hlast]
      · exact h.id_eq k a hk
    · intro a ha parent hparent
      rw [hpush] at ha ⊢
      refine Array.mem_push_of_mem c ?_
      rcases Array.mem_push.1 ha with hold | rfl
      · exact h.superclass_mem a hold parent hparent
      · exact h.mem_of_made? hextends hmade hparent

/-- **So does a history.** -/
theorem ExtendsWithin.registered (h : core.ExtendsWithin history) :
    (core.after history).Registered :=
  h.keeps registered_core fun _ _ => Registered.define

theorem registered_after (h : core.RefersWithin history) : (core.after history).Registered :=
  h.extendsWithin.registered

/-- Read as a number, the identifier of a class is its place. -/
theorem Registered.toNat_id {k : Nat} (h : t.Registered) (hfew : t.classes.size ≤ UInt32.size)
    (hk : t.classes[k]? = some c) : c.id.toNat = k := by
  have hlt := (Array.getElem?_eq_some_iff.1 hk).1
  rw [h.id_eq k c hk, UInt32.toNat_ofNat_of_lt' (by omega)]

/-- **An identifier tells its class**, as long as there are identifiers for all. -/
theorem Registered.eq_of_id_eq {c' : ClassHandle} (h : t.Registered)
    (hfew : t.classes.size ≤ UInt32.size) (hc : c ∈ t.classes) (hc' : c' ∈ t.classes)
    (hid : c.id = c'.id) : c = c' := by
  obtain ⟨k, hk⟩ := Array.mem_iff_getElem?.1 hc
  obtain ⟨k', hk'⟩ := Array.mem_iff_getElem?.1 hc'
  have heq : k = k' := by rw [← h.toNat_id hfew hk, ← h.toNat_id hfew hk', hid]
  rw [heq, hk'] at hk
  exact (Option.some.inj hk).symm

/-- The superclasses of a class, theirs, and so on, are classes of the table. -/
theorem Registered.lineage_subset (h : t.Registered) (hc : c ∈ t.classes) :
    ∀ a ∈ c.lineage, a ∈ t.classes := by
  fun_induction ClassHandle.lineage c with
  | case1 c _ => simpa using hc
  | case2 c parent hparent ih =>
    exact List.forall_mem_cons.2 ⟨hc, ih (h.superclass_mem c hc parent hparent)⟩

end ClassTable

end StackVm
