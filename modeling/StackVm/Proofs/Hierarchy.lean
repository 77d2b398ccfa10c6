import Mathlib.Data.List.Chain
import StackVm.Proofs.Registry
/-!
# Classes in the order of their definition

A class gets the number of those before it as its identifier, and can only be put below a class that
is there. Nothing checks that superclasses do not run in a circle; it follows from this order. The
superclass of a class stands before it (`ClassTable.Ranked`), so its identifier is smaller
(`Ranked.superclass_id_lt`), and the way up from a class falls from identifier to identifier until
it ends (`Ranked.pairwise_lineage`, `Ranked.length_lineage_le`). A history only adds to the classes
(`toList_classes_after`), so what is said of a class is said for good.
-/

namespace StackVm

namespace ClassHandle

theorem head?_lineage (c : ClassHandle) : c.lineage.head? = some c := by
  fun_cases lineage c <;> rfl

/-- Each class of a lineage stands below the next. -/
theorem isChain_lineage (c : ClassHandle) :
    c.lineage.IsChain fun a b => a.superclass? = some b := by
  fun_induction lineage c with
  | case1 => exact List.isChain_singleton _
  | case2 c parent h ih =>
    refine List.isChain_cons.2 ⟨?_, ih⟩
    intro next hnext
    rw [h, ← head?_lineage parent]
    exact hnext

/-- A lineage goes on to a class without a superclass. -/
theorem exists_last_lineage (c : ClassHandle) :
    ∃ last, c.lineage.getLast? = some last ∧ last.superclass? = none := by
  fun_induction lineage c with
  | case1 c h => exact ⟨c, rfl, h⟩
  | case2 c parent h ih =>
    obtain ⟨last, hlast, hnone⟩ := ih
    exact ⟨last, by rw [List.getLast?_cons, hlast]; rfl, hnone⟩

end ClassHandle

namespace ClassTable

variable {t : ClassTable} {history : List Definition} {d : Definition} {c parent : ClassHandle}

/-! ## The classes that a history makes -/

/-- The classes and modules that a history makes, in order. -/
def made (t : ClassTable) : List Definition → List ClassHandle
  | [] => []
  | d :: rest => (t.made? d).toList ++ (t.define d).made rest

/-- **A history adds the classes that it makes**, behind those that were there. -/
theorem toList_classes_after (t : ClassTable) (history : List Definition) :
    (t.after history).classes.toList = t.classes.toList ++ t.made history := by
  induction history generalizing t with
  | nil => simp [made]
  | cons d rest ih =>
    have hstep : (t.define d).classes.toList = t.classes.toList ++ (t.made? d).toList := by
      rcases classes_define t d with ⟨hnone, hsame⟩ | ⟨c, hmade, hpush⟩
      · simp [hnone, hsame]
      · simp [hmade, hpush]
    calc (t.after (d :: rest)).classes.toList
        = ((t.define d).after rest).classes.toList := rfl
      _ = (t.define d).classes.toList ++ (t.define d).made rest := ih (t.define d)
      _ = t.classes.toList ++ t.made (d :: rest) := by rw [hstep, made, List.append_assoc]

/-- A class keeps its place, and what it says of itself. -/
theorem getElem?_classes_after {k : Nat} (h : t.classes[k]? = some c) (history : List Definition) :
    (t.after history).classes[k]? = some c := by
  rw [← Array.getElem?_toList] at h ⊢
  obtain ⟨hk, -⟩ := List.getElem?_eq_some_iff.1 h
  rw [toList_classes_after, List.getElem?_append_left hk, h]

/-- **The serial counts the definitions**, modulo the number of words. -/
theorem serial_after (t : ClassTable) (history : List Definition) :
    (t.after history).serial.toNat = (t.serial.toNat + history.length) % UInt64.size := by
  induction history using List.reverseRecOn with
  | nil => exact (Nat.mod_eq_of_lt t.serial.toNat_lt).symm
  | append_singleton history d ih =>
    rw [after_concat, serial_define, UInt64.toNat_add, ih, List.length_append]
    simp only [UInt64.size, UInt64.toNat_one, List.length_singleton]
    omega

/-! ## Superclasses stand before their classes -/

/-- What holds of the superclasses in a table that a history made. -/
structure Ranked (t : ClassTable) : Prop extends Registered t where
  /-- The superclass of a class stands before it. -/
  older : ∀ (k : Nat) (c parent : ClassHandle), t.classes[k]? = some c →
    c.superclass? = some parent → ∃ j < k, t.classes[j]? = some parent
  /-- Only modules and `BasicObject` are without one. -/
  topmost : ∀ c ∈ t.classes, c.superclass? = none ↔ c.isModule = true ∨ c = basicObject

/-- The core classes are in order. -/
theorem ranked_core : core.Ranked where
  toRegistered := registered_core
  older k c parent hk hparent := by
    have hall : ∀ entry ∈ coreClasses.zipIdx, ∀ parent ∈ entry.1.superclass?,
        ∃ j < entry.2, coreClasses[j]? = some parent := by decide
    have hmem : (c, k) ∈ coreClasses.zipIdx :=
      List.mk_mem_zipIdx_iff_getElem?.2 (by simpa [core] using hk)
    simpa [core] using hall (c, k) hmem parent hparent
  topmost := by
    have hall : ∀ c ∈ coreClasses, c.superclass? = none ↔ c.isModule = true ∨ c = basicObject := by
      decide
    simpa [core] using hall

/-- **A definition keeps the order.** -/
theorem Ranked.define (h : t.Ranked)
    (hextends : ∀ parent, d.superclass? = some parent → parent ∈ t.classes) :
    (t.define d).Ranked := by
  have hregistered := h.toRegistered.define hextends
  rcases classes_define t d with ⟨-, hsame⟩ | ⟨c, hmade, hpush⟩
  · exact ⟨hregistered, hsame ▸ h.older, hsame ▸ h.topmost⟩
  refine ⟨hregistered, ?_, ?_⟩
  · have hkept : ∀ (j : Nat) (a : ClassHandle), t.classes[j]? = some a →
        j < t.classes.size ∧ (t.classes.push c)[j]? = some a := by
      intro j a hj
      have hlt := (Array.getElem?_eq_some_iff.1 hj).1
      rw [Array.getElem?_push, if_neg (by omega)]
      exact ⟨hlt, hj⟩
    intro k a parent hk hparent
    rw [hpush] at hk ⊢
    rw [Array.getElem?_push] at hk
    split at hk
    · -- The new class stands last, and its superclass was there.
      rename_i hlast
      obtain rfl := Option.some.inj hk
      obtain ⟨j, hj⟩ := Array.mem_iff_getElem?.1 (h.mem_of_made? hextends hmade hparent)
      exact ⟨j, hlast ▸ hkept j parent hj⟩
    · obtain ⟨j, hlt, hj⟩ := h.older k a parent hk hparent
      exact ⟨j, hlt, (hkept j parent hj).2⟩
  · obtain ⟨-, -, hmodule⟩ := made?_spec hmade
    intro a ha
    rw [hpush] at ha
    rcases Array.mem_push.1 ha with hold | rfl
    · exact h.topmost a hold
    · refine hmodule.trans ⟨.inl, ?_⟩
      rintro (hyes | rfl)
      · exact hyes
      · exact hmodule.1 rfl

/-- **So does a history.** -/
theorem ExtendsWithin.ranked (h : core.ExtendsWithin history) : (core.after history).Ranked :=
  h.keeps ranked_core fun _ _ => Ranked.define

/-! ## The way up -/

namespace Ranked

variable (h : t.Ranked) (hfew : t.classes.size ≤ UInt32.size)
include h hfew

/-- **A superclass has a smaller identifier.** -/
theorem superclass_id_lt (hc : c ∈ t.classes) (hparent : c.superclass? = some parent) :
    parent.id.toNat < c.id.toNat := by
  obtain ⟨k, hk⟩ := Array.mem_iff_getElem?.1 hc
  obtain ⟨j, hlt, hj⟩ := h.older k c parent hk hparent
  rwa [h.toNat_id hfew hk, h.toNat_id hfew hj]

/-- So no class of a lineage has a greater one than its first. -/
theorem id_le_of_mem_lineage (hc : c ∈ t.classes) :
    ∀ a ∈ c.lineage, a.id.toNat ≤ c.id.toNat := by
  fun_induction ClassHandle.lineage c with
  | case1 c _ => simp
  | case2 c parent hparent ih =>
    have hlt := h.superclass_id_lt hfew hc hparent
    refine List.forall_mem_cons.2 ⟨Nat.le_refl _, ?_⟩
    intro a ha
    have hle := ih (h.superclass_mem c hc parent hparent) a ha
    omega

/-- **The way up falls from identifier to identifier.** -/
theorem pairwise_lineage (hc : c ∈ t.classes) :
    c.lineage.Pairwise fun a b => b.id.toNat < a.id.toNat := by
  fun_induction ClassHandle.lineage c with
  | case1 c _ => exact List.pairwise_singleton _ _
  | case2 c parent hparent ih =>
    have hmem := h.superclass_mem c hc parent hparent
    have hlt := h.superclass_id_lt hfew hc hparent
    refine List.pairwise_cons.2 ⟨?_, ih hmem⟩
    intro a ha
    have hle := h.id_le_of_mem_lineage hfew hmem a ha
    omega

/-- It has no more classes than there are identifiers up to that of the first. -/
theorem length_lineage_le (hc : c ∈ t.classes) : c.lineage.length ≤ c.id.toNat + 1 := by
  fun_induction ClassHandle.lineage c with
  | case1 c _ => simp
  | case2 c parent hparent ih =>
    have hlt := h.superclass_id_lt hfew hc hparent
    have hle := ih (h.superclass_mem c hc parent hparent)
    rw [List.length_cons]
    omega

end Ranked

/-! ## The classes of a table -/

/-- The identifiers of the classes are the numbers of their places. -/
theorem Registered.ids_eq (h : t.Registered) (hfew : t.classes.size ≤ UInt32.size) :
    t.classes.toList.map (fun c => c.id.toNat) = List.range t.classes.size := by
  refine List.ext_getElem (by simp) ?_
  intro k hk _
  have hplace : k < t.classes.size := by simpa using hk
  simpa using h.toNat_id hfew (Array.getElem?_eq_getElem hplace)

/-- References to classes are equal just when the classes have one place. -/
theorem Registered.equals_iff {i j : Nat} {c d : ClassHandle} (h : t.Registered)
    (hfew : t.classes.size ≤ UInt32.size) (hi : t.classes[i]? = some c)
    (hj : t.classes[j]? = some d) :
    (Value.classHandle c).equals (.classHandle d) = true ↔ i = j := by
  rw [Value.equals_eq_eql, Value.eql, beq_iff_eq, ← UInt32.toNat_inj, h.toNat_id hfew hi,
    h.toNat_id hfew hj]

/-- A class among the classes of a table, and the way up from it. -/
structure Placed (t : ClassTable) (c : ClassHandle) : Prop where
  /-- Its superclass is a class of the table, of a smaller identifier. -/
  superclass : ∀ parent, c.superclass? = some parent → parent ∈ t.classes ∧ parent.id < c.id
  /-- It has none if it is a module or `BasicObject`, and only then. -/
  topmost : c.superclass? = none ↔ c.isModule = true ∨ c = basicObject
  /-- Its ancestors are the classes on the way up. -/
  ancestors : c.ancestors = c.lineage.map ClassHandle.toClassHeader
  /-- The way up starts with the class itself. -/
  first : c.lineage.head? = some c
  /-- It goes from superclass to superclass, over classes of the table. -/
  next : (c.lineage.IsChain fun a b => a.superclass? = some b) ∧ ∀ a ∈ c.lineage, a ∈ t.classes
  /-- It ends at a class without one, after no more steps than the identifier says. -/
  last : (∃ a, c.lineage.getLast? = some a ∧ a.superclass? = none) ∧
    c.lineage.length ≤ c.id.toNat + 1
  /-- On it the identifiers only get smaller. -/
  decreasing : (c.ancestors.map ClassHeader.id).Pairwise fun a b => b < a
  /-- No class is met twice. -/
  nodup : c.ancestors.Nodup

/-- **Every class is in its place.** -/
theorem Ranked.placed (h : t.Ranked) (hfew : t.classes.size ≤ UInt32.size) (hc : c ∈ t.classes) :
    t.Placed c := by
  have hdecreasing : (c.ancestors.map ClassHeader.id).Pairwise fun a b => b < a := by
    rw [← c.map_lineage, List.map_map, List.pairwise_map]
    exact (h.pairwise_lineage hfew hc).imp fun hlt => UInt32.lt_iff_toNat_lt.2 hlt
  have hnodup : (c.ancestors.map ClassHeader.id).Nodup :=
    hdecreasing.imp fun hlt => (UInt32.ne_of_lt hlt).symm
  exact {
    superclass := fun parent hparent => ⟨h.superclass_mem c hc parent hparent,
      UInt32.lt_iff_toNat_lt.2 (h.superclass_id_lt hfew hc hparent)⟩
    topmost := h.topmost c hc
    ancestors := c.map_lineage.symm
    first := c.head?_lineage
    next := ⟨c.isChain_lineage, h.lineage_subset hc⟩
    last := ⟨c.exists_last_lineage, h.length_lineage_le hfew hc⟩
    decreasing := hdecreasing
    nodup := (List.pairwise_map.1 hnodup).imp fun hne heq => hne (by rw [heq]) }

/-- **Classes are numbered in the order of their definition.** Take any history whose superclasses
are classes that are there, with no more classes than identifiers. The table holds the core classes
and behind them those that the history made, with the identifiers `0`, `1` and so on, so that two
references are equal just when one definition made them. Every class has its superclass before it,
and the way up from it is finite and without repetition. Whatever is defined later, a class keeps
its place and all that it says; and the serial is the number of definitions. -/
theorem classes_by_history {history : List Definition} (hextends : core.ExtendsWithin history)
    (hfew : (core.after history).classes.size ≤ UInt32.size) :
    (core.after history).classes.toList = coreClasses ++ core.made history ∧
      (core.after history).classes.toList.map (fun c => c.id.toNat) =
        List.range (core.after history).classes.size ∧
      (∀ (i j : Nat) (c d : ClassHandle), (core.after history).classes[i]? = some c →
        (core.after history).classes[j]? = some d →
        ((Value.classHandle c).equals (.classHandle d) = true ↔ i = j)) ∧
      (∀ c ∈ (core.after history).classes, (core.after history).Placed c) ∧
      (∀ (later : List Definition) (k : Nat) (c : ClassHandle),
        (core.after history).classes[k]? = some c →
        (core.after (history ++ later)).classes[k]? = some c) ∧
      (core.after history).environment.serial.toNat = history.length % UInt64.size := by
  have hranked := hextends.ranked
  refine ⟨toList_classes_after core history, hranked.ids_eq hfew, ?_, ?_, ?_, ?_⟩
  · intro i j c d hi hj
    exact hranked.equals_iff hfew hi hj
  · intro c hc
    exact hranked.placed hfew hc
  · intro later k c hk
    rw [after_append]
    exact getElem?_classes_after hk later
  · have hserial := serial_after core history
    rwa [show core.serial.toNat = 0 from rfl, Nat.zero_add] at hserial

/-- A module of the top level. -/
def outer : ClassHandle := (core.defineModule "M" none).1

/-- A class in it. -/
def inner : ClassHandle :=
  ((core.define (.ofModule "M" none)).defineClass "A" none (some outer)).1

/-- A class of the same name in the same module, below the first. -/
def renewed : ClassHandle :=
  ((core.after [.ofModule "M" none, .ofClass "A" none (some outer)]).defineClass "A" (some inner)
    (some outer)).1

/-- Defines the three and a constant. -/
def nesting : List Definition :=
  [.ofModule "M" none, .ofClass "A" none (some outer), .ofClass "A" (some inner) (some outer),
   .ofConstant outer "N" .nil]

/-- The two classes share their name and nothing else. -/
theorem classes_by_history_nesting :
    core.ExtendsWithin nesting ∧ (core.after nesting).classes.size ≤ UInt32.size ∧
      core.made nesting = [outer, inner, renewed] ∧ renewed.name = inner.name ∧
      (Value.classHandle renewed).equals (.classHandle inner) = false ∧
      inner.id < renewed.id ∧ renewed.ancestors.Nodup ∧
      (core.after nesting).environment.serial.toNat = 4 := by
  have hextends : core.ExtendsWithin nesting := RefersWithin.extendsWithin (by decide +kernel)
  have hfew : (core.after nesting).classes.size ≤ UInt32.size := by decide +kernel
  obtain ⟨-, -, hequal, hplaced, -, hserial⟩ := classes_by_history hextends hfew
  have hinner : (core.after nesting).classes[16]? = some inner := rfl
  have hrenewed : (core.after nesting).classes[17]? = some renewed := rfl
  have hplace := hplaced renewed (Array.mem_of_getElem? hrenewed)
  refine ⟨hextends, hfew, rfl, rfl, ?_, (hplace.superclass inner rfl).2, hplace.nodup, hserial⟩
  rw [Bool.eq_false_iff]
  intro heq
  exact absurd ((hequal 17 16 renewed inner hrenewed hinner).1 heq) (by decide)

end ClassTable

end StackVm
