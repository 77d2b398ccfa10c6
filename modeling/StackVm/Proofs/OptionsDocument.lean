import Mathlib.Data.List.Nodup
import StackVm.Options.Document
import StackVm.Proofs.TomlLines
/-!
# Options survive their document

Options are written as one line for each field that has a value, and read with the default for each
field that has no line. A document may hold any of the lines, in any order; it is read as the table
of just these fields (`parse?_document`), and the options that the table gives are the default
options with these fields overwritten (`ofTable?_table`). Written whole, options are overwritten by
all of their own fields, which leaves nothing of the default.
-/

namespace StackVm.Options

/-- The fields of options. -/
inductive Field where
  /-- The number of values that the operand stack may hold. -/
  | maxStackSize
  /-- Whether finalised look-ups fill cache slots. -/
  | inlineCaching
  /-- Whether line events reach an observer. -/
  | traceLines
  /-- The number of instructions granted. -/
  | maxSteps
  deriving DecidableEq, Repr

namespace Field

/-- The key of a field. -/
def key : Field → String
  | .maxStackSize => "max_stack_size"
  | .inlineCaching => "inline_caching"
  | .traceLines => "trace_lines"
  | .maxSteps => "max_steps"

/-- All fields, in the order in which they are written. -/
def all : List Field := [.maxStackSize, .inlineCaching, .traceLines, .maxSteps]

theorem key_injective : Function.Injective key := by
  intro f g h
  cases f <;> cases g <;> simp_all [key]

/-- The keys need no quotes. -/
theorem isBareKey_key (f : Field) : Toml.IsBareKey f.key.toList := by
  cases f <;> decide

end Field

variable {o : Options} {f : Field} {fields : List Field}

/-! ## What is written -/

/-- The text of a field, if it has a value. -/
def text? (o : Options) : Field → Option String
  | .maxStackSize => some (toString o.maxStackSize.toNat)
  | .inlineCaching => some (Text.Record.dumpBool o.inlineCaching)
  | .traceLines => some (Text.Record.dumpBool o.traceLines)
  | .maxSteps => o.maxSteps.map fun n => toString n.toNat

/-- The document with the lines of some fields, in their order. A field without a value has no
line. -/
def document (o : Options) (fields : List Field) : String :=
  String.join (fields.filterMap fun f => (o.text? f).map (documentLine f.key))

theorem document_cons_none (h : o.text? f = none) (fields : List Field) :
    o.document (f :: fields) = o.document fields := by
  rw [document, List.filterMap_cons_none (by rw [h]; rfl)]
  rfl

theorem document_cons_some {text : String} (h : o.text? f = some text) (fields : List Field) :
    o.document (f :: fields) = documentLine f.key text ++ o.document fields := by
  rw [document, List.filterMap_cons_some (by rw [h]; rfl), String.join_cons]
  rfl

/-- The numbers of the options are not too great for a document. -/
structure Writable (o : Options) : Prop where
  /-- The size of the stack is an integer of TOML. -/
  size : o.maxStackSize.toNat ≤ 0x7FFFFFFFFFFFFFFF
  /-- So is the bound on the instructions. -/
  steps : ∀ n, o.maxSteps = some n → n.toNat ≤ 0x7FFFFFFFFFFFFFFF

theorem Writable.integerText? {n : UInt64} (hn : n.toNat ≤ 0x7FFFFFFFFFFFFFFF) :
    Options.integerText? n = some (toString n.toNat) :=
  if_pos (Nat.lt_succ_of_le hn)

/-- **Options are written whole**, if they can be written. -/
theorem toToml?_eq (h : o.Writable) : o.toToml? = some (o.document Field.all) := by
  have hsize := Writable.integerText? h.size
  cases hsteps : o.maxSteps with
  | none =>
    simp [toToml?, hsize, hsteps, document, Field.all, text?, Field.key, String.append_assoc]
  | some n =>
    have hn := Writable.integerText? (h.steps n hsteps)
    simp [toToml?, hsize, hsteps, hn, document, Field.all, text?, Field.key, String.append_assoc]

/-! ## What is read -/

/-- The item of a field, if it has a value. -/
def item? (o : Options) : Field → Option Toml.Item
  | .maxStackSize => some (.integer o.maxStackSize.toNat)
  | .inlineCaching => some (.boolean o.inlineCaching)
  | .traceLines => some (.boolean o.traceLines)
  | .maxSteps => o.maxSteps.map fun n => .integer n.toNat

/-- The table of some fields. -/
def table (o : Options) (fields : List Field) : Toml.Table :=
  fields.filterMap fun f => (o.item? f).map (f.key, ·)

theorem table_cons_none (h : o.item? f = none) (fields : List Field) :
    o.table (f :: fields) = o.table fields :=
  List.filterMap_cons_none (by rw [h]; rfl)

theorem table_cons_some {item : Toml.Item} (h : o.item? f = some item) (fields : List Field) :
    o.table (f :: fields) = (f.key, item) :: o.table fields :=
  List.filterMap_cons_some (by rw [h]; rfl)

/-- A number of the options stands for itself. -/
theorem denotes_number {n : UInt64} (hn : n.toNat ≤ 0x7FFFFFFFFFFFFFFF) :
    Toml.Denotes (toString n.toNat).toList (.integer n.toNat) := by
  rw [Nat.toString_eq_ofList_toDigits, String.toList_ofList]
  exact Toml.denotes_digits (Nat.lt_succ_of_le hn)

/-- **The text of a field stands for its item**, and if it has none there is none. -/
theorem exists_line (h : o.Writable) (f : Field) :
    o.text? f = none ∧ o.item? f = none ∨
      ∃ l : Toml.Line, l.name = f.key ∧ o.text? f = some l.text ∧ o.item? f = some l.item := by
  cases f with
  | maxStackSize =>
    exact .inr ⟨⟨_, _, _, Field.isBareKey_key .maxStackSize, denotes_number h.size⟩, rfl, rfl, rfl⟩
  | inlineCaching =>
    exact .inr ⟨⟨_, _, _, Field.isBareKey_key .inlineCaching, Toml.denotes_truth _⟩, rfl, rfl, rfl⟩
  | traceLines =>
    exact .inr ⟨⟨_, _, _, Field.isBareKey_key .traceLines, Toml.denotes_truth _⟩, rfl, rfl, rfl⟩
  | maxSteps =>
    cases hsteps : o.maxSteps with
    | none => exact .inl ⟨by rw [text?, hsteps]; rfl, by rw [item?, hsteps]; rfl⟩
    | some n =>
      exact .inr ⟨⟨_, _, _, Field.isBareKey_key .maxSteps, denotes_number (h.steps n hsteps)⟩, rfl,
        by rw [text?, hsteps]; rfl, by rw [item?, hsteps]; rfl⟩

/-- A line is written as it is read. -/
theorem documentLine_eq (l : Toml.Line) : documentLine l.name l.text = String.ofList l.chars := by
  refine String.toList_inj.1 ?_
  simp [documentLine, Toml.Line.chars, Toml.line]

/-- So a document consists of lines, and they make its table. -/
theorem exists_lines (h : o.Writable) (fields : List Field) :
    ∃ lines : List Toml.Line, o.document fields = String.ofList (lines.flatMap Toml.Line.chars) ∧
      o.table fields = lines.map Toml.Line.entry := by
  induction fields with
  | nil => exact ⟨[], rfl, rfl⟩
  | cons f fields ih =>
    obtain ⟨lines, hdocument, htable⟩ := ih
    obtain ⟨htext, hitem⟩ | ⟨l, hname, htext, hitem⟩ := exists_line h f
    · refine ⟨lines, ?_, ?_⟩
      · rw [document_cons_none htext, hdocument]
      · rw [table_cons_none hitem, htable]
    · refine ⟨l :: lines, ?_, ?_⟩
      · rw [document_cons_some htext, hdocument, ← hname, documentLine_eq, ← String.ofList_append,
          List.flatMap_cons]
      · rw [table_cons_some hitem, htable, ← hname]
        rfl

/-- The keys of a table are keys of its fields. -/
theorem map_fst_table (o : Options) (fields : List Field) :
    List.Sublist ((o.table fields).map Prod.fst) (fields.map Field.key) := by
  induction fields with
  | nil => exact List.Sublist.slnil
  | cons f fields ih =>
    cases hitem : o.item? f with
    | none =>
      rw [table_cons_none hitem]
      exact ih.cons _
    | some item =>
      rw [table_cons_some hitem]
      exact ih.cons_cons _

/-- **A document is read as the table of its fields.** -/
theorem parse?_document (h : o.Writable) (hnodup : fields.Nodup) :
    Toml.parse? (o.document fields) = some (o.table fields) := by
  obtain ⟨lines, htext, htable⟩ := exists_lines h fields
  have hkeys := (hnodup.map Field.key_injective).sublist (map_fst_table o fields)
  rw [htable] at hkeys ⊢
  rw [htext, Toml.parse?_lines lines hkeys]

/-- A key of the table has the item of its field. -/
theorem lookup_table (o : Options) (fields : List Field) (f : Field) :
    (o.table fields).lookup f.key = if f ∈ fields then o.item? f else none := by
  induction fields with
  | nil => rfl
  | cons g fields ih =>
    by_cases hfg : f = g
    · subst hfg
      cases hitem : o.item? f with
      | none =>
        rw [table_cons_none hitem, ih, hitem]
        simp
      | some item =>
        rw [table_cons_some hitem]
        simp
    · have hkey : (f.key == g.key) = false := by simpa using Field.key_injective.ne hfg
      cases hitem : o.item? g with
      | none =>
        rw [table_cons_none hitem, ih]
        simp [hfg]
      | some item =>
        rw [table_cons_some hitem, List.lookup_cons, hkey]
        simp [hfg, ih]

/-- A field that is a number is read as such from the table. -/
theorem number?_table {n : Option UInt64} (hitem : o.item? f = n.map fun n => .integer n.toNat)
    (fields : List Field) :
    number? (o.table fields) f.key = some (if f ∈ fields then n else none) := by
  rw [number?, lookup_table, hitem]
  split_ifs with hmem
  · cases n <;> simp
  · rfl

/-- And one that is a truth value. -/
theorem switch?_table {b : Bool} (hitem : o.item? f = some (.boolean b)) (fields : List Field) :
    switch? (o.table fields) f.key = some (if f ∈ fields then some b else none) := by
  rw [switch?, lookup_table, hitem]
  split_ifs with hmem
  · rfl
  · rfl

/-- The default options with some fields overwritten by those of others. -/
def overlay (o : Options) (fields : List Field) : Options :=
  let initial : Options := {}
  { maxStackSize := if .maxStackSize ∈ fields then o.maxStackSize else initial.maxStackSize
    inlineCaching := if .inlineCaching ∈ fields then o.inlineCaching else initial.inlineCaching
    traceLines := if .traceLines ∈ fields then o.traceLines else initial.traceLines
    maxSteps := if .maxSteps ∈ fields then o.maxSteps else initial.maxSteps }

/-- **A table of fields overwrites these fields of the default options.** -/
theorem ofTable?_table (o : Options) (fields : List Field) :
    ofTable? (o.table fields) = some (o.overlay fields) := by
  have hsize : number? (o.table fields) "max_stack_size" = _ :=
    @number?_table o .maxStackSize (some o.maxStackSize) rfl fields
  have hcaching : switch? (o.table fields) "inline_caching" = _ :=
    @switch?_table o .inlineCaching _ rfl fields
  have hlines : switch? (o.table fields) "trace_lines" = _ :=
    @switch?_table o .traceLines _ rfl fields
  have hsteps : number? (o.table fields) "max_steps" = _ :=
    @number?_table o .maxSteps _ rfl fields
  rw [ofTable?, hsize, hcaching, hlines, hsteps, overlay]
  split_ifs <;> rfl

/-- Overwritten by all fields, nothing of the default is left. -/
theorem overlay_all (o : Options) : o.overlay Field.all = o := rfl

/-- **A document is read as the default options with its fields overwritten**, if these can be
used. -/
theorem ofToml_document (h : o.Writable) (hnodup : fields.Nodup) :
    ofToml (o.document fields) = (o.overlay fields).validate.map fun _ => o.overlay fields := by
  rw [ofToml, parse?_document h hnodup, Option.bind_some, ofTable?_table]
  change ((o.overlay fields).validate >>= fun _ => pure (o.overlay fields)) = _
  cases (o.overlay fields).validate with
  | error e => rfl
  | ok => rfl

/-- **Options survive their document.** Options whose numbers are integers of TOML can be written.
Read again, they are the same options, or what is wrong with them. More generally, of any of their
lines in any order the reader makes the default options with just these fields overwritten, or what
is wrong with those. -/
theorem survives_document (h : o.Writable) :
    (∃ text, o.toToml? = some text ∧ ofToml text = o.validate.map fun _ => o) ∧
      ∀ fields : List Field, fields.Nodup →
        ofToml (o.document fields) = (o.overlay fields).validate.map fun _ => o.overlay fields := by
  refine ⟨⟨o.document Field.all, toToml?_eq h, ?_⟩, fun fields hnodup => ofToml_document h hnodup⟩
  have hread := @ofToml_document o Field.all h (by decide)
  rwa [overlay_all] at hread

/-- Options with a stack of some size that differ from the default in all else, with the greatest
bound on the instructions that can be written. -/
def unusual (size : UInt64) : Options where
  maxStackSize := size
  inlineCaching := true
  traceLines := false
  maxSteps := some 0x7FFFFFFFFFFFFFFF

/-- They are read again as they were, and two of their lines in another order leave the other fields
at their default. Without a stack they are refused, unless the line that says so is left out. -/
theorem survives_document_unusual :
    (unusual 16).Writable ∧
      (∃ text, (unusual 16).toToml? = some text ∧ ofToml text = .ok (unusual 16)) ∧
      (unusual 16).document [.maxSteps, .inlineCaching] =
        "max_steps = 9223372036854775807\ninline_caching = true\n" ∧
      ofToml ((unusual 16).document [.maxSteps, .inlineCaching]) =
        .ok { inlineCaching := true, maxSteps := some 0x7FFFFFFFFFFFFFFF } ∧
      (∃ text, (unusual 0).toToml? = some text ∧ ofToml text = .error .noStack) ∧
      ofToml ((unusual 0).document [.traceLines]) = .ok { traceLines := false } := by
  have hwritable : ∀ size : UInt64, size.toNat ≤ 0x7FFFFFFFFFFFFFFF → (unusual size).Writable := by
    intro size hsize
    refine ⟨hsize, ?_⟩
    rintro n ⟨⟩
    decide
  have hsome := hwritable 16 (by decide)
  have hnone := hwritable 0 (by decide)
  refine ⟨hsome, ?_, by decide, ?_, ?_, ?_⟩
  · exact (survives_document hsome).1
  · exact (survives_document hsome).2 _ (by decide)
  · exact (survives_document hnone).1
  · exact (survives_document hnone).2 _ (by decide)

end StackVm.Options
