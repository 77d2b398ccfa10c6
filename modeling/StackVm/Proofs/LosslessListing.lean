import Mathlib.Data.List.Basic
import StackVm.Instruction.Listing
import StackVm.Proofs.ValueLiteral
/-!
# Listings are lossless

No operand breaks a line and none ends in a blank (`Instruction.isSolid_operand`), so a listing
splits at its newlines into the rows it was made of, and the trimming of a line takes the padding of
`nop` and nothing else (`Instruction.trimEnd_line`). A row tells its instruction: a line that
reaches past the column of mnemonics has an operand, and the column tells whose
(`Instruction.listed_inj`). So two programs with one listing are one program, as long as their
literals hold no class and no float that is no number.
-/

namespace StackVm

namespace Instruction

open Text (IsSolid)

/-- An instruction whose literal, if it pushes one, its text tells. -/
def Legible (i : Instruction) : Prop := ∀ object, i = .putObject object → object.Legible

/-- How an instruction stands in a listing: its mnemonic alone, or in its column and the operand
after it. -/
def listed (i : Instruction) : List Char :=
  match i.operand? with
  | some operand => i.column ++ ' ' :: operand
  | none => i.mnemonic.toList

/-! ## Mnemonics -/

/-- The names that instructions are listed by. -/
def mnemonics : List String :=
  ["getconstant", "newhash", "nop", "opt_setinlinecache", "putobject", "putobject_INT2FIX_1_",
   "setn"]

theorem mnemonic_mem (i : Instruction) : i.mnemonic ∈ mnemonics := by
  cases i <;> simp [mnemonic, mnemonics]

/-- Mnemonics fit their column and have no blanks. -/
theorem mnemonic_spec (i : Instruction) : i.mnemonic.toList ≠ [] ∧
    i.mnemonic.toList.length < columnWidth ∧
    ∀ c ∈ i.mnemonic.toList, Unicode.isWhiteSpace c = false := by
  have hall : ∀ m ∈ mnemonics, m.toList ≠ [] ∧ m.toList.length < columnWidth ∧
      (m.toList.all fun c => Unicode.isWhiteSpace c = false) = true := by decide
  obtain ⟨hne, hlt, hblank⟩ := hall i.mnemonic i.mnemonic_mem
  exact ⟨hne, hlt, List.all_iff_forall_prop.1 hblank⟩

theorem isSolid_mnemonic (i : Instruction) : IsSolid i.mnemonic.toList :=
  Text.isSolid_of_not_blank i.mnemonic_spec.1 i.mnemonic_spec.2.2

theorem length_column (i : Instruction) : i.column.length = columnWidth := by
  have hlt := i.mnemonic_spec.2.1
  rw [column, List.length_append, List.length_replicate]
  omega

theorem newline_not_mem_column (i : Instruction) : '\n' ∉ i.column := by
  have hmnemonic := i.isSolid_mnemonic.1
  simp [column, hmnemonic]

end Instruction

/-! ## Trimming -/

namespace Listing

/-- A text that does not end in a blank is left as it is. -/
theorem trimEnd_of_isSolid {text : List Char} (h : Text.IsSolid text) : trimEnd text = text := by
  obtain ⟨-, front, last, rfl, hlast⟩ := h
  simp [trimEnd, hlast]

/-- Blanks at the end go. -/
theorem trimEnd_append_blanks (text : List Char) (n : ℕ) :
    trimEnd (text ++ List.replicate n ' ') = trimEnd text := by
  have hblanks : ∀ c ∈ List.replicate n ' ', Unicode.isWhiteSpace c = true := by
    intro c hc
    rw [List.eq_of_mem_replicate hc]
    decide
  rw [trimEnd, trimEnd, List.reverse_append, List.reverse_replicate,
    List.dropWhile_append_of_pos hblanks]

end Listing

namespace Instruction

open Text (IsSolid)

theorem trimEnd_column (i : Instruction) : Listing.trimEnd i.column = i.mnemonic.toList := by
  rw [column, Listing.trimEnd_append_blanks, Listing.trimEnd_of_isSolid i.isSolid_mnemonic]

/-! ## Lines -/

theorem isSolid_digits (n : ℕ) : IsSolid (Nat.toDigits 10 n) := by
  refine Text.isSolid_of_not_blank Nat.toDigits_ne_nil ?_
  intro c hc
  exact (Value.IsWordChar.spec (.inl (Decimal.allDigits_toDigits n c hc))).2.1

/-- **No operand breaks a line or ends in a blank.** -/
theorem isSolid_operand {i : Instruction} {operand : List Char} (hi : i.Legible)
    (h : i.operand? = some operand) : IsSolid operand := by
  cases i with
  | nop | putOne => cases h
  | getConstant name =>
    obtain rfl := Option.some.inj h
    exact Text.Symbol.isSolid_literal _
  | newHash size =>
    obtain rfl := Option.some.inj h
    exact isSolid_digits _
  | setN index =>
    obtain rfl := Option.some.inj h
    exact isSolid_digits _
  | putObject object =>
    obtain rfl := Option.some.inj h
    exact (hi object rfl).isSolid
  | setInlineCache slot =>
    obtain rfl := Option.some.inj h
    have hdigits := (isSolid_digits slot.toNat).1
    exact ⟨by simp [hdigits], "<is:".toList ++ Nat.toDigits 10 slot.toNat, '>', rfl, by decide⟩

/-- What an instruction is listed by is solid. -/
theorem isSolid_listed {i : Instruction} (hi : i.Legible) : IsSolid i.listed := by
  unfold listed
  split
  · rename_i operand hoperand
    obtain ⟨hline, front, last, rfl, hlast⟩ := isSolid_operand hi hoperand
    refine ⟨?_, i.column ++ ' ' :: front, last, by simp, hlast⟩
    simp only [List.mem_append, List.mem_cons, not_or] at hline ⊢
    exact ⟨i.newline_not_mem_column, by decide, hline⟩
  · exact i.isSolid_mnemonic

/-- **The trimming of a line takes the padding of `nop` and nothing else.** -/
theorem trimEnd_line {i : Instruction} (hi : i.Legible) : Listing.trimEnd i.line = i.listed := by
  have hsolid := Listing.trimEnd_of_isSolid (isSolid_listed hi)
  cases i with
  | nop => exact trimEnd_column .nop
  | getConstant | newHash | setInlineCache | putObject | putOne | setN => exact hsolid

theorem toDigits_inj {m n : ℕ} (h : Nat.toDigits 10 m = Nat.toDigits 10 n) : m = n := by
  have hread := congrArg (Nat.ofDigitChars 10 · 0) h
  simpa using hread

/-- The mnemonic tells the instruction but for its operand, and the operand's text the operand. -/
theorem eq_of_operand?_eq {i j : Instruction} (hi : i.Legible) (hj : j.Legible)
    (hmnemonic : i.mnemonic = j.mnemonic) (hoperand : i.operand? = j.operand?) : i = j := by
  cases i with
  | getConstant name =>
    cases j with
    | getConstant name' =>
      have htext := congrArg (· ++ []) (Option.some.inj hoperand)
      obtain ⟨hname, -⟩ := Text.Symbol.literal_append_inj .done .done htext
      rw [String.toList_inj.1 hname]
    | newHash | nop | setInlineCache | putObject | putOne | setN => simp [mnemonic] at hmnemonic
  | newHash size =>
    cases j with
    | newHash size' => rw [UInt64.toNat_inj.1 (toDigits_inj (Option.some.inj hoperand))]
    | getConstant | nop | setInlineCache | putObject | putOne | setN => simp [mnemonic] at hmnemonic
  | nop =>
    cases j with
    | nop => rfl
    | getConstant | newHash | setInlineCache | putObject | putOne | setN =>
      simp [mnemonic] at hmnemonic
  | setInlineCache slot =>
    cases j with
    | setInlineCache slot' =>
      have htext : Nat.toDigits 10 slot.toNat = Nat.toDigits 10 slot'.toNat := by
        simpa [operand?] using hoperand
      rw [UInt32.toNat_inj.1 (toDigits_inj htext)]
    | getConstant | newHash | nop | putObject | putOne | setN => simp [mnemonic] at hmnemonic
  | putObject object =>
    cases j with
    | putObject object' =>
      rw [Value.literal_inj (hi object rfl) (hj object' rfl) (Option.some.inj hoperand)]
    | getConstant | newHash | nop | setInlineCache | putOne | setN => simp [mnemonic] at hmnemonic
  | putOne =>
    cases j with
    | putOne => rfl
    | getConstant | newHash | nop | setInlineCache | putObject | setN =>
      simp [mnemonic] at hmnemonic
  | setN index =>
    cases j with
    | setN index' => rw [UInt64.toNat_inj.1 (toDigits_inj (Option.some.inj hoperand))]
    | getConstant | newHash | nop | setInlineCache | putObject | putOne =>
      simp [mnemonic] at hmnemonic

/-- **A line tells its instruction.** -/
theorem listed_inj {i j : Instruction} (hi : i.Legible) (hj : j.Legible) (h : i.listed = j.listed) :
    i = j := by
  have hlti := i.mnemonic_spec.2.1
  have hltj := j.mnemonic_spec.2.1
  have hlength := congrArg List.length h
  unfold listed at h hlength
  split at h <;> rename_i hoperand <;> split at h <;> rename_i hoperand'
  · -- Both have an operand: the columns are of one width, so they and the operands are the same.
    obtain ⟨hcolumn, hrest⟩ := List.append_inj h (by rw [length_column, length_column])
    have hmnemonic := congrArg Listing.trimEnd hcolumn
    rw [trimEnd_column, trimEnd_column, String.toList_inj] at hmnemonic
    refine eq_of_operand?_eq hi hj hmnemonic ?_
    rw [hoperand, hoperand', (List.cons.inj hrest).2]
  · -- An operand reaches past the column, and a mnemonic does not.
    simp only [hoperand, hoperand', List.length_append, length_column] at hlength
    omega
  · simp only [hoperand, hoperand', List.length_append, length_column] at hlength
    omega
  · exact eq_of_operand?_eq hi hj (String.toList_inj.1 h) (hoperand.trans hoperand'.symm)

end Instruction

/-! ## Rows -/

namespace Listing

open Text (IsSolid)

/-- Texts that end in a character they do not hold otherwise are split at it. -/
theorem splitOn_flatten {x : Char} {texts : List (List Char)} (h : ∀ text ∈ texts, x ∉ text) :
    (texts.map (· ++ [x])).flatten.splitOn x = texts ++ [[]] := by
  induction texts with
  | nil => rfl
  | cons text rest ih =>
    obtain ⟨htext, hrest⟩ := List.forall_mem_cons.1 h
    rw [List.map_cons, List.flatten_cons, List.append_assoc, List.singleton_append,
      List.splitOn_append_cons_self_of_not_mem htext, ih hrest, List.cons_append]

/-- A row without its newline. -/
def rowText (position : ℕ) (i : Instruction) : List Char :=
  (Nat.toDigits 10 position).leftpad 4 '0' ++ ' ' :: i.listed

theorem row_eq {position : ℕ} {i : Instruction} (hi : i.Legible) :
    row position i = rowText position i ++ ['\n'] := by
  rw [row, Instruction.trimEnd_line hi, rowText, List.append_assoc]
  rfl

theorem newline_not_mem_rowText {position : ℕ} {i : Instruction} (hi : i.Legible) :
    '\n' ∉ rowText position i := by
  have hdigits := (Instruction.isSolid_digits position).1
  have hlisted := (Instruction.isSolid_listed hi).1
  simp [rowText, List.leftpad, hdigits, hlisted]

/-- The characters of a listing are its rows, each ended by a newline. -/
theorem toList_render {code : List Instruction} (h : ∀ i ∈ code, i.Legible) :
    (render code).toList = ((code.mapIdx rowText).map (· ++ ['\n'])).flatten := by
  have hrows : rowsFrom 0 code = (code.mapIdx rowText).map (· ++ ['\n']) := by
    rw [rowsFrom, List.mapIdx_eq_zipIdx_map, List.map_map]
    refine List.map_congr_left ?_
    intro entry hentry
    exact row_eq (h _ (List.fst_mem_of_mem_zipIdx hentry))
  rw [render, String.toList_ofList, hrows]

/-- **A listing splits at its newlines into its rows.** After the last there is nothing. -/
theorem splitOn_render {code : List Instruction} (h : ∀ i ∈ code, i.Legible) :
    (render code).toList.splitOn '\n' = code.mapIdx rowText ++ [[]] := by
  rw [toList_render h]
  refine splitOn_flatten ?_
  intro text htext
  obtain ⟨position, hlt, rfl⟩ := List.mem_mapIdx.1 htext
  exact newline_not_mem_rowText (h _ (List.getElem_mem hlt))

/-- Rows at the same positions tell the instructions. -/
theorem eq_of_mapIdx_rowText {c₁ c₂ : List Instruction} (h₁ : ∀ i ∈ c₁, i.Legible)
    (h₂ : ∀ i ∈ c₂, i.Legible) (h : c₁.mapIdx rowText = c₂.mapIdx rowText) : c₁ = c₂ := by
  have hlength : c₁.length = c₂.length := by simpa using congrArg List.length h
  refine List.ext_getElem hlength ?_
  intro n hn₁ hn₂
  have hrow : rowText n c₁[n] = rowText n c₂[n] := by
    have hget := congrArg (·[n]?) h
    simpa [hn₁, hn₂] using hget
  -- The position is the same on both sides, and cancels whatever its width.
  have hlisted : c₁[n].listed = c₂[n].listed := by
    simpa [rowText] using hrow
  exact Instruction.listed_inj (h₁ _ (List.getElem_mem hn₁)) (h₂ _ (List.getElem_mem hn₂)) hlisted

end Listing

theorem Instruction.eql_refl (i : Instruction) : i.eql i = true := by
  cases i <;> simp [Instruction.eql, Value.eql_refl]

namespace Listing

/-- **Listings are lossless.** Programs with one listing are one program, and so have as many
instructions, equal one by one. A listing splits at its newlines into one row for each instruction:
its position in at least four digits, a blank, and its line, of which only the padding of `nop` is
gone. -/
theorem render_lossless (c₁ c₂ : List Instruction) (h₁ : ∀ i ∈ c₁, i.Legible)
    (h₂ : ∀ i ∈ c₂, i.Legible) :
    (render c₁ = render c₂ → c₁ = c₂ ∧ c₁.length = c₂.length ∧
      List.Forall₂ (fun i j => i.eql j = true) c₁ c₂) ∧
    (render c₁).toList.splitOn '\n' =
      c₁.mapIdx (fun position i =>
        (Nat.toDigits 10 position).leftpad 4 '0' ++ ' ' :: trimEnd i.line) ++ [[]] ∧
    ∀ i ∈ c₁, trimEnd i.line = match i with
      | .nop => "nop".toList
      | i => i.line := by
  refine ⟨?_, ?_, ?_⟩
  · intro h
    have hsplit := congrArg (·.toList.splitOn '\n') h
    simp only [splitOn_render h₁, splitOn_render h₂] at hsplit
    have hrows := (List.append_inj' hsplit rfl).1
    obtain rfl := eq_of_mapIdx_rowText h₁ h₂ hrows
    exact ⟨rfl, rfl, List.forall₂_same.2 fun i _ => i.eql_refl⟩
  · rw [splitOn_render h₁]
    congr 1
    refine List.ext_getElem (by simp) ?_
    intro n hn _
    have hn : n < c₁.length := by simpa using hn
    rw [List.getElem_mapIdx, List.getElem_mapIdx, rowText,
      Instruction.trimEnd_line (h₁ _ (List.getElem_mem hn))]
  · intro i hi
    rw [Instruction.trimEnd_line (h₁ i hi)]
    cases i <;> rfl

/-- A program with a name that holds a newline and a row, and a key that ends where an arrow
begins. -/
def disguised : List Instruction :=
  [.getConstant "A\n0001 nop", .putObject (.hash [(.symbol "<", .string ">")]), .nop]

theorem disguised_legible : ∀ i ∈ disguised, i.Legible := by
  intro i hi object heq
  subst heq
  obtain rfl : object = .hash [(.symbol "<", .string ">")] := by simpa [disguised] using hi
  refine .hash ?_ ?_ <;> simp only [List.forall_mem_singleton]
  · exact .symbol "<"
  · exact .string ">"

/-- It is listed in three rows, and nothing else is listed so. -/
theorem render_lossless_disguised :
    (render disguised).toList.splitOn '\n' =
      ["0000 getconstant                            :\"A\\n0001 nop\"".toList,
        "0001 putobject                              \x7b:<=>\">\"\x7d".toList,
        "0002 nop".toList, []] ∧
    render disguised ≠ render [.getConstant "A", .nop, .nop] := by
  have hother : ∀ i ∈ [Instruction.getConstant "A", .nop, .nop], i.Legible := by
    rintro i hi object rfl
    simp at hi
  obtain ⟨htells, hrows, -⟩ := render_lossless disguised _ disguised_legible hother
  refine ⟨hrows.trans (by decide +kernel), ?_⟩
  intro h
  simpa [disguised] using (htells h).1

end Listing

end StackVm
