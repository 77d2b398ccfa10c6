import StackVm.Proofs.FloatText
import StackVm.Toml.Document
/-!
# Reading lines of TOML

A line that gives a bare key a truth value or a number is read as that, whatever comes after it
(`expression_line`). The number takes some care: a digit may begin a day, a time or a float as well,
and what comes after the digits rules these out (`dateTime_digits`, `float_digits`). A document of
such lines, with a key on one line at most, is read as the table of its keys and values in their
order (`parse?_lines`).
-/

namespace StackVm.Toml

open Decimal (AllDigits allDigits_toDigits head?_toDigits)

variable {text rest name : List Char} {item : Item} {c : Char}

/-! ## Digits at the end of a line -/

/-- All digits are taken, and nothing of the end of the line. -/
theorem moreDigits_endOfLine (h : AllDigits text) :
    moreDigits Char.isDigit (text ++ '\n' :: rest) = (text, '\n' :: rest) := by
  induction text with
  | nil => rfl
  | cons c text ih =>
    have hc : c.isDigit = true := h c (by simp)
    have hrest : AllDigits text := fun d hd => h d (by simp [hd])
    rw [List.cons_append, moreDigits, if_pos hc, ih hrest]

/-- Digits without a zero before them are a whole number. -/
theorem wholeDigits_toDigits (n : Nat) (rest : List Char) :
    wholeDigits (Nat.toDigits 10 n ++ '\n' :: rest) = some (Nat.toDigits 10 n, '\n' :: rest) := by
  by_cases hzero : n = 0
  · subst hzero
    rfl
  · have hhead := head?_toDigits hzero
    have hdigits := allDigits_toDigits n
    obtain ⟨c, more, htext⟩ := List.exists_cons_of_ne_nil (Nat.toDigits_ne_nil (b := 10) (n := n))
    rw [htext] at hhead hdigits ⊢
    have hc : c.isDigit = true := hdigits c (by simp)
    have hmore : AllDigits more := fun d hd => hdigits d (by simp [hd])
    have hne : c ≠ '0' := by simpa using hhead
    rw [List.cons_append, wholeDigits]
    · simp [digits, hc, moreDigits_endOfLine hmore]
    · simpa using hne

/-- The digits of a number stand for it. -/
theorem ofDigits_toDigits (n : Nat) : ofDigits 10 (Nat.toDigits 10 n) = n := by
  refine Eq.trans ?_ (Nat.ofDigitChars_ten_toDigits (n := n))
  refine List.foldl_ext _ _ _ fun sum c hc => ?_
  have hdigit := allDigits_toDigits n c hc
  have hvalue : Text.hexValue? c = some (c.toNat - 48) := by
    refine if_pos ?_
    simpa [Char.isDigit, Char.le_def] using hdigit
  rw [hvalue]
  rfl

/-! ## Numbers at the end of a line -/

/-- A number of so many digits leaves more digits or the end of the line. -/
theorem after?_fixedDigits {count least greatest n : Nat} {left : List Char} (h : AllDigits text)
    (hfixed : fixedDigits count least greatest (text ++ '\n' :: rest) = some (n, left))
    (hdigit : c.isDigit = false) (hline : c ≠ '\n') : after? c left = none := by
  simp only [fixedDigits, Option.bind_eq_bind, Option.bind_eq_some_iff, Option.guard_eq_some',
    Option.pure_def, Option.some.injEq, Bool.and_eq_true, decide_eq_true_eq, Prod.mk.injEq,
    exists_const] at hfixed
  obtain ⟨⟨hlength, hall⟩, -, -, rfl⟩ := hfixed
  -- Among the digits there is no end of line, so they are of this text.
  have hcount : count ≤ text.length := by
    by_contra hbeyond
    have hmem : '\n' ∈ (text ++ '\n' :: rest).take count := by
      refine List.mem_take_iff_getElem.2 ⟨text.length, ?_, by simp⟩
      simp
      omega
    exact absurd (List.all_eq_true.1 hall '\n' hmem) (by decide)
  rw [List.drop_append_of_le_length hcount]
  cases hleft : text.drop count with
  | nil => exact if_neg hline.symm
  | cons d more =>
    have hd : d.isDigit = true := h d (List.mem_of_mem_drop (hleft ▸ List.mem_cons_self))
    refine if_neg fun heq => ?_
    rw [← heq, hd] at hdigit
    cases hdigit

theorem date_digits (h : AllDigits text) : date (text ++ '\n' :: rest) = none := by
  unfold date
  cases hyear : fixedDigits 4 0 9999 (text ++ '\n' :: rest) with
  | none => rfl
  | some read =>
    have hnone := after?_fixedDigits h hyear (c := '-') rfl (by decide)
    simp [hnone]

theorem time_digits (h : AllDigits text) : time (text ++ '\n' :: rest) = none := by
  unfold time
  cases hhour : fixedDigits 2 0 23 (text ++ '\n' :: rest) with
  | none => rfl
  | some read =>
    have hnone := after?_fixedDigits h hhour (c := ':') rfl (by decide)
    simp [hnone]

/-- Digits begin neither a day nor a time if the line ends with them. -/
theorem dateTime_digits (h : AllDigits text) (rest : List Char) :
    dateTime (text ++ '\n' :: rest) = none := by
  rw [dateTime, date_digits h, time_digits h]
  rfl

/-- Digits begin with a digit, and with a zero only where there is nothing else. -/
theorem exists_digit (n : Nat) :
    ∃ c more, Nat.toDigits 10 n = c :: more ∧ c.isDigit = true ∧ (c = '0' → more = []) := by
  obtain ⟨c, more, htext⟩ := List.exists_cons_of_ne_nil (Nat.toDigits_ne_nil (b := 10) (n := n))
  refine ⟨c, more, htext, allDigits_toDigits n c (by simp [htext]), ?_⟩
  rintro rfl
  by_cases hzero : n = 0
  · subst hzero
    cases htext
    rfl
  · exact absurd (by rw [htext, List.head?_cons]) (head?_toDigits hzero)

/-- A digit is no sign. -/
theorem sign_digit (hc : c.isDigit = true) : sign (c :: rest) = (false, c :: rest) := by
  rw [sign]
  · rintro more ⟨⟩
    cases hc
  · rintro more ⟨⟩
    cases hc

/-- Digits are no float if the line ends with them. -/
theorem float_digits (n : Nat) (rest : List Char) :
    float (Nat.toDigits 10 n ++ '\n' :: rest) = none := by
  have hwhole := wholeDigits_toDigits n rest
  obtain ⟨c, more, htext, hc, -⟩ := exists_digit n
  rw [htext, List.cons_append] at hwhole ⊢
  have hdecimal : decimalFloat false (c :: (more ++ '\n' :: rest)) = none := by
    simp [decimalFloat, hwhole, fraction?, exponent?]
  have hspecial : specialFloat false (c :: (more ++ '\n' :: rest)) = none := by
    unfold specialFloat
    split
    · rename_i heq
      obtain ⟨rfl, -⟩ := List.cons.inj heq
      cases hc
    · rename_i heq
      obtain ⟨rfl, -⟩ := List.cons.inj heq
      cases hc
    · rfl
  simp [float, sign_digit hc, hdecimal, hspecial]

/-- A number that is not too great has 64 bits. -/
theorem bounded?_of_lt {n : Nat} (hn : n < 0x8000000000000000) : bounded? n = some (n : Int) := by
  rw [bounded?, if_pos]
  omega

/-- They are an integer, if it is not too great. -/
theorem integer_digits {n : Nat} (hn : n < 0x8000000000000000) (rest : List Char) :
    integer (Nat.toDigits 10 n ++ '\n' :: rest) = some (.integer n, '\n' :: rest) := by
  have hwhole := wholeDigits_toDigits n rest
  have hvalue := ofDigits_toDigits n
  obtain ⟨c, more, htext, hc, hzero⟩ := exists_digit n
  rw [htext, List.cons_append] at hwhole ⊢
  rw [htext] at hvalue
  rw [integer]
  · rw [sign_digit hc]
    dsimp only
    rw [hwhole, Option.bind_eq_bind, Option.bind_some, hvalue, if_neg Bool.false_ne_true,
      bounded?_of_lt hn]
    rfl
  all_goals
    intro digits heq
    obtain ⟨hhead, htail⟩ := List.cons.inj heq
    rw [hzero hhead] at htail
    exact absurd (List.cons.inj htail).1 (by decide)

/-! ## Values at the end of a line -/

/-- A text that stands for an item behind a blank, where the line ends with it. -/
def Denotes (text : List Char) (item : Item) : Prop :=
  ∀ bound rest, value bound (depthLimit - 1) (skipBlanks (' ' :: (text ++ '\n' :: rest))) =
    some (item, '\n' :: rest)

/-- One blank is passed over. -/
theorem skipBlanks_blank (hc : isBlank c = false) (rest : List Char) :
    skipBlanks (' ' :: c :: rest) = c :: rest := by
  rw [skipBlanks, List.dropWhile_cons_of_pos rfl, List.dropWhile_cons_of_neg (by simp [hc])]

/-- What begins with a digit is neither an array nor a table nor a string nor a truth value. -/
theorem value_digit (hc : c.isDigit = true) (bound : Nat) (rest : List Char) :
    value bound (depthLimit - 1) (c :: rest) =
      (dateTime (c :: rest) <|> float (c :: rest) <|> integer (c :: rest)) := by
  have hother : ∀ d tail, d.isDigit = false → c :: rest ≠ d :: tail := by
    rintro d tail hd heq
    rw [(List.cons.inj heq).1, hd] at hc
    cases hc
  have hscalar : value bound (depthLimit - 1) (c :: rest) = scalar (c :: rest) := by
    change value bound (78 + 1) (c :: rest) = _
    unfold value
    split
    case h_3 => rfl
    all_goals
      rename_i heq
      exact absurd heq (hother _ _ rfl)
  rw [hscalar]
  unfold scalar
  split
  case h_5 => rfl
  all_goals
    rename_i heq
    exact absurd heq (hother _ _ rfl)

/-- **The digits of a number stand for it.** -/
theorem denotes_digits {n : Nat} (hn : n < 0x8000000000000000) :
    Denotes (Nat.toDigits 10 n) (.integer n) := by
  intro bound rest
  have hdate := dateTime_digits (allDigits_toDigits n) rest
  have hfloat := float_digits n rest
  have hinteger := integer_digits hn rest
  obtain ⟨c, more, htext, hc, -⟩ := exists_digit n
  have hblank : isBlank c = false := by
    have hnot : c ∉ [' ', '\t'] := Decimal.not_mem_of_isDigit hc rfl
    simpa [isBlank] using hnot
  rw [htext, List.cons_append] at hdate hfloat hinteger ⊢
  rw [skipBlanks_blank hblank, value_digit hc, hdate, hfloat, hinteger]
  rfl

/-- The names of the truth values stand for them. -/
theorem denotes_truth (b : Bool) :
    Denotes (if b then "true" else "false").toList (.boolean b) := by
  intro bound rest
  cases b <;> rfl

/-! ## Lines -/

/-- A key that needs no quotes. -/
def IsBareKey (name : List Char) : Prop := name ≠ [] ∧ ∀ c ∈ name, isBareKeyChar c = true

instance (name : List Char) : Decidable (IsBareKey name) :=
  decidable_of_iff (name ≠ [] ∧ name.all isBareKeyChar = true)
    (and_congr_right' List.all_eq_true)

/-- A character of such a key is none that begins anything else. -/
theorem ne_of_isBareKeyChar (hc : isBareKeyChar c = true) {d : Char}
    (hd : isBareKeyChar d = false) (rest tail : List Char) : c :: rest ≠ d :: tail := by
  intro heq
  rw [(List.cons.inj heq).1, hd] at hc
  cases hc

/-- A bare key is read up to the blank behind it. -/
theorem simpleKey_bare (h : IsBareKey name) (rest : List Char) :
    simpleKey (name ++ ' ' :: rest) = some (String.ofList name, ' ' :: rest) := by
  obtain ⟨hne, hbare⟩ := h
  obtain ⟨c, more, rfl⟩ := List.exists_cons_of_ne_nil hne
  have hc := hbare c List.mem_cons_self
  have htake : ((c :: more) ++ ' ' :: rest).takeWhile isBareKeyChar = c :: more := by
    rw [List.takeWhile_append_of_pos hbare, List.takeWhile_cons_of_neg (by decide), List.append_nil]
  have hdrop : ((c :: more) ++ ' ' :: rest).dropWhile isBareKeyChar = ' ' :: rest := by
    rw [List.dropWhile_append_of_pos hbare, List.dropWhile_cons_of_neg (by decide)]
  unfold simpleKey
  split
  case h_3 =>
    rw [htake, hdrop]
    rfl
  all_goals
    rename_i heq
    exact absurd heq (ne_of_isBareKeyChar hc rfl _ _)

/-- A bare key does not begin with a blank. -/
theorem skipBlanks_bare (h : IsBareKey name) (rest : List Char) :
    skipBlanks (name ++ rest) = name ++ rest := by
  obtain ⟨hne, hbare⟩ := h
  obtain ⟨c, more, rfl⟩ := List.exists_cons_of_ne_nil hne
  have hblank : isBlank c = false := by
    by_contra hblank
    have hc := hbare c List.mem_cons_self
    rw [Bool.not_eq_false, isBlank, Bool.or_eq_true, beq_iff_eq, beq_iff_eq] at hblank
    obtain rfl | rfl := hblank
    · cases hc
    · cases hc
  exact List.dropWhile_cons_of_neg (by simp [hblank])

/-- A bare key with a blank behind it is read up to the equals sign. -/
theorem key_bare (h : IsBareKey name) (rest : List Char) :
    key (name ++ ' ' :: '=' :: rest) = some (([], String.ofList name), '=' :: rest) := by
  have hparts : keyParts (depthLimit - 1) (name ++ ' ' :: '=' :: rest) =
      some ([String.ofList name], '=' :: rest) := by
    change keyParts (78 + 1) _ = _
    rw [keyParts, skipBlanks_bare h, simpleKey_bare h]
    rfl
  rw [key, hparts]
  rfl

/-- The characters of a line that gives a key a value. -/
def line (name text : List Char) : List Char := name ++ ' ' :: '=' :: ' ' :: (text ++ ['\n'])

theorem line_append (name text rest : List Char) :
    line name text ++ rest = name ++ ' ' :: '=' :: ' ' :: (text ++ '\n' :: rest) := by
  simp [line]

/-- **A line is read as its key and value**, up to the end of the line. -/
theorem keyValue_line (hname : IsBareKey name) (htext : Denotes text item) (bound : Nat)
    (rest : List Char) :
    keyValue (value bound (depthLimit - 1)) (line name text ++ rest) =
      some ((([], String.ofList name), item), '\n' :: rest) := by
  rw [line_append, keyValue, key_bare hname]
  change (value bound (depthLimit - 1) (skipBlanks (' ' :: (text ++ '\n' :: rest)))).bind _ = _
  rw [htext bound rest]
  rfl

/-- And adds them to the top of the document, if the key is new. -/
theorem expression_line (hname : IsBareKey name) (htext : Denotes text item) (bound : Nat)
    (rest : List Char) (root : Table) (hnew : root.lookup (String.ofList name) = none) :
    expression bound { root } (line name text ++ rest) =
      some ({ root := root ++ [(String.ofList name, item)] }, rest) := by
  have hread := keyValue_line hname htext bound rest
  have hadd : root.add (String.ofList name) item = some (root ++ [(String.ofList name, item)]) := by
    rw [Table.add, hnew]
    rfl
  obtain ⟨c, more, rfl⟩ := List.exists_cons_of_ne_nil hname.1
  have hc := hname.2 c List.mem_cons_self
  unfold expression
  split
  case h_6 =>
    rw [hread]
    change ((root.add (String.ofList (c :: more)) item).bind _).bind _ = _
    rw [hadd]
    rfl
  all_goals
    rename_i heq
    exact absurd heq (ne_of_isBareKeyChar hc rfl _ _)

/-! ## Documents -/

/-- A line of a document: a key, the text of its value, and the item that the text stands for. -/
structure Line where
  /-- The key. -/
  name : String
  /-- The text behind the equals sign. -/
  text : String
  /-- What the text stands for. -/
  item : Item
  /-- The key needs no quotes. -/
  bare : IsBareKey name.toList
  /-- The text stands for the item. -/
  denotes : Denotes text.toList item

/-- The entry that a line makes. -/
def Line.entry (l : Line) : String × Item := (l.name, l.item)

/-- The characters of a line. -/
def Line.chars (l : Line) : List Char := line l.name.toList l.text.toList

theorem Line.chars_append (l : Line) (rest : List Char) :
    l.chars ++ rest = l.name.toList ++ ' ' :: '=' :: ' ' :: (l.text.toList ++ '\n' :: rest) :=
  line_append _ _ _

/-- A line is added to the table if its key is new. -/
theorem expression_chars (l : Line) (bound : Nat) (rest : List Char) {root : Table}
    (hnew : root.lookup l.name = none) :
    expression bound { root } (l.chars ++ rest) = some ({ root := root ++ [l.entry] }, rest) := by
  have hline := expression_line l.bare l.denotes bound rest root
  rw [String.ofList_toList] at hline
  exact hline hnew

/-- **Lines with new keys are added to the table in their order.** -/
theorem expressions_lines (lines : List Line) (bound spare : Nat) (root : Table)
    (hnodup : ((root ++ lines.map Line.entry).map Prod.fst).Nodup) :
    expressions bound (lines.length + spare + 1) { root } (lines.flatMap Line.chars) =
      some (root ++ lines.map Line.entry) := by
  induction lines generalizing root with
  | nil => simp [expressions, skipBlanks]
  | cons l lines ih =>
    have hnew : root.lookup l.name = none := by
      refine List.lookup_eq_none_iff.2 fun entry hentry => ?_
      rw [List.map_append] at hnodup
      have hne := (List.nodup_append.1 hnodup).2.2 entry.1 (List.mem_map_of_mem hentry) l.name
        (by simp [Line.entry])
      simpa using hne.symm
    have hstart : skipBlanks (l.chars ++ lines.flatMap Line.chars) =
        l.chars ++ lines.flatMap Line.chars := by
      rw [l.chars_append, skipBlanks_bare l.bare]
    rw [List.map_cons, List.append_cons] at hnodup ⊢
    rw [List.flatMap_cons, List.length_cons, Nat.add_right_comm _ 1, expressions, hstart]
    split
    · rename_i hnil
      rw [l.chars_append] at hnil
      exact absurd (List.append_eq_nil_iff.1 hnil).1 l.bare.1
    · rw [expression_chars l bound _ hnew]
      exact ih _ hnodup

/-- Every line has characters. -/
theorem length_le_flatMap_chars (lines : List Line) :
    lines.length ≤ (lines.flatMap Line.chars).length := by
  induction lines with
  | nil => exact Nat.le_refl 0
  | cons l lines ih =>
    have hpos : 0 < l.chars.length := by simp [Line.chars, line]
    rw [List.flatMap_cons, List.length_append, List.length_cons]
    omega

/-- No byte order mark stands before them. -/
theorem flatMap_chars_ne (lines : List Line) (rest : List Char) :
    lines.flatMap Line.chars ≠ '\uFEFF' :: rest := by
  cases lines with
  | nil => exact List.cons_ne_nil _ _ |>.symm
  | cons l lines =>
    obtain ⟨c, more, hname⟩ := List.exists_cons_of_ne_nil l.bare.1
    have hc := l.bare.2 c (by simp [hname])
    rw [List.flatMap_cons, l.chars_append, hname]
    exact ne_of_isBareKeyChar hc (by decide) _ _

/-- **A document of lines is read as the table that they make**, if no two have the same key. -/
theorem parse?_lines (lines : List Line)
    (hnodup : ((lines.map Line.entry).map Prod.fst).Nodup) :
    parse? (String.ofList (lines.flatMap Line.chars)) = some (lines.map Line.entry) := by
  have hlength := length_le_flatMap_chars lines
  have hread := expressions_lines lines ((lines.flatMap Line.chars).length + 1)
    ((lines.flatMap Line.chars).length - lines.length) [] hnodup
  rw [Nat.add_sub_cancel' hlength, List.nil_append] at hread
  rw [parse?, String.toList_ofList]
  split
  · rename_i rest hmark
    exact absurd hmark (flatMap_chars_ne lines rest)
  · exact hread

end StackVm.Toml
