import Mathlib.Data.Bool.AllAny
import StackVm.Text.Symbol
/-!
# Strings and symbols are read from their literals

A string's literal ends at its own closing quote, whatever follows (`Quoted.literal_append_inj`):
each character is written in one of three ways, and which one its first characters tell
(`Quoted.Written.read`). A symbol's literal may be bare, and then ends where what follows it begins.
Between literals there stand commas, closing braces and arrows; a bare name holds none of the first
two, and where it runs on into an arrow it is the operator `<=>`, which is the whole of it
(`Symbol.literal_append_inj`).
-/

namespace StackVm

/-! ## Characters -/

namespace Unicode

/-- A code point of a table lies in one of its runs. -/
theorem RangeTable.exists_run {t : RangeTable} {n : Nat} (h : t.contains n = true) :
    ∃ run ∈ t, run.1 ≤ n ∧ n ≤ run.2 := by
  fun_induction RangeTable.contains t n with
  | case1 => cases h
  | case2 => cases h
  | case3 first last rest n hfirst ih =>
    rcases Bool.or_eq_true_iff.1 h with hlast | hrest
    · exact ⟨(first, last), List.mem_cons_self, Nat.le_of_not_lt hfirst, of_decide_eq_true hlast⟩
    · obtain ⟨run, hrun, hbounds⟩ := ih hrest
      exact ⟨run, List.mem_cons_of_mem _ hrun, hbounds⟩

/-- The members of the runs of a table, one by one. -/
def RangeTable.members (t : RangeTable) : List Nat :=
  t.flatMap fun run => List.range' run.1 (run.2 + 1 - run.1)

theorem RangeTable.mem_members {t : RangeTable} {n : Nat} (h : t.contains n = true) :
    n ∈ t.members := by
  obtain ⟨run, hrun, hfirst, hlast⟩ := exists_run h
  refine List.mem_flatMap.2 ⟨run, hrun, List.mem_range'_1.2 ⟨hfirst, ?_⟩⟩
  omega

/-- **No letter or number is a blank.** -/
theorem isAlphanumeric_of_isWhiteSpace {c : Char} (h : isWhiteSpace c = true) :
    isAlphanumeric c = false := by
  have hall : ∀ n ∈ whiteSpace.members,
      (alphabetic.contains n || numeric.contains n) = false := by decide +kernel
  exact hall c.toNat (RangeTable.mem_members h)

end Unicode

namespace Text

/-- A text of one line that does not end in a blank. -/
def IsSolid (text : List Char) : Prop :=
  '\n' ∉ text ∧ ∃ front last, text = front ++ [last] ∧ Unicode.isWhiteSpace last = false

/-- A text without blanks is solid. -/
theorem isSolid_of_not_blank {text : List Char} (hne : text ≠ [])
    (h : ∀ c ∈ text, Unicode.isWhiteSpace c = false) : IsSolid text := by
  refine ⟨?_, text.dropLast, text.getLast hne, ?_, h _ (List.getLast_mem hne)⟩
  · intro hmem
    cases h _ hmem
  · rw [List.dropLast_concat_getLast]

/-! ## Strings -/

namespace Quoted

/-- How a character can be written between quotes. -/
inductive Written : Char → List Char → Prop
  /-- As a backslash and a letter. -/
  | letter {c l : Char} (hread : ofLetter? l = some c) (hl : Unicode.isControl l = false) :
      Written c ['\\', l]
  /-- As its code point, in four digits. -/
  | code {c : Char} (hc : c.toNat < 0xA0) : Written c ('\\' :: 'u' :: hex4 c.toNat)
  /-- As itself. -/
  | plain {c : Char} (hquote : c ≠ '"') (hslash : c ≠ '\\') (hc : Unicode.isControl c = false) :
      Written c [c]

/-- Every letter is read as the character it is written for. -/
theorem ofLetter?_of_mem : ∀ p ∈ letters,
    ofLetter? p.2 = some p.1 ∧ Unicode.isControl p.2 = false := by decide

theorem toNat_lt_of_isControl {c : Char} (h : Unicode.isControl c = true) : c.toNat < 0xA0 := by
  simp only [Unicode.isControl, Bool.or_eq_true, Bool.and_eq_true, decide_eq_true_eq] at h
  omega

/-- **The encoder writes each character in one of these ways.** -/
theorem written_encodeChar (c : Char) (rest : List Char) : Written c (encodeChar c rest) := by
  unfold encodeChar
  split
  · rename_i letter hlookup
    obtain ⟨before, behind, heq, -⟩ := List.lookup_eq_some_iff.1 hlookup
    have hmem : (c, letter) ∈ letters := heq ▸ List.mem_append_right _ List.mem_cons_self
    obtain ⟨hread, hl⟩ := ofLetter?_of_mem (c, letter) hmem
    exact .letter hread hl
  · rename_i hlookup
    have hnot : ∀ p ∈ letters, c ≠ p.1 := by
      intro p hp
      simpa using List.lookup_eq_none_iff.1 hlookup p hp
    split
    · rename_i hsign
      obtain ⟨rfl, -⟩ := hsign
      exact .letter rfl (by decide)
    · split
      · rename_i hcontrol
        -- No control character has a code point of more than four digits.
        have hcode := toNat_lt_of_isControl hcontrol
        rw [if_pos (by omega)]
        exact .code hcode
      · rename_i hcontrol
        exact .plain (hnot ('"', '"') (by decide)) (hnot ('\\', '\\') (by decide))
          (by simpa using hcontrol)

/-- No character is written with the letter that code points have. -/
theorem ne_u_of_ofLetter? {l c : Char} (h : ofLetter? l = some c) : l ≠ 'u' := by
  rintro rfl
  cases h

theorem hexValue?_hexDigit : ∀ n < 16, hexValue? (hexDigit n) = some n := by decide

theorem isControl_hexDigit : ∀ n < 16, Unicode.isControl (hexDigit n) = false := by decide

/-- **A character is read from the way it is written**, and what follows is left. -/
theorem Written.read {c : Char} {w : List Char} (h : Written c w) (rest : List Char) :
    readChar (w ++ rest) = some (c, rest) := by
  cases h with
  | letter hread _ => simp [readChar, hread, ne_u_of_ofLetter? hread]
  | code hc =>
    have hread : ∀ n, hexValue? (hexDigit (n % 16)) = some (n % 16) :=
      fun n => hexValue?_hexDigit _ (Nat.mod_lt n (by decide))
    have hcode : 4096 * (c.toNat / 4096 % 16) + 256 * (c.toNat / 256 % 16)
        + 16 * (c.toNat / 16 % 16) + c.toNat % 16 = c.toNat := by omega
    simp [readChar, hex4, hread, hcode, Char.ofNat_toNat]
  | plain hquote hslash _ =>
    simp [readChar, hslash]

/-- No quote stands where a character may begin. -/
theorem Written.head_ne_quote {c : Char} {w : List Char} (h : Written c w)
    (rest rest' : List Char) : w ++ rest ≠ '"' :: rest' := by
  cases h with
  | letter | code => simp
  | plain hquote => simp [hquote]

/-- No control character is written. -/
theorem Written.not_control {c d : Char} {w : List Char} (h : Written c w) (hd : d ∈ w) :
    Unicode.isControl d = false := by
  cases h with
  | letter hread hl =>
    simp only [List.mem_cons, List.not_mem_nil, or_false] at hd
    rcases hd with rfl | rfl
    · decide
    · exact hl
  | code =>
    have hdigit : ∀ n, Unicode.isControl (hexDigit (n % 16)) = false :=
      fun n => isControl_hexDigit _ (Nat.mod_lt n (by decide))
    simp only [hex4, List.mem_cons, List.not_mem_nil, or_false] at hd
    rcases hd with rfl | rfl | rfl | rfl | rfl | rfl
    · decide
    · decide
    all_goals exact hdigit _
  | plain _ _ hc => rwa [List.mem_singleton.1 hd]

/-- No control character stands in a literal. -/
theorem not_control_of_mem_encode {text : List Char} {d : Char} (h : d ∈ encode text) :
    Unicode.isControl d = false := by
  induction text with
  | nil => cases h
  | cons c rest ih =>
    rcases List.mem_append.1 h with hhead | htail
    · exact (written_encodeChar c rest).not_control hhead
    · exact ih htail

/-- The part up to the closing quote tells the text. -/
theorem encode_append_inj {s t r r' : List Char}
    (h : encode s ++ '"' :: r = encode t ++ '"' :: r') : s = t ∧ r = r' := by
  induction s generalizing t with
  | nil =>
    cases t with
    | nil => exact ⟨rfl, by simpa [encode] using h⟩
    | cons d t =>
      rw [encode, encode, List.append_assoc] at h
      exact absurd h.symm ((written_encodeChar d t).head_ne_quote _ _)
  | cons c s ih =>
    cases t with
    | nil =>
      rw [encode, encode, List.append_assoc] at h
      exact absurd h ((written_encodeChar c s).head_ne_quote _ _)
    | cons d t =>
      rw [encode, encode, List.append_assoc, List.append_assoc] at h
      -- Both sides are read by one character, and what is left is again of this form.
      have hread := congrArg readChar h
      rw [(written_encodeChar c s).read, (written_encodeChar d t).read] at hread
      obtain ⟨rfl, hrest⟩ : c = d ∧ encode s ++ '"' :: r = encode t ++ '"' :: r' := by
        simpa using hread
      obtain ⟨rfl, rfl⟩ := ih hrest
      exact ⟨rfl, rfl⟩

/-- **A string's literal ends at its own closing quote.** -/
theorem literal_append_inj {s t r r' : List Char} (h : literal s ++ r = literal t ++ r') :
    s = t ∧ r = r' := by
  refine encode_append_inj ?_
  simpa [literal] using h

/-- A string's literal is one line, and ends in its quote. -/
theorem isSolid_literal (text : List Char) : IsSolid (literal text) := by
  refine ⟨?_, '"' :: encode text, '"', by simp [literal], by decide⟩
  intro h
  have hencode : '\n' ∈ encode text := by simpa [literal] using h
  cases not_control_of_mem_encode hencode

end Quoted

/-! ## What stands after a literal -/

/-- A character that no literal begins with, as it stands between literals. -/
def isSeparator (c : Char) : Bool := c == ',' || c == '\x7d' || c == '='

/-- What may stand after a literal: nothing, a comma, a closing brace, or an arrow with another
literal behind it. -/
inductive Follows : List Char → Prop
  /-- The text ends. -/
  | done : Follows []
  /-- Another entry follows. -/
  | comma (rest : List Char) : Follows (',' :: rest)
  /-- A hash ends. -/
  | brace (rest : List Char) : Follows ('\x7d' :: rest)
  /-- The value of a key follows. -/
  | arrow {c : Char} (hc : isSeparator c = false) (rest : List Char) :
      Follows ('=' :: '>' :: c :: rest)

theorem Follows.isSeparator_head {c : Char} {rest : List Char} (h : Follows (c :: rest)) :
    isSeparator c = true := by
  cases h <;> rfl

/-- Texts of a kind end where what follows them begins, if no part of it makes more of a text. -/
theorem append_inj_of_follows {P : List Char → Prop} {s t r r' : List Char}
    (hmore : ∀ text more rest, P (text ++ more) → Follows (more ++ rest) → Follows rest → more = [])
    (hs : P s) (ht : P t) (hr : Follows r) (hr' : Follows r') (h : s ++ r = t ++ r') :
    s = t ∧ r = r' := by
  rcases List.append_eq_append_iff.1 h with ⟨more, rfl, rfl⟩ | ⟨more, rfl, rfl⟩
  · obtain rfl := hmore s more r' ht hr hr'
    simp
  · obtain rfl := hmore t more r hs hr' hr
    simp

/-! ## Symbols -/

namespace Symbol

/-- The characters of operators. -/
theorem operator_chars : ∀ operator ∈ operators, ∀ c ∈ operator.toList,
    Unicode.isWhiteSpace c = false ∧ c ≠ ',' ∧ c ≠ '\x7d' ∧ c ≠ '"' := by
  have hall : ∀ operator ∈ operators, (operator.toList.all fun c =>
      Unicode.isWhiteSpace c = false ∧ c ≠ ',' ∧ c ≠ '\x7d' ∧ c ≠ '"') = true := by decide +kernel
  exact fun operator hmem => List.all_iff_forall_prop.1 (hall operator hmem)

/-- No operator has an arrow before its last character. -/
theorem operator_arrow : ∀ operator ∈ operators, operator.toList.length ≤ 3 ∧
    operator.toList.take 2 ≠ ['=', '>'] := by decide

/-- The characters of names besides letters and numbers: the underscore, the sigils, the marks. -/
def nameMarks : List Char := ['_', '@', '$', '?', '!', '=']

/-- A letter, a number or one of these. -/
def isNameChar (c : Char) : Bool := Unicode.isAlphanumeric c || c ∈ nameMarks

theorem isNameChar_of_mark {c : Char} (h : c ∈ nameMarks) : isNameChar c = true := by
  unfold isNameChar
  rw [decide_eq_true h, Bool.or_true]

theorem isNameChar_of_isPlainName {name : List Char} (h : isPlainName name = true) :
    ∀ c ∈ name, isNameChar c = true := by
  intro c hc
  cases name with
  | nil => cases hc
  | cons d rest =>
    simp only [isPlainName, Bool.and_eq_true, Bool.or_eq_true, beq_iff_eq, List.all_eq_true] at h
    obtain ⟨hfirst, hrest⟩ := h
    have hletter : c = '_' ∨ Unicode.isAlphanumeric c = true := by
      rcases List.mem_cons.1 hc with rfl | hc
      · exact hfirst.imp_right fun halpha => by simp [Unicode.isAlphanumeric, halpha]
      · exact hrest c hc
    rcases hletter with rfl | hletter
    · exact isNameChar_of_mark (by decide)
    · simp [isNameChar, hletter]

/-- What the end of a name loses is a mark. -/
theorem mem_withoutMark {name : List Char} {c : Char} (hc : c ∈ name) :
    c ∈ withoutMark name ∨ c ∈ nameMarks := by
  unfold withoutMark
  split
  · rename_i last hlast
    obtain ⟨init, rfl⟩ := List.getLast?_eq_some_iff.1 hlast
    split
    · rename_i hmark
      rw [List.dropLast_concat]
      rcases List.mem_append.1 hc with hc | hc
      · exact .inl hc
      · obtain rfl := List.mem_singleton.1 hc
        simp only [Bool.or_eq_true, beq_iff_eq] at hmark
        rcases hmark with (rfl | rfl) | rfl <;> exact .inr (by decide)
    · exact .inl hc
  · exact .inl hc

/-- A name that is no operator consists of these. -/
theorem isNameChar_of_mem {name : List Char} (h : isPlainName (stem name) = true) :
    ∀ c ∈ name, isNameChar c = true := by
  -- A sigil in front is a mark, and so is what the end may lose.
  have hsigil : ∀ {sigil : Char} {rest : List Char}, sigil ∈ nameMarks →
      (∀ c ∈ rest, isNameChar c = true) → ∀ c ∈ sigil :: rest, isNameChar c = true :=
    fun hmark hrest => List.forall_mem_cons.2 ⟨isNameChar_of_mark hmark, hrest⟩
  revert h
  fun_cases stem name with
  | case1 rest =>
    intro h
    exact hsigil (by decide) (hsigil (by decide) (isNameChar_of_isPlainName h))
  | case2 rest _ =>
    intro h
    exact hsigil (by decide) (isNameChar_of_isPlainName h)
  | case3 rest =>
    intro h
    exact hsigil (by decide) (isNameChar_of_isPlainName h)
  | case4 =>
    intro h c hc
    rcases mem_withoutMark hc with hc | hc
    · exact isNameChar_of_isPlainName h c hc
    · exact isNameChar_of_mark hc

theorem isNameChar_spec {c : Char} (h : isNameChar c = true) :
    Unicode.isWhiteSpace c = false ∧ c ≠ ',' ∧ c ≠ '\x7d' ∧ c ≠ '"' ∧ c ≠ '>' := by
  have hwhite : Unicode.isWhiteSpace c = false := by
    rw [Bool.eq_false_iff]
    intro hblank
    have hnot := Unicode.isAlphanumeric_of_isWhiteSpace hblank
    simp only [isNameChar, nameMarks, hnot, Bool.false_or, decide_eq_true_eq, List.mem_cons,
      List.not_mem_nil, or_false] at h
    rcases h with rfl | rfl | rfl | rfl | rfl | rfl <;> revert hblank <;> decide
  refine ⟨hwhite, ?_, ?_, ?_, ?_⟩ <;> rintro rfl <;> revert h <;> decide +kernel

/-- The characters of a bare name. -/
theorem chars_of_isBare {name : List Char} {c : Char} (h : isBare name = true) (hc : c ∈ name) :
    Unicode.isWhiteSpace c = false ∧ c ≠ ',' ∧ c ≠ '\x7d' ∧ c ≠ '"' := by
  rcases Bool.or_eq_true_iff.1 h with hop | hplain
  · obtain ⟨operator, hmem, heq⟩ := List.any_eq_true.1 hop
    obtain rfl : operator.toList = name := by simpa using heq
    exact operator_chars operator hmem c hc
  · obtain ⟨hwhite, hcomma, hbrace, hquote, -⟩ := isNameChar_spec (isNameChar_of_mem hplain c hc)
    exact ⟨hwhite, hcomma, hbrace, hquote⟩

/-- **A bare name does not run past an arrow.** -/
theorem not_isBare_arrow {before behind : List Char} {c : Char} :
    isBare (before ++ '=' :: '>' :: c :: behind) = false := by
  rw [Bool.eq_false_iff]
  intro h
  rcases Bool.or_eq_true_iff.1 h with hop | hplain
  · obtain ⟨operator, hmem, heq⟩ := List.any_eq_true.1 hop
    have heq : operator.toList = before ++ '=' :: '>' :: c :: behind := by simpa using heq
    obtain ⟨hlength, hhead⟩ := operator_arrow operator hmem
    rw [heq] at hlength hhead
    have hbefore : before = [] := by
      rw [List.length_append, List.length_cons, List.length_cons, List.length_cons] at hlength
      exact List.eq_nil_of_length_eq_zero (by omega)
    rw [hbefore] at hhead
    exact hhead rfl
  · have hmem : '>' ∈ before ++ '=' :: '>' :: c :: behind := by simp
    exact (isNameChar_spec (isNameChar_of_mem hplain _ hmem)).2.2.2.2 rfl

/-- Nothing of what follows a bare name can be taken for more of a name. -/
theorem eq_nil_of_isBare_append {name more rest : List Char} (h : isBare (name ++ more) = true)
    (hmore : Follows (more ++ rest)) (hrest : Follows rest) : more = [] := by
  cases more with
  | nil => rfl
  | cons c more =>
    exfalso
    obtain ⟨-, hcomma, hbrace, -⟩ := chars_of_isBare h (c := c) (by simp)
    generalize htail : more ++ rest = tail at hmore
    rw [List.cons_append, htail] at hmore
    cases hmore with
    | comma => exact hcomma rfl
    | brace => exact hbrace rfl
    | @arrow d hd behind =>
      -- An arrow is split nowhere: no part of it begins what may follow a literal.
      cases more with
      | nil =>
        subst htail
        cases hrest
      | cons e more =>
        cases more with
        | nil =>
          obtain ⟨-, rfl⟩ : e = '>' ∧ rest = d :: behind := by simpa using htail
          rw [hrest.isSeparator_head] at hd
          cases hd
        | cons f more =>
          obtain ⟨rfl, -⟩ : e = '>' ∧ f :: (more ++ rest) = d :: behind := by simpa using htail
          rw [not_isBare_arrow] at h
          cases h

/-- No name is bare that begins as a quoted one does. -/
theorem not_isBare_quote {name rest text : List Char} (hrest : Follows rest)
    (h : name ++ rest = '"' :: text) : isBare name = false := by
  rw [Bool.eq_false_iff]
  intro hbare
  cases name with
  | nil =>
    rw [List.nil_append] at h
    subst h
    cases hrest.isSeparator_head
  | cons c name =>
    obtain ⟨rfl, -⟩ := List.cons.inj h
    exact (chars_of_isBare hbare List.mem_cons_self).2.2.2 rfl

/-- **A symbol's literal ends where what follows it begins.** -/
theorem literal_append_inj {s t r r' : List Char} (hr : Follows r) (hr' : Follows r')
    (h : literal s ++ r = literal t ++ r') : s = t ∧ r = r' := by
  have h := List.tail_eq_of_cons_eq h
  split at h <;> rename_i hs <;> split at h <;> rename_i ht
  · exact append_inj_of_follows (P := fun name => isBare name = true)
      (fun _ _ _ => eq_nil_of_isBare_append) hs ht hr hr' h
  · exact absurd hs (by simpa using not_isBare_quote hr h)
  · exact absurd ht (by simpa using not_isBare_quote hr' h.symm)
  · exact Quoted.literal_append_inj h

theorem isSolid_literal (name : List Char) : IsSolid (literal name) := by
  unfold literal
  split
  · rename_i hbare
    refine isSolid_of_not_blank (by simp) ?_
    intro c hc
    rcases List.mem_cons.1 hc with rfl | hc
    · decide
    · exact (chars_of_isBare hbare hc).1
  · obtain ⟨hline, front, last, heq, hlast⟩ := Quoted.isSolid_literal name
    refine ⟨by simp [hline], ':' :: front, last, by simp [heq], hlast⟩

end Symbol

end Text

end StackVm
