import Std.Data.String.ToInt
import StackVm.Proofs.FloatLiteral
import StackVm.Proofs.TextLiteral
import StackVm.Value.Equality
import StackVm.Value.Inspect
/-!
# Literals of values are read one way

Literals stand in one another without a mark of their length. Where one ends is known all the same:
a string ends at its quote, a hash at its brace, a symbol where what follows can be no more of it,
and all the others are words, which hold none of the characters that may follow. So the literal of a
value, with anything after it that may follow one, tells the value and what follows
(`Value.Legible.readable`). Classes are left out, which show a name of any form, and the patterns
that stand for no number, which show one text for all.
-/

namespace StackVm

namespace Value

open Text (Follows isSeparator IsSolid)

/-- A value that its literal tells: at no depth does it hold a class, or a float that is no
number. -/
inductive Legible : Value → Prop
  /-- The absent value. -/
  | nil : Legible .nil
  /-- A truth value. -/
  | bool (b : Bool) : Legible (.bool b)
  /-- An integer. -/
  | integer (i : Int64) : Legible (.integer i)
  /-- A float that is a number. -/
  | float {x : Binary64} (h : x.isNaN = false) : Legible (.float x)
  /-- A symbol. -/
  | symbol (name : String) : Legible (.symbol name)
  /-- A string. -/
  | string (text : String) : Legible (.string text)
  /-- A hash of such keys and values. -/
  | hash {es : Entries} (hkeys : ∀ e ∈ es, Legible e.1) (hvalues : ∀ e ∈ es, Legible e.2) :
      Legible (.hash es)

/-! ## Words -/

/-- The values that are written as a word. -/
def isWord : Value → Bool
  | .nil | .bool _ | .integer _ | .float _ => true
  | _ => false

/-- The characters besides digits that words are written with. -/
def wordMarks : List Char := "-+.eInfityNalrus".toList

/-- A digit, a letter of a word or a mark of a number. -/
def IsWordChar (c : Char) : Prop := c.isDigit = true ∨ c ∈ wordMarks

/-- Nothing that separates, opens or ends a literal is a character of words. -/
theorem IsWordChar.spec {c : Char} (h : IsWordChar c) :
    isSeparator c = false ∧ Unicode.isWhiteSpace c = false ∧ c ∉ [':', '"', '\x7b'] := by
  have hmarks : ∀ c ∈ wordMarks, isSeparator c = false ∧ Unicode.isWhiteSpace c = false ∧
      c ∉ [':', '"', '\x7b'] := List.all_iff_forall_prop.1 (by decide)
  have hdigits : ∀ n < 10, isSeparator (Char.ofNat (48 + n)) = false ∧
      Unicode.isWhiteSpace (Char.ofNat (48 + n)) = false ∧
      Char.ofNat (48 + n) ∉ [':', '"', '\x7b'] := by decide
  rcases h with hdigit | hmark
  · have hbounds : 48 ≤ c.toNat ∧ c.toNat ≤ 57 := by
      simpa [Char.isDigit, UInt32.le_iff_toNat_le] using hdigit
    have hc : Char.ofNat (48 + (c.toNat - 48)) = c := by
      rw [Nat.add_sub_cancel' hbounds.1, Char.ofNat_toNat]
    rw [← hc]
    exact hdigits _ (by omega)
  · exact hmarks c hmark

theorem literal_integer (i : Int64) : (integer i).literal =
    (if 0 ≤ i.toInt then [] else ['-']) ++ Nat.toDigits 10 i.toInt.natAbs := by
  show (Int.repr i.toInt).toList = _
  rw [Int.repr_eq_if]
  split
  · rename_i hsign
    have habs : i.toInt.toNat = i.toInt.natAbs := by omega
    rw [Nat.repr_eq_ofList_toDigits, String.toList_ofList, List.nil_append, habs]
  · rename_i hsign
    have habs : (-i.toInt).toNat = i.toInt.natAbs := by omega
    simp [Nat.repr_eq_ofList_toDigits, habs]

/-- The digits and the sign of an integer. -/
theorem integer_chars (i : Int64) : ∀ c ∈ (integer i).literal, c.isDigit = true ∨ c = '-' := by
  intro c hc
  rw [literal_integer] at hc
  rcases List.mem_append.1 hc with hc | hc
  · split at hc
    · cases hc
    · exact .inr (List.mem_singleton.1 hc)
  · exact .inl (Decimal.allDigits_toDigits _ c hc)

/-- A word is written with such characters. -/
theorem isWordChar_of_mem_literal {v : Value} {c : Char} (h : v.isWord = true)
    (hc : c ∈ v.literal) : IsWordChar c := by
  have hnames : ∀ text ∈ ["nil".toList, "true".toList, "false".toList], ∀ c ∈ text,
      c ∈ wordMarks := by
    have hall : ∀ text ∈ ["nil".toList, "true".toList, "false".toList],
        (text.all fun c => c ∈ wordMarks) = true := by decide
    exact fun text hmem => List.all_iff_forall_prop.1 (hall text hmem)
  cases v with
  | nil => exact .inr (hnames _ (by decide) c hc)
  | bool b =>
    cases b with
    | false => exact .inr (hnames _ (by decide) c hc)
    | true => exact .inr (hnames _ (by decide) c hc)
  | integer i =>
    rcases integer_chars i c hc with hdigit | rfl
    · exact .inl hdigit
    · exact .inr (by decide)
  | float x =>
    have hmarks : ∀ c ∈ Decimal.marks, c ∈ wordMarks := List.all_iff_forall_prop.1 (by decide)
    exact (x.inspect_chars c hc).imp_right (hmarks c)
  | symbol | string | classHandle | hash => cases h

/-- A word ends where what follows it begins. -/
theorem word_append_inj {s t r r' : List Char} (hs : ∀ c ∈ s, IsWordChar c)
    (ht : ∀ c ∈ t, IsWordChar c) (hr : Follows r) (hr' : Follows r') (h : s ++ r = t ++ r') :
    s = t ∧ r = r' := by
  refine Text.append_inj_of_follows (P := fun text => ∀ c ∈ text, IsWordChar c) ?_ hs ht hr hr' h
  intro word more rest hword hfollows _
  cases more with
  | nil => rfl
  | cons c more =>
    -- A character more would both be in a word and stand between literals.
    have hsep := (hword c (by simp)).spec.1
    rw [hfollows.isSeparator_head] at hsep
    cases hsep

/-! ## How literals begin -/

/-- The character that opens a literal which is no word. -/
def opening? : Value → Option Char
  | .symbol _ => some ':'
  | .string _ => some '"'
  | .hash _ => some '\x7b'
  | _ => none

/-- A literal begins with the character that opens it, or is a word. -/
theorem literal_head {v : Value} (h : v.Legible) : ∃ c rest, v.literal = c :: rest ∧
    ((v.isWord = true ∧ IsWordChar c) ∨ v.opening? = some c) := by
  have hword : v.isWord = true → v.literal ≠ [] → ∃ c rest, v.literal = c :: rest ∧
      ((v.isWord = true ∧ IsWordChar c) ∨ v.opening? = some c) := by
    intro hv hne
    obtain ⟨c, rest, heq⟩ := List.exists_cons_of_ne_nil hne
    exact ⟨c, rest, heq, .inl ⟨hv, isWordChar_of_mem_literal hv (heq ▸ List.mem_cons_self)⟩⟩
  cases h with
  | nil => exact hword rfl (by decide)
  | bool b => exact hword rfl (by cases b <;> decide)
  | integer i => exact hword rfl (by simp [literal_integer, Nat.toDigits_ne_nil])
  | @float x h =>
    refine hword rfl ?_
    intro hnil
    have hnil : x.inspect = [] := hnil
    simpa [hnil] using x.inspect_not_integer h
  | symbol name => exact ⟨':', _, rfl, .inr rfl⟩
  | string text => exact ⟨'"', _, rfl, .inr rfl⟩
  | hash hkeys hvalues => exact ⟨'\x7b', _, rfl, .inr rfl⟩

/-- No literal begins with what stands between literals. -/
theorem isSeparator_head {v : Value} (h : v.Legible) :
    ∃ c rest, v.literal = c :: rest ∧ isSeparator c = false := by
  obtain ⟨c, rest, heq, ⟨-, hword⟩ | hopen⟩ := literal_head h
  · exact ⟨c, rest, heq, hword.spec.1⟩
  · refine ⟨c, rest, heq, ?_⟩
    cases v <;> simp [opening?] at hopen <;> subst hopen <;> rfl

/-- What begins alike is opened alike. -/
theorem opening?_eq {a b : Value} {r r' : List Char} (ha : a.Legible) (hb : b.Legible)
    (h : a.literal ++ r = b.literal ++ r') : a.opening? = b.opening? := by
  obtain ⟨c, rest, heq, hc⟩ := literal_head ha
  obtain ⟨c', rest', heq', hc'⟩ := literal_head hb
  rw [heq, heq'] at h
  obtain ⟨rfl, -⟩ := List.cons.inj h
  -- A word and what is opened by a character begin differently.
  have hnot : ∀ {v : Value}, IsWordChar c → v.opening? = some c → False := by
    intro v hword hopen
    have hnone := hword.spec.2.2
    cases v <;> simp [opening?] at hopen <;> subst hopen <;> simp at hnone
  have hnone : ∀ {v : Value}, v.isWord = true → v.opening? = none := by
    intro v hv
    cases v <;> first | rfl | cases hv
  rcases hc with ⟨hword, hchar⟩ | hopen
  · rcases hc' with ⟨hword', -⟩ | hopen'
    · rw [hnone hword, hnone hword']
    · exact (hnot hchar hopen').elim
  · rcases hc' with ⟨-, hchar'⟩ | hopen'
    · exact (hnot hchar' hopen).elim
    · rw [hopen, hopen']

/-! ## What a word tells -/

/-- Whether a text has a letter that only names have, and a mark that only floats have. -/
def wordKind (text : List Char) : Bool × Bool :=
  (text.any (· ∈ ['l', 'u']), text.any (· ∈ ['.', 'I']))

/-- The kind of a word, told by its value. -/
def kind : Value → Bool × Bool
  | .nil | .bool _ => (true, false)
  | .float _ => (false, true)
  | _ => (false, false)

theorem wordKind_integer (i : Int64) : wordKind (integer i).literal = (false, false) := by
  have hother : ∀ c ∈ (integer i).literal, c ∉ ['l', 'u'] ∧ c ∉ ['.', 'I'] := by
    intro c hc
    rcases integer_chars i c hc with hdigit | rfl
    · exact ⟨Decimal.not_mem_of_isDigit hdigit rfl, Decimal.not_mem_of_isDigit hdigit rfl⟩
    · decide
  simp only [wordKind, Prod.mk.injEq, List.any_eq_false, decide_eq_true_eq]
  exact ⟨fun c hc => (hother c hc).1, fun c hc => (hother c hc).2⟩

theorem wordKind_float {x : Binary64} (h : x.isNaN = false) :
    wordKind (float x).literal = (false, true) := by
  have hother : ∀ c ∈ x.inspect, c ∉ ['l', 'u'] := by
    have hmarks : ∀ c ∈ Decimal.marks, c ∉ ['l', 'u'] := List.all_iff_forall_prop.1 (by decide)
    intro c hc
    rcases x.inspect_chars c hc with hdigit | hmark
    · exact Decimal.not_mem_of_isDigit hdigit rfl
    · exact hmarks c hmark
  simp only [wordKind, Prod.mk.injEq, List.any_eq_false, List.any_eq_true, decide_eq_true_eq]
  refine ⟨hother, ?_⟩
  rcases x.inspect_not_integer h with hpoint | hinfinity
  · exact ⟨'.', hpoint, by decide⟩
  · exact ⟨'I', hinfinity, by decide⟩

theorem wordKind_literal {v : Value} (h : v.Legible) (hword : v.isWord = true) :
    wordKind v.literal = v.kind := by
  cases h with
  | nil => rfl
  | bool b => cases b <;> rfl
  | integer i => exact wordKind_integer i
  | float h => exact wordKind_float h
  | symbol | string | hash => cases hword

/-- **A word tells its value.** -/
theorem eq_of_word {a b : Value} (ha : a.Legible) (hb : b.Legible) (hword : a.isWord = true)
    (hword' : b.isWord = true) (h : a.literal = b.literal) : a = b := by
  have hkind : a.kind = b.kind := by
    rw [← wordKind_literal ha hword, ← wordKind_literal hb hword', h]
  cases ha with
  | symbol | string | hash => cases hword
  | nil =>
    cases hb with
    | nil => rfl
    | bool c => cases c <;> cases h
    | integer | float => cases hkind
    | symbol | string | hash => cases hword'
  | bool c =>
    cases hb with
    | nil => cases c <;> cases h
    | bool c' => cases c <;> cases c' <;> first | rfl | cases h
    | integer | float => cases hkind
    | symbol | string | hash => cases hword'
  | integer i =>
    cases hb with
    | integer j =>
      have htext : (i.toInt).repr = (j.toInt).repr := String.toList_inj.1 h
      rw [Int64.toInt_inj.1 (Int.repr_inj.1 htext)]
    | nil | bool | float => cases hkind
    | symbol | string | hash => cases hword'
  | float hx =>
    cases hb with
    | float hy => rw [Binary64.inspect_inj hx hy h]
    | nil | bool | integer => cases hkind
    | symbol | string | hash => cases hword'

/-! ## Literals and what follows them -/

/-- A literal that tells its value and what follows it. -/
def Readable (a : Value) : Prop :=
  ∀ b : Value, b.Legible → ∀ r r' : List Char, Follows r → Follows r' →
    a.literal ++ r = b.literal ++ r' → a = b ∧ r = r'

/-- Words are readable. -/
theorem readable_of_isWord {a : Value} (ha : a.Legible) (hword : a.isWord = true) :
    a.Readable := by
  intro b hb r r' hr hr' h
  have hopening := opening?_eq ha hb h
  have hword' : b.isWord = true := by
    cases ha with
    | nil | bool | integer | float => cases hb <;> first | rfl | cases hopening
    | symbol | string | hash => cases hword
  obtain ⟨htext, hrest⟩ := word_append_inj (fun _ => isWordChar_of_mem_literal hword)
    (fun _ => isWordChar_of_mem_literal hword') hr hr' h
  exact ⟨eq_of_word ha hb hword hword' htext, hrest⟩

/-- The literals of the entries after the first, each with the comma before it. -/
def literalOfMore : Entries → List Char
  | [] => []
  | e :: rest => ',' :: ' ' :: literalOfEntries (e :: rest)

theorem literalOfEntries_cons (e : Value × Value) (rest : Entries) :
    literalOfEntries (e :: rest) =
      e.1.literal ++ '=' :: '>' :: (e.2.literal ++ literalOfMore rest) := by
  cases rest <;> simp [literalOfEntries, literalOfMore]

/-- After a value there stands another entry or the end of the hash. -/
theorem follows_more (rest : Entries) (r : List Char) :
    Follows (literalOfMore rest ++ '\x7d' :: r) := by
  cases rest with
  | nil => exact .brace r
  | cons => exact .comma _

/-- After a key there stands an arrow and a value. -/
theorem follows_arrow {v : Value} (h : v.Legible) (r : List Char) :
    Follows ('=' :: '>' :: (v.literal ++ r)) := by
  obtain ⟨c, rest, heq, hc⟩ := isSeparator_head h
  rw [heq]
  exact .arrow hc _

/-- Entries with readable keys and values are read up to the closing brace. -/
theorem entries_inj {es fs : Entries} {r r' : List Char} (hes : ∀ e ∈ es, e.1.Legible ∧ e.2.Legible)
    (hread : ∀ e ∈ es, e.1.Readable ∧ e.2.Readable) (hfs : ∀ f ∈ fs, f.1.Legible ∧ f.2.Legible)
    (h : literalOfEntries es ++ '\x7d' :: r = literalOfEntries fs ++ '\x7d' :: r') :
    es = fs ∧ r = r' := by
  -- No entry begins with the closing brace.
  have hnonempty : ∀ {e : Value × Value} {rest : Entries} {more more' : List Char}, e.1.Legible →
      literalOfEntries (e :: rest) ++ more ≠ '\x7d' :: more' := by
    intro e rest more more' he heq
    obtain ⟨c, text, htext, hc⟩ := isSeparator_head he
    rw [literalOfEntries_cons, htext] at heq
    obtain ⟨rfl, -⟩ := List.cons.inj heq
    cases hc
  induction es generalizing fs with
  | nil =>
    cases fs with
    | nil => exact ⟨rfl, by simpa [literalOfEntries] using h⟩
    | cons f fs => exact absurd h.symm (hnonempty (hfs f List.mem_cons_self).1)
  | cons e es ih =>
    cases fs with
    | nil => exact absurd h (hnonempty (hes e List.mem_cons_self).1)
    | cons f fs =>
      obtain ⟨he, hes⟩ := List.forall_mem_cons.1 hes
      obtain ⟨hreade, hread⟩ := List.forall_mem_cons.1 hread
      obtain ⟨hf, hfs⟩ := List.forall_mem_cons.1 hfs
      simp only [literalOfEntries_cons, List.append_assoc, List.cons_append] at h
      obtain ⟨hkey, hrest⟩ := hreade.1 f.1 hf.1 _ _ (follows_arrow he.2 _) (follows_arrow hf.2 _) h
      have hrest : e.2.literal ++ (literalOfMore es ++ '\x7d' :: r) =
          f.2.literal ++ (literalOfMore fs ++ '\x7d' :: r') := by simpa using hrest
      obtain ⟨hvalue, hmore⟩ :=
        hreade.2 f.2 hf.2 _ _ (follows_more es r) (follows_more fs r') hrest
      have htail : es = fs ∧ r = r' := by
        cases es with
        | nil =>
          cases fs with
          | nil => exact ⟨rfl, by simpa [literalOfMore] using hmore⟩
          | cons => simp [literalOfMore] at hmore
        | cons =>
          cases fs with
          | nil => simp [literalOfMore] at hmore
          | cons => exact ih hes hread hfs (by simpa [literalOfMore] using hmore)
      exact ⟨by rw [Prod.ext hkey hvalue, htail.1], htail.2⟩

/-- **A literal tells its value and what follows it.** -/
theorem Legible.readable {a : Value} (ha : a.Legible) : a.Readable := by
  induction ha with
  | nil => exact readable_of_isWord .nil rfl
  | bool b => exact readable_of_isWord (.bool b) rfl
  | integer i => exact readable_of_isWord (.integer i) rfl
  | float h => exact readable_of_isWord (.float h) rfl
  | symbol name =>
    intro b hb r r' hr hr' h
    have hopening := opening?_eq (.symbol name) hb h
    cases hb with
    | nil | bool | integer | float | string | hash => cases hopening
    | symbol name' =>
      obtain ⟨hname, hrest⟩ := Text.Symbol.literal_append_inj hr hr' h
      rw [String.toList_inj.1 hname]
      exact ⟨rfl, hrest⟩
  | string text =>
    intro b hb r r' hr hr' h
    have hopening := opening?_eq (.string text) hb h
    cases hb with
    | nil | bool | integer | float | symbol | hash => cases hopening
    | string text' =>
      obtain ⟨htext, hrest⟩ := Text.Quoted.literal_append_inj h
      rw [String.toList_inj.1 htext]
      exact ⟨rfl, hrest⟩
  | @hash es hkeys hvalues ihkeys ihvalues =>
    intro b hb r r' hr hr' h
    have hopening := opening?_eq (.hash hkeys hvalues) hb h
    cases hb with
    | nil | bool | integer | float | symbol | string => cases hopening
    | @hash fs hkeys' hvalues' =>
      have hentries : literalOfEntries es ++ '\x7d' :: r = literalOfEntries fs ++ '\x7d' :: r' := by
        simpa [literal] using h
      obtain ⟨rfl, hrest⟩ := entries_inj (fun e he => ⟨hkeys e he, hvalues e he⟩)
        (fun e he => ⟨ihkeys e he, ihvalues e he⟩) (fun f hf => ⟨hkeys' f hf, hvalues' f hf⟩)
        hentries
      exact ⟨rfl, hrest⟩

/-- So it does where nothing follows. -/
theorem literal_inj {a b : Value} (ha : a.Legible) (hb : b.Legible) (h : a.literal = b.literal) :
    a = b :=
  (ha.readable b hb [] [] .done .done (by rw [h])).1

/-- **The text of a value is unambiguous.** Two values that hold no class and no float that is no
number, at any depth, and that show the same text are one value: of the same kind, with the same
content, floats with the same bits, and hashes with the same entries in the same order. -/
theorem eq_of_inspect_eq {a b : Value} (ha : a.Legible) (hb : b.Legible)
    (h : a.inspect = b.inspect) : a = b := by
  rw [inspect_eq, inspect_eq, String.ofList_inj] at h
  exact literal_inj ha hb h

/-- A hash whose key runs into the arrow, `{:===>:>}`, built in two ways. -/
theorem eq_of_inspect_eq_arrows :
    (ofPairs [(.symbol "==", .nil), (.symbol "==", .symbol ">")]).inspect =
      (ofPairs [(.symbol "==", .symbol ">")]).inspect ∧
    ofPairs [(.symbol "==", .nil), (.symbol "==", .symbol ">")] =
      ofPairs [(.symbol "==", .symbol ">")] := by
  have hlegible : (hash [(.symbol "==", .symbol ">")]).Legible := by
    refine .hash ?_ ?_ <;> simp only [List.forall_mem_cons] <;> exact ⟨.symbol _, by simp⟩
  exact ⟨rfl, eq_of_inspect_eq hlegible hlegible rfl⟩

/-! ## Literals are solid -/

theorem newline_not_mem_entries {es : Entries}
    (h : ∀ e ∈ es, '\n' ∉ e.1.literal ∧ '\n' ∉ e.2.literal) : '\n' ∉ literalOfEntries es := by
  induction es with
  | nil => simp [literalOfEntries]
  | cons e rest ih =>
    obtain ⟨⟨hkey, hvalue⟩, hrest⟩ := List.forall_mem_cons.1 h
    have hmore : '\n' ∉ literalOfMore rest := by
      cases rest with
      | nil => simp [literalOfMore]
      | cons => simpa [literalOfMore] using ih hrest
    simp [literalOfEntries_cons, hkey, hvalue, hmore]

theorem isSolid_of_isWord {v : Value} (h : v.Legible) (hword : v.isWord = true) :
    IsSolid v.literal := by
  obtain ⟨c, rest, heq, -⟩ := literal_head h
  refine Text.isSolid_of_not_blank (by simp [heq]) ?_
  intro c hc
  exact (isWordChar_of_mem_literal hword hc).spec.2.1

/-- **A literal is one line, and does not end in a blank.** -/
theorem Legible.isSolid {v : Value} (h : v.Legible) : IsSolid v.literal := by
  induction h with
  | nil => exact isSolid_of_isWord .nil rfl
  | bool b => exact isSolid_of_isWord (.bool b) rfl
  | integer i => exact isSolid_of_isWord (.integer i) rfl
  | float h => exact isSolid_of_isWord (.float h) rfl
  | symbol name => exact Text.Symbol.isSolid_literal _
  | string text => exact Text.Quoted.isSolid_literal _
  | @hash es _ _ ihkeys ihvalues =>
    have hentries : '\n' ∉ literalOfEntries es :=
      newline_not_mem_entries fun e he => ⟨(ihkeys e he).1, (ihvalues e he).1⟩
    exact ⟨by simp [literal, hentries], '\x7b' :: literalOfEntries es, '\x7d', by simp [literal],
      by decide⟩

end Value

end StackVm
