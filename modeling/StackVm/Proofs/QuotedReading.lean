import StackVm.Proofs.TextLiteral
/-!
# String literals read back

How a character is written between quotes may depend on the one behind it, and a reader sees only
what was written. It does without the context: a backslash tells an escape and the character behind
it how long the escape is, so that the reader takes just what was written for one character,
whatever follows (`Quoted.decode_encode`). What stands outside escapes was written as itself; no
quote is, and no number sign in front of what would make it open an interpolation, since what is
written next begins as what comes next does, or with a backslash (`Quoted.harmless_encode`).
-/

namespace StackVm.Text.Quoted

/-- The letters after a backslash, each with the character that it stands for. -/
def escapes : List (Char × Char) :=
  [('"', '"'), ('\\', '\\'), ('#', '#'), ('n', '\n'), ('t', '\t'), ('r', '\r'), ('f', '\x0c'),
   ('v', '\x0b'), ('b', '\x08'), ('a', '\x07'), ('e', '\x1b')]

/-- The characters that stand outside escapes, each with the text behind it. -/
def unescaped : List Char → List (Char × List Char)
  | [] => []
  | '\\' :: 'u' :: _ :: _ :: _ :: _ :: rest => unescaped rest
  | '\\' :: _ :: rest => unescaped rest
  | c :: rest => (c, rest) :: unescaped rest

/-- A character, with the text behind it, that neither ends a literal nor opens an interpolation. -/
def Harmless (entry : Char × List Char) : Prop :=
  entry.1 ≠ '"' ∧
    (entry.1 = '#' → ∀ next ∈ entry.2.head?, next ≠ '\x7b' ∧ next ≠ '$' ∧ next ≠ '@')

/-! ## Reading -/

/-- The reader knows these escapes and no others. -/
theorem ofLetter?_eq_lookup (letter : Char) : ofLetter? letter = escapes.lookup letter := by
  by_cases hmem : letter ∈ escapes.map Prod.fst
  · have hall : ((escapes.map Prod.fst).all fun l => ofLetter? l = escapes.lookup l) = true := by
      decide
    exact List.all_iff_forall_prop.1 hall letter hmem
  · have hletters : ∀ p ∈ letters, p.2 ∈ escapes.map Prod.fst := by decide
    have hsign : letter ≠ '#' := by
      rintro rfl
      exact hmem (by decide)
    have hfind : letters.find? (fun entry => entry.2 == letter) = none := by
      rw [List.find?_eq_none]
      intro p hp hletter
      exact hmem (eq_of_beq hletter ▸ hletters p hp)
    have hlookup : escapes.lookup letter = none := by
      rw [List.lookup_eq_none_iff]
      intro p hp
      rw [bne_iff_ne]
      rintro rfl
      exact hmem (List.mem_map_of_mem hp)
    rw [ofLetter?, if_neg hsign, hfind, hlookup]
    rfl

/-- Reading goes on behind the character that was read. -/
theorem decode_of_readChar {t rest : List Char} {c : Char} (h : readChar t = some (c, rest)) :
    decode t = (decode rest).map (c :: ·) := by
  have hne : t ≠ [] := by
    rintro rfl
    cases h
  rw [decode, if_neg hne]
  split
  · rename_i c' rest' hread
    obtain ⟨rfl, rfl⟩ := Prod.mk.inj (Option.some.inj (hread.symm.trans h))
    rfl
  · rename_i hread
    cases hread.symm.trans h

/-- **What is written for a text is read as that text.** -/
theorem decode_encode (text : List Char) : decode (encode text) = some text := by
  induction text with
  | nil => rw [encode, decode, if_pos rfl]
  | cons c rest ih =>
    rw [encode, decode_of_readChar ((written_encodeChar c rest).read (encode rest)), ih]
    rfl

/-! ## Outside escapes -/

/-- A number sign opens an interpolation by the character behind it. -/
theorem opensInterpolation_eq_false_iff (text : List Char) :
    opensInterpolation text = false ↔
      ∀ next ∈ text.head?, next ≠ '\x7b' ∧ next ≠ '$' ∧ next ≠ '@' := by
  cases text with
  | nil => simp [opensInterpolation]
  | cons c rest => simp [opensInterpolation, and_assoc]

/-- A text that would not open an interpolation does not as it is written, with what follows it. -/
theorem opensInterpolation_encode {text tail : List Char} (h : opensInterpolation text = false)
    (htail : opensInterpolation tail = false) :
    opensInterpolation (encode text ++ tail) = false := by
  cases text with
  | nil => exact htail
  | cons c rest =>
    rw [encode, List.append_assoc]
    have hwritten := written_encodeChar c rest
    generalize encodeChar c rest = w at hwritten ⊢
    cases hwritten with
    | letter | code => rfl
    | plain => exact h

/-- What is written for a character stands in an escape, or is the character itself. -/
theorem unescaped_encodeChar (c : Char) (rest tail : List Char) :
    unescaped (encodeChar c rest ++ tail) = unescaped tail ∨
      unescaped (encodeChar c rest ++ tail) = (c, tail) :: unescaped tail ∧ c ≠ '"' ∧
        (c = '#' → opensInterpolation rest = false) := by
  have hwritten := written_encodeChar c rest
  generalize hw : encodeChar c rest = w at hwritten ⊢
  cases hwritten with
  | letter hread _ =>
    refine .inl ?_
    simp [unescaped, ne_u_of_ofLetter? hread]
  | code => exact .inl rfl
  | plain hquote hslash _ =>
    refine .inr ⟨by simp [unescaped, hslash], hquote, ?_⟩
    rintro rfl
    rw [Bool.eq_false_iff]
    intro hopens
    have hletter : letters.lookup '#' = none := by decide
    simp [encodeChar, hletter, hopens] at hw

/-- **Nothing harmful is written outside escapes.** -/
theorem harmless_encode (text tail : List Char)
    (htail : opensInterpolation tail = false) :
    ∃ entries, unescaped (encode text ++ tail) = entries ++ unescaped tail ∧
      ∀ entry ∈ entries, Harmless entry := by
  induction text with
  | nil => exact ⟨[], rfl, by simp⟩
  | cons c rest ih =>
    obtain ⟨entries, hentries, hharmless⟩ := ih
    rw [encode, List.append_assoc]
    rcases unescaped_encodeChar c rest (encode rest ++ tail) with hescape | ⟨hself, hquote, hsign⟩
    · exact ⟨entries, by rw [hescape, hentries], hharmless⟩
    · refine ⟨(c, encode rest ++ tail) :: entries, by rw [hself, hentries]; rfl, ?_⟩
      refine List.forall_mem_cons.2 ⟨⟨hquote, fun hc => ?_⟩, hharmless⟩
      exact (opensInterpolation_eq_false_iff _).1 (opensInterpolation_encode (hsign hc) htail)

/-- **A string's literal reads back.** It is a quote, a body and a quote. The reader, which knows
the escapes listed, reads the body as the text and leaves nothing of it. The body has no control
character; outside its escapes it has no quote, and no number sign in front of a brace, a dollar or
an at sign. So whatever follows the literal, the first quote outside an escape is its last
character. -/
theorem literal_read_back :
    (∀ letter, ofLetter? letter = escapes.lookup letter) ∧
      ∀ text : List Char, ∃ body, literal text = '"' :: (body ++ ['"']) ∧
        decode body = some text ∧
        (∀ c ∈ body, Unicode.isControl c = false) ∧
        (∀ entry ∈ unescaped body, Harmless entry) ∧
        ∀ rest, (unescaped (body ++ '"' :: rest)).find? (fun entry => entry.1 == '"') =
          some ('"', rest) := by
  refine ⟨ofLetter?_eq_lookup, fun text => ⟨encode text, rfl, decode_encode text, ?_, ?_, ?_⟩⟩
  · intro c hc
    exact not_control_of_mem_encode hc
  · obtain ⟨entries, hentries, hharmless⟩ := harmless_encode text [] rfl
    simp only [List.append_nil, unescaped] at hentries
    rw [hentries]
    exact hharmless
  · intro rest
    obtain ⟨entries, hentries, hharmless⟩ := harmless_encode text ('"' :: rest) rfl
    rw [hentries, List.find?_append, List.find?_eq_none.2, Option.none_or]
    · rfl
    · intro entry hentry
      simpa using (hharmless entry hentry).1

end StackVm.Text.Quoted
