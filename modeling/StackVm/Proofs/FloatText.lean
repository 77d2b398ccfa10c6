import StackVm.Proofs.FloatLiteral
import StackVm.Proofs.FloatRounding
/-!
# The text of a float denotes it

A finite number is written in one of two ways, with the point in place or with an exponent. Behind
both stands one bare form, `Decimal.scientific`: the digits with the point behind the first, and the
exponent of that digit. Reading it gives the decimal back (`Decimal.read_scientific`), and so does
reading `Decimal.positional`, which has no exponent (`Decimal.value_read_positional`). The exponent
alone decides which way the number is written, and either way what is written denotes the same
number (`Binary64.value_read_unsigned`), which is rounded to the magnitude that was written
(`Binary64.magnitudeOfDecimal_read_unsigned`).
-/

namespace StackVm

namespace Decimal

/-! ## Reading -/

/-- Whether a text begins with a minus sign, and the text without it. -/
def splitSign : List Char → Bool × List Char
  | '-' :: rest => (true, rest)
  | text => (false, text)

/-- The integer that digits denote, with or without a sign in front. -/
def readInteger : List Char → ℤ
  | '-' :: digits => -(Nat.ofDigitChars 10 digits 0)
  | '+' :: digits => Nat.ofDigitChars 10 digits 0
  | digits => Nat.ofDigitChars 10 digits 0

/-- The decimal that a text without a sign denotes: digits, a point that may stand among them, and
an exponent that may follow behind an `e`. -/
def read (text : List Char) : Decimal :=
  let mantissa := before 'e' text
  let fraction := behind '.' mantissa
  ⟨Nat.ofDigitChars 10 (before '.' mantissa ++ fraction) 0,
    readInteger (behind 'e' text) - fraction.length⟩

/-! ## The bare form -/

/-- A digit other than zero, a fraction that does not end in a zero, and an exponent. -/
def IsScientific (text : List Char) : Prop :=
  ∃ lead fraction e, text = lead :: withPoint fraction ++ 'e' :: integerChars e ∧
    AllDigits (lead :: fraction) ∧ lead ≠ '0' ∧ fraction.getLast? ≠ some '0'

/-! ## The forms of a text -/

/-- One digit or more. -/
def IsDigits (text : List Char) : Prop := AllDigits text ∧ text ≠ []

/-- Digits on both sides of a point, and maybe an exponent: a sign and two digits or more. -/
inductive IsUnsignedText : List Char → Prop
  /-- The point is in place. -/
  | fixed {whole fraction : List Char} (hwhole : IsDigits whole) (hfraction : IsDigits fraction) :
      IsUnsignedText (whole ++ '.' :: fraction)
  /-- An exponent says where its place is. -/
  | scaled {whole fraction digits : List Char} {sign : Char} (hwhole : IsDigits whole)
      (hfraction : IsDigits fraction) (hsign : sign = '+' ∨ sign = '-') (hdigits : AllDigits digits)
      (htwo : 2 ≤ digits.length) :
      IsUnsignedText (whole ++ '.' :: fraction ++ 'e' :: sign :: digits)

section

variable {d : Decimal} {text : List Char}

theorem ofDigitChars_of_natural? {n : ℕ} (h : natural? text = some n) :
    Nat.ofDigitChars 10 text 0 = n := by
  unfold natural? at h
  split at h
  · exact Option.some.inj h
  · cases h

/-- A text that is taken for an integer denotes it. -/
theorem readInteger_of_signed? {i : ℤ} (h : signed? text = some i) : readInteger text = i := by
  revert h
  fun_cases signed? text with
  | case1 digits | case2 digits | case3 digits =>
    intro h
    obtain ⟨n, hn, rfl⟩ := Option.map_eq_some_iff.1 h
    simp only [readInteger, ofDigitChars_of_natural? hn]

theorem readInteger_integerChars (e : ℤ) : readInteger (integerChars e) = e :=
  readInteger_of_signed? (signed?_integerChars e)

theorem exponentChars_eq (e : ℤ) : ∃ sign digits, exponentChars e = sign :: digits ∧
    (sign = '+' ∨ sign = '-') ∧ AllDigits digits ∧ 2 ≤ digits.length := by
  refine ⟨_, _, rfl, ?_, ?_, ?_⟩
  · split
    · exact .inr rfl
    · exact .inl rfl
  · split
    · exact allDigits_zero.append (allDigits_toDigits _)
    · exact allDigits_toDigits _
  · split
    · exact Nat.succ_le_succ Nat.length_toDigits_pos
    · rename_i hten
      have hmore := mt (Nat.length_toDigits_le_iff (b := 10) (n := e.natAbs) (k := 1) (by decide)
        (by decide)).1 hten
      omega

/-- What `textValue` makes of a text is the value of the decimal that it is read as. -/
theorem IsUnsignedText.value_read (h : IsUnsignedText text) :
    (read text).value = textValue text := by
  have hexponent : readInteger (behind 'e' text) = exponentValue (behind 'e' text) := by
    cases h with
    | fixed hwhole hfraction =>
      rw [behind_eq_nil (not_mem_fixed hwhole.1 hfraction.1)]
      rfl
    | scaled hwhole hfraction hsign hdigits htwo =>
      rw [behind_append (not_mem_fixed hwhole.1 hfraction.1)]
      rcases hsign with rfl | rfl <;> rfl
  simp only [read, textValue, value, hexponent]
  rw [zpow_sub₀ (by norm_num), zpow_natCast]
  ring

/-- **Both ways to write a decimal have the form of a float text.** -/
theorem isUnsignedText_inspect (d : Decimal) : IsUnsignedText d.inspect := by
  unfold inspect
  split
  · obtain ⟨whole, fraction, htext, hpointed⟩ := d.positional_pointed
    rw [htext]
    exact .fixed hpointed.beforePoint hpointed.behindPoint
  · obtain ⟨whole, fraction, htext, hpointed⟩ := d.mantissa_pointed
    obtain ⟨sign, digits, hexponent, hsign, hdigits, htwo⟩ := exponentChars_eq d.leadExponent
    rw [htext, hexponent]
    exact .scaled hpointed.beforePoint hpointed.behindPoint hsign hdigits htwo

/-- **There is an exponent where the first digit is far from the point.** -/
theorem mem_inspect_iff (d : Decimal) :
    'e' ∈ d.inspect ↔ d.leadExponent < -4 ∨ 16 ≤ d.leadExponent := by
  unfold inspect
  split
  · rename_i hpositional
    obtain ⟨whole, fraction, htext, hpointed⟩ := d.positional_pointed
    rw [htext]
    exact iff_of_false (not_mem_fixed hpointed.beforePoint.1 hpointed.behindPoint.1) (by omega)
  · rename_i hscaled
    exact iff_of_true (by simp) (by omega)

/-! ## The bare form of a decimal -/

theorem digitChar_ne_zero {n : ℕ} (hpos : n ≠ 0) (hlt : n < 10) : n.digitChar ≠ '0' := by
  have hall : ∀ k < 10, k ≠ 0 → Nat.digitChar k ≠ '0' := by decide
  exact hall n hlt hpos

/-- Digits begin with a digit other than zero. -/
theorem head?_toDigits {n : ℕ} (h : n ≠ 0) : (Nat.toDigits 10 n).head? ≠ some '0' := by
  induction n using Nat.strongRecOn with
  | ind n ih =>
    rcases Nat.lt_or_ge n 10 with hlt | hge
    · rw [Nat.toDigits_of_lt_base hlt]
      simpa using digitChar_ne_zero h hlt
    · rw [Nat.toDigits_of_base_le (by decide) hge,
        List.head?_append_of_ne_nil _ Nat.toDigits_ne_nil]
      exact ih (n / 10) (by omega) (by omega)

/-- And end with the digit of the remainder. -/
theorem getLast?_toDigits (n : ℕ) : (Nat.toDigits 10 n).getLast? = some (n % 10).digitChar := by
  rcases Nat.lt_or_ge n 10 with hlt | hge
  · rw [Nat.toDigits_of_lt_base hlt, Nat.mod_eq_of_lt hlt]
    rfl
  · rw [Nat.toDigits_of_base_le (by decide) hge, List.getLast?_append]
    rfl

theorem scientific_eq (d : Decimal) : ∃ lead rest, d.digitChars = lead :: rest ∧
    d.scientific = lead :: withPoint rest ++ 'e' :: integerChars d.leadExponent := by
  obtain ⟨lead, rest, hdigits, htext⟩ := d.mantissa_eq
  exact ⟨lead, rest, hdigits, by rw [scientific, htext]⟩

/-- **Without zeros at its end a decimal has a bare form.** -/
theorem isScientific_scientific (h : d.digits % 10 ≠ 0) : IsScientific d.scientific := by
  obtain ⟨lead, rest, hdigits, htext⟩ := d.scientific_eq
  have hall := d.allDigits_digitChars
  have hhead := head?_toDigits (n := d.digits) (by omega)
  have hlast : d.digitChars.getLast? ≠ some '0' := by
    rw [digitChars, getLast?_toDigits]
    simpa using digitChar_ne_zero h (Nat.mod_lt _ (by decide))
  change d.digitChars.head? ≠ _ at hhead
  rw [hdigits] at hall hhead hlast
  refine ⟨lead, rest, _, htext, hall, by simpa using hhead, ?_⟩
  cases rest with
  | nil => simp
  | cons c more => rwa [List.getLast?_cons_cons] at hlast

/-- The point and the exponent of the bare form are where they are looked for. -/
theorem parts_scientific {lead : Char} {rest : List Char} (h : AllDigits (lead :: rest)) (e : ℤ) :
    before '.' (lead :: withPoint rest) = [lead] ∧ behind '.' (lead :: withPoint rest) = rest ∧
      before 'e' (lead :: withPoint rest ++ 'e' :: integerChars e) = lead :: withPoint rest ∧
      behind 'e' (lead :: withPoint rest ++ 'e' :: integerChars e) = integerChars e := by
  have hlead : AllDigits [lead] := fun c hc => h c (by simp_all)
  have hpoint : '.' ∉ [lead] := hlead.not_mem rfl
  have hletter := not_mem_withPoint h
  cases rest with
  | nil => exact ⟨before_eq_self hpoint, behind_eq_nil hpoint, before_append hletter,
      behind_append hletter⟩
  | cons c more =>
    exact ⟨before_append hpoint, behind_append hpoint, before_append hletter, behind_append hletter⟩

/-- **The bare form is read as the decimal**, and its exponent is that of the first digit. -/
theorem read_scientific (d : Decimal) :
    read d.scientific = d ∧ readInteger (behind 'e' d.scientific) = d.leadExponent := by
  obtain ⟨lead, rest, hdigits, htext⟩ := d.scientific_eq
  have hall := d.allDigits_digitChars
  have hnumber := d.ofDigitChars_digitChars
  have hlead : d.leadExponent = d.digitChars.length + d.exponent - 1 := rfl
  rw [hdigits] at hall hnumber hlead
  obtain ⟨hwhole, hfraction, hmantissa, hexponent⟩ := parts_scientific hall d.leadExponent
  rw [htext, hexponent, readInteger_integerChars]
  refine ⟨?_, rfl⟩
  have hplaces : d.leadExponent - rest.length = d.exponent := by
    rw [hlead, List.length_cons]
    omega
  simp only [read, hmantissa, hexponent, hwhole, hfraction, List.singleton_append, hnumber,
    readInteger_integerChars, hplaces]

/-- The sign that is taken off is the one put in front of a text without one. -/
theorem splitSign_append (h : ∀ rest, text ≠ '-' :: rest) (negative : Bool) :
    splitSign (signChars negative ++ text) = (negative, text) := by
  cases negative with
  | true => rfl
  | false =>
    change splitSign text = _
    unfold splitSign
    split
    · exact absurd rfl (h _)
    · rfl

/-! ## The point in place -/

/-- With the point in place a decimal is written by digits and the point alone. -/
theorem not_mem_positional {c : Char} (hdigit : c.isDigit = false) (hpoint : c ≠ '.')
    (d : Decimal) : c ∉ d.positional := by
  obtain ⟨whole, fraction, htext, hpointed⟩ := d.positional_pointed
  have hnone : c ∉ withFraction d.positional := by
    rw [htext]
    simp [hpointed.beforePoint.1.not_mem hdigit, hpointed.behindPoint.1.not_mem hdigit, hpoint]
  intro hmem
  refine hnone ?_
  unfold withFraction
  split
  · exact hmem
  · exact List.mem_append_left _ hmem

/-- A point and a zero at its end change nothing about what a text denotes. -/
theorem value_read_withFraction (h : 'e' ∉ text) :
    (read (withFraction text)).value = (read text).value := by
  by_cases hpoint : '.' ∈ text
  · rw [withFraction, if_pos hpoint]
  · have hletter : 'e' ∉ text ++ '.' :: ['0'] := by simp [h]
    have hzero : Nat.ofDigitChars 10 (text ++ ['0']) 0 = Nat.ofDigitChars 10 text 0 * 10 ^ 1 :=
      ofDigitChars_append_zeros text 1
    rw [withFraction, if_neg hpoint]
    simp only [read, value, before_eq_self hletter, behind_eq_nil hletter, before_eq_self h,
      behind_eq_nil h, before_append hpoint, behind_append hpoint, before_eq_self hpoint,
      behind_eq_nil hpoint, List.append_nil, hzero]
    norm_num [readInteger, Nat.ofDigitChars_nil]
    ring

/-- **With the point in place the text of a decimal denotes it.** -/
theorem value_read_positional (d : Decimal) : (read d.positional).value = d.value := by
  obtain ⟨whole, fraction, htext, hpointed⟩ := d.positional_pointed
  rw [← value_read_withFraction (not_mem_positional (by decide) (by decide) d), htext,
    (IsUnsignedText.fixed hpointed.beforePoint hpointed.behindPoint).value_read,
    textValue_fixed hpointed.beforePoint.1 hpointed.behindPoint.1, ← hpointed.value, zpow_zero,
    mul_one]

end

end Decimal

/-! ## The text of a number -/

namespace Binary64

open Decimal

variable {x : Binary64} {m : ℕ}

/-- The number that a text denotes, rounded to the nearest. -/
def ofText (text : List Char) : Binary64 :=
  ofDecimal (splitSign text).1 (read (splitSign text).2)

/-- The exponent that its bare form ends in. -/
def leadExponent (x : Binary64) : ℤ := readInteger (behind 'e' (splitSign x.scientific).2)

theorem ofMagnitude_magnitude (x : Binary64) : ofMagnitude x.isNegative x.magnitude = x := by
  have hlt := x.bits.toNat_lt
  have hbits : (if x.isNegative then signBit + x.magnitude else x.magnitude) = x.bits.toNat := by
    unfold isNegative magnitude signBit
    split
    · rename_i hsign
      have hle := of_decide_eq_true hsign
      omega
    · rename_i hsign
      have hnot := of_decide_eq_false (Bool.eq_false_iff.2 hsign)
      omega
  rw [ofMagnitude, hbits, UInt64.ofNat_toNat]

/-- A text is read as its sign and its magnitude are. -/
theorem ofText_eq {text rest : List Char} (hsplit : splitSign text = (x.isNegative, rest))
    (hread : magnitudeOfDecimal (read rest) = x.magnitude) : ofText text = x := by
  rw [ofText, hsplit, ofDecimal, hread, ofMagnitude_magnitude]

theorem isUnsignedText_unsigned (hfinite : m < infinity) : IsUnsignedText (unsigned m) := by
  rw [unsigned, if_pos hfinite]
  split
  · exact .fixed ⟨allDigits_zero, by simp⟩ ⟨allDigits_zero, by simp⟩
  · exact (shortest m).isUnsignedText_inspect

theorem splitSign_inspect (h : x.isFinite = true) :
    splitSign x.inspect = (x.isNegative, unsigned x.magnitude) := by
  have hfinite : x.magnitude < infinity := of_decide_eq_true h
  have hnan : x.isNaN = false := decide_eq_false (not_lt.2 hfinite.le)
  rw [inspect_eq hnan, splitSign_append (unsigned_head _)]

theorem splitSign_scientific (x : Binary64) : splitSign x.scientific = (x.isNegative,
    if x.magnitude = 0 then ['0', 'e', '0'] else (shortest x.magnitude).scientific) := by
  by_cases hzero : x.magnitude = 0
  · rw [scientific, if_pos hzero]
    exact splitSign_append (by simp) _
  · obtain ⟨lead, rest, hdigits, htext⟩ := (shortest x.magnitude).scientific_eq
    have hlead := (shortest x.magnitude).allDigits_digitChars lead (by simp [hdigits])
    rw [scientific, if_neg hzero, htext]
    refine splitSign_append (fun more hminus => ?_) _
    obtain ⟨rfl, -⟩ := List.cons.inj hminus
    cases hlead

/-- What is written and the bare form denote the same number. -/
theorem value_read_unsigned (hfinite : m < infinity) :
    (read (unsigned m)).value = if m = 0 then 0 else (shortest m).value := by
  rw [(isUnsignedText_unsigned hfinite).value_read, textValue_unsigned hfinite]

/-- **What is written for a magnitude is read as it.** -/
theorem magnitudeOfDecimal_read_unsigned (hfinite : m < infinity) :
    magnitudeOfDecimal (read (unsigned m)) = m := by
  have hvalue := value_read_unsigned hfinite
  split at hvalue
  · rename_i hzero
    rw [magnitudeOfDecimal, if_pos (Decimal.value_eq_zero_iff.1 hvalue), hzero]
  · rename_i hpos
    rw [magnitudeOfDecimal_congr hvalue, (magnitudeOfDecimal_shortest (by omega) hfinite).1]

/-- **There is an exponent where the bare form has one far from zero.** -/
theorem mem_unsigned_iff (hfinite : x.magnitude < infinity) : 'e' ∈ unsigned x.magnitude ↔
    x.magnitude ≠ 0 ∧ (x.leadExponent < -4 ∨ 16 ≤ x.leadExponent) := by
  rw [leadExponent, splitSign_scientific, unsigned, if_pos hfinite]
  by_cases hzero : x.magnitude = 0
  · simp [hzero]
  · simp only [hzero, if_false, not_false_eq_true, true_and, ne_eq, mem_inspect_iff,
      (shortest x.magnitude).read_scientific.2]

/-- The bare form of a number is one, has its sign and is read back to it. -/
structure IsBare (x : Binary64) (text : List Char) : Prop where
  form : IsScientific (splitSign text).2
  sign : (splitSign text).1 = x.isNegative
  back : ofText text = x

theorem isBare_scientific (hfinite : x.isFinite = true) (hne : x.magnitude ≠ 0) :
    x.IsBare x.scientific := by
  obtain ⟨hread, hlast⟩ :=
    magnitudeOfDecimal_shortest (Nat.pos_of_ne_zero hne) (of_decide_eq_true hfinite)
  have hsplit := x.splitSign_scientific
  rw [if_neg hne] at hsplit
  refine ⟨?_, ?_, ofText_eq hsplit ?_⟩
  · rw [hsplit]
    exact isScientific_scientific hlast
  · rw [hsplit]
  · rw [(shortest x.magnitude).read_scientific.1, hread]

/-- A text of a number with the point in place has its sign and no exponent, and denotes what the
bare form denotes. -/
structure IsInPlace (x : Binary64) (text : List Char) : Prop where
  sign : (splitSign text).1 = x.isNegative
  plain : 'e' ∉ text
  value : (read (splitSign text).2).value = (read (splitSign x.scientific).2).value

theorem isInPlace_positional (hne : x.magnitude ≠ 0) : x.IsInPlace x.positional := by
  have htext : x.positional = signChars x.isNegative ++ (shortest x.magnitude).positional := by
    rw [positional, if_neg hne]
  have hminus : ∀ rest, (shortest x.magnitude).positional ≠ '-' :: rest := fun rest hminus =>
    not_mem_positional (c := '-') (by decide) (by decide) (shortest x.magnitude) (by simp [hminus])
  have hsplit := splitSign_append hminus x.isNegative
  rw [htext]
  refine ⟨?_, ?_, ?_⟩
  · rw [hsplit]
  · simp [not_mem_signChars, not_mem_positional]
  · rw [hsplit, splitSign_scientific, if_neg hne, value_read_positional,
      (shortest x.magnitude).read_scientific.1]

/-- How the text of a finite number goes with the number and its bare form. -/
structure Denoted (x : Binary64) : Prop where
  /-- Behind the sign, if there is one, stand digits on both sides of a point, and maybe an exponent
  with its sign and two digits or more. -/
  form : IsUnsignedText (splitSign x.inspect).2
  /-- The numbers other than zero whose first digit is far from the point have an exponent. -/
  exponent : 'e' ∈ x.inspect ↔ x.magnitude ≠ 0 ∧ (x.leadExponent < -4 ∨ 16 ≤ x.leadExponent)
  /-- The sign is that of the number, also of zero. -/
  sign : (splitSign x.inspect).1 = x.isNegative
  /-- The number is the one that the bare form denotes. -/
  value : (read (splitSign x.inspect).2).value = (read (splitSign x.scientific).2).value
  /-- No float is nearer to it. -/
  nearest : IsNearest x.magnitude (read (splitSign x.inspect).2).value
  /-- Reading it gives the same bits. -/
  back : ofText x.inspect = x

/-- A minus sign is no exponent. -/
theorem mem_inspect_iff_unsigned (h : x.isFinite = true) :
    'e' ∈ x.inspect ↔ 'e' ∈ unsigned x.magnitude := by
  have hfinite : x.magnitude < infinity := of_decide_eq_true h
  rw [inspect_eq (decide_eq_false (not_lt.2 hfinite.le)), List.mem_append,
    or_iff_right (not_mem_signChars (by decide) _)]

theorem denoted_of_isFinite (h : x.isFinite = true) : x.Denoted := by
  have hfinite : x.magnitude < infinity := of_decide_eq_true h
  have hread := magnitudeOfDecimal_read_unsigned hfinite
  have hsplit := splitSign_inspect h
  refine ⟨?_, ?_, ?_, ?_, ?_, ofText_eq hsplit hread⟩
  · rw [hsplit]
    exact isUnsignedText_unsigned hfinite
  · rw [mem_inspect_iff_unsigned h, mem_unsigned_iff hfinite]
  · rw [hsplit]
  · rw [hsplit, splitSign_scientific, value_read_unsigned hfinite]
    split
    · have hzero : (read ['0', 'e', '0']).digits = 0 := by decide
      exact (Decimal.value_eq_zero_iff.2 hzero).symm
    · rw [(shortest x.magnitude).read_scientific.1]
  · have hnearest :=
      isNearest_magnitudeOfDecimal (d := read (unsigned x.magnitude)) (by rwa [hread])
    rw [hsplit]
    rwa [hread] at hnearest

/-- **The text of a float denotes it.** A finite number other than zero has a bare form: one digit
other than zero, a fraction without a zero at its end, an exponent; and reading it gives the number.
With the point in place the same number is written without an exponent. The text of every finite
number has digits on both sides of its point. It has an exponent, with a sign and two digits or
more, just where the exponent of the bare form is below -4 or at least 16. It has the sign of the
number, denotes what the bare form denotes, and is read back to the same bits. Two numbers, finite
or infinite, have the same text only if they have the same bits. -/
theorem inspect_denotes :
    (∀ x : Binary64, x.isFinite = true → x.magnitude ≠ 0 →
        x.IsBare x.scientific ∧ x.IsInPlace x.positional) ∧
      (∀ x : Binary64, x.isFinite = true → x.Denoted) ∧
      ∀ x y : Binary64, x.isNaN = false → y.isNaN = false →
        (x.inspect = y.inspect ↔ x.bits = y.bits) := by
  refine ⟨fun x hfinite hne => ⟨isBare_scientific hfinite hne, isInPlace_positional hne⟩,
    fun x => denoted_of_isFinite, fun x y hx hy => ⟨?_, ?_⟩⟩
  · intro htext
    rw [inspect_inj hx hy htext]
  · intro hbits
    have hsame : x = y := congrArg Binary64.mk hbits
    rw [hsame]

/-- The least number above zero, zero with a sign, and the even one of two numbers that a decimal
lies midway between: each is read back, and infinity is told from its opposite. -/
theorem inspect_denotes_extremes :
    (ofText "5.0e-324".toList = ⟨1⟩ ∧ ofText "5e-324".toList = ⟨1⟩) ∧
      ofText "-0.0".toList = ⟨0x8000000000000000⟩ ∧
      (ofText "1.0e+23".toList = ⟨0x44B52D02C7E14AF6⟩ ∧
        (⟨0x44B52D02C7E14AF6⟩ : Binary64).leadExponent = 23) ∧
      (⟨0x7FF0000000000000⟩ : Binary64).inspect ≠ (⟨0xFFF0000000000000⟩ : Binary64).inspect := by
  obtain ⟨hbare, hdenoted, hinj⟩ := inspect_denotes
  have hleast : (⟨1⟩ : Binary64).inspect = "5.0e-324".toList := by decide +kernel
  have hleast' : (⟨1⟩ : Binary64).scientific = "5e-324".toList := by decide +kernel
  have hzero : (⟨0x8000000000000000⟩ : Binary64).inspect = "-0.0".toList := by decide +kernel
  have hbetween : (⟨0x44B52D02C7E14AF6⟩ : Binary64).inspect = "1.0e+23".toList := by decide +kernel
  refine ⟨⟨?_, ?_⟩, ?_, ⟨?_, by decide +kernel⟩, ?_⟩
  · rw [← hleast]
    exact (hdenoted _ (by decide)).back
  · rw [← hleast']
    exact (hbare _ (by decide) (by decide)).1.back
  · rw [← hzero]
    exact (hdenoted _ (by decide)).back
  · rw [← hbetween]
    exact (hdenoted _ (by decide)).back
  · intro htext
    exact absurd ((hinj _ _ (by decide) (by decide)).1 htext) (by decide)

end Binary64

end StackVm
