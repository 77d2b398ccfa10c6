import Mathlib.Data.Bool.AllAny
import StackVm.Binary64.Inspect
import StackVm.Proofs.FloatReading
/-!
# Float literals tell the number

`Decimal.inspect` says at once what the steps that make a literal from two plain texts come to: the
exponent is read back from the text that it was written in (`Decimal.splitExponent_scientific`), and
a sign in front stays there through all steps, so that a literal is a sign and the text of a decimal
(`Binary64.inspect_eq`). `Decimal.textValue` reads a text with a point, and maybe an exponent, as
the number it denotes. The text of a decimal denotes its value, with the point in place or behind
the first digit (`Decimal.textValue_inspect`). So the text of a number that is one tells its sign
and its magnitude, and through them its bits (`Binary64.inspect_inj`).
-/

namespace StackVm

namespace Decimal

/-! ## The number that a text denotes -/

section

variable {stop : Char} {front rest : List Char}

theorem bne_of_not_mem (h : stop ∉ front) : ∀ c ∈ front, (c != stop) = true := by
  intro c hc
  simpa using fun heq : c = stop => h (heq ▸ hc)

theorem before_append (h : stop ∉ front) : before stop (front ++ stop :: rest) = front := by
  rw [before, List.takeWhile_append_of_pos (bne_of_not_mem h), List.takeWhile_cons_of_neg (by simp),
    List.append_nil]

theorem behind_append (h : stop ∉ front) : behind stop (front ++ stop :: rest) = rest := by
  rw [behind, List.dropWhile_append_of_pos (bne_of_not_mem h), List.dropWhile_cons_of_neg (by simp),
    List.tail_cons]

theorem before_eq_self (h : stop ∉ front) : before stop front = front := by
  have hall : (front ++ []).takeWhile (· != stop) = front ++ List.takeWhile (· != stop) [] :=
    List.takeWhile_append_of_pos (bne_of_not_mem h)
  simpa [before] using hall

theorem behind_eq_nil (h : stop ∉ front) : behind stop front = [] := by
  have hall : (front ++ []).dropWhile (· != stop) = List.dropWhile (· != stop) [] :=
    List.dropWhile_append_of_pos (bne_of_not_mem h)
  rw [List.append_nil] at hall
  rw [behind, hall]
  rfl

end

/-- The number of an exponent: its sign and its digits. -/
def exponentValue : List Char → ℤ
  | [] => 0
  | sign :: digits =>
    if sign = '-' then -(Nat.ofDigitChars 10 digits 0) else Nat.ofDigitChars 10 digits 0

/-- The number that a text denotes: its digits up to an `e`, less a power of ten for each that
stands behind the point, times the power of ten behind the `e`. -/
def textValue (text : List Char) : ℚ :=
  let mantissa := before 'e' text
  let fraction := behind '.' mantissa
  (Nat.ofDigitChars 10 (before '.' mantissa ++ fraction) 0 : ℚ) / 10 ^ fraction.length
    * 10 ^ exponentValue (behind 'e' text)

/-- A text of digits. -/
def AllDigits (text : List Char) : Prop := ∀ c ∈ text, c.isDigit = true

section

variable {whole fraction : List Char}

theorem AllDigits.not_mem {c : Char} (h : AllDigits whole) (hc : c.isDigit = false) :
    c ∉ whole := by
  intro hmem
  rw [h c hmem] at hc
  cases hc

/-- No digit is among characters that are none. -/
theorem not_mem_of_isDigit {c : Char} {others : List Char} (hc : c.isDigit = true)
    (h : (others.all fun d => !d.isDigit) = true) : c ∉ others := by
  intro hmem
  have hnot := List.all_eq_true.1 h c hmem
  rw [hc] at hnot
  cases hnot

theorem AllDigits.append (h : AllDigits whole) (h' : AllDigits fraction) :
    AllDigits (whole ++ fraction) := by
  intro c hc
  exact (List.mem_append.1 hc).elim (h c) (h' c)

theorem allDigits_zeros (n : ℕ) : AllDigits (List.replicate n '0') := by
  intro c hc
  rw [List.eq_of_mem_replicate hc]
  rfl

theorem allDigits_zero : AllDigits ['0'] := allDigits_zeros 1

theorem allDigits_toDigits (n : ℕ) : AllDigits (Nat.toDigits 10 n) :=
  fun _ hc => Nat.isDigit_of_mem_toDigits (by decide) (by decide) hc

theorem not_mem_fixed (hwhole : AllDigits whole) (hfraction : AllDigits fraction) :
    'e' ∉ whole ++ '.' :: fraction := by
  simp [hwhole.not_mem (c := 'e') rfl, hfraction.not_mem (c := 'e') rfl]

/-- A text without an exponent. -/
theorem textValue_fixed (hwhole : AllDigits whole) (hfraction : AllDigits fraction) :
    textValue (whole ++ '.' :: fraction) =
      (Nat.ofDigitChars 10 (whole ++ fraction) 0 : ℚ) / 10 ^ fraction.length := by
  have hnone := not_mem_fixed hwhole hfraction
  have hpoint : '.' ∉ whole := hwhole.not_mem rfl
  simp only [textValue, before_eq_self hnone, behind_eq_nil hnone, before_append hpoint,
    behind_append hpoint, exponentValue, zpow_zero, mul_one]

/-- A text with an exponent. -/
theorem textValue_scientific (hwhole : AllDigits whole) (hfraction : AllDigits fraction)
    (exponent : List Char) :
    textValue (whole ++ '.' :: fraction ++ 'e' :: exponent) =
      (Nat.ofDigitChars 10 (whole ++ fraction) 0 : ℚ) / 10 ^ fraction.length
        * 10 ^ exponentValue exponent := by
  have hnone := not_mem_fixed hwhole hfraction
  have hpoint : '.' ∉ whole := hwhole.not_mem rfl
  simp only [textValue, before_append hnone, behind_append hnone, before_append hpoint,
    behind_append hpoint]

end

/-! ## The text of a decimal -/

variable {d : Decimal}

/-- The text of a decimal. -/
def inspect (d : Decimal) : List Char :=
  if -4 ≤ d.leadExponent ∧ d.leadExponent < 16 then withFraction d.positional
  else withFraction d.mantissa ++ 'e' :: exponentChars d.leadExponent

/-- A text that has a point keeps it. -/
theorem withFraction_append (whole fraction : List Char) :
    withFraction (whole ++ '.' :: fraction) = whole ++ '.' :: fraction :=
  if_pos (by simp)

/-- Digits get one. -/
theorem withFraction_of_digits {whole : List Char} (h : AllDigits whole) :
    withFraction whole = whole ++ '.' :: ['0'] :=
  if_neg (h.not_mem rfl)

theorem allDigits_digitChars (d : Decimal) : AllDigits d.digitChars := allDigits_toDigits _

theorem ofDigitChars_digitChars (d : Decimal) : Nat.ofDigitChars 10 d.digitChars 0 = d.digits :=
  Nat.ofDigitChars_ten_toDigits

/-- Zeros at the end of the digits are as many powers of ten. -/
theorem ofDigitChars_append_zeros (digits : List Char) (n : ℕ) :
    Nat.ofDigitChars 10 (digits ++ List.replicate n '0') 0 =
      Nat.ofDigitChars 10 digits 0 * 10 ^ n := by
  rw [Nat.ofDigitChars_append, Nat.ofDigitChars_replicate_zero, mul_comm]

/-- Zeros before them are nothing. -/
theorem ofDigitChars_zeros_append (n : ℕ) (digits : List Char) :
    Nat.ofDigitChars 10 (List.replicate n '0' ++ digits) 0 = Nat.ofDigitChars 10 digits 0 := by
  rw [Nat.ofDigitChars_append, Nat.ofDigitChars_replicate_zero, mul_zero]

/-- The digits with `zeros` more, of which `places` stand behind the point, and a power of ten. -/
theorem pointed_value {n places : ℕ} {power : ℤ} (zeros : ℕ) (hn : n = d.digits * 10 ^ zeros)
    (hpower : power = d.exponent + places - zeros) :
    (n : ℚ) / 10 ^ places * 10 ^ power = d.value := by
  have hten : (10 : ℚ) ≠ 0 := by norm_num
  rw [value, hpower, zpow_sub₀ hten, zpow_add₀ hten, zpow_natCast, zpow_natCast, hn]
  push_cast
  field_simp

/-- A way to write a decimal with a point: digits stand on both sides of it, and times a power of
ten they are the decimal. -/
structure Pointed (d : Decimal) (whole fraction : List Char) (power : ℤ) : Prop where
  /-- There are digits before the point, -/
  beforePoint : AllDigits whole ∧ whole ≠ []
  /-- and digits behind it. -/
  behindPoint : AllDigits fraction ∧ fraction ≠ []
  /-- Read as one number they are the decimal, but for the place of the point and the power. -/
  value : (Nat.ofDigitChars 10 (whole ++ fraction) 0 : ℚ) / 10 ^ fraction.length * 10 ^ power =
    d.value

theorem digitChars_ne_nil (d : Decimal) : d.digitChars ≠ [] := Nat.toDigits_ne_nil

theorem mantissa_eq (d : Decimal) :
    ∃ lead rest, d.digitChars = lead :: rest ∧ d.mantissa = lead :: withPoint rest := by
  obtain ⟨lead, rest, hdigits⟩ := List.exists_cons_of_ne_nil d.digitChars_ne_nil
  exact ⟨lead, rest, hdigits, by simp only [mantissa, hdigits]⟩

/-- **The point in place** needs no power of ten. -/
theorem positional_pointed (d : Decimal) :
    ∃ whole fraction, withFraction d.positional = whole ++ '.' :: fraction ∧
      d.Pointed whole fraction 0 := by
  have hpoint : d.point = d.digitChars.length + d.exponent := rfl
  have hdigits := d.ofDigitChars_digitChars
  have hall := d.allDigits_digitChars
  have hne := d.digitChars_ne_nil
  simp only [positional]
  split
  · -- All digits stand behind the point, after zeros.
    rename_i hle
    refine ⟨['0'], _, withFraction_append ['0'] _, ⟨allDigits_zero, by simp⟩,
      ⟨(allDigits_zeros _).append hall, by simp [hne]⟩, pointed_value 0 ?_ ?_⟩
    · rw [← hdigits, pow_zero, mul_one, ← List.append_assoc, List.singleton_append,
        ← List.replicate_succ, ofDigitChars_zeros_append]
    · rw [List.length_append, List.length_replicate]
      omega
  · split
    · -- All digits stand before the point, and zeros between them and it.
      rename_i hpos hle
      have hwhole := hall.append (allDigits_zeros (d.point - d.digitChars.length).toNat)
      refine ⟨_, ['0'], withFraction_of_digits hwhole, ⟨hwhole, by simp [hne]⟩,
        ⟨allDigits_zero, by simp⟩, pointed_value ((d.point - d.digitChars.length).toNat + 1) ?_ ?_⟩
      · rw [← hdigits, List.append_assoc, ← List.replicate_succ', ofDigitChars_append_zeros]
      · rw [List.length_singleton]
        omega
    · -- The point stands among the digits.
      rename_i hpos hlt
      refine ⟨_, _, withFraction_append _ _, ⟨fun c hc => hall c (List.mem_of_mem_take hc), ?_⟩,
        ⟨fun c hc => hall c (List.mem_of_mem_drop hc), ?_⟩, pointed_value 0 ?_ ?_⟩
      · have hsome : d.point.toNat ≠ 0 := by omega
        simp [hne, hsome]
      · have hmore : d.point.toNat < d.digitChars.length := by omega
        simp [hmore]
      · rw [List.take_append_drop, hdigits, pow_zero, mul_one]
      · rw [List.length_drop]
        omega

/-- **The point behind the first digit** needs the power of ten of that digit. -/
theorem mantissa_pointed (d : Decimal) :
    ∃ whole fraction, withFraction d.mantissa = whole ++ '.' :: fraction ∧
      d.Pointed whole fraction d.leadExponent := by
  obtain ⟨lead, rest, hchars, htext⟩ := d.mantissa_eq
  have hdigits := d.ofDigitChars_digitChars
  have hall := d.allDigits_digitChars
  have hlead : d.leadExponent = d.digitChars.length + d.exponent - 1 := rfl
  rw [hchars] at hdigits hall hlead
  rw [htext]
  cases rest with
  | nil =>
    refine ⟨[lead], ['0'], withFraction_of_digits hall, ⟨hall, by simp⟩,
      ⟨allDigits_zero, by simp⟩, pointed_value 1 ?_ ?_⟩
    · rw [← hdigits]
      exact ofDigitChars_append_zeros [lead] 1
    · rw [hlead, List.length_singleton, List.length_singleton]
      omega
  | cons next more =>
    refine ⟨[lead], next :: more, withFraction_append [lead] _,
      ⟨fun c hc => hall c (by simp_all), by simp⟩,
      ⟨fun c hc => hall c (List.mem_cons_of_mem _ hc), by simp⟩, pointed_value 0 ?_ ?_⟩
    · rw [← hdigits, pow_zero, mul_one, List.singleton_append]
    · rw [hlead, List.length_cons]
      omega

theorem exponentValue_exponentChars (e : ℤ) : exponentValue (exponentChars e) = e := by
  have hdigits : Nat.ofDigitChars 10 (if e.natAbs < 10 then '0' :: Nat.toDigits 10 e.natAbs
      else Nat.toDigits 10 e.natAbs) 0 = e.natAbs := by
    split
    · exact (ofDigitChars_zeros_append 1 _).trans Nat.ofDigitChars_ten_toDigits
    · exact Nat.ofDigitChars_ten_toDigits
  simp only [exponentValue, exponentChars, hdigits]
  rcases lt_or_ge e 0 with he | he
  · rw [if_pos he, if_pos rfl]
    omega
  · rw [if_neg (not_lt.2 he), if_neg (by decide)]
    omega

/-- **The text of a decimal denotes its value.** -/
theorem textValue_inspect (d : Decimal) : textValue d.inspect = d.value := by
  unfold inspect
  split
  · obtain ⟨whole, fraction, htext, hpointed⟩ := d.positional_pointed
    rw [htext, textValue_fixed hpointed.beforePoint.1 hpointed.behindPoint.1, ← hpointed.value,
      zpow_zero, mul_one]
  · obtain ⟨whole, fraction, htext, hpointed⟩ := d.mantissa_pointed
    rw [htext, textValue_scientific hpointed.beforePoint.1 hpointed.behindPoint.1,
      exponentValue_exponentChars, hpointed.value]

/-! ## The exponent read back -/

theorem natural?_toDigits (n : ℕ) : natural? (Nat.toDigits 10 n) = some n := by
  have hall : (Nat.toDigits 10 n).all Char.isDigit = true :=
    List.all_eq_true.2 (allDigits_toDigits n)
  rw [natural?, if_pos ⟨Nat.toDigits_ne_nil, hall⟩, Nat.ofDigitChars_ten_toDigits]

/-- Digits without a sign denote what they denote. -/
theorem signed?_of_digits {text : List Char} (h : AllDigits text) :
    signed? text = (natural? text).map fun (n : ℕ) => (n : ℤ) := by
  unfold signed?
  split
  · exact absurd (h '-' List.mem_cons_self) (by decide)
  · exact absurd (h '+' List.mem_cons_self) (by decide)
  · rfl

theorem integerChars_eq (e : ℤ) : integerChars e =
    if e < 0 then '-' :: Nat.toDigits 10 e.natAbs else Nat.toDigits 10 e.natAbs := by
  by_cases hnegative : e < 0 <;> simp [integerChars, signChars, hnegative]

theorem signed?_integerChars (e : ℤ) : signed? (integerChars e) = some e := by
  rw [integerChars_eq]
  split
  · rw [signed?, natural?_toDigits, Option.map_some, Option.some.injEq]
    omega
  · rw [signed?_of_digits (allDigits_toDigits _), natural?_toDigits, Option.map_some,
      Option.some.injEq]
    omega

/-- An integer of 32 bits is read as it was written. -/
theorem integer?_integerChars {e : ℤ} (hbits : -0x80000000 ≤ e ∧ e < 0x80000000) :
    integer? (integerChars e) = some e := by
  rw [integer?, signed?_integerChars, Option.filter_some, if_pos (decide_eq_true hbits)]

/-- Digits hold no exponent, with a point behind the first or without. -/
theorem not_mem_withPoint {lead : Char} {rest : List Char} (h : AllDigits (lead :: rest)) :
    'e' ∉ lead :: withPoint rest := by
  cases rest with
  | nil => exact h.not_mem rfl
  | cons next more =>
    have hlead : AllDigits [lead] := fun c hc => h c (by simp_all)
    have hrest : AllDigits (next :: more) := fun c hc => h c (List.mem_cons_of_mem _ hc)
    exact not_mem_fixed hlead hrest

theorem not_mem_mantissa (d : Decimal) : 'e' ∉ d.mantissa := by
  obtain ⟨lead, rest, hdigits, htext⟩ := d.mantissa_eq
  rw [htext]
  exact not_mem_withPoint (hdigits ▸ d.allDigits_digitChars)

theorem not_mem_signChars {c : Char} (hc : c ≠ '-') (negative : Bool) : c ∉ signChars negative := by
  cases negative <;> simp [signChars, hc]

/-- **The exponent is read back from the text that it was written in**, and what stands before it is
left. -/
theorem splitExponent_scientific
    (hbits : -0x80000000 ≤ d.leadExponent ∧ d.leadExponent < 0x80000000) (negative : Bool) :
    splitExponent (signChars negative ++ d.scientific) =
      (signChars negative ++ d.mantissa, d.leadExponent) := by
  have hnone : 'e' ∉ signChars negative ++ d.mantissa := by
    simp [not_mem_signChars, d.not_mem_mantissa]
  have hsplit : splitOnce 'e' (signChars negative ++ d.scientific) =
      some (signChars negative ++ d.mantissa, integerChars d.leadExponent) := by
    rw [scientific, ← List.append_assoc, splitOnce, if_pos (by simp), before_append hnone,
      behind_append hnone]
  simp only [splitExponent, hsplit, integer?_integerChars hbits, Option.getD_some]

/-- A sign in front has nothing to do with the point. -/
theorem withFraction_sign (negative : Bool) (text : List Char) :
    withFraction (signChars negative ++ text) = signChars negative ++ withFraction text := by
  have hsign : '.' ∈ signChars negative ++ text ↔ '.' ∈ text := by
    simp [not_mem_signChars]
  unfold withFraction
  by_cases hpoint : '.' ∈ text
  · rw [if_pos (hsign.2 hpoint), if_pos hpoint]
  · rw [if_neg (mt hsign.1 hpoint), if_neg hpoint, List.append_assoc]

/-! ## The characters of a decimal -/

/-- The characters besides digits that a number is written with. -/
def marks : List Char := "-+.eInfityNa".toList

/-- A text of digits and marks that begins with a digit and has a point. -/
structure IsNumeral (text : List Char) : Prop where
  /-- Digits and marks are all there is. -/
  chars : ∀ c ∈ text, c.isDigit = true ∨ c ∈ marks
  /-- A digit comes first. -/
  head : ∃ c rest, text = c :: rest ∧ c.isDigit = true
  /-- A point is among them. -/
  point : '.' ∈ text

/-- Digits, a point and digits make a numeral. -/
theorem isNumeral_fixed {whole fraction : List Char} (hwhole : AllDigits whole)
    (hfraction : AllDigits fraction) (hne : whole ≠ []) :
    IsNumeral (whole ++ '.' :: fraction) := by
  refine ⟨?_, ?_, by simp⟩
  · intro c hc
    rcases List.mem_append.1 hc with hc | hc
    · exact .inl (hwhole c hc)
    · rcases List.mem_cons.1 hc with rfl | hc
      · exact .inr (by decide)
      · exact .inl (hfraction c hc)
  · obtain ⟨c, rest, rfl⟩ := List.exists_cons_of_ne_nil hne
    exact ⟨c, rest ++ '.' :: fraction, rfl, hwhole c List.mem_cons_self⟩

/-- An exponent may follow. -/
theorem IsNumeral.append {text more : List Char} (h : IsNumeral text)
    (hmore : ∀ c ∈ more, c.isDigit = true ∨ c ∈ marks) : IsNumeral (text ++ more) := by
  obtain ⟨c, rest, rfl, hc⟩ := h.head
  refine ⟨?_, ⟨c, rest ++ more, rfl, hc⟩, List.mem_append_left _ h.point⟩
  intro d hd
  exact (List.mem_append.1 hd).elim (h.chars d) (hmore d)

theorem exponentChars_chars (e : ℤ) : ∀ c ∈ exponentChars e, c.isDigit = true ∨ c ∈ marks := by
  have hdigits := allDigits_toDigits e.natAbs
  intro c hc
  unfold exponentChars at hc
  rcases List.mem_cons.1 hc with rfl | hc
  · right
    split <;> decide
  · left
    split at hc
    · exact (allDigits_zero.append hdigits) c hc
    · exact hdigits c hc

theorem isNumeral_inspect (d : Decimal) : IsNumeral d.inspect := by
  unfold inspect
  split
  · obtain ⟨whole, fraction, htext, hpointed⟩ := d.positional_pointed
    rw [htext]
    exact isNumeral_fixed hpointed.beforePoint.1 hpointed.behindPoint.1 hpointed.beforePoint.2
  · obtain ⟨whole, fraction, htext, hpointed⟩ := d.mantissa_pointed
    rw [htext]
    have hfixed := isNumeral_fixed hpointed.beforePoint.1 hpointed.behindPoint.1
      hpointed.beforePoint.2
    refine hfixed.append ?_
    intro c hc
    rcases List.mem_cons.1 hc with rfl | hc
    · exact .inr (by decide)
    · exact exponentChars_chars _ c hc

end Decimal

/-! ## The text of a number -/

namespace Binary64

open Decimal (IsNumeral marks)

/-- The text of a number without its sign. -/
def unsigned (m : ℕ) : List Char :=
  if m < infinity then if m = 0 then ['0', '.', '0'] else (shortest m).inspect
  else "Infinity".toList

/-- The exponent of a shortest decimal is a small one. -/
theorem leadExponent_bounds {m : ℕ} (hpos : 0 < m) (hfinite : m < infinity) :
    -0x80000000 ≤ (shortest m).leadExponent ∧ (shortest m).leadExponent < 0x80000000 := by
  obtain ⟨hread, hlast⟩ := magnitudeOfDecimal_shortest hpos hfinite
  have hdigits : (shortest m).digits ≠ 0 := by omega
  rw [magnitudeOfDecimal, if_neg hdigits] at hread
  unfold Decimal.leadExponent
  split at hread
  · omega
  · split at hread <;> omega

/-- **The steps that make a literal come to a sign and the text of a decimal.** -/
theorem inspect_eq {x : Binary64} (h : x.isNaN = false) :
    x.inspect = Decimal.signChars x.isNegative ++ unsigned x.magnitude := by
  rw [inspect, h, if_neg Bool.false_ne_true, unsigned]
  by_cases hfinite : x.magnitude < infinity
  · rw [isFinite, decide_eq_true hfinite, if_neg (by decide), if_pos hfinite]
    by_cases hzero : x.magnitude = 0
    · rw [if_pos hzero, if_pos hzero]
      cases x.isNegative <;> rfl
    · have hbits := leadExponent_bounds (Nat.pos_of_ne_zero hzero) hfinite
      have hsplit := Decimal.splitExponent_scientific hbits x.isNegative
      have hscientific : x.scientific =
          Decimal.signChars x.isNegative ++ (shortest x.magnitude).scientific := by
        rw [scientific, if_neg hzero]
      have hpositional : x.positional =
          Decimal.signChars x.isNegative ++ (shortest x.magnitude).positional := by
        rw [positional, if_neg hzero]
      rw [if_neg hzero, if_neg hzero, hscientific, hsplit, hpositional, Decimal.inspect]
      simp only [Decimal.withFraction_sign]
      split
      · rfl
      · rw [List.append_assoc]
  · rw [isFinite, decide_eq_false hfinite, if_pos (by decide), if_neg hfinite]
    cases x.isNegative <;> rfl

/-- Without its sign a number is a numeral or infinity. -/
theorem unsigned_spec (m : ℕ) :
    (m < infinity ∧ IsNumeral (unsigned m)) ∨
      (infinity ≤ m ∧ unsigned m = "Infinity".toList) := by
  unfold unsigned
  split
  · rename_i hfinite
    refine .inl ⟨hfinite, ?_⟩
    split
    · exact Decimal.isNumeral_fixed Decimal.allDigits_zero Decimal.allDigits_zero (by simp)
    · exact (shortest m).isNumeral_inspect
  · rename_i hinfinite
    exact .inr ⟨Nat.le_of_not_lt hinfinite, rfl⟩

/-- What the text of a finite magnitude denotes. -/
theorem textValue_unsigned {m : ℕ} (hfinite : m < infinity) :
    Decimal.textValue (unsigned m) = if m = 0 then 0 else (shortest m).value := by
  rw [unsigned, if_pos hfinite]
  split
  · have hzero := Decimal.textValue_fixed Decimal.allDigits_zero Decimal.allDigits_zero
    rw [show ['0', '.', '0'] = ['0'] ++ '.' :: ['0'] from rfl, hzero]
    norm_num [Nat.ofDigitChars_cons, Nat.ofDigitChars_nil]
  · exact Decimal.textValue_inspect _

/-- Only of zero is it zero. -/
theorem value_shortest_ne_zero {m : ℕ} (hpos : 0 < m) (hfinite : m < infinity) :
    (shortest m).value ≠ 0 := by
  have hlast := (magnitudeOfDecimal_shortest hpos hfinite).2
  rw [Ne, Decimal.value_eq_zero_iff]
  omega

/-- **The text of a magnitude tells it.** -/
theorem unsigned_inj {m n : ℕ} (hm : m ≤ infinity) (hn : n ≤ infinity)
    (h : unsigned m = unsigned n) : m = n := by
  rcases unsigned_spec m with ⟨hfinite, hnumeral⟩ | ⟨hinfinite, htext⟩
  · rcases unsigned_spec n with ⟨hfinite', -⟩ | ⟨-, htext'⟩
    · -- Both are finite: one text denotes one value, and the value is read back to both.
      have hvalue := congrArg Decimal.textValue h
      rw [textValue_unsigned hfinite, textValue_unsigned hfinite'] at hvalue
      split at hvalue <;> rename_i hzero <;> split at hvalue <;> rename_i hzero'
      · omega
      · exact absurd hvalue.symm (value_shortest_ne_zero (by omega) hfinite')
      · exact absurd hvalue (value_shortest_ne_zero (by omega) hfinite)
      · have hread := magnitudeOfDecimal_congr hvalue
        rwa [(magnitudeOfDecimal_shortest (by omega) hfinite).1,
          (magnitudeOfDecimal_shortest (by omega) hfinite').1] at hread
    · have hpoint := hnumeral.point
      rw [h, htext'] at hpoint
      exact absurd hpoint (by decide)
  · rcases unsigned_spec n with ⟨-, hnumeral⟩ | ⟨hinfinite', -⟩
    · have hpoint := hnumeral.point
      rw [← h, htext] at hpoint
      exact absurd hpoint (by decide)
    · omega

/-- No sign begins the text without it. -/
theorem unsigned_head (m : ℕ) (rest : List Char) : unsigned m ≠ '-' :: rest := by
  intro h
  rcases unsigned_spec m with ⟨-, hnumeral⟩ | ⟨-, htext⟩
  · obtain ⟨c, more, heq, hdigit⟩ := hnumeral.head
    rw [h] at heq
    obtain ⟨rfl, -⟩ := List.cons.inj heq
    cases hdigit
  · rw [htext] at h
    cases h

/-- The sign and the magnitude are all of a number. -/
theorem eq_of_magnitude_eq {x y : Binary64} (hsign : x.isNegative = y.isNegative)
    (hmagnitude : x.magnitude = y.magnitude) : x = y := by
  have hx := x.bits.toNat_lt
  have hy := y.bits.toNat_lt
  have hbits : x.bits.toNat = y.bits.toNat := by
    unfold isNegative signBit at hsign
    unfold magnitude signBit at hmagnitude
    rw [decide_eq_decide] at hsign
    omega
  cases x
  cases y
  simpa [UInt64.toNat_inj] using hbits

/-- **The text of a number tells its bits.** -/
theorem inspect_inj {x y : Binary64} (hx : x.isNaN = false) (hy : y.isNaN = false)
    (h : x.inspect = y.inspect) : x = y := by
  have hx' : x.magnitude ≤ infinity := by simpa [isNaN] using hx
  have hy' : y.magnitude ≤ infinity := by simpa [isNaN] using hy
  rw [inspect_eq hx, inspect_eq hy] at h
  cases hsign : x.isNegative <;> cases hsign' : y.isNegative <;> rw [hsign, hsign'] at h
  · exact eq_of_magnitude_eq (hsign.trans hsign'.symm) (unsigned_inj hx' hy' h)
  · exact absurd h (unsigned_head _ _)
  · exact absurd h.symm (unsigned_head _ _)
  · exact eq_of_magnitude_eq (hsign.trans hsign'.symm) (unsigned_inj hx' hy' (List.cons.inj h).2)

/-- Digits and marks are all there is in the text of a number. -/
theorem inspect_chars (x : Binary64) : ∀ c ∈ x.inspect, c.isDigit = true ∨ c ∈ marks := by
  intro c hc
  cases hnan : x.isNaN with
  | true =>
    have hnone : ∀ c ∈ "NaN".toList, c ∈ marks := List.all_iff_forall_prop.1 (by decide)
    rw [inspect, if_pos hnan] at hc
    exact .inr (hnone c hc)
  | false =>
    rw [inspect_eq hnan] at hc
    rcases List.mem_append.1 hc with hc | hc
    · obtain rfl : c = '-' := by_contra fun hne => Decimal.not_mem_signChars hne _ hc
      exact .inr (by decide)
    · rcases unsigned_spec x.magnitude with ⟨-, hnumeral⟩ | ⟨-, htext⟩
      · exact hnumeral.chars c hc
      · have hinfinity : ∀ c ∈ "Infinity".toList, c ∈ marks :=
          List.all_iff_forall_prop.1 (by decide)
        exact .inr (hinfinity c (htext ▸ hc))

/-- Something in the text of a number is neither a digit nor a sign. -/
theorem inspect_not_integer {x : Binary64} (h : x.isNaN = false) :
    '.' ∈ x.inspect ∨ 'I' ∈ x.inspect := by
  rw [inspect_eq h]
  rcases unsigned_spec x.magnitude with ⟨-, hnumeral⟩ | ⟨-, htext⟩
  · exact .inl (List.mem_append_right _ hnumeral.point)
  · rw [htext]
    exact .inr (List.mem_append_right _ (by decide))

end Binary64

end StackVm
