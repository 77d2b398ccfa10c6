import Mathlib.Algebra.Order.Floor.Semiring
import Mathlib.Data.Int.Log
import Mathlib.Data.Rat.Floor
import Mathlib.Tactic.FieldSimp
import Mathlib.Tactic.Linarith
import Mathlib.Tactic.NormNum
import Mathlib.Tactic.Positivity
import Mathlib.Tactic.Ring
import StackVm.Binary64.Decimal
/-!
# Decimals read back

The nearest magnitude depends on a fraction's value only (`Binary64.nearest_congr`), a finite
magnitude is the nearest to its own value (`Binary64.nearest_numerator`), and where the point of a
decimal stands is the decimal logarithm of its value (`Decimal.point_eq`). So decimals of one value
are read alike, and the shortest decimal of a magnitude, whichever way it was found, is read back to
it (`Binary64.magnitudeOfDecimal_shortest`).
-/

namespace StackVm

/-! ## Powers and logarithms -/

/-- An integer power as a quotient of natural ones. -/
theorem zpow_eq_div (b : ℚ) (e : ℤ) : b ^ e = b ^ e.toNat / b ^ (-e).toNat := by
  rcases le_total 0 e with he | he
  · obtain ⟨n, rfl⟩ := Int.eq_ofNat_of_zero_le he
    simp
  · obtain ⟨n, rfl⟩ : ∃ n : ℕ, e = -n := ⟨(-e).toNat, by omega⟩
    simp

/-- The bounds that a logarithm is known by. -/
theorem log_eq_of_bounds {b : ℕ} (hb : 1 < b) {x : ℚ} {e : ℤ} (hle : (b : ℚ) ^ e ≤ x)
    (hlt : x < (b : ℚ) ^ (e + 1)) : Int.log b x = e := by
  have hpos : 0 < x := lt_of_lt_of_le (zpow_pos (by exact_mod_cast Nat.zero_lt_of_lt hb) e) hle
  have hlow : e ≤ Int.log b x := (Int.zpow_le_iff_le_log hb hpos).1 hle
  have hhigh : Int.log b x < e + 1 := (Int.lt_zpow_iff_log_lt hb hpos).1 hlt
  omega

namespace Binary64

variable {num den k : ℕ}

theorem twoPow_eq (n : ℕ) : twoPow n = 2 ^ n := rfl

theorem twoPow_pos (n : ℕ) : 0 < twoPow n := Nat.two_pow_pos n

/-- The comparison by which a binary place is found. -/
theorem scaled_le_iff (hden : 0 < den) (e : ℤ) :
    den * twoPow e.toNat ≤ num * twoPow (-e).toNat ↔ (2 : ℚ) ^ e ≤ (num : ℚ) / den := by
  rw [zpow_eq_div, div_le_div_iff₀ (by positivity) (by exact_mod_cast hden),
    twoPow_eq, twoPow_eq, mul_comm den]
  norm_cast

/-- **The binary place of a fraction is the logarithm of its value.** -/
theorem binaryPlace_eq (hnum : 0 < num) (hden : 0 < den) :
    binaryPlace num den = Int.log 2 ((num : ℚ) / den) := by
  have hnum' : (0 : ℚ) < num := by exact_mod_cast hnum
  have hden' : (0 : ℚ) < den := by exact_mod_cast hden
  have hnumLow : (2 : ℚ) ^ (num.log2 : ℤ) ≤ num := by
    exact_mod_cast Nat.log2_self_le hnum.ne'
  have hnumHigh : (num : ℚ) < 2 ^ ((num.log2 : ℤ) + 1) := by
    exact_mod_cast (Nat.log2_lt hnum.ne').1 (Nat.lt_succ_self _)
  have hdenLow : (2 : ℚ) ^ (den.log2 : ℤ) ≤ den := by
    exact_mod_cast Nat.log2_self_le hden.ne'
  have hdenHigh : (den : ℚ) < 2 ^ ((den.log2 : ℤ) + 1) := by
    exact_mod_cast (Nat.log2_lt hden.ne').1 (Nat.lt_succ_self _)
  -- The logarithms of both parts leave two places to choose from, and the comparison chooses.
  have hhigh : (num : ℚ) / den < 2 ^ ((num.log2 : ℤ) - den.log2 + 1) := by
    rw [← add_sub_right_comm, zpow_sub₀ two_ne_zero]
    exact div_lt_div₀ hnumHigh hdenLow (zpow_pos two_pos _).le (zpow_pos two_pos _)
  have hlow : (2 : ℚ) ^ ((num.log2 : ℤ) - den.log2 - 1) ≤ (num : ℚ) / den := by
    rw [sub_sub, zpow_sub₀ two_ne_zero]
    exact div_le_div₀ hnum'.le hnumLow hden' hdenHigh.le
  simp only [binaryPlace]
  split
  · rename_i hle
    exact (log_eq_of_bounds (b := 2) one_lt_two ((scaled_le_iff hden _).1 hle) hhigh).symm
  · rename_i hnot
    have hlt : (num : ℚ) / den < 2 ^ ((num.log2 : ℤ) - den.log2 - 1 + 1) := by
      rw [sub_add_cancel]
      exact lt_of_not_ge fun hle => hnot ((scaled_le_iff hden _).2 hle)
    exact (log_eq_of_bounds (b := 2) one_lt_two hlow hlt).symm

/-! ## The nearest magnitude -/

theorem roundQuotient_mul_right (hk : 0 < k) :
    roundQuotient (num * k) (den * k) = roundQuotient num den := by
  simp only [roundQuotient, Nat.mul_mod_mul_right, Nat.mul_div_mul_right _ _ hk, ← mul_assoc,
    Nat.mul_lt_mul_right hk]

/-- A quotient that comes out even is not rounded. -/
theorem roundQuotient_mul_self (hden : 0 < den) : roundQuotient (num * den) den = num := by
  unfold roundQuotient
  rw [Nat.mul_mod_left, Nat.mul_div_cancel _ hden, if_pos (by omega)]

theorem unitPlace_eq (hnum : 0 < num) (hden : 0 < den) :
    unitPlace num den = max (-1074) (Int.log 2 ((num : ℚ) / den) - 52) := by
  rw [unitPlace, binaryPlace_eq hnum hden]

/-- A fraction may be expanded. -/
theorem nearest_mul_right (hden : 0 < den) (hk : 0 < k) :
    nearest (num * k) (den * k) = nearest num den := by
  rcases Nat.eq_zero_or_pos num with rfl | hnum
  · simp [nearest]
  · have hplace : unitPlace (num * k) (den * k) = unitPlace num den := by
      rw [unitPlace_eq (Nat.mul_pos hnum hk) (Nat.mul_pos hden hk), unitPlace_eq hnum hden]
      push_cast
      rw [mul_div_mul_right _ _ (by exact_mod_cast hk.ne')]
    unfold nearest
    rw [if_neg hnum.ne', if_neg (Nat.mul_pos hnum hk).ne', hplace]
    simp only []
    rw [mul_right_comm num, mul_right_comm den, roundQuotient_mul_right hk]

/-- **The nearest magnitude depends on a fraction's value only.** -/
theorem nearest_congr {num' den' : ℕ} (hden : 0 < den) (hden' : 0 < den')
    (h : num * den' = num' * den) : nearest num den = nearest num' den' := by
  rw [← nearest_mul_right hden hden', ← nearest_mul_right hden' hden, h, mul_comm den]

/-! ## The value of a magnitude -/

/-- The value of a finite magnitude. -/
def value (m : ℕ) : ℚ := significand m * 2 ^ exponent m

theorem denominator_pos (m : ℕ) : 0 < denominator m := twoPow_pos _

theorem numerator_div_denominator (m : ℕ) : (numerator m : ℚ) / denominator m = value m := by
  rw [value, zpow_eq_div, numerator, denominator, twoPow_eq, twoPow_eq]
  push_cast
  ring

/-- A magnitude other than zero has a significand of 53 bits, whose highest is set unless the
exponent is the least; and it counts the significands below. -/
theorem significand_spec {m : ℕ} (hpos : 0 < m) (hfinite : m < infinity) :
    0 < significand m ∧ significand m < 2 ^ 53 ∧
      (2 ^ 52 ≤ significand m ∨ exponent m = -1074) ∧ -1074 ≤ exponent m ∧ exponent m ≤ 971 ∧
      (exponent m + 1074).toNat * hiddenBit + significand m = m := by
  unfold infinity hiddenBit at hfinite
  unfold significand exponent hiddenBit
  split <;> omega

/-- The value of a magnitude other than zero lies between the least and twice the greatest power of
two. -/
theorem value_bounds {m : ℕ} (hpos : 0 < m) (hfinite : m < infinity) :
    (2 : ℚ) ^ (-1074 : ℤ) ≤ value m ∧ value m < 2 ^ (1024 : ℤ) := by
  obtain ⟨hs, hlt, -, hlow, hhigh, -⟩ := significand_spec hpos hfinite
  have hs' : (1 : ℚ) ≤ significand m := by exact_mod_cast hs
  have hlt' : (significand m : ℚ) < 2 ^ (53 : ℤ) := by exact_mod_cast hlt
  have hpow : (0 : ℚ) < 2 ^ exponent m := zpow_pos two_pos _
  constructor
  · calc (2 : ℚ) ^ (-1074 : ℤ) ≤ 2 ^ exponent m := zpow_le_zpow_right₀ one_le_two hlow
      _ = 1 * 2 ^ exponent m := (one_mul _).symm
      _ ≤ value m := mul_le_mul_of_nonneg_right hs' hpow.le
  · calc value m < 2 ^ (53 : ℤ) * 2 ^ exponent m := mul_lt_mul_of_pos_right hlt' hpow
      _ = 2 ^ (53 + exponent m) := (zpow_add₀ two_ne_zero _ _).symm
      _ ≤ 2 ^ (1024 : ℤ) := zpow_le_zpow_right₀ one_le_two (by omega)

/-- The significand of a finite magnitude counts what `nearest` counts. -/
theorem unitPlace_numerator {m : ℕ} (hpos : 0 < m) (hfinite : m < infinity) :
    unitPlace (numerator m) (denominator m) = exponent m := by
  obtain ⟨hs, hlt, hnormal, hlow, -, -⟩ := significand_spec hpos hfinite
  have hnum : 0 < numerator m := Nat.mul_pos hs (twoPow_pos _)
  have hpow : (0 : ℚ) < 2 ^ exponent m := zpow_pos two_pos _
  have hvalue : 0 < value m := mul_pos (by exact_mod_cast hs) hpow
  rw [unitPlace_eq hnum (denominator_pos m), numerator_div_denominator]
  have hle : Int.log 2 (value m) < 53 + exponent m := by
    refine (Int.lt_zpow_iff_log_lt one_lt_two hvalue).1 ?_
    rw [Nat.cast_ofNat, zpow_add₀ two_ne_zero]
    exact mul_lt_mul_of_pos_right (by exact_mod_cast hlt) hpow
  rcases hnormal with hnormal | hleast
  · have hge : 52 + exponent m ≤ Int.log 2 (value m) := by
      refine (Int.zpow_le_iff_le_log one_lt_two hvalue).1 ?_
      rw [Nat.cast_ofNat, zpow_add₀ two_ne_zero]
      exact mul_le_mul_of_nonneg_right (by exact_mod_cast hnormal) hpow.le
    omega
  · omega

/-- **A finite magnitude is the nearest to its own value.** -/
theorem nearest_numerator {m : ℕ} (hpos : 0 < m) (hfinite : m < infinity) :
    nearest (numerator m) (denominator m) = m := by
  obtain ⟨hs, -, -, -, -, hsum⟩ := significand_spec hpos hfinite
  have hnum : numerator m ≠ 0 := (Nat.mul_pos hs (twoPow_pos _)).ne'
  have hround : roundQuotient (numerator m * twoPow (-exponent m).toNat)
      (denominator m * twoPow (exponent m).toNat) = significand m := by
    rw [numerator, denominator, mul_assoc, mul_comm (twoPow (-exponent m).toNat)]
    exact roundQuotient_mul_self (Nat.mul_pos (twoPow_pos _) (twoPow_pos _))
  simp only [nearest, if_neg hnum, unitPlace_numerator hpos hfinite, hround, hsum]
  exact min_eq_left hfinite.le

end Binary64

/-! ## The value of a decimal -/

namespace Decimal

variable {d : Decimal}

/-- The number that a decimal stands for. -/
def value (d : Decimal) : ℚ := d.digits * 10 ^ d.exponent

theorem denominator_pos (d : Decimal) : 0 < d.denominator := Nat.pow_pos (by decide)

theorem numerator_div_denominator (d : Decimal) : (d.numerator : ℚ) / d.denominator = d.value := by
  have hten : ∀ n, ((tenPow n : ℕ) : ℚ) = 10 ^ n := fun n => Nat.cast_pow 10 n
  rw [value, zpow_eq_div, numerator, denominator, Nat.cast_mul, hten, hten]
  ring

theorem value_eq_zero_iff : d.value = 0 ↔ d.digits = 0 := by
  rw [value, mul_eq_zero, Nat.cast_eq_zero]
  exact or_iff_left (zpow_ne_zero _ (by norm_num))

/-- The digits lie between the powers of ten that their number tells. -/
theorem digits_bounds (h : d.digits ≠ 0) :
    10 ^ (d.digitChars.length - 1) ≤ d.digits ∧ d.digits < 10 ^ d.digitChars.length := by
  have hpos : 0 < d.digitChars.length := Nat.length_toDigits_pos
  refine ⟨?_, (Nat.length_toDigits_le_iff (by decide) hpos).1 le_rfl⟩
  rcases Nat.eq_or_lt_of_le hpos with hone | hmore
  · rw [← hone]
    exact Nat.pos_of_ne_zero h
  · have hnot := mt (Nat.length_toDigits_le_iff (b := 10) (n := d.digits)
      (k := d.digitChars.length - 1) (by decide) (by omega)).2
    exact Nat.le_of_not_lt fun hlt => hnot (fun hle => by
      have hle : d.digitChars.length ≤ d.digitChars.length - 1 := hle
      omega) hlt

/-- **Where the point stands is a matter of the value.** -/
theorem point_eq (h : d.digits ≠ 0) : d.point = Int.log 10 d.value + 1 := by
  obtain ⟨hlow, hhigh⟩ := digits_bounds h
  have hpos : 0 < d.digitChars.length := Nat.length_toDigits_pos
  have hpow : (0 : ℚ) < 10 ^ d.exponent := zpow_pos (by norm_num) _
  have hlog : Int.log 10 d.value = (d.digitChars.length - 1 : ℕ) + d.exponent := by
    refine log_eq_of_bounds (by norm_num) ?_ ?_
    · rw [Nat.cast_ofNat, zpow_add₀ (by norm_num), zpow_natCast]
      exact mul_le_mul_of_nonneg_right (by exact_mod_cast hlow) hpow.le
    · have hsucc : ((d.digitChars.length - 1 : ℕ) : ℤ) + d.exponent + 1 =
          (d.digitChars.length : ℤ) + d.exponent := by omega
      rw [Nat.cast_ofNat, hsucc, zpow_add₀ (by norm_num), zpow_natCast]
      exact mul_lt_mul_of_pos_right (by exact_mod_cast hhigh) hpow
  rw [hlog, point]
  omega

/-! ## Without zeros at the end -/

theorem value_dropZeros (n : ℕ) (d : Decimal) : (dropZeros n d).value = d.value := by
  fun_induction dropZeros n d with
  | case1 => rfl
  | case2 n d hzero ih =>
    have hdigits : d.digits / 10 * 10 = d.digits := by omega
    rw [ih, value, value, zpow_add_one₀ (by norm_num), ← hdigits]
    simp only [Nat.mul_div_cancel _ (show 0 < 10 by decide)]
    push_cast
    ring
  | case3 => rfl

theorem value_normalize (d : Decimal) : d.normalize.value = d.value := value_dropZeros _ d

theorem digits_dropZeros {n : ℕ} {d : Decimal} (hne : d.digits ≠ 0) (hlt : d.digits < 10 ^ n) :
    (dropZeros n d).digits % 10 ≠ 0 := by
  fun_induction dropZeros n d with
  | case1 => omega
  | case2 n d hzero ih =>
    rw [pow_succ] at hlt
    exact ih (show d.digits / 10 ≠ 0 by omega) (show d.digits / 10 < 10 ^ n by omega)
  | case3 _ _ hlast => exact hlast

theorem digits_normalize (h : d.digits ≠ 0) : d.normalize.digits % 10 ≠ 0 :=
  digits_dropZeros h (digits_bounds h).2

end Decimal

/-! ## Reading back -/

namespace Binary64

variable {m : ℕ} {d d' : Decimal}

theorem cross_eq_of_value_eq {num den num' den' : ℕ} (hden : 0 < den) (hden' : 0 < den')
    (h : (num : ℚ) / den = (num' : ℚ) / den') : num * den' = num' * den := by
  rw [div_eq_div_iff (by exact_mod_cast hden.ne') (by exact_mod_cast hden'.ne')] at h
  exact_mod_cast h

/-- **Decimals of one value are read alike.** -/
theorem magnitudeOfDecimal_congr (h : d.value = d'.value) :
    magnitudeOfDecimal d = magnitudeOfDecimal d' := by
  rcases Nat.eq_zero_or_pos d.digits with hzero | hpos
  · have hzero' : d'.digits = 0 := by
      rw [← Decimal.value_eq_zero_iff, ← h, Decimal.value_eq_zero_iff, hzero]
    simp [magnitudeOfDecimal, hzero, hzero']
  · have hne' : d'.digits ≠ 0 := by
      intro hzero'
      rw [← Decimal.value_eq_zero_iff, ← h, Decimal.value_eq_zero_iff] at hzero'
      omega
    have hpoint : d.point = d'.point := by
      rw [Decimal.point_eq hpos.ne', Decimal.point_eq hne', h]
    have hnearest : nearest d.numerator d.denominator = nearest d'.numerator d'.denominator := by
      refine nearest_congr d.denominator_pos d'.denominator_pos ?_
      refine cross_eq_of_value_eq d.denominator_pos d'.denominator_pos ?_
      rw [Decimal.numerator_div_denominator, Decimal.numerator_div_denominator, h]
    simp only [magnitudeOfDecimal, hpos.ne', hne', hpoint, hnearest, if_false]

/-- The powers of ten that no finite magnitude reaches. -/
theorem two_pow_le_ten_pow : (2 : ℚ) ^ (1024 : ℤ) ≤ 10 ^ (309 : ℤ) ∧
    (10 : ℚ) ^ (-330 : ℤ) ≤ 2 ^ (-1074 : ℤ) := by
  have habove : 2 ^ 1024 ≤ 10 ^ 309 := by decide +kernel
  have hbelow : 2 ^ 1074 ≤ 10 ^ 330 := by decide +kernel
  constructor
  · exact_mod_cast habove
  · rw [zpow_neg, zpow_neg]
    exact inv_anti₀ (zpow_pos two_pos _) (by exact_mod_cast hbelow)

/-- A decimal with the value of a finite magnitude is read as it. -/
theorem magnitudeOfDecimal_of_value_eq (hpos : 0 < m) (hfinite : m < infinity)
    (h : d.value = value m) : magnitudeOfDecimal d = m := by
  obtain ⟨hlow, hhigh⟩ := value_bounds hpos hfinite
  have hvalue : 0 < value m := lt_of_lt_of_le (zpow_pos two_pos _) hlow
  have hne : d.digits ≠ 0 := by
    rw [Ne, ← Decimal.value_eq_zero_iff, h]
    exact hvalue.ne'
  -- The value is neither so great nor so small that the reading does not round at all.
  have hpoint := Decimal.point_eq hne
  rw [h] at hpoint
  have habove : Int.log 10 (value m) < 309 := by
    refine (Int.lt_zpow_iff_log_lt (by norm_num) hvalue).1 (lt_of_lt_of_le hhigh ?_)
    exact two_pow_le_ten_pow.1
  have hbelow : -330 ≤ Int.log 10 (value m) := by
    refine (Int.zpow_le_iff_le_log (by norm_num) hvalue).1 (le_trans ?_ hlow)
    exact two_pow_le_ten_pow.2
  rw [magnitudeOfDecimal, if_neg hne, if_neg (by omega), if_neg (by omega)]
  refine Eq.trans ?_ (nearest_numerator hpos hfinite)
  refine nearest_congr d.denominator_pos (denominator_pos m) ?_
  refine cross_eq_of_value_eq d.denominator_pos (denominator_pos m) ?_
  rw [Decimal.numerator_div_denominator, numerator_div_denominator, h]

theorem value_exactDecimal (m : ℕ) : (exactDecimal m).value = value m := by
  have hpowers : (5 : ℚ) ^ (-exponent m).toNat * 10 ^ (min 0 (exponent m)) =
      1 / 2 ^ (-exponent m).toNat := by
    rcases le_total 0 (exponent m) with he | he
    · have hzero : (-exponent m).toNat = 0 := by omega
      rw [min_eq_left he, hzero]
      norm_num
    · obtain ⟨n, hn⟩ : ∃ n : ℕ, exponent m = -n := ⟨(-exponent m).toNat, by omega⟩
      rw [min_eq_right he, hn, neg_neg, Int.toNat_natCast, zpow_neg, zpow_natCast,
        show (10 : ℚ) = 5 * 2 by norm_num, mul_pow]
      field_simp
  have hfive : ((Nat.pow 5 (-exponent m).toNat : ℕ) : ℚ) = 5 ^ (-exponent m).toNat :=
    Nat.cast_pow 5 _
  rw [Decimal.value, exactDecimal, ← numerator_div_denominator, Nat.cast_mul, mul_assoc, hfive,
    hpowers, denominator, twoPow_eq]
  push_cast
  ring

theorem magnitudeOfDecimal_of_onGrid? {e : ℤ} (h : onGrid? m e = some d) :
    magnitudeOfDecimal d = m := by
  simp only [onGrid?] at h
  split at h
  · rename_i hlower
    split at h
    · rename_i hupper
      obtain rfl := Option.some.inj h
      exact hupper.1
    · obtain rfl := Option.some.inj h
      exact hlower
  · split at h
    · rename_i hupper
      obtain rfl := Option.some.inj h
      exact hupper
    · cases h

/-- **The shortest decimal of a magnitude is read back to it**, and has no zero at its end. -/
theorem magnitudeOfDecimal_shortest (hpos : 0 < m) (hfinite : m < infinity) :
    magnitudeOfDecimal (shortest m) = m ∧ (shortest m).digits % 10 ≠ 0 := by
  obtain ⟨d, heq, hread⟩ : ∃ d : Decimal, shortest m = d.normalize ∧ magnitudeOfDecimal d = m := by
    -- Found on a grid, it was read back there; found on none, it is exact.
    refine ⟨_, rfl, ?_⟩
    generalize hfound : (List.range 17).findSome? _ = found
    cases found with
    | none => exact magnitudeOfDecimal_of_value_eq hpos hfinite (value_exactDecimal m)
    | some d =>
      obtain ⟨n, -, hgrid⟩ := List.exists_of_findSome?_eq_some hfound
      exact magnitudeOfDecimal_of_onGrid? hgrid
  have hne : d.digits ≠ 0 := by
    intro hzero
    rw [magnitudeOfDecimal, if_pos hzero] at hread
    omega
  rw [heq]
  exact ⟨(magnitudeOfDecimal_congr d.value_normalize).trans hread, Decimal.digits_normalize hne⟩

end Binary64

end StackVm
