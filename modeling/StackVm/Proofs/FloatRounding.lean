import StackVm.Proofs.FloatReading
/-!
# Rounding goes to the nearest number, and ties to the even one

`Binary64.IsNearest` says which magnitude a number has to be rounded to, by the distances to all
finite ones. `nearest` computes it from a quotient of naturals: the unit that it rounds to is so
chosen that whatever is no multiple of it lies below a power of two that the quotient reaches
(`isNearest_nearest`).
-/

namespace StackVm.Binary64

variable {num den n : ℕ} {q x : ℚ}

/-- No finite magnitude is nearer to a number, and if another one is as near, this one is even. -/
structure IsNearest (m : ℕ) (q : ℚ) : Prop where
  /-- It is finite itself. -/
  finite : m < infinity
  /-- No other is nearer. -/
  le : ∀ n < infinity, |value m - q| ≤ |value n - q|
  /-- It is even if another one is as near. -/
  even : ∀ n < infinity, value n ≠ value m → |value n - q| = |value m - q| → m % 2 = 0

/-! ## Whole numbers -/

/-- A rounded quotient is at most half a unit away, and even where it is just as much. -/
theorem roundQuotient_spec (hden : 0 < den) :
    |(roundQuotient num den : ℚ) - num / den| ≤ 1 / 2 ∧
      (|(roundQuotient num den : ℚ) - num / den| = 1 / 2 → roundQuotient num den % 2 = 0) := by
  have hden' : (0 : ℚ) < den := by exact_mod_cast hden
  have hsplit : (num : ℚ) / den = (num / den : ℕ) + ((num % den : ℕ) : ℚ) / den := by
    have hdivision : (num : ℚ) = den * (num / den : ℕ) + (num % den : ℕ) := by
      exact_mod_cast (Nat.div_add_mod num den).symm
    field_simp
    linarith
  have hrem : num % den < den := Nat.mod_lt _ hden
  unfold roundQuotient
  rw [hsplit]
  generalize num / den = k at *
  generalize num % den = r at *
  split
  · -- The rest is less than half.
    rename_i hlt
    have hhalf : (r : ℚ) / den < 1 / 2 := by
      rw [div_lt_div_iff₀ hden' two_pos]
      exact_mod_cast (by omega : r * 2 < 1 * den)
    have hpos : (0 : ℚ) ≤ (r : ℚ) / den := by positivity
    rw [sub_add_cancel_left, abs_neg, abs_of_nonneg hpos]
    exact ⟨hhalf.le, fun h => absurd h hhalf.ne⟩
  · split
    · -- The rest is more than half.
      rename_i hgt
      have hhalf : 1 / 2 < (r : ℚ) / den := by
        rw [div_lt_div_iff₀ two_pos hden']
        exact_mod_cast (by omega : 1 * den < r * 2)
      have hone : (r : ℚ) / den < 1 := by
        rw [div_lt_one hden']
        exact_mod_cast hrem
      push_cast
      rw [add_sub_add_left_eq_sub, abs_of_nonneg (by linarith)]
      exact ⟨by linarith, fun h => absurd h (by linarith)⟩
    · -- The rest is half, and the even neighbour is taken.
      have hhalf : (r : ℚ) / den = 1 / 2 := by
        rw [div_eq_div_iff hden'.ne' two_ne_zero]
        exact_mod_cast (by omega : r * 2 = 1 * den)
      rw [hhalf]
      rcases Nat.mod_two_eq_zero_or_one k with heven | hodd
      · rw [heven, Nat.add_zero]
        refine ⟨?_, fun _ => heven⟩
        norm_num [abs_le]
      · rw [hodd]
        refine ⟨?_, fun _ => by omega⟩
        push_cast
        norm_num [abs_le]

/-- Two whole numbers are a unit apart. -/
theorem one_le_abs_add_abs {r z : ℤ} (hne : z ≠ r) (x : ℚ) : 1 ≤ |(z : ℚ) - x| + |(r : ℚ) - x| := by
  have hone : (1 : ℚ) ≤ |(z : ℚ) - r| := by exact_mod_cast Int.one_le_abs (sub_ne_zero.2 hne)
  calc (1 : ℚ) ≤ |(z : ℚ) - r| := hone
    _ = |((z : ℚ) - x) - (r - x)| := by rw [sub_sub_sub_cancel_right]
    _ ≤ |(z : ℚ) - x| + |(r : ℚ) - x| := abs_sub _ _

/-- So no other is nearer than one that is at most half a unit away. -/
theorem abs_sub_le_of_half {r : ℤ} (h : |(r : ℚ) - x| ≤ 1 / 2) (z : ℤ) :
    |(r : ℚ) - x| ≤ |(z : ℚ) - x| := by
  by_cases hz : z = r
  · rw [hz]
  · have := one_le_abs_add_abs hz x
    linarith

/-- And it lies within whole bounds that the number lies within. -/
theorem bounds_of_half {r bound : ℕ} (h : |(r : ℚ) - x| ≤ 1 / 2) :
    (x ≤ bound → r ≤ bound) ∧ ((bound : ℚ) ≤ x → bound ≤ r) := by
  obtain ⟨hlow, hhigh⟩ := abs_le.1 h
  constructor <;> intro hx <;> by_contra hnot
  · have hmore : (bound : ℚ) + 1 ≤ r := by exact_mod_cast Nat.not_le.1 hnot
    linarith
  · have hless : (r : ℚ) + 1 ≤ bound := by exact_mod_cast Nat.not_le.1 hnot
    linarith

/-! ## Units of a power of two -/

/-- A number of units of a power of two, put together as a magnitude, has their value. A number that
reaches the next power of two carries into the exponent. -/
theorem value_join {u : ℤ} {r : ℕ} (hlow : -1074 ≤ u) (hhigh : r ≤ 2 ^ 53)
    (hnormal : 2 ^ 52 ≤ r ∨ u = -1074) : value ((u + 1074).toNat * hiddenBit + r) = r * 2 ^ u := by
  obtain ⟨k, rfl⟩ : ∃ k : ℕ, u = k - 1074 := ⟨(u + 1074).toNat, by omega⟩
  rw [sub_add_cancel, Int.toNat_natCast]
  have hexponent : ∀ e : ℕ, e = k + 1 → ((e : ℕ) : ℤ) - 1075 = k - 1074 := by omega
  unfold value significand exponent hiddenBit
  rcases Nat.lt_or_ge r (2 ^ 52) with hsmall | hlarge
  · -- Below the least normal number the units are the magnitude.
    have hk : k = 0 := by omega
    subst hk
    rw [Nat.zero_mul, Nat.zero_add, if_pos (by omega), if_pos (by omega)]
    norm_num
  · rw [if_neg (by omega), if_neg (by omega)]
    rcases Nat.lt_or_ge r (2 ^ 53) with hbelow | hreached
    · have hplace : (k * 4503599627370496 + r) / 4503599627370496 = k + 1 := by omega
      have hunits : 4503599627370496 + (k * 4503599627370496 + r) % 4503599627370496 = r := by omega
      rw [hunits, hexponent _ hplace]
    · -- The units fill the next power of two.
      obtain rfl : r = 2 ^ 53 := le_antisymm hhigh hreached
      have hplace : (k * 4503599627370496 + 2 ^ 53) / 4503599627370496 = k + 2 := by omega
      have hunits : (k * 4503599627370496 + 2 ^ 53) % 4503599627370496 = 0 := by omega
      have hnext : (((k + 2 : ℕ) : ℤ) - 1075) = (k - 1074) + 1 := by omega
      rw [hunits, hplace, hnext, zpow_add_one₀ two_ne_zero]
      push_cast
      ring

/-- The quotient that is rounded is the number of units. -/
theorem scaled_eq (num den : ℕ) (u : ℤ) :
    ((num * twoPow (-u).toNat : ℕ) : ℚ) / (den * twoPow u.toNat : ℕ) = (num : ℚ) / den / 2 ^ u := by
  rw [zpow_eq_div, twoPow_eq, twoPow_eq]
  push_cast
  field_simp

/-- The unit of a number leaves 53 binary digits, of which the first is set unless the unit is the
least. -/
theorem unitPlace_bounds (hnum : 0 < num) (hden : 0 < den) :
    (num : ℚ) / den / 2 ^ unitPlace num den < 2 ^ 53 ∧
      (2 ^ 52 ≤ (num : ℚ) / den / 2 ^ unitPlace num den ∨ unitPlace num den = -1074) ∧
      -1074 ≤ unitPlace num den := by
  have hpos : (0 : ℚ) < (num : ℚ) / den := by positivity
  have hunit := unitPlace_eq hnum hden
  generalize unitPlace num den = u at *
  have hpow : (0 : ℚ) < 2 ^ u := zpow_pos two_pos _
  refine ⟨?_, ?_, by omega⟩
  · rw [div_lt_iff₀ hpow, ← zpow_natCast, ← zpow_add₀ two_ne_zero]
    exact (Int.lt_zpow_iff_log_lt one_lt_two hpos).2 (by omega)
  · rcases le_or_gt (Int.log 2 ((num : ℚ) / den) - 52) (-1074) with hleast | hmore
    · exact .inr (by omega)
    · refine .inl ?_
      rw [le_div_iff₀ hpow, ← zpow_natCast, ← zpow_add₀ two_ne_zero]
      exact (Int.zpow_le_iff_le_log one_lt_two hpos).2 (by omega)

/-- What a finite magnitude is worth in units: a whole number of them, or less than any number with
that unit. -/
theorem value_in_units (hn : n < infinity) {u : ℤ} (hu : -1074 ≤ u) :
    (∃ z : ℤ, value n = z * 2 ^ u) ∨ -1074 < u ∧ value n < 2 ^ 52 * 2 ^ u := by
  rcases Nat.eq_zero_or_pos n with rfl | hpos
  · exact .inl ⟨0, by simp [value, significand, hiddenBit]⟩
  · obtain ⟨-, hlt, -, hlow, -, -⟩ := significand_spec hpos hn
    rcases le_or_gt u (exponent n) with hle | hgt
    · refine .inl ⟨significand n * 2 ^ (exponent n - u).toNat, ?_⟩
      have hpow : (2 : ℚ) ^ exponent n = 2 ^ (exponent n - u).toNat * 2 ^ u := by
        rw [← zpow_natCast, ← zpow_add₀ two_ne_zero, Int.toNat_of_nonneg (by omega), sub_add_cancel]
      rw [value, hpow]
      push_cast
      ring
    · refine .inr ⟨by omega, ?_⟩
      have hlt' : (significand n : ℚ) < 2 ^ 53 := by exact_mod_cast hlt
      calc value n < 2 ^ 53 * 2 ^ exponent n :=
            mul_lt_mul_of_pos_right hlt' (zpow_pos two_pos _)
        _ ≤ 2 ^ 53 * 2 ^ (u - 1) := by
            gcongr
            · norm_num
            · omega
        _ = 2 ^ 52 * 2 ^ u := by
            rw [zpow_sub_one₀ two_ne_zero]
            ring

/-! ## The nearest magnitude -/

/-- The units of a number, rounded to a whole number of them, are the nearest magnitude to it. -/
theorem isNearest_join {u : ℤ} {r : ℕ} (hlow : -1074 ≤ u) (hhigh : r ≤ 2 ^ 53)
    (hnormal : 2 ^ 52 ≤ r ∨ u = -1074) (hreach : 2 ^ 52 ≤ q / 2 ^ u ∨ u = -1074)
    (hhalf : |(r : ℚ) - q / 2 ^ u| ≤ 1 / 2) (heven : |(r : ℚ) - q / 2 ^ u| = 1 / 2 → r % 2 = 0)
    (hfinite : (u + 1074).toNat * hiddenBit + r < infinity) :
    IsNearest ((u + 1074).toNat * hiddenBit + r) q := by
  have hpow : (0 : ℚ) < 2 ^ u := zpow_pos two_pos _
  have hvalue := value_join hlow hhigh hnormal
  have hdist : ∀ z : ℚ, |z * 2 ^ u - q| = |z - q / 2 ^ u| * 2 ^ u := by
    intro z
    rw [← abs_of_pos hpow, ← abs_mul, abs_of_pos hpow, sub_mul, div_mul_cancel₀ _ hpow.ne']
  have hclosest : ∀ z : ℤ, |(r : ℚ) - q / 2 ^ u| ≤ |(z : ℚ) - q / 2 ^ u| :=
    abs_sub_le_of_half (r := r) hhalf
  -- What is no whole number of units is further away than the power of two below the number.
  have hbelow : ∀ n, -1074 < u → value n < 2 ^ 52 * 2 ^ u →
      |(r : ℚ) * 2 ^ u - q| < |value n - q| := by
    intro n hu hlt
    have hreached : 2 ^ 52 * 2 ^ u ≤ q := by
      rw [← le_div_iff₀ hpow]
      exact hreach.resolve_right (by omega)
    have hpower : |(r : ℚ) - q / 2 ^ u| ≤ |(2 : ℚ) ^ 52 - q / 2 ^ u| := by
      have hwhole := hclosest (2 ^ 52)
      rwa [Int.cast_pow, Int.cast_ofNat] at hwhole
    calc |(r : ℚ) * 2 ^ u - q| ≤ |(2 ^ 52 : ℚ) * 2 ^ u - q| := by
          rw [hdist, hdist]
          exact mul_le_mul_of_nonneg_right hpower hpow.le
      _ = q - 2 ^ 52 * 2 ^ u := by rw [abs_sub_comm, abs_of_nonneg (by linarith)]
      _ < q - value n := by linarith
      _ ≤ |value n - q| := by
          rw [abs_sub_comm]
          exact le_abs_self _
  refine ⟨hfinite, fun n hn => ?_, fun n hn hne htie => ?_⟩
  · rw [hvalue]
    rcases value_in_units hn hlow with ⟨z, hz⟩ | ⟨hu, hlt⟩
    · rw [hz, hdist, hdist]
      exact mul_le_mul_of_nonneg_right (hclosest z) hpow.le
    · exact (hbelow n hu hlt).le
  · rw [hvalue] at hne htie
    rcases value_in_units hn hlow with ⟨z, hz⟩ | ⟨hu, hlt⟩
    · -- Another number of units is as near: both are half a unit away.
      rw [hz, hdist, hdist] at htie
      have hzr : z ≠ (r : ℤ) := by
        rintro rfl
        exact hne (by rw [hz, Int.cast_natCast])
      have hsame := mul_right_cancel₀ hpow.ne' htie
      have hsum := one_le_abs_add_abs hzr (q / 2 ^ u)
      rw [hsame, Int.cast_natCast] at hsum
      have hr := heven (by linarith)
      unfold hiddenBit
      omega
    · exact absurd htie (hbelow n hu hlt).ne'

/-- What is less than half the least magnitude is nearest to zero. -/
theorem isNearest_zero (hpos : 0 ≤ q) (hsmall : 2 * q < 2 ^ (-1074 : ℤ)) : IsNearest 0 q := by
  have hzero : value 0 = 0 := by simp [value, significand, hiddenBit]
  refine ⟨by decide, fun n hn => ?_, fun _ _ _ _ => rfl⟩
  rw [hzero, zero_sub, abs_neg, abs_of_nonneg hpos]
  rcases Nat.eq_zero_or_pos n with rfl | hn'
  · rw [hzero, zero_sub, abs_neg, abs_of_nonneg hpos]
  · have hleast := (value_bounds hn' hn).1
    exact le_trans (by linarith) (le_abs_self (value n - q))

/-- **What `nearest` finds is the nearest magnitude**, unless the quotient is past all finite ones.
-/
theorem isNearest_nearest (hden : 0 < den) (hfinite : nearest num den < infinity) :
    IsNearest (nearest num den) ((num : ℚ) / den) := by
  rcases Nat.eq_zero_or_pos num with rfl | hnum
  · have hzero : nearest 0 den = 0 := by simp [nearest]
    rw [hzero, Nat.cast_zero, zero_div]
    exact isNearest_zero le_rfl (by rw [mul_zero]; exact zpow_pos two_pos _)
  · obtain ⟨hbelow, hreach, hlow⟩ := unitPlace_bounds hnum hden
    have hpos : 0 < den * twoPow (unitPlace num den).toNat := Nat.mul_pos hden (twoPow_pos _)
    obtain ⟨hhalf, heven⟩ :=
      @roundQuotient_spec (num * twoPow (-unitPlace num den).toNat) _ hpos
    rw [scaled_eq] at hhalf heven
    unfold nearest at hfinite ⊢
    rw [if_neg hnum.ne'] at hfinite ⊢
    simp only [] at hfinite ⊢
    rw [min_lt_iff, or_iff_left (lt_irrefl _)] at hfinite
    rw [min_eq_left hfinite.le]
    refine isNearest_join hlow ((bounds_of_half hhalf).1 ?_) ?_ hreach hhalf heven hfinite
    · exact_mod_cast hbelow.le
    · exact hreach.imp_left fun hle => (bounds_of_half hhalf).2 (by exact_mod_cast hle)

/-- A decimal with 330 zeros behind its point is less than half the least magnitude. -/
theorem two_mul_value_lt {d : Decimal} (hdigits : d.digits ≠ 0) (hbelow : d.point < -330) :
    2 * d.value < 2 ^ (-1074 : ℤ) := by
  have hpos : 0 < d.value := mul_pos (by exact_mod_cast Nat.pos_of_ne_zero hdigits)
    (zpow_pos (by norm_num) _)
  have hpoint := Decimal.point_eq hdigits
  have hlt : d.value < 10 ^ (-331 : ℤ) :=
    (Int.lt_zpow_iff_log_lt (b := 10) (by norm_num) hpos).2 (by omega)
  calc 2 * d.value < 10 * 10 ^ (-331 : ℤ) := by linarith
    _ = 10 ^ (-330 : ℤ) := by
      rw [show (-330 : ℤ) = -331 + 1 by norm_num, zpow_add_one₀ (by norm_num), mul_comm]
    _ ≤ 2 ^ (-1074 : ℤ) := two_pow_le_ten_pow.2

/-- **A decimal is read as the nearest magnitude**, unless it is past all finite ones. -/
theorem isNearest_magnitudeOfDecimal {d : Decimal} (hfinite : magnitudeOfDecimal d < infinity) :
    IsNearest (magnitudeOfDecimal d) d.value := by
  unfold magnitudeOfDecimal at hfinite ⊢
  split_ifs at hfinite ⊢ with hdigits habove hbelow
  · rw [Decimal.value_eq_zero_iff.2 hdigits]
    exact isNearest_zero le_rfl (by rw [mul_zero]; exact zpow_pos two_pos _)
  · exact absurd hfinite (lt_irrefl _)
  · exact isNearest_zero (mul_nonneg (Nat.cast_nonneg _) (zpow_nonneg (by norm_num) _))
      (two_mul_value_lt hdigits hbelow)
  · rw [← Decimal.numerator_div_denominator]
    exact isNearest_nearest d.denominator_pos hfinite

end StackVm.Binary64
