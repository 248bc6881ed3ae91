import FlowLint.Json.Number
import Mathlib.Algebra.Order.Field.Power
import Mathlib.Algebra.Order.Floor.Semifield
import Mathlib.Data.Rat.Floor
import Mathlib.Tactic.Linarith
import Mathlib.Tactic.Positivity
import Mathlib.Tactic.Ring

/-!
# Magnitudes are rounded to the nearest

A quotient that is rounded becomes a magnitude of the format, written in its one way, and no other
magnitude of the format is nearer to the quotient; one that is refused is above all magnitudes of the
format. The proof follows the computation: the guessed unit is right or twice the right one, so that
in the unit chosen the quotient is below 2^53 and, if the unit is not the least, at least 2^52;
rounding to a whole number of units then leaves these bounds except for one carry.

Every floating-point number that is read from a numeral is therefore of the format, and two of them
with one sign and one value are the same. Nothing is said of how far a numeral of many digits is from
the number read, for which two roundings are made.
-/

namespace FlowLint.Numeric.Magnitude

variable {x y : Magnitude} {num den : Nat} {e : Int}

/-- The number that a magnitude is. -/
def value (x : Magnitude) : ℚ := x.units * 2 ^ x.exponent

@[simp] theorem value_zero : zero.value = 0 := by
  simp [value, zero]

/-! ## The one way to write a magnitude -/

theorem unitsEnd_mul (k : Int) : (unitsEnd : ℚ) * 2 ^ k = 2 ^ (k + 53) := by
  rw [zpow_add₀ two_ne_zero, mul_comm]
  norm_num [unitsEnd]

theorem unitsStart_mul (k : Int) : (unitsStart : ℚ) * 2 ^ k = 2 ^ (k + 52) := by
  rw [zpow_add₀ two_ne_zero, mul_comm]
  norm_num [unitsStart]

/-- The end of one unit's numbers is at most the start of a larger unit's. -/
theorem unitsEnd_mul_le {k l : Int} (h : k < l) :
    (unitsEnd : ℚ) * 2 ^ k ≤ unitsStart * 2 ^ l := by
  rw [unitsEnd_mul, unitsStart_mul]
  exact zpow_le_zpow_right₀ one_le_two (by omega)

theorem canonical_zero : Canonical zero where
  units_lt := by decide
  least_le := by decide
  le_greatest := by decide
  full := .inr rfl

/-- A magnitude is below the end of its unit's numbers. -/
theorem Canonical.value_lt_unitsEnd (hx : x.Canonical) :
    x.value < unitsEnd * 2 ^ x.exponent := by
  have hunits : (x.units : ℚ) < unitsEnd := by exact_mod_cast hx.units_lt
  unfold value
  gcongr

/-- No magnitude is above the largest number of the largest units. -/
theorem Canonical.value_le (hx : x.Canonical) :
    x.value ≤ (unitsEnd - 1) * 2 ^ greatestExponent := by
  have hunits : (x.units : ℚ) ≤ unitsEnd - 1 := by
    have hlt : x.units + 1 ≤ unitsEnd := hx.units_lt
    have hlt' : (x.units : ℚ) + 1 ≤ unitsEnd := by exact_mod_cast hlt
    linarith
  have hpow : (2 : ℚ) ^ x.exponent ≤ 2 ^ greatestExponent :=
    zpow_le_zpow_right₀ one_le_two hx.le_greatest
  exact mul_le_mul hunits hpow (by positivity) ((Nat.cast_nonneg _).trans hunits)

/-- A magnitude with a larger unit than another is the larger of the two. -/
theorem Canonical.value_lt (hx : x.Canonical) (hy : y.Canonical) (h : x.exponent < y.exponent) :
    x.value < y.value := by
  have hleast : leastExponent < y.exponent := lt_of_le_of_lt hx.least_le h
  have hstart : (unitsStart : ℚ) ≤ y.units := by
    exact_mod_cast hy.full.resolve_right hleast.ne'
  calc x.value < unitsEnd * 2 ^ x.exponent := hx.value_lt_unitsEnd
    _ ≤ unitsStart * 2 ^ y.exponent := unitsEnd_mul_le h
    _ ≤ y.units * 2 ^ y.exponent := by gcongr

/-- Two magnitudes of the format with one value are the same. -/
theorem Canonical.eq_of_value_eq (hx : x.Canonical) (hy : y.Canonical) (h : x.value = y.value) :
    x = y := by
  have hexponent : x.exponent = y.exponent := by
    rcases lt_trichotomy x.exponent y.exponent with hlt | heq | hgt
    · exact absurd h (hx.value_lt hy hlt).ne
    · exact heq
    · exact absurd h (hy.value_lt hx hgt).ne'
  have hunits : (x.units : ℚ) = y.units := by
    have hpos : (0 : ℚ) < 2 ^ y.exponent := by positivity
    unfold value at h
    rw [hexponent] at h
    exact mul_right_cancel₀ hpos.ne' h
  cases x
  cases y
  simp_all

/-! ## The unit of a quotient -/

theorem inUnits_value (num den : Nat) (e : Int) :
    ((inUnits num den e).1 : ℚ) / (inUnits num den e).2 = num / den / 2 ^ e := by
  unfold inUnits
  split
  case isTrue h =>
    obtain ⟨k, rfl⟩ := Int.eq_ofNat_of_zero_le h
    simp [div_div]
  case isFalse h =>
    obtain ⟨k, hk⟩ := Int.eq_ofNat_of_zero_le (show 0 ≤ -e by omega)
    obtain rfl : e = -k := by omega
    simp
    ring

theorem inUnits_den_pos {n d : Nat} (h : 0 < den) (heq : inUnits num den e = (n, d)) : 0 < d := by
  have hpos : 0 < (inUnits num den e).2 := by
    unfold inUnits
    split
    · exact Nat.mul_pos h (Nat.pow_pos two_pos)
    · exact h
  rwa [heq] at hpos

theorem eq_mul_of_inUnits {n d : Nat} (h : inUnits num den e = (n, d)) :
    (num / den : ℚ) = n / d * 2 ^ e := by
  have hunit : (0 : ℚ) < 2 ^ e := by positivity
  have hvalue := inUnits_value num den e
  rw [h] at hvalue
  rw [hvalue, div_mul_cancel₀ _ hunit.ne']

theorem inUnits_floor (num den : Nat) (e : Int) :
    (inUnits num den e).1 / (inUnits num den e).2 = ⌊(num / den / 2 ^ e : ℚ)⌋₊ := by
  rw [← inUnits_value, Nat.floor_div_eq_div]

/-- The guess from the numbers of binary digits leaves between 2^51 and 2^53 units. -/
theorem guess_bounds (hnum : 0 < num) (hden : 0 < den) :
    (2 : ℚ) ^ ((num.log2 : Int) - den.log2 - 1) < num / den ∧
      (num / den : ℚ) < 2 ^ ((num.log2 : Int) - den.log2 + 1) := by
  have hnumLow : (2 : ℚ) ^ num.log2 ≤ num := by exact_mod_cast Nat.log2_self_le hnum.ne'
  have hnumHigh : (num : ℚ) < 2 ^ (num.log2 + 1) := by exact_mod_cast Nat.lt_log2_self
  have hdenLow : (2 : ℚ) ^ den.log2 ≤ den := by exact_mod_cast Nat.log2_self_le hden.ne'
  have hdenHigh : (den : ℚ) < 2 ^ (den.log2 + 1) := by exact_mod_cast Nat.lt_log2_self
  have hpos : (0 : ℚ) < den := by exact_mod_cast hden
  constructor
  · rw [lt_div_iff₀ hpos]
    calc (2 : ℚ) ^ ((num.log2 : Int) - den.log2 - 1) * den
        < 2 ^ ((num.log2 : Int) - den.log2 - 1) * 2 ^ (den.log2 + 1) := by gcongr
      _ = 2 ^ num.log2 := by
        rw [← zpow_natCast, ← zpow_natCast, ← zpow_add₀ two_ne_zero]
        congr 1
        push_cast
        ring
      _ ≤ num := hnumLow
  · rw [div_lt_iff₀ hpos]
    calc (num : ℚ) < 2 ^ (num.log2 + 1) := hnumHigh
      _ = 2 ^ ((num.log2 : Int) - den.log2 + 1) * 2 ^ den.log2 := by
        rw [← zpow_natCast, ← zpow_natCast, ← zpow_add₀ two_ne_zero]
        congr 1
        push_cast
        ring
      _ ≤ 2 ^ ((num.log2 : Int) - den.log2 + 1) * den := by gcongr

/-- The exponent of the unit before it is raised to the least one. -/
theorem exists_unitOf_eq_max (hnum : 0 < num) (hden : 0 < den) :
    ∃ f : Int, unitOf num den = max leastExponent f ∧
      (num / den : ℚ) < unitsEnd * 2 ^ f ∧ (unitsStart : ℚ) * 2 ^ f ≤ num / den := by
  obtain ⟨hlow, hhigh⟩ := guess_bounds hnum hden
  set g : Int := (num.log2 : Int) - den.log2 - 52 with hg
  by_cases hsmall : (inUnits num den g).1 / (inUnits num den g).2 < unitsStart
  · refine ⟨g - 1, by simp [unitOf, ← hg, hsmall], ?_, ?_⟩
    · rw [inUnits_floor, Nat.floor_lt (by positivity), div_lt_iff₀ (by positivity),
        unitsStart_mul] at hsmall
      rwa [unitsEnd_mul, show g - 1 + 53 = g + 52 by ring]
    · rw [unitsStart_mul, show g - 1 + 52 = (num.log2 : Int) - den.log2 - 1 by omega]
      exact hlow.le
  · refine ⟨g, by simp [unitOf, ← hg, hsmall], ?_, ?_⟩
    · rwa [unitsEnd_mul, show g + 53 = (num.log2 : Int) - den.log2 + 1 by omega]
    · rw [not_lt, inUnits_floor, Nat.le_floor_iff (by positivity),
        le_div_iff₀ (by positivity)] at hsmall
      exact hsmall

/-- In the unit chosen a quotient is below 2^53, and at least 2^52 unless the unit is the least. -/
theorem unitOf_bounds (hnum : 0 < num) (hden : 0 < den) :
    leastExponent ≤ unitOf num den ∧
      (num / den / 2 ^ unitOf num den : ℚ) < unitsEnd ∧
      ((unitsStart : ℚ) ≤ num / den / 2 ^ unitOf num den ∨ unitOf num den = leastExponent) := by
  obtain ⟨f, hf, hbelow, habove⟩ := exists_unitOf_eq_max hnum hden
  refine ⟨by omega, ?_, ?_⟩
  · rw [div_lt_iff₀ (by positivity)]
    calc (num / den : ℚ) < unitsEnd * 2 ^ f := hbelow
      _ ≤ unitsEnd * 2 ^ unitOf num den := by
        gcongr
        · exact one_le_two
        · omega
  · rcases le_total f leastExponent with hle | hge
    · exact .inr (by omega)
    · left
      rw [hf, max_eq_right hge, le_div_iff₀ (by positivity)]
      exact habove

/-! ## Rounding to a whole number -/

theorem roundEven_bounds (n d : Nat) : n / d ≤ roundEven n d ∧ roundEven n d ≤ n / d + 1 := by
  simp only [roundEven]
  split <;> omega

theorem roundEven_error {n d : Nat} (hd : 0 < d) : |(roundEven n d : ℚ) - n / d| ≤ 1 / 2 := by
  have hpos : (0 : ℚ) < d := by exact_mod_cast hd
  have hmod : n % d < d := Nat.mod_lt n hd
  have hparts : d * (n / d) + n % d = n := Nat.div_add_mod n d
  have hlow : 2 * n ≤ 2 * (d * roundEven n d) + d := by
    simp only [roundEven]
    split <;> (try rw [mul_add]) <;> omega
  have hhigh : 2 * (d * roundEven n d) ≤ 2 * n + d := by
    simp only [roundEven]
    split <;> (try rw [mul_add]) <;> omega
  have hlow' : (2 : ℚ) * n ≤ 2 * (d * roundEven n d) + d := by exact_mod_cast hlow
  have hhigh' : (2 : ℚ) * (d * roundEven n d) ≤ 2 * n + d := by exact_mod_cast hhigh
  rw [abs_le]
  constructor
  · have : (n : ℚ) / d ≤ roundEven n d + 1 / 2 := by
      rw [div_le_iff₀ hpos]
      linarith
    linarith
  · have : (roundEven n d : ℚ) - 1 / 2 ≤ n / d := by
      rw [le_div_iff₀ hpos]
      linarith
    linarith

/-- No whole number is nearer to the quotient than the one it is rounded to. -/
theorem roundEven_nearest {n d : Nat} (hd : 0 < d) (m : Nat) :
    |(roundEven n d : ℚ) - n / d| ≤ |(m : ℚ) - n / d| := by
  by_cases hm : roundEven n d = m
  · rw [hm]
  have hapart : (1 : ℚ) ≤ |(roundEven n d : ℚ) - m| := by
    have hone : (1 : Int) ≤ |(roundEven n d : Int) - m| := by
      have hdiff : (roundEven n d : Int) - m ≠ 0 := by omega
      exact Int.one_le_abs hdiff
    exact_mod_cast hone
  have herror : |(roundEven n d : ℚ) - n / d| ≤ 1 / 2 := roundEven_error hd
  have htriangle : |(roundEven n d : ℚ) - m| ≤ |(roundEven n d : ℚ) - n / d| + |(n : ℚ) / d - m| :=
    abs_sub_le _ _ _
  rw [abs_sub_comm (m : ℚ)]
  linarith

/-! ## Rounding a quotient -/

/-- A quotient that is not zero is rounded in its unit, and a carry goes to the next unit, which
changes how the magnitude is written and not its value. -/
theorem ofQuotient_eq_some (hnum : 0 < num) (h : ofQuotient num den = some x) :
    x.exponent ≤ greatestExponent ∧
      ∃ n d, inUnits num den (unitOf num den) = (n, d) ∧
        x = if roundEven n d = unitsEnd then ⟨unitsStart, unitOf num den + 1⟩
          else ⟨roundEven n d, unitOf num den⟩ := by
  obtain ⟨n, d, hnd⟩ : ∃ n d, inUnits num den (unitOf num den) = (n, d) := ⟨_, _, rfl⟩
  simp only [ofQuotient, hnum.ne', ↓reduceIte, hnd, Option.ite_none_right_eq_some,
    Option.some.injEq] at h
  obtain ⟨hgreatest, rfl⟩ := h
  exact ⟨hgreatest, n, d, hnd, rfl⟩

/-- What a quotient is rounded to is of the format. -/
theorem canonical_ofQuotient (hden : 0 < den) (h : ofQuotient num den = some x) :
    x.Canonical := by
  rcases Nat.eq_zero_or_pos num with rfl | hnum
  · obtain rfl : zero = x := by simpa [ofQuotient] using h
    exact canonical_zero
  obtain ⟨hgreatest, n, d, hnd, hx⟩ := ofQuotient_eq_some hnum h
  obtain ⟨hleast, hbelow, hfull⟩ := unitOf_bounds hnum hden
  have hfloor : n / d = ⌊(num / den / 2 ^ unitOf num den : ℚ)⌋₊ := by
    rw [← inUnits_floor, hnd]
  have hlt : n / d < unitsEnd := by
    rw [hfloor]
    exact Nat.floor_lt (by positivity) |>.mpr hbelow
  have hle : unitsStart ≤ n / d ∨ unitOf num den = leastExponent := by
    rw [hfloor]
    exact hfull.imp_left Nat.le_floor
  obtain ⟨hdown, hup⟩ := roundEven_bounds n d
  split at hx
  case isTrue hcarry =>
    subst hx
    have hstart : unitsStart < unitsEnd := by decide
    exact ⟨hstart, by simp only; omega, hgreatest, .inl le_rfl⟩
  case isFalse hcarry =>
    subst hx
    have hcases : unitsStart ≤ roundEven n d ∨ unitOf num den = leastExponent :=
      hle.imp_left (le_trans · hdown)
    exact ⟨by simp only; omega, hleast, hgreatest, hcases⟩

/-- No magnitude of the format is nearer to the quotient than the one it is rounded to. -/
theorem ofQuotient_nearest (hden : 0 < den) (h : ofQuotient num den = some x)
    (hy : y.Canonical) : |x.value - num / den| ≤ |y.value - num / den| := by
  rcases Nat.eq_zero_or_pos num with rfl | hnum
  · obtain rfl : zero = x := by simpa [ofQuotient] using h
    simp
  obtain ⟨-, n, d, hnd, hx⟩ := ofQuotient_eq_some hnum h
  obtain ⟨-, -, hfull⟩ := unitOf_bounds hnum hden
  have hd : 0 < d := inUnits_den_pos hden hnd
  have hq : (num / den : ℚ) = n / d * 2 ^ unitOf num den := eq_mul_of_inUnits hnd
  generalize unitOf num den = e at hx hfull hq
  have hunit : (0 : ℚ) < 2 ^ e := by positivity
  have hxvalue : x.value = roundEven n d * 2 ^ e := by
    rw [hx]
    split
    case isTrue hcarry =>
      rw [hcarry, value, zpow_add_one₀ two_ne_zero]
      norm_num [unitsStart, unitsEnd]
      ring
    case isFalse => rfl
  have hmultiple : ∀ m : Nat, |x.value - num / den| ≤ |(m : ℚ) * 2 ^ e - num / den| := by
    intro m
    have hnearest : |(roundEven n d : ℚ) - n / d| ≤ |(m : ℚ) - n / d| := roundEven_nearest hd m
    rw [hxvalue, hq, ← sub_mul, ← sub_mul, abs_mul, abs_mul]
    gcongr
  -- a magnitude is a multiple of the unit or lies below the start of the unit's numbers
  rcases le_or_gt e y.exponent with hle | hlt
  · obtain ⟨k, hk⟩ := Int.eq_ofNat_of_zero_le (sub_nonneg.mpr hle)
    have hyvalue : y.value = (y.units * 2 ^ k : Nat) * 2 ^ e := by
      rw [value, show y.exponent = k + e by omega, zpow_add₀ two_ne_zero]
      push_cast
      rw [zpow_natCast]
      ring
    rw [hyvalue]
    exact hmultiple _
  · have hstart : (unitsStart : ℚ) * 2 ^ e ≤ num / den := by
      rw [← le_div_iff₀ hunit]
      exact hfull.resolve_right (hy.least_le.trans_lt hlt).ne'
    have hyvalue : y.value ≤ unitsStart * 2 ^ e :=
      hy.value_lt_unitsEnd.le.trans (unitsEnd_mul_le hlt)
    have hbound := hmultiple unitsStart
    rw [abs_of_nonpos (a := (unitsStart : ℚ) * 2 ^ e - num / den) (by linarith)] at hbound
    rw [abs_of_nonpos (a := y.value - num / den) (by linarith)]
    linarith

/-- A quotient that is too large is above all magnitudes of the format. -/
theorem value_lt_of_ofQuotient_eq_none (hden : 0 < den) (h : ofQuotient num den = none)
    (hy : y.Canonical) : y.value < num / den := by
  have hnum : 0 < num := by
    rw [Nat.pos_iff_ne_zero]
    rintro rfl
    simp [ofQuotient] at h
  obtain ⟨n, d, hnd⟩ : ∃ n d, inUnits num den (unitOf num den) = (n, d) := ⟨_, _, rfl⟩
  simp only [ofQuotient, hnum.ne', ↓reduceIte, hnd, ite_eq_right_iff, reduceCtorEq,
    imp_false, not_le] at h
  obtain ⟨-, -, hfull⟩ := unitOf_bounds hnum hden
  have hd : 0 < d := inUnits_den_pos hden hnd
  have hq : (num / den : ℚ) = n / d * 2 ^ unitOf num den := eq_mul_of_inUnits hnd
  generalize unitOf num den = e at h hfull hq
  have hunit : (0 : ℚ) < 2 ^ e := by positivity
  refine hy.value_le.trans_lt ?_
  split at h
  case isTrue hcarry =>
    have hnear : (unitsEnd : ℚ) - 1 < n / d := by
      have herror := (abs_le.mp (roundEven_error (n := n) hd)).2
      rw [hcarry] at herror
      linarith
    have hpow : (2 : ℚ) ^ greatestExponent ≤ 2 ^ e :=
      zpow_le_zpow_right₀ one_le_two (Int.lt_add_one_iff.mp h)
    have hpos : (0 : ℚ) ≤ unitsEnd - 1 := by norm_num [unitsEnd]
    calc ((unitsEnd : ℚ) - 1) * 2 ^ greatestExponent ≤ (unitsEnd - 1) * 2 ^ e :=
          mul_le_mul_of_nonneg_left hpow hpos
      _ < n / d * 2 ^ e := mul_lt_mul_of_pos_right hnear hunit
      _ = num / den := hq.symm
  case isFalse =>
    have hleast : leastExponent < e := lt_trans (by decide) h
    calc ((unitsEnd : ℚ) - 1) * 2 ^ greatestExponent
        < unitsEnd * 2 ^ greatestExponent := by gcongr; linarith
      _ ≤ unitsStart * 2 ^ e := unitsEnd_mul_le h
      _ ≤ num / den := by
        rw [← le_div_iff₀ hunit]
        exact hfull.resolve_right hleast.ne'

/-! ## Arithmetic -/

theorem toQuotient_value (x : Magnitude) :
    (x.toQuotient.1 : ℚ) / x.toQuotient.2 = x.value := by
  unfold toQuotient value
  split
  case isTrue h =>
    obtain ⟨k, hk⟩ := Int.eq_ofNat_of_zero_le h
    simp [hk]
  case isFalse h =>
    obtain ⟨k, hk⟩ := Int.eq_ofNat_of_zero_le (show 0 ≤ -x.exponent by omega)
    simp [show x.exponent = -k by omega]
    ring

theorem toQuotient_den_pos (x : Magnitude) : 0 < x.toQuotient.2 := by
  unfold toQuotient
  split
  · exact one_pos
  · exact Nat.pow_pos two_pos

theorem toQuotient_num_pos (h : 0 < x.units) : 0 < x.toQuotient.1 := by
  unfold toQuotient
  split
  · exact Nat.mul_pos h (Nat.pow_pos two_pos)
  · exact h

theorem mul_eq (x y : Magnitude) : x.mul y =
    ofQuotient (x.toQuotient.1 * y.toQuotient.1) (x.toQuotient.2 * y.toQuotient.2) :=
  rfl

theorem div_eq (x y : Magnitude) : x.div y =
    (ofQuotient (x.toQuotient.1 * y.toQuotient.2) (x.toQuotient.2 * y.toQuotient.1)).getD zero :=
  rfl

theorem canonical_mul {z : Magnitude} (h : x.mul y = some z) : z.Canonical :=
  canonical_ofQuotient (Nat.mul_pos x.toQuotient_den_pos y.toQuotient_den_pos) h

/-- The product of two magnitudes is the exact product, rounded once. -/
theorem mul_nearest {z w : Magnitude} (h : x.mul y = some z) (hw : w.Canonical) :
    |z.value - x.value * y.value| ≤ |w.value - x.value * y.value| := by
  have hden := Nat.mul_pos x.toQuotient_den_pos y.toQuotient_den_pos
  rw [mul_eq] at h
  have hnearest := ofQuotient_nearest hden h hw
  rwa [Nat.cast_mul, Nat.cast_mul, ← div_mul_div_comm, toQuotient_value, toQuotient_value]
    at hnearest

theorem canonical_div (h : 0 < y.units) : (x.div y).Canonical := by
  have hden := Nat.mul_pos x.toQuotient_den_pos (toQuotient_num_pos h)
  rw [div_eq]
  cases hround : ofQuotient (x.toQuotient.1 * y.toQuotient.2) (x.toQuotient.2 * y.toQuotient.1) with
  | none => exact canonical_zero
  | some z => exact canonical_ofQuotient hden hround

/-- No power of ten up to the largest is rounded to zero or too large. -/
theorem powerOfTen_pos : ∀ k ≤ 308, 0 < (powerOfTen k).units := by
  decide +kernel

end FlowLint.Numeric.Magnitude

namespace FlowLint.Json

open FlowLint.Numeric

/-! ## Numbers that are read -/

variable {cs ds : List Char} {a b : Binary64}

theorem canonical_scaleByTen {x y : Magnitude} (hx : x.Canonical) {steps : Nat} {exponent : Int}
    (h : scaleByTen x steps exponent = some y) : y.Canonical := by
  induction steps generalizing x exponent with
  | zero =>
    obtain rfl : x = y := by simpa [scaleByTen] using h
    exact hx
  | succ steps ih =>
    rw [scaleByTen] at h
    split at h
    · split at h
      · exact Magnitude.canonical_mul h
      · obtain rfl := Option.some.inj h
        have hlt : 0 < (Magnitude.powerOfTen exponent.natAbs).units :=
          Magnitude.powerOfTen_pos _ ‹_›
        exact Magnitude.canonical_div hlt
    · split at h
      · obtain rfl := Option.some.inj h
        exact hx
      · split at h
        · simp at h
        · have hcanonical : (x.div (Magnitude.powerOfTen 308)).Canonical :=
            Magnitude.canonical_div (Magnitude.powerOfTen_pos 308 le_rfl)
          exact ih hcanonical h

theorem canonical_toNumber? {s : Significand} {negative : Bool} {exponent : Int}
    (h : s.toNumber? negative exponent = some (.real a)) : a.magnitude.Canonical := by
  simp only [Significand.toNumber?, Option.bind_eq_bind, Option.bind_eq_some_iff,
    Option.pure_def, Option.some.injEq, Number.real.injEq] at h
  obtain ⟨x, hx, y, hy, rfl⟩ := h
  have hcanonical : x.Canonical := Magnitude.canonical_ofQuotient one_pos hx
  exact canonical_scaleByTen hcanonical hy

/-- A floating-point number that is read from a numeral is of the format. -/
theorem canonical_ofChars? (h : Number.ofChars? cs = some (.real a)) : a.magnitude.Canonical := by
  obtain ⟨n, -, hn⟩ := Option.bind_eq_some_iff.mp h
  unfold Numeral.toNumber? at hn
  simp only at hn
  repeat' split at hn
  all_goals first
    | exact canonical_toNumber? hn
    | simp at hn

/-- Floating-point numbers that are read are the same exactly if they have one sign and one value. -/
theorem eq_iff_of_ofChars? (ha : Number.ofChars? cs = some (.real a))
    (hb : Number.ofChars? ds = some (.real b)) :
    a = b ↔ a.negative = b.negative ∧ a.magnitude.value = b.magnitude.value := by
  constructor
  · rintro rfl
    exact ⟨rfl, rfl⟩
  · rintro ⟨hsign, hvalue⟩
    have hmagnitude : a.magnitude = b.magnitude :=
      (canonical_ofChars? ha).eq_of_value_eq (canonical_ofChars? hb) hvalue
    cases a
    cases b
    simp_all

end FlowLint.Json
