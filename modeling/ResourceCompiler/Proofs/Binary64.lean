import Mathlib.Algebra.Order.Field.Power
import Mathlib.Data.Rat.Cast.Order
import Mathlib.Tactic.GCongr
import Mathlib.Tactic.Linarith
import Mathlib.Tactic.NormNum
import Mathlib.Tactic.Positivity
import ResourceCompiler.Binary64.Shortest

/-!
# Decimals of double precision numbers

The reals that round to a number form an interval around it, with its ends when the mantissa is even.
What lies in the interval rounds to the number (`ofRatio_of_holds`), also when it is given as a decimal
(`ofDecimal_of_holds`). Decimals of seventeen digits stand closer together than the ends of any interval,
so that the shortest decimal of a number lies in its interval (`shortest_holds`) and reads back as the
number.
-/

namespace ResourceCompiler

/-- The integer nearest to a fraction; of two that are as near, the even one. -/
theorem roundRatio_eq {num den m : Nat} (hden : 0 < den) (low : 2 * (m * den) ≤ 2 * num + den)
    (high : 2 * num ≤ 2 * (m * den) + den)
    (odd : m % 2 = 1 → 2 * (m * den) < 2 * num + den ∧ 2 * num < 2 * (m * den) + den) :
    roundRatio num den = m := by
  have parts : den * (num / den) + num % den = num := Nat.div_add_mod num den
  have rest : num % den < den := Nat.mod_lt _ hden
  -- the quotient is rounded up from the number before `m`, or stays; at the middle `odd` decides
  unfold roundRatio
  dsimp only
  rcases Nat.lt_trichotomy (num / den) m with below | same | above
  · have next : num / den + 1 = m := by
      by_contra far
      have : (num / den + 2) * den ≤ m * den := Nat.mul_le_mul_right den (by omega)
      rw [Nat.add_mul, Nat.mul_comm (num / den)] at this
      omega
    have product : m * den = den * (num / den) + den := by
      rw [← next, Nat.add_mul, Nat.one_mul, Nat.mul_comm]
    split
    · omega
    · split
      · exact next
      · split
        · have := odd (by omega)
          omega
        · exact next
  · have product : m * den = den * (num / den) := by rw [← same, Nat.mul_comm]
    split
    · exact same
    · split
      · omega
      · split
        · exact same
        · have := odd (by omega)
          omega
  · have : (m + 1) * den ≤ num / den * den := Nat.mul_le_mul_right den above
    rw [Nat.add_mul, Nat.mul_comm (num / den)] at this
    omega

namespace Binary64

variable {neg : Bool} {m p num den d : Nat} {e : Int}

theorem fits_iff : Fits m p ↔ m < 2 ^ 53 ∧ p ≤ 2045 ∧ (2 ^ 52 ≤ m ∨ p = 0) := by
  rw [Fits, Nat.one_shiftLeft, Nat.one_shiftLeft]

namespace Interval

/-- The numbers of an interval. -/
def Holds (i : Interval) (x : ℚ) : Prop :=
  if i.closed then i.low ≤ x * i.unit ∧ x * i.unit ≤ i.high else i.low < x * i.unit ∧ x * i.unit < i.high

theorem Holds.le {i : Interval} {x : ℚ} (h : i.Holds x) : i.low ≤ x * i.unit ∧ x * i.unit ≤ i.high := by
  unfold Holds at h
  split at h
  · exact h
  · exact ⟨h.1.le, h.2.le⟩

theorem Holds.of_lt {i : Interval} {x : ℚ} (low : i.low < x * i.unit) (high : x * i.unit < i.high) :
    i.Holds x := by
  unfold Holds
  split
  · exact ⟨low.le, high.le⟩
  · exact ⟨low, high⟩

theorem holds_ratio {i : Interval} (hden : 0 < den) : i.Holds (num / den) ↔
    if i.closed then i.low * den ≤ num * i.unit ∧ num * i.unit ≤ i.high * den
    else i.low * den < num * i.unit ∧ num * i.unit < i.high * den := by
  have positive : (0 : ℚ) < den := by exact_mod_cast hden
  unfold Holds
  rw [div_mul_eq_mul_div, le_div_iff₀ positive, div_le_iff₀ positive, lt_div_iff₀ positive,
    div_lt_iff₀ positive]
  norm_cast

/-- How far below the number its interval reaches, in quarters of the last place. -/
def reach (m p : Nat) : Nat := if m = 1 <<< 52 ∧ p ≠ 0 then 1 else 2

theorem reach_le (m p : Nat) : reach m p ≤ 2 := by
  unfold reach
  split <;> omega

theorem low_ofParts (hm : 0 < m) : (ofParts m p).low + reach m p * 2 ^ p = 4 * (m * 2 ^ p) := by
  have low : (ofParts m p).low = (4 * m - reach m p) * 2 ^ p := Nat.shiftLeft_eq _ _
  have whole : 4 * m - reach m p + reach m p = 4 * m := by
    have := reach_le m p
    omega
  rw [low, ← Nat.add_mul, whole, mul_assoc]

theorem value_ofParts : (ofParts m p).value = 4 * (m * 2 ^ p) :=
  (Nat.shiftLeft_eq _ _).trans (mul_assoc _ _ _)

theorem high_ofParts : (ofParts m p).high = 4 * (m * 2 ^ p) + 2 * 2 ^ p := by
  have high : (ofParts m p).high = (4 * m + 2) * 2 ^ p := Nat.shiftLeft_eq _ _
  rw [high, Nat.add_mul, mul_assoc]

theorem value_inside (hm : 0 < m) :
    (ofParts m p).low < (ofParts m p).value ∧ (ofParts m p).value < (ofParts m p).high := by
  have low := low_ofParts (p := p) hm
  have unit := Nat.two_pow_pos p
  have some : 2 ^ p ≤ reach m p * 2 ^ p := by
    refine Nat.le_mul_of_pos_left _ ?_
    unfold reach
    split <;> omega
  rw [value_ofParts, high_ofParts]
  omega

theorem two_le_low (hm : 0 < m) : 2 ≤ (ofParts m p).low := by
  have low := low_ofParts (p := p) hm
  have unit : 1 ≤ 2 ^ p := Nat.two_pow_pos p
  have mantissa : 2 ^ p ≤ m * 2 ^ p := Nat.le_mul_of_pos_left _ hm
  have : reach m p * 2 ^ p ≤ 2 * 2 ^ p := Nat.mul_le_mul_right _ (reach_le m p)
  omega

theorem unit_pos : 0 < (ofParts m p).unit := by
  change 0 < 4 * scale
  decide +kernel

/-- A fraction in the interval, in quarters of the last place. -/
theorem Holds.bounds (hm : 0 < m) (hden : 0 < den) (h : (ofParts m p).Holds (num / den)) :
    4 * (m * (den <<< p)) ≤ 4 * (num * scale) + reach m p * (den <<< p) ∧
      4 * (num * scale) ≤ 4 * (m * (den <<< p)) + 2 * (den <<< p) ∧
      (m % 2 = 1 → 4 * (m * (den <<< p)) < 4 * (num * scale) + reach m p * (den <<< p) ∧
        4 * (num * scale) < 4 * (m * (den <<< p)) + 2 * (den <<< p)) := by
  have low : (ofParts m p).low * den + reach m p * (den <<< p) = 4 * (m * (den <<< p)) := by
    rw [Nat.shiftLeft_eq, mul_comm den, ← mul_assoc, ← Nat.add_mul, low_ofParts hm, mul_assoc, mul_assoc]
  have high : (ofParts m p).high * den = 4 * (m * (den <<< p)) + 2 * (den <<< p) := by
    rw [Nat.shiftLeft_eq, mul_comm den, high_ofParts, Nat.add_mul, mul_assoc, mul_assoc, mul_assoc]
  have value : num * (ofParts m p).unit = 4 * (num * scale) := mul_left_comm num 4 scale
  rw [holds_ratio hden, high, value] at h
  change if decide (m % 2 = 0) then _ else _ at h
  split at h
  · next even =>
    have even : m % 2 = 0 := by simpa using even
    exact ⟨by omega, h.2, by omega⟩
  · exact ⟨by omega, by omega, fun _ => ⟨by omega, h.2⟩⟩

end Interval

/-- A number with 53 bits before its last `p` is shifted by `p`, one with fewer bits not at all. -/
theorem shift_eq (hden : 0 < den) (low : p = 0 ∨ 2 ^ 52 * (den <<< p) ≤ num)
    (high : num < 2 ^ 53 * (den <<< p)) : Nat.log2 (num / den) + 1 - 53 = p := by
  have upper : num / den < 2 ^ (53 + p) := by
    rw [Nat.div_lt_iff_lt_mul hden, pow_add, mul_assoc, mul_comm (2 ^ p), ← Nat.shiftLeft_eq]
    exact high
  rcases low with rfl | low
  · by_cases none : num / den = 0
    · rw [none, Nat.log2_zero]
    · have := (Nat.log2_lt none).2 upper
      omega
  · have lower : 2 ^ (52 + p) ≤ num / den := by
      rw [Nat.le_div_iff_mul_le hden, pow_add, mul_assoc, mul_comm (2 ^ p), ← Nat.shiftLeft_eq]
      exact low
    have some : num / den ≠ 0 := by
      have := Nat.two_pow_pos (52 + p)
      omega
    have exact : Nat.log2 (num / den) = 52 + p := by
      rw [Nat.log2_eq_iff some, show 52 + p + 1 = 53 + p by omega]
      exact ⟨lower, upper⟩
    omega

theorem ofParts_fits (h : Fits m p) : ofParts neg m p = .finite neg m p h := dif_pos h

/-- What lies in the interval of a number rounds to it. -/
theorem ofRatio_of_holds (h : Fits m p) (hm : 0 < m) (hden : 0 < den)
    (hx : (Interval.ofParts m p).Holds (num / den)) : ofRatio neg num den = .finite neg m p h := by
  obtain ⟨low, high, odd⟩ := hx.bounds hm hden
  obtain ⟨small, -, normal⟩ := fits_iff.1 h
  have unit : 0 < den <<< p := by
    rw [Nat.shiftLeft_eq]
    exact Nat.mul_pos hden (Nat.two_pow_pos p)
  have reach : Interval.reach m p * (den <<< p) ≤ 2 * (den <<< p) :=
    Nat.mul_le_mul_right _ (Interval.reach_le m p)
  unfold ofRatio
  by_cases below : p ≠ 0 ∧ num * scale < 2 ^ 52 * (den <<< p)
  · -- below a power of two the places are half as wide, and the fraction is rounded up to the power
    obtain ⟨hp, below⟩ := below
    have least : m = 2 ^ 52 := by
      by_contra more
      have : (2 ^ 52 + 1) * (den <<< p) ≤ m * (den <<< p) := Nat.mul_le_mul_right _ (by omega)
      omega
    subst least
    obtain ⟨q, rfl⟩ := Nat.exists_eq_add_one_of_ne_zero hp
    have twice : den <<< (q + 1) = 2 * (den <<< q) := by rw [Nat.shiftLeft_succ, mul_comm]
    have quarter : Interval.reach (2 ^ 52) (q + 1) = 1 := if_pos ⟨(Nat.one_shiftLeft 52).symm, hp⟩
    rw [quarter] at low
    have shift : Nat.log2 (num * scale / den) + 1 - 53 = q := by
      refine shift_eq hden (Or.inr ?_) ?_ <;> omega
    have rounded : roundRatio (num * scale) (den <<< q) = 2 ^ 53 := by
      refine roundRatio_eq ?_ ?_ ?_ ?_ <;> omega
    dsimp only
    rw [shift, rounded, if_pos (Nat.one_shiftLeft 53).symm]
    exact ofParts_fits h
  · have shift : Nat.log2 (num * scale / den) + 1 - 53 = p := by
      refine shift_eq hden ?_ ?_
      · by_contra other
        exact below ⟨fun hp => other (Or.inl hp), by omega⟩
      · have : m * (den <<< p) ≤ (2 ^ 53 - 1) * (den <<< p) := Nat.mul_le_mul_right _ (by omega)
        omega
    have rounded : roundRatio (num * scale) (den <<< p) = m := by
      refine roundRatio_eq unit (by omega) (by omega) fun h => ?_
      have := odd h
      omega
    dsimp only
    rw [shift, rounded, if_neg (by rw [Nat.one_shiftLeft]; omega), ofParts_fits h]

/-! ### Powers of ten -/

theorem lt_pow_digitCount (n : Nat) : n < 10 ^ digitCount n :=
  (Nat.length_toDigits_le_iff (by decide) Nat.length_toDigits_pos).1 le_rfl

theorem pow_digitCount_le {n : Nat} (hn : 0 < n) : 10 ^ (digitCount n - 1) ≤ n := by
  by_cases one : digitCount n - 1 = 0
  · rw [one]
    exact hn
  · by_contra less
    have := (Nat.length_toDigits_le_iff (b := 10) (by decide) (by omega)).2 (not_le.1 less)
    unfold digitCount at one this
    omega

/-- A power of ten as a fraction. -/
def tens (e : Int) : Nat × Nat :=
  if e < 0 then (1, Nat.pow 10 e.natAbs) else (Nat.pow 10 e.natAbs, 1)

theorem tens_pos (e : Int) : 0 < (tens e).2 := by
  unfold tens
  split
  · exact Nat.pow_pos (by decide)
  · exact Nat.one_pos

theorem tens_one_pos (e : Int) : 0 < (tens e).1 := by
  unfold tens
  split
  · exact Nat.one_pos
  · exact Nat.pow_pos (by decide)

theorem decimal_eq (d : Nat) (e : Int) : (d : ℚ) * 10 ^ e = ((d * (tens e).1 : Nat) : ℚ) / (tens e).2 := by
  have power : (10 : ℚ) ^ e = (tens e).1 / (tens e).2 := by
    unfold tens
    split
    · next h =>
      obtain ⟨k, rfl⟩ := Int.exists_eq_neg_ofNat h.le
      simp
    · next h =>
      obtain ⟨k, rfl⟩ := Int.eq_ofNat_of_zero_le (not_lt.1 h)
      simp
  rw [power, Nat.cast_mul, mul_div_assoc]

namespace Interval

variable {i : Interval} {c : Nat}

theorem inUnitsOf_eq (i : Interval) (e : Int) : i.inUnitsOf e =
    ⟨i.low * (tens e).2, i.value * (tens e).2, i.high * (tens e).2, i.unit * (tens e).1, i.closed⟩ := by
  unfold inUnitsOf tens
  split <;> simp

theorem contains_iff : (i.inUnitsOf e).contains c = true ↔ i.Holds (c * 10 ^ e) := by
  rw [decimal_eq, holds_ratio (tens_pos e), inUnitsOf_eq, contains, mul_assoc, mul_comm (tens e).1]
  dsimp only
  split <;> simp

theorem contains_of_nearest? (h : i.nearest? = some c) : i.contains c = true := by
  unfold nearest? at h
  dsimp only at h
  split at h
  · next low high =>
    cases h
    unfold roundRatio
    dsimp only
    split_ifs <;> assumption
  · next low _ =>
    cases h
    exact low
  · next _ high =>
    cases h
    exact high
  · cases h

theorem floor_bounds (unit : 0 < i.unit) (hc : c = (i.inUnitsOf e).value / (i.inUnitsOf e).unit) :
    (c : ℚ) * 10 ^ e * i.unit ≤ i.value ∧ i.value < ((c + 1 : Nat) : ℚ) * 10 ^ e * i.unit := by
  have positive : (0 : ℚ) < (tens e).2 := by exact_mod_cast tens_pos e
  have grid : 0 < (tens e).1 * i.unit := Nat.mul_pos (tens_one_pos e) unit
  rw [inUnitsOf_eq, mul_comm i.unit] at hc
  rw [decimal_eq, decimal_eq, div_mul_eq_mul_div, div_mul_eq_mul_div, div_le_iff₀ positive, lt_div_iff₀ positive]
  norm_cast
  rw [mul_assoc, mul_assoc (c + 1), ← Nat.le_div_iff_mul_le grid, ← Nat.div_lt_iff_lt_mul grid, hc]
  exact ⟨le_rfl, Nat.lt_succ_self _⟩

theorem isSome_nearest? (i : Interval) :
    i.nearest?.isSome = (i.contains (i.value / i.unit) || i.contains (i.value / i.unit + 1)) := by
  unfold nearest?
  dsimp only
  cases i.contains (i.value / i.unit) <;> cases i.contains (i.value / i.unit + 1) <;> rfl

/-- Of the two neighbours of the value on a grid that is finer than the interval, one lies in it. -/
theorem isSome_nearest?_of_fine (unit : 0 < i.unit) (low : i.low < i.value) (high : i.value < i.high)
    (fine : (10 : ℚ) ^ e * i.unit < i.high - i.low) : (i.inUnitsOf e).nearest?.isSome = true := by
  rw [isSome_nearest?, Bool.or_eq_true, contains_iff, contains_iff]
  obtain ⟨c, hc⟩ : ∃ c, c = (i.inUnitsOf e).value / (i.inUnitsOf e).unit := ⟨_, rfl⟩
  obtain ⟨below, above⟩ := floor_bounds unit hc
  rw [← hc]
  have low : (i.low : ℚ) < i.value := by exact_mod_cast low
  have high : (i.value : ℚ) < i.high := by exact_mod_cast high
  by_cases floor : (i.low : ℚ) < c * 10 ^ e * i.unit
  · exact Or.inl (.of_lt floor (below.trans_lt high))
  · refine Or.inr (.of_lt (low.trans above) ?_)
    push_cast
    linarith

theorem Holds.digits_pos (hm : 0 < m) (hx : (ofParts m p).Holds (d * 10 ^ e)) : 0 < d := by
  by_contra none
  have least : (2 : ℚ) ≤ (ofParts m p).low := by exact_mod_cast two_le_low hm
  have low := hx.le.1
  rw [Nat.eq_zero_of_not_pos none, Nat.cast_zero, zero_mul, zero_mul] at low
  linarith

end Interval

/-- Finite numbers have at most 309 places before the point and at most 323 zeros after it. -/
theorem places_bounds (h : Fits m p) (hm : 0 < m) (hx : (Interval.ofParts m p).Holds (d * 10 ^ e)) :
    -324 < digitCount d + e ∧ digitCount d + e ≤ 309 := by
  have hd := hx.digits_pos hm
  obtain ⟨low, high⟩ := hx.le
  have unit : (0 : ℚ) < (Interval.ofParts m p).unit := by exact_mod_cast Interval.unit_pos
  have ten : (1 : ℚ) < 10 := by norm_num
  have power : (0 : ℚ) < 10 ^ e := by positivity
  -- the interval lies between those of the least number and of the greatest one
  constructor
  · have least : (10 : ℚ) ^ (-324 : Int) * (Interval.ofParts m p).unit ≤ (Interval.ofParts m p).low := by
      have : 4 * scale ≤ 2 * 10 ^ 324 := by decide +kernel
      have : (Interval.ofParts m p).unit ≤ (Interval.ofParts m p).low * 10 ^ 324 :=
        Nat.le_trans this (Nat.mul_le_mul_right _ (Interval.two_le_low hm))
      rw [zpow_neg, inv_mul_le_iff₀ (by positivity), mul_comm]
      exact_mod_cast this
    have above : (d : ℚ) * 10 ^ e < 10 ^ (digitCount d + e) := by
      rw [zpow_add₀ (by norm_num), zpow_natCast]
      exact mul_lt_mul_of_pos_right (by exact_mod_cast lt_pow_digitCount d) power
    exact (zpow_lt_zpow_iff_right₀ ten).1 (lt_of_le_of_lt (le_of_mul_le_mul_right (least.trans low) unit) above)
  · have greatest : ((Interval.ofParts m p).high : ℚ) < 10 ^ (309 : Int) * (Interval.ofParts m p).unit := by
      obtain ⟨small, shift, -⟩ := fits_iff.1 h
      have high : (Interval.ofParts m p).high ≤ 2 ^ 55 * 2 ^ p := by
        have : m * 2 ^ p ≤ (2 ^ 53 - 1) * 2 ^ p := Nat.mul_le_mul_right _ (by omega)
        rw [Interval.high_ofParts]
        omega
      have shifted : 2 ^ 55 * 2 ^ p ≤ 2 ^ 55 * 2 ^ 2045 := by gcongr; decide
      have : 2 ^ 55 * 2 ^ 2045 < 10 ^ 309 * (4 * scale) := by decide +kernel
      exact_mod_cast (high.trans shifted).trans_lt this
    have below : (10 : ℚ) ^ (((digitCount d - 1 : Nat) : Int) + e) ≤ d * 10 ^ e := by
      rw [zpow_add₀ (by norm_num), zpow_natCast]
      exact mul_le_mul_of_nonneg_right (by exact_mod_cast pow_digitCount_le hd) power.le
    have := (zpow_lt_zpow_iff_right₀ ten).1
      (lt_of_le_of_lt below (lt_of_mul_lt_mul_right (high.trans_lt greatest) unit.le))
    omega

/-- A decimal in the interval of a number reads as that number. -/
theorem ofDecimal_of_holds (h : Fits m p) (hm : 0 < m) (hx : (Interval.ofParts m p).Holds (d * 10 ^ e)) :
    ofDecimal neg d e = .finite neg m p h := by
  have hd := hx.digits_pos hm
  obtain ⟨low, high⟩ := places_bounds h hm hx
  have rounded : ofRatio neg (d * (tens e).1) (tens e).2 = .finite neg m p h :=
    ofRatio_of_holds h hm (tens_pos e) (decimal_eq d e ▸ hx)
  unfold ofDecimal
  rw [if_neg (by omega)]
  dsimp only
  rw [if_neg (by omega), if_neg (by omega)]
  unfold tens at rounded
  split
  · next negative =>
    rw [if_pos negative, mul_one] at rounded
    exact rounded
  · next whole =>
    rw [if_neg whole] at rounded
    exact rounded

/-! ### The shortest decimal -/

theorem pow_le_of_digitCount {value unit k : Nat} (hu : 0 < unit) (some : 0 < value * Nat.pow 10 k / unit) :
    (10 : ℚ) ^ (digitCount (value * Nat.pow 10 k / unit) - k - 1 : Int) * unit ≤ value := by
  rw [Nat.pow_eq] at some ⊢
  have digits := pow_digitCount_le some
  rw [Nat.le_div_iff_mul_le hu] at digits
  have count : 0 < digitCount (value * 10 ^ k / unit) := Nat.length_toDigits_pos
  have places : (digitCount (value * 10 ^ k / unit) - k - 1 : Int) =
      ((digitCount (value * 10 ^ k / unit) - 1 : Nat) : Int) - (k : Nat) := by omega
  rw [places, zpow_sub₀ (by norm_num), zpow_natCast, zpow_natCast, div_mul_eq_mul_div,
    div_le_iff₀ (by positivity)]
  exact_mod_cast digits

/-- The value has no fewer places than are counted. -/
theorem pow_places_le (hm : 0 < m) : (10 : ℚ) ^ ((Interval.ofParts m p).places - 1) * (Interval.ofParts m p).unit ≤
    (Interval.ofParts m p).value := by
  have least : (Interval.ofParts m p).unit ≤ Nat.pow 10 400 := by
    change 4 * scale ≤ Nat.pow 10 400
    decide +kernel
  have value : 0 < (Interval.ofParts m p).value := by
    rw [Interval.value_ofParts]
    have := Nat.mul_pos hm (Nat.two_pow_pos p)
    omega
  generalize hk : 400 = k at least
  have places : (Interval.ofParts m p).places =
      digitCount ((Interval.ofParts m p).value * Nat.pow 10 k / (Interval.ofParts m p).unit) - k := by
    rw [Interval.places, ← hk, Nat.cast_ofNat]
  rw [places]
  exact pow_le_of_digitCount Interval.unit_pos
    (Nat.div_pos (least.trans (Nat.le_mul_of_pos_left _ value)) Interval.unit_pos)

theorem finer (h : Fits m p) (hm : 0 < m) :
    (Interval.ofParts m p).value + 10 ^ 16 * (Interval.ofParts m p).low <
      10 ^ 16 * (Interval.ofParts m p).high := by
  obtain ⟨small, -, -⟩ := fits_iff.1 h
  have low := Interval.low_ofParts (p := p) hm
  have unit := Nat.two_pow_pos p
  have most : m * 2 ^ p ≤ (2 ^ 53 - 1) * 2 ^ p := Nat.mul_le_mul_right _ (by omega)
  rw [Interval.value_ofParts, Interval.high_ofParts]
  unfold Interval.reach at low
  split at low
  · next half =>
    have : m = 2 ^ 52 := half.1
    subst this
    omega
  · omega

/-- Seventeen digits are finer than the interval. -/
theorem seventeen_fine (h : Fits m p) (hm : 0 < m) {places : Int}
    (first : (10 : ℚ) ^ (places - 1) * (Interval.ofParts m p).unit ≤ (Interval.ofParts m p).value) :
    (10 : ℚ) ^ (places - 17) * (Interval.ofParts m p).unit <
      (Interval.ofParts m p).high - (Interval.ofParts m p).low := by
  have fine : ((Interval.ofParts m p).value : ℚ) + 10 ^ 16 * (Interval.ofParts m p).low <
      10 ^ 16 * (Interval.ofParts m p).high := by exact_mod_cast finer h hm
  have power : (10 : ℚ) ^ (places - 1) = 10 ^ (places - 17) * 10 ^ 16 := by
    rw [← zpow_natCast, ← zpow_add₀ (by norm_num)]
    congr 1
    omega
  rw [power] at first
  linarith

/-- The first grid with a hit, when the seventeenth has one. -/
theorem Interval.exists_hit {i : Interval} {places : Int}
    (last : (i.inUnitsOf (places - 17)).nearest?.isSome = true) :
    ∃ d e, ((List.range 17).findSome? fun (k : Nat) =>
        (i.inUnitsOf (places - (k + 1))).nearest?.map fun digits => Decimal.mk digits (places - (k + 1))) =
      some ⟨d, e⟩ ∧ i.Holds (d * 10 ^ e) := by
  cases hit : (List.range 17).findSome? fun (k : Nat) =>
      (i.inUnitsOf (places - (k + 1))).nearest?.map fun digits => Decimal.mk digits (places - (k + 1)) with
  | none =>
    have seventeenth := List.findSome?_eq_none_iff.1 hit 16 (by decide)
    have grid : (places - ((16 : Nat) + 1) : Int) = places - 17 := by omega
    rw [Option.map_eq_none_iff, grid] at seventeenth
    rw [seventeenth] at last
    cases last
  | some found =>
    obtain ⟨k, -, hk⟩ := List.exists_of_findSome?_eq_some hit
    obtain ⟨d, hd, rfl⟩ := Option.map_eq_some_iff.1 hk
    exact ⟨d, _, rfl, contains_iff.1 (contains_of_nearest? hd)⟩

/-- The shortest decimal of a number lies in its interval. -/
theorem shortest_holds (h : Fits m p) (hm : 0 < m) :
    (Interval.ofParts m p).Holds ((shortest m p).digits * 10 ^ (shortest m p).exponent) := by
  obtain ⟨low, high⟩ := Interval.value_inside (p := p) hm
  obtain ⟨d, e, hit, holds⟩ := Interval.exists_hit
    (Interval.isSome_nearest?_of_fine Interval.unit_pos low high (seventeen_fine h hm (pow_places_le hm)))
  have found : shortest m p = ⟨d, e⟩ := by
    unfold shortest
    dsimp only
    rw [hit, Option.getD_some]
  rw [found]
  exact holds

end Binary64

end ResourceCompiler
