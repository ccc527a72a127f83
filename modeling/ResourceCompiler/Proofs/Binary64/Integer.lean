import ResourceCompiler.Proofs.Binary64
import ResourceCompiler.Proofs.Key

/-!
# Integers as double precision numbers

An integer that is a double precision number is rounded to itself (`equalsInt_ofInt`). From half a place beyond the
greatest finite number on, the tie included, an integer is rounded to an infinity (`ofInt_eq_infinite_iff`).
-/

namespace ResourceCompiler

theorem roundRatio_cases (num den : Nat) : roundRatio num den = num / den ∨ roundRatio num den = num / den + 1 := by
  unfold roundRatio
  dsimp only
  split
  · exact Or.inl rfl
  · split
    · exact Or.inr rfl
    · split
      · exact Or.inl rfl
      · exact Or.inr rfl

/-- A fraction is rounded up by half an integer at most. -/
theorem roundRatio_le (num den : Nat) : 2 * (roundRatio num den * den) ≤ 2 * num + den := by
  have parts : den * (num / den) + num % den = num := Nat.div_add_mod num den
  have next : (num / den + 1) * den = den * (num / den) + den := by
    rw [Nat.add_mul, Nat.one_mul, Nat.mul_comm]
  have same : num / den * den = den * (num / den) := Nat.mul_comm _ _
  unfold roundRatio
  dsimp only
  split
  · omega
  · split
    · omega
    · split <;> omega

namespace Binary64

variable {x : Binary64} {n : Int} {neg : Bool} {num m p : Nat}

/-- An integer that is the value of a number is rounded to it, but for the sign of zero. -/
theorem equalsInt_ofInt (h : x.equalsInt n = true) : (ofInt n).equalsInt n = true := by
  cases x with
  | nan => cases h
  | infinite negative => cases h
  | finite negative m p fits =>
    have value : (if negative then -((m <<< p : Nat) : Int) else (m <<< p : Nat)) = n * scale :=
      Option.some.inj (of_decide_eq_true h)
    have magnitude : m <<< p = n.natAbs * scale := by
      rw [← Int.natAbs_natCast scale, ← Int.natAbs_mul, ← value]
      split
      · rw [Int.natAbs_neg, Int.natAbs_natCast]
      · rw [Int.natAbs_natCast]
    -- a number other than zero lies inside its own interval, which decides what it is rounded to
    rcases Nat.eq_zero_or_pos m with rfl | hm
    · have zero : n = 0 := by
        have positive := scale_pos
        rw [Nat.zero_shiftLeft, eq_comm, Nat.mul_eq_zero] at magnitude
        omega
      subst zero
      decide +kernel
    · have inside : (Interval.ofParts m p).Holds ((n.natAbs : ℚ) / (1 : ℕ)) := by
        obtain ⟨low, high⟩ := Interval.value_inside (p := p) hm
        have own : n.natAbs * (Interval.ofParts m p).unit = (Interval.ofParts m p).value := by
          rw [Interval.value_ofParts, ← Nat.shiftLeft_eq, magnitude]
          exact Nat.mul_left_comm _ _ _
        have own : (n.natAbs : ℚ) / (1 : ℕ) * (Interval.ofParts m p).unit = (Interval.ofParts m p).value := by
          rw [Nat.cast_one, div_one]
          exact_mod_cast own
        refine .of_lt ?_ ?_
        · rw [own]
          exact_mod_cast low
        · rw [own]
          exact_mod_cast high
      have rounded : ofInt n = .finite (n < 0) m p fits := ofRatio_of_holds fits hm Nat.one_pos inside
      rw [rounded]
      refine decide_eq_true (congrArg some ?_)
      rw [magnitude]
      push_cast
      simp only [decide_eq_true_eq]
      split
      · next negative => rw [← Int.neg_mul, abs_of_neg negative, neg_neg]
      · next natural => rw [abs_of_nonneg (not_lt.1 natural)]

/-! ### The range of integers -/

/-- Half a place beyond the greatest finite number. -/
def bound : Nat := (2 ^ 54 - 1) <<< 970

theorem ofParts_eq_infinite_iff (normal : 2 ^ 52 ≤ m) (small : m < 2 ^ 53) :
    (∃ s, ofParts neg m p = .infinite s) ↔ 2045 < p := by
  unfold ofParts
  split
  · next fits =>
    have short := (fits_iff.1 fits).2.1
    simp [short]
  · next other =>
    have long : 2045 < p := by
      by_contra short
      exact other (fits_iff.2 ⟨small, by omega, Or.inl normal⟩)
    simp [long]

/-- With a mantissa of 53 bits before it, what a fraction is rounded to is infinite from a shift of 2046 on, or of 2045
when the mantissa is rounded up to one more bit. -/
theorem ofRatio_eq_infinite_iff (low : 2 ^ 52 * 2 ^ p ≤ num * scale) (high : num * scale < 2 ^ 53 * 2 ^ p) :
    (∃ s, ofRatio neg num 1 = .infinite s) ↔ 2046 ≤ p ∨ p = 2045 ∧ (2 ^ 54 - 1) * 2 ^ p ≤ 2 * (num * scale) := by
  have unit : 0 < 2 ^ p := Nat.two_pow_pos p
  have places : (1 : Nat) <<< p = 2 ^ p := Nat.one_shiftLeft p
  have shift : Nat.log2 (num * scale / 1) + 1 - 53 = p := by
    refine shift_eq Nat.one_pos (Or.inr ?_) ?_
    · rwa [places]
    · rwa [places]
  have least : 2 ^ 52 ≤ num * scale / 2 ^ p := (Nat.le_div_iff_mul_le unit).2 low
  have most : num * scale / 2 ^ p < 2 ^ 53 := (Nat.div_lt_iff_lt_mul unit).2 high
  have rounded := roundRatio_cases (num * scale) (2 ^ p)
  unfold ofRatio
  dsimp only
  rw [shift, places]
  -- rounding may reach the next power of two, which needs one place more
  split
  · next up =>
    have reached := roundRatio_le (num * scale) (2 ^ p)
    rw [up, Nat.one_shiftLeft] at reached
    rw [ofParts_eq_infinite_iff (by decide) (by decide)]
    have enough : (2 ^ 54 - 1) * 2 ^ p ≤ 2 * (num * scale) := by
      rw [Nat.sub_mul]
      omega
    omega
  · next kept =>
    rw [Nat.one_shiftLeft] at kept
    rw [ofParts_eq_infinite_iff (by omega) (by omega)]
    have less : ¬ (2 ^ 54 - 1) * 2 ^ p ≤ 2 * (num * scale) := by
      intro enough
      rw [Nat.sub_mul] at enough
      refine kept (roundRatio_eq unit ?_ ?_ ?_) <;> omega
    omega

theorem bound_le_iff : bound ≤ num ↔ (2 ^ 54 - 1) * (1 <<< 2044) ≤ num * scale := by
  have shifted (k l : Nat) : (2 ^ 54 - 1) <<< k * (1 <<< l) = (2 ^ 54 - 1) * (1 <<< (k + l)) := by
    rw [Nat.shiftLeft_eq, Nat.one_shiftLeft, Nat.one_shiftLeft, mul_assoc, pow_add]
  have whole : bound * scale = (2 ^ 54 - 1) * (1 <<< 2044) := shifted 970 1074
  rw [← whole, Nat.mul_le_mul_right_iff scale_pos]

/-- Every integer from the bound on is infinite as a number, and no other. -/
theorem ofInt_eq_infinite_iff : (∃ s, ofInt n = .infinite s) ↔ bound ≤ n.natAbs := by
  rcases Nat.eq_zero_or_pos n.natAbs with none | some
  · have zero : ofInt n = zero false := by
      rw [Int.natAbs_eq_zero.1 none]
      decide +kernel
    have positive : ¬ bound ≤ 0 := by decide +kernel
    rw [zero, none]
    simp [positive, Binary64.zero]
  · have long : 2 ^ 52 ≤ n.natAbs * scale := by
      have unit : 2 ^ 52 ≤ scale := by decide +kernel
      exact unit.trans (Nat.le_mul_of_pos_left _ some)
    -- the shift that leaves 53 bits
    obtain ⟨p, hp⟩ : ∃ p, Nat.log2 (n.natAbs * scale) = 52 + p :=
      Nat.exists_eq_add_of_le ((Nat.le_log2 (by omega)).2 long)
    have low : 2 ^ 52 * 2 ^ p ≤ n.natAbs * scale := by
      rw [← pow_add, ← hp]
      exact Nat.log2_self_le (by omega)
    have high : n.natAbs * scale < 2 ^ 53 * 2 ^ p := by
      have upper := Nat.lt_log2_self (n := n.natAbs * scale)
      rwa [hp, Nat.add_right_comm, pow_add] at upper
    obtain ⟨t, ht⟩ : ∃ t, 2044 = t := ⟨_, rfl⟩
    rw [ofInt, ofRatio_eq_infinite_iff low high, bound_le_iff, ht, Nat.one_shiftLeft]
    rcases Nat.lt_trichotomy p (t + 1) with below | rfl | above
    · have fewer : 2 ^ p ≤ 2 ^ t := Nat.pow_le_pow_right (by decide) (by omega)
      omega
    · rw [pow_succ] at low high ⊢
      omega
    · have more : 2 ^ t * 2 * 2 ≤ 2 ^ p := by
        rw [← pow_succ, ← pow_succ]
        exact Nat.pow_le_pow_right (by decide) above
      omega

end Binary64

end ResourceCompiler
