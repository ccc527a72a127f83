import ResourceCompiler.Proofs.Json.Number
import ResourceCompiler.Proofs.Success

/-!
# Texts of values

An integer can be written when it is below the power of ten with the greatest number of digits (`isShort_iff`). So can
what a value is read as, when the value itself can be written (`isShort_toInt`): a text gives no longer integer than its
digits are, and no double precision number is beyond that power of ten.
-/

namespace ResourceCompiler

namespace Text

variable {n : Int} {cs digits : List Char} {s : String}

theorem isShort_iff : isShort n = true ↔ n.natAbs < 10 ^ maxDigits := by
  unfold isShort
  rw [decide_eq_true_eq]
  constructor
  · intro short
    exact (Binary64.lt_pow_digitCount n.natAbs).trans_le (Nat.pow_le_pow_right (by decide) short)
  · intro small
    rcases Nat.eq_zero_or_pos n.natAbs with zero | pos
    · rw [zero]
      decide
    · have low := (Binary64.pow_digitCount_le pos).trans_lt small
      have fewer := (Nat.pow_lt_pow_iff_right (by decide)).1 low
      unfold Binary64.digitCount at fewer
      omega

theorem writeInt_eq_ok : writeInt n = .ok s ↔ isShort n = true ∧ s = ofInt n := ite_eq_ok

theorem digitsToNat_lt (h : ∀ c ∈ cs, c.isDigit = true) : digitsToNat cs < 10 ^ cs.length := by
  induction cs with
  | nil => decide
  | cons c cs ih =>
    rw [List.forall_mem_cons] at h
    have rest := ih h.2
    have first : digitsToNat [c] ≤ 9 := by
      have upper : c.toNat ≤ 57 := by
        have digit := h.1
        rw [Char.isDigit, Bool.and_eq_true, decide_eq_true_eq, decide_eq_true_eq] at digit
        exact digit.2
      show 10 * 0 + (c.toNat - 48) ≤ 9
      omega
    have whole : digitsToNat (c :: cs) = digitsToNat [c] * 10 ^ cs.length + digitsToNat cs :=
      digitsToNat_append [c] cs
    have scaled := Nat.mul_le_mul_right (10 ^ cs.length) first
    rw [whole, List.length_cons, Nat.pow_succ]
    omega

theorem isDigit_of_groupedDigits? (h : groupedDigits? cs = some digits) : ∀ c ∈ digits, c.isDigit = true := by
  fun_induction groupedDigits? cs generalizing digits with
  | case1 => cases h
  | case2 c digit =>
    cases h
    simpa using digit
  | case3 => cases h
  | case4 c cs digit ih =>
    obtain ⟨rest, hr, rfl⟩ := Option.map_eq_some_iff.1 h
    exact List.forall_mem_cons.2 ⟨digit, ih hr⟩
  | case5 => cases h
  | case6 c cs _ _ digit ih =>
    obtain ⟨rest, hr, rfl⟩ := Option.map_eq_some_iff.1 h
    exact List.forall_mem_cons.2 ⟨digit, ih hr⟩
  | case7 => cases h

theorem isShort_of_readInt? (h : readInt? s = some n) : isShort n = true := by
  unfold readInt? at h
  simp only [Option.bind_eq_bind, Option.bind_eq_some_iff] at h
  obtain ⟨cs, -, digits, grouped, _, short, value⟩ := h
  have few : digits.length ≤ maxDigits := by simpa [guard] using short
  have small : digitsToNat digits < 10 ^ maxDigits :=
    (digitsToNat_lt (isDigit_of_groupedDigits? grouped)).trans_le (Nat.pow_le_pow_right (by decide) few)
  rw [isShort_iff]
  have value : (if (signed (trim isAsciiBlank cs)).1 then -(digitsToNat digits : Int) else digitsToNat digits) = n :=
    Option.some.inj value
  split at value <;> omega

theorem isShort_of_truncate? {x : Binary64} (h : x.truncate? = some n) : isShort n = true := by
  cases x with
  | nan => cases h
  | infinite negative => cases h
  | finite negative m p fits =>
    obtain ⟨mantissa, shift, -⟩ := Binary64.fits_iff.1 fits
    have magnitude : n.natAbs = m <<< p / Binary64.scale := by
      rw [← Option.some.inj h, Int.natAbs_tdiv]
      cases negative
      · rfl
      · rw [if_pos rfl, Int.natAbs_neg]
        rfl
    rw [isShort_iff, magnitude, Nat.shiftLeft_eq]
    calc m * 2 ^ p / Binary64.scale ≤ m * 2 ^ p := Nat.div_le_self _ _
      _ < 2 ^ 53 * 2 ^ p := Nat.mul_lt_mul_of_pos_right mantissa (Nat.two_pow_pos p)
      _ = 2 ^ (53 + p) := (Nat.pow_add ..).symm
      _ ≤ 10 ^ (53 + p) := Nat.pow_le_pow_left (by decide) _
      _ ≤ 10 ^ maxDigits := Nat.pow_le_pow_right (by decide) (by unfold maxDigits; omega)

end Text

theorem Scalar.toText_eq_ok {v : Scalar} {s : String} : v.toText = .ok s ↔ v.hasText = true ∧ s = v.text := ite_eq_ok

namespace Value

variable {v : Value} {n : Int} {s : String}

theorem toText_eq_ok : v.toText = .ok s ↔ v.hasText = true ∧ s = v.text := ite_eq_ok

theorem isShort_toInt (written : v.hasText = true) (h : v.toInt = .ok n) : Text.isShort n = true := by
  cases v with
  | scalar a =>
    cases a with
    | int k =>
      cases h
      exact written
    | bool b =>
      cases h
      cases b <;> rfl
    | float x =>
      cases cut : x.truncate? with
      | none =>
        simp only [toInt, cut] at h
        cases h
      | some k =>
        simp only [toInt, cut] at h
        cases h
        exact Text.isShort_of_truncate? cut
    | str t =>
      cases read : Text.readInt? t with
      | none =>
        simp only [toInt, read] at h
        cases h
      | some k =>
        simp only [toInt, read] at h
        cases h
        exact Text.isShort_of_readInt? read
    | null => cases h
    | date d => cases h
  | list xs => cases h
  | map es => cases h

end Value

end ResourceCompiler
