import Mathlib.Data.List.TakeWhile
import Mathlib.Tactic.IntervalCases
import ResourceCompiler.Json.Printer
import ResourceCompiler.Json.Reader
import ResourceCompiler.Proofs.Binary64

/-!
# Numbers read back

A number is written as digits, perhaps with a point, perhaps with an exponent, and what follows it is no
part of a number. An integer reads back as itself (`readNumber_intChars`), a finite number as the one it
is, whichever of its layouts is taken (`readNumber_chars`).
-/

namespace ResourceCompiler

namespace Text

theorem digitsToNat_eq (cs : List Char) : digitsToNat cs = Nat.ofDigitChars 10 cs 0 :=
  (Nat.ofDigitChars_eq_foldl).symm

theorem digitsToNat_append (cs ds : List Char) :
    digitsToNat (cs ++ ds) = digitsToNat cs * 10 ^ ds.length + digitsToNat ds := by
  rw [digitsToNat_eq, digitsToNat_eq, digitsToNat_eq, Nat.ofDigitChars_append,
    Nat.ofDigitChars_eq_ofDigitChars_zero, Nat.mul_comm]

theorem digitsToNat_zeros (n : Nat) : digitsToNat (List.replicate n '0') = 0 := by
  rw [digitsToNat_eq, Nat.ofDigitChars_replicate_zero, Nat.mul_zero]

theorem digitsToNat_zeros_append (n : Nat) (cs : List Char) :
    digitsToNat (List.replicate n '0' ++ cs) = digitsToNat cs := by
  rw [digitsToNat_append, digitsToNat_zeros, Nat.zero_mul, Nat.zero_add]

theorem digitsToNat_append_zeros (cs : List Char) (n : Nat) :
    digitsToNat (cs ++ List.replicate n '0') = digitsToNat cs * 10 ^ n := by
  rw [digitsToNat_append, digitsToNat_zeros, List.length_replicate, Nat.add_zero]

theorem digitsToNat_toDigits (n : Nat) : digitsToNat (Nat.toDigits 10 n) = n := by
  rw [digitsToNat_eq, Nat.ofDigitChars_ten_toDigits]

/-- Zeros at the end are what trimming takes. -/
theorem exists_trimZeros (ds : List Char) : ∃ n, ds = Binary64.trimZeros ds ++ List.replicate n '0' := by
  have zeros : ds.reverse.takeWhile (· = '0') = List.replicate (ds.reverse.takeWhile (· = '0')).length '0' :=
    List.eq_replicate_iff.2 ⟨rfl, fun c hc => by simpa using List.mem_takeWhile_imp hc⟩
  refine ⟨(ds.reverse.takeWhile (· = '0')).length, ?_⟩
  rw [Binary64.trimZeros, ← List.reverse_replicate, ← zeros, ← List.reverse_append,
    List.takeWhile_append_dropWhile, List.reverse_reverse]

end Text

namespace Json

variable {whole fraction digits rest : List Char} {e : Int}

/-- What continues no number. -/
def Stops (rest : List Char) : Prop :=
  ∀ c ∈ rest.head?, c.isDigit = false ∧ c ≠ '.' ∧ c ≠ 'e' ∧ c ≠ 'E'

/-- Digits of a whole number: one, or more of which the first is not zero. -/
structure Whole (ds : List Char) : Prop where
  digits : ∀ c ∈ ds, c.isDigit = true
  first : ds = ['0'] ∨ ∃ c ∈ ds.head?, c ≠ '0'

theorem takeWhile_digits (hd : ∀ c ∈ digits, c.isDigit = true) (hr : ∀ c ∈ rest.head?, c.isDigit = false) :
    (digits ++ rest).takeWhile Char.isDigit = digits := by
  rw [List.takeWhile_append_of_pos hd]
  have stop : rest.takeWhile Char.isDigit = [] := by
    cases rest with
    | nil => rfl
    | cons c rest => rw [List.takeWhile_cons_of_neg (by simp [hr c rfl])]
  rw [stop, List.append_nil]

theorem readWhole?_append (hw : Whole whole) (hr : ∀ c ∈ rest.head?, c.isDigit = false) :
    readWhole? (whole ++ rest) = some (whole, rest) := by
  rcases hw.first with rfl | ⟨c, hc, nonzero⟩
  · rfl
  · unfold readWhole?
    split
    · next starts =>
      obtain ⟨ds, rfl⟩ := List.head?_eq_some_iff.1 hc
      cases starts
      exact absurd rfl nonzero
    · obtain ⟨ds, rfl⟩ := List.head?_eq_some_iff.1 hc
      rw [takeWhile_digits hw.digits hr]
      dsimp only
      rw [if_neg (by simp), List.drop_left]

theorem readFraction_stops (hr : ∀ c ∈ rest.head?, c ≠ '.') : readFraction rest = ([], rest) := by
  unfold readFraction
  split
  · exact absurd rfl (hr _ rfl)
  · rfl

theorem readFraction_point (hd : ∀ c ∈ fraction, c.isDigit = true) (nonempty : fraction ≠ [])
    (hr : ∀ c ∈ rest.head?, c.isDigit = false) :
    readFraction ('.' :: (fraction ++ rest)) = (fraction, rest) := by
  rw [readFraction, takeWhile_digits hd hr, List.drop_left, if_neg (by simpa using nonempty)]

theorem readExponent?_stops (hr : ∀ c ∈ rest.head?, c ≠ 'e' ∧ c ≠ 'E') : readExponent? rest = none := by
  unfold readExponent?
  split
  · rfl
  · next c rest =>
    obtain ⟨lower, upper⟩ := hr c rfl
    rw [if_neg (by simp [lower, upper])]

theorem readExponent?_append (negative : Bool) (hd : ∀ c ∈ digits, c.isDigit = true) (nonempty : digits ≠ [])
    (hr : ∀ c ∈ rest.head?, c.isDigit = false) :
    readExponent? ('e' :: (if negative then '-' else '+') :: (digits ++ rest)) =
      some (if negative then -(Text.digitsToNat digits : Int) else Text.digitsToNat digits, rest) := by
  have signed : Text.signed ((if negative then '-' else '+') :: (digits ++ rest)) =
      (negative, digits ++ rest) := by
    cases negative <;> rfl
  unfold readExponent?
  dsimp only
  rw [if_pos (Or.inl rfl), signed]
  dsimp only
  rw [takeWhile_digits hd hr, List.drop_left, if_neg (by simpa using nonempty)]

theorem readMagnitude_whole (negative : Bool) (hw : Whole whole) (short : whole.length ≤ Text.maxDigits)
    (hr : Stops rest) : readMagnitude negative (whole ++ rest) =
      .ok (.int (if negative then -(Text.digitsToNat whole : Int) else Text.digitsToNat whole), rest) := by
  unfold readMagnitude
  rw [readWhole?_append hw fun c hc => (hr c hc).1]
  dsimp only
  rw [readFraction_stops fun c hc => (hr c hc).2.1]
  dsimp only
  rw [readExponent?_stops fun c hc => (hr c hc).2.2]
  dsimp only
  rw [if_pos List.isEmpty_nil, if_neg (by omega)]

theorem readMagnitude_point (negative : Bool) (hw : Whole whole) (hd : ∀ c ∈ fraction, c.isDigit = true)
    (nonempty : fraction ≠ []) (hr : Stops rest) :
    readMagnitude negative (whole ++ '.' :: (fraction ++ rest)) =
      .ok (.float (.ofDecimal negative (Text.digitsToNat (whole ++ fraction)) (-fraction.length)), rest) := by
  unfold readMagnitude
  rw [readWhole?_append hw (by simp)]
  dsimp only
  rw [readFraction_point hd nonempty fun c hc => (hr c hc).1]
  dsimp only
  rw [readExponent?_stops fun c hc => (hr c hc).2.2]
  dsimp only
  rw [if_neg (by simpa using nonempty)]

theorem readMagnitude_exponent (negative low : Bool) (hw : Whole whole) (hf : ∀ c ∈ fraction, c.isDigit = true)
    (hd : ∀ c ∈ digits, c.isDigit = true) (nonempty : digits ≠ []) (hr : Stops rest) :
    readMagnitude negative (whole ++ ((if fraction.isEmpty then [] else '.' :: fraction) ++
        'e' :: (if low then '-' else '+') :: (digits ++ rest))) =
      .ok (.float (.ofDecimal negative (Text.digitsToNat (whole ++ fraction))
        ((if low then -(Text.digitsToNat digits : Int) else Text.digitsToNat digits) - fraction.length)),
        rest) := by
  have exponent := readExponent?_append low hd nonempty fun c hc => (hr c hc).1
  have parts : readFraction ((if fraction.isEmpty then [] else '.' :: fraction) ++
      'e' :: (if low then '-' else '+') :: (digits ++ rest)) =
        (fraction, 'e' :: (if low then '-' else '+') :: (digits ++ rest)) := by
    cases fraction with
    | nil => exact readFraction_stops (by simp)
    | cons c fraction => exact readFraction_point hf (by simp) (by simp)
  unfold readMagnitude
  rw [readWhole?_append hw (by cases fraction <;> simp)]
  dsimp only
  rw [parts]
  dsimp only
  rw [exponent]

theorem isDigit_zeros {n : Nat} : ∀ c ∈ List.replicate n '0', c.isDigit = true := by
  intro c hc
  rw [List.eq_of_mem_replicate hc]
  rfl

theorem Whole.take {n : Nat} (hd : ∀ c ∈ digits, c.isDigit = true) (first : ∃ c ∈ digits.head?, c ≠ '0') :
    Whole (digits.take (n + 1)) := by
  obtain ⟨c, hc, nonzero⟩ := first
  obtain ⟨ds, rfl⟩ := List.head?_eq_some_iff.1 hc
  exact ⟨fun a ha => hd a (List.mem_of_mem_take ha), Or.inr ⟨c, rfl, nonzero⟩⟩

theorem Whole.append_zeros {n : Nat} (hd : ∀ c ∈ digits, c.isDigit = true)
    (first : ∃ c ∈ digits.head?, c ≠ '0') : Whole (digits ++ List.replicate n '0') := by
  obtain ⟨c, hc, nonzero⟩ := first
  obtain ⟨ds, rfl⟩ := List.head?_eq_some_iff.1 hc
  exact ⟨List.forall_mem_append.2 ⟨hd, isDigit_zeros⟩, Or.inr ⟨c, rfl, nonzero⟩⟩

/-- Zeros between the point and the digits. -/
theorem readMagnitude_below (negative : Bool) (n : Nat) (hd : ∀ c ∈ digits, c.isDigit = true)
    (nonempty : digits ≠ []) (hr : Stops rest) :
    readMagnitude negative ('0' :: '.' :: (List.replicate n '0' ++ digits ++ rest)) =
      .ok (.float (.ofDecimal negative (Text.digitsToNat digits) (-(n + digits.length : Nat))), rest) := by
  have fraction : ∀ c ∈ List.replicate n '0' ++ digits, c.isDigit = true :=
    List.forall_mem_append.2 ⟨isDigit_zeros, hd⟩
  have value : Text.digitsToNat (List.replicate 1 '0' ++ (List.replicate n '0' ++ digits)) =
      Text.digitsToNat digits := by
    rw [Text.digitsToNat_zeros_append, Text.digitsToNat_zeros_append]
  have read := readMagnitude_point negative ⟨isDigit_zeros (n := 1), Or.inl rfl⟩ fraction (by simp [nonempty]) hr
  rw [value, List.length_append, List.length_replicate] at read
  exact read

/-- Digits on both sides of the point. -/
theorem readMagnitude_around (negative : Bool) {n : Nat} (hd : ∀ c ∈ digits, c.isDigit = true)
    (first : ∃ c ∈ digits.head?, c ≠ '0') (long : n + 1 < digits.length) (hr : Stops rest) :
    readMagnitude negative (digits.take (n + 1) ++ '.' :: (digits.drop (n + 1) ++ rest)) =
      .ok (.float (.ofDecimal negative (Text.digitsToNat digits) (-(digits.length - (n + 1) : Nat))), rest) := by
  have fraction : ∀ c ∈ digits.drop (n + 1), c.isDigit = true := fun c hc => hd c (List.mem_of_mem_drop hc)
  have nonempty : digits.drop (n + 1) ≠ [] := by
    rw [Ne, List.drop_eq_nil_iff]
    omega
  rw [readMagnitude_point negative (Whole.take hd first) fraction nonempty hr, List.take_append_drop,
    List.length_drop]

/-- Zeros between the digits and the point. -/
theorem readMagnitude_above (negative : Bool) (n : Nat) (hd : ∀ c ∈ digits, c.isDigit = true)
    (first : ∃ c ∈ digits.head?, c ≠ '0') (hr : Stops rest) :
    readMagnitude negative (digits ++ List.replicate n '0' ++ '.' :: '0' :: rest) =
      .ok (.float (.ofDecimal negative (Text.digitsToNat digits * 10 ^ (n + 1)) (-1)), rest) := by
  have value : Text.digitsToNat (digits ++ List.replicate n '0' ++ List.replicate 1 '0') =
      Text.digitsToNat digits * 10 ^ (n + 1) := by
    rw [List.append_assoc, ← List.replicate_add, Text.digitsToNat_append_zeros]
  rw [← value]
  exact readMagnitude_point negative (Whole.append_zeros hd first) (isDigit_zeros (n := 1)) (by simp) hr

/-- One digit before the point, and an exponent. -/
theorem readMagnitude_scientific (negative : Bool) (e : Int) (hd : ∀ c ∈ digits, c.isDigit = true)
    (first : ∃ c ∈ digits.head?, c ≠ '0') (hr : Stops rest) :
    readMagnitude negative (digits.take 1 ++ ((if (digits.drop 1).isEmpty then [] else '.' :: digits.drop 1) ++
        'e' :: (if e < 0 then '-' else '+') :: (List.replicate (2 - (Nat.toDigits 10 e.natAbs).length) '0' ++
          Nat.toDigits 10 e.natAbs ++ rest))) =
      .ok (.float (.ofDecimal negative (Text.digitsToNat digits) (e - (digits.length - 1 : Nat))), rest) := by
  have fraction : ∀ c ∈ digits.drop 1, c.isDigit = true := fun c hc => hd c (List.mem_of_mem_drop hc)
  have exponent : ∀ c ∈ List.replicate (2 - (Nat.toDigits 10 e.natAbs).length) '0' ++ Nat.toDigits 10 e.natAbs,
      c.isDigit = true :=
    List.forall_mem_append.2 ⟨isDigit_zeros, fun a => Nat.isDigit_of_mem_toDigits (by decide) (by decide)⟩
  have nonempty : List.replicate (2 - (Nat.toDigits 10 e.natAbs).length) '0' ++ Nat.toDigits 10 e.natAbs ≠ [] :=
    fun h => Nat.toDigits_ne_nil (List.append_eq_nil_iff.1 h).2
  have scale : (if decide (e < 0) = true then -(e.natAbs : Int) else e.natAbs) = e := by
    simp only [decide_eq_true_eq]
    split <;> omega
  have read := readMagnitude_exponent negative (decide (e < 0)) (Whole.take (n := 0) hd first) fraction exponent
    nonempty hr
  rw [zero_add, List.take_append_drop, Text.digitsToNat_zeros_append, Text.digitsToNat_toDigits, scale,
    List.length_drop] at read
  simp only [decide_eq_true_eq] at read
  exact read

/-- A layout of digits reads back as a decimal of the same value, perhaps with zeros at its end. -/
theorem readMagnitude_layOut (negative : Bool) (point : Int) (hd : ∀ c ∈ digits, c.isDigit = true)
    (first : ∃ c ∈ digits.head?, c ≠ '0') (hr : Stops rest) :
    ∃ k : Nat, readMagnitude negative (Binary64.layOut digits point ++ rest) =
      .ok (.float (.ofDecimal negative (Text.digitsToNat digits * 10 ^ k) (point - digits.length - k)), rest) := by
  have nonempty : digits ≠ [] := by
    rintro rfl
    simp at first
  have size := List.length_pos_of_ne_nil nonempty
  -- the point stands before the digits, behind them or among them, unless there is an exponent
  unfold Binary64.layOut
  split
  · split
    · next small =>
      have exponent : -((point.natAbs + digits.length : Nat) : Int) = point - digits.length - (0 : Nat) := by omega
      refine ⟨0, ?_⟩
      rw [pow_zero, mul_one, ← exponent]
      exact readMagnitude_below negative point.natAbs hd nonempty hr
    · next large =>
      obtain ⟨n, rfl⟩ : ∃ n, point = ((n + 1 : Nat) : Int) := ⟨(point - 1).toNat, by omega⟩
      dsimp only
      rw [Int.natAbs_natCast]
      by_cases short : digits.length ≤ n + 1
      · have exponent : (-1 : Int) =
            ((n + 1 : Nat) : Int) - digits.length - ((n + 1 - digits.length + 1 : Nat) : Int) := by omega
        refine ⟨n + 1 - digits.length + 1, ?_⟩
        rw [List.take_of_length_le short, List.drop_of_length_le short, ← exponent, List.append_assoc]
        exact readMagnitude_above negative _ hd first hr
      · have shown : (digits.take (n + 1)).length = n + 1 := by
          rw [List.length_take]
          omega
        have more : (digits.drop (n + 1)).isEmpty = false := by
          rw [List.isEmpty_eq_false_iff, Ne, List.drop_eq_nil_iff]
          omega
        have exponent : -((digits.length - (n + 1) : Nat) : Int) =
            ((n + 1 : Nat) : Int) - digits.length - (0 : Nat) := by omega
        refine ⟨0, ?_⟩
        rw [shown, Nat.sub_self, List.replicate_zero, List.append_nil, more, if_neg Bool.false_ne_true, pow_zero,
          mul_one, ← exponent, List.append_assoc]
        exact readMagnitude_around negative hd first (by omega) hr
  · have exponent : point - 1 - (digits.length - 1 : Nat) = point - digits.length - (0 : Nat) := by omega
    refine ⟨0, ?_⟩
    rw [pow_zero, mul_one, ← exponent, List.append_assoc, List.append_assoc]
    exact readMagnitude_scientific negative (point - 1) hd first hr

/-- The first digit of a number that is not zero is not zero. -/
theorem head?_toDigits {n : Nat} (hn : 0 < n) : ∃ c ∈ (Nat.toDigits 10 n).head?, c ≠ '0' := by
  induction n using Nat.strongRecOn with
  | ind n ih =>
    by_cases small : n < 10
    · rw [Nat.toDigits_of_lt_base small]
      refine ⟨_, rfl, ?_⟩
      interval_cases n <;> decide
    · rw [Nat.toDigits_of_base_le (by decide) (by omega)]
      obtain ⟨c, hc, nonzero⟩ := ih (n / 10) (by omega) (by omega)
      exact ⟨c, by rw [List.head?_append, hc]; rfl, nonzero⟩

theorem whole_toDigits (n : Nat) : Whole (Nat.toDigits 10 n) := by
  refine ⟨fun c hc => Nat.isDigit_of_mem_toDigits (by decide) (by decide) hc, ?_⟩
  rcases Nat.eq_zero_or_pos n with rfl | hn
  · exact Or.inl (Nat.toDigits_zero 10)
  · exact Or.inr (head?_toDigits hn)

/-- A sign before a magnitude is read with it. -/
theorem readNumber_signed {negative : Bool} {body : List Char} {found : Value × List Char}
    (h : readMagnitude negative body = .ok found) :
    readNumber (if negative then '-' :: body else body) = .ok found := by
  cases negative with
  | true => exact h
  | false =>
    rw [if_neg Bool.false_ne_true]
    unfold readNumber
    split
    · -- no magnitude starts with a sign
      cases h
    · exact h

/-- An integer that is not too long reads back as itself. -/
theorem readNumber_intChars {n : Int} (short : (Nat.toDigits 10 n.natAbs).length ≤ Text.maxDigits)
    (hr : Stops rest) : readNumber (Text.intChars n ++ rest) = .ok (.int n, rest) := by
  have read := readNumber_signed
    (readMagnitude_whole (decide (n < 0)) (whole_toDigits n.natAbs) short hr)
  have value : (if decide (n < 0) = true then -(n.natAbs : Int) else n.natAbs) = n := by
    simp only [decide_eq_true_eq]
    split <;> omega
  have chars : Text.intChars n ++ rest = if decide (n < 0) = true then '-' :: (Nat.toDigits 10 n.natAbs ++ rest)
      else Nat.toDigits 10 n.natAbs ++ rest := by
    unfold Text.intChars
    simp only [decide_eq_true_eq]
    split <;> rfl
  rw [chars, read, Text.digitsToNat_toDigits, value]

/-- The digits that a number is written with read back as the number. -/
theorem readMagnitude_shortest (negative : Bool) {m p : Nat} (h : Fits m p) (hm : 0 < m) (hr : Stops rest) :
    readMagnitude negative (Binary64.layOut (Binary64.trimZeros (Nat.toDigits 10 (Binary64.shortest m p).digits))
        ((Nat.toDigits 10 (Binary64.shortest m p).digits).length + (Binary64.shortest m p).exponent) ++ rest) =
      .ok (.float (.finite negative m p h), rest) := by
  have holds := Binary64.shortest_holds h hm
  -- any digits in the interval of the number read back as it, so that which they are does not matter
  generalize (Binary64.shortest m p).exponent = e at holds ⊢
  generalize (Binary64.shortest m p).digits = d at holds ⊢
  obtain ⟨z, hz⟩ := Text.exists_trimZeros (Nat.toDigits 10 d)
  generalize Binary64.trimZeros (Nat.toDigits 10 d) = ds at hz ⊢
  have digits : ∀ c ∈ ds, c.isDigit = true := fun c hc =>
    (whole_toDigits d).digits c (hz ▸ List.mem_append_left _ hc)
  have first : ∃ c ∈ ds.head?, c ≠ '0' := by
    obtain ⟨c, hc, nonzero⟩ := head?_toDigits (holds.digits_pos hm)
    rw [hz, List.head?_append] at hc
    cases ds with
    | nil => exact absurd (List.eq_of_mem_replicate (List.mem_of_mem_head? hc)) nonzero
    | cons a ds => exact ⟨c, hc, nonzero⟩
  have value : d = Text.digitsToNat ds * 10 ^ z := by
    rw [← Text.digitsToNat_append_zeros, ← hz, Text.digitsToNat_toDigits]
  obtain ⟨k, read⟩ := readMagnitude_layOut negative ((Nat.toDigits 10 d).length + e) digits first hr
  rw [read]
  congr 3
  refine Binary64.ofDecimal_of_holds h hm ?_
  have same : ((Text.digitsToNat ds * 10 ^ k : Nat) : ℚ) * 10 ^ ((Nat.toDigits 10 d).length + e - ds.length - k) =
      d * 10 ^ e := by
    have ten : (10 : ℚ) ≠ 0 := by norm_num
    rw [hz, value, List.length_append, List.length_replicate]
    push_cast
    rw [mul_assoc, mul_assoc, ← zpow_natCast, ← zpow_natCast, ← zpow_add₀ ten, ← zpow_add₀ ten]
    congr 2
    omega
  rw [same]
  exact holds

/-- A finite number reads back as itself. -/
theorem readNumber_chars {negative : Bool} {m p : Nat} {h : Fits m p} (hr : Stops rest) :
    readNumber ((Binary64.finite negative m p h).chars ++ rest) = .ok (.float (.finite negative m p h), rest) := by
  have signed {body : List Char} : (if negative then '-' :: body else body) ++ rest =
      if negative then '-' :: (body ++ rest) else body ++ rest := by
    split <;> rfl
  unfold Binary64.chars
  dsimp only
  rw [signed]
  refine readNumber_signed ?_
  split
  · next zero =>
    subst zero
    have point := readMagnitude_point negative (whole_toDigits 0) (isDigit_zeros (n := 1)) (by simp) hr
    have least : p = 0 := by
      obtain ⟨-, -, normal⟩ := Binary64.fits_iff.1 h
      omega
    subst least
    exact point
  · next nonzero => exact readMagnitude_shortest negative h (Nat.pos_of_ne_zero nonzero) hr

end Json

end ResourceCompiler
