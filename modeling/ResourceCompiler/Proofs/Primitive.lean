import ResourceCompiler.Primitive
import ResourceCompiler.Proofs.Value.Text

/-!
# Values of scalar types

What a token must be to be a value of a scalar type. An integer type takes what has an integer, but neither truth nor a
number with a fraction, whose integers are other values (`readEnumValue_integer`). Texts and truth values are read from
the text of a token, which must have one.
-/

namespace ResourceCompiler

/-- Truth and fractions: the integer of such a value is not the value itself. -/
def Value.isRounded : Value → Bool
  | .bool _ => true
  | .float x => !x.isWhole
  | _ => false

/-- The scalars that are values of a type. -/
def Scalar.HasType (value : Scalar) : Primitive → Prop
  | .string => ∃ s, value = .str s
  | .boolean => ∃ b, value = .bool b
  | .int32 | .int64 | .bigInteger => ∃ n, value = .int n
  | .float | .double => ∃ x, value = .float x

variable {token : Value} {primitive : Primitive} {path : String} {value : Scalar}

theorem parseEnumValue_eq_ok :
    parseEnumValue token primitive path = .ok value ↔ readEnumValue token primitive = .ok value := by
  unfold parseEnumValue
  split
  · next read =>
    rw [read, Except.ok.injEq, Except.ok.injEq]
  all_goals
    next read =>
      rw [read]
      simp

theorem readEnumValue_integer (h : primitive.isInteger = true) (token : Value) :
    readEnumValue token primitive =
      if token.isRounded then .error .malformedNumber else token.toInt.map .int := by
  have read : readEnumValue token .bigInteger =
      if token.isRounded then .error .malformedNumber else token.toInt.map .int := by
    cases token with
    | scalar s =>
      cases s with
      | float x =>
        show (if x.isWhole then _ else _) = if !x.isWhole then _ else _
        cases x.isWhole <;> rfl
      | _ => rfl
    | _ => rfl
  cases primitive <;> first | exact read | cases h

theorem readEnumValue_integer_eq_ok (h : primitive.isInteger = true) :
    readEnumValue token primitive = .ok value ↔
      token.isRounded = false ∧ ∃ n, token.toInt = .ok n ∧ value = .int n := by
  rw [readEnumValue_integer h]
  cases token.isRounded with
  | true => simp
  | false =>
    rw [if_neg Bool.false_ne_true, map_eq_ok]
    simp [eq_comm]

theorem readEnumValue_int (h : primitive.isInteger = true) (n : Int) :
    readEnumValue (.int n) primitive = .ok (.int n) :=
  (readEnumValue_integer_eq_ok h).2 ⟨rfl, n, rfl, rfl⟩

theorem readEnumValue_string_eq_ok :
    readEnumValue token .string = .ok value ↔ token.hasText = true ∧ value = .str token.text := by
  constructor
  · intro h
    obtain ⟨s, hs, rfl⟩ := map_eq_ok.1 h
    obtain ⟨written, rfl⟩ := Value.toText_eq_ok.1 hs
    exact ⟨written, rfl⟩
  · rintro ⟨written, rfl⟩
    exact map_eq_ok.2 ⟨_, Value.toText_eq_ok.2 ⟨written, rfl⟩, rfl⟩

/-- Beside truth values themselves, what is written like one of them is read as it. -/
theorem readEnumValue_boolean_ok (h : readEnumValue token .boolean = .ok value) :
    (∃ b, token = .bool b ∧ value = .bool b) ∨
      ∃ b, String.ofList (token.text.toList.map Char.toLower) = (if b then "true" else "false") ∧ value = .bool b := by
  simp only [readEnumValue] at h
  split at h
  · next b =>
    cases h
    exact Or.inl ⟨b, rfl, rfl⟩
  · obtain ⟨text, ht, h⟩ := bind_eq_ok.1 h
    obtain ⟨-, rfl⟩ := Value.toText_eq_ok.1 ht
    split at h
    · next name =>
      cases h
      exact Or.inr ⟨true, name, rfl⟩
    · split at h
      · next name =>
        cases h
        exact Or.inr ⟨false, name, rfl⟩
      · cases h

theorem hasType_of_read (h : readEnumValue token primitive = .ok value) : value.HasType primitive := by
  cases primitive with
  | string =>
    obtain ⟨-, rfl⟩ := readEnumValue_string_eq_ok.1 h
    exact ⟨_, rfl⟩
  | boolean =>
    rcases readEnumValue_boolean_ok h with ⟨b, -, rfl⟩ | ⟨b, -, rfl⟩
    · exact ⟨b, rfl⟩
    · exact ⟨b, rfl⟩
  | int32 | int64 | bigInteger =>
    obtain ⟨-, n, -, rfl⟩ := (readEnumValue_integer_eq_ok rfl).1 h
    exact ⟨n, rfl⟩
  | float | double =>
    obtain ⟨x, -, rfl⟩ := map_eq_ok.1 h
    exact ⟨x, rfl⟩

/-- What a token is read as can be written, if the token can. -/
theorem hasText_of_read (written : token.hasText = true) (h : readEnumValue token primitive = .ok value) :
    value.hasText = true := by
  have typed := hasType_of_read h
  cases primitive with
  | string | boolean | float | double =>
    obtain ⟨_, rfl⟩ := typed
    rfl
  | int32 | int64 | bigInteger =>
    obtain ⟨-, n, hn, rfl⟩ := (readEnumValue_integer_eq_ok rfl).1 h
    exact Value.isShort_toInt written hn

end ResourceCompiler
