import ResourceCompiler.Proofs.Binary64.Integer
import ResourceCompiler.Proofs.Primitive
import ResourceCompiler.Proofs.Value.Number

/-!
# Readings of tokens

What a token of each kind is read as. A text becomes a value of every type that has a word or a numeral for it; a number
stays the number it is, or becomes the nearest one of its type (`reading_of_read`).
-/

namespace ResourceCompiler

variable {token : Value} {primitive : Primitive} {value : Scalar}

/-- How a token is read as a value: as its text, as itself, or as what its text or its number stands for. -/
inductive Reading : Value → Scalar → Prop
  | text (token : Value) : Reading token (.str token.text)
  | truth (b : Bool) : Reading (.bool b) (.bool b)
  | word {s : String} {b : Bool} (h : String.ofList (s.toList.map Char.toLower) = if b then "true" else "false") :
      Reading (.str s) (.bool b)
  | integer (n : Int) : Reading (.int n) (.int n)
  | whole {x : Binary64} {n : Int} (h : x.equalsInt n = true) : Reading (.float x) (.int n)
  | numeral {s : String} {n : Int} (h : Text.readInt? s = some n) : Reading (.str s) (.int n)
  | number (x : Binary64) : Reading (.float x) (.float x)
  | rounded {n : Int} {x : Binary64} (h : Binary64.ofInt n = x) : Reading (.int n) (.float x)
  | unit {b : Bool} {x : Binary64} (h : Binary64.ofInt (if b then 1 else 0) = x) : Reading (.bool b) (.float x)
  | decimal {s : String} {x : Binary64} (h : Text.readFloat? s = some x) : Reading (.str s) (.float x)

/-! ### Truth values -/

/-- A character that the words for truth values do not have. -/
def Foreign (c : Char) : Prop :=
  c.isDigit = true ∨ c ∈ ['n', 'N', '-', '[', '\x7b']

theorem Foreign.not_mem {c : Char} (h : Foreign c) : c.toLower ∉ "true".toList ++ "false".toList := by
  rcases h with digit | mark
  · rw [Json.toLower_of_isDigit digit]
    intro letter
    have digits : ("true".toList ++ "false".toList).all (fun d => !d.isDigit) = true := by decide
    have other := List.all_eq_true.1 digits c letter
    rw [digit] at other
    cases other
  · have marks : ['n', 'N', '-', '[', '\x7b'].all (fun d => d.toLower ∉ "true".toList ++ "false".toList) = true := by
      decide
    exact of_decide_eq_true (List.all_eq_true.1 marks c mark)

/-- Only truth values and texts are read as truth values: the texts of all others have a foreign character. -/
theorem exists_foreign (truth : ∀ b, token ≠ .bool b) (text : ∀ s, token ≠ .str s) :
    ∃ c ∈ token.text.toList, Foreign c := by
  cases token with
  | scalar s =>
    cases s with
    | null => exact ⟨'N', by decide, Or.inr (by decide)⟩
    | bool b => exact absurd rfl (truth b)
    | int n =>
      obtain ⟨c, hc⟩ := List.exists_mem_of_ne_nil (Nat.toDigits 10 n.natAbs) Nat.toDigits_ne_nil
      have inside : c ∈ Text.intChars n := by
        unfold Text.intChars
        split
        · exact List.mem_cons_of_mem _ hc
        · exact hc
      exact ⟨c, by simpa [Value.text, Scalar.text, Scalar.quoted, Text.ofInt] using inside,
        Or.inl (Text.isDigit_toDigits _ c hc)⟩
    | float x =>
      obtain ⟨c, hc, digit⟩ := x.exists_digit
      refine ⟨c, by simpa [Value.text, Scalar.text, Scalar.quoted, Binary64.text] using hc, ?_⟩
      rcases digit with digit | rfl
      · exact Or.inl digit
      · exact Or.inr (by decide)
    | str s => exact absurd rfl (text s)
    | date d =>
      refine ⟨'-', ?_, Or.inr (by decide)⟩
      cases d <;> simp [Value.text, Scalar.text, Date.text]
  | list xs => exact ⟨'[', by simp [Value.text, Value.quoted], Or.inr (by decide)⟩
  | map es => exact ⟨'\x7b', by simp [Value.text, Value.quoted], Or.inr (by decide)⟩

theorem reading_of_boolean (h : readEnumValue token .boolean = .ok value) : Reading token value := by
  by_cases truth : ∃ b, token = .bool b
  · obtain ⟨b, rfl⟩ := truth
    cases h
    exact .truth b
  · rcases readEnumValue_boolean_ok h with ⟨b, hb, -⟩ | ⟨b, name, rfl⟩
    · exact absurd ⟨b, hb⟩ truth
    · by_cases text : ∃ s, token = .str s
      · obtain ⟨s, rfl⟩ := text
        exact .word name
      · -- no other value is spelled like a truth value
        obtain ⟨c, hc, foreign⟩ := exists_foreign (fun b hb => truth ⟨b, hb⟩) fun s hs => text ⟨s, hs⟩
        have lower : c.toLower ∈ token.text.toList.map Char.toLower := List.mem_map_of_mem hc
        rw [← String.toList_ofList (l := token.text.toList.map Char.toLower), name] at lower
        refine absurd ?_ foreign.not_mem
        cases b with
        | true => exact List.mem_append_left _ lower
        | false => exact List.mem_append_right _ lower

/-! ### Numbers -/

theorem equalsInt_of_toInt {x : Binary64} {n : Int} (whole : x.isWhole = true) (h : (Value.float x).toInt = .ok n) :
    x.equalsInt n = true := by
  unfold Binary64.isWhole at whole
  simp only [Value.toInt, Binary64.truncate?] at h
  split at whole
  · next k hk =>
    rw [hk] at h
    have exact : k.tdiv Binary64.scale = n := Except.ok.inj h
    have divides : (Binary64.scale : Int) ∣ k := Int.dvd_of_emod_eq_zero (of_decide_eq_true whole)
    refine decide_eq_true ?_
    rw [hk, ← exact, Int.tdiv_mul_cancel divides]
  · cases whole

theorem reading_of_integer (integer : primitive.isInteger = true) (h : readEnumValue token primitive = .ok value) :
    Reading token value := by
  obtain ⟨exact, n, hn, rfl⟩ := (readEnumValue_integer_eq_ok integer).1 h
  cases token with
  | scalar s =>
    cases s with
    | int k =>
      cases hn
      exact .integer n
    | float x =>
      have whole : x.isWhole = true := by simpa [Value.isRounded] using exact
      exact .whole (equalsInt_of_toInt whole hn)
    | str s =>
      simp only [Value.toInt] at hn
      cases hs : Text.readInt? s with
      | none =>
        rw [hs] at hn
        cases hn
      | some k =>
        rw [hs] at hn
        cases hn
        exact .numeral hs
    | bool b => cases exact
    | null => cases hn
    | date d => cases hn
  | list xs => cases hn
  | map es => cases hn

/-- The rounding of integers is a variable here, so that checking the proof does not unfold it. -/
theorem reading_of_toFloat {round : Int → Binary64} (hr : Binary64.ofInt = round) {x : Binary64}
    (h : token.toFloat = .ok x) : Reading token (.float x) := by
  rw [Value.toFloat.eq_def, hr] at h
  split at h
  · cases h
    exact .number x
  · next b =>
    refine .unit ?_
    rw [hr]
    exact Except.ok.inj h
  · next k =>
    split at h
    · cases h
    · refine .rounded ?_
      rw [hr]
      exact Except.ok.inj h
  · next s =>
    cases hs : Text.readFloat? s with
    | none =>
      rw [hs] at h
      cases h
    | some y =>
      rw [hs] at h
      cases h
      exact .decimal hs
  · cases h

theorem reading_of_read (h : readEnumValue token primitive = .ok value) : Reading token value := by
  cases primitive with
  | string =>
    obtain ⟨-, rfl⟩ := readEnumValue_string_eq_ok.1 h
    exact .text token
  | boolean => exact reading_of_boolean h
  | int32 | int64 | bigInteger => exact reading_of_integer rfl h
  | float | double =>
    obtain ⟨x, hx, rfl⟩ := map_eq_ok.1 h
    exact reading_of_toFloat rfl hx

end ResourceCompiler
