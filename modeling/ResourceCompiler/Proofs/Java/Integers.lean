import ResourceCompiler.Proofs.Json.Number
import ResourceCompiler.Proofs.Resolver.Constants

/-!
# Integers in generated code

Constants of enums and initializers of fields write integers as decimal numerals, with a suffix or inside the call of a
constructor where their type asks for it. `integerOf?` reads such an expression. What is written is the integer of the
value, whatever its size: an expression fits its type exactly when that integer does (`integers_fit_iff`). The integer
of a default is the default itself unless that is truth or has a fraction (`integer_default_exact_iff`).
-/

namespace ResourceCompiler

/-- The integers that a type holds: those of its width, and all of them where the width is not fixed. -/
def Primitive.InRange : Primitive → Int → Prop
  | .int32, n => -2 ^ 31 ≤ n ∧ n ≤ 2 ^ 31 - 1
  | .int64, n => -2 ^ 63 ≤ n ∧ n ≤ 2 ^ 63 - 1
  | .bigInteger, _ => True
  | _, _ => False

instance (primitive : Primitive) (n : Int) : Decidable (primitive.InRange n) := by
  cases primitive <;> unfold Primitive.InRange <;> infer_instance

namespace Java

open Resolver

/-- The number of a decimal numeral: with a zero in front of other digits it would be an octal one. -/
def numeral? (cs : List Char) : Option Nat :=
  if cs.all Char.isDigit && (cs = ['0'] || cs.head?.any (· ≠ '0')) then some (Text.digitsToNat cs) else none

def signedNumeral? : List Char → Option Int
  | '-' :: cs => (numeral? cs).map fun n : Nat => -(n : Int)
  | cs => (numeral? cs).map fun n : Nat => (n : Int)

/-- What an expression of an integer type has in front of its numeral and behind it. -/
def frame (t : PrimitiveType) : String × String :=
  match t.primitive with
  | .int64 => ("", "L")
  | .bigInteger => ("new " ++ t.name ++ "(\"", "\")")
  | _ => ("", "")

/-- The integer that an expression of an integer type writes. -/
def integerOf? (t : PrimitiveType) (expression : String) : Option Int := do
  let tail ← expression.toList.dropPrefix? (frame t).1.toList
  signedNumeral? (← tail.dropSuffix? (frame t).2.toList)

def Fits (t : PrimitiveType) (expression : String) : Prop :=
  ∃ n ∈ integerOf? t expression, t.primitive.InRange n

instance (t : PrimitiveType) (expression : String) : Decidable (Fits t expression) :=
  inferInstanceAs (Decidable (∃ n ∈ integerOf? t expression, _))

variable {t : PrimitiveType} {v : Value} {n : Int} {expression : String}

theorem numeral?_of_whole {cs : List Char} (h : Json.Whole cs) : numeral? cs = some (Text.digitsToNat cs) := by
  have digits : cs.all Char.isDigit = true := List.all_eq_true.2 h.digits
  unfold numeral?
  rcases h.first with rfl | ⟨c, hc, nonzero⟩
  · rfl
  · have first : cs.head?.any (· ≠ '0') = true := by
      rw [Option.mem_def.1 hc]
      simpa using nonzero
    rw [digits, first, Bool.or_true, Bool.and_true, if_pos rfl]

theorem signedNumeral?_intChars (n : Int) : signedNumeral? (Text.intChars n) = some n := by
  have whole := Json.whole_toDigits n.natAbs
  have read : numeral? (Nat.toDigits 10 n.natAbs) = some n.natAbs := by
    rw [numeral?_of_whole whole, Text.digitsToNat_toDigits]
  unfold Text.intChars
  split
  · show (numeral? _).map _ = _
    rw [read, Option.map_some, Option.some.injEq]
    omega
  · unfold signedNumeral?
    split
    · next sign =>
      -- no digit is a sign
      have := whole.digits '-' (sign ▸ List.mem_cons_self)
      cases this
    · rw [read, Option.map_some, Option.some.injEq]
      omega

theorem integerOf?_frame (t : PrimitiveType) (n : Int) :
    integerOf? t ((frame t).1 ++ Text.ofInt n ++ (frame t).2) = some n := by
  have front (xs ys : List Char) : (xs ++ ys).dropPrefix? xs = some ys :=
    List.dropPrefix?_append_of_beq ys (beq_self_eq_true xs)
  have back (xs ys : List Char) : (xs ++ ys).dropSuffix? ys = some xs :=
    List.dropSuffix?_eq_some_iff.2 ⟨ys, rfl, beq_self_eq_true ys⟩
  unfold integerOf? Text.ofInt
  rw [String.toList_append, String.toList_append, List.append_assoc, front, String.toList_ofList]
  show ((_ : List Char).dropSuffix? _).bind signedNumeral? = _
  rw [back, Option.bind_some, signedNumeral?_intChars]

theorem scalarDefault_integer (integer : t.primitive.isInteger = true) (v : Value) :
    scalarDefault t v = do
      return some ((frame t).1 ++ (← Text.writeInt (← v.toInt)) ++ (frame t).2) := by
  obtain ⟨name, primitive⟩ := t
  unfold scalarDefault frame
  cases primitive with
  | int32 | int64 =>
    show (literal v _).map some = _
    unfold literal
    cases v.toInt with
    | ok n => cases written : Text.writeInt n <;> simp [written, Except.map, bind, Except.bind, pure, Except.pure]
    | error f => rfl
  | bigInteger => rfl
  | _ => cases integer

/-- A default for an integer type is rendered exactly when it has an integer that can be written, and as that integer. -/
theorem defaultInitializer_integer (integer : t.primitive.isInteger = true) :
    defaultInitializer (.primitive t) v = .ok (some expression) ↔ ∃ n, v.toInt = .ok n ∧ Text.isShort n = true ∧
      expression = (frame t).1 ++ Text.ofInt n ++ (frame t).2 := by
  unfold defaultInitializer
  split
  · -- null has no integer either
    next null =>
    have none : v.toInt = .error .notNumber := by
      unfold Value.isNull at null
      split at null
      · rfl
      · cases null
    simp [none]
  · dsimp only
    rw [scalarDefault_integer integer]
    cases v.toInt with
    | ok n =>
      cases short : Text.isShort n with
      | true =>
        have written : Text.writeInt n = .ok (Text.ofInt n) := if_pos short
        simp only [written, short, bind, Except.bind, pure, Except.pure, Except.ok.injEq, Option.some.injEq,
          exists_eq_left', true_and]
        exact eq_comm
      | false => simp [Text.writeInt, short, bind, Except.bind]
    | error f =>
      simp only [bind, Except.bind]
      split <;> simp_all

theorem integerOf?_defaultInitializer (integer : t.primitive.isInteger = true)
    (h : defaultInitializer (.primitive t) v = .ok (some expression)) :
    ∃ n, v.toInt = .ok n ∧ integerOf? t expression = some n := by
  obtain ⟨n, hn, -, rfl⟩ := (defaultInitializer_integer integer).1 h
  exact ⟨n, hn, integerOf?_frame t n⟩

/-- An integer that cannot be written is left out. -/
theorem defaultInitializer_long (integer : t.primitive.isInteger = true) (h : v.toInt = .ok n)
    (long : Text.isShort n = false) : defaultInitializer (.primitive t) v = .ok none := by
  unfold defaultInitializer
  split
  · rfl
  · dsimp only
    rw [scalarDefault_integer integer, h]
    simp [Text.writeInt, long, bind, Except.bind]

/-- Enums have no type without a fixed width, so that their literals are those of fields. -/
theorem literal_widened {primitive : Primitive} (integer : primitive.isInteger = true)
    (widened : t.primitive = primitive.widened) {n : Int} {text : String}
    (h : literal (.int n) t.primitive = .ok text) : integerOf? t text = some n := by
  have framed : text = (frame t).1 ++ Text.ofInt n ++ (frame t).2 := by
    obtain ⟨name, _⟩ := t
    subst widened
    unfold frame
    cases primitive with
    | int32 =>
      obtain ⟨-, rfl⟩ := Text.writeInt_eq_ok.1 h
      simp [Primitive.widened]
    | int64 | bigInteger =>
      obtain ⟨_, ⟨⟩, h⟩ := bind_eq_ok.1 h
      obtain ⟨_, hs, ⟨⟩⟩ := bind_eq_ok.1 h
      obtain ⟨-, rfl⟩ := Text.writeInt_eq_ok.1 hs
      simp [Primitive.widened]
    | _ => cases integer
  rw [framed, integerOf?_frame]

theorem fits_iff (h : integerOf? t expression = some n) : Fits t expression ↔ t.primitive.InRange n := by
  simp [Fits, h]

section

variable {config : Config} {names : Sanitizer} {types : TypeNames} {primitive : Primitive} {path : String}
  (integer : primitive.isInteger = true) (widened : t.primitive = primitive.widened)
include integer widened

theorem integerOf?_constant {token : Value} {k : EnumEntry}
    (h : (⟨config, names, types.dialect⟩ : Resolver).ConstantOf t.primitive path token k) :
    ∃ n, readEnumValue token t.primitive = .ok (.int n) ∧ integerOf? t k.literal = some n := by
  have read := parseEnumValue_eq_ok.1 h.value
  have typed : t.primitive.isInteger = true := by
    rw [widened]
    cases primitive <;> first | rfl | cases integer
  obtain ⟨-, n, -, value⟩ := (readEnumValue_integer_eq_ok typed).1 read
  have written : literal (.scalar k.value) t.primitive = .ok k.literal := mapError_eq_ok.1 h.literal
  rw [value] at read written
  exact ⟨n, read, literal_widened integer widened written⟩

theorem literals_fit_iff {tokens : List Value} {entries : List EnumEntry}
    (h : List.Forall₂ ((⟨config, names, types.dialect⟩ : Resolver).ConstantOf t.primitive path) tokens entries) :
    (∀ k ∈ entries, Fits t k.literal) ↔
      ∀ token ∈ tokens, ∃ n, readEnumValue token t.primitive = .ok (.int n) ∧ t.primitive.InRange n := by
  induction h with
  | nil => simp
  | @cons token k tokens entries hk _ ih =>
    obtain ⟨n, read, written⟩ := integerOf?_constant integer widened hk
    rw [List.forall_mem_cons, List.forall_mem_cons, ih, fits_iff written, read]
    simp

end

/-- The literals of an enum fit its type exactly when the integers that are listed do, where integers without a format
are long ones. The expression of a default fits the type of its field exactly when the integer of the default does. -/
theorem integers_fit_iff (config : Config) (names : Sanitizer) (types : TypeNames) :
    (∀ traits base values name package owner? path res primitive,
      (⟨config, names, types.dialect⟩ : Resolver).resolveEnum (.enum traits base values) name package owner? path =
        .ok res → classify (.basic base) traits.format path = .ok primitive → primitive.isInteger = true →
      ∃ type, res = ⟨.enum type, [.enum type]⟩ ∧ type.backing.primitive = primitive.widened ∧
        ((∀ k ∈ type.entries, Fits type.backing k.literal) ↔ ∀ token ∈ enumerated values, ∃ n,
          readEnumValue token primitive.widened = .ok (.int n) ∧ primitive.widened.InRange n)) ∧
    ∀ t v expression, t.primitive.isInteger = true →
      defaultInitializer (.primitive t) v = .ok (some expression) →
        (Fits t expression ↔ ∃ n, v.toInt = .ok n ∧ t.primitive.InRange n) := by
  refine ⟨?_, ?_⟩
  · intro traits base values name package owner? path res primitive h classified integer
    obtain ⟨type, found, rfl, enumerable, widened, constants⟩ := resolveEnum_constants h
    obtain rfl : primitive = found := Except.ok.inj (classified.symm.trans enumerable.classified)
    rw [← widened] at constants
    refine ⟨type, rfl, widened, ?_⟩
    rw [← widened]
    exact literals_fit_iff integer widened constants
  · intro t v expression integer h
    obtain ⟨n, hn, written⟩ := integerOf?_defaultInitializer integer h
    rw [fits_iff written, hn]
    simp

/-- The ends of both widths, as constants and as a default. -/
theorem integers_fit_ends : ∃ type, (generator {}).resolver.resolveEnum
      (.enum { format := .str "int32" } .integer [.int (-2147483648), .str "2147483647"]) "Size" ["io", "disk"]
      (some "io.Disk") "io.Disk.size" = .ok ⟨.enum type, [.enum type]⟩ ∧
    (∀ k ∈ type.entries, Fits type.backing k.literal) ∧
    defaultInitializer (.primitive { name := "java.lang.Long", primitive := .int64 }) (.str "-9223372036854775808") =
      .ok (some "-9223372036854775808L") ∧
    Fits { name := "java.lang.Long", primitive := .int64 } "-9223372036854775808L" := by
  obtain ⟨enums, defaults⟩ := integers_fit_iff {} sanitizer {}
  obtain ⟨res, h⟩ : ∃ res, (generator {}).resolver.resolveEnum
      (.enum { format := .str "int32" } .integer [.int (-2147483648), .str "2147483647"]) "Size" ["io", "disk"]
      (some "io.Disk") "io.Disk.size" = .ok res := ⟨_, rfl⟩
  obtain ⟨type, rfl, -, fit⟩ := enums _ _ _ _ _ _ _ res .int32 h rfl rfl
  have lowest : defaultInitializer (.primitive { name := "java.lang.Long", primitive := .int64 })
      (.str "-9223372036854775808") = .ok (some "-9223372036854775808L") := rfl
  have held := (defaults _ _ _ rfl lowest).2 ⟨-9223372036854775808, rfl, by decide⟩
  refine ⟨type, h, fit.2 fun token ht => ?_, lowest, held⟩
  obtain rfl | rfl : token = .int (-2147483648) ∨ token = .str "2147483647" := by
    simpa [enumerated, Value.isNull] using ht
  · exact ⟨-2 ^ 31, rfl, by decide⟩
  · exact ⟨2 ^ 31 - 1, rfl, by decide⟩

/-- One more than the greatest integer of each width becomes a constant and a default all the same. -/
theorem integers_beyond_range :
    (∃ type, (generator {}).resolver.resolveEnum (.enum { format := .str "int32" } .integer [.int 2147483648]) "Size"
        ["io", "disk"] (some "io.Disk") "io.Disk.size" = .ok ⟨.enum type, [.enum type]⟩ ∧
      type.entries.map (·.literal) = ["2147483648"] ∧ ∀ k ∈ type.entries, ¬ Fits type.backing k.literal) ∧
    (∃ type, (generator {}).resolver.resolveEnum (.enum {} .integer [.int 9223372036854775808]) "Size"
        ["io", "disk"] (some "io.Disk") "io.Disk.size" = .ok ⟨.enum type, [.enum type]⟩ ∧
      type.entries.map (·.literal) = ["9223372036854775808L"] ∧ ∀ k ∈ type.entries, ¬ Fits type.backing k.literal) ∧
    defaultInitializer (.primitive { name := "java.lang.Integer", primitive := .int32 }) (.int 2147483648) =
      .ok (some "2147483648") ∧
    ¬ Fits { name := "java.lang.Integer", primitive := .int32 } "2147483648" :=
  ⟨⟨_, rfl, by decide +kernel, by decide +kernel⟩, ⟨_, rfl, by decide +kernel, by decide +kernel⟩, rfl,
    by decide +kernel⟩

/-- A default that is an integer of the type is rendered as that integer, or left out when the integer is too long to be
written. Of the others, those are rendered that have an integer: truth and numbers with a fraction, which are then
rendered as another value than they are. -/
theorem integer_default_exact_iff (integer : t.primitive.isInteger = true) (v : Value) (path : String) :
    (∀ n, parseEnumValue v t.primitive path = .ok (.int n) →
      (Text.isShort n = true → ∃ expression,
        defaultInitializer (.primitive t) v = .ok (some expression) ∧ integerOf? t expression = some n) ∧
      (Text.isShort n = false → defaultInitializer (.primitive t) v = .ok none)) ∧
    ∀ expression, defaultInitializer (.primitive t) v = .ok (some expression) →
      (∃ n, v.toInt = .ok n ∧ integerOf? t expression = some n) ∧
      ((∃ n, parseEnumValue v t.primitive path = .ok (.int n) ∧ integerOf? t expression = some n) ↔
        v.isRounded = false) := by
  have accepted (n : Int) : parseEnumValue v t.primitive path = .ok (.int n) ↔
      v.isRounded = false ∧ v.toInt = .ok n := by
    rw [parseEnumValue_eq_ok, readEnumValue_integer_eq_ok integer]
    simp
  refine ⟨fun n hn => ?_, fun expression h => ?_⟩
  · obtain ⟨-, whole⟩ := (accepted n).1 hn
    refine ⟨fun short => ?_, defaultInitializer_long integer whole⟩
    exact ⟨_, (defaultInitializer_integer integer).2 ⟨n, whole, short, rfl⟩, integerOf?_frame t n⟩
  · obtain ⟨n, hn, written⟩ := integerOf?_defaultInitializer integer h
    refine ⟨⟨n, hn, written⟩, ?_, fun whole => ⟨n, (accepted n).2 ⟨whole, hn⟩, written⟩⟩
    rintro ⟨m, hm, -⟩
    exact ((accepted m).1 hm).1

/-- A text with blanks around it, a sign and a zero in front, as an integer of any size. -/
theorem integer_default_exact_padded :
    Primitive.isInteger .bigInteger = true ∧
    defaultInitializer (.primitive { name := "java.math.BigInteger", primitive := .bigInteger }) (.str " +07 ") =
      .ok (some "new java.math.BigInteger(\"7\")") ∧
    ∃ n, parseEnumValue (.str " +07 ") .bigInteger "size" = .ok (.int n) ∧
      integerOf? { name := "java.math.BigInteger", primitive := .bigInteger } "new java.math.BigInteger(\"7\")" =
        some n := by
  have rendered : defaultInitializer (.primitive { name := "java.math.BigInteger", primitive := .bigInteger })
      (.str " +07 ") = .ok (some "new java.math.BigInteger(\"7\")") := rfl
  obtain ⟨-, agrees⟩ := integer_default_exact_iff
    (t := { name := "java.math.BigInteger", primitive := .bigInteger }) rfl (.str " +07 ") "size"
  exact ⟨rfl, rendered, (agrees _ rendered).2.2 rfl⟩

/-- A fraction is rendered as its integer part and truth as one, though neither is a value of the type. -/
theorem integer_default_rounded :
    defaultInitializer (.primitive { name := "java.lang.Integer", primitive := .int32 })
      (.float (.ofDecimal false 15 (-1))) = .ok (some "1") ∧
    (∀ n, parseEnumValue (.float (.ofDecimal false 15 (-1))) .int32 "size" ≠ .ok (.int n)) ∧
    defaultInitializer (.primitive { name := "java.lang.Long", primitive := .int64 }) (.bool true) =
      .ok (some "1L") ∧
    ∀ n, parseEnumValue (.bool true) .int64 "size" ≠ .ok (.int n) := by
  refine ⟨by decide +kernel, fun n h => ?_, rfl, nofun⟩
  have fraction : Value.isRounded (.float (.ofDecimal false 15 (-1))) = true := by decide +kernel
  have whole := ((readEnumValue_integer_eq_ok rfl).1 (parseEnumValue_eq_ok.1 h)).1
  rw [fraction] at whole
  cases whole

end Java

end ResourceCompiler
