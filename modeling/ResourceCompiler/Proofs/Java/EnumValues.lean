import ResourceCompiler.Proofs.Java.Packages
import ResourceCompiler.Proofs.Json.Number
import ResourceCompiler.Proofs.Key
import ResourceCompiler.Proofs.Resolver.Constants

/-!
# Values of enums

The constants of an enum are told apart by their names. The name of a text or of a truth value comes from the value, the
name of a number from the text that it is listed as. So only numbers can be listed twice, and they are exactly when two
different texts among those listed are read as one number (`values_distinct_iff`). Integers that are listed as such
have one text each, and these keep their difference as names of constants (`distinct_integers_resolve`).
-/

namespace ResourceCompiler

/-- Whether constants of the type are named after the texts that their values are read from. -/
def Primitive.isNumber : Primitive → Bool
  | .string | .boolean => false
  | _ => true

namespace Resolver

variable {r : Resolver} {primitive : Primitive} {path : String} {one : Scalar → Scalar → Bool} {a b : Value}
  {v w : Scalar} {tokens : List Value} {entries : List EnumEntry}

/-- Whether two tokens were read, and as values that count as one. -/
def sameReading (one : Scalar → Scalar → Bool) : Except Fault Scalar → Except Fault Scalar → Bool
  | .ok v, .ok w => one v w
  | _, _ => false

/-- Whether two different texts among the tokens are read as numbers that count as one. -/
def respelled (one : Scalar → Scalar → Bool) (primitive : Primitive) (tokens : List Value) : Bool :=
  primitive.isNumber && tokens.any fun a => tokens.any fun b =>
    a.text != b.text && sameReading one (readEnumValue a primitive) (readEnumValue b primitive)

/-- What counts values as one keeps texts and truth values apart. -/
structure TellsApart (one : Scalar → Scalar → Bool) : Prop where
  symm : ∀ v w, one v w = true → one w v = true
  text : ∀ s t, one (.str s) (.str t) = true → s = t
  truth : ∀ p q, one (.bool p) (.bool q) = true → p = q

theorem sameReading_eq_true {x y : Except Fault Scalar} :
    sameReading one x y = true ↔ ∃ v w, x = .ok v ∧ y = .ok w ∧ one v w = true := by
  cases x <;> cases y <;> simp [sameReading]

theorem respelled_eq_true : respelled one primitive tokens = true ↔
    primitive.isNumber = true ∧ ∃ a ∈ tokens, ∃ b ∈ tokens, a.text ≠ b.text ∧
      sameReading one (readEnumValue a primitive) (readEnumValue b primitive) = true := by
  simp [respelled]

theorem ConstantOf.read {token : Value} {k : EnumEntry} (h : r.ConstantOf primitive path token k) :
    readEnumValue token primitive = .ok k.value :=
  parseEnumValue_eq_ok.1 h.value

theorem pairwise_constants (h : List.Forall₂ (r.ConstantOf primitive path) tokens entries) :
    (entries.map (·.value)).Pairwise (fun v w => one v w = false) ↔
      tokens.Pairwise fun a b =>
        sameReading one (readEnumValue a primitive) (readEnumValue b primitive) = false := by
  have readings : entries.map (fun k => (.ok k.value : Except Fault Scalar)) =
      tokens.map fun token => readEnumValue token primitive :=
    map_eq_of_forall₂ h fun _ _ hk => hk.read.symm
  rw [← List.pairwise_map (f := fun token => readEnumValue token primitive)
    (R := fun x y => sameReading one x y = false), ← readings, List.pairwise_map, List.pairwise_map]
  rfl

theorem enumIdentifier_of_isNumber (h : primitive.isNumber = true) :
    r.enumIdentifier a v primitive = r.names.constant a.text true := by
  cases primitive <;> first | rfl | cases h

/-- Values that count as one have constants of one name, unless they are numbers with different texts. -/
theorem enumIdentifier_eq (apart : TellsApart one) (hv : readEnumValue a primitive = .ok v)
    (hw : readEnumValue b primitive = .ok w) (same : one v w = true)
    (texts : primitive.isNumber = true → a.text = b.text) :
    r.enumIdentifier a v primitive = r.enumIdentifier b w primitive := by
  cases primitive with
  | string =>
    obtain ⟨s, rfl⟩ := hasType_of_read hv
    obtain ⟨t, rfl⟩ := hasType_of_read hw
    rw [apart.text s t same]
    rfl
  | boolean =>
    obtain ⟨p, rfl⟩ := hasType_of_read hv
    obtain ⟨q, rfl⟩ := hasType_of_read hw
    rw [apart.truth p q same]
    rfl
  | int32 | int64 | bigInteger | float | double =>
    rw [enumIdentifier_of_isNumber rfl, enumIdentifier_of_isNumber rfl, texts rfl]

theorem constantName?_of_read (h : readEnumValue a primitive = .ok v) :
    r.constantName? primitive path a = some (r.enumIdentifier a v primitive) := by
  rw [constantName?, parseEnumValue_eq_ok.2 h]
  rfl

/-- Values under distinct names are distinct, unless a number has two texts. -/
theorem pairwise_values_iff (apart : TellsApart one)
    (constants : List.Forall₂ (r.ConstantOf primitive path) tokens entries)
    (distinct : (entries.map (·.identifier)).Nodup) :
    (entries.map (·.value)).Pairwise (fun v w => one v w = false) ↔ respelled one primitive tokens = false := by
  rw [pairwise_constants constants, ← Bool.not_eq_true, respelled_eq_true]
  constructor
  · rintro differ ⟨-, a, ha, b, hb, texts, same⟩
    have symm : Std.Symm fun a b =>
        sameReading one (readEnumValue a primitive) (readEnumValue b primitive) = false := by
      refine ⟨fun a b hab => Bool.eq_false_iff.2 fun hba => ?_⟩
      obtain ⟨v, w, hv, hw, hvw⟩ := sameReading_eq_true.1 hba
      rw [sameReading_eq_true.2 ⟨w, v, hw, hv, apart.symm v w hvw⟩] at hab
      cases hab
    have := differ.forall ha hb fun he => texts (congrArg Value.text he)
    rw [same] at this
    cases this
  · intro single
    -- tokens have distinct names, so none of two with one name can stand beside the other
    have names : tokens.Pairwise fun a b => r.constantName? primitive path a ≠ r.constantName? primitive path b :=
      List.pairwise_map.1 ((distinct_iff constants).2 distinct)
    refine names.imp_of_mem fun {a b} ha hb hne => Bool.eq_false_iff.2 fun same => hne ?_
    obtain ⟨v, w, hv, hw, hvw⟩ := sameReading_eq_true.1 same
    have texts : primitive.isNumber = true → a.text = b.text := by
      intro number
      by_contra texts
      exact single ⟨number, a, ha, b, hb, texts, same⟩
    rw [constantName?_of_read hv, constantName?_of_read hw, enumIdentifier_eq apart hv hw hvw texts]

end Resolver

namespace Java

open Resolver

theorem tellsApart_same : TellsApart Scalar.same where
  symm _ _ := Scalar.same_symm
  text s t h := by simpa [Scalar.same] using h
  truth p q h := by cases p <;> cases q <;> first | rfl | cases h

/-- Names in data tell texts and truth values apart, each among themselves. -/
theorem tellsApart_dataName : TellsApart fun v w => dataName v = dataName w where
  symm _ _ h := decide_eq_true (of_decide_eq_true h).symm
  text _ _ h := of_decide_eq_true h
  truth p q h := by cases p <;> cases q <;> first | rfl | exact absurd (of_decide_eq_true h) (by decide)

/-- The values of an enum are distinct exactly when no two texts among those listed are read as one number. So are the
names that its constants have in data, exactly when no two texts are read as numbers with one name. -/
theorem values_distinct_iff {r : Resolver} {traits : Traits} {base : Basic} {values : List Value} {name : String}
    {package : List String} {owner? : Option String} {path : String} {res : Resolution}
    (h : r.resolveEnum (.enum traits base values) name package owner? path = .ok res) :
    ∃ type, res = ⟨.enum type, [.enum type]⟩ ∧
      ((type.entries.map (·.value)).Pairwise (fun v w => v.same w = false) ↔
        respelled Scalar.same type.backing.primitive (enumerated values) = false) ∧
      ((type.entries.map fun k => dataName k.value).Nodup ↔
        respelled (fun v w => dataName v = dataName w) type.backing.primitive (enumerated values) = false) := by
  obtain ⟨type, primitive, rfl, enumerable, widened, constants⟩ := resolveEnum_constants h
  have distinct := (distinct_iff constants).1 enumerable.distinct
  rw [← widened] at constants
  refine ⟨type, rfl, pairwise_values_iff tellsApart_same constants distinct, ?_⟩
  rw [← pairwise_values_iff tellsApart_dataName constants distinct, List.Nodup, List.pairwise_map, List.pairwise_map]
  simp

/-- Numbers that are listed as integers and as texts, beside null. -/
theorem values_distinct_sizes : ∃ type, (generator {}).resolver.resolveEnum
      (.enum { nullable := .bool true } .integer [.int 1, .null, .str "-2", .str "+3"]) "Size" ["io", "disk"]
      (some "io.Disk") "io.Disk.size" = .ok ⟨.enum type, [.enum type]⟩ ∧
    (type.entries.map (·.value)).Pairwise (fun v w => v.same w = false) ∧
    (type.entries.map fun k => dataName k.value).Nodup := by
  obtain ⟨res, h⟩ : ∃ res, (generator {}).resolver.resolveEnum
      (.enum { nullable := .bool true } .integer [.int 1, .null, .str "-2", .str "+3"]) "Size" ["io", "disk"]
      (some "io.Disk") "io.Disk.size" = .ok res := ⟨_, rfl⟩
  obtain ⟨type, rfl, values, names⟩ := values_distinct_iff h
  have long : type.backing.primitive = .int64 := by
    cases h
    rfl
  rw [long] at values names
  exact ⟨type, h, values.2 (by decide +kernel), names.2 (by decide +kernel)⟩

/-- Two texts of one number become two constants that have one name in data. -/
theorem values_repeat : ∃ type, (generator {}).resolver.resolveEnum (.enum {} .integer [.int 1, .str "01"]) "Size"
      ["io", "disk"] (some "io.Disk") "io.Disk.size" = .ok ⟨.enum type, [.enum type]⟩ ∧
    type.entries.map (·.identifier) = ["V__1", "V__01"] ∧ type.entries.map (·.value) = [.int 1, .int 1] ∧
    type.entries.map (fun k => dataName k.value) = ["1", "1"] ∧
    ¬ (type.entries.map (·.value)).Pairwise (fun v w => v.same w = false) :=
  ⟨_, rfl, by decide +kernel, by decide +kernel, by decide +kernel, by decide +kernel⟩

/-! ### Integers -/

section

variable {cs : List Char} (digits : ∀ c ∈ cs, c.isDigit = true)
include digits

theorem replaced_digits : cs.map (fun c => if c.isAlphanum || c = '_' then c else '_') = cs := by
  refine (List.map_congr_left fun c hc => if_pos ?_).trans (List.map_id cs)
  rw [Naming.isAlphanum_of_isDigit (digits c hc), Bool.true_or]

theorem upper_digits : cs.map Char.toUpper = cs := by
  refine (List.map_congr_left fun c hc => Char.toUpper_eq_of_not_isLower fun low => ?_).trans (List.map_id cs)
  have letter := Naming.isAlpha_of_isDigit (digits c hc)
  rw [Char.isAlpha, low, Bool.or_true] at letter
  cases letter

/-- Digits get a mark in front, since no name starts with one. -/
theorem constant_digits (nonempty : cs ≠ []) :
    sanitizer.constant (String.ofList cs) true = String.ofList ("V__".toList ++ cs) := by
  unfold Sanitizer.constant
  dsimp only
  rw [String.toList_ofList, replaced_digits digits]
  obtain ⟨c, ds, rfl⟩ := List.exists_cons_of_ne_nil nonempty
  have first : (c :: ds).head?.any Char.isDigit = true := digits c List.mem_cons_self
  simp only [List.isEmpty_cons, Bool.false_eq_true, if_false, if_true, upper_digits digits, first, Bool.true_or]
  exact congrArg String.ofList (escape_capital rfl _)

/-- A minus sign becomes an underscore, and the mark is in front of it. -/
theorem constant_minus :
    sanitizer.constant (String.ofList ('-' :: cs)) true = String.ofList ("V__".toList ++ '_' :: cs) := by
  unfold Sanitizer.constant
  dsimp only
  rw [String.toList_ofList, List.map_cons, replaced_digits digits]
  have sign : (if '-'.isAlphanum || '-' = '_' then '-' else '_') = '_' := by decide
  have upper : '_'.toUpper = '_' := by decide
  simp only [sign, List.isEmpty_cons, Bool.false_eq_true, if_false, if_true, List.map_cons, upper, upper_digits digits]
  exact congrArg String.ofList (escape_capital rfl _)

end

theorem constant_ofInt (n : Int) : sanitizer.constant (Text.ofInt n) true = String.ofList ("V__".toList ++
    if n < 0 then '_' :: Nat.toDigits 10 n.natAbs else Nat.toDigits 10 n.natAbs) := by
  have digits : ∀ c ∈ Nat.toDigits 10 n.natAbs, c.isDigit = true := fun c hc =>
    Nat.isDigit_of_mem_toDigits (by decide) (by decide) hc
  unfold Text.ofInt Text.intChars
  split
  · exact constant_minus digits
  · exact constant_digits digits Nat.toDigits_ne_nil

theorem constant_ofInt_injective : Function.Injective fun n : Int => sanitizer.constant (Text.ofInt n) true := by
  have unsigned (m n : Nat) : '_' :: Nat.toDigits 10 m ≠ Nat.toDigits 10 n := by
    intro h
    have mem : '_' ∈ Nat.toDigits 10 n := h ▸ List.mem_cons_self
    exact absurd (Nat.isDigit_of_mem_toDigits (by decide) (by decide) mem) (by decide)
  have magnitude : Function.Injective (Nat.toDigits 10) := Function.LeftInverse.injective Text.digitsToNat_toDigits
  intro m n h
  have same : sanitizer.constant (Text.ofInt m) true = sanitizer.constant (Text.ofInt n) true := h
  rw [constant_ofInt, constant_ofInt, String.ofList_inj, List.append_cancel_left_eq] at same
  -- one case for each pair of signs, where an underscore tells different ones apart
  split at same <;> split at same
  · have := magnitude (List.cons.inj same).2
    omega
  · exact absurd same (unsigned _ _)
  · exact absurd same.symm (unsigned _ _)
  · have := magnitude same
    omega

theorem isInteger_of_classify {format : Value} {path : String} {primitive : Primitive}
    (h : classify (.basic .integer) format path = .ok primitive) : primitive.widened.isInteger = true := by
  obtain ⟨f, -, h⟩ := bind_eq_ok.1 h
  unfold Primitive.ofIntegerFormat? at h
  split at h
  · next known =>
    cases h
    split at known <;> cases known <;> rfl
  · exact absurd h failShape_ne_ok

theorem enumerated_integers (ns : List Int) : enumerated (ns.map .int) = ns.map .int := by
  simp [enumerated, Value.isNull]

section

variable {r : Resolver} {traits : Traits} {ns : List Int} {path : String} {primitive : Primitive}
  (known : classify (.basic .integer) traits.format path = .ok primitive)
include known

theorem enumIdentifier_integer (n : Int) :
    r.enumIdentifier (.int n) (.int n) primitive.widened = r.names.constant (Text.ofInt n) true := by
  have integer := isInteger_of_classify known
  refine enumIdentifier_of_isNumber ?_
  revert integer
  cases primitive.widened <;> decide

theorem enumerable_integers (names : r.names = sanitizer) (nonempty : ns ≠ []) (distinct : ns.Nodup)
    (short : ∀ n ∈ ns, Text.isShort n = true) : r.Enumerable traits .integer (ns.map .int) path primitive where
  classified := known
  nullable := by
    rintro ⟨v, hv, null⟩
    obtain ⟨n, -, rfl⟩ := List.mem_map.1 hv
    cases null
  listed := by
    obtain ⟨n, hn⟩ := List.exists_mem_of_ne_nil ns nonempty
    exact ⟨.int n, List.mem_map_of_mem hn, rfl⟩
  accepted := by
    rw [enumerated_integers]
    intro v hv
    obtain ⟨n, -, rfl⟩ := List.mem_map.1 hv
    exact ⟨.int n, parseEnumValue_eq_ok.2 (readEnumValue_int (isInteger_of_classify known) n)⟩
  written := by
    rw [enumerated_integers]
    intro v hv
    obtain ⟨n, hn, rfl⟩ := List.mem_map.1 hv
    exact short n hn
  distinct := by
    have named (n : Int) : r.constantName? primitive.widened path (.int n) =
        some (sanitizer.constant (Text.ofInt n) true) := by
      rw [constantName?_of_read (readEnumValue_int (isInteger_of_classify known) n), enumIdentifier_integer known, names]
    rw [enumerated_integers, List.map_map]
    refine distinct.map fun m n h => constant_ofInt_injective (Option.some.inj ?_)
    exact (named m).symm.trans (h.trans (named n))

end

/-- Distinct integers that can be written become an enum with one constant for each of them, in order, whatever type of
integers it has: the names of the constants tell the integers apart. -/
theorem distinct_integers_resolve {config : Config} {types : TypeNames} {traits : Traits} {ns : List Int}
    {name : String} {package : List String} {owner? : Option String} {path : String} {primitive : Primitive}
    (nonempty : ns ≠ []) (distinct : ns.Nodup) (short : ∀ n ∈ ns, Text.isShort n = true)
    (known : classify (.basic .integer) traits.format path = .ok primitive) :
    (Function.Injective fun n : Int => sanitizer.constant (Text.ofInt n) true) ∧
    ∃ type, (⟨config, sanitizer, types.dialect⟩ : Resolver).resolveEnum (.enum traits .integer (ns.map .int)) name
        package owner? path = .ok ⟨.enum type, [.enum type]⟩ ∧
      type.entries.map (·.value) = ns.map .int ∧
      type.entries.map (·.identifier) = ns.map fun n => sanitizer.constant (Text.ofInt n) true := by
  have enumerable : (⟨config, sanitizer, types.dialect⟩ : Resolver).Enumerable traits .integer (ns.map .int) path
      primitive := enumerable_integers known rfl nonempty distinct short
  obtain ⟨res, h⟩ : ∃ res, (⟨config, sanitizer, types.dialect⟩ : Resolver).resolveEnum
      (.enum traits .integer (ns.map .int)) name package owner? path = .ok res :=
    enumerable.run fun _ _ _ _ written hv => exists_literal types written hv
  obtain ⟨type, found, rfl, accepted, -, constants⟩ := resolveEnum_constants h
  obtain rfl : primitive = found := Except.ok.inj (known.symm.trans accepted.classified)
  rw [enumerated_integers, List.forall₂_map_left_iff] at constants
  have value {n : Int} {k : EnumEntry} (hk : (⟨config, sanitizer, types.dialect⟩ : Resolver).ConstantOf
      primitive.widened path (.int n) k) : k.value = .int n :=
    (Except.ok.inj ((readEnumValue_int (isInteger_of_classify known) n).symm.trans hk.read)).symm
  refine ⟨constant_ofInt_injective, type, h, map_eq_of_forall₂ constants fun n k hk => value hk,
    map_eq_of_forall₂ constants fun n k hk => ?_⟩
  rw [hk.identifier, value hk, enumIdentifier_integer known]

/-- Neighbours, opposites and an integer that no fixed width holds, without a format. -/
theorem distinct_integers_resolve_levels : [3, -3, 30, 0, 10 ^ 30].Nodup ∧
    (∀ n ∈ [3, -3, 30, 0, 10 ^ 30], Text.isShort n = true) ∧
    ∃ type, (generator {}).resolver.resolveEnum (.enum {} .integer ([3, -3, 30, 0, 10 ^ 30].map .int)) "Level"
        ["io", "lamp"] (some "io.Lamp") "io.Lamp.level" = .ok ⟨.enum type, [.enum type]⟩ ∧
      type.entries.map (·.identifier) = ["V__3", "V___3", "V__30", "V__0", "V__1000000000000000000000000000000"] := by
  have distinct : [3, -3, 30, 0, (10 : Int) ^ 30].Nodup := by decide
  have short : ∀ n ∈ [3, -3, 30, 0, (10 : Int) ^ 30], Text.isShort n = true := by decide +kernel
  obtain ⟨-, type, h, -, names⟩ := @distinct_integers_resolve {} {} {} [3, -3, 30, 0, 10 ^ 30] "Level" ["io", "lamp"]
    (some "io.Lamp") "io.Lamp.level" .bigInteger (by decide) distinct short rfl
  exact ⟨distinct, short, type, h, names.trans (by decide +kernel)⟩

end Java

end ResourceCompiler
