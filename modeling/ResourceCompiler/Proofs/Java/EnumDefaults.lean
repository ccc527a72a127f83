import ResourceCompiler.Proofs.Java.EnumValues
import ResourceCompiler.Proofs.Reading

/-!
# Defaults of enums

A default of an enum is compared with the values of the constants, which were read from the tokens listed. A token that
is listed is found among them as long as it spells its value; one that does not is read as a value all the same, and is
no default (`listed_default_iff`).
-/

namespace ResourceCompiler

/-- Whether a token spells the value it is read as in the way the value is written: a text is the text of the value, and
an integer is no other number. -/
def Value.Spells (token : Value) (value : Scalar) : Prop :=
  match token, value with
  | .str s, v => s = v.text
  | .int n, .float x => x.equalsInt n = true
  | _, _ => True

/-- Whether two values are one: the same, or equal as numbers. -/
def Scalar.Agrees (v w : Scalar) : Prop :=
  v = w ∨ v.same w = true

/-- Whether two values are of one kind. -/
def Scalar.Alike : Scalar → Scalar → Prop
  | .str _, .str _ | .bool _, .bool _ | .int _, .int _ | .float _, .float _ => True
  | _, _ => False

variable {token : Value} {primitive : Primitive} {value v w : Scalar}

theorem Scalar.HasType.alike (hv : v.HasType primitive) (hw : w.HasType primitive) : w.Alike v := by
  cases primitive <;> obtain ⟨a, rfl⟩ := hv <;> obtain ⟨b, rfl⟩ := hw <;> exact trivial

theorem Text.ofInt_injective : Function.Injective Text.ofInt := fun _ _ h =>
  Java.constant_ofInt_injective (congrArg (Java.sanitizer.constant · true) h)

namespace Java

open Resolver

/-- Whether a default is taken for a constant of the value, where both can be written. -/
def meets (token : Value) (w : Scalar) : Bool :=
  token.equalsScalar w || w.text = token.text

theorem isTakenFor_eq (written : token.hasText = true) (short : w.hasText = true) :
    isTakenFor token w = .ok (meets token w) := by
  unfold isTakenFor meets
  rw [Value.toText_eq_ok.2 ⟨written, rfl⟩, Scalar.toText_eq_ok.2 ⟨short, rfl⟩]
  cases token.equalsScalar w <;> rfl

theorem meets_iff : meets token w = true ↔ token.equalsScalar w = true ∨ w.text = token.text := by
  simp [meets]

theorem text_ne_boolText (x : Binary64) (b : Bool) : x.text ≠ (Scalar.bool b).text := by
  intro same
  have none : Text.readFloat? (Scalar.bool b).text = none := by cases b <;> decide +kernel
  have read := x.readFloat?_text
  rw [same, none] at read
  cases read

theorem equalsInt_unit {x : Binary64} {b : Bool} (h : Binary64.ofInt (if b then 1 else 0) = x) :
    x.equalsInt (if b then 1 else 0) = true := by
  rw [← h]
  cases b <;> decide +kernel

theorem lower_boolText (b : Bool) : String.ofList ((Scalar.bool b).text.toList.map Char.toLower) =
    if b then "true" else "false" := by
  cases b <;> decide +kernel

/-- A token that spells its value is taken for it. -/
theorem meets_of_spells (h : Reading token value) (spelled : token.Spells value) : meets token value = true := by
  rw [meets_iff]
  cases h with
  | text => exact Or.inr rfl
  | truth b => exact Or.inr rfl
  | word _ => exact Or.inr (Eq.symm spelled)
  | integer n => exact Or.inr rfl
  | whole exact => exact Or.inl exact
  | numeral _ => exact Or.inr (Eq.symm spelled)
  | number x => exact Or.inr rfl
  | rounded _ => exact Or.inl spelled
  | unit h => exact Or.inl (equalsInt_unit h)
  | decimal _ => exact Or.inr (Eq.symm spelled)

theorem exists_scalar (h : token.equalsScalar w = true) : ∃ t, token = .scalar t ∧ w.same t = true := by
  unfold Value.equalsScalar at h
  split at h
  · exact ⟨_, rfl, h⟩
  · cases h

theorem text_of_meets {s : String} (m : meets token (.str s) = true) : s = token.text := by
  rcases meets_iff.1 m with same | text
  · obtain ⟨t, rfl, equal⟩ := exists_scalar same
    rw [Scalar.same_str (Scalar.same_symm equal)]
    rfl
  · exact text

/-- A text equals no value of another kind, so that only its characters count. -/
theorem text_of_meets_str {s : String} (kind : w.Alike value) (other : ∀ t, value ≠ .str t)
    (m : meets (.str s) w = true) : w.text = s := by
  rcases meets_iff.1 m with same | text
  · obtain ⟨t, ht, equal⟩ := exists_scalar same
    cases ht
    have whole : w = .str s := Scalar.same_str equal
    subst whole
    cases value with
    | str t => exact absurd rfl (other t)
    | _ => cases kind
  · exact text

theorem bool_of_meets {b b' : Bool} (m : meets (.bool b) (.bool b') = true) : b' = b := by
  rcases meets_iff.1 m with same | text
  · cases b <;> cases b' <;> first | rfl | cases same
  · cases b <;> cases b' <;> first | rfl | exact absurd text (by decide)

theorem int_of_meets {n k : Int} (m : meets (.int n) (.int k) = true) : k = n := by
  rcases meets_iff.1 m with same | text
  · exact of_decide_eq_true same
  · exact Text.ofInt_injective text

theorem boolText_injective {b b' : Bool} (name : String.ofList ((Scalar.bool b').text.toList.map Char.toLower) =
    if b then "true" else "false") : b' = b := by
  rw [lower_boolText] at name
  cases b <;> cases b' <;> first | rfl | exact absurd name (by decide)

/-- A token is taken for no other value than its own, and only if it spells it. -/
theorem agrees_of_meets (h : Reading token value) (kind : w.Alike value) (m : meets token w = true) :
    w.Agrees value ∧ token.Spells value := by
  -- what equals the same scalar is equal
  have trans {t : Scalar} (hw : w.same t = true) (hv : value.same t = true) : w.Agrees value :=
    Or.inr (Scalar.same_trans hw (Scalar.same_symm hv))
  cases h with
  | text =>
    cases w with
    | str s =>
      refine ⟨Or.inl (congrArg Scalar.str (text_of_meets m)), ?_⟩
      unfold Value.Spells
      split <;> first | rfl | trivial
    | _ => cases kind
  | truth b =>
    cases w with
    | bool b' => exact ⟨Or.inl (congrArg Scalar.bool (bool_of_meets m)), trivial⟩
    | _ => cases kind
  | @word s b name =>
    have text := text_of_meets_str kind nofun m
    cases w with
    | bool b' =>
      subst text
      rw [boolText_injective name]
      exact ⟨Or.inl rfl, rfl⟩
    | _ => cases kind
  | integer n =>
    cases w with
    | int k => exact ⟨Or.inl (congrArg Scalar.int (int_of_meets m)), trivial⟩
    | _ => cases kind
  | @whole x n exact =>
    cases w with
    | int k =>
      rcases meets_iff.1 m with same | text
      · exact ⟨trans (t := .float x) same exact, trivial⟩
      · exact absurd text.symm (x.text_ne_ofInt k)
    | _ => cases kind
  | @numeral s n read =>
    have text := text_of_meets_str kind nofun m
    cases w with
    | int k =>
      subst text
      rw [Text.readInt?_ofInt read]
      exact ⟨Or.inl rfl, rfl⟩
    | _ => cases kind
  | number x =>
    cases w with
    | float y =>
      rcases meets_iff.1 m with same | text
      · exact ⟨Or.inr same, trivial⟩
      · exact ⟨Or.inl (congrArg Scalar.float (Binary64.text_injective text)), trivial⟩
    | _ => cases kind
  | @rounded n x nearest =>
    cases w with
    | float y =>
      rcases meets_iff.1 m with same | text
      · have exact : x.equalsInt n = true := nearest ▸ Binary64.equalsInt_ofInt same
        exact ⟨trans (t := .int n) same exact, exact⟩
      · exact absurd text (y.text_ne_ofInt n)
    | _ => cases kind
  | @unit b x nearest =>
    cases w with
    | float y =>
      rcases meets_iff.1 m with same | text
      · exact ⟨trans (t := .bool b) same (equalsInt_unit nearest), trivial⟩
      · exact absurd text (text_ne_boolText y b)
    | _ => cases kind
  | @decimal s x read =>
    have text := text_of_meets_str kind nofun m
    cases w with
    | float y =>
      subst text
      have read : Text.readFloat? y.text = some x := read
      rw [y.readFloat?_text, Option.some.injEq] at read
      rw [read]
      exact ⟨Or.inl rfl, rfl⟩
    | _ => cases kind

variable {r : Resolver} {path : String} {tokens : List Value} {type : EnumType}

section

variable (constants : List.Forall₂ (r.ConstantOf primitive path) tokens type.entries)
include constants

theorem defaultInitializer_enum (h : token.isNull = false) (written : token.hasText = true) :
    defaultInitializer (.enum type) token =
      .ok ((type.entries.find? fun k => meets token k.value).map fun k => type.name ++ "." ++ k.identifier) := by
  have tested : ∀ k ∈ type.entries, isTakenFor token k.value = .ok (meets token k.value) := fun k hk => by
    obtain ⟨_, -, constant⟩ := exists_of_mem_right constants hk
    exact isTakenFor_eq written (hasText_of_read constant.written constant.read)
  unfold defaultInitializer
  rw [h, if_neg Bool.false_ne_true]
  dsimp only
  rw [enumDefault, findM?_eq_ok tested]
  rfl

theorem alike_constants {k l : EnumEntry} (hk : k ∈ type.entries) (hl : l ∈ type.entries) :
    l.value.Alike k.value := by
  obtain ⟨a, -, first⟩ := exists_of_mem_right constants hk
  obtain ⟨b, -, second⟩ := exists_of_mem_right constants hl
  exact (hasType_of_read first.read).alike (hasType_of_read second.read)

theorem default_of_spells {k : EnumEntry} (hk : k ∈ type.entries) (h : Reading token k.value)
    (nonnull : token.isNull = false) (written : token.hasText = true) (spelled : token.Spells k.value) :
    ∃ l ∈ type.entries, l.value.Agrees k.value ∧
      defaultInitializer (.enum type) token = .ok (some (type.name ++ "." ++ l.identifier)) := by
  have some : (type.entries.find? fun l => meets token l.value).isSome = true :=
    List.find?_isSome.2 ⟨k, hk, meets_of_spells h spelled⟩
  obtain ⟨l, found⟩ := Option.isSome_iff_exists.1 some
  have hl := List.mem_of_find?_eq_some found
  -- it may be a constant before the token's own that is found
  have met := List.find?_some found
  have agrees := (agrees_of_meets h (alike_constants constants hk hl) met).1
  refine ⟨l, hl, agrees, ?_⟩
  rw [defaultInitializer_enum constants nonnull written, found]
  rfl

theorem default_of_not_spells {k : EnumEntry} (hk : k ∈ type.entries) (h : Reading token k.value)
    (nonnull : token.isNull = false) (written : token.hasText = true) (unspelled : ¬ token.Spells k.value) :
    defaultInitializer (.enum type) token = .ok none := by
  have none : (type.entries.find? fun l => meets token l.value) = none := by
    refine List.find?_eq_none.2 fun l hl m => unspelled ?_
    exact (agrees_of_meets h (alike_constants constants hk hl) m).2
  rw [defaultInitializer_enum constants nonnull written, none]
  rfl

end

/-- A default that is one of the tokens of its enum is rendered as a constant of the token's value, if the token spells
its value, and otherwise it is not rendered. -/
theorem listed_default_iff {traits : Traits} {base : Basic} {values : List Value} {name : String}
    {package : List String} {owner? : Option String} {res : Resolution}
    (h : r.resolveEnum (.enum traits base values) name package owner? path = .ok res) :
    ∃ type, res = ⟨.enum type, [.enum type]⟩ ∧ ∀ token ∈ enumerated values, ∃ value,
      parseEnumValue token type.backing.primitive path = .ok value ∧
      (token.Spells value → ∃ k ∈ type.entries, k.value.Agrees value ∧
        defaultInitializer (.enum type) token = .ok (some (type.name ++ "." ++ k.identifier))) ∧
      (¬ token.Spells value → defaultInitializer (.enum type) token = .ok none) := by
  obtain ⟨type, primitive, rfl, -, widened, constants⟩ := resolveEnum_constants h
  refine ⟨type, rfl, fun token ht => ?_⟩
  obtain ⟨k, hk, constant⟩ := exists_of_mem_left constants ht
  have nonnull : token.isNull = false := by simpa using (List.mem_filter.1 ht).2
  have reading := reading_of_read constant.read
  rw [widened]
  exact ⟨k.value, constant.value, default_of_spells constants hk reading nonnull constant.written,
    default_of_not_spells constants hk reading nonnull constant.written⟩

/-- Two texts of integers beside an integer and null: the one with a plus sign is no default. -/
theorem listed_default_sizes : ∃ type, (generator {}).resolver.resolveEnum
      (.enum { nullable := .bool true } .integer [.int 1, .null, .str "-2", .str "+3"]) "Size" ["io", "disk"]
      (some "io.Disk") "io.Disk.size" = .ok ⟨.enum type, [.enum type]⟩ ∧
    (∃ k ∈ type.entries, k.value.Agrees (.int (-2)) ∧
      defaultInitializer (.enum type) (.str "-2") = .ok (some (type.name ++ "." ++ k.identifier))) ∧
    defaultInitializer (.enum type) (.str "+3") = .ok none := by
  obtain ⟨res, h⟩ : ∃ res, (generator {}).resolver.resolveEnum
      (.enum { nullable := .bool true } .integer [.int 1, .null, .str "-2", .str "+3"]) "Size" ["io", "disk"]
      (some "io.Disk") "io.Disk.size" = .ok res := ⟨_, rfl⟩
  obtain ⟨type, rfl, listed⟩ := listed_default_iff h
  have long : type.backing.primitive = .int64 := by
    cases h
    rfl
  obtain ⟨two, readTwo, found, -⟩ := listed (.str "-2") (by simp [enumerated, Value.isNull])
  obtain ⟨three, readThree, -, lost⟩ := listed (.str "+3") (by simp [enumerated, Value.isNull])
  rw [long] at readTwo readThree
  obtain rfl : .int (-2) = two := Except.ok.inj readTwo
  obtain rfl : .int 3 = three := Except.ok.inj readThree
  have unspelled : ¬ "+3" = (Scalar.int 3).text := by decide +kernel
  exact ⟨type, h, found rfl, lost unspelled⟩

/-- A truth value that is listed as a text is no default, as that text, and neither is a number with a zero in front. -/
theorem listed_default_lost :
    (∃ type, (generator {}).resolver.resolveEnum (.enum {} .boolean [.str "true", .str "false"]) "Mode" ["io", "disk"]
        (some "io.Disk") "io.Disk.mode" = .ok ⟨.enum type, [.enum type]⟩ ∧
      type.entries.map (·.value) = [.bool true, .bool false] ∧
      defaultInitializer (.enum type) (.str "true") = .ok none) ∧
    ∃ type, (generator {}).resolver.resolveEnum (.enum {} .integer [.str "01"]) "Size" ["io", "disk"]
        (some "io.Disk") "io.Disk.size" = .ok ⟨.enum type, [.enum type]⟩ ∧
      type.entries.map (·.value) = [.int 1] ∧ defaultInitializer (.enum type) (.str "01") = .ok none :=
  ⟨⟨_, rfl, by decide +kernel, rfl⟩, _, rfl, by decide +kernel, rfl⟩

end Java

end ResourceCompiler
