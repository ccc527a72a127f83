import Mathlib.Data.List.Nodup
import ResourceCompiler.Java.Generator
import ResourceCompiler.Proofs.Primitive
import ResourceCompiler.Proofs.Resolver.Steps

/-!
# The constants of an enum

The values of an enum are read, named and compared with those before them one by one. `enumEntries_eq_ok` takes the
run apart: it succeeds exactly when every value is read, and no constant has the name of another one. `Enumerable`
says what a fragment needs to become an enum; a repeated name is reported with the two values that have it.
-/

namespace ResourceCompiler

/-- The type of the constants' values: integers without a format are long ones. -/
def Primitive.widened : Primitive → Primitive
  | .bigInteger => .int64
  | p => p

namespace Resolver

variable {r : Resolver} {primitive : Primitive} {path : String} {traits : Traits} {base : Basic}
  {values tokens : List Value} {entries : List EnumEntry} {name : String} {package : List String}
  {owner? : Option String}

/-- The values of an enum that become constants. -/
def enumerated (values : List Value) : List Value :=
  values.filter (!·.isNull)

/-- The identifier of a token's constant, when the token is a value of the type. -/
def constantName? (r : Resolver) (primitive : Primitive) (path : String) (token : Value) : Option String :=
  (parseEnumValue token primitive path).toOption.map (r.enumIdentifier token · primitive)

/-- What an enum of the values needs, when the type of its values is classified as the primitive. -/
structure Enumerable (r : Resolver) (traits : Traits) (base : Basic) (values : List Value) (path : String)
    (primitive : Primitive) : Prop where
  classified : classify (.basic base) traits.format path = .ok primitive
  nullable : (∃ v ∈ values, v.isNull = true) → traits.nullable.truthy = true
  listed : ∃ v ∈ values, v.isNull = false
  accepted : ∀ token ∈ enumerated values, ∃ value, parseEnumValue token primitive.widened path = .ok value
  written : ∀ token ∈ enumerated values, token.hasText = true
  distinct : ((enumerated values).map (r.constantName? primitive.widened path)).Nodup

/-- The token repeats the name of one before it, where up to there every token is read and has a name of its own. All of
them can be written. -/
structure Repeats (r : Resolver) (primitive : Primitive) (path : String) (before : List Value) (first token : Value)
    (identifier : String) : Prop where
  accepted : ∀ t ∈ before, ∃ value, parseEnumValue t primitive path = .ok value
  written : ∀ t ∈ token :: before, t.hasText = true
  distinct : (before.map (r.constantName? primitive path)).Nodup
  earlier : first ∈ before
  named : r.constantName? primitive path first = some identifier
  repeated : r.constantName? primitive path token = some identifier

theorem enumTokens_eq_ok : enumTokens (.enum traits base values) path = .ok tokens ↔
    ((∃ v ∈ values, v.isNull = true) → traits.nullable.truthy = true) ∧ (∃ v ∈ values, v.isNull = false) ∧
      tokens = enumerated values := by
  have listed : (enumerated values).isEmpty = false ↔ ∃ v ∈ values, v.isNull = false := by
    simp [enumerated, ← Bool.not_eq_true, List.isEmpty_iff, List.filter_eq_nil_iff]
  unfold enumTokens
  rw [Node.enumValues, Node.traits, ← listed]
  split
  · next refused =>
    have refused : (∃ v ∈ values, v.isNull = true) ∧ traits.nullable.truthy = false := by simpa using refused
    simp [refused]
  · next allowed =>
    have allowed : (∃ v ∈ values, v.isNull = true) → traits.nullable.truthy = true := by simpa using allowed
    show (if (enumerated values).isEmpty then failShape .emptyEnum (.str path) else pure (enumerated values)) =
      .ok tokens ↔ _
    cases (enumerated values).isEmpty with
    | true => simp
    | false =>
      rw [if_neg (by decide), pure_eq_ok]
      exact ⟨fun h => ⟨allowed, rfl, h.symm⟩, fun h => h.2.2.symm⟩

theorem enumBacking_eq_ok {backing : PrimitiveType} (h : r.enumBacking (.enum traits base values) path = .ok backing) :
    ∃ primitive, classify (.basic base) traits.format path = .ok primitive ∧
      backing.primitive = primitive.widened := by
  obtain ⟨found, hf, h⟩ := bind_eq_ok.1 h
  obtain ⟨primitive, hp, hf⟩ := bind_eq_ok.1 hf
  cases hf
  refine ⟨primitive, hp, ?_⟩
  cases primitive <;> cases h <;> rfl

theorem exists_enumBacking (h : classify (.basic base) traits.format path = .ok primitive) :
    ∃ backing, r.enumBacking (.enum traits base values) path = .ok backing ∧
      backing.primitive = primitive.widened := by
  have found : r.resolvePrimitive (.basic { format := traits.format } base) path = .ok {
      name := r.types.primitive primitive, primitive, format := traits.format } := bind_eq_ok.2 ⟨primitive, h, rfl⟩
  unfold enumBacking
  rw [Node.traits, Node.enumBase, found]
  cases primitive <;> exact ⟨_, rfl, rfl⟩

theorem ConstantOf.named {token : Value} {k : EnumEntry} (h : r.ConstantOf primitive path token k) :
    r.constantName? primitive path token = some k.identifier := by
  rw [constantName?, h.value, h.identifier]
  rfl

/-- The constants of tokens have the names of the tokens. -/
theorem names_of_constants (h : List.Forall₂ (r.ConstantOf primitive path) tokens entries) :
    tokens.map (r.constantName? primitive path) = (entries.map (·.identifier)).map some := by
  rw [List.map_map]
  exact (map_eq_of_forall₂ h fun _ _ hk => hk.named.symm).symm

theorem lookup_concat_eq_none {seen : List (String × String)} {name text other : String} :
    (seen ++ [(name, text)]).lookup other = none ↔ seen.lookup other = none ∧ other ≠ name := by
  rw [List.lookup_append, Option.or_eq_none_iff, List.lookup_cons]
  by_cases h : other = name <;> simp [h, beq_eq_false_iff_ne.2]

/-- A constant whose name is free takes it. -/
theorem enumEntries_cons {seen : List (String × String)} {token : Value} {k : EnumEntry}
    (constant : r.ConstantOf primitive path token k) (free : seen.lookup k.identifier = none) (rest : List Value) :
    r.enumEntries primitive path seen (token :: rest) = (do
      return k :: (← r.enumEntries primitive path (seen ++ [(k.identifier, token.text)]) rest)) := by
  have text : (liftM token.toText : Except Failure String) = .ok token.text :=
    liftM_eq_ok.2 (Value.toText_eq_ok.2 ⟨constant.written, rfl⟩)
  simp only [enumEntries, constant.value, text, bind, Except.bind, ← constant.identifier, free, constant.literal]

theorem enumEntries_eq_ok {seen : List (String × String)} : r.enumEntries primitive path seen tokens = .ok entries ↔
    List.Forall₂ (r.ConstantOf primitive path) tokens entries ∧ (entries.map (·.identifier)).Nodup ∧
      ∀ k ∈ entries, seen.lookup k.identifier = none := by
  induction tokens generalizing seen entries with
  | nil =>
    rw [enumEntries, List.forall₂_nil_left_iff]
    constructor
    · rintro ⟨⟩
      simp
    · rintro ⟨rfl, -⟩
      rfl
  | cons token tokens ih =>
    constructor
    · intro h
      rw [enumEntries] at h
      obtain ⟨value, hv, h⟩ := bind_eq_ok.1 h
      obtain ⟨text, ht, h⟩ := bind_eq_ok.1 h
      obtain ⟨written, -⟩ := Value.toText_eq_ok.1 (liftM_eq_ok.1 ht)
      simp only [] at h
      split at h
      · cases h
      · next fresh =>
        simp only [bind_eq_ok, pure_eq_ok] at h
        obtain ⟨literal, hl, rest, hr, rfl⟩ := h
        obtain ⟨constants, distinct, apart⟩ := ih.1 hr
        simp only [lookup_concat_eq_none] at apart
        refine ⟨.cons ⟨hv, written, rfl, hl⟩ constants, ?_, List.forall_mem_cons.2 ⟨fresh, fun k hk => (apart k hk).1⟩⟩
        rw [List.map_cons, List.nodup_cons]
        refine ⟨fun hm => ?_, distinct⟩
        obtain ⟨k, hk, same⟩ := List.mem_map.1 hm
        exact (apart k hk).2 same
    · rintro ⟨constants, distinct, fresh⟩
      cases constants with
      | @cons _ k _ rest constant constants =>
        obtain ⟨first, fresh⟩ := List.forall_mem_cons.1 fresh
        rw [List.map_cons, List.nodup_cons] at distinct
        rw [enumEntries_cons constant first]
        refine bind_eq_ok.2 ⟨rest, ih.2 ⟨constants, distinct.2, fun l hl => ?_⟩, rfl⟩
        exact lookup_concat_eq_none.2 ⟨fresh l hl, fun same => distinct.1 (same ▸ List.mem_map_of_mem hl)⟩

/-- The names that are taken after the tokens, each with the text of its token. -/
def noted (tokens : List Value) (entries : List EnumEntry) : List (String × String) :=
  List.zipWith (fun token k => (k.identifier, token.text)) tokens entries

theorem lookup_noted (h : List.Forall₂ (r.ConstantOf primitive path) tokens entries)
    (distinct : (entries.map (·.identifier)).Nodup) {token : Value} (ht : token ∈ tokens) {name : String}
    (hn : r.constantName? primitive path token = some name) :
    (noted tokens entries).lookup name = some token.text := by
  induction h with
  | nil => cases ht
  | @cons first k tokens entries constant constants ih =>
    rw [List.map_cons, List.nodup_cons] at distinct
    rw [noted, List.zipWith_cons_cons, List.lookup_cons]
    rcases List.mem_cons.1 ht with rfl | ht
    · rw [constant.named, Option.some.injEq] at hn
      rw [hn, beq_self_eq_true]
    · obtain ⟨l, hl, other⟩ := exists_of_mem_left constants ht
      rw [other.named, Option.some.injEq] at hn
      have apart : name ≠ k.identifier := fun same => distinct.1 (same ▸ hn ▸ List.mem_map_of_mem hl)
      rw [beq_eq_false_iff_ne.2 apart]
      exact ih distinct.2 ht

/-- A name that is taken already is reported with the text of the token that took it. -/
theorem enumEntries_repeated {before after : List Value} {seen : List (String × String)} {token : Value}
    {name text : String} (constants : List.Forall₂ (r.ConstantOf primitive path) before entries)
    (distinct : (entries.map (·.identifier)).Nodup) (fresh : ∀ k ∈ entries, seen.lookup k.identifier = none)
    (written : token.hasText = true) (hn : r.constantName? primitive path token = some name)
    (taken : (seen ++ noted before entries).lookup name = some text) :
    r.enumEntries primitive path seen (before ++ token :: after) =
      .error (.generator (.duplicateConstant name [text, token.text] (.str path))) := by
  induction constants generalizing seen with
  | nil =>
    obtain ⟨value, hv, rfl⟩ := Option.map_eq_some_iff.1 hn
    rw [noted, List.zipWith_nil_left, List.append_nil] at taken
    have ht : (liftM token.toText : Except Failure String) = .ok token.text :=
      liftM_eq_ok.2 (Value.toText_eq_ok.2 ⟨written, rfl⟩)
    simp only [List.nil_append, enumEntries, toOption_eq_some.1 hv, ht, bind, Except.bind, taken]
  | @cons first k before entries constant constants ih =>
    obtain ⟨free, fresh⟩ := List.forall_mem_cons.1 fresh
    rw [List.map_cons, List.nodup_cons] at distinct
    rw [noted, List.zipWith_cons_cons, List.append_cons] at taken
    rw [List.cons_append, enumEntries_cons constant free, ih distinct.2 (fun l hl => ?_) taken]
    · rfl
    · exact lookup_concat_eq_none.2 ⟨fresh l hl, fun same => distinct.1 (same ▸ List.mem_map_of_mem hl)⟩

/-- Once its type is classified and its nulls are allowed, an enum depends on its constants alone. -/
theorem exists_resolveEnum_eq (classified : classify (.basic base) traits.format path = .ok primitive)
    (nullable : (∃ v ∈ values, v.isNull = true) → traits.nullable.truthy = true)
    (listed : ∃ v ∈ values, v.isNull = false) :
    ∃ made : List EnumEntry → Resolution, r.resolveEnum (.enum traits base values) name package owner? path =
      (r.enumEntries primitive.widened path [] (enumerated values)).map made := by
  have tokens : enumTokens (.enum traits base values) path = .ok (enumerated values) :=
    enumTokens_eq_ok.2 ⟨nullable, listed, rfl⟩
  obtain ⟨backing, hb, widened⟩ := @exists_enumBacking r primitive path traits base values classified
  unfold resolveEnum
  rw [tokens, hb, ← widened]
  exact ⟨_, rfl⟩

/-- The constants of distinct names are distinct, and the other way round. -/
theorem distinct_iff (h : List.Forall₂ (r.ConstantOf primitive path) tokens entries) :
    (tokens.map (r.constantName? primitive path)).Nodup ↔ (entries.map (·.identifier)).Nodup := by
  rw [names_of_constants h]
  exact List.nodup_map_iff fun _ _ => Option.some.inj

/-- An enum has one constant for each value that is not null, in order. -/
theorem resolveEnum_constants {res : Resolution}
    (h : r.resolveEnum (.enum traits base values) name package owner? path = .ok res) :
    ∃ type primitive, res = ⟨.enum type, [.enum type]⟩ ∧ r.Enumerable traits base values path primitive ∧
      type.backing.primitive = primitive.widened ∧
      List.Forall₂ (r.ConstantOf primitive.widened path) (enumerated values) type.entries := by
  unfold resolveEnum at h
  simp only [bind_eq_ok] at h
  obtain ⟨tokens, ht, backing, hb, entries, he, h⟩ := h
  obtain ⟨nullable, listed, rfl⟩ := enumTokens_eq_ok.1 ht
  obtain ⟨primitive, classified, widened⟩ := enumBacking_eq_ok hb
  rw [widened] at he
  obtain ⟨constants, distinct, -⟩ := enumEntries_eq_ok.1 he
  cases h
  refine ⟨_, primitive, rfl, ⟨classified, nullable, listed, fun token ht => ?_, fun token ht => ?_, ?_⟩, widened,
    constants⟩
  · obtain ⟨k, -, constant⟩ := exists_of_mem_left constants ht
    exact ⟨k.value, constant.value⟩
  · obtain ⟨k, -, constant⟩ := exists_of_mem_left constants ht
    exact constant.written
  · exact (distinct_iff constants).2 distinct

section

variable (literals : ∀ token primitive path value, token.hasText = true →
  parseEnumValue token primitive path = .ok value → ∃ text, r.types.literal value primitive = .ok text)
include literals

/-- Values that are read become constants where all of them have literals. -/
theorem exists_constants (h : ∀ token ∈ tokens, ∃ value, parseEnumValue token primitive path = .ok value)
    (written : ∀ token ∈ tokens, token.hasText = true) :
    ∃ entries, List.Forall₂ (r.ConstantOf primitive path) tokens entries := by
  refine exists_forall₂ fun token ht => ?_
  obtain ⟨value, hv⟩ := h token ht
  obtain ⟨literal, hl⟩ := literals _ _ _ _ (written token ht) hv
  exact ⟨⟨r.enumIdentifier token value primitive, value, literal⟩, hv, written token ht, rfl, hl⟩

theorem Enumerable.run (h : r.Enumerable traits base values path primitive) :
    ∃ res, r.resolveEnum (.enum traits base values) name package owner? path = .ok res := by
  obtain ⟨entries, constants⟩ := exists_constants literals h.accepted h.written
  obtain ⟨made, eq⟩ := exists_resolveEnum_eq h.classified h.nullable h.listed
  have run : r.enumEntries primitive.widened path [] (enumerated values) = .ok entries :=
    enumEntries_eq_ok.2 ⟨constants, (distinct_iff constants).1 h.distinct, fun _ _ => rfl⟩
  rw [eq, run]
  exact ⟨made entries, rfl⟩

/-- Before any value is rejected, a repeated name is reported. -/
theorem resolveEnum_repeated {before after : List Value} {first token : Value} {identifier : String}
    (classified : classify (.basic base) traits.format path = .ok primitive)
    (nullable : (∃ v ∈ values, v.isNull = true) → traits.nullable.truthy = true)
    (split : enumerated values = before ++ token :: after)
    (h : r.Repeats primitive.widened path before first token identifier) :
    r.resolveEnum (.enum traits base values) name package owner? path =
      .error (.generator (.duplicateConstant identifier [first.text, token.text] (.str path))) := by
  obtain ⟨last, written⟩ := List.forall_mem_cons.1 h.written
  obtain ⟨entries, constants⟩ := exists_constants literals h.accepted written
  have distinct := (distinct_iff constants).1 h.distinct
  have taken := lookup_noted constants distinct h.earlier h.named
  have listed : ∃ v ∈ values, v.isNull = false := by
    have member : first ∈ enumerated values := split ▸ List.mem_append_left _ h.earlier
    obtain ⟨hv, hn⟩ := List.mem_filter.1 member
    exact ⟨first, hv, by simpa using hn⟩
  obtain ⟨made, eq⟩ := exists_resolveEnum_eq classified nullable listed
  rw [eq, split, enumEntries_repeated constants distinct (fun _ _ => rfl) last h.repeated taken]
  rfl

end

end Resolver

namespace Java

open Resolver

/-- A value that was read has a literal of its type, if what it was read from can be written. -/
theorem exists_literal (types : TypeNames) {token : Value} {primitive : Primitive} {path : String} {value : Scalar}
    (written : token.hasText = true) (h : parseEnumValue token primitive path = .ok value) :
    ∃ text, types.dialect.literal value primitive = .ok text := by
  have read := parseEnumValue_eq_ok.1 h
  have typed := hasType_of_read read
  have short := hasText_of_read written read
  suffices ∃ text, literal (.scalar value) primitive = .ok text by
    obtain ⟨text, ht⟩ := this
    exact ⟨text, mapError_eq_ok.2 ht⟩
  cases primitive with
  | boolean => exact ⟨_, rfl⟩
  | string | float | double =>
    obtain ⟨_, rfl⟩ := typed
    exact ⟨_, rfl⟩
  | int32 =>
    obtain ⟨n, rfl⟩ := typed
    exact ⟨_, Text.writeInt_eq_ok.2 ⟨short, rfl⟩⟩
  | int64 | bigInteger =>
    obtain ⟨n, rfl⟩ := typed
    exact ⟨_, bind_eq_ok.2 ⟨n, rfl, bind_eq_ok.2 ⟨_, Text.writeInt_eq_ok.2 ⟨short, rfl⟩, rfl⟩⟩⟩

/-- An enum resolves exactly when its type is classified, null is only listed where it is allowed, some other value is
listed, and all other values can be written and are read under distinct names. Each of them becomes one constant, in
order, with its name, its value and its literal. A name that repeats before any value is rejected is reported with the
two values. -/
theorem resolveEnum_iff (config : Config) (names : Sanitizer) (types : TypeNames) (traits : Traits) (base : Basic)
    (values : List Value) (name : String) (package : List String) (owner? : Option String) (path : String) :
    let r : Resolver := ⟨config, names, types.dialect⟩
    let made := r.resolveEnum (.enum traits base values) name package owner? path
    ((∃ res, made = .ok res) ↔ ∃ primitive, r.Enumerable traits base values path primitive) ∧
    (∀ res, made = .ok res → ∃ type primitive, res = ⟨.enum type, [.enum type]⟩ ∧
      classify (.basic base) traits.format path = .ok primitive ∧ type.backing.primitive = primitive.widened ∧
      List.Forall₂ (r.ConstantOf primitive.widened path) (enumerated values) type.entries) ∧
    ∀ primitive before token after first identifier,
      classify (.basic base) traits.format path = .ok primitive →
      ((∃ v ∈ values, v.isNull = true) → traits.nullable.truthy = true) →
      enumerated values = before ++ token :: after →
      r.Repeats primitive.widened path before first token identifier →
      made = .error (.generator (.duplicateConstant identifier [first.text, token.text] (.str path))) := by
  intro r made
  have literals : ∀ token primitive path value, token.hasText = true →
      parseEnumValue token primitive path = .ok value → ∃ text, r.types.literal value primitive = .ok text :=
    fun _ _ _ _ written hv => exists_literal types written hv
  refine ⟨⟨?_, ?_⟩, fun res h => ?_, ?_⟩
  · rintro ⟨res, h⟩
    obtain ⟨_, primitive, -, enumerable, -⟩ := resolveEnum_constants h
    exact ⟨primitive, enumerable⟩
  · rintro ⟨primitive, enumerable⟩
    exact enumerable.run literals
  · obtain ⟨type, primitive, rfl, enumerable, widened, constants⟩ := resolveEnum_constants h
    exact ⟨type, primitive, rfl, enumerable.classified, widened, constants⟩
  · intro primitive before token after first identifier classified nullable split repeats
    exact resolveEnum_repeated literals classified nullable split repeats

/-- Numbers beside null, in two spellings, and texts two of which have one constant. -/
theorem resolveEnum_iff_levels :
    ∃ res, (generator {}).resolver.resolveEnum
        (.enum { nullable := .bool true } .integer [.int 1, .null, .str "-2"]) "Level" ["io", "lamp"]
        (some "io.Lamp") "io.Lamp.level" = .ok res ∧
      (∃ primitive, (generator {}).resolver.Enumerable { nullable := .bool true } .integer
        [.int 1, .null, .str "-2"] "io.Lamp.level" primitive) ∧
      (∃ type primitive, res = ⟨.enum type, [.enum type]⟩ ∧
        List.Forall₂ ((generator {}).resolver.ConstantOf primitive "io.Lamp.level") [.int 1, .str "-2"]
          type.entries) ∧
      (generator {}).resolver.resolveEnum (.enum {} .string [.str "top-left", .str "top", .str "top_left"])
          "Corner" ["io", "lamp"] (some "io.Lamp") "io.Lamp.corner" =
        .error (.generator (.duplicateConstant "TOP_LEFT" ["top-left", "top_left"] (.str "io.Lamp.corner"))) := by
  obtain ⟨resolves, constants, -⟩ := resolveEnum_iff {} sanitizer {} { nullable := .bool true } .integer
    [.int 1, .null, .str "-2"] "Level" ["io", "lamp"] (some "io.Lamp") "io.Lamp.level"
  obtain ⟨-, -, repeats⟩ := resolveEnum_iff {} sanitizer {} {} .string
    [.str "top-left", .str "top", .str "top_left"] "Corner" ["io", "lamp"] (some "io.Lamp") "io.Lamp.corner"
  obtain ⟨res, hres⟩ : ∃ res, (generator {}).resolver.resolveEnum
      (.enum { nullable := .bool true } .integer [.int 1, .null, .str "-2"]) "Level" ["io", "lamp"]
      (some "io.Lamp") "io.Lamp.level" = .ok res := ⟨_, rfl⟩
  obtain ⟨type, primitive, made, -, -, entries⟩ := constants res hres
  refine ⟨res, hres, resolves.1 ⟨res, hres⟩, ⟨type, _, made, entries⟩, ?_⟩
  refine repeats .string [.str "top-left", .str "top"] (.str "top_left") [] (.str "top-left") "TOP_LEFT" rfl
    (by decide) rfl ⟨List.forall_mem_cons.2 ⟨⟨_, rfl⟩, List.forall_mem_singleton.2 ⟨_, rfl⟩⟩, by decide, by decide,
      .head _, rfl, rfl⟩

end Java

end ResourceCompiler
