import ResourceCompiler.Proofs.Java.Identifiers
import ResourceCompiler.Proofs.Primitive
import ResourceCompiler.Proofs.Resolver.Closed

/-!
# Enums inside their classes

An enum names the class that declares it. That class is in the compilation once and has one field of the
enum, so that going through the classes finds every enum once (`enums_declared_once`). What clashes inside
a class or an enum is told from names in the schema (`scopes_clash_iff`): an enum with its class when the
class is that of a property with the same name, a constant with the field that holds its value when texts
keep their case.
-/

namespace ResourceCompiler

/-- This element of the list and no other has the property. -/
def Only {α : Type} (P : α → Prop) (xs : List α) (x : α) : Prop :=
  ∃ before after, xs = before ++ x :: after ∧ P x ∧ ∀ y ∈ before ++ after, ¬ P y

theorem Only.of_nodup {α κ : Type} {key : α → κ} {xs : List α} {x : α} (hn : (xs.map key).Nodup)
    (hx : x ∈ xs) : Only (fun y => key y = key x) xs x := by
  obtain ⟨before, after, rfl⟩ := List.append_of_mem hx
  refine ⟨before, after, rfl, rfl, fun y hy he => ?_⟩
  rw [List.map_append, List.map_cons, List.nodup_middle, List.nodup_cons, ← List.map_append] at hn
  exact hn.1 (he ▸ List.mem_map_of_mem hy)

/-- The elements by their keys are all elements, when each key is among the distinct ones. -/
theorem flatMap_filter_perm {α κ : Type} [DecidableEq κ] {key : α → κ} {keys : List κ} {xs : List α}
    (hn : keys.Nodup) (hk : ∀ x ∈ xs, key x ∈ keys) :
    List.Perm (keys.flatMap fun k => xs.filter fun x => key x = k) xs := by
  induction keys generalizing xs with
  | nil =>
    rw [List.eq_nil_iff_forall_not_mem.2 fun x hx => List.not_mem_nil (hk x hx)]
    exact .refl _
  | cons k keys ih =>
    obtain ⟨hm, hn⟩ := List.nodup_cons.1 hn
    have others : ∀ x ∈ xs.filter (fun x => !decide (key x = k)), key x ∈ keys := by
      intro x hx
      obtain ⟨hx, hne⟩ := List.mem_filter.1 hx
      exact (List.mem_cons.1 (hk x hx)).resolve_left (by simpa using hne)
    have rest : keys.flatMap (fun k' => xs.filter fun x => key x = k') =
        keys.flatMap fun k' => (xs.filter (fun x => !decide (key x = k))).filter fun x => key x = k' := by
      refine List.flatMap_congr fun k' hk' => ?_
      rw [List.filter_filter]
      refine List.filter_congr fun x _ => ?_
      by_cases he : key x = k'
      · have hne : key x ≠ k := fun h => hm (h ▸ he ▸ hk')
        simp [he, he ▸ hne]
      · simp [he]
    rw [List.flatMap_cons, rest]
    exact ((ih hn others).append_left _).trans (List.filter_append_perm _ xs)

namespace Resolver.Compiles

variable {r : Resolver} {c : Compilation} {t : ObjectType Descriptor} {f : Field Descriptor} {e : EnumType}

/-- An enum was made for the property of a field. -/
theorem exists_field (h : r.Compiles c) (he : e ∈ c.inner) :
    ∃ t, .object t ∈ c.topLevel ∧ ∃ f ∈ t.fields, f.type.core = .enum e ∧
      r.Makes (r.names.typeName f.rawName.text) (some t.name) e := by
  have hm : .enum e ∈ c.artifacts := List.mem_append_right _ (List.mem_map_of_mem he)
  obtain ⟨t, ht, f, hf, hc⟩ := h.closed.declared e hm
  exact ⟨t, mem_topLevel ht, f, hf, hc, (h.closed.built t ht).makes hf hc⟩

/-- The enum of a field is an enum of the compilation. -/
theorem mem_inner_of_field (h : r.Compiles c) (ht : .object t ∈ c.topLevel) (hf : f ∈ t.fields)
    (hc : f.type.core = .enum e) : e ∈ c.inner := by
  have hm : Descriptor.enum e ∈ t.nested := by
    rw [(h.built ht).nested_eq]
    exact List.mem_flatMap.2 ⟨f, hf, Descriptor.mem_flatten_of_core hc⟩
  exact h.mem_inner ((h.closed.nested t (List.mem_append_left _ ht)).subset hm)

theorem unit_unique (h : r.Compiles c) {a b : Descriptor} (ha : a ∈ c.topLevel) (hb : b ∈ c.topLevel)
    (hn : a.name = b.name) : a = b :=
  List.inj_on_of_nodup_map h.units_nodup ha hb hn

/-- What fields hold is generated once, so that no two fields hold one enum. -/
theorem only_field (h : r.Compiles c) (ht : .object t ∈ c.topLevel) (hf : f ∈ t.fields)
    (hc : f.type.core = .enum e) : Only (fun g => g.type.core = .enum e) t.fields f := by
  have distinct : (t.fields.flatMap (·.type.flatten)).Nodup := by
    rw [← (h.built ht).nested_eq]
    obtain ⟨artifacts, hp, hs⟩ := h.closed.nested t (List.mem_append_left _ ht)
    exact hp.nodup_iff.1 (hs.nodup (List.Nodup.of_map _ h.names_nodup))
  obtain ⟨before, after, he⟩ := List.append_of_mem hf
  refine ⟨before, after, he, hc, fun g hg hg' => ?_⟩
  rw [he, List.flatMap_append, List.flatMap_cons, Descriptor.flatten_of_core hc, List.singleton_append,
    List.nodup_middle, List.nodup_cons, ← List.flatMap_append] at distinct
  exact distinct.1 (List.mem_flatMap.2 ⟨g, hg, Descriptor.mem_flatten_of_core hg'⟩)

/-- Going through the classes finds every enum once. -/
theorem innerOf_perm (h : r.Compiles c) : List.Perm (c.topLevel.flatMap fun t => c.innerOf t.name) c.inner := by
  have owned : ∀ e ∈ c.inner, e.owner? ∈ c.topLevel.map fun t => some t.name := by
    intro e he
    obtain ⟨t, ht, f, -, -, made⟩ := h.exists_field he
    rw [made.owner]
    exact List.mem_map_of_mem (f := fun t : Descriptor => some t.name) ht
  have distinct : (c.topLevel.map fun t => some t.name).Nodup := by
    have := h.units_nodup.map (Option.some_injective String)
    rwa [List.map_map] at this
  have := flatMap_filter_perm distinct owned
  rwa [List.flatMap_map] at this

end Resolver.Compiles

/-- The class `t` of the compilation declares the enum for its field `f`. -/
structure Compilation.Declares (c : Compilation) (t : ObjectType Descriptor) (f : Field Descriptor)
    (e : EnumType) : Prop where
  owner : Only (fun a => e.owner? = some a.name) c.topLevel (.object t)
  field : Only (fun g => g.type.core = .enum e) t.fields f

namespace Java

variable {config : Config} {c : Compilation}

/-- The enums of a class have its name in front of theirs. -/
theorem name_of_owner (h : (generator config).resolver.Compiles c) {owner : String} {e : EnumType}
    (he : e ∈ c.inner) (ho : e.owner? = some owner) : e.name = owner ++ "." ++ e.simpleName := by
  obtain ⟨t, ht, f, -, -, made⟩ := h.exists_field he
  rw [made.owner, Option.some.injEq] at ho
  rw [made.named (h.built ht).name_ne_empty, made.simpleName, ← ho]
  rfl

/-- Every enum is declared by one class for one of its fields, under a name inside that class, and going
through the classes finds every enum once. -/
theorem enums_declared_once (config : Config) (c : Compilation)
    (h : (generator config).resolver.Compiles c) :
    (∀ e ∈ c.inner, ∃ t f, c.Declares t f e ∧ e.name = t.name ++ "." ++ e.simpleName) ∧
      List.Perm (c.topLevel.flatMap fun t => c.innerOf t.name) c.inner := by
  refine ⟨fun e he => ?_, h.innerOf_perm⟩
  obtain ⟨t, ht, f, hf, hc, made⟩ := h.exists_field he
  refine ⟨t, f, ⟨?_, h.only_field ht hf hc⟩, name_of_owner h he made.owner⟩
  obtain ⟨before, after, he, hn, others⟩ := Only.of_nodup h.units_nodup ht
  rw [made.owner]
  exact ⟨before, after, he, rfl, fun a ha hn => others a ha (Option.some.inj hn).symm⟩

/-- Enums in a field, inside lists, in a nested class and behind all other keys. -/
def lampValue : Value :=
  .map [(.str "type", .str "object"), (.str "properties", .map [
      (.str "color", .map [(.str "enum", .list [.str "red", .str "value"])]),
      (.str "modes", .map [(.str "type", .str "array"), (.str "items", .map [(.str "type", .str "array"),
        (.str "items", .map [(.str "enum", .list [.str "on", .str "off"])])])]),
      (.str "part", .map [(.str "type", .str "object"), (.str "properties", .map [
        (.str "watts", .map [(.str "type", .str "integer"), (.str "enum", .list [.int 5, .int 9])])])])]),
    (.str "additionalProperties", .map [(.str "enum", .list [.str "x"])])]

theorem enums_declared_once_lamp : ∃ c, (generator {}).resolver.Compiles c ∧
    c.inner.map (·.name) =
      ["io.Lamp.Color", "io.Lamp.Modes", "io.lamp.Part.Watts", "io.Lamp.AdditionalProperties"] ∧
    c.topLevel.map (·.name) = ["io.lamp.Part", "io.Lamp"] ∧
    (∀ e ∈ c.inner, ∃ t f, c.Declares t f e ∧ e.name = t.name ++ "." ++ e.simpleName) ∧
    List.Perm (c.topLevel.flatMap fun t => c.innerOf t.name) c.inner := by
  obtain ⟨c, hc, enums, classes⟩ : ∃ c,
      (generator {}).resolver.compileSchema lampValue "Lamp" (.str "io") = .ok c ∧
        c.inner.map (·.name) =
          ["io.Lamp.Color", "io.Lamp.Modes", "io.lamp.Part.Watts", "io.Lamp.AdditionalProperties"] ∧
        c.topLevel.map (·.name) = ["io.lamp.Part", "io.Lamp"] :=
    ⟨_, rfl, by decide +kernel, by decide +kernel⟩
  obtain ⟨declared, perm⟩ := enums_declared_once {} c (.schema hc)
  exact ⟨c, .schema hc, enums, classes, declared, perm⟩

theorem simpleNames_nodup (h : (generator config).resolver.Compiles c) (owner : String) :
    ((c.innerOf owner).map (·.simpleName)).Nodup := by
  have names : (c.innerOf owner).map ((owner ++ "." ++ ·) ∘ (·.simpleName)) =
      (c.innerOf owner).map (·.name) := by
    refine List.map_congr_left fun e he => ?_
    obtain ⟨he, ho⟩ := List.mem_filter.1 he
    exact (name_of_owner h he (of_decide_eq_true ho)).symm
  refine List.Nodup.of_map (owner ++ "." ++ ·) ?_
  rw [List.map_map, names]
  exact h.enums_nodup.sublist (List.filter_sublist.map _)

/-- An enum is called like its class exactly when the property that it is made for is. -/
theorem mem_simpleNames_iff (h : (generator config).resolver.Compiles c) {t : Descriptor}
    (ht : t ∈ c.topLevel) {name : String} : name ∈ (c.innerOf t.name).map (·.simpleName) ↔
      ∃ f ∈ t.fields, (∃ e, f.type.core = .enum e) ∧ sanitizer.typeName f.rawName.text = name := by
  constructor
  · intro hm
    obtain ⟨e, he, rfl⟩ := List.mem_map.1 hm
    obtain ⟨he, ho⟩ := List.mem_filter.1 he
    obtain ⟨u, hu, f, hf, hc, made⟩ := h.exists_field he
    have ho : e.owner? = some t.name := of_decide_eq_true ho
    rw [made.owner, Option.some.injEq] at ho
    rw [← h.unit_unique hu ht ho]
    exact ⟨f, hf, ⟨e, hc⟩, made.simpleName.symm⟩
  · rintro ⟨f, hf, ⟨e, hc⟩, rfl⟩
    cases t with
    | object u =>
      have made := (h.built ht).makes hf hc
      have he : e ∈ c.innerOf u.name :=
        List.mem_filter.2 ⟨h.mem_inner_of_field ht hf hc, decide_eq_true made.owner⟩
      exact List.mem_map.2 ⟨e, he, made.simpleName⟩
    | _ => cases hf

/-- The name of the field that holds the value of a constant, as the template has it. -/
def valueField : String := "value"

/-- Only the text itself has that name as its constant, and only where its case is kept. -/
theorem constant_eq_valueField {token : String} {uppercase : Bool} :
    sanitizer.constant token uppercase = valueField ↔ uppercase = false ∧ token = valueField := by
  constructor
  · intro h
    have h : sanitizer.constant token uppercase = String.ofList ['v', 'a', 'l', 'u', 'e'] := h
    exact sanitizer.constant_eq_of_isLower rfl (by decide) h
  · rintro ⟨rfl, rfl⟩
    decide

theorem identifier_eq_valueField {primitive : Primitive} {path : String} {token : Value} {k : EnumEntry}
    (hk : (generator config).resolver.ConstantOf primitive path token k) : k.identifier = valueField ↔
      config.enumUppercase.truthy = false ∧ primitive = .string ∧ k.value = .str valueField := by
  -- the constants of numbers are in upper case
  have upper : sanitizer.constant token.text true ≠ valueField := fun h =>
    Bool.noConfusion (constant_eq_valueField.1 h).1
  rw [hk.identifier]
  cases primitive with
  | string =>
    have hv : k.value = .str token.text := (readEnumValue_string_eq_ok.1 (parseEnumValue_eq_ok.1 hk.value)).2
    have named : (generator config).resolver.enumIdentifier token k.value .string =
        sanitizer.constant token.text config.enumUppercase.truthy := by
      rw [hv]
      rfl
    rw [named, constant_eq_valueField, hv]
    simp
  | boolean =>
    have named : (generator config).resolver.enumIdentifier token k.value .boolean ≠ valueField := by
      show (if k.value.truthy then "TRUE" else "FALSE") ≠ valueField
      split <;> decide
    exact ⟨fun h => absurd h named, fun h => by cases h.2.1⟩
  | _ => exact ⟨fun h => absurd h upper, fun h => by cases h.2.1⟩

/-- The enums of a class have distinct names, and one is called like the class exactly when a property of
the class that holds an enum is. A constant is called like the field that all constants have exactly when
the case of texts is kept and the text is the name of that field. -/
theorem scopes_clash_iff (config : Config) (c : Compilation)
    (h : (generator config).resolver.Compiles c) :
    (∀ t ∈ c.topLevel, ((c.innerOf t.name).map (·.simpleName)).Nodup ∧
      (t.simpleName ∈ (c.innerOf t.name).map (·.simpleName) ↔
        ∃ f ∈ t.fields, (∃ e, f.type.core = .enum e) ∧ sanitizer.typeName f.rawName.text = t.simpleName)) ∧
    ∀ e ∈ c.inner, valueField ∈ e.entries.map (·.identifier) ↔
      config.enumUppercase.truthy = false ∧ e.backing.primitive = .string ∧
        .str valueField ∈ e.entries.map (·.value) := by
  refine ⟨fun t ht => ⟨simpleNames_nodup h t.name, mem_simpleNames_iff h ht⟩, fun e he => ?_⟩
  obtain ⟨t, ht, f, -, -, made⟩ := h.exists_field he
  constructor
  · intro hm
    obtain ⟨k, hk, hi⟩ := List.mem_map.1 hm
    obtain ⟨token, path, constant⟩ := made.constants k hk
    obtain ⟨lower, string, hv⟩ := (identifier_eq_valueField constant).1 hi
    exact ⟨lower, string, List.mem_map.2 ⟨k, hk, hv⟩⟩
  · rintro ⟨lower, string, hm⟩
    obtain ⟨k, hk, hv⟩ := List.mem_map.1 hm
    obtain ⟨token, path, constant⟩ := made.constants k hk
    exact List.mem_map.2 ⟨k, hk, (identifier_eq_valueField constant).2 ⟨lower, string, hv⟩⟩

theorem scopes_clash_iff_lamp : ∃ c, (generator {}).resolver.Compiles c ∧
    (∀ t ∈ c.topLevel, ((c.innerOf t.name).map (·.simpleName)).Nodup ∧
      t.simpleName ∉ (c.innerOf t.name).map (·.simpleName)) ∧
    (∀ e ∈ c.inner, valueField ∉ e.entries.map (·.identifier)) ∧
    ∃ e ∈ c.inner, .str valueField ∈ e.entries.map (·.value) := by
  obtain ⟨c, hc, apart, texts⟩ : ∃ c,
      (generator {}).resolver.compileSchema lampValue "Lamp" (.str "io") = .ok c ∧
        (∀ t ∈ c.topLevel, ∀ f ∈ t.fields, sanitizer.typeName f.rawName.text ≠ t.simpleName) ∧
        ∃ e ∈ c.inner, .str valueField ∈ e.entries.map (·.value) :=
    ⟨_, rfl, by decide +kernel, by decide +kernel⟩
  obtain ⟨classes, constants⟩ := scopes_clash_iff {} c (.schema hc)
  refine ⟨c, .schema hc, fun t ht => ⟨(classes t ht).1, fun hm => ?_⟩, fun e he hm => ?_, texts⟩
  · obtain ⟨f, hf, -, hn⟩ := (classes t ht).2.1 hm
    exact apart t ht f hf hn
  · cases ((constants e he).1 hm).1

/-- A class with an enum for a property of its own name, and a text that is the name of a field. -/
def modeValue : Value :=
  .map [(.str "properties", .map [(.str "mode", .map [(.str "properties", .map [
    (.str "mode", .map [(.str "enum", .list [.str "value"])])])])])]

theorem scopes_clash_mode : ∃ c t e,
    (generator { enumUppercase := .bool false }).resolver.compileSchema modeValue "Disk" (.str "io") = .ok c ∧
      t ∈ c.topLevel ∧ t.name = "io.disk.Mode" ∧ c.innerOf t.name = [e] ∧ e.simpleName = t.simpleName ∧
        valueField ∈ e.entries.map (·.identifier) :=
  ⟨_, _, _, rfl, .head _, rfl, rfl, rfl, by decide +kernel⟩

end Java

end ResourceCompiler
