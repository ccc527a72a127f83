import ResourceCompiler.Proofs.Java.Packages

/-!
# Where nested types stand

A member of a class is placed by the class alone: another class goes to the package of the class extended by
the segment of its simple name, an enum goes inside the class (`Resolver.BuiltAs.member`). So a class that a
path of properties leads to stands below the first one, with a segment for that one and for each property on
the way but the last (`ObjectType.Leads.builtAs`). Segments are made of simple names and not of the properties,
which makes no difference: `Java.packageSegment_typeName`.
-/

namespace ResourceCompiler

/-- The properties lead from the class to the other one, through lists and maps. -/
inductive ObjectType.Leads (t : ObjectType Descriptor) : List Scalar → ObjectType Descriptor → Prop
  | here : Leads t [] t
  | field {names : List Scalar} {w u : ObjectType Descriptor} {f : Field Descriptor} (h : Leads t names w)
      (hf : f ∈ w.fields) (hc : f.type.core = .object u) : Leads t (names ++ [f.rawName]) u

namespace Resolver

variable {r : Resolver} {name : String} {package : List String} {owner? : Option String}
  {t w : ObjectType Descriptor} {f : Field Descriptor} {names : List Scalar}

/-- An object became the class under this name in this package. -/
inductive BuiltAs (r : Resolver) (name : String) (package : List String) (t : ObjectType Descriptor) : Prop
  | intro {traits : Traits} {properties : List (Scalar × Node)} {required : List Scalar}
      {additional : Additional Node} {path : String} {depth : Int} {parts : List ResolvedMember}
      {typed? : Option Resolution}
      (h : Builds r traits properties required additional name package path depth parts typed? t) :
      BuiltAs r name package t

/-- A class or an enum behind lists and maps has the name and the place that were asked for. -/
structure Located (r : Resolver) (name : String) (package : List String) (owner? : Option String)
    (d : Descriptor) : Prop where
  object : ∀ t, d.core = .object t → r.BuiltAs name package t
  enum : ∀ e, d.core = .enum e → e.name = r.enumName package owner? name

theorem Located.existing (type : String) : r.Located name package owner? (.existing type) :=
  ⟨by simp [Descriptor.core], by simp [Descriptor.core]⟩

theorem located (r : Resolver) :
    r.Invariant fun name package owner? res => r.Located name package owner? res.type where
  existing type := .existing type
  primitive type := ⟨by simp [Descriptor.core], by simp [Descriptor.core]⟩
  enum h := by
    obtain ⟨e, rfl, -, named, -⟩ := resolveEnum_ok h
    refine ⟨by simp [Descriptor.core], fun e' he => ?_⟩
    cases he
    exact named
  array h := ⟨h.object, h.enum⟩
  map h := ⟨h.object, h.enum⟩
  built h _ _ := by
    refine ⟨fun t ht => ?_, by simp [Descriptor.core]⟩
    cases ht
    exact .intro h

namespace BuiltAs

theorem simple (h : r.BuiltAs name package t) : t.simpleName = name := by
  cases h with
  | intro h => exact h.simple

theorem placed (h : r.BuiltAs name package t) : t.package = package := by
  cases h with
  | intro h => exact h.placed

theorem named (h : r.BuiltAs name package t) : t.name = Naming.qualified package name := by
  cases h with
  | intro h => exact h.named

theorem memberPackage (h : r.BuiltAs name package t) :
    r.memberPackage t = package ++ [r.names.packageSegment name] := by
  rw [Resolver.memberPackage, h.placed, h.simple]

/-- A member of a class is named for its property and placed by the class. -/
theorem member (h : r.BuiltAs name package t) (hf : f ∈ t.fields) :
    r.Located (r.names.typeName f.rawName.text) (r.memberPackage t) (some t.name) f.type := by
  rw [h.memberPackage, h.named]
  cases h with
  | intro h =>
    obtain ⟨res, hs⟩ := h.exists_supplied hf
    have here := h.supplied_of_invariant r.located hs
    exact ⟨fun u hu => here.object u (h.core_eq hs ▸ hu), fun e he => here.enum e (h.core_eq hs ▸ he)⟩

end BuiltAs

/-- The class of an object is built under the name and in the package that were asked for. -/
theorem resolveObject_builtAs {node : Node} {path : String} {depth : Int} {res : Resolution}
    (h : r.resolveObject node name package path depth = .ok res) (ht : res.type = .object t) :
    r.BuiltAs name package t :=
  (r.located.resolveObject none h).object t (by rw [ht]; rfl)

end Resolver

namespace ObjectType.Leads

variable {r : Resolver} {name : String} {package : List String} {t w : ObjectType Descriptor}
  {names : List Scalar}

/-- The package of members grows by a segment with each property on the way, when type names give the segments
that the properties give. -/
theorem builtAs (h : t.Leads names w) (ht : r.BuiltAs name package t)
    (fold : ∀ raw, r.names.packageSegment (r.names.typeName raw) = r.names.packageSegment raw) :
    (∃ simple outer, r.BuiltAs simple outer w) ∧
      r.memberPackage w = r.memberPackage t ++ names.map (r.names.packageSegment ·.text) := by
  induction h with
  | here => exact ⟨⟨name, package, ht⟩, by simp⟩
  | @field names w u f _ hf hc ih =>
    obtain ⟨⟨simple, outer, built⟩, grown⟩ := ih
    have next := (built.member hf).object u hc
    exact ⟨⟨_, _, next⟩, by rw [next.memberPackage, fold, grown]; simp⟩

/-- Only the first class can have an empty name. -/
theorem name_eq_empty_iff (h : t.Leads names w) (ht : r.BuiltAs name package t)
    (fold : ∀ raw, r.names.packageSegment (r.names.typeName raw) = r.names.packageSegment raw) :
    w.name = "" ↔ names = [] ∧ package = [] ∧ name = "" := by
  cases h with
  | here => simp [ht.named, Naming.qualified_eq_empty_iff]
  | field before hf hc =>
    obtain ⟨⟨simple, outer, built⟩, -⟩ := before.builtAs ht fold
    have next := (built.member hf).object w hc
    simp [next.named, Naming.qualified_eq_empty_iff, r.names.typeName_ne_empty]

end ObjectType.Leads

namespace Java

open Naming

/-- A name and its type name give the same segment, in which the case of the first letter is lost. -/
theorem packageSegment_typeName (raw : String) :
    sanitizer.packageSegment (sanitizer.typeName raw) = sanitizer.packageSegment raw := by
  rw [Sanitizer.packageSegment, Sanitizer.packageSegment]
  refine congrArg String.ofList ?_
  cases spelling raw with
  | nameless identifier type =>
    rw [identifier, type]
    decide
  | number hc hs identifier type => rw [identifier, type, identifierChars_number hc hs]
  | @letter c cs hc hs identifier type =>
    have upper : c.toUpper.isUpper = true := by rw [Char.isUpper_toUpper_eq_isAlpha, hc]
    rw [identifier, type, identifierChars_capital upper hs, escape_lower_escape, List.map_cons,
      Char.toLower_toUpper_eq_toLower, List.map_cons]

/-- What the properties on the way say about where a type is: a class that a field leads to stands in the
package of the first class, extended by the segment of that class and of each property before the field, and
an enum goes by the name of the class that has the field. Only the first class can be without a name, an empty
one outside of any package, and then its enums go by its segment. -/
theorem nested_location (config : Config) (types : TypeNames) (node : Node) (name : String)
    (package : List String) (path : String) (depth : Int) (res : Resolution) (t : ObjectType Descriptor)
    (h : (⟨config, sanitizer, types.dialect⟩ : Resolver).resolveObject node name package path depth = .ok res)
    (ht : res.type = .object t) : ∀ names w, t.Leads names w → ∀ f ∈ w.fields,
      (∀ u, f.type.core = .object u →
        u.package = package ++ sanitizer.packageSegment name :: names.map (sanitizer.packageSegment ·.text) ∧
        u.simpleName = sanitizer.typeName f.rawName.text ∧ u.name = qualified u.package u.simpleName) ∧
      ∀ e, f.type.core = .enum e →
        e.name = (if names = [] ∧ package = [] ∧ name = "" then "field" else w.name) ++ "." ++
          sanitizer.typeName f.rawName.text := by
  intro names w leads f hf
  have first := Resolver.resolveObject_builtAs h ht
  obtain ⟨⟨simple, outer, built⟩, grown⟩ := leads.builtAs first packageSegment_typeName
  rw [first.memberPackage, List.append_assoc, List.singleton_append] at grown
  have member := built.member hf
  refine ⟨fun u hu => ?_, fun e he => ?_⟩
  · have next := member.object u hu
    exact ⟨next.placed.trans grown, next.simple, by rw [next.named, next.placed, next.simple]⟩
  · rw [member.enum e he, Resolver.enumName]
    simp only [leads.name_eq_empty_iff first packageSegment_typeName, grown]
    split
    · next hn =>
      obtain ⟨rfl, rfl, rfl⟩ := hn
      have segment : sanitizer.packageSegment "" = "field" := by decide
      rw [segment, ← String.toList_inj, List.map_nil, List.nil_append, qualified_toList]
      simp [stem]
    · rfl

/-- Classes behind a list and a map, under a reserved word and under a name with a digit first. -/
def lampNode : Node :=
  .object {} [(.str "class", .array {} (.object {} [(.str "2-way", .map {} (.object {}
    [(.str "mode", .enum {} .string [.str "on"])] [] .closed))] [] .closed))] [] .closed

theorem nested_location_lamp : ∃ res t w f e,
    (generator {}).resolver.resolveObject lampNode "Lamp" ["io"] "" 0 = .ok res ∧ res.type = .object t ∧
      t.Leads [.str "class", .str "2-way"] w ∧ f ∈ w.fields ∧ f.type.core = .enum e ∧
      w.package = ["io", "lamp", "_class"] ∧ e.name = "io.lamp._class._2Way.Mode" ∧
      e.name = w.name ++ "." ++ sanitizer.typeName f.rawName.text := by
  obtain ⟨res, t, g, u, g', w, f, e, h, ht, hg, hu, hn, hg', hw, hn', hf, he, package, name⟩ :
      ∃ res t g u g' w f e,
        (generator {}).resolver.resolveObject lampNode "Lamp" ["io"] "" 0 = .ok res ∧ res.type = .object t ∧
          g ∈ t.fields ∧ g.type.core = .object u ∧ g.rawName = .str "class" ∧
          g' ∈ u.fields ∧ g'.type.core = .object w ∧ g'.rawName = .str "2-way" ∧
          f ∈ w.fields ∧ f.type.core = .enum e ∧
          w.package = ["io", "lamp", "_class"] ∧ e.name = "io.lamp._class._2Way.Mode" :=
    ⟨_, _, _, _, _, _, _, _, rfl, rfl, .head _, rfl, rfl, .head _, rfl, rfl, .head _, rfl, by decide +kernel,
      by decide +kernel⟩
  have leads : t.Leads [.str "class", .str "2-way"] w := hn ▸ hn' ▸ .field (.field .here hg hu) hg' hw
  exact ⟨res, t, w, f, e, h, ht, leads, hf, he, package, name,
    (nested_location {} {} lampNode "Lamp" ["io"] "" 0 res t h ht _ w leads f hf).2 e he⟩

/-- An enum of a class without a name. -/
theorem nested_location_nameless : ∃ res t f e,
    (generator {}).resolver.resolveObject (.object {} [(.str "mode", .enum {} .string [.str "on"])] [] .closed)
        "" [] "" 0 = .ok res ∧ res.type = .object t ∧ f ∈ t.fields ∧ f.catchAll = false ∧
      f.type.core = .enum e ∧ e.name = "field.Mode" ∧
      e.name ≠ t.name ++ "." ++ sanitizer.typeName f.rawName.text :=
  ⟨_, _, _, _, rfl, rfl, .head _, rfl, rfl, by decide +kernel, by decide +kernel⟩

end Java

end ResourceCompiler
