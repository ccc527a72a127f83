import ResourceCompiler.Java.Generator
import ResourceCompiler.Proofs.Naming.Reduction
import ResourceCompiler.Proofs.Resolver.Steps

/-!
# The fields of a class

A class has a field for each property that the reduction of collisions keeps, in order, and after them at
most one more, the map of all undeclared keys. `Resolver.FieldsOf` says what each field is made of;
`resolveObject_classFields` proves it of the class of any fragment, among them objects and the maps that are
made a class. That identifiers are distinct follows from the groups of the reduction for the declared fields,
and from a look-up among these for the last one.
-/

namespace ResourceCompiler

namespace Resolver

/-- The field of a property that is kept, of the type that the fragment has as a member of the class. -/
structure FieldOf (r : Resolver) (scope : Scope) (depth : Int) (required : List Scalar) (m : Member)
    (f : Field Descriptor) : Prop where
  identifier : f.identifier = m.identifier
  rawName : f.rawName = m.name
  type : ∃ res, r.resolve (r.names.typeName m.name.text) scope.memberPackage (some scope.className)
    (scope.path ++ "." ++ m.name.text) (depth + 1) m.node = .ok res ∧ f.type = res.type
  required : f.required = true ↔ ∃ name ∈ required, name.same m.name = true
  nullable : f.nullable = m.node.traits.nullable
  default : f.default? = m.node.traits.default?
  deprecated : m.node.isDeprecated = .ok f.deprecated
  description : f.description = m.node.traits.description

/-- The field of all undeclared keys: a map to what the schema of their values resolves to, if there is one. -/
structure CatchAllOf (r : Resolver) (scope : Scope) (depth : Int) (additional : Additional Node)
    (f : Field Descriptor) : Prop where
  identifier : f.identifier = additionalProperties
  typed : ∀ schema, additional = .typed schema → ∃ value,
    r.resolve (r.names.typeName additionalProperties) scope.memberPackage (some scope.className)
      (scope.path ++ ".\x7b\x7d") (depth + 1) schema = .ok value ∧
      f.type = .map (r.types.mapOf value.type.name) value.type
  untyped : (∀ schema, additional ≠ .typed schema) →
    f.type = .map (r.types.mapOf r.types.object) (.existing r.types.object)

/-- What the fields of the class of a fragment are. -/
structure FieldsOf (r : Resolver) (node : Node) (scope : Scope) (depth : Int) (t : ObjectType Descriptor) :
    Prop where
  declared : ∃ kept, reduceCollisions r.names node.properties scope.path = .ok kept ∧
    List.Forall₂ (r.FieldOf scope depth node.required) kept (t.fields.filter (!·.catchAll))
  exists_catchAll : (∃ f ∈ t.fields, f.catchAll = true) ↔ additionalOf node ≠ .closed ∨
    node.traits.preservesUnknown = true ∨ r.config.preservesUnknown.truthy = true
  catchAll : ∀ f ∈ t.fields, f.catchAll = true → t.fields = t.fields.filter (!·.catchAll) ++ [f] ∧
    r.CatchAllOf scope depth (additionalOf node) f
  preserves : t.preservesUnknown = true ↔
    (∃ f ∈ t.fields, f.catchAll = true) ∧ ∀ schema, additionalOf node ≠ .typed schema
  distinct : (t.fields.map (·.identifier)).Nodup

variable {r : Resolver} {name : String} {package : List String} {path : String} {depth : Int}
  {res : Resolution}

theorem fieldOf_of_resolvedBy {scope : Scope} {required : List Scalar} {p : ResolvedMember}
    (h : p.ResolvedBy r scope depth required) :
    r.FieldOf scope depth required ⟨r.names.identifier p.name.text, p.name, p.node⟩ p.field := by
  have hf := h.field
  unfold memberField at hf
  obtain ⟨deprecated, hd, hf⟩ := bind_eq_ok.1 hf
  cases hp : p.field
  rw [pure_eq_ok, hp] at hf
  cases hf
  exact ⟨rfl, rfl, ⟨p.resolution, h.resolve, rfl⟩, List.any_eq_true, rfl, rfl, hd, rfl⟩

theorem isSome_undeclared? {traits : Traits} {additional : Additional Node} {typed? : Option Resolution}
    {scope : Scope} (h : r.resolveAdditional scope depth additional = .ok typed?) :
    (r.undeclared? traits additional typed?).isSome = true ↔ additional ≠ .closed ∨
      traits.preservesUnknown = true ∨ r.config.preservesUnknown.truthy = true := by
  rcases resolveAdditional_ok h with ⟨rfl, hn⟩ | ⟨schema, value, rfl, rfl, -⟩
  · cases additional with
    | typed schema => exact absurd rfl (hn schema)
    | closed | «open» => simp [undeclared?, Additional.isOpen, apply_ite]
  · simp [undeclared?]

theorem isNone_typed? {additional : Additional Node} {typed? : Option Resolution} {scope : Scope}
    (h : r.resolveAdditional scope depth additional = .ok typed?) :
    typed?.isNone = true ↔ ∀ schema, additional ≠ .typed schema := by
  rcases resolveAdditional_ok h with ⟨rfl, hn⟩ | ⟨schema, value, rfl, rfl, -⟩
  · simpa using hn
  · simp

namespace Builds

variable {traits : Traits} {properties : List (Scalar × Node)} {required : List Scalar}
  {additional : Additional Node} {parts : List ResolvedMember} {typed? : Option Resolution}
  {t : ObjectType Descriptor}

/-- Of the declared fields the groups of the reduction are distinct; the field of undeclared keys was looked up
among them. -/
theorem identifiers_nodup
    (h : Builds r traits properties required additional name package path depth parts typed? t) :
    (t.fields.map (·.identifier)).Nodup := by
  have named : parts.map ((·.identifier) ∘ ResolvedMember.field) =
      (keptProperties r.names properties).map fun p => r.names.identifier p.1.text := by
    rw [← h.kept, List.map_map]
    exact List.map_congr_left fun p hp => (memberField_ok (h.resolved p hp).field).1
  have declared : (parts.map ((·.identifier) ∘ ResolvedMember.field)).Nodup := by
    rw [named]
    exact keptProperties_nodup h.reduced
  rw [h.fields, List.map_append, List.map_map, List.map_map]
  cases hv : r.undeclared? traits additional typed? with
  | none => simpa using declared
  | some value =>
    refine List.nodup_append.2 ⟨declared, List.nodup_singleton _, fun i hi j hj he => ?_⟩
    obtain ⟨p, hp, rfl⟩ := List.mem_map.1 hi
    refine h.alone (by rw [hv]; rfl) p hp ?_
    rwa [List.mem_singleton.1 hj] at he

theorem catchAllOf
    (h : Builds r traits properties required additional name package path depth parts typed? t)
    {value : Resolution} (hv : r.undeclared? traits additional typed? = some value) :
    r.CatchAllOf (r.scopeOf name package path) depth additional (r.catchAll value).field := by
  refine ⟨rfl, fun schema hs => ?_, fun hn => ?_⟩
  · rcases resolveAdditional_ok h.typed with ⟨-, hn⟩ | ⟨schema', value', hs', rfl, hr⟩
    · exact absurd hs (hn schema)
    · cases hs.symm.trans hs'
      cases hv
      exact ⟨value, hr, rfl⟩
  · obtain rfl : typed? = none := Option.isNone_iff_eq_none.1 ((isNone_typed? h.typed).2 hn)
    rw [(undeclared?_none_eq_some.1 hv).2]
    rfl

end Builds

theorem Builds.fieldsOf {node : Node} {parts : List ResolvedMember} {typed? : Option Resolution}
    {t : ObjectType Descriptor}
    (h : Builds r node.traits node.properties node.required (additionalOf node) name package path depth parts
      typed? t) : r.FieldsOf node (r.scopeOf name package path) depth t := by
  refine ⟨⟨_, reduceCollisions_ok_iff.2 ⟨h.reduced, rfl⟩, ?_⟩,
    h.exists_catchAll_iff.trans (isSome_undeclared? h.typed), fun f hf hc => ?_, ?_, h.identifiers_nodup⟩
  · rw [h.declared_fields, ← h.kept, List.map_map, List.forall₂_map_left_iff, List.forall₂_map_right_iff]
    exact List.forall₂_same.2 fun p hp => fieldOf_of_resolvedBy (h.resolved p hp)
  · obtain ⟨value, hv, rfl⟩ := h.mem_fields_catchAll.1 ⟨hf, hc⟩
    refine ⟨?_, h.catchAllOf hv⟩
    rw [h.declared_fields, h.fields, hv]
    rfl
  · rw [h.preserves, Bool.and_eq_true, isNone_typed? h.typed, h.exists_catchAll_iff, and_comm]

/-- The class of a fragment, unless an existing type stands for it, has a field for each property that the
reduction of collisions keeps, in order, and a last one for undeclared keys exactly if the fragment or the
configuration lets there be any. All identifiers are distinct. -/
theorem resolveObject_classFields (r : Resolver) (node : Node) (name : String) (package : List String)
    (path : String) (depth : Int) (res : Resolution)
    (h : r.resolveObject node name package path depth = .ok res)
    (hx : r.config.existingType? (Naming.qualified package name) = none) :
    ∃ t, res = ⟨.object t, t.nested ++ [.object t]⟩ ∧
      r.FieldsOf node (r.scopeOf name package path) depth t := by
  cases resolveObject_ok h with
  | replaced hr =>
    rw [hx] at hr
    cases hr
  | built hb => exact ⟨_, rfl, hb.fieldsOf⟩

/-- A port under two spellings, a name that is required, and labels under other keys. -/
def poolNode : Node :=
  .object {} portProperties [.str "name"] (.typed (.array {} (.basic {} .string)))

theorem resolveObject_classFields_pool : ∃ t, (Java.generator {}).resolver.resolveObject poolNode "Pool" ["io"] "" 0 =
      .ok ⟨.object t, t.nested ++ [.object t]⟩ ∧
    (Java.generator {}).resolver.FieldsOf poolNode ⟨"io.Pool", "io.Pool", ["io", "pool"]⟩ 0 t ∧
    t.fields.map (fun f => (f.identifier, f.required, f.catchAll)) =
      [("name", true, false), ("hostPort", false, false), ("additionalProperties", false, true)] := by
  obtain ⟨t, h, fields⟩ : ∃ t, (Java.generator {}).resolver.resolveObject poolNode "Pool" ["io"] "" 0 =
        .ok ⟨.object t, t.nested ++ [.object t]⟩ ∧
      t.fields.map (fun f => (f.identifier, f.required, f.catchAll)) =
        [("name", true, false), ("hostPort", false, false), ("additionalProperties", false, true)] :=
    ⟨_, rfl, by decide +kernel⟩
  obtain ⟨t', he, hf⟩ := resolveObject_classFields (Java.generator {}).resolver poolNode "Pool" ["io"] "" 0 _ h rfl
  cases he
  exact ⟨t, h, hf, fields⟩

end Resolver

end ResourceCompiler
