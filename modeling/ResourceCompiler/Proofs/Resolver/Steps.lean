import ResourceCompiler.Proofs.Value.Text
import ResourceCompiler.Resolver

/-!
# What a successful resolution did

`Resolver.Yields` says, one case per way to succeed, which type and which artifacts a fragment got and
from which of its parts they came; `resolve_ok` gives it for every success. A class is made of its
parts (`Builds`): each is one kept property with its own resolution, and all of them are added to the
class in order (`Adds`), the field of undeclared keys last.
-/

namespace ResourceCompiler

/-- What one property adds to its class. -/
structure Contribution where
  property : Scalar
  field : Field Descriptor
  artifacts : List Descriptor

namespace Members

/-- Adding contributions one by one. -/
inductive Adds (path : String) : Members → List Contribution → Members → Prop
  | nil (m : Members) : Adds path m [] m
  | cons {m m₁ m' : Members} {c : Contribution} {cs : List Contribution}
      (step : m.add c.field c.property c.artifacts path = .ok m₁) (rest : Adds path m₁ cs m') :
      Adds path m (c :: cs) m'

variable {path : String} {m m' m'' : Members}

theorem add_ok {f : Field Descriptor} {property : Scalar} {artifacts : List Descriptor}
    (h : m.add f property artifacts path = .ok m') :
    m'.fields = m.fields ++ [f] ∧ m'.artifacts = m.artifacts ++ artifacts ∧
      claim m.claimed property artifacts path = .ok m'.claimed := by
  unfold add at h
  obtain ⟨claimed, hc, h⟩ := bind_eq_ok.1 h
  cases h
  exact ⟨rfl, rfl, hc⟩

namespace Adds

theorem append {cs ds : List Contribution} (h : Adds path m cs m') (h' : Adds path m' ds m'') :
    Adds path m (cs ++ ds) m'' := by
  induction h with
  | nil => exact h'
  | cons step _ ih => exact .cons step (ih h')

theorem fields {cs : List Contribution} (h : Adds path m cs m') :
    m'.fields = m.fields ++ cs.map (·.field) := by
  induction h with
  | nil => simp
  | cons step _ ih => rw [ih, (add_ok step).1]; simp

theorem artifacts {cs : List Contribution} (h : Adds path m cs m') :
    m'.artifacts = m.artifacts ++ cs.flatMap (·.artifacts) := by
  induction h with
  | nil => simp
  | cons step _ ih => rw [ih, (add_ok step).2.1]; simp

end Adds

/-- The catch-all field is alone under its identifier. -/
theorem catchAllField_ok {type : Descriptor} {f : Field Descriptor}
    (h : m.catchAllField type path = .ok f) :
    f = { identifier := additionalProperties, rawName := .str additionalProperties, type,
          catchAll := true } ∧ ∀ g ∈ m.fields, g.identifier ≠ additionalProperties := by
  unfold catchAllField at h
  split at h
  · cases h
  · next hf =>
    refine ⟨(Except.ok.inj h).symm, fun g hg hi => ?_⟩
    have := List.find?_eq_none.1 hf g hg
    simp [hi] at this

end Members

/-- A property that became a field, with what its fragment resolved to. -/
structure ResolvedMember where
  name : Scalar
  node : Node
  field : Field Descriptor
  resolution : Resolution

namespace ResolvedMember

def property (p : ResolvedMember) : Scalar × Node := (p.name, p.node)

def contribution (p : ResolvedMember) : Contribution := ⟨p.name, p.field, p.resolution.artifacts⟩

/-- The fragment of the property resolves as a member of the class, and its field is that of the type. -/
structure ResolvedBy (r : Resolver) (scope : Scope) (depth : Int) (required : List Scalar)
    (p : ResolvedMember) : Prop where
  resolve : r.resolve (r.names.typeName p.name.text) scope.memberPackage (some scope.className)
    (scope.path ++ "." ++ p.name.text) (depth + 1) p.node = .ok p.resolution
  field : r.memberField required p.name p.node.traits p.resolution.type = .ok p.field

end ResolvedMember

namespace Resolver

variable {r : Resolver} {name : String} {package : List String} {owner? : Option String}
  {path : String} {depth : Int} {res : Resolution}

@[simp]
theorem arrayOf_artifacts (element : Resolution) : (r.arrayOf element).artifacts = element.artifacts :=
  rfl

@[simp]
theorem mapOf_artifacts (value : Resolution) : (r.mapOf value).artifacts = value.artifacts := rfl

theorem memberField_ok {required : List Scalar} {property : Scalar} {traits : Traits} {type : Descriptor}
    {f : Field Descriptor} (h : r.memberField required property traits type = .ok f) :
    f.identifier = r.names.identifier property.text ∧ f.rawName = property ∧ f.type = type ∧
      f.catchAll = false := by
  unfold memberField at h
  obtain ⟨deprecated, -, h⟩ := bind_eq_ok.1 h
  cases h
  exact ⟨rfl, rfl, rfl, rfl⟩

theorem resolveMembers_ok {scope : Scope} {required : List Scalar} {siblings ps : List (Scalar × Node)}
    {m m' : Members} (h : r.resolveMembers scope depth required siblings m ps = .ok m') :
    ∃ parts : List ResolvedMember, (∀ p ∈ parts, p.ResolvedBy r scope depth required) ∧
      parts.map ResolvedMember.property = ps.filter (!givesWay r.names siblings ·) ∧
      Members.Adds scope.path m (parts.map ResolvedMember.contribution) m' := by
  induction ps generalizing m with
  | nil =>
    rw [resolveMembers] at h
    cases h
    exact ⟨[], by simp, rfl, .nil _⟩
  | cons p ps ih =>
    obtain ⟨property, node⟩ := p
    rw [resolveMembers] at h
    split at h
    · next hg =>
      obtain ⟨parts, hr, hk, ha⟩ := ih h
      exact ⟨parts, hr, by simpa [hg] using hk, ha⟩
    · next hg =>
      simp only [bind_eq_ok, liftM_eq_ok] at h
      obtain ⟨resolution, hres, field, hfield, m₁, hadd, h⟩ := h
      obtain ⟨parts, hr, hk, ha⟩ := ih h
      refine ⟨⟨property, node, field, resolution⟩ :: parts, ?_, ?_, .cons hadd ha⟩
      · exact List.forall_mem_cons.2 ⟨⟨hres, hfield⟩, hr⟩
      · simpa [hg, ResolvedMember.property] using hk

theorem resolveAdditional_ok {scope : Scope} {additional : Additional Node} {typed? : Option Resolution}
    (h : r.resolveAdditional scope depth additional = .ok typed?) :
    (typed? = none ∧ ∀ schema, additional ≠ .typed schema) ∨
      ∃ schema value, additional = .typed schema ∧ typed? = some value ∧
        r.resolve (r.names.typeName additionalProperties) scope.memberPackage (some scope.className)
          (scope.path ++ ".\x7b\x7d") (depth + 1) schema = .ok value := by
  cases additional with
  | closed | «open» =>
    rw [resolveAdditional] at h
    cases h
    exact .inl ⟨rfl, fun _ h => by cases h⟩
  | typed schema =>
    rw [resolveAdditional] at h
    obtain ⟨value, hv, h⟩ := bind_eq_ok.1 h
    cases h
    exact .inr ⟨schema, value, rfl, rfl, hv⟩

/-- Where there may be undeclared keys without a schema, their values are any objects. -/
theorem undeclared?_none_eq_some {traits : Traits} {additional : Additional Node} {value : Resolution} :
    r.undeclared? traits additional none = some value ↔
      (traits.preservesUnknown = true ∨ additional.isOpen = true ∨ r.config.preservesUnknown.truthy = true) ∧
        value = existing r.types.object := by
  simp only [undeclared?, Bool.or_eq_true, or_assoc]
  split
  · next keys =>
    rw [Option.some.injEq]
    exact ⟨fun h => ⟨keys, h.symm⟩, fun h => h.2.symm⟩
  · next none => exact ⟨nofun, fun h => absurd h.1 none⟩

/-- What the values under undeclared keys add to their class. -/
def catchAll (r : Resolver) (value : Resolution) : Contribution where
  property := .str additionalProperties
  field := {
    identifier := additionalProperties, rawName := .str additionalProperties
    type := r.mapType value.type, catchAll := true }
  artifacts := value.artifacts

theorem addCatchAll_ok {scope : Scope} {m m' : Members} {value? : Option Resolution}
    (h : r.addCatchAll scope m value? = .ok m') :
    Members.Adds scope.path m (value?.toList.map r.catchAll) m' ∧
      (value?.isSome → ∀ f ∈ m.fields, f.identifier ≠ additionalProperties) := by
  unfold addCatchAll at h
  split at h
  · next value =>
    obtain ⟨f, hf, h⟩ := bind_eq_ok.1 h
    obtain ⟨rfl, hne⟩ := Members.catchAllField_ok hf
    exact ⟨.cons h (.nil _), fun _ => hne⟩
  · cases h
    exact ⟨.nil _, fun h => by cases h⟩

/-- The class `t` of an object is made of `parts` and the values `typed?` of its other keys. -/
structure Builds (r : Resolver) (traits : Traits) (properties : List (Scalar × Node))
    (required : List Scalar) (additional : Additional Node) (name : String) (package : List String)
    (path : String) (depth : Int) (parts : List ResolvedMember) (typed? : Option Resolution)
    (t : ObjectType Descriptor) : Prop where
  simple : t.simpleName = name
  named : t.name = Naming.qualified package name
  placed : t.package = package
  generated : r.config.existingType? (Naming.qualified package name) = none
  reduced : checkCollisions r.names properties (r.scopeOf name package path).path = .ok ()
  kept : parts.map ResolvedMember.property = keptProperties r.names properties
  resolved : ∀ p ∈ parts, p.ResolvedBy r (r.scopeOf name package path) depth required
  typed : r.resolveAdditional (r.scopeOf name package path) depth additional = .ok typed?
  added : ∃ claimed, Members.Adds (r.scopeOf name package path).path {}
    (parts.map ResolvedMember.contribution ++ (r.undeclared? traits additional typed?).toList.map r.catchAll)
    ⟨t.fields, t.nested, claimed⟩
  alone : (r.undeclared? traits additional typed?).isSome →
    ∀ p ∈ parts, p.field.identifier ≠ additionalProperties
  preserves : t.preservesUnknown = (typed?.isNone && (r.undeclared? traits additional typed?).isSome)
  described : t.description = traits.description

namespace Builds

variable {traits : Traits} {properties : List (Scalar × Node)} {required : List Scalar}
  {additional : Additional Node} {parts : List ResolvedMember} {typed? : Option Resolution}
  {t : ObjectType Descriptor}

theorem fields (h : Builds r traits properties required additional name package path depth parts typed? t) :
    t.fields = parts.map (·.field) ++
      (r.undeclared? traits additional typed?).toList.map fun value => (r.catchAll value).field := by
  obtain ⟨claimed, ha⟩ := h.added
  simpa [ResolvedMember.contribution, Function.comp_def] using ha.fields

theorem declared_fields
    (h : Builds r traits properties required additional name package path depth parts typed? t) :
    t.fields.filter (!·.catchAll) = parts.map (·.field) := by
  have declared : ∀ f ∈ parts.map (·.field), (!f.catchAll) = true := by
    intro f hf
    obtain ⟨p, hp, rfl⟩ := List.mem_map.1 hf
    rw [(memberField_ok (h.resolved p hp).field).2.2.2]
    rfl
  have caught : ∀ f ∈ (r.undeclared? traits additional typed?).toList.map fun value => (r.catchAll value).field,
      ¬ (!f.catchAll) = true := by
    intro f hf
    obtain ⟨value, -, rfl⟩ := List.mem_map.1 hf
    simp [Resolver.catchAll]
  rw [h.fields, List.filter_append, List.filter_eq_self.2 declared, List.filter_eq_nil_iff.2 caught,
    List.append_nil]

theorem mem_fields_catchAll
    (h : Builds r traits properties required additional name package path depth parts typed? t)
    {f : Field Descriptor} : f ∈ t.fields ∧ f.catchAll = true ↔
      ∃ value, r.undeclared? traits additional typed? = some value ∧ (r.catchAll value).field = f := by
  rw [h.fields, List.mem_append, List.mem_map, List.mem_map]
  constructor
  · rintro ⟨⟨p, hp, rfl⟩ | ⟨value, hv, rfl⟩, hc⟩
    · rw [(memberField_ok (h.resolved p hp).field).2.2.2] at hc
      cases hc
    · exact ⟨value, Option.mem_toList.1 hv, rfl⟩
  · rintro ⟨value, hv, rfl⟩
    exact ⟨.inr ⟨value, Option.mem_toList.2 hv, rfl⟩, rfl⟩

theorem exists_catchAll_iff
    (h : Builds r traits properties required additional name package path depth parts typed? t) :
    (∃ f ∈ t.fields, f.catchAll = true) ↔ (r.undeclared? traits additional typed?).isSome = true := by
  simp only [h.mem_fields_catchAll, Option.isSome_iff_exists]
  exact ⟨fun ⟨_, value, hv, _⟩ => ⟨value, hv⟩, fun ⟨value, hv⟩ => ⟨_, value, hv, rfl⟩⟩

theorem nested (h : Builds r traits properties required additional name package path depth parts typed? t) :
    t.nested = parts.flatMap (·.resolution.artifacts) ++
      (r.undeclared? traits additional typed?).toList.flatMap (·.artifacts) := by
  obtain ⟨claimed, ha⟩ := h.added
  simpa [ResolvedMember.contribution, catchAll, List.flatMap_map] using ha.artifacts

theorem mem_properties
    (h : Builds r traits properties required additional name package path depth parts typed? t)
    {p : ResolvedMember} (hp : p ∈ parts) : p.property ∈ properties := by
  have hk : p.property ∈ keptProperties r.names properties := h.kept ▸ List.mem_map_of_mem hp
  exact (List.mem_filter.1 hk).1

/-- The values under undeclared keys have the type of their schema or any. -/
theorem mem_undeclared
    (h : Builds r traits properties required additional name package path depth parts typed? t)
    {value : Resolution} (hv : value ∈ (r.undeclared? traits additional typed?).toList) :
    value = existing r.types.object ∨
      ∃ schema, additional = .typed schema ∧
        r.resolve (r.names.typeName additionalProperties) (package ++ [r.names.packageSegment name])
          (some (Naming.qualified package name)) ((r.scopeOf name package path).path ++ ".\x7b\x7d")
          (depth + 1) schema = .ok value := by
  rw [Option.mem_toList] at hv
  rcases resolveAdditional_ok h.typed with ⟨rfl, -⟩ | ⟨s, v, hs, rfl, hr⟩
  · exact .inl (undeclared?_none_eq_some.1 hv).2
  · cases hv
    exact .inr ⟨s, hs, hr⟩

/-- What holds of the resolutions of all parts of an object holds of all that its class is made of. -/
theorem children
    (h : Builds r traits properties required additional name package path depth parts typed? t)
    {P : Resolution → Prop} (existing : P (existing r.types.object))
    (member : ∀ p ∈ properties, ∀ name package owner? path depth res,
      r.resolve name package owner? path depth p.2 = .ok res → P res)
    (schema : ∀ s, additional = .typed s → ∀ name package owner? path depth res,
      r.resolve name package owner? path depth s = .ok res → P res) :
    (∀ p ∈ parts, P p.resolution) ∧
      ∀ value ∈ (r.undeclared? traits additional typed?).toList, P value := by
  refine ⟨fun p hp => member p.property (h.mem_properties hp) _ _ _ _ _ _ (h.resolved p hp).resolve,
    fun value hv => ?_⟩
  rcases h.mem_undeclared hv with rfl | ⟨s, hs, hr⟩
  · exact existing
  · exact schema s hs _ _ _ _ _ _ hr

end Builds

/-- An object is replaced by an existing type or becomes a class. -/
inductive YieldsClass (r : Resolver) (traits : Traits) (properties : List (Scalar × Node))
    (required : List Scalar) (additional : Additional Node) (name : String) (package : List String)
    (path : String) (depth : Int) : Resolution → Prop
  | replaced {type : String} (h : r.config.existingType? (Naming.qualified package name) = some type) :
      YieldsClass r traits properties required additional name package path depth (existing type)
  | built {parts : List ResolvedMember} {typed? : Option Resolution} {t : ObjectType Descriptor}
      (h : Builds r traits properties required additional name package path depth parts typed? t) :
      YieldsClass r traits properties required additional name package path depth
        ⟨.object t, t.nested ++ [.object t]⟩

theorem buildClass_ok {traits : Traits} {properties : List (Scalar × Node)} {required : List Scalar}
    {additional : Additional Node}
    (h : r.buildClass traits properties additional name package path
      (fun scope => r.resolveMembers scope depth required properties {} properties)
      (fun scope => r.resolveAdditional scope depth additional) = .ok res) :
    YieldsClass r traits properties required additional name package path depth res := by
  unfold buildClass at h
  simp only [] at h
  split at h
  · next type hx =>
    cases h
    exact .replaced hx
  · next hx =>
    simp only [bind_eq_ok] at h
    obtain ⟨_, hc, declared, hm, typed?, ht, all, ha, h⟩ := h
    cases h
    obtain ⟨parts, hr, hk, hp⟩ := resolveMembers_ok hm
    obtain ⟨hu, hne⟩ := addCatchAll_ok ha
    have alone : (r.undeclared? traits additional typed?).isSome →
        ∀ p ∈ parts, p.field.identifier ≠ additionalProperties := by
      intro hs p hp'
      refine hne hs p.field ?_
      rw [hp.fields]
      simpa [ResolvedMember.contribution] using ⟨p, hp', rfl⟩
    exact .built ⟨rfl, rfl, rfl, hx, hc, hk, hr, ht, ⟨all.claimed, hp.append hu⟩, alone, rfl, rfl⟩

/-- The ways in which a member resolves. -/
inductive Yields (r : Resolver) (name : String) (package : List String) (owner? : Option String)
    (path : String) (depth : Int) : Node → Resolution → Prop
  | intOrString {node : Node} (h : node.traits.intOrString = true) :
      Yields r name package owner? path depth node (existing r.types.intOrString)
  | untyped {traits : Traits} (h : traits.intOrString = false) :
      Yields r name package owner? path depth (.any traits) (existing r.types.any)
  | free {traits : Traits} {required : List Scalar} (h : traits.intOrString = false) :
      Yields r name package owner? path depth (.object traits [] required .open) (existing r.types.any)
  | class {traits : Traits} {properties : List (Scalar × Node)} {required : List Scalar}
      {additional : Additional Node} {res : Resolution} (h : traits.intOrString = false)
      (hc : YieldsClass r traits properties required additional name package path depth res)
      (hf : (properties.isEmpty && additional.isOpen) = false) :
      Yields r name package owner? path depth (.object traits properties required additional) res
  | array {traits : Traits} {items : Node} {element : Resolution} (h : traits.intOrString = false)
      (he : r.resolve name package owner? (path ++ "[]") (depth + 1) items = .ok element) :
      Yields r name package owner? path depth (.array traits items) (r.arrayOf element)
  | map {traits : Traits} {values : Node} {value : Resolution} (h : traits.intOrString = false)
      (hv : r.resolve name package owner? (path ++ "\x7b\x7d") (depth + 1) values = .ok value) :
      Yields r name package owner? path depth (.map traits values) (r.mapOf value)
  | enum {traits : Traits} {base : Basic} {values : List Value} {res : Resolution}
      (h : traits.intOrString = false)
      (he : r.resolveEnum (.enum traits base values) name package owner? path = .ok res) :
      Yields r name package owner? path depth (.enum traits base values) res
  | basic {traits : Traits} {base : Basic} {type : PrimitiveType} (h : traits.intOrString = false)
      (hp : r.resolvePrimitive (.basic traits base) path = .ok type) :
      Yields r name package owner? path depth (.basic traits base) ⟨.primitive type, []⟩

/-- The constant of a token that can be written: the token's value, with a name and a literal for it. -/
structure ConstantOf (r : Resolver) (primitive : Primitive) (path : String) (token : Value) (k : EnumEntry) :
    Prop where
  value : parseEnumValue token primitive path = .ok k.value
  written : token.hasText = true
  identifier : k.identifier = r.enumIdentifier token k.value primitive
  literal : r.types.literal k.value primitive = .ok k.literal

theorem enumEntries_ok {primitive : Primitive} {seen : List (String × String)} {tokens : List Value}
    {entries : List EnumEntry} (h : r.enumEntries primitive path seen tokens = .ok entries) :
    List.Forall₂ (r.ConstantOf primitive path) tokens entries := by
  induction tokens generalizing seen entries with
  | nil =>
    cases h
    exact .nil
  | cons token tokens ih =>
    rw [enumEntries] at h
    obtain ⟨value, hv, h⟩ := bind_eq_ok.1 h
    obtain ⟨text, ht, h⟩ := bind_eq_ok.1 h
    obtain ⟨written, -⟩ := Value.toText_eq_ok.1 (liftM_eq_ok.1 ht)
    simp only [] at h
    split at h
    · cases h
    · simp only [bind_eq_ok, pure_eq_ok] at h
      obtain ⟨literal, hl, rest, hr, rfl⟩ := h
      exact .cons ⟨hv, written, rfl, hl⟩ (ih hr)

/-- An enum is its own only artifact. -/
theorem resolveEnum_ok {node : Node} (h : r.resolveEnum node name package owner? path = .ok res) :
    ∃ type : EnumType, res = ⟨.enum type, [.enum type]⟩ ∧ type.simpleName = name ∧
      type.name = r.enumName package owner? name ∧ type.owner? = owner? ∧ type.package = package ∧
        ∃ tokens, enumTokens node path = .ok tokens ∧
          List.Forall₂ (r.ConstantOf type.backing.primitive path) tokens type.entries := by
  unfold resolveEnum at h
  simp only [bind_eq_ok] at h
  obtain ⟨tokens, ht, backing, -, entries, he, h⟩ := h
  cases h
  exact ⟨_, rfl, rfl, rfl, rfl, rfl, tokens, ht, enumEntries_ok he⟩

/-- Before its shape matters, a member's depth is checked and whether it holds a number or a text. -/
theorem guarded_eq_ok {traits : Traits} {x : Except Failure Resolution} :
    (do
      r.checkDepth path depth
      if traits.intOrString then return existing r.types.intOrString else x) = .ok res ↔
      r.checkDepth path depth = .ok () ∧ (traits.intOrString = true ∧ res = existing r.types.intOrString ∨
        traits.intOrString = false ∧ x = .ok res) := by
  constructor
  · intro h
    obtain ⟨_, hd, h⟩ := bind_eq_ok.1 h
    refine ⟨hd, ?_⟩
    cases hi : traits.intOrString with
    | true =>
      rw [hi] at h
      exact .inl ⟨rfl, (Except.ok.inj h).symm⟩
    | false =>
      rw [hi] at h
      exact .inr ⟨rfl, h⟩
  · rintro ⟨hd, ⟨hi, rfl⟩ | ⟨hi, h⟩⟩
    · rw [hi]
      exact bind_eq_ok.2 ⟨(), hd, rfl⟩
    · rw [hi]
      exact bind_eq_ok.2 ⟨(), hd, h⟩

theorem resolve_ok {node : Node} (h : r.resolve name package owner? path depth node = .ok res) :
    Yields r name package owner? path depth node res := by
  cases node with
  | object traits properties required additional =>
    rw [resolve] at h
    obtain ⟨-, ⟨hi, rfl⟩ | ⟨hi, h⟩⟩ := guarded_eq_ok.1 h
    · exact .intOrString hi
    split at h
    · next hf =>
      cases h
      rw [Bool.and_eq_true, List.isEmpty_iff] at hf
      obtain ⟨rfl, ho⟩ := hf
      cases additional with
      | «open» => exact .free hi
      | closed => cases ho
      | typed schema => cases ho
    · next hf => exact .class hi (buildClass_ok h) (Bool.eq_false_iff.2 hf)
  | array traits items =>
    rw [resolve] at h
    obtain ⟨-, ⟨hi, rfl⟩ | ⟨hi, h⟩⟩ := guarded_eq_ok.1 h
    · exact .intOrString hi
    · obtain ⟨element, he, h⟩ := bind_eq_ok.1 h
      cases h
      exact .array hi he
  | map traits values =>
    rw [resolve] at h
    obtain ⟨-, ⟨hi, rfl⟩ | ⟨hi, h⟩⟩ := guarded_eq_ok.1 h
    · exact .intOrString hi
    · obtain ⟨value, hv, h⟩ := bind_eq_ok.1 h
      cases h
      exact .map hi hv
  | enum traits base values =>
    rw [resolve] at h
    obtain ⟨-, ⟨hi, rfl⟩ | ⟨hi, h⟩⟩ := guarded_eq_ok.1 h
    · exact .intOrString hi
    · exact .enum hi h
  | basic traits base =>
    rw [resolve] at h
    obtain ⟨-, ⟨hi, rfl⟩ | ⟨hi, h⟩⟩ := guarded_eq_ok.1 h
    · exact .intOrString hi
    · obtain ⟨type, hp, h⟩ := bind_eq_ok.1 h
      cases h
      exact .basic hi hp
  | any traits =>
    rw [resolve] at h
    obtain ⟨-, -, h⟩ := bind_eq_ok.1 h
    cases h
    split
    · next hi => exact .intOrString hi
    · next hi => exact .untyped (Bool.eq_false_iff.2 hi)

theorem resolveObject_ok {node : Node} (h : r.resolveObject node name package path depth = .ok res) :
    YieldsClass r node.traits node.properties node.required (additionalOf node) name package path depth
      res := by
  unfold resolveObject at h
  obtain ⟨-, -, h⟩ := bind_eq_ok.1 h
  exact buildClass_ok h

end Resolver

end ResourceCompiler
