import ResourceCompiler.Proofs.Resolver.Reordered

/-!
# Keeping undeclared keys in every class

A configuration may keep undeclared keys in every class. Compared with the same configuration that leaves
them to the schema, nothing changes but the classes without a field of such keys, which get one behind all
others (`ObjectType.Opened`). The field brings no artifact along, so that the claims of the properties stay as
they are; its identifier must be free.

Two runs are compared fragment by fragment. Which fragments become classes does not depend on the configuration:
an object without properties and open for any keys is no class under either of them.
-/

namespace ResourceCompiler

/-- The field of undeclared keys with any objects for values. -/
def openField (types : Dialect) : Field Descriptor where
  identifier := additionalProperties
  rawName := .str additionalProperties
  type := .map (types.mapOf types.object) (.existing types.object)
  catchAll := true

/-- The class has a field of undeclared keys. -/
def ObjectType.HasCatchAll (t : ObjectType Descriptor) : Prop := ∃ f ∈ t.fields, f.catchAll = true

/-- The class with a field of undeclared keys, behind its own fields where it had none. -/
structure ObjectType.Opened (types : Dialect) (t t' : ObjectType Descriptor) : Prop where
  simpleName : t'.simpleName = t.simpleName
  name : t'.name = t.name
  nested : t'.nested.map (·.name) = t.nested.map (·.name)
  package : t'.package = t.package
  description : t'.description = t.description
  kept : t.HasCatchAll →
    t'.fields.map Field.outline = t.fields.map Field.outline ∧ t'.preservesUnknown = t.preservesUnknown
  opened : ¬ t.HasCatchAll →
    t'.fields.map Field.outline = t.fields.map Field.outline ++ [(openField types).outline] ∧
      t'.preservesUnknown = true

/-- The resource, with other classes of the same names in it. -/
structure ResourceType.Renested (t t' : ResourceType Descriptor) : Prop where
  nested : t'.nested.map (·.name) = t.nested.map (·.name)
  rest : t' = { t with nested := t'.nested }

/-- Artifacts of two runs of which the second keeps undeclared keys in every class. -/
inductive Descriptor.Opened (types : Dialect) : Descriptor → Descriptor → Prop
  | enum (t : EnumType) : Opened types (.enum t) (.enum t)
  | object {t t' : ObjectType Descriptor} (h : t.Opened types t') : Opened types (.object t) (.object t')
  | resource {t t' : ResourceType Descriptor} (h : t.Renested t') : Opened types (.resource t) (.resource t')

structure Resolution.Opened (types : Dialect) (res res' : Resolution) : Prop where
  kind : res'.type.kindName = res.type.kindName
  name : res'.type.name = res.type.name
  artifacts : List.Forall₂ (Descriptor.Opened types) res.artifacts res'.artifacts

structure Contribution.Opened (types : Dialect) (c c' : Contribution) : Prop where
  property : c'.property = c.property
  field : c'.field.outline = c.field.outline
  artifacts : List.Forall₂ (Descriptor.Opened types) c.artifacts c'.artifacts

/-- Compilations of the same artifacts, in the same order. -/
structure Compilation.Opened (types : Dialect) (c c' : Compilation) : Prop where
  kind : c'.root.kindName = c.root.kindName
  name : c'.root.name = c.root.name
  topLevel : List.Forall₂ (Descriptor.Opened types) c.topLevel c'.topLevel
  inner : c'.inner = c.inner
  index : List.Forall₂ (fun e e' => e'.1 = e.1 ∧ e.2.Opened types e'.2) c.index c'.index

/-- No class without a field of undeclared keys has another field of the identifier. -/
def Openable (artifacts : List Descriptor) : Prop :=
  ∀ t, .object t ∈ artifacts → ¬ t.HasCatchAll → ∀ f ∈ t.fields, f.identifier ≠ additionalProperties

theorem Openable.mono {as bs : List Descriptor} (h : Openable bs) (sub : ∀ a ∈ as, a ∈ bs) :
    Openable as :=
  fun t member => h t (sub _ member)

theorem openable_of_forall {artifacts : List Descriptor} (h : ∀ a ∈ artifacts,
    a.fields.any (·.catchAll) = true ∨ ∀ f ∈ a.fields, f.identifier ≠ additionalProperties) :
    Openable artifacts := by
  intro t member none
  obtain caught | free := h _ member
  · exact absurd (List.any_eq_true.1 caught) none
  · exact free

variable {types : Dialect}

theorem Descriptor.Opened.name_eq {d d' : Descriptor} (h : d.Opened types d') : d'.name = d.name := by
  cases h with
  | enum => rfl
  | object h => exact h.name
  | resource h => rw [h.rest]; rfl

theorem Resolution.Opened.existing (type : String) :
    Resolution.Opened types (Resolver.existing type) (Resolver.existing type) :=
  ⟨rfl, rfl, .nil⟩

namespace Resolver

/-- The resolver that keeps undeclared keys in every class where `v` is true. -/
def preserving (r : Resolver) (v : Value) : Resolver :=
  { r with config := { r.config with preservesUnknown := v } }

theorem preserving_names (r : Resolver) (v : Value) : (r.preserving v).names = r.names := rfl

variable {r : Resolver} {v : Value} {name : String} {package : List String} {owner? : Option String}
  {path : String} {depth : Int} {res : Resolution} {traits : Traits} {properties : List (Scalar × Node)}
  {required : List Scalar} {additional : Additional Node} {parts : List ResolvedMember}
  {typed? : Option Resolution} {t : ObjectType Descriptor}

theorem Builds.hasCatchAll_iff
    (h : Builds r traits properties required additional name package path depth parts typed? t) :
    t.HasCatchAll ↔ (r.undeclared? traits additional typed?).isSome :=
  h.exists_catchAll_iff

/-- A second run that keeps undeclared keys in every class succeeds with what the first one gave, opened. -/
def Opens (r : Resolver) (v : Value) (node : Node) : Prop :=
  ∀ name package owner? path depth res, r.resolve name package owner? path depth node = .ok res →
    Openable res.artifacts → ∃ res',
      (r.preserving v).resolve name package owner? path depth node = .ok res' ∧ res.Opened r.types res'

/-- One property as a member of both runs. -/
structure OpensMember (r : Resolver) (v : Value) (scope : Scope) (depth : Int) (required : List Scalar)
    (p p' : ResolvedMember) : Prop where
  property : p'.property = p.property
  resolved : p'.ResolvedBy (r.preserving v) scope depth required
  contribution : p.contribution.Opened r.types p'.contribution

theorem exists_opensMember {scope : Scope} {p : ResolvedMember} (h : p.ResolvedBy r scope depth required)
    (opens : r.Opens v p.node) (openable : Openable p.resolution.artifacts) :
    ∃ p', r.OpensMember v scope depth required p p' := by
  obtain ⟨res', second, same⟩ := opens _ _ _ _ _ _ h.resolve openable
  have field := memberField_retype h.field res'.type
  refine ⟨⟨p.name, p.node, { p.field with type := res'.type }, res'⟩, rfl, ⟨second, field⟩, rfl, ?_,
    same.artifacts⟩
  simp only [ResolvedMember.contribution, Field.outline, (memberField_ok h.field).2.2.1, same.kind, same.name]

theorem resolveAdditional_opened {scope : Scope}
    (h : r.resolveAdditional scope depth additional = .ok typed?)
    (opens : ∀ s, additional = .typed s → r.Opens v s)
    (openable : ∀ value ∈ typed?, Openable value.artifacts) :
    ∃ typed?', (r.preserving v).resolveAdditional scope depth additional = .ok typed?' ∧
      Option.Rel (Resolution.Opened r.types) typed? typed?' := by
  cases additional with
  | closed | «open» =>
    rw [resolveAdditional] at h
    cases h
    exact ⟨none, rfl, .none⟩
  | typed schema =>
    rw [resolveAdditional] at h
    obtain ⟨value, first, h⟩ := bind_eq_ok.1 h
    cases h
    obtain ⟨value', second, same⟩ := opens schema rfl _ _ _ _ _ _ first (openable value rfl)
    exact ⟨some value', bind_eq_ok.2 ⟨value', second, rfl⟩, .some same⟩

/-- The second run has values under undeclared keys: those of the first one, else any objects. -/
theorem undeclared?_opened (on : v.truthy = true) (traits : Traits) (additional : Additional Node)
    {typed?' : Option Resolution} (typed : Option.Rel (Resolution.Opened r.types) typed? typed?') :
    ∃ value', (r.preserving v).undeclared? traits additional typed?' = some value' ∧
      (∀ value, r.undeclared? traits additional typed? = some value → value.Opened r.types value') ∧
      (r.undeclared? traits additional typed? = none → typed? = none ∧ value' = existing r.types.object) := by
  cases typed with
  | @some value value' same =>
    refine ⟨value', rfl, fun w hw => ?_, fun none => by cases none⟩
    cases hw
    exact same
  | none =>
    refine ⟨existing r.types.object, ?_, fun w hw => ?_, fun _ => ⟨rfl, rfl⟩⟩
    · simp [undeclared?, preserving, on]
    · rw [(undeclared?_none_eq_some.1 hw).2]
      exact .existing _

theorem catchAll_opened {value value' : Resolution} (same : value.Opened r.types value') :
    (r.catchAll value).Opened r.types ((r.preserving v).catchAll value') where
  property := rfl
  field := by
    have spelled : ((r.preserving v).mapType value'.type).name = (r.mapType value.type).name :=
      congrArg r.types.mapOf same.name
    simp only [catchAll, Field.outline, spelled]
    rfl
  artifacts := same.artifacts

section

variable {parts' : List ResolvedMember}

/-- What the members and the undeclared keys of the second run add can be added: it has the same names. -/
theorem exists_adds_opened {scope : Scope} {value? : Option Resolution} {value' : Resolution}
    (members : List.Forall₂ (r.OpensMember v scope depth required) parts parts')
    (values : List.Forall₂ (Descriptor.Opened r.types)
      (value?.toList.flatMap (·.artifacts)) value'.artifacts)
    (first : ∃ m, Members.Adds path {}
      (parts.map ResolvedMember.contribution ++ value?.toList.map r.catchAll) m) :
    ∃ m', Members.Adds path {}
      (parts'.map ResolvedMember.contribution ++ [(r.preserving v).catchAll value']) m' := by
  refine Members.exists_adds_of_names first fun c' hc' a' ha' => ?_
  rcases List.mem_append.1 hc' with own | other
  · obtain ⟨p', hp', rfl⟩ := List.mem_map.1 own
    obtain ⟨p, hp, one⟩ := exists_of_mem_right members hp'
    obtain ⟨a, ha, opened⟩ := exists_of_mem_right one.contribution.artifacts ha'
    refine ⟨p.contribution, List.mem_append_left _ ?_, one.contribution.property.symm, a, ha,
      opened.name_eq.symm⟩
    exact List.mem_map_of_mem hp
  · obtain rfl := List.mem_singleton.1 other
    obtain ⟨a, ha, opened⟩ := exists_of_mem_right values ha'
    obtain ⟨value, hv, ha⟩ := List.mem_flatMap.1 ha
    refine ⟨r.catchAll value, List.mem_append_right _ ?_, rfl, a, ha, opened.name_eq.symm⟩
    exact List.mem_map_of_mem hv

theorem Builds.identifiers_opened {scope : Scope}
    (h : Builds r traits properties required additional name package path depth parts typed? t)
    (alone : ¬ t.HasCatchAll → ∀ f ∈ t.fields, f.identifier ≠ additionalProperties)
    (members : List.Forall₂ (r.OpensMember v scope depth required) parts parts') :
    ∀ p' ∈ parts', p'.field.identifier ≠ additionalProperties := by
  intro p' hp'
  obtain ⟨p, hp, one⟩ := exists_of_mem_right members hp'
  have identifier : p'.field.identifier = p.field.identifier :=
    (congrArg Field.identifier one.contribution.field :)
  rw [identifier]
  by_cases caught : t.HasCatchAll
  · exact h.alone (h.hasCatchAll_iff.1 caught) p hp
  · refine alone caught p.field ?_
    rw [h.fields]
    exact List.mem_append_left _ (List.mem_map_of_mem hp)

/-- The class of the second run is made of the opened parts of the first one, and of any objects under
undeclared keys where that one had no values for them. -/
theorem Builds.opened (on : v.truthy = true)
    (h : Builds r traits properties required additional name package path depth parts typed? t)
    (alone : ¬ t.HasCatchAll → ∀ f ∈ t.fields, f.identifier ≠ additionalProperties)
    {typed?' : Option Resolution}
    (members : List.Forall₂ (r.OpensMember v (r.scopeOf name package path) depth required) parts parts')
    (typed : (r.preserving v).resolveAdditional (r.scopeOf name package path) depth additional = .ok typed?')
    (same : Option.Rel (Resolution.Opened r.types) typed? typed?') :
    ∃ t', Builds (r.preserving v) traits properties required additional name package path depth parts'
        typed?' t' ∧
      t.Opened r.types t' ∧ List.Forall₂ (Descriptor.Opened r.types) t.nested t'.nested := by
  obtain ⟨value', some', of_some, of_none⟩ := undeclared?_opened on traits additional same
  have values : List.Forall₂ (Descriptor.Opened r.types)
      ((r.undeclared? traits additional typed?).toList.flatMap (·.artifacts)) value'.artifacts := by
    cases found : r.undeclared? traits additional typed? with
    | some value => simpa using (of_some value found).artifacts
    | none =>
      rw [(of_none found).2]
      exact .nil
  -- whether all of them can be added is told from the names of their artifacts alone
  obtain ⟨claimed, first⟩ := h.added
  obtain ⟨m', added⟩ := exists_adds_opened members values ⟨_, first⟩
  have kept : parts'.map ResolvedMember.property = keptProperties r.names properties := by
    rw [← h.kept]
    exact map_eq_of_forall₂ members fun _ _ one => one.property
  have resolved : ∀ p' ∈ parts',
      p'.ResolvedBy (r.preserving v) (r.scopeOf name package path) depth required := by
    intro p' hp'
    obtain ⟨p, -, one⟩ := exists_of_mem_right members hp'
    exact one.resolved
  let t' : ObjectType Descriptor := {
    t with fields := m'.fields, nested := m'.artifacts, preservesUnknown := typed?'.isNone }
  have second : Builds (r.preserving v) traits properties required additional name package path depth parts'
      typed?' t' := by
    refine ⟨h.simple, h.named, h.placed, h.generated, h.reduced, kept, resolved, typed, ⟨m'.claimed, ?_⟩,
      fun _ => h.identifiers_opened alone members, ?_, h.described⟩
    · rw [some']
      exact added
    · rw [some', Option.isSome_some, Bool.and_true]
  have nested : List.Forall₂ (Descriptor.Opened r.types) t.nested t'.nested := by
    rw [h.nested, second.nested, some', Option.toList_some, List.flatMap_singleton]
    exact List.rel_append (List.rel_flatMap members fun _ _ one => one.contribution.artifacts) values
  have fields : t'.fields.map Field.outline =
      parts.map (·.field.outline) ++ [((r.preserving v).catchAll value').field.outline] := by
    have own : parts'.map (·.field.outline) = parts.map (·.field.outline) :=
      map_eq_of_forall₂ members fun _ _ one => one.contribution.field
    rw [second.fields, some', ← own]
    simp [Function.comp_def]
  refine ⟨t', second, ⟨rfl, rfl, ?_, rfl, rfl, fun caught => ?_, fun free => ?_⟩, nested⟩
  · exact map_eq_of_forall₂ nested fun _ _ => Descriptor.Opened.name_eq
  · obtain ⟨value, found⟩ := Option.isSome_iff_exists.1 (h.hasCatchAll_iff.1 caught)
    refine ⟨?_, ?_⟩
    · rw [fields, h.fields, found, (catchAll_opened (of_some value found)).field]
      simp [Function.comp_def]
    · rw [h.preserves, found, Option.isSome_some, Bool.and_true]
      cases same <;> rfl
  · -- a class without such a field had no schema for undeclared keys either
    have absent := Option.not_isSome_iff_eq_none.1 fun some => free (h.hasCatchAll_iff.2 some)
    obtain ⟨rfl, rfl⟩ := of_none absent
    cases same
    refine ⟨?_, rfl⟩
    rw [fields, h.fields, absent]
    simp [Function.comp_def]
    rfl

theorem YieldsClass.opened (on : v.truthy = true)
    (h : YieldsClass r traits properties required additional name package path depth res)
    (openable : Openable res.artifacts) (member : ∀ p ∈ properties, r.Opens v p.2)
    (schema : ∀ s, additional = .typed s → r.Opens v s) :
    ∃ res',
      YieldsClass (r.preserving v) traits properties required additional name package path depth res' ∧
        res.Opened r.types res' := by
  cases h with
  | replaced hx => exact ⟨_, .replaced hx, .existing _⟩
  | @built parts typed? t h =>
    have within : Openable t.nested := openable.mono fun _ => List.mem_append_left _
    have alone := openable t (List.mem_append_right _ List.mem_cons_self)
    rw [h.nested] at within
    obtain ⟨parts', members⟩ := exists_forall₂ fun p hp =>
      exists_opensMember (h.resolved p hp) (member p.property (h.mem_properties hp))
        (within.mono fun a ha => List.mem_append_left _ (List.mem_flatMap.2 ⟨p, hp, ha⟩))
    obtain ⟨typed?', typed, same⟩ := resolveAdditional_opened h.typed schema fun value hv =>
      within.mono fun a ha => List.mem_append_right _ (List.mem_flatMap.2 ⟨value, by
        cases hv
        exact List.mem_singleton_self _, ha⟩)
    obtain ⟨t', second, opened, nested⟩ := h.opened on alone members typed same
    exact ⟨_, .built second, rfl, opened.name, List.rel_append nested (.cons (.object opened) .nil)⟩

end

theorem resolve_opens (on : v.truthy = true) (node : Node) : r.Opens v node := by
  intro name package owner? path depth res h openable
  have y := resolve_ok h
  suffices second : ∃ res', Yields (r.preserving v) name package owner? path depth node res' ∧
      res.Opened r.types res' by
    obtain ⟨res', y', opened⟩ := second
    exact ⟨res', resolve_of_yields h y' rfl, opened⟩
  clear h
  induction y using Yields.induction with
  | intOrString hi => exact ⟨_, .intOrString hi, .existing _⟩
  | untyped hi => exact ⟨_, .untyped hi, .existing _⟩
  | free hi => exact ⟨_, .free hi, .existing _⟩
  | @«class» _ _ _ _ _ _ properties _ additional _ hi hc hf member schema =>
    have members : ∀ p ∈ properties, r.Opens v p.2 := fun p hp _ _ _ _ _ _ h openable => by
      obtain ⟨res', y', opened⟩ := member p hp _ _ _ _ _ _ h openable
      exact ⟨res', resolve_of_yields h y' rfl, opened⟩
    have schemas : ∀ s, additional = .typed s → r.Opens v s := fun s hs _ _ _ _ _ _ h openable => by
      obtain ⟨res', y', opened⟩ := schema s hs _ _ _ _ _ _ h openable
      exact ⟨res', resolve_of_yields h y' rfl, opened⟩
    obtain ⟨res', hc', opened⟩ := hc.opened on openable members schemas
    exact ⟨res', .class hi hc' hf, opened⟩
  | array hi he ih =>
    obtain ⟨element, y', opened⟩ := ih openable
    exact ⟨_, .array hi (resolve_of_yields he y' rfl), rfl, congrArg r.types.arrayOf opened.name, opened.artifacts⟩
  | map hi hv ih =>
    obtain ⟨value, y', opened⟩ := ih openable
    exact ⟨_, .map hi (resolve_of_yields hv y' rfl), rfl, congrArg r.types.mapOf opened.name, opened.artifacts⟩
  | enum hi he =>
    obtain ⟨type, rfl, -⟩ := resolveEnum_ok he
    refine ⟨_, .enum hi ?_, rfl, rfl, .cons (.enum type) .nil⟩
    rwa [resolveEnum_congr (preserving_names r v) rfl rfl]
  | basic hi hp => exact ⟨_, .basic hi hp, rfl, rfl, .nil⟩

theorem resolveObject_opened (on : v.truthy = true) {node : Node}
    (h : r.resolveObject node name package path depth = .ok res) (openable : Openable res.artifacts) :
    ∃ res', (r.preserving v).resolveObject node name package path depth = .ok res' ∧
      res.Opened r.types res' := by
  obtain ⟨within, yields⟩ := resolveObject_eq_ok.1 h
  obtain ⟨res', yields', opened⟩ := yields.opened on openable (fun p _ => resolve_opens on p.2) fun s _ =>
    resolve_opens on s
  exact ⟨res', resolveObject_eq_ok.2 ⟨within, yields'⟩, opened⟩

end Resolver

theorem Descriptor.Opened.isUnit {d d' : Descriptor} (h : d.Opened types d') : d.isUnit = d'.isUnit := by
  cases h <;> rfl

theorem Descriptor.Opened.enum? {d d' : Descriptor} (h : d.Opened types d') : d'.enum? = d.enum? := by
  cases h <;> rfl

theorem Descriptor.Opened.isArtifact {d d' : Descriptor} (h : d.Opened types d') : d'.IsArtifact := by
  cases h with
  | enum t => exact .inr ⟨t, rfl⟩
  | object => exact .inl rfl
  | resource => exact .inl rfl

theorem Compilation.ofResolution_opened {res res' : Resolution} {c : Compilation} (same : res.Opened types res')
    (h : ofResolution res = .ok c) : ∃ c', ofResolution res' = .ok c' ∧ c.Opened types c' := by
  obtain ⟨-, distinct, rfl⟩ := ofResolution_eq_ok.1 h
  have artifacts : ∀ a' ∈ res'.artifacts, a'.IsArtifact := by
    intro a' ha'
    obtain ⟨a, -, opened⟩ := exists_of_mem_right same.artifacts ha'
    exact opened.isArtifact
  have names : res'.artifacts.map (·.name) = res.artifacts.map (·.name) :=
    map_eq_of_forall₂ same.artifacts fun _ _ => Descriptor.Opened.name_eq
  rw [← names] at distinct
  have enums : res'.artifacts.filterMap (·.enum?) = res.artifacts.filterMap (·.enum?) := by
    have each : res'.artifacts.map (·.enum?) = res.artifacts.map (·.enum?) :=
      map_eq_of_forall₂ same.artifacts fun _ _ => Descriptor.Opened.enum?
    simpa [List.filterMap_map] using congrArg (List.filterMap id) each
  refine ⟨_, ofResolution_eq_ok.2 ⟨artifacts, distinct, rfl⟩, same.kind, same.name, ?_, enums, ?_⟩
  · exact List.rel_filter (fun _ _ opened => iff_of_eq (congrArg (· = true) opened.isUnit)) same.artifacts
  · exact List.rel_map (fun _ _ opened => ⟨opened.name_eq, opened⟩) same.artifacts

theorem openable_of_topLevel {res : Resolution} {c : Compilation} (h : Compilation.ofResolution res = .ok c)
    (openable : Openable c.topLevel) : Openable res.artifacts := by
  rw [(Compilation.ofResolution_ok h).2] at openable
  exact fun t member => openable t (List.mem_filter.2 ⟨member, rfl⟩)

namespace Resolver

variable {r : Resolver} {v : Value} {package : List String}

theorem resolvePart_opened (on : v.truthy = true) {node? : Option Node}
    {simpleName resourceName suffix part type : String} {artifacts : List Descriptor}
    (h : r.resolvePart node? simpleName resourceName package suffix part = .ok (type, artifacts))
    (openable : Openable artifacts) :
    ∃ artifacts', (r.preserving v).resolvePart node? simpleName resourceName package suffix part =
        .ok (type, artifacts') ∧ List.Forall₂ (Descriptor.Opened r.types) artifacts artifacts' := by
  cases node? with
  | none =>
    cases h
    exact ⟨[], rfl, .nil⟩
  | some node =>
    obtain ⟨res, first, h⟩ := bind_eq_ok.1 h
    cases h
    obtain ⟨res', second, opened⟩ := resolveObject_opened on first openable
    refine ⟨res'.artifacts, bind_eq_ok.2 ⟨res', second, ?_⟩, opened.artifacts⟩
    rw [opened.name]
    rfl

theorem assemble_opened (on : v.truthy = true) {kind : String} {info : ResourceInfo} {spec status : Option Node}
    {res : Resolution} (h : r.assemble kind package info spec status = .ok res)
    (openable : Openable res.artifacts) :
    ∃ res', (r.preserving v).assemble kind package info spec status = .ok res' ∧
      res.Opened r.types res' := by
  unfold assemble at h
  simp only [bind_eq_ok] at h
  obtain ⟨⟨specType, specs⟩, hs, ⟨statusType, statuses⟩, ht, h⟩ := h
  cases h
  have within := openable.mono fun _ => List.mem_append_left _
  obtain ⟨specs', hs', openedSpecs⟩ :=
    resolvePart_opened on hs (within.mono fun _ => List.mem_append_left _)
  obtain ⟨statuses', ht', openedStatuses⟩ :=
    resolvePart_opened on ht (within.mono fun _ => List.mem_append_right _)
  have nested := List.rel_append openedSpecs openedStatuses
  refine ⟨_, bind_eq_ok.2 ⟨_, hs', bind_eq_ok.2 ⟨_, ht', rfl⟩⟩, rfl, rfl, ?_⟩
  refine List.rel_append nested (.cons (.resource ⟨?_, rfl⟩) .nil)
  exact map_eq_of_forall₂ nested fun _ _ => Descriptor.Opened.name_eq

theorem compileVersion_opened (on : v.truthy = true) {d : Definition} {version : Value} {c : Compilation}
    (h : r.compileVersion d version = .ok c) (openable : Openable c.topLevel) :
    ∃ c', (r.preserving v).compileVersion d version = .ok c' ∧ c.Opened r.types c' := by
  obtain ⟨res, hres, hc⟩ := bind_eq_ok.1 h
  have openable := openable_of_topLevel hc openable
  unfold resolveVersion at hres
  simp only [bind_eq_ok, liftM_eq_ok] at hres
  obtain ⟨⟨entries, label⟩, he, root, hroot, hres⟩ := hres
  obtain ⟨res', hres', opened⟩ := assemble_opened on hres openable
  obtain ⟨c', hc', same⟩ := Compilation.ofResolution_opened opened hc
  refine ⟨c', bind_eq_ok.2 ⟨res', ?_, hc'⟩, same⟩
  unfold resolveVersion
  simp only [bind_eq_ok, liftM_eq_ok]
  exact ⟨_, he, root, hroot, hres'⟩

/-- Keeping undeclared keys in every class only adds fields for them: where the identifier of such a field is
free, a schema and a definition compile to the same artifacts in the same order, and the classes without such a
field get one behind the others. -/
theorem compile_preserving (r : Resolver) (v : Value) (on : v.truthy = true) :
    (∀ schema package name c, r.compileSchema schema name package = .ok c → Openable c.topLevel →
      ∃ c', (r.preserving v).compileSchema schema name package = .ok c' ∧ c.Opened r.types c') ∧
    ∀ document cs, r.compileDefinition document = .ok cs → (∀ c ∈ cs, Openable c.topLevel) →
      ∃ cs', (r.preserving v).compileDefinition document = .ok cs' ∧
        List.Forall₂ (Compilation.Opened r.types) cs cs' := by
  refine ⟨fun schema package name c h openable => ?_, fun document cs h openable => ?_⟩
  · obtain ⟨root, segments, res, hroot, hs, hres, hc⟩ := compileSchema_eq_ok.1 h
    obtain ⟨res', hres', opened⟩ := resolveObject_opened on hres (openable_of_topLevel hc openable)
    obtain ⟨c', hc', same⟩ := Compilation.ofResolution_opened opened hc
    exact ⟨c', compileSchema_eq_ok.2 ⟨root, segments, res', hroot, hs, hres', hc'⟩, same⟩
  · unfold compileDefinition at h
    simp only [bind_eq_ok, liftM_eq_ok] at h
    obtain ⟨entries, he, ⟨spec, d⟩, hd, versions, hv, h⟩ := h
    obtain ⟨cs', second, same⟩ := exists_mapM_ok h fun c hc version first =>
      compileVersion_opened on first (openable c hc)
    refine ⟨cs', ?_, same⟩
    unfold compileDefinition
    simp only [bind_eq_ok, liftM_eq_ok]
    exact ⟨entries, he, (spec, d), hd, versions, hv, second⟩

end Resolver

namespace Java

/-- A device with an enum and with limits, which have values of a type under undeclared keys. -/
def limitedValue : Value :=
  .map [(.str "type", .str "object"),
    (.str "properties", .map [
      (.str "mode", .map [(.str "enum", .list [.str "on", .str "off"])]),
      (.str "limits", .map [(.str "type", .str "object"),
        (.str "properties", .map [(.str "max", .map [(.str "type", .str "string")])]),
        (.str "additionalProperties", .map [(.str "type", .str "string")])])])]

def limitedDefinition : Value :=
  .map [(.str "spec", .map [(.str "group", .str "test.io"),
    (.str "names", .map [(.str "kind", .str "Device")]),
    (.str "versions", .list [.map [(.str "name", .str "v1"),
      (.str "schema", .map [(.str "openAPIV3Schema", .map [(.str "type", .str "object"),
        (.str "properties", .map [(.str "spec", limitedValue)])])])]])])]

/-- The limits stay as they are, and the device gets a field of undeclared keys. -/
theorem compile_preserving_limited :
    (∃ c c' : Compilation,
      (generator {}).resolver.compileSchema limitedValue "Device" (.str "io") = .ok c ∧
      (generator { preservesUnknown := .bool true }).resolver.compileSchema limitedValue "Device" (.str "io") =
        .ok c' ∧
      c.Opened ({} : TypeNames).dialect c' ∧
      c'.topLevel.map (fun a => a.fields.map fun f => (f.identifier, f.type.name)) =
        [[("max", "java.lang.String"),
          ("additionalProperties", "java.util.Map<java.lang.String, java.lang.String>")],
         [("mode", "io.Device.Mode"), ("limits", "io.device.Limits"),
          ("additionalProperties", "java.util.Map<java.lang.String, java.lang.Object>")]]) ∧
    ∃ cs cs' : List Compilation,
      (generator {}).resolver.compileDefinition limitedDefinition = .ok cs ∧
      (generator { preservesUnknown := .bool true }).resolver.compileDefinition limitedDefinition = .ok cs' ∧
      List.Forall₂ (Compilation.Opened ({} : TypeNames).dialect) cs cs' := by
  obtain ⟨schemas, definitions⟩ := Resolver.compile_preserving (generator {}).resolver (.bool true) rfl
  constructor
  · obtain ⟨c, first, openable⟩ : ∃ c,
        (generator {}).resolver.compileSchema limitedValue "Device" (.str "io") = .ok c ∧ Openable c.topLevel :=
      ⟨_, rfl, openable_of_forall (by decide +kernel)⟩
    obtain ⟨c', second, opened⟩ := schemas limitedValue (.str "io") "Device" c first openable
    refine ⟨c, c', first, second, opened, ?_⟩
    refine Option.some.inj ((congrArg (fun run => run.toOption.map fun c : Compilation =>
      c.topLevel.map fun a => a.fields.map fun f => (f.identifier, f.type.name)) second).symm.trans ?_)
    decide +kernel
  · obtain ⟨c, first, openable⟩ : ∃ c,
        (generator {}).resolver.compileDefinition limitedDefinition = .ok [c] ∧ Openable c.topLevel :=
      ⟨_, rfl, openable_of_forall (by decide +kernel)⟩
    obtain ⟨cs', second, opened⟩ := definitions limitedDefinition [c] first (by simpa using openable)
    exact ⟨[c], cs', first, second, opened⟩

end Java

end ResourceCompiler
