import ResourceCompiler.Java.Generator
import ResourceCompiler.Proofs.Resolver.Checks
import ResourceCompiler.Proofs.Resolver.Claims
import ResourceCompiler.Proofs.Schema.Node
import ResourceCompiler.Proofs.Schema.Places

/-!
# Errors point at the fragment that fails

The resolution carries a place from fragment to fragment as text. `Resolver.after` follows it step by step, and
`Culprit` says, one case per check, when a fragment fails a check of its own there. Whatever a resolution fails
with, nesting and faults aside, it is the failure of such a fragment, at the place that its steps from the root
spell (`resolve_blames`).
-/

namespace ResourceCompiler

/-- Where a resolution meets a fragment, with the names for a class or an enum that the fragment may become. -/
structure Site where
  name : String
  package : List String
  owner? : Option String
  path : String
  depth : Int

/-- A member of a class: a property, or the values under undeclared keys. -/
structure ClassMember where
  name : Scalar
  step : Node.Step
  node : Node

def ClassMember.ofProperty (p : Scalar × Node) : ClassMember :=
  ⟨p.1, .property p.1, p.2⟩

/-- A fragment as the object that must become a class. -/
def Node.asObject (n : Node) : Node :=
  .object n.traits n.properties n.required (Resolver.additionalOf n)

theorem Members.catchAllField_error {m : Members} {type : Descriptor} {path : String} {e : GeneratorError}
    (h : m.catchAllField type path = .error (.generator e)) : ∃ f ∈ m.fields, f.identifier = additionalProperties ∧
      e = .duplicateField additionalProperties [f.rawName, .str additionalProperties] (.str path) := by
  unfold catchAllField at h
  split at h
  · next f hf =>
    cases h
    exact ⟨f, List.mem_of_find?_eq_some hf, by simpa using List.find?_some hf, rfl⟩
  · cases h

namespace Resolver

/-- The site of a part of the fragment. -/
def after (r : Resolver) (site : Site) (step : Node.Step) : Site :=
  let path := site.path ++ step.text
  let depth := site.depth + 1
  let member (name : String) : Site := {
    name := r.names.typeName name, package := site.package ++ [r.names.packageSegment site.name]
    owner? := some (Naming.qualified site.package site.name), path, depth }
  match step with
  | .items | .values => { site with path, depth }
  | .property name => member name.text
  | .additional => member additionalProperties

def resolveAt (r : Resolver) (site : Site) (node : Node) : Except Failure Resolution :=
  r.resolve site.name site.package site.owner? site.path site.depth node

/-- The members of the class that an object becomes, in order. -/
def classMembers (r : Resolver) (node : Node) : List ClassMember :=
  (keptProperties r.names node.properties).map .ofProperty ++
    node.additional.schema?.toList.map fun schema => ⟨.str additionalProperties, .additional, schema⟩

/-- The member of the object at the site resolves, and a type of the name is generated for it. -/
def Generates (r : Resolver) (site : Site) (member : ClassMember) (type : String) : Prop :=
  ∃ res, r.resolveAt (r.after site member.step) member.node = .ok res ∧ ∃ a ∈ res.artifacts, a.name = type

/-- The class of the object has a field for undeclared keys. -/
def Catches (r : Resolver) (node : Node) : Prop :=
  (∃ schema, node.additional = .typed schema) ∨ node.traits.preservesUnknown = true ∨
    node.additional.isOpen = true ∨ r.config.preservesUnknown.truthy = true

/-- The fragment at the site fails a check of its own with the error. -/
inductive Culprit (r : Resolver) (site : Site) (node : Node) : GeneratorError → Prop
  /-- The names of its properties are not reduced to one field for each identifier. -/
  | names {e : GeneratorError} (h : reduceCollisions r.names node.properties site.path = .error (.generator e)) :
      Culprit r site node e
  /-- A property becomes the field that the undeclared keys need. -/
  | catchAll {property : Scalar} {m : Node} (kept : (property, m) ∈ keptProperties r.names node.properties)
      (same : r.names.identifier property.text = additionalProperties) (catches : r.Catches node) :
      Culprit r site node
        (.duplicateField additionalProperties [property, .str additionalProperties] (.str site.path))
  /-- A type is generated for one member and for a later one. -/
  | types {a b : ClassMember} {type : String} (members : [a, b].Sublist (r.classMembers node))
      (ha : r.Generates site a type) (hb : r.Generates site b type) :
      Culprit r site node (.duplicateType type [a.name, b.name] (.str site.path))
  /-- Its values do not make an enum. -/
  | enum {e : GeneratorError} (shape : node.kind = .enum)
      (h : r.resolveEnum node site.name site.package site.owner? site.path = .error (.generator e)) :
      Culprit r site node e
  /-- Its type and format do not make a scalar type. -/
  | basic {e : GeneratorError} {type : Basic} (shape : node.kind = .basic type)
      (h : r.resolvePrimitive node site.path = .error (.generator e)) : Culprit r site node e

/-- A type is generated for a member whose name is not a number, and so differs from the name it was noted under. -/
def SelfClash (r : Resolver) (site : Site) (node : Node) (e : GeneratorError) : Prop :=
  ∃ member ∈ r.classMembers node, member.name = .float .nan ∧
    ∃ type, r.Generates site member type ∧ e = .duplicateType type [member.name, member.name] (.str site.path)

/-- Steps lead from the fragment to one that fails a check of its own with the error. -/
def Blames (r : Resolver) (site : Site) (node : Node) (e : GeneratorError) : Prop :=
  ∃ steps target, node.Leads steps target ∧
    (r.Culprit (steps.foldl r.after site) target e ∨ r.SelfClash (steps.foldl r.after site) target e)

variable {r : Resolver} {site : Site} {node : Node} {e : GeneratorError}

theorem Blames.part {part : Node} {step : Node.Step} (hp : node.HasPart step part)
    (h : r.Blames (r.after site step) part e) : r.Blames site node e := by
  obtain ⟨steps, target, leads, fails⟩ := h
  exact ⟨step :: steps, target, .step hp leads, fails⟩

@[simp]
theorem after_path (step : Node.Step) : (r.after site step).path = site.path ++ step.text := by
  cases step <;> rfl

theorem after_path_ne (step : Node.Step) : (r.after site step).path ≠ "" := by
  rw [after_path]
  exact fun h => step.text_ne (String.append_eq_empty_iff.1 h).2

theorem foldl_after_path (r : Resolver) (site : Site) (steps : List Node.Step) :
    (steps.foldl r.after site).path = steps.foldl (fun place step => place ++ step.text) site.path := by
  induction steps generalizing site with
  | nil => rfl
  | cons step steps ih => rw [List.foldl_cons, List.foldl_cons, ih, after_path]

section

variable {scope : Scope} {depth : Int} {required : List Scalar} {siblings : List (Scalar × Node)}

theorem liftM_ne_generator {α : Type} (x : Except Fault α) :
    (liftM x : Except Failure α) ≠ .error (.generator e) := by
  cases x <;> nofun

/-- Members fail with a failure of a property that is kept, or where such a property is added after others. -/
theorem resolveMembers_error {ps : List (Scalar × Node)} {m : Members}
    (h : r.resolveMembers scope depth required siblings m ps = .error (.generator e)) :
    (∃ p ∈ ps.filter (!givesWay r.names siblings ·),
      r.resolve (r.names.typeName p.1.text) scope.memberPackage (some scope.className)
        (scope.path ++ "." ++ p.1.text) (depth + 1) p.2 = .error (.generator e)) ∨
    ∃ (parts : List ResolvedMember) (part : ResolvedMember) (m₁ : Members),
      (∀ p ∈ parts ++ [part], p.ResolvedBy r scope depth required) ∧
      (parts ++ [part]).map ResolvedMember.property <+: ps.filter (!givesWay r.names siblings ·) ∧
      Members.Adds scope.path m (parts.map ResolvedMember.contribution) m₁ ∧
      m₁.add part.field part.name part.resolution.artifacts scope.path = .error (.generator e) := by
  induction ps generalizing m with
  | nil =>
    rw [resolveMembers] at h
    cases h
  | cons p ps ih =>
    obtain ⟨property, node⟩ := p
    rw [resolveMembers] at h
    split at h
    · next hg =>
      rw [List.filter_cons_of_neg (by simpa using hg)]
      exact ih h
    · next hg =>
      rw [List.filter_cons_of_pos (by simpa using hg)]
      rcases bind_eq_error.1 h with h | ⟨resolution, hres, h⟩
      · exact .inl ⟨_, List.mem_cons_self, h⟩
      rcases bind_eq_error.1 h with h | ⟨field, hfield, h⟩
      · exact absurd h (liftM_ne_generator _)
      have first : (⟨property, node, field, resolution⟩ : ResolvedMember).ResolvedBy r scope depth required :=
        ⟨hres, liftM_eq_ok.1 hfield⟩
      rcases bind_eq_error.1 h with h | ⟨m₁, hadd, h⟩
      · exact .inr ⟨[], ⟨property, node, field, resolution⟩, m, by simpa using first,
          by simp [ResolvedMember.property], .nil m, h⟩
      -- further on the property is one of those that were added before
      rcases ih h with ⟨p, hp, h⟩ | ⟨parts, part, m₂, resolved, kept, added, h⟩
      · exact .inl ⟨p, List.mem_cons_of_mem _ hp, h⟩
      · refine .inr ⟨⟨property, node, field, resolution⟩ :: parts, part, m₂, ?_, ?_, .cons hadd added, h⟩
        · exact List.forall_mem_cons.2 ⟨first, resolved⟩
        · exact List.cons_prefix_cons.2 ⟨rfl, kept⟩

theorem resolveAdditional_error {additional : Additional Node}
    (h : r.resolveAdditional scope depth additional = .error (.generator e)) :
    ∃ schema, additional = .typed schema ∧
      r.resolve (r.names.typeName additionalProperties) scope.memberPackage (some scope.className)
        (scope.path ++ ".\x7b\x7d") (depth + 1) schema = .error (.generator e) := by
  cases additional with
  | closed | «open» =>
    rw [resolveAdditional] at h
    cases h
  | typed schema =>
    rw [resolveAdditional] at h
    rcases bind_eq_error.1 h with h | ⟨value, -, h⟩
    · exact ⟨schema, rfl, h⟩
    · cases h

end

section

variable {path : String} (place : (r.scopeOf site.name site.package path).path = site.path)
include place

theorem resolveAt_property (name : Scalar) (n : Node) :
    r.resolveAt (r.after site (.property name)) n =
      r.resolve (r.names.typeName name.text) (r.scopeOf site.name site.package path).memberPackage
        (some (r.scopeOf site.name site.package path).className)
        ((r.scopeOf site.name site.package path).path ++ "." ++ name.text) (site.depth + 1) n := by
  rw [place, String.append_assoc]
  rfl

theorem resolveAt_additional (n : Node) :
    r.resolveAt (r.after site .additional) n =
      r.resolve (r.names.typeName additionalProperties) (r.scopeOf site.name site.package path).memberPackage
        (some (r.scopeOf site.name site.package path).className)
        ((r.scopeOf site.name site.package path).path ++ ".\x7b\x7d") (site.depth + 1) n := by
  rw [place]
  rfl

theorem generates_of_resolvedBy {required : List Scalar} {p : ResolvedMember}
    (h : p.ResolvedBy r (r.scopeOf site.name site.package path) site.depth required) {a : Descriptor}
    (ha : a ∈ p.resolution.artifacts) : r.Generates site (.ofProperty p.property) a.name :=
  ⟨p.resolution, (resolveAt_property place p.name p.node).trans h.resolve, a, ha, rfl⟩

end

/-- A member cannot be added after others that generate a type of its own. -/
theorem clash {parts : List ResolvedMember} {member : ClassMember} {artifacts : List Descriptor} {m : Members}
    {f : Field Descriptor}
    (resolved : ∀ p ∈ parts, ∀ a ∈ p.resolution.artifacts, r.Generates site (.ofProperty p.property) a.name)
    (added : Members.Adds site.path {} (parts.map ResolvedMember.contribution) m)
    (later : ∀ p ∈ parts, [.ofProperty p.property, member].Sublist (r.classMembers node))
    (mem : member ∈ r.classMembers node) (generates : ∀ a ∈ artifacts, r.Generates site member a.name)
    (h : m.add f member.name artifacts site.path = .error (.generator e)) :
    r.Culprit site node e ∨ r.SelfClash site node e := by
  rcases bind_eq_error.1 h with h | ⟨_, -, h⟩
  · obtain ⟨a, ha, first, differs, noted, he⟩ := Members.claim_error h
    cases he
    rcases noted with noted | rfl
    · rcases added.origin noted with noted | ⟨c, hc, rfl, a', ha', same⟩
      · cases noted
      · obtain ⟨p, hp, rfl⟩ := List.mem_map.1 hc
        exact .inl (.types (later p hp) (same ▸ resolved p hp a' ha') (generates a ha))
    · exact .inr ⟨member, mem, Scalar.eq_nan_of_same_self differs, a.name, generates a ha, rfl⟩
  · cases h

section

variable {traits : Traits} {properties : List (Scalar × Node)} {required : List Scalar}
  {additional : Additional Node}

theorem later_sublist {parts : List ResolvedMember} {p part : ResolvedMember}
    (kept : (parts ++ [part]).map ResolvedMember.property <+: keptProperties r.names properties) (hp : p ∈ parts) :
    [.ofProperty p.property, .ofProperty part.property].Sublist
      (r.classMembers (.object traits properties required additional)) := by
  have two : [p, part].Sublist (parts ++ [part]) := (List.singleton_sublist.2 hp).append (.refl [part])
  have among := (two.map ResolvedMember.property).trans kept.sublist
  exact (among.map ClassMember.ofProperty).trans (List.sublist_append_left _ _)

theorem catches_of_undeclared {scope : Scope} {depth : Int} {typed? : Option Resolution} {value : Resolution}
    (ht : r.resolveAdditional scope depth additional = .ok typed?)
    (hv : r.undeclared? traits additional typed? = some value) :
    r.Catches (.object traits properties required additional) := by
  rcases resolveAdditional_ok ht with ⟨rfl, -⟩ | ⟨schema, _, hs, -⟩
  · exact .inr (undeclared?_none_eq_some.1 hv).1
  · exact .inl ⟨schema, hs⟩

/-- The field of undeclared keys fails by a property that has its identifier or generates a type of its values. -/
theorem addCatchAll_error {path : String} (place : (r.scopeOf site.name site.package path).path = site.path)
    {declared : Members} {typed? : Option Resolution}
    (hm : r.resolveMembers (r.scopeOf site.name site.package path) site.depth required properties {} properties =
      .ok declared)
    (ht : r.resolveAdditional (r.scopeOf site.name site.package path) site.depth additional = .ok typed?)
    (h : r.addCatchAll (r.scopeOf site.name site.package path) declared (r.undeclared? traits additional typed?) =
      .error (.generator e)) :
    r.Culprit site (.object traits properties required additional) e ∨
      r.SelfClash site (.object traits properties required additional) e := by
  obtain ⟨parts, resolved, kept, added⟩ := resolveMembers_ok hm
  have property (p : ResolvedMember) (hp : p ∈ parts) : p.property ∈ keptProperties r.names properties := by
    rw [keptProperties, ← kept]
    exact List.mem_map_of_mem hp
  unfold addCatchAll at h
  rw [place] at h added
  split at h
  case h_2 => cases h
  next value hv =>
  rcases bind_eq_error.1 h with h | ⟨f, -, h⟩
  · obtain ⟨f, hf, identifier, rfl⟩ := Members.catchAllField_error h
    rw [added.fields] at hf
    obtain ⟨p, hp, rfl⟩ : ∃ p ∈ parts, p.field = f := by simpa [ResolvedMember.contribution] using hf
    obtain ⟨spelled, rawName, -, -⟩ := memberField_ok (resolved p hp).field
    rw [rawName]
    exact .inl (.catchAll (property p hp) (spelled ▸ identifier) (catches_of_undeclared ht hv))
  · rcases resolveAdditional_ok ht with ⟨rfl, -⟩ | ⟨schema, _, rfl, rfl, hres⟩
    · -- any objects generate nothing, so that there is nothing to clash
      rw [(undeclared?_none_eq_some.1 hv).2] at h
      cases h
    · cases hv
      have member : (⟨.str additionalProperties, .additional, schema⟩ : ClassMember) ∈
          r.classMembers (.object traits properties required (.typed schema)) :=
        List.mem_append_right _ (List.mem_singleton_self _)
      refine clash (fun p hp a ha => generates_of_resolvedBy place (resolved p hp) ha) added (fun p hp => ?_) member
        (fun a ha => ⟨value, (resolveAt_additional place schema).trans hres, a, ha, rfl⟩) h
      exact (List.singleton_sublist.2 (List.mem_map_of_mem (property p hp))).append (.refl _)

/-- A class fails by a check of its own, or one of its members does not resolve. -/
theorem buildClass_error (site : Site) {path : String}
    (place : (r.scopeOf site.name site.package path).path = site.path)
    (h : r.buildClass traits properties additional site.name site.package path
      (fun scope => r.resolveMembers scope site.depth required properties {} properties)
      (fun scope => r.resolveAdditional scope site.depth additional) = .error (.generator e)) :
    (r.Culprit site (.object traits properties required additional) e ∨
      r.SelfClash site (.object traits properties required additional) e) ∨
    ∃ step part, (Node.object traits properties required additional).HasPart step part ∧
      r.resolveAt (r.after site step) part = .error (.generator e) := by
  unfold buildClass at h
  simp only [] at h
  split at h
  · cases h
  rcases bind_eq_error.1 h with h | ⟨_, -, h⟩
  · rw [place] at h
    exact .inl (.inl (.names (bind_eq_error.2 (.inl h))))
  rcases bind_eq_error.1 h with h | ⟨declared, hm, h⟩
  · rcases resolveMembers_error h with ⟨p, hp, h⟩ | ⟨parts, part, m, resolved, kept, added, h⟩
    · refine .inr ⟨.property p.1, p.2, .property (List.mem_filter.1 hp).1, ?_⟩
      exact (resolveAt_property place p.1 p.2).trans h
    · rw [place] at added h
      have generates (p : ResolvedMember) (hp : p ∈ parts ++ [part]) (a : Descriptor)
          (ha : a ∈ p.resolution.artifacts) : r.Generates site (.ofProperty p.property) a.name :=
        generates_of_resolvedBy place (resolved p hp) ha
      have last : part.property ∈ keptProperties r.names properties := kept.subset (by simp)
      have member : .ofProperty part.property ∈ r.classMembers (.object traits properties required additional) :=
        List.mem_append_left _ (List.mem_map_of_mem last)
      exact .inl (clash (fun p hp => generates p (List.mem_append_left _ hp)) added
        (fun p hp => later_sublist kept hp) member (generates part (by simp)) h)
  rcases bind_eq_error.1 h with h | ⟨typed?, ht, h⟩
  · obtain ⟨schema, hs, fails⟩ := resolveAdditional_error h
    exact .inr ⟨.additional, schema, .additional hs, (resolveAt_additional place schema).trans fails⟩
  rcases bind_eq_error.1 h with h | ⟨_, -, h⟩
  · exact .inl (addCatchAll_error place hm ht h)
  · cases h

end

theorem checkDepth_ne_error {path : String} {depth : Int} (apart : ∀ limit place, e ≠ .tooDeep limit place) :
    r.checkDepth path depth ≠ .error (.generator e) := by
  unfold checkDepth
  split
  · rintro ⟨⟩
    exact apart _ _ rfl
  · nofun

/-- A guard fails by the nesting limit alone. -/
theorem guarded_error {path : String} {depth : Int} {traits : Traits} {x : Except Failure Resolution}
    (apart : ∀ limit place, e ≠ .tooDeep limit place)
    (h : (do
      r.checkDepth path depth
      if traits.intOrString then return existing r.types.intOrString else x) = .error (.generator e)) :
    x = .error (.generator e) := by
  rcases bind_eq_error.1 h with h | ⟨_, -, h⟩
  · exact absurd h (checkDepth_ne_error apart)
  · split at h
    · cases h
    · exact h

/-- Where a member does not resolve, a fragment below it is to blame, or the member itself. -/
theorem resolve_blames (apart : ∀ limit place, e ≠ .tooDeep limit place) (placed : site.path ≠ "")
    (h : r.resolveAt site node = .error (.generator e)) : r.Blames site node e := by
  induction node generalizing site with
  | object traits properties required additional ihp iha =>
    rw [resolveAt, resolve] at h
    have h := guarded_error apart h
    split at h
    · cases h
    rcases buildClass_error site (if_neg placed) h with fails | ⟨step, part, hs, h⟩
    · exact ⟨[], _, .here _, fails⟩
    · refine .part hs ?_
      cases hs with
      | property hm => exact ihp _ hm (after_path_ne _) h
      | additional ha => exact iha _ ha (after_path_ne _) h
  | array traits items ih =>
    rw [resolveAt, resolve] at h
    rcases bind_eq_error.1 (guarded_error apart h) with h | ⟨_, -, h⟩
    · exact .part (.items traits items) (ih (after_path_ne .items) h)
    · cases h
  | map traits values ih =>
    rw [resolveAt, resolve] at h
    rcases bind_eq_error.1 (guarded_error apart h) with h | ⟨_, -, h⟩
    · exact .part (.values traits values) (ih (after_path_ne .values) h)
    · cases h
  | enum traits base values =>
    rw [resolveAt, resolve] at h
    exact ⟨[], _, .here _, .inl (.enum rfl (guarded_error apart h))⟩
  | basic traits type =>
    rw [resolveAt, resolve] at h
    rcases bind_eq_error.1 (guarded_error apart h) with h | ⟨_, -, h⟩
    · exact ⟨[], _, .here _, .inl (.basic rfl h)⟩
    · cases h
  | any traits =>
    rw [resolveAt, resolve] at h
    rcases bind_eq_error.1 h with h | ⟨_, -, h⟩
    · exact absurd h (checkDepth_ne_error apart)
    · cases h

/-- The class of the root is at the place of its name. -/
theorem resolveObject_blames {root : Node} {name : String} {package : List String} {depth : Int}
    (apart : ∀ limit place, e ≠ .tooDeep limit place)
    (h : r.resolveObject root name package "" depth = .error (.generator e)) :
    r.Blames ⟨name, package, none, Naming.qualified package name, depth⟩ root.asObject e := by
  rcases bind_eq_error.1 h with h | ⟨_, -, h⟩
  · exact absurd h (checkDepth_ne_error apart)
  · rcases buildClass_error ⟨name, package, none, Naming.qualified package name, depth⟩ rfl h with
      fails | ⟨step, part, hs, h⟩
    · exact ⟨[], _, .here _, fails⟩
    · exact .part hs (resolve_blames apart (after_path_ne step) h)

/-- An object that generates a type twice has two members, or its properties are not reduced. -/
theorem Culprit.two_members {traits : Traits} {properties : List (Scalar × Node)} {required : List Scalar}
    {additional : Additional Node} {type : String} {names : List Scalar} {path : Value}
    (h : r.Culprit site (.object traits properties required additional) (.duplicateType type names path)) :
    2 ≤ (r.classMembers (.object traits properties required additional)).length ∨
      reduceCollisions r.names properties site.path = .error (.generator (.duplicateType type names path)) := by
  cases h with
  | names h => exact .inr h
  | types members => exact .inl members.length_le
  | enum shape => cases shape
  | basic shape => cases shape

/-- Whatever a fragment fails a check of its own with is at its place. -/
theorem Culprit.path_eq (faults : ∀ value primitive,
      OnlyFails (fun e => ∃ f, e = .fault f) (r.types.literal value primitive)) (h : r.Culprit site node e) :
    e.path = .str site.path := by
  have at_site {α : Type} {x : Except Failure α} (placed : OnlyFails (PlacedAt site.path) x)
      (h : x = .error (.generator e)) : e.path = .str site.path := by
    cases placed _ h with
    | error place => exact place
  cases h with
  | names h =>
    rcases bind_eq_error.1 h with h | ⟨_, -, h⟩
    · exact at_site (checkCollisions_placed _ _ _) h
    · cases h
  | catchAll => rfl
  | types => rfl
  | enum _ h =>
    refine at_site (resolveEnum_fails (fun _ he => he) (fun value primitive => ?_) _ _ _ _) h
    refine (faults value primitive).mono ?_
    rintro _ ⟨f, rfl⟩
    exact .fault f
  | basic _ h => exact at_site (resolvePrimitive_placed _ _) h

end Resolver

namespace Java

open Resolver

/-- An error that has nothing to do with nesting is at the place of a fragment that steps from the root lead to: the
qualified name of the root with the text of each step after it. That fragment fails a check of its own: its
properties are not reduced, the field of its undeclared keys clashes with another one, a type is generated for two
of its members, or its values, its type or its format are unfit. A member under a key that is not a number clashes
with itself as soon as a type is generated for it. -/
theorem error_at_culprit (config : Config) (names : Sanitizer) (types : TypeNames) (root : Node) (name : String)
    (package : List String) (depth : Int) (e : GeneratorError) :
    let r : Resolver := ⟨config, names, types.dialect⟩
    let place := Naming.qualified package name
    r.resolveObject root name package "" depth = .error (.generator e) →
      (∀ limit path, e ≠ .tooDeep limit path) →
        ∃ steps target, root.asObject.Leads steps target ∧
          e.path = .str (steps.foldl (fun text step => text ++ step.text) place) ∧
          let site := steps.foldl r.after ⟨name, package, none, place, depth⟩
          r.Culprit site target e ∨ r.SelfClash site target e := by
  intro r place h apart
  obtain ⟨steps, target, leads, fails⟩ := resolveObject_blames apart h
  refine ⟨steps, target, leads, ?_, fails⟩
  have text := foldl_after_path r ⟨name, package, none, place, depth⟩ steps
  rw [← text]
  rcases fails with fails | ⟨_, -, -, _, -, rfl⟩
  · exact fails.path_eq (literal_faults types)
  · rfl

/-- Lists of dictionaries of two spellings of one constant. -/
def shelvesValue : Value :=
  .map [(.str "properties", .map [(.str "shelves", .map [(.str "type", .str "array"),
    (.str "items", .map [(.str "additionalProperties",
      .map [(.str "enum", .list [.str "top-left", .str "top_left"])])])])])]

theorem error_at_culprit_shelves :
    ∃ root e, Node.ofValue shelvesValue .null (.levels 64) = .ok root ∧
      (generator {}).resolver.resolveObject root "Store" ["io"] "" 0 = .error (.generator e) ∧
      e.path = .str "io.Store.shelves[]\x7b\x7d" ∧ ∃ steps target, root.asObject.Leads steps target ∧
        e.path = .str (steps.foldl (fun text step => text ++ step.text) "io.Store") ∧
        let site := steps.foldl (generator {}).resolver.after ⟨"Store", ["io"], none, "io.Store", 0⟩
        (generator {}).resolver.Culprit site target e ∨ (generator {}).resolver.SelfClash site target e :=
  ⟨_, _, rfl, rfl, rfl, error_at_culprit {} sanitizer {} _ "Store" ["io"] 0 _ rfl nofun⟩

/-- A property whose key is not a number, and whose values are objects. -/
def nanValue : Value :=
  .map [(.str "properties", .map [(.float .nan, .map [(.str "properties", .map [])])])]

/-- There the class is refused for the one member that it has, though no fragment at its place fails a check. -/
theorem no_culprit_nan :
    ∃ root e, Node.ofValue nanValue .null (.levels 64) = .ok root ∧
      (generator {}).resolver.resolveObject root "Store" ["io"] "" 0 = .error (.generator e) ∧
      (∃ type members path, e = .duplicateType type members path) ∧
      ¬ ∃ steps target, root.asObject.Leads steps target ∧
        e.path = .str (steps.foldl (fun text step => text ++ step.text) "io.Store") ∧
        (generator {}).resolver.Culprit
          (steps.foldl (generator {}).resolver.after ⟨"Store", ["io"], none, "io.Store", 0⟩) target e := by
  refine ⟨_, _, rfl, rfl, ⟨_, _, _, rfl⟩, ?_⟩
  rintro ⟨steps, target, leads, place, culprit⟩
  obtain rfl : steps = [] := Node.Step.eq_nil_of_text (Scalar.str.inj (Value.scalar.inj place)).symm
  cases leads
  rcases culprit.two_members with members | names
  · exact absurd members (by decide)
  · cases names

end Java

end ResourceCompiler
