import Mathlib.Data.List.Perm.Subperm
import ResourceCompiler.Proofs.Compilation
import ResourceCompiler.Proofs.Java.Identifiers
import ResourceCompiler.Proofs.Resolver.Artifacts

/-!
# Where artifacts come from

Every class of a compilation was built from an object, what it nests is generated as well, and every enum
is that of a field of one of the classes: `Resolver.Closed`. A member of a class resolves to an enum
that the class has to declare, perhaps inside lists and maps, or to artifacts that are closed already
(`Resolver.Settles`), so that whole compilations are closed (`Compiles.closed`).
-/

namespace ResourceCompiler

namespace Descriptor

/-- The type behind arrays and maps. -/
def core : Descriptor → Descriptor
  | .array _ element => element.core
  | .map _ value => value.core
  | t => t
termination_by structural t => t

theorem flatten_of_core {d : Descriptor} {e : EnumType} (h : d.core = .enum e) : d.flatten = [.enum e] := by
  fun_induction core d with
  | case1 name element ih => exact ih h
  | case2 name value ih => exact ih h
  | case3 t =>
    subst h
    rfl

theorem mem_flatten_of_core {d : Descriptor} {e : EnumType} (h : d.core = .enum e) : .enum e ∈ d.flatten := by
  rw [flatten_of_core h]
  exact List.mem_singleton_self _

end Descriptor

namespace Resolver

variable {r : Resolver} {name : String} {package : List String} {owner? : Option String} {path : String}
  {depth : Int} {res : Resolution} {t : ObjectType Descriptor} {e : EnumType} {f : Field Descriptor}

/-- A field of a class with what its fragment resolved to, which the catch-all field holds inside a map. -/
inductive Supplied (r : Resolver) (parts : List ResolvedMember) (value? : Option Resolution) :
    Field Descriptor → Resolution → Prop
  | declared {p : ResolvedMember} (hp : p ∈ parts) : Supplied r parts value? p.field p.resolution
  | catchAll {value : Resolution} (hv : value ∈ value?.toList) :
      Supplied r parts value? (r.catchAll value).field value

namespace Builds

variable {traits : Traits} {properties : List (Scalar × Node)} {required : List Scalar}
  {additional : Additional Node} {parts : List ResolvedMember} {typed? : Option Resolution}

theorem exists_supplied
    (h : Builds r traits properties required additional name package path depth parts typed? t)
    (hf : f ∈ t.fields) : ∃ res, r.Supplied parts (r.undeclared? traits additional typed?) f res := by
  rw [h.fields] at hf
  rcases List.mem_append.1 hf with hf | hf
  · obtain ⟨p, hp, rfl⟩ := List.mem_map.1 hf
    exact ⟨p.resolution, .declared hp⟩
  · obtain ⟨value, hv, rfl⟩ := List.mem_map.1 hf
    exact ⟨value, .catchAll hv⟩

theorem mem_fields (h : Builds r traits properties required additional name package path depth parts typed? t)
    (hs : r.Supplied parts (r.undeclared? traits additional typed?) f res) : f ∈ t.fields := by
  rw [h.fields]
  cases hs with
  | declared hp => exact List.mem_append_left _ (List.mem_map_of_mem hp)
  | catchAll hv => exact List.mem_append_right _ (List.mem_map_of_mem hv)

theorem supplied_of_mem_nested
    (h : Builds r traits properties required additional name package path depth parts typed? t)
    {a : Descriptor} (ha : a ∈ t.nested) :
    ∃ f res, r.Supplied parts (r.undeclared? traits additional typed?) f res ∧ a ∈ res.artifacts := by
  rw [h.nested] at ha
  rcases List.mem_append.1 ha with ha | ha
  · obtain ⟨p, hp, ha⟩ := List.mem_flatMap.1 ha
    exact ⟨_, _, .declared hp, ha⟩
  · obtain ⟨value, hv, ha⟩ := List.mem_flatMap.1 ha
    exact ⟨_, _, .catchAll hv, ha⟩

theorem artifacts_sublist
    (h : Builds r traits properties required additional name package path depth parts typed? t)
    (hs : r.Supplied parts (r.undeclared? traits additional typed?) f res) :
    res.artifacts.Sublist t.nested := by
  rw [h.nested]
  rw [List.flatMap_def, List.flatMap_def]
  cases hs with
  | declared hp =>
    have here := List.sublist_flatten_of_mem (List.mem_map_of_mem (f := (·.resolution.artifacts)) hp)
    exact here.trans (List.sublist_append_left _ _)
  | catchAll hv =>
    have here := List.sublist_flatten_of_mem (List.mem_map_of_mem (f := Resolution.artifacts) hv)
    exact here.trans (List.sublist_append_right _ _)

theorem core_eq (h : Builds r traits properties required additional name package path depth parts typed? t)
    (hs : r.Supplied parts (r.undeclared? traits additional typed?) f res) :
    f.type.core = res.type.core := by
  cases hs with
  | declared hp => rw [(memberField_ok (h.resolved _ hp).field).2.2.1]
  | catchAll => rfl

/-- What holds of all parts under the names they resolve for holds of all fields. -/
theorem forall_supplied
    (h : Builds r traits properties required additional name package path depth parts typed? t)
    {P : String → Resolution → Prop} (member : ∀ p ∈ parts, P (r.names.typeName p.name.text) p.resolution)
    (value : ∀ v ∈ (r.undeclared? traits additional typed?).toList,
      P (r.names.typeName additionalProperties) v)
    (hs : r.Supplied parts (r.undeclared? traits additional typed?) f res) :
    P (r.names.typeName f.rawName.text) res := by
  cases hs with
  | declared hp =>
    rw [(memberField_ok (h.resolved _ hp).field).2.1]
    exact member _ hp
  | catchAll hv => exact value _ hv

/-- An invariant holds of what the fields were resolved to, as members of the class. -/
theorem supplied_of_invariant
    (h : Builds r traits properties required additional name package path depth parts typed? t)
    {P : String → List String → Option String → Resolution → Prop} (i : r.Invariant P)
    (hs : r.Supplied parts (r.undeclared? traits additional typed?) f res) :
    P (r.names.typeName f.rawName.text) (package ++ [r.names.packageSegment name])
      (some (Naming.qualified package name)) res := by
  refine h.forall_supplied (P := fun name res => P name _ _ res) (fun p hp => ?_) (fun v hv => ?_) hs
  · exact i.resolve (h.resolved p hp).resolve
  · rcases h.mem_undeclared hv with rfl | ⟨schema, -, hr⟩
    · exact i.existing _
    · exact i.resolve hr

end Builds

/-- An object with a name became this class. -/
inductive Built (r : Resolver) (t : ObjectType Descriptor) : Prop
  | intro {traits : Traits} {properties : List (Scalar × Node)} {required : List Scalar}
      {additional : Additional Node} {name : String} {package : List String} {path : String} {depth : Int}
      {parts : List ResolvedMember} {typed? : Option Resolution}
      (h : Builds r traits properties required additional name package path depth parts typed? t)
      (hn : name ≠ "") : Built r t

/-- Some fragment becomes the enum, under the name and inside the owner. -/
def Makes (r : Resolver) (name : String) (owner? : Option String) (e : EnumType) : Prop :=
  ∃ node package path, r.resolveEnum node name package owner? path = .ok ⟨.enum e, [.enum e]⟩

/-- The classes among artifacts were built, what they nest is there as well, and enums belong to fields of
classes. -/
structure Closed (r : Resolver) (artifacts : List Descriptor) : Prop where
  built : ∀ t, .object t ∈ artifacts → r.Built t
  nested : ∀ t, .object t ∈ artifacts → t.nested.Subperm artifacts
  declared : ∀ e, .enum e ∈ artifacts → ∃ t, .object t ∈ artifacts ∧ ∃ f ∈ t.fields, f.type.core = .enum e

namespace Closed

variable {artifacts others : List Descriptor}

theorem nil : r.Closed [] := ⟨by simp, by simp, by simp⟩

theorem append (h : r.Closed artifacts) (h' : r.Closed others) : r.Closed (artifacts ++ others) := by
  have left : artifacts.Subperm (artifacts ++ others) := (List.sublist_append_left _ _).subperm
  have right : others.Subperm (artifacts ++ others) := (List.sublist_append_right _ _).subperm
  refine ⟨fun t ht => ?_, fun t ht => ?_, fun e he => ?_⟩
  · rcases List.mem_append.1 ht with ht | ht
    · exact h.built t ht
    · exact h'.built t ht
  · rcases List.mem_append.1 ht with ht | ht
    · exact (h.nested t ht).trans left
    · exact (h'.nested t ht).trans right
  · rcases List.mem_append.1 he with he | he
    · obtain ⟨t, ht, hf⟩ := h.declared e he
      exact ⟨t, left.subset ht, hf⟩
    · obtain ⟨t, ht, hf⟩ := h'.declared e he
      exact ⟨t, right.subset ht, hf⟩

theorem resource (t : ResourceType Descriptor) : r.Closed [.resource t] := ⟨by simp, by simp, by simp⟩

theorem perm (h : r.Closed artifacts) (hp : artifacts.Perm others) : r.Closed others := by
  refine ⟨fun t ht => h.built t (hp.mem_iff.2 ht), fun t ht => ?_, fun e he => ?_⟩
  · exact (h.nested t (hp.mem_iff.2 ht)).trans hp.subperm
  · obtain ⟨t, ht, hf⟩ := h.declared e (hp.mem_iff.2 he)
    exact ⟨t, hp.mem_iff.1 ht, hf⟩

end Closed

/-- What a member resolves to: an enum that is still to be declared, or nothing of that kind. -/
inductive Settles (r : Resolver) (name : String) (owner? : Option String) (res : Resolution) : Prop
  | enum {e : EnumType} (made : r.Makes name owner? e) (type : res.type.core = .enum e)
      (artifacts : res.artifacts = [.enum e])
  | closed (type : ∀ e, res.type.core ≠ .enum e) (artifacts : r.Closed res.artifacts)

theorem Settles.existing (type : String) : r.Settles name owner? (existing type) :=
  .closed (by simp [Resolver.existing, Descriptor.core]) .nil

theorem Builds.closed {traits : Traits} {properties : List (Scalar × Node)} {required : List Scalar}
    {additional : Additional Node} {parts : List ResolvedMember} {typed? : Option Resolution}
    (h : Builds r traits properties required additional name package path depth parts typed? t)
    (hn : name ≠ "")
    (settled : ∀ f res, r.Supplied parts (r.undeclared? traits additional typed?) f res →
      r.Settles (r.names.typeName f.rawName.text) (some t.name) res) :
    r.Closed (t.nested ++ [.object t]) := by
  have inside : t.nested.Subperm (t.nested ++ [.object t]) := (List.sublist_append_left _ _).subperm
  -- an artifact below the class is the enum of one of its fields or among artifacts that are closed
  have below : ∀ a ∈ t.nested, (∃ e, a = .enum e ∧ ∃ f ∈ t.fields, f.type.core = .enum e) ∨
      ∃ artifacts, a ∈ artifacts ∧ r.Closed artifacts ∧ artifacts.Sublist t.nested := by
    intro a ha
    obtain ⟨f, res, hs, ha⟩ := h.supplied_of_mem_nested ha
    cases settled f res hs with
    | @enum e made type artifacts =>
      rw [artifacts, List.mem_singleton] at ha
      exact .inl ⟨e, ha, f, h.mem_fields hs, (h.core_eq hs).trans type⟩
    | closed type artifacts => exact .inr ⟨res.artifacts, ha, artifacts, h.artifacts_sublist hs⟩
  refine ⟨fun u hu => ?_, fun u hu => ?_, fun e he => ?_⟩
  · rcases List.mem_append.1 hu with hu | hu
    · rcases below _ hu with ⟨e, he, -⟩ | ⟨artifacts, ha, closed, -⟩
      · cases he
      · exact closed.built u ha
    · cases List.mem_singleton.1 hu
      exact .intro h hn
  · rcases List.mem_append.1 hu with hu | hu
    · rcases below _ hu with ⟨e, he, -⟩ | ⟨artifacts, ha, closed, sub⟩
      · cases he
      · exact ((closed.nested u ha).trans sub.subperm).trans inside
    · cases List.mem_singleton.1 hu
      exact inside
  · rcases List.mem_append.1 he with he | he
    · rcases below _ he with ⟨e', he', f, hf, hc⟩ | ⟨artifacts, ha, closed, sub⟩
      · cases he'
        exact ⟨t, List.mem_append_right _ (List.mem_singleton_self _), f, hf, hc⟩
      · obtain ⟨u, hu, hf⟩ := closed.declared e ha
        exact ⟨u, List.mem_append_left _ (sub.subset hu), hf⟩
    · cases List.mem_singleton.1 he

theorem settles (r : Resolver) :
    r.Invariant fun name _ owner? res => name ≠ "" → r.Settles name owner? res where
  existing type _ := .existing type
  primitive type _ := .closed (by simp [Descriptor.core]) .nil
  enum h _ := by
    obtain ⟨e, rfl, -⟩ := resolveEnum_ok h
    exact .enum ⟨_, _, _, h⟩ rfl rfl
  array h hn := by
    cases h hn with
    | enum made type artifacts => exact .enum made type artifacts
    | closed type artifacts => exact .closed type artifacts
  map h hn := by
    cases h hn with
    | enum made type artifacts => exact .enum made type artifacts
    | closed type artifacts => exact .closed type artifacts
  built h member value hn := by
    refine .closed (by simp [Descriptor.core]) (h.closed hn fun f res hs => ?_)
    rw [h.named]
    exact h.forall_supplied (P := fun name res => r.Settles name _ res)
      (fun p hp => member p hp (r.names.typeName_ne_empty _))
      (fun v hv => value v hv (r.names.typeName_ne_empty _)) hs

theorem resolveObject_closed {node : Node} (hn : name ≠ "")
    (h : r.resolveObject node name package path depth = .ok res) : r.Closed res.artifacts := by
  cases r.settles.resolveObject none h hn with
  | enum made type artifacts =>
    cases resolveObject_ok h with
    | replaced => cases type
    | built => cases type
  | closed type artifacts => exact artifacts

theorem assemble_closed {kind : String} {info : ResourceInfo} {spec status : Option Node}
    (h : r.assemble kind package info spec status = .ok res) : r.Closed res.artifacts := by
  obtain ⟨specs, statuses, t, rfl, -, -, -, -, hs, ht⟩ := assemble_ok h
  have longer (suffix : String) : r.names.typeName kind ++ suffix ≠ "" :=
    fun he => r.names.typeName_ne_empty kind (String.append_eq_empty_iff.1 he).1
  have specs_closed : r.Closed specs := hs.elim .nil fun _ _ _ h => resolveObject_closed (longer _) h
  have statuses_closed : r.Closed statuses := ht.elim .nil fun _ _ _ h => resolveObject_closed (longer _) h
  exact (specs_closed.append statuses_closed).append (.resource t)

namespace Makes

theorem simpleName (h : r.Makes name owner? e) : e.simpleName = name := by
  obtain ⟨node, package, path, h⟩ := h
  obtain ⟨e', he, hs, -, -⟩ := resolveEnum_ok h
  cases he
  exact hs

theorem owner (h : r.Makes name owner? e) : e.owner? = owner? := by
  obtain ⟨node, package, path, h⟩ := h
  obtain ⟨e', he, -, -, ho, -⟩ := resolveEnum_ok h
  cases he
  exact ho

theorem constants (h : r.Makes name owner? e) :
    ∀ k ∈ e.entries, ∃ token path, r.ConstantOf e.backing.primitive path token k := by
  obtain ⟨node, package, path, h⟩ := h
  obtain ⟨e', he, -, -, -, -, tokens, -, entries⟩ := resolveEnum_ok h
  cases he
  intro k hk
  obtain ⟨token, -, constant⟩ := exists_of_mem_right entries hk
  exact ⟨token, path, constant⟩

theorem named {owner : String} (h : r.Makes name (some owner) e) (hne : owner ≠ "") :
    e.name = r.types.inner owner name := by
  obtain ⟨node, package, path, h⟩ := h
  obtain ⟨e', he, -, hn, -⟩ := resolveEnum_ok h
  cases he
  rw [hn, enumName]
  simp only [hne, ↓reduceIte]

end Makes

namespace Built

/-- The enum that a field is or holds is made for its property and declared in the class. -/
theorem makes (h : r.Built t) (hf : f ∈ t.fields) (hc : f.type.core = .enum e) :
    r.Makes (r.names.typeName f.rawName.text) (some t.name) e := by
  cases h with
  | intro h hn =>
    obtain ⟨res, hs⟩ := h.exists_supplied hf
    have settled : r.Settles (r.names.typeName f.rawName.text) (some t.name) res := by
      rw [h.named]
      exact h.supplied_of_invariant r.settles hs (r.names.typeName_ne_empty _)
    cases settled with
    | enum made type artifacts =>
      rw [h.core_eq hs, type] at hc
      cases hc
      exact made
    | closed type artifacts => exact absurd ((h.core_eq hs).symm.trans hc) (type e)

theorem nested_eq (h : r.Built t) : t.nested = t.fields.flatMap (·.type.flatten) := by
  cases h with
  | intro h hn =>
    obtain ⟨hp, hv⟩ := h.children (P := Resolution.Flat) (existing_flat _)
      (fun p hp _ _ _ _ _ _ hr => resolve_flat hr) (fun s hs _ _ _ _ _ _ hr => resolve_flat hr)
    have flat := (h.flat hp hv).artifacts
    rw [Descriptor.flatten_object] at flat
    exact List.append_cancel_right flat

theorem name_ne_empty (h : r.Built t) : t.name ≠ "" := by
  cases h with
  | @intro _ _ _ _ name package _ _ _ _ h hn =>
    rw [h.named]
    exact fun he => hn (Naming.qualified_eq_empty_iff.1 he).2

end Built

namespace Compiles

variable {c : Compilation}

theorem closed (h : r.Compiles c) : r.Closed c.artifacts := by
  obtain ⟨res, hc, h⟩ := h.resolution
  have closed : r.Closed res.artifacts := by
    rcases h with ⟨root, name, package, path, depth, h⟩ | ⟨kind, package, info, spec, status, h⟩
    · exact resolveObject_closed (r.names.typeName_ne_empty name) h
    · exact assemble_closed h
  exact closed.perm (Compilation.artifacts_perm hc).symm

theorem names_nodup (h : r.Compiles c) : (c.artifacts.map (·.name)).Nodup := by
  obtain ⟨res, hc, -⟩ := h.resolution
  obtain ⟨-, nodup, -⟩ := Compilation.ofResolution_eq_ok.1 hc
  exact ((Compilation.artifacts_perm hc).map _).nodup_iff.2 nodup

theorem isUnit (h : r.Compiles c) : ∀ t ∈ c.topLevel, t.isUnit = true := by
  obtain ⟨res, hc, -⟩ := h.resolution
  exact Compilation.isUnit_of_mem_topLevel hc

theorem mem_inner (h : r.Compiles c) (he : .enum e ∈ c.artifacts) : e ∈ c.inner := by
  rcases List.mem_append.1 he with he | he
  · cases h.isUnit _ he
  · obtain ⟨e', he', heq⟩ := List.mem_map.1 he
    cases heq
    exact he'

theorem mem_topLevel (ht : .object t ∈ c.artifacts) : .object t ∈ c.topLevel := by
  rcases List.mem_append.1 ht with ht | ht
  · exact ht
  · obtain ⟨e, -, he⟩ := List.mem_map.1 ht
    cases he

theorem units_nodup (h : r.Compiles c) : (c.topLevel.map (·.name)).Nodup := by
  have all := h.names_nodup
  rw [Compilation.artifacts, List.map_append] at all
  exact (List.nodup_append.1 all).1

theorem enums_nodup (h : r.Compiles c) : (c.inner.map (·.name)).Nodup := by
  have all := h.names_nodup
  rw [Compilation.artifacts, List.map_append, List.map_map] at all
  exact (List.nodup_append.1 all).2.1

theorem built (h : r.Compiles c) (ht : .object t ∈ c.topLevel) : r.Built t :=
  h.closed.built t (List.mem_append_left _ ht)

end Compiles

/-- A class that an existing type is configured for is never generated, at whatever depth and behind
whatever lists and maps it would stand. -/
theorem existing_not_generated (r : Resolver) (c : Compilation) (h : r.Compiles c) :
    ∀ t, .object t ∈ c.artifacts → t.name ∉ r.config.existingTypes.map (·.1) := by
  intro t ht
  cases h.closed.built t ht with
  | intro built hn =>
    have free := built.generated
    rw [← built.named, Config.existingType?, List.lookup_eq_none_iff] at free
    intro hm
    obtain ⟨entry, he, hk⟩ := List.mem_map.1 hm
    exact absurd hk.symm (by simpa using free entry he)

/-- An object with an enum and a class behind a list. -/
def diskValue : Value :=
  .map [(.str "type", .str "object"), (.str "properties", .map [
    (.str "mode", .map [(.str "enum", .list [.str "on", .str "off"])]),
    (.str "parts", .map [(.str "type", .str "array"),
      (.str "items", .map [(.str "type", .str "object"),
        (.str "properties", .map [(.str "size", .map [(.str "type", .str "integer")])])])])])]

/-- Existing types for the class, for the enum and for a resource. -/
def diskConfig : Config where
  existingTypes := [("io.disk.Parts", "acme.Part"), ("io.Disk.Mode", "acme.Mode"),
    ("io.test.v1.Disk", "acme.Disk")]

theorem existing_not_generated_disk :
    ∃ c, (Java.generator diskConfig).resolver.Compiles c ∧
      (∀ t, .object t ∈ c.artifacts → t.name ∉ diskConfig.existingTypes.map (·.1)) ∧
        c.topLevel.map (·.name) = ["io.Disk"] ∧
          c.topLevel.map (·.fields.map (·.type.name)) = [["io.Disk.Mode", "java.util.List<acme.Part>"]] := by
  obtain ⟨c, hc, names⟩ : ∃ c,
      (Java.generator diskConfig).resolver.compileSchema diskValue "Disk" (.str "io") = .ok c ∧
        c.topLevel.map (·.name) = ["io.Disk"] ∧
          c.topLevel.map (·.fields.map (·.type.name)) = [["io.Disk.Mode", "java.util.List<acme.Part>"]] :=
    ⟨_, rfl, by decide +kernel⟩
  exact ⟨c, .schema hc, existing_not_generated _ c (.schema hc), names⟩

/-- A definition without a schema. -/
def diskDefinition : Value :=
  .map [(.str "spec", .map [(.str "group", .str "test.io"),
    (.str "names", .map [(.str "kind", .str "Disk")]),
    (.str "versions", .list [.map [(.str "name", .str "v1")]])])]

/-- Enums and resources are generated even where an existing type has their name. -/
theorem existing_enum_and_resource_generated :
    (∃ c, (Java.generator diskConfig).resolver.compileSchema diskValue "Disk" (.str "io") = .ok c ∧
      c.inner.map (·.name) = ["io.Disk.Mode"]) ∧
    (∃ c, (Java.generator diskConfig).resolver.compileDefinition diskDefinition = .ok [c] ∧
      c.topLevel.map (·.name) = ["io.test.v1.Disk"]) ∧
    "io.Disk.Mode" ∈ diskConfig.existingTypes.map (·.1) ∧
    "io.test.v1.Disk" ∈ diskConfig.existingTypes.map (·.1) :=
  ⟨⟨_, rfl, by decide +kernel⟩, ⟨_, rfl, by decide +kernel⟩, by decide, by decide⟩

end Resolver

end ResourceCompiler
