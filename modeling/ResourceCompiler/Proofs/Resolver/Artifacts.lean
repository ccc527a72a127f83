import Mathlib.Data.List.Basic
import ResourceCompiler.Java.Generator
import ResourceCompiler.Proofs.Compile
import ResourceCompiler.Proofs.Resolver.Invariant

/-!
# The artifacts of a resolution

`Descriptor.flatten` reads off a type what it takes to declare it: for a class everything its fields
mention, in the order of the fields, and then the class. `artifacts_eq_flatten`: these are exactly the
artifacts of a resolution, and every class in it holds its own ones as `nested`. For a resource they
are those of the spec, those of the status and the resource.
-/

namespace ResourceCompiler

namespace Descriptor

mutual

/-- The types that have to be generated for a type, children before their parents. -/
def flatten : Descriptor → List Descriptor
  | .primitive _ | .existing _ => []
  | .array _ element => element.flatten
  | .map _ value => value.flatten
  | .enum type => [.enum type]
  | .object type => flattenClass type ++ [.object type]
  | .resource type => type.nested ++ [.resource type]
termination_by structural t => t

def flattenClass : ObjectType Descriptor → List Descriptor
  | ⟨_, _, fields, _, _, _, _⟩ => flattenFields fields
termination_by structural t => t

def flattenFields : List (Field Descriptor) → List Descriptor
  | [] => []
  | f :: fs => flattenField f ++ flattenFields fs
termination_by structural fs => fs

def flattenField : Field Descriptor → List Descriptor
  | ⟨_, _, type, _, _, _, _, _, _⟩ => type.flatten
termination_by structural f => f

end

theorem flattenField_eq (f : Field Descriptor) : flattenField f = f.type.flatten := by
  cases f
  rw [flattenField]

theorem flattenFields_eq (fs : List (Field Descriptor)) :
    flattenFields fs = fs.flatMap (·.type.flatten) := by
  induction fs with
  | nil => rfl
  | cons f fs ih => rw [flattenFields, flattenField_eq, ih, List.flatMap_cons]

@[simp]
theorem flatten_object (t : ObjectType Descriptor) :
    (object t).flatten = t.fields.flatMap (·.type.flatten) ++ [.object t] := by
  rw [flatten, ← flattenFields_eq]
  cases t
  rw [flattenClass]

/-- A type stands somewhere inside another one, or is that one. -/
inductive Occurs (d : Descriptor) : Descriptor → Prop
  | self : Occurs d d
  | element {name : String} {e : Descriptor} (h : Occurs d e) : Occurs d (.array name e)
  | value {name : String} {v : Descriptor} (h : Occurs d v) : Occurs d (.map name v)
  | field {t : ObjectType Descriptor} {f : Field Descriptor} (hf : f ∈ t.fields) (h : Occurs d f.type) :
      Occurs d (.object t)
  | nested {t : ObjectType Descriptor} {a : Descriptor} (ha : a ∈ t.nested) (h : Occurs d a) :
      Occurs d (.object t)

/-- Every class inside a type has as `nested` what is generated for it, the class itself left out. -/
def HoldsNested (d : Descriptor) : Prop :=
  ∀ t : ObjectType Descriptor, Occurs (.object t) d → t.nested = (object t).flatten.dropLast

namespace HoldsNested

theorem array {name : String} {e : Descriptor} (h : HoldsNested e) : HoldsNested (.array name e) := by
  intro t ht
  cases ht with
  | element ht => exact h t ht

theorem map {name : String} {v : Descriptor} (h : HoldsNested v) : HoldsNested (.map name v) := by
  intro t ht
  cases ht with
  | value ht => exact h t ht

theorem existing (name : String) : HoldsNested (.existing name) := by
  intro t ht
  cases ht

theorem primitive (type : PrimitiveType) : HoldsNested (.primitive type) := by
  intro t ht
  cases ht

theorem enum (type : EnumType) : HoldsNested (.enum type) := by
  intro t ht
  cases ht

theorem object {t : ObjectType Descriptor} (hn : t.nested = t.fields.flatMap (·.type.flatten))
    (hf : ∀ f ∈ t.fields, HoldsNested f.type) (ha : ∀ a ∈ t.nested, HoldsNested a) :
    HoldsNested (.object t) := by
  intro u hu
  cases hu with
  | self => rw [flatten_object, List.dropLast_concat, hn]
  | field hf' hu => exact hf _ hf' u hu
  | nested ha' hu => exact ha _ ha' u hu

end HoldsNested

end Descriptor

open Descriptor (HoldsNested)

/-- The artifacts of a resolution are what is generated for its type, and the classes in it hold theirs. -/
structure Resolution.Flat (res : Resolution) : Prop where
  artifacts : res.artifacts = res.type.flatten
  type : HoldsNested res.type
  all : ∀ a ∈ res.artifacts, HoldsNested a

namespace Resolver

variable {r : Resolver} {name : String} {package : List String} {owner? : Option String}
  {path : String} {depth : Int} {res : Resolution}

theorem existing_flat (name : String) : (existing name).Flat :=
  ⟨rfl, .existing name, fun a ha => by cases ha⟩

/-- The fields of a class mention what its parts resolved to, the catch-all field inside a map. -/
theorem Builds.flat {traits : Traits} {properties : List (Scalar × Node)} {required : List Scalar}
    {additional : Additional Node} {parts : List ResolvedMember} {typed? : Option Resolution}
    {t : ObjectType Descriptor}
    (h : Builds r traits properties required additional name package path depth parts typed? t)
    (hp : ∀ p ∈ parts, p.resolution.Flat)
    (hv : ∀ value ∈ (r.undeclared? traits additional typed?).toList, value.Flat) :
    Resolution.Flat ⟨.object t, t.nested ++ [.object t]⟩ := by
  have type_eq : ∀ p ∈ parts, p.field.type = p.resolution.type := fun p hp =>
    (memberField_ok (h.resolved p hp).field).2.2.1
  -- each field brought its artifacts along, and they are what is generated for its type
  have hn : t.nested = t.fields.flatMap (·.type.flatten) := by
    rw [h.nested, h.fields, List.flatMap_append, List.flatMap_map, List.flatMap_map]
    congr 1
    · refine List.flatMap_congr fun p hpp => ?_
      rw [type_eq p hpp, (hp p hpp).artifacts]
    · refine List.flatMap_congr fun value hvv => ?_
      exact (hv value hvv).artifacts
  have hf : ∀ f ∈ t.fields, HoldsNested f.type := by
    intro f hf
    rw [h.fields, List.mem_append] at hf
    rcases hf with hf | hf
    · obtain ⟨p, hpp, rfl⟩ := List.mem_map.1 hf
      rw [type_eq p hpp]
      exact (hp p hpp).type
    · obtain ⟨value, hvv, rfl⟩ := List.mem_map.1 hf
      exact .map (hv value hvv).type
  have ha : ∀ a ∈ t.nested, HoldsNested a := by
    intro a ha
    rw [h.nested, List.mem_append] at ha
    rcases ha with ha | ha
    · obtain ⟨p, hpp, ha⟩ := List.mem_flatMap.1 ha
      exact (hp p hpp).all a ha
    · obtain ⟨value, hvv, ha⟩ := List.mem_flatMap.1 ha
      exact (hv value hvv).all a ha
  have ht : HoldsNested (.object t) := .object hn hf ha
  refine ⟨by rw [Descriptor.flatten_object, hn], ht, fun a ha' => ?_⟩
  rcases List.mem_append.1 ha' with ha' | ha'
  · exact ha a ha'
  · rw [List.mem_singleton.1 ha']
    exact ht

theorem flat_invariant (r : Resolver) : r.Invariant fun _ _ _ res => res.Flat where
  existing := existing_flat
  primitive type := ⟨rfl, .primitive type, fun a ha => by cases ha⟩
  enum h := by
    obtain ⟨type, rfl, -⟩ := resolveEnum_ok h
    refine ⟨rfl, .enum type, fun a ha => ?_⟩
    rw [List.mem_singleton.1 ha]
    exact .enum type
  array h := ⟨h.artifacts, .array h.type, h.all⟩
  map h := ⟨h.artifacts, .map h.type, h.all⟩
  built h := h.flat

theorem resolve_flat {node : Node} (h : r.resolve name package owner? path depth node = .ok res) :
    res.Flat :=
  r.flat_invariant.resolve h

theorem resolveObject_flat {node : Node} (h : r.resolveObject node name package path depth = .ok res) :
    res.Flat :=
  r.flat_invariant.resolveObject none h

/-- The artifacts of a resolution are what is generated for its type; those of a resource are those of
its spec, those of its status and the resource. -/
theorem artifacts_eq_flatten (r : Resolver) :
    (∀ node name package owner? path depth res,
      r.resolve name package owner? path depth node = .ok res → res.Flat) ∧
    (∀ node name package path depth res,
      r.resolveObject node name package path depth = .ok res → res.Flat) ∧
    ∀ kind package info spec status res, r.assemble kind package info spec status = .ok res →
      ∃ specs statuses t, res.type = .resource t ∧ res.artifacts = specs ++ statuses ++ [.resource t] ∧
        t.nested = specs ++ statuses ∧
        r.PartArtifacts spec (r.names.typeName kind ++ "Spec") package (t.name ++ "." ++ "spec") specs ∧
        r.PartArtifacts status (r.names.typeName kind ++ "Status") package (t.name ++ "." ++ "status")
          statuses := by
  refine ⟨fun node name package owner? path depth res h => ?_,
    fun node name package path depth res h => ?_, fun kind package info spec status res h => ?_⟩
  · exact resolve_flat h
  · exact resolveObject_flat h
  · obtain ⟨specs, statuses, t, rfl, -, -, -, hn, hs, ht⟩ := assemble_ok h
    exact ⟨specs, statuses, t, rfl, rfl, hn, hs, ht⟩

/-- An object with an enum, a class below an array and a schema for all other keys. -/
def deviceSchema : Node :=
  .object {} [
    (.str "mode", .enum {} .string [.str "on", .str "off"]),
    (.str "ports", .array {} (.object {} [(.str "number", .basic {} .integer)] [] .closed))] []
    (.typed (.object {} [(.str "note", .basic {} .string)] [] .closed))

theorem artifacts_eq_flatten_device :
    ∃ member root resource,
      (Java.generator {}).resolver.resolve "Device" ["io"] none "" 0 deviceSchema = .ok member ∧
      (Java.generator {}).resolver.resolveObject deviceSchema "Device" ["io"] "" 0 = .ok root ∧
      (Java.generator {}).resolver.assemble "Device" ["io"]
        ⟨.null, .null, .null, .null, .null, .null, .null, .null⟩ (some deviceSchema) none = .ok resource ∧
      member.Flat ∧ root.Flat ∧
      (∃ specs statuses t, resource.artifacts = specs ++ statuses ++ [.resource t]) ∧
      resource.artifacts.map (·.name) =
        ["io.DeviceSpec.Mode", "io.devicespec.Ports", "io.devicespec.AdditionalProperties",
          "io.DeviceSpec", "io.Device"] := by
  obtain ⟨resolved, object, assembled⟩ := artifacts_eq_flatten (Java.generator {}).resolver
  refine ⟨_, _, _, rfl, rfl, rfl, ?_, ?_, ?_, ?_⟩
  · exact resolved deviceSchema "Device" ["io"] none "" 0 _ rfl
  · exact object deviceSchema "Device" ["io"] "" 0 _ rfl
  · obtain ⟨specs, statuses, t, -, h, -⟩ := assembled "Device" ["io"]
      ⟨.null, .null, .null, .null, .null, .null, .null, .null⟩ (some deviceSchema) none _ rfl
    exact ⟨specs, statuses, t, h⟩
  · decide +kernel

end Resolver

end ResourceCompiler
