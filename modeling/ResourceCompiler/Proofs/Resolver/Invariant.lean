import ResourceCompiler.Proofs.Resolver.Steps
import ResourceCompiler.Proofs.Schema.Node

/-!
# Invariants of resolutions

A proof about all that resolves follows the ways in which fragments resolve (`Yields.induction`). A property of
what fragments resolve to, under the names and packages they resolve for, holds of every resolution when each way
to succeed preserves it (`Invariant`).
-/

namespace ResourceCompiler

namespace Resolver

/-- Induction along the ways in which the fragments of a tree resolve. -/
theorem Yields.induction {r : Resolver}
    {motive : ∀ (name : String) (package : List String) (owner? : Option String) (path : String) (depth : Int)
      (node : Node) (res : Resolution), Yields r name package owner? path depth node res → Prop}
    (intOrString : ∀ {name package owner? path depth} {node : Node} (h : node.traits.intOrString = true),
      motive name package owner? path depth node _ (.intOrString h))
    (untyped : ∀ {name package owner? path depth} {traits : Traits} (h : traits.intOrString = false),
      motive name package owner? path depth (.any traits) _ (.untyped h))
    (free : ∀ {name package owner? path depth} {traits : Traits} {required : List Scalar}
      (h : traits.intOrString = false),
      motive name package owner? path depth (.object traits [] required .open) _ (.free h))
    («class» : ∀ {name package owner? path depth} {traits : Traits} {properties : List (Scalar × Node)}
      {required : List Scalar} {additional : Additional Node} {res : Resolution}
      (h : traits.intOrString = false)
      (hc : YieldsClass r traits properties required additional name package path depth res)
      (hf : (properties.isEmpty && additional.isOpen) = false),
      (∀ p ∈ properties, ∀ name package owner? path depth res
        (hr : r.resolve name package owner? path depth p.2 = .ok res),
          motive name package owner? path depth p.2 res (resolve_ok hr)) →
      (∀ s, additional = .typed s → ∀ name package owner? path depth res
        (hr : r.resolve name package owner? path depth s = .ok res),
          motive name package owner? path depth s res (resolve_ok hr)) →
      motive name package owner? path depth (.object traits properties required additional) res (.class h hc hf))
    (array : ∀ {name package owner? path depth} {traits : Traits} {items : Node} {element : Resolution}
      (h : traits.intOrString = false)
      (he : r.resolve name package owner? (path ++ "[]") (depth + 1) items = .ok element),
      motive _ _ _ _ _ items element (resolve_ok he) →
        motive name package owner? path depth (.array traits items) _ (.array h he))
    (map : ∀ {name package owner? path depth} {traits : Traits} {values : Node} {value : Resolution}
      (h : traits.intOrString = false)
      (hv : r.resolve name package owner? (path ++ "\x7b\x7d") (depth + 1) values = .ok value),
      motive _ _ _ _ _ values value (resolve_ok hv) →
        motive name package owner? path depth (.map traits values) _ (.map h hv))
    (enum : ∀ {name package owner? path depth} {traits : Traits} {base : Basic} {values : List Value}
      {res : Resolution} (h : traits.intOrString = false)
      (he : r.resolveEnum (.enum traits base values) name package owner? path = .ok res),
      motive name package owner? path depth (.enum traits base values) res (.enum h he))
    (basic : ∀ {name package owner? path depth} {traits : Traits} {base : Basic} {type : PrimitiveType}
      (h : traits.intOrString = false) (hp : r.resolvePrimitive (.basic traits base) path = .ok type),
      motive name package owner? path depth (.basic traits base) _ (.basic h hp))
    {name : String} {package : List String} {owner? : Option String} {path : String} {depth : Int}
    {node : Node} {res : Resolution} (h : Yields r name package owner? path depth node res) :
    motive name package owner? path depth node res h := by
  induction node generalizing name package owner? path depth res with
  | object traits properties required additional ihp iha =>
    cases h with
    | intOrString hi => exact intOrString hi
    | free hi => exact free hi
    | «class» hi hc hf =>
      refine «class» hi hc hf (fun p hp _ _ _ _ _ _ hr => ?_) fun s hs _ _ _ _ _ _ hr => ?_
      · exact ihp p hp (resolve_ok hr)
      · exact iha s hs (resolve_ok hr)
  | array traits items ih =>
    cases h with
    | intOrString hi => exact intOrString hi
    | array hi he => exact array hi he (ih (resolve_ok he))
  | map traits values ih =>
    cases h with
    | intOrString hi => exact intOrString hi
    | map hi hv => exact map hi hv (ih (resolve_ok hv))
  | enum traits base values =>
    cases h with
    | intOrString hi => exact intOrString hi
    | enum hi he => exact enum hi he
  | basic traits base =>
    cases h with
    | intOrString hi => exact intOrString hi
    | basic hi hp => exact basic hi hp
  | any traits =>
    cases h with
    | intOrString hi => exact intOrString hi
    | untyped hi => exact untyped hi

/-- Every way to succeed preserves `P`, which may depend on the name, the package and the owner. -/
structure Invariant (r : Resolver) (P : String → List String → Option String → Resolution → Prop) :
    Prop where
  existing {name : String} {package : List String} {owner? : Option String} (type : String) :
    P name package owner? (existing type)
  primitive {name : String} {package : List String} {owner? : Option String} (type : PrimitiveType) :
    P name package owner? ⟨.primitive type, []⟩
  enum {node : Node} {name : String} {package : List String} {owner? : Option String} {path : String}
    {res : Resolution} (h : r.resolveEnum node name package owner? path = .ok res) : P name package owner? res
  array {name : String} {package : List String} {owner? : Option String} {element : Resolution}
    (h : P name package owner? element) : P name package owner? (r.arrayOf element)
  map {name : String} {package : List String} {owner? : Option String} {value : Resolution}
    (h : P name package owner? value) : P name package owner? (r.mapOf value)
  built {traits : Traits} {properties : List (Scalar × Node)} {required : List Scalar}
    {additional : Additional Node} {name : String} {package : List String} {owner? : Option String}
    {path : String} {depth : Int} {parts : List ResolvedMember} {typed? : Option Resolution}
    {t : ObjectType Descriptor}
    (h : Builds r traits properties required additional name package path depth parts typed? t)
    (member : ∀ p ∈ parts, P (r.names.typeName p.name.text) (package ++ [r.names.packageSegment name])
      (some (Naming.qualified package name)) p.resolution)
    (value : ∀ v ∈ (r.undeclared? traits additional typed?).toList,
      P (r.names.typeName additionalProperties) (package ++ [r.names.packageSegment name])
        (some (Naming.qualified package name)) v) :
    P name package owner? ⟨.object t, t.nested ++ [.object t]⟩

namespace Invariant

variable {r : Resolver} {P : String → List String → Option String → Resolution → Prop} {name : String}
  {package : List String} {owner? : Option String} {path : String} {depth : Int} {res : Resolution}

theorem yieldsClass (i : r.Invariant P) {traits : Traits} {properties : List (Scalar × Node)}
    {required : List Scalar} {additional : Additional Node}
    (h : YieldsClass r traits properties required additional name package path depth res)
    (member : ∀ p ∈ properties, ∀ name package owner? path depth res,
      r.resolve name package owner? path depth p.2 = .ok res → P name package owner? res)
    (schema : ∀ s, additional = .typed s → ∀ name package owner? path depth res,
      r.resolve name package owner? path depth s = .ok res → P name package owner? res) :
    P name package owner? res := by
  cases h with
  | replaced => exact i.existing _
  | built h =>
    refine i.built h (fun p hp => ?_) (fun value hv => ?_)
    · exact member p.property (h.mem_properties hp) _ _ _ _ _ _ (h.resolved p hp).resolve
    · rcases h.mem_undeclared hv with rfl | ⟨s, hs, hr⟩
      · exact i.existing _
      · exact schema s hs _ _ _ _ _ _ hr

theorem resolve (i : r.Invariant P) {node : Node}
    (h : r.resolve name package owner? path depth node = .ok res) :
    P name package owner? res := by
  have y := resolve_ok h
  clear h
  induction y using Yields.induction with
  | intOrString | untyped | free => exact i.existing _
  | «class» _ hc _ member schema => exact i.yieldsClass hc member schema
  | array _ _ ih => exact i.array ih
  | map _ _ ih => exact i.map ih
  | enum _ he => exact i.enum he
  | basic => exact i.primitive _

theorem resolveObject (i : r.Invariant P) (owner? : Option String) {node : Node}
    (h : r.resolveObject node name package path depth = .ok res) : P name package owner? res :=
  i.yieldsClass (resolveObject_ok h) (fun _ _ _ _ _ _ _ _ h => i.resolve h)
    (fun _ _ _ _ _ _ _ _ h => i.resolve h)

end Invariant

end Resolver

end ResourceCompiler
