import Mathlib.Data.List.Basic
import ResourceCompiler.Java.Generator
import ResourceCompiler.Proofs.Compilation
import ResourceCompiler.Proofs.Compile
import ResourceCompiler.Proofs.Resolver.Invariant

/-!
# Properties and fields

`Resolver.met` walks through a fragment and lists the properties on its way, each with the class that
declares it. A walk stops at what holds numbers or texts, at classes that an existing type stands for and
at deprecated properties that give way. The fields of the artifacts of a member are exactly the
properties met in it (`resolve_fields`).

A class made of a whole schema, a spec or a status has the properties that the fragment itself declares.
These are not all that a walk from there meets when the fragment is an array, and more when it holds
numbers or texts: `fields_eq_metFrom` gives the exact condition.
-/

namespace ResourceCompiler

open Naming (qualified)

/-- The fields of a type without that of undeclared keys: its name and the raw name of each. -/
def Descriptor.declared (d : Descriptor) : List (String × Scalar) :=
  (d.fields.filter (!·.catchAll)).map fun f => (d.name, f.rawName)

/-- The declared fields of all classes. -/
def Compilation.declared (c : Compilation) : List (String × Scalar) :=
  c.topLevel.flatMap (·.declared)

namespace Resolver

mutual

/-- The properties met on a walk through a member of the name and package. -/
def met (r : Resolver) (name : String) (package : List String) : Node → List (String × Scalar)
  | .object traits properties _ additional =>
    if traits.intOrString || (r.config.existingType? (qualified package name)).isSome then []
    else
      r.metMembers (package ++ [r.names.packageSegment name]) properties properties ++
        r.metAdditional (package ++ [r.names.packageSegment name]) additional ++
          (keptProperties r.names properties).map fun p => (qualified package name, p.1)
  | .array traits items => if traits.intOrString then [] else r.met name package items
  | .map traits values => if traits.intOrString then [] else r.met name package values
  | .enum .. | .basic .. | .any _ => []
termination_by structural node => node

/-- Those met in properties that give way to none of the `siblings`. -/
def metMembers (r : Resolver) (package : List String) (siblings : List (Scalar × Node)) :
    List (Scalar × Node) → List (String × Scalar)
  | [] => []
  | (property, node) :: rest =>
    if givesWay r.names siblings (property, node) then r.metMembers package siblings rest
    else r.met (r.names.typeName property.text) package node ++ r.metMembers package siblings rest
termination_by structural properties => properties

def metAdditional (r : Resolver) (package : List String) :
    Additional Node → List (String × Scalar)
  | .typed schema => r.met (r.names.typeName additionalProperties) package schema
  | .closed => []
  | .open => []
termination_by structural additional => additional

end

/-- Those of a class with the properties, and those met below them. -/
def metInClass (r : Resolver) (name : String) (package : List String)
    (properties : List (Scalar × Node)) (additional : Additional Node) : List (String × Scalar) :=
  if (r.config.existingType? (qualified package name)).isSome then []
  else
    r.metMembers (package ++ [r.names.packageSegment name]) properties properties ++
      r.metAdditional (package ++ [r.names.packageSegment name]) additional ++
        (keptProperties r.names properties).map fun p => (qualified package name, p.1)

/-- Those met on a walk from a fragment that is made a class. -/
def metFrom (r : Resolver) (name : String) (package : List String) (root : Node) :
    List (String × Scalar) :=
  if root.traits.intOrString then []
  else
    match root with
    | .array _ items => r.met name package items
    | root => r.metInClass name package root.properties (additionalOf root)

variable {r : Resolver} {name : String} {package : List String} {owner? : Option String}
  {path : String} {depth : Int} {res : Resolution}

theorem met_object {traits : Traits} {properties : List (Scalar × Node)} {required : List Scalar}
    {additional : Additional Node} (h : traits.intOrString = false) :
    r.met name package (.object traits properties required additional) =
      r.metInClass name package properties additional := by
  rw [met, h, Bool.false_or, metInClass]

theorem met_of_intOrString {node : Node} (h : node.traits.intOrString = true) :
    r.met name package node = [] := by
  cases node <;> simp_all [met, Node.traits]

theorem metMembers_eq (siblings ps : List (Scalar × Node)) :
    r.metMembers package siblings ps =
      (ps.filter (!givesWay r.names siblings ·)).flatMap fun p =>
        r.met (r.names.typeName p.1.text) package p.2 := by
  induction ps with
  | nil => rfl
  | cons p ps ih =>
    rw [metMembers, ih]
    cases hg : givesWay r.names siblings p <;> simp [hg]

/-- The fields of a class are its own properties after those met below it. -/
theorem Builds.declared {traits : Traits} {properties : List (Scalar × Node)} {required : List Scalar}
    {additional : Additional Node} {parts : List ResolvedMember} {typed? : Option Resolution}
    {t : ObjectType Descriptor}
    (h : Builds r traits properties required additional name package path depth parts typed? t) :
    (Descriptor.object t).declared =
      (keptProperties r.names properties).map fun p => (qualified package name, p.1) := by
  have own : parts.map (fun p => (t.name, p.field.rawName)) =
      (parts.map ResolvedMember.property).map fun p => (qualified package name, p.1) := by
    rw [List.map_map]
    refine List.map_congr_left fun p hp => ?_
    rw [(memberField_ok (h.resolved p hp).field).2.1, h.named]
    rfl
  show (t.fields.filter (!·.catchAll)).map (fun f => (t.name, f.rawName)) = _
  rw [h.declared_fields, List.map_map, ← h.kept, ← own]
  rfl

theorem YieldsClass.fields {traits : Traits} {properties : List (Scalar × Node)} {required : List Scalar}
    {additional : Additional Node}
    (h : YieldsClass r traits properties required additional name package path depth res)
    (member : ∀ p ∈ properties, ∀ name package owner? path depth res,
      r.resolve name package owner? path depth p.2 = .ok res →
        res.artifacts.flatMap (·.declared) = r.met name package p.2)
    (schema : ∀ s, additional = .typed s → ∀ name package owner? path depth res,
      r.resolve name package owner? path depth s = .ok res →
        res.artifacts.flatMap (·.declared) = r.met name package s) :
    res.artifacts.flatMap (·.declared) = r.metInClass name package properties additional := by
  cases h with
  | replaced hx =>
    rw [metInClass, hx]
    rfl
  | @built parts typed? t h =>
    have members : parts.flatMap (fun p => p.resolution.artifacts.flatMap (·.declared)) =
        r.metMembers (package ++ [r.names.packageSegment name]) properties properties := by
      rw [metMembers_eq]
      show _ = (keptProperties r.names properties).flatMap _
      rw [← h.kept, List.flatMap_map]
      refine List.flatMap_congr fun p hp => ?_
      exact member p.property (h.mem_properties hp) _ _ _ _ _ _ (h.resolved p hp).resolve
    have undeclared : (r.undeclared? traits additional typed?).toList.flatMap
        (fun value => value.artifacts.flatMap (·.declared)) =
          r.metAdditional (package ++ [r.names.packageSegment name]) additional := by
      rcases resolveAdditional_ok h.typed with ⟨rfl, hn⟩ | ⟨s, value, rfl, rfl, hres⟩
      · have none_met : r.metAdditional (package ++ [r.names.packageSegment name]) additional = [] := by
          cases additional with
          | typed s => exact absurd rfl (hn s)
          | closed | «open» => rfl
        rw [none_met, List.flatMap_eq_nil_iff]
        intro value hv
        rcases h.mem_undeclared hv with rfl | ⟨s, hs, -⟩
        · rfl
        · exact absurd hs (hn s)
      · show [value].flatMap _ = _
        rw [List.flatMap_singleton, schema s rfl _ _ _ _ _ _ hres]
        rfl
    rw [metInClass, h.generated, List.flatMap_append, List.flatMap_singleton, h.declared, h.nested,
      List.flatMap_append, List.flatMap_assoc, List.flatMap_assoc, members, undeclared]
    rfl

/-- The fields of what a member resolves to are the properties met in it. -/
theorem resolve_fields {node : Node} (h : r.resolve name package owner? path depth node = .ok res) :
    res.artifacts.flatMap (·.declared) = r.met name package node := by
  have y := resolve_ok h
  clear h
  induction y using Yields.induction with
  | intOrString hi => exact (met_of_intOrString hi).symm
  | untyped | basic => rfl
  | free hi =>
    rw [met_object hi, metInClass]
    split <;> rfl
  | «class» hi hc _ member schema =>
    rw [met_object hi]
    exact hc.fields member schema
  | array hi _ ih =>
    rw [arrayOf_artifacts, met, hi]
    exact ih
  | map hi _ ih =>
    rw [mapOf_artifacts, met, hi]
    exact ih
  | enum _ he =>
    obtain ⟨type, rfl, -⟩ := resolveEnum_ok he
    rfl

theorem resolveObject_fields {node : Node} (h : r.resolveObject node name package path depth = .ok res) :
    res.artifacts.flatMap (·.declared) =
      r.metInClass name package node.properties (additionalOf node) :=
  (resolveObject_ok h).fields (fun _ _ _ _ _ _ _ _ h => resolve_fields h)
    (fun _ _ _ _ _ _ _ _ h => resolve_fields h)

/-- Whether the class of a fragment has all that a walk from it meets and no more: nothing is met below
the items of an array, and nothing stands in what holds numbers or texts. -/
structure Faithful (r : Resolver) (name : String) (package : List String) (root : Node) : Prop where
  array : ∀ traits items, root = .array traits items → traits.intOrString = false →
    r.met name package items = []
  intOrString : root.traits.intOrString = true →
    r.metInClass name package root.properties (additionalOf root) = []

/-- Fields are those met on a walk from the root exactly if the class of the root is faithful; if it is
not, not even their number is right. -/
structure Accounts (r : Resolver) (name : String) (package : List String) (root : Node)
    (fields : List (String × Scalar)) : Prop where
  all : r.Faithful name package root → fields = r.metFrom name package root
  only : fields.length = (r.metFrom name package root).length → r.Faithful name package root

theorem metInClass_nil : r.metInClass name package [] .closed = [] := by
  rw [metInClass]
  split <;> rfl

theorem metInClass_accounts (r : Resolver) (name : String) (package : List String) (root : Node) :
    r.Accounts name package root (r.metInClass name package root.properties (additionalOf root)) := by
  cases hi : root.traits.intOrString with
  | true =>
    have walk : r.metFrom name package root = [] := by
      unfold metFrom
      rw [if_pos hi]
    refine ⟨fun h => (h.intOrString hi).trans walk.symm,
      fun h => ⟨fun traits items ha hn => ?_, fun _ => ?_⟩⟩
    · subst ha
      rw [Node.traits, hn] at hi
      cases hi
    · rw [walk] at h
      exact List.length_eq_zero_iff.1 h
  | false =>
    have unfaithful (h : root.traits.intOrString = true) :
        r.metInClass name package root.properties (additionalOf root) = [] := by
      rw [hi] at h
      cases h
    cases root with
    | array traits items =>
      have walk : r.metFrom name package (.array traits items) = r.met name package items := by
        unfold metFrom
        rw [if_neg (by simp [hi])]
      have own : r.metInClass name package (Node.array traits items).properties
          (additionalOf (.array traits items)) = [] := metInClass_nil
      rw [own]
      refine ⟨fun h => ?_, fun h => ⟨fun _ _ ha _ => ?_, unfaithful⟩⟩
      · rw [walk, h.array traits items rfl hi]
      · cases ha
        rw [walk] at h
        exact List.length_eq_zero_iff.1 h.symm
    | _ =>
      refine ⟨fun _ => ?_, fun _ => ⟨fun _ _ ha _ => (by cases ha), unfaithful⟩⟩
      unfold metFrom
      rw [if_neg (by simp [hi])]

end Resolver

namespace Compilation

theorem declared_filter (artifacts : List Descriptor) :
    (artifacts.filter (·.isUnit)).flatMap (·.declared) = artifacts.flatMap (·.declared) := by
  induction artifacts with
  | nil => rfl
  | cons a as ih =>
    rw [List.flatMap_cons, ← ih]
    cases a <;> rfl

theorem declared_ofResolution {res : Resolution} {c : Compilation} (h : ofResolution res = .ok c) :
    c.declared = res.artifacts.flatMap (·.declared) := by
  rw [declared, (ofResolution_ok h).2, declared_filter]

end Compilation

namespace Resolver

variable {r : Resolver} {d : Definition} {version : Value} {c : Compilation}

/-- A spec or a status whose class is among the artifacts, and what a walk from it meets. -/
def AccountsPart (r : Resolver) (node? : Option Node) (name : String) (package : List String)
    (fields : List (String × Scalar)) : Prop :=
  match node? with
  | none => fields = []
  | some node => r.Accounts name package node fields

theorem partArtifacts_accounts {node? : Option Node} {name path : String} {package : List String}
    {artifacts : List Descriptor} (h : r.PartArtifacts node? name package path artifacts) :
    r.AccountsPart node? name package (artifacts.flatMap (·.declared)) := by
  cases node? with
  | none =>
    rw [show artifacts = [] from h]
    rfl
  | some node =>
    obtain ⟨part, hres, rfl⟩ := h
    show r.Accounts name package node _
    rw [resolveObject_fields hres]
    exact r.metInClass_accounts name package node

/-- The fields of a version are those of its spec and then those of its status. -/
def AccountsVersion (r : Resolver) (d : Definition) (version : Value) (c : Compilation) : Prop :=
  ∃ entries label root specFields statusFields,
    versionEntries version = .ok (entries, label) ∧ r.versionRoot d entries = .ok root ∧
    c.declared = specFields ++ statusFields ∧
    r.AccountsPart (root.property? "spec") (r.names.typeName d.kind.text ++ "Spec")
      (r.versionPackage d label) specFields ∧
    r.AccountsPart (root.property? "status") (r.names.typeName d.kind.text ++ "Status")
      (r.versionPackage d label) statusFields

theorem compileVersion_accounts (h : r.compileVersion d version = .ok c) :
    r.AccountsVersion d version c := by
  obtain ⟨res, hres, hc⟩ := compileVersion_ok h
  obtain ⟨entries, label, root, info, he, hroot, ha⟩ := resolveVersion_ok hres
  obtain ⟨specs, statuses, t, rfl, -, -, -, -, hs, ht⟩ := assemble_ok ha
  refine ⟨entries, label, root, _, _, he, hroot, ?_, partArtifacts_accounts hs,
    partArtifacts_accounts ht⟩
  rw [Compilation.declared_ofResolution hc, List.flatMap_append, List.flatMap_append,
    List.flatMap_singleton, show (Descriptor.resource t).declared = [] from rfl, List.append_nil]

/-- The declared fields of what is compiled are the properties met on a walk through the schema, or
through the specs and statuses of all versions, exactly if those fragments are faithful. -/
theorem fields_eq_metFrom (r : Resolver) :
    (∀ schema name package c, r.compileSchema schema name package = .ok c →
      ∃ root segments, Node.ofValue schema (.str name) r.config.maxDepth = .ok root ∧
        Registry.packageOf package = .ok segments ∧
        r.Accounts (r.names.typeName name) segments root c.declared) ∧
    ∀ document cs, r.compileDefinition document = .ok cs →
      ∃ entries spec d versions, document.entries = .ok entries ∧
        r.definitionOf entries = .ok (spec, d) ∧ versionsOf spec = .ok versions ∧
        List.Forall₂ (r.AccountsVersion d) versions cs := by
  refine ⟨fun schema name package c h => ?_, fun document cs h => ?_⟩
  · obtain ⟨res, hres, hc⟩ := compileSchema_ok h
    obtain ⟨root, segments, hroot, hs, hres⟩ := resolveSchema_ok hres
    refine ⟨root, segments, hroot, hs, ?_⟩
    rw [Compilation.declared_ofResolution hc, resolveObject_fields hres]
    exact r.metInClass_accounts _ _ root
  · obtain ⟨entries, spec, d, versions, he, hd, hv, h⟩ := compileDefinition_ok h
    refine ⟨entries, spec, d, versions, he, hd, hv, ?_⟩
    exact h.imp fun _ _ h => compileVersion_accounts h

/-- A list of objects. -/
def booksValue : Value :=
  .map [(.str "type", .str "array"),
    (.str "items", .map [(.str "type", .str "object"),
      (.str "properties", .map [(.str "title", .map [(.str "type", .str "string")])])])]

def shelfValue : Value :=
  .map [(.str "type", .str "object"), (.str "properties", .map [(.str "books", booksValue)])]

def shelfDefinition : Value :=
  .map [(.str "spec", .map [(.str "group", .str "test.io"),
    (.str "names", .map [(.str "kind", .str "Shelf")]),
    (.str "versions", .list [.map [(.str "name", .str "v1"),
      (.str "schema", .map [(.str "openAPIV3Schema", .map [(.str "type", .str "object"),
        (.str "properties", .map [(.str "spec", shelfValue)])])])]])])]

theorem fields_eq_metFrom_shelf :
    (∃ c root segments, (Java.generator {}).resolver.compileSchema shelfValue "Shelf" (.str "io") = .ok c ∧
      (Java.generator {}).resolver.Accounts "Shelf" segments root c.declared ∧
      c.declared = [("io.shelf.Books", .str "title"), ("io.Shelf", .str "books")]) ∧
    ∃ cs d versions, (Java.generator {}).resolver.compileDefinition shelfDefinition = .ok cs ∧
      List.Forall₂ ((Java.generator {}).resolver.AccountsVersion d) versions cs ∧ cs.length = 1 := by
  obtain ⟨schema, definition⟩ := fields_eq_metFrom (Java.generator {}).resolver
  constructor
  · obtain ⟨c, hc, fields⟩ : ∃ c,
        (Java.generator {}).resolver.compileSchema shelfValue "Shelf" (.str "io") = .ok c ∧
          c.declared = [("io.shelf.Books", .str "title"), ("io.Shelf", .str "books")] :=
      ⟨_, rfl, by decide +kernel⟩
    obtain ⟨root, segments, -, -, h⟩ := schema shelfValue "Shelf" (.str "io") c hc
    exact ⟨c, root, segments, hc, h, fields⟩
  · obtain ⟨cs, hcs, length⟩ : ∃ cs,
        (Java.generator {}).resolver.compileDefinition shelfDefinition = .ok cs ∧ cs.length = 1 :=
      ⟨_, rfl, rfl⟩
    obtain ⟨_, _, d, versions, -, -, -, h⟩ := definition shelfDefinition cs hcs
    exact ⟨cs, d, versions, hcs, h, length⟩

/-- The class of a list has no field, though its elements have properties. -/
theorem fields_lost_in_list :
    ∃ root c, Node.ofValue booksValue (.str "Books") (Java.generator {}).config.maxDepth = .ok root ∧
      (Java.generator {}).resolver.compileSchema booksValue "Books" (.str "io") = .ok c ∧
      c.declared = [] ∧
      (Java.generator {}).resolver.metFrom "Books" ["io"] root = [("io.Books", .str "title")] :=
  ⟨_, _, rfl, rfl, rfl, by decide +kernel⟩

end Resolver

end ResourceCompiler
