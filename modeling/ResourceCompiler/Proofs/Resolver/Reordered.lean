import ResourceCompiler.Proofs.Collision
import ResourceCompiler.Proofs.Compilation
import ResourceCompiler.Proofs.Compile
import ResourceCompiler.Proofs.Resolver.Claims
import ResourceCompiler.Proofs.Resolver.Names
import ResourceCompiler.Proofs.Resolver.Runs
import ResourceCompiler.Proofs.Schema.Reordered

/-!
# The order of a schema only orders its classes

A fragment `Simulates` another one when the first resolves wherever the second does, to the same type and
to artifacts that are alike: equal enums, and classes with equal fields in some order. Trees are
simulated when their parts are, whatever the order of the properties (`simulates_congruence`), since
neither collisions nor claims depend on it. So a schema and a reordered one compile alike
(`compileSchema_reordered`).
-/

namespace ResourceCompiler

/-- A field with the kind and the name of its type. -/
def Field.outline (f : Field Descriptor) : Field (String × String) :=
  { f with type := (f.type.kindName, f.type.name) }

/-- Two classes that have the same fields and hold artifacts of the same names, both in some order. -/
structure ObjectType.Alike (t t' : ObjectType Descriptor) : Prop where
  simpleName : t.simpleName = t'.simpleName
  name : t.name = t'.name
  fields : (t.fields.map Field.outline).Perm (t'.fields.map Field.outline)
  nested : (t.nested.map (·.name)).Perm (t'.nested.map (·.name))
  package : t.package = t'.package
  preservesUnknown : t.preservesUnknown = t'.preservesUnknown
  description : t.description = t'.description

/-- Artifacts that only differ in the order of what classes hold. -/
inductive Descriptor.Alike : Descriptor → Descriptor → Prop
  | same (d : Descriptor) : Alike d d
  | object {t t' : ObjectType Descriptor} (h : t.Alike t') : Alike (.object t) (.object t')

structure Resolution.Alike (res res' : Resolution) : Prop where
  kind : res.type.kindName = res'.type.kindName
  name : res.type.name = res'.type.name
  artifacts : Matched Descriptor.Alike res.artifacts res'.artifacts

structure Contribution.Alike (c c' : Contribution) : Prop where
  property : c.property = c'.property
  field : c.field.outline = c'.field.outline
  artifacts : Matched Descriptor.Alike c.artifacts c'.artifacts

/-- Compilations whose roots have one name and whose artifacts have the same names and are alike. -/
structure Compilation.Alike (c c' : Compilation) : Prop where
  kind : c.root.kindName = c'.root.kindName
  name : c.root.name = c'.root.name
  index : Matched (fun e e' => e.1 = e'.1 ∧ e.2.Alike e'.2) c.index c'.index

namespace Descriptor.Alike

variable {d d' : Descriptor}

theorem name_eq (h : d.Alike d') : d.name = d'.name := by
  cases h with
  | same => rfl
  | object h => exact h.name

theorem isArtifact (h : d.Alike d') (ha : d.IsArtifact) : d'.IsArtifact := by
  cases h with
  | same => exact ha
  | object => exact .inl rfl

end Descriptor.Alike

theorem Resolution.Alike.refl (res : Resolution) : res.Alike res :=
  ⟨rfl, rfl, .of_perm .same (.refl _)⟩

namespace Members

variable {path : String} {m m' : Members} {cs cs' : List Contribution}

theorem exists_adds_matched (hm : Matched Contribution.Alike cs cs') (h : ∃ m, Adds path {} cs m) :
    ∃ m', Adds path {} cs' m' := by
  refine exists_adds_of_names h fun c' hc' a' ha' => ?_
  obtain ⟨c, hc, same⟩ := hm.exists_left hc'
  obtain ⟨a, ha, alike⟩ := same.artifacts.exists_left ha'
  exact ⟨c, hc, same.property, a, ha, alike.name_eq⟩

theorem Adds.fields_perm (h : Adds path {} cs m) (h' : Adds path {} cs' m')
    (hm : Matched Contribution.Alike cs cs') :
    (m.fields.map Field.outline).Perm (m'.fields.map Field.outline) := by
  have same := hm.map_perm (f := (·.field.outline)) (g := (·.field.outline)) fun _ _ hc => hc.field
  rw [h.fields, h'.fields]
  simpa [Function.comp_def] using same

theorem Adds.artifacts_matched (h : Adds path {} cs m) (h' : Adds path {} cs' m')
    (hm : Matched Contribution.Alike cs cs') : Matched Descriptor.Alike m.artifacts m'.artifacts := by
  rw [h.artifacts, h'.artifacts]
  exact hm.flatMap fun _ _ hc => hc.artifacts

end Members

namespace Resolver

/-- The second fragment resolves alike wherever the first one does, and says the same beside its shape. -/
structure Simulates (r : Resolver) (n n' : Node) : Prop where
  traits : n.traits = n'.traits
  resolve {name : String} {package : List String} {owner? : Option String} {path : String} {depth : Int}
    {res : Resolution} (h : r.resolve name package owner? path depth n = .ok res) :
    ∃ res', r.resolve name package owner? path depth n' = .ok res' ∧ res.Alike res'
  resolveObject {name : String} {package : List String} {path : String} {depth : Int} {res : Resolution}
    (h : r.resolveObject n name package path depth = .ok res) :
    ∃ res', r.resolveObject n' name package path depth = .ok res' ∧ res.Alike res'

/-- Properties of one name whose fragments are simulated. -/
def SimulatesMember (r : Resolver) (p q : Scalar × Node) : Prop := p.1 = q.1 ∧ r.Simulates p.2 q.2

variable {r : Resolver} {name : String} {package : List String} {owner? : Option String} {path : String}
  {depth : Int} {res : Resolution}

theorem SimulatesMember.sameTraits {p q : Scalar × Node} (h : r.SimulatesMember p q) : SameTraits p q :=
  ⟨h.1, h.2.traits⟩

/-- The property became the member of a class. -/
def Becomes (r : Resolver) (scope : Scope) (depth : Int) (required : List Scalar) (p : Scalar × Node)
    (part : ResolvedMember) : Prop :=
  part.property = p ∧ part.ResolvedBy r scope depth required

theorem forall₂_becomes {scope : Scope} {required : List Scalar} {ps : List (Scalar × Node)}
    {parts : List ResolvedMember} : List.Forall₂ (r.Becomes scope depth required) ps parts ↔
      parts.map ResolvedMember.property = ps ∧ ∀ p ∈ parts, p.ResolvedBy r scope depth required := by
  induction ps generalizing parts with
  | nil => simp +contextual
  | cons p ps ih =>
    cases parts with
    | nil => simp
    | cons part parts =>
      rw [List.forall₂_cons, ih, List.map_cons, List.cons.injEq, List.forall_mem_cons, Becomes]
      tauto

/-- A simulated property becomes a member with an alike contribution. -/
theorem Becomes.simulated {scope : Scope} {required : List Scalar} {p q : Scalar × Node}
    {part : ResolvedMember} (h : r.Becomes scope depth required p part) (hs : r.SimulatesMember p q) :
    ∃ part', r.Becomes scope depth required q part' ∧ part.contribution.Alike part'.contribution := by
  obtain ⟨rfl, h⟩ := h
  obtain ⟨name, node⟩ := q
  obtain ⟨hn, sim⟩ := hs
  obtain rfl : part.name = name := hn
  obtain ⟨res', hres, same⟩ := sim.resolve h.resolve
  have field := memberField_retype h.field res'.type
  rw [show part.node.traits = node.traits from sim.traits] at field
  refine ⟨⟨part.name, node, _, res'⟩, ⟨rfl, hres, field⟩, rfl, ?_, same.artifacts⟩
  simp only [ResolvedMember.contribution, Field.outline, (memberField_ok h.field).2.2.1, same.kind, same.name]

theorem resolveAdditional_simulated {scope : Scope} {additional additional' : Additional Node}
    {typed? : Option Resolution} (h : r.resolveAdditional scope depth additional = .ok typed?)
    (ha : additional.Rel r.Simulates additional') :
    ∃ typed?', r.resolveAdditional scope depth additional' = .ok typed?' ∧
      Option.Rel Resolution.Alike typed? typed?' := by
  cases ha with
  | closed | «open» =>
    rw [resolveAdditional] at h ⊢
    cases h
    exact ⟨none, rfl, .none⟩
  | typed sim =>
    rw [resolveAdditional] at h ⊢
    obtain ⟨value, hv, h⟩ := bind_eq_ok.1 h
    cases h
    obtain ⟨value', hv', same⟩ := sim.resolve hv
    exact ⟨some value', bind_eq_ok.2 ⟨value', hv', rfl⟩, .some same⟩

theorem undeclared?_simulated (traits : Traits) {additional additional' : Additional Node}
    {typed? typed?' : Option Resolution} (ha : additional.Rel r.Simulates additional')
    (ht : Option.Rel Resolution.Alike typed? typed?') :
    Option.Rel Resolution.Alike (r.undeclared? traits additional typed?)
      (r.undeclared? traits additional' typed?') := by
  cases ht with
  | some same => exact .some same
  | none =>
    have same : additional.isOpen = additional'.isOpen := by cases ha <;> rfl
    simp only [undeclared?, same]
    split
    · exact .some (.refl _)
    · exact .none

theorem catchAll_alike {value value' : Resolution} (h : value.Alike value') :
    (r.catchAll value).Alike (r.catchAll value') where
  property := rfl
  field := by
    have name : (r.mapType value.type).name = (r.mapType value'.type).name := congrArg r.types.mapOf h.name
    simp only [catchAll, Field.outline, name]
    rfl
  artifacts := h.artifacts

section

variable {traits : Traits} {properties properties' : List (Scalar × Node)} {required : List Scalar}
  {additional additional' : Additional Node}

/-- A class is made alike of properties that are simulated in any order. -/
theorem YieldsClass.simulated
    (h : YieldsClass r traits properties required additional name package path depth res)
    (hp : Matched r.SimulatesMember properties properties') (ha : additional.Rel r.Simulates additional') :
    ∃ res', YieldsClass r traits properties' required additional' name package path depth res' ∧
      res.Alike res' := by
  cases h with
  | replaced hx => exact ⟨_, .replaced hx, .refl _⟩
  | @built parts typed? t h =>
    -- the kept properties match, and so do the members that they become
    have kept := keptProperties_matched (s := r.names) (fun _ _ => SimulatesMember.sameTraits) hp
    rw [← h.kept] at kept
    obtain ⟨parts', became, matched⟩ := kept.transfer (forall₂_becomes.2 ⟨rfl, h.resolved⟩)
      fun _ _ _ hs hb => hb.simulated hs
    obtain ⟨kept', resolved'⟩ := forall₂_becomes.1 became
    obtain ⟨typed?', typed', hu⟩ := resolveAdditional_simulated h.typed ha
    have values := undeclared?_simulated traits ha hu
    have contributions : Matched Contribution.Alike
        (parts.map ResolvedMember.contribution ++
          (r.undeclared? traits additional typed?).toList.map r.catchAll)
        (parts'.map ResolvedMember.contribution ++
          (r.undeclared? traits additional' typed?').toList.map r.catchAll) :=
      (matched.map fun _ _ same => same).append ((Matched.of_rel values).map fun _ _ => catchAll_alike)
    -- whether all of them can be added to one class is told from pairs, without their order
    obtain ⟨claimed, added⟩ := h.added
    obtain ⟨m', added'⟩ := Members.exists_adds_matched contributions ⟨_, added⟩
    have reduced' := checkCollisions_matched (hp.imp fun _ _ => SimulatesMember.sameTraits) h.reduced
    have alone' : (r.undeclared? traits additional' typed?').isSome →
        ∀ p ∈ parts', p.field.identifier ≠ additionalProperties := by
      intro hs p' hp'
      obtain ⟨p, hp, same⟩ := matched.exists_left hp'
      have identifier : p.field.identifier = p'.field.identifier :=
        (congrArg Field.identifier same.field :)
      exact identifier ▸ h.alone ((isSome_eq_of_rel values).trans hs) p hp
    have preserves' : t.preservesUnknown =
        (typed?'.isNone && (r.undeclared? traits additional' typed?').isSome) := by
      rw [h.preserves, ← Option.not_isSome, ← Option.not_isSome, isSome_eq_of_rel hu, isSome_eq_of_rel values]
    refine ⟨_, .built (t := { t with fields := m'.fields, nested := m'.artifacts })
      ⟨h.simple, h.named, h.placed, h.generated, reduced', kept', resolved', typed', ⟨m'.claimed, added'⟩,
        alone', preserves', h.described⟩, rfl, rfl, ?_⟩
    have nested := added.artifacts_matched added' contributions
    refine nested.append (.of_forall₂ (.cons (.object ?_) .nil))
    exact ⟨rfl, rfl, added.fields_perm added' contributions,
      nested.map_perm fun _ _ => Descriptor.Alike.name_eq, rfl, rfl, rfl⟩

/-- A fragment becomes a class of what it says about its keys alone. -/
theorem resolveObject_simulated {n n' : Node} (h : r.resolveObject n name package path depth = .ok res)
    (traits : n.traits = n'.traits) (required : n.required = n'.required)
    (hp : Matched r.SimulatesMember n.properties n'.properties)
    (ha : (additionalOf n).Rel r.Simulates (additionalOf n')) :
    ∃ res', r.resolveObject n' name package path depth = .ok res' ∧ res.Alike res' := by
  obtain ⟨hd, hc⟩ := resolveObject_eq_ok.1 h
  obtain ⟨res', hc', same⟩ := hc.simulated hp ha
  exact ⟨res', resolveObject_eq_ok.2 ⟨hd, traits ▸ required ▸ hc'⟩, same⟩

end

theorem simulates_refl (r : Resolver) (n : Node) : r.Simulates n n where
  traits := rfl
  resolve h := ⟨_, h, .refl _⟩
  resolveObject h := ⟨_, h, .refl _⟩

theorem simulates_object {traits : Traits} {properties properties' : List (Scalar × Node)}
    {required : List Scalar} {additional additional' : Additional Node}
    (hp : Matched r.SimulatesMember properties properties') (ha : additional.Rel r.Simulates additional') :
    r.Simulates (.object traits properties required additional)
      (.object traits properties' required additional') where
  traits := rfl
  resolve h := by
    obtain ⟨hd, h⟩ := resolve_eq_ok.1 h
    cases h with
    | intOrString hi => exact ⟨_, resolve_eq_ok.2 ⟨hd, .intOrString hi⟩, .refl _⟩
    | free hi =>
      obtain rfl := hp.nil_right
      cases ha
      exact ⟨_, resolve_eq_ok.2 ⟨hd, .free hi⟩, .refl _⟩
    | «class» hi hc hf =>
      obtain ⟨res', hc', same⟩ := hc.simulated hp ha
      refine ⟨res', resolve_eq_ok.2 ⟨hd, .class hi hc' ?_⟩, same⟩
      have empty : properties.isEmpty = properties'.isEmpty := by
        rw [Bool.eq_iff_iff]
        simp [← List.length_eq_zero_iff, hp.length_eq]
      have free : additional.isOpen = additional'.isOpen := by
        cases ha <;> rfl
      rw [← empty, ← free, hf]
  resolveObject h := resolveObject_simulated h rfl rfl hp ha

theorem simulates_array {traits : Traits} {n n' : Node} (h : r.Simulates n n') :
    r.Simulates (.array traits n) (.array traits n') where
  traits := rfl
  resolve hr := by
    obtain ⟨hd, hr⟩ := resolve_eq_ok.1 hr
    cases hr with
    | intOrString hi => exact ⟨_, resolve_eq_ok.2 ⟨hd, .intOrString hi⟩, .refl _⟩
    | array hi he =>
      obtain ⟨element', he', same⟩ := h.resolve he
      exact ⟨_, resolve_eq_ok.2 ⟨hd, .array hi he'⟩, rfl, congrArg r.types.arrayOf same.name, same.artifacts⟩
  resolveObject hr := resolveObject_simulated hr rfl rfl (.of_forall₂ .nil) .closed

theorem simulates_map {traits : Traits} {n n' : Node} (h : r.Simulates n n') :
    r.Simulates (.map traits n) (.map traits n') where
  traits := rfl
  resolve hr := by
    obtain ⟨hd, hr⟩ := resolve_eq_ok.1 hr
    cases hr with
    | intOrString hi => exact ⟨_, resolve_eq_ok.2 ⟨hd, .intOrString hi⟩, .refl _⟩
    | map hi hv =>
      obtain ⟨value', hv', same⟩ := h.resolve hv
      exact ⟨_, resolve_eq_ok.2 ⟨hd, .map hi hv'⟩, rfl, congrArg r.types.mapOf same.name, same.artifacts⟩
  resolveObject hr := resolveObject_simulated hr rfl rfl (.of_forall₂ .nil) (.typed h)

theorem simulates_congruence (r : Resolver) : Node.Congruence r.Simulates where
  refl := r.simulates_refl
  object := simulates_object
  array := simulates_array
  map := simulates_map

end Resolver

theorem Compilation.ofResolution_alike {res res' : Resolution} {c : Compilation} (hs : res.Alike res')
    (h : ofResolution res = .ok c) : ∃ c', ofResolution res' = .ok c' ∧ c.Alike c' := by
  obtain ⟨ha, hn, rfl⟩ := ofResolution_eq_ok.1 h
  have artifacts : ∀ a ∈ res'.artifacts, a.IsArtifact := by
    intro a' ha'
    obtain ⟨a, hm, alike⟩ := hs.artifacts.exists_left ha'
    exact alike.isArtifact (ha a hm)
  have names := hs.artifacts.map_perm fun _ _ => Descriptor.Alike.name_eq
  refine ⟨_, ofResolution_eq_ok.2 ⟨artifacts, names.nodup_iff.1 hn, rfl⟩, hs.kind, hs.name, ?_⟩
  exact hs.artifacts.map fun _ _ alike => ⟨alike.name_eq, alike⟩

namespace Resolver

theorem compileSchema_simulated (r : Resolver) {schema schema' : Value} (hd : schema.keysDistinct)
    (hr : schema.Reordered schema') {name : String} {package : Value} {c : Compilation}
    (h : r.compileSchema schema name package = .ok c) :
    ∃ c', r.compileSchema schema' name package = .ok c' ∧ c.Alike c' := by
  obtain ⟨root, segments, res, hroot, hs, hres, hc⟩ := compileSchema_eq_ok.1 h
  have read : ∃ root', Node.ofValue schema' (.str name) r.config.maxDepth = .ok root' ∧
      r.Simulates root root' := by
    rw [Node.ofValue_eq_ok] at hroot
    simp only [Node.ofValue_eq_ok, hr.truthy_eq]
    split
    · next ht =>
      rw [if_pos ht] at hroot
      exact hroot.reordered r.simulates_congruence hr hd
    · next ht =>
      rw [if_neg ht] at hroot
      exact ⟨root, hroot, r.simulates_refl root⟩
  obtain ⟨root', hroot', sim⟩ := read
  obtain ⟨res', hres', same⟩ := sim.resolveObject hres
  obtain ⟨c', hc', alike⟩ := Compilation.ofResolution_alike same hc
  exact ⟨c', compileSchema_eq_ok.2 ⟨root', segments, res', hroot', hs, hres', hc'⟩, alike⟩

/-- The order of the keys of a schema only affects order: both schemas compile or neither does, and then
to the same enums and to classes with the same fields. -/
theorem compileSchema_reordered (r : Resolver) (schema schema' : Value) (hd : schema.keysDistinct)
    (hr : schema.Reordered schema') (name : String) (package : Value) :
    ((∃ c, r.compileSchema schema name package = .ok c) ↔
      ∃ c', r.compileSchema schema' name package = .ok c') ∧
    ∀ c c', r.compileSchema schema name package = .ok c → r.compileSchema schema' name package = .ok c' →
      c.Alike c' := by
  refine ⟨⟨fun ⟨c, h⟩ => ?_, fun ⟨c', h⟩ => ?_⟩, fun c c' h h' => ?_⟩
  · obtain ⟨c', h', -⟩ := r.compileSchema_simulated hd hr h
    exact ⟨c', h'⟩
  · obtain ⟨c, h', -⟩ := r.compileSchema_simulated (hr.keysDistinct hd) hr.symm h
    exact ⟨c, h'⟩
  · obtain ⟨c'', h'', alike⟩ := r.compileSchema_simulated hd hr h
    obtain rfl : c'' = c' := Except.ok.inj (h''.symm.trans h')
    exact alike

end Resolver

namespace Java

/-- The schema of a device with all its keywords and properties in another order. -/
def portsFirst : Value :=
  .map [(.str "properties", .map [
      (.str "ports", .map [
        (.str "items", .map [
          (.str "properties", .map [(.str "number", .map [(.str "type", .str "integer")])]),
          (.str "type", .str "object")]),
        (.str "type", .str "array")]),
      (.str "mode", .map [(.str "enum", .list [.str "on", .str "off"])])]),
    (.str "type", .str "object")]

theorem deviceValue_reordered : deviceValue.Reordered portsFirst := by
  refine .trans (.keywords (.swap _ _ _)) ?_
  refine .trans (@Value.Reordered.properties [] _ _ _ (.swap _ _ _)) ?_
  refine @Value.Reordered.member [] _ [] _ _ _ _ (.trans (.keywords (.swap _ _ _)) ?_)
  exact @Value.Reordered.part [] _ _ _ _ (.inl rfl) (.keywords (.swap _ _ _))

/-- The fields of a device change their order, and its classes nothing else. -/
theorem compileSchema_reordered_device :
    ∃ c c', (generator {}).resolver.compileSchema deviceValue "Device" (.str "test.io") = .ok c ∧
      (generator {}).resolver.compileSchema portsFirst "Device" (.str "test.io") = .ok c' ∧ c.Alike c' ∧
      c.topLevel.map (fun a => a.fields.map (·.identifier)) = [["number"], ["mode", "ports"]] ∧
      c'.topLevel.map (fun a => a.fields.map (·.identifier)) = [["number"], ["ports", "mode"]] := by
  refine ⟨_, _, rfl, rfl, ?_, rfl, rfl⟩
  exact (Resolver.compileSchema_reordered (generator {}).resolver deviceValue portsFirst (by decide)
    deviceValue_reordered "Device" (.str "test.io")).2 _ _ rfl rfl

end Java

end ResourceCompiler
