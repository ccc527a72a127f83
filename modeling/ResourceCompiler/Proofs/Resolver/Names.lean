import Mathlib.Data.List.Nodup
import ResourceCompiler.Java.Generator
import ResourceCompiler.Proofs.Compilation
import ResourceCompiler.Proofs.Compile
import ResourceCompiler.Proofs.Naming
import ResourceCompiler.Proofs.Resolver.Claims
import ResourceCompiler.Proofs.Resolver.Invariant

/-!
# The names of artifacts

A class claims the names of its members' artifacts one property at a time, so that the names of one
resolution are distinct if no name below a class is that of the class. That holds because all of them
continue the class's name or its members' package by a separator (`Descriptor.Under`), which no simple
name has. A spec and a status have the same package; there the last letter of what follows it tells
their artifacts apart. Paths of units are as distinct as their names (`pathOf_nodup`).
-/

namespace ResourceCompiler

open Naming (Plain stem stem_starts_qualified qualified qualified_toList)

namespace Descriptor

variable {package : List String} {owner? : Option String} {d d' : Descriptor}

/-- The name continues that of the package or of the owner. -/
def Under (package : List String) (owner? : Option String) (d : Descriptor) : Prop :=
  stem '.' package <+: d.name.toList ∨
    ∃ owner, owner? = some owner ∧ owner.toList ++ ['.'] <+: d.name.toList

/-- The class is in the package or below it, under plain names. -/
structure Placed (package : List String) (d : Descriptor) : Prop where
  below : ∃ inner, d.package = package ++ inner ∧ ∀ s ∈ inner, Plain s.toList
  simple : Plain d.simpleName.toList
  named : d.name = qualified d.package d.simpleName

/-- The name is that of the package and the head, or goes on after a point. -/
def Headed (package : List String) (head : List Char) (d : Descriptor) : Prop :=
  ∃ tail, d.name.toList = stem '.' package ++ head ++ tail ∧ (tail = [] ∨ ∃ rest, tail = '.' :: rest)

theorem Headed.unique {head head' : List Char} (h : d.Headed package head) (h' : d'.Headed package head')
    (hp : Plain head) (hp' : Plain head') (hd : d.name = d'.name) : head = head' := by
  obtain ⟨tail, hn, ht⟩ := h
  obtain ⟨tail', hn', ht'⟩ := h'
  rw [hd, hn', List.append_assoc, List.append_assoc, List.append_cancel_left_eq] at hn
  have split : ∀ tail : List Char, (tail = [] ∨ ∃ rest, tail = '.' :: rest) →
      ∃ rest, tail ++ ['.'] = '.' :: rest := by
    rintro tail (rfl | ⟨rest, rfl⟩)
    · exact ⟨[], rfl⟩
    · exact ⟨rest ++ ['.'], rfl⟩
  obtain ⟨rest, hr⟩ := split tail ht
  obtain ⟨rest', hr'⟩ := split tail' ht'
  have hn : head ++ '.' :: rest = head' ++ '.' :: rest' := by
    rw [← hr, ← hr', ← List.append_assoc, ← List.append_assoc, hn]
  exact (Naming.append_separator_inj (hp.not_mem rfl (by decide)) (hp'.not_mem rfl (by decide)) hn).1

/-- What lies under a class or the package of its members goes on after a point. -/
theorem Under.split {name segment : String}
    (h : d.Under (package ++ [segment]) (some (qualified package name))) :
    ∃ head ∈ [name, segment], ∃ rest, d.name.toList = stem '.' package ++ head.toList ++ '.' :: rest := by
  rcases h with ⟨rest, h⟩ | ⟨owner, ho, rest, h⟩
  · refine ⟨segment, by simp, rest, ?_⟩
    rw [← h, Naming.stem_append, Naming.stem_singleton]
    simp
  · cases ho
    refine ⟨name, by simp, rest, ?_⟩
    rw [← h, qualified_toList]
    simp

theorem Under.name_ne {name segment simple : String}
    (h : d.Under (package ++ [segment]) (some (qualified package name))) (hs : Plain simple.toList) :
    d.name ≠ qualified package simple := by
  intro hd
  obtain ⟨head, -, rest, hn⟩ := h.split
  rw [hd, qualified_toList, List.append_assoc, List.append_cancel_left_eq] at hn
  exact hs.not_mem (c := '.') rfl (by decide) (hn ▸ by simp)

/-- Up to its first point, what follows the package in the name ends in the letter; there, no simple name
but the given one follows it. -/
structure EndsIn (package : List String) (name : String) (c : Char) (d : Descriptor) : Prop where
  head : ∃ head, Plain head ∧ head.getLast? = some c ∧ d.Headed package head
  only : ∀ simple : String, Plain simple.toList → simple ≠ name → d.name ≠ qualified package simple

end Descriptor

open Descriptor (IsArtifact)

/-- The artifacts of a member: named below its package or its owner, and distinct. -/
structure Named (package : List String) (owner? : Option String) (artifacts : List Descriptor) : Prop where
  artifact : ∀ a ∈ artifacts, a.IsArtifact
  distinct : (artifacts.map (·.name)).Nodup
  under : ∀ a ∈ artifacts, a.Under package owner?
  placed : ∀ a ∈ artifacts, a.isUnit → a.Placed package

namespace Named

variable {package : List String} {owner? : Option String} {name segment : String}
  {artifacts others : List Descriptor}

theorem nil : Named package owner? [] := ⟨by simp, .nil, by simp, by simp⟩

theorem append (h : Named package owner? artifacts) (h' : Named package owner? others)
    (hd : ∀ a ∈ artifacts, ∀ b ∈ others, a.name ≠ b.name) : Named package owner? (artifacts ++ others) := by
  refine ⟨List.forall_mem_append.2 ⟨h.artifact, h'.artifact⟩, ?_,
    List.forall_mem_append.2 ⟨h.under, h'.under⟩, List.forall_mem_append.2 ⟨h.placed, h'.placed⟩⟩
  rw [List.map_append, List.nodup_append]
  refine ⟨h.distinct, h'.distinct, fun n hn n' hn' => ?_⟩
  obtain ⟨a, ha, rfl⟩ := List.mem_map.1 hn
  obtain ⟨b, hb, rfl⟩ := List.mem_map.1 hn'
  exact hd a ha b hb

theorem unit {d : Descriptor} (hu : d.isUnit = true) (hn : Plain name.toList)
    (simple : d.simpleName = name) (named : d.name = qualified package name)
    (placed : d.package = package) : Named package owner? [d] := by
  refine ⟨?_, List.nodup_singleton _, ?_, ?_⟩
  · simpa using .inl hu
  · intro a ha
    rw [List.mem_singleton.1 ha]
    left
    rw [named]
    exact stem_starts_qualified package name
  · intro a ha _
    rw [List.mem_singleton.1 ha]
    exact ⟨⟨[], by rw [placed, List.append_nil], by simp⟩, by rw [simple]; exact hn,
      by rw [placed, simple, named]⟩

/-- What lies under a class lies in the package of the class. -/
theorem lift (h : Named (package ++ [segment]) (some (qualified package name)) artifacts)
    (hs : Plain segment.toList) : Named package owner? artifacts := by
  refine ⟨h.artifact, h.distinct, fun a ha => .inl ?_, fun a ha hu => ?_⟩
  · rcases h.under a ha with hu | ⟨owner, ho, hu⟩
    · rw [Naming.stem_append] at hu
      exact (List.prefix_append _ _).trans hu
    · cases ho
      exact ((stem_starts_qualified package name).trans (List.prefix_append _ _)).trans hu
  · obtain ⟨⟨inner, hp, hi⟩, hsi, hna⟩ := h.placed a ha hu
    refine ⟨⟨segment :: inner, by rw [hp, List.append_assoc]; rfl, ?_⟩, hsi, hna⟩
    exact List.forall_mem_cons.2 ⟨hs, hi⟩

end Named

/-- The artifacts of an object: those under its class and then the class, or none. -/
inductive NamedClass (segment name : String) (package : List String) : List Descriptor → Prop
  | replaced : NamedClass segment name package []
  | built {t : ObjectType Descriptor} (simple : t.simpleName = name)
      (named : t.name = qualified package name) (placed : t.package = package)
      (under : Named (package ++ [segment]) (some (qualified package name)) t.nested) :
      NamedClass segment name package (t.nested ++ [.object t])

namespace NamedClass

variable {segment name : String} {package : List String} {owner? : Option String}
  {artifacts : List Descriptor}

theorem named (h : NamedClass segment name package artifacts) (hs : Plain segment.toList)
    (hn : Plain name.toList) : Named package owner? artifacts := by
  cases h with
  | replaced => exact .nil
  | @built t simple named placed under =>
    have class_named : Named package owner? [.object t] := .unit rfl hn simple named placed
    refine (under.lift hs).append class_named fun a ha b hb => ?_
    rw [List.mem_singleton.1 hb, show (Descriptor.object t).name = _ from named]
    exact (under.under a ha).name_ne hn

/-- The names of a class and of what lies under it end in one letter up to their first point after the
package, and only the class has a simple name there. -/
theorem endsIn (h : NamedClass segment name package artifacts) (hs : Plain segment.toList)
    (hn : Plain name.toList) {c : Char} (lastSegment : segment.toList.getLast? = some c)
    (last : name.toList.getLast? = some c) : ∀ a ∈ artifacts, a.EndsIn package name c := by
  intro a ha
  cases h with
  | replaced => cases ha
  | @built t simple named placed under =>
    rcases List.mem_append.1 ha with ha | ha
    · have hu := under.under a ha
      refine ⟨?_, fun simple hs' _ => hu.name_ne hs'⟩
      obtain ⟨head, hh, rest, hname⟩ := hu.split
      have tail : ∃ rest', '.' :: rest = '.' :: rest' := ⟨rest, rfl⟩
      rcases List.mem_cons.1 hh with rfl | hh
      · exact ⟨head.toList, hn, last, _, hname, .inr tail⟩
      · rw [List.mem_singleton.1 hh] at hname
        exact ⟨segment.toList, hs, lastSegment, _, hname, .inr tail⟩
    · rw [List.mem_singleton.1 ha]
      have hname : (Descriptor.object t).name = qualified package name := named
      refine ⟨⟨name.toList, hn, last, [], ?_, .inl rfl⟩, fun simple _ hne hd => hne ?_⟩
      · rw [hname, qualified_toList, List.append_nil]
      · have := congrArg String.toList (hname.symm.trans hd)
        rw [qualified_toList, qualified_toList, List.append_cancel_left_eq, String.toList_inj] at this
        exact this.symm

end NamedClass

/-- Types inside a class are named after it with a point, and the field of undeclared keys has a name
that properties can have. -/
structure Resolver.Dotted (r : Resolver) : Prop where
  inner : ∀ owner name, r.types.inner owner name = owner ++ "." ++ name
  catchAll : r.names.identifier additionalProperties = additionalProperties

namespace Resolver

variable {r : Resolver} {name : String} {package : List String} {owner? : Option String}
  {path : String} {depth : Int} {res : Resolution}

theorem resolveEnum_named (hr : r.Dotted) {node : Node}
    (h : r.resolveEnum node name package owner? path = .ok res) : Named package owner? res.artifacts := by
  obtain ⟨type, rfl, -, hn, -⟩ := resolveEnum_ok h
  refine ⟨?_, List.nodup_singleton _, ?_, ?_⟩
  · rintro a ha
    exact .inr ⟨type, List.mem_singleton.1 ha⟩
  · intro a ha
    rw [List.mem_singleton.1 ha]
    have inside := stem_starts_qualified package name
    show stem '.' package <+: type.name.toList ∨ ∃ owner, owner? = some owner ∧ _ <+: type.name.toList
    rw [hn]
    unfold enumName
    cases owner? with
    | none => exact .inl inside
    | some owner =>
      simp only []
      split
      · exact .inl inside
      · right
        refine ⟨owner, rfl, name.toList, ?_⟩
        rw [hr.inner]
        simp
  · intro a ha hu
    rw [List.mem_singleton.1 ha] at hu
    cases hu

namespace Builds

variable {traits : Traits} {properties : List (Scalar × Node)} {required : List Scalar}
  {additional : Additional Node} {parts : List ResolvedMember} {typed? : Option Resolution}
  {t : ObjectType Descriptor}

/-- No property that has a field is named like the field of undeclared keys, when there is one. -/
theorem keys_distinct (hr : r.Dotted)
    (h : Builds r traits properties required additional name package path depth parts typed? t)
    (hk : properties.Pairwise fun p q => p.1.same q.1 = false) :
    ((parts.map ResolvedMember.contribution ++
      (r.undeclared? traits additional typed?).toList.map r.catchAll).map (·.property)).Pairwise
        fun k l => k.same l = false := by
  have names : (parts.map ResolvedMember.contribution).map (·.property) =
      (keptProperties r.names properties).map (·.1) := by
    rw [← h.kept, List.map_map, List.map_map]
    rfl
  rw [List.map_append, List.pairwise_append]
  refine ⟨?_, ?_, ?_⟩
  · rw [names, List.pairwise_map]
    exact hk.sublist List.filter_sublist
  · cases r.undeclared? traits additional typed? <;> simp
  · intro k hk l hl
    obtain ⟨c, hc, rfl⟩ := List.mem_map.1 hk
    obtain ⟨p, hp, rfl⟩ := List.mem_map.1 hc
    obtain ⟨c', hc', rfl⟩ := List.mem_map.1 hl
    obtain ⟨value, hv, rfl⟩ := List.mem_map.1 hc'
    by_contra hs
    have hs : p.name.same (.str additionalProperties) = true := eq_true_of_ne_false hs
    have hv : (r.undeclared? traits additional typed?).isSome := by
      rw [Option.isSome_iff_exists]
      exact ⟨value, by simpa using hv⟩
    refine h.alone hv p hp ?_
    rw [(memberField_ok (h.resolved p hp).field).1, Scalar.same_str hs]
    exact hr.catchAll

/-- The artifacts below a class lie under it or under the package of its members. -/
theorem nested_named (hr : r.Dotted)
    (h : Builds r traits properties required additional name package path depth parts typed? t)
    (hk : properties.Pairwise fun p q => p.1.same q.1 = false)
    (hp : ∀ p ∈ parts, Named (package ++ [r.names.packageSegment name]) (some (qualified package name))
      p.resolution.artifacts)
    (hv : ∀ value ∈ (r.undeclared? traits additional typed?).toList,
      Named (package ++ [r.names.packageSegment name]) (some (qualified package name)) value.artifacts) :
    Named (package ++ [r.names.packageSegment name]) (some (qualified package name)) t.nested := by
  have each : ∀ c ∈ parts.map ResolvedMember.contribution ++
      (r.undeclared? traits additional typed?).toList.map r.catchAll,
      Named (package ++ [r.names.packageSegment name]) (some (qualified package name)) c.artifacts := by
    intro c hc
    rcases List.mem_append.1 hc with hc | hc
    · obtain ⟨p, hpp, rfl⟩ := List.mem_map.1 hc
      exact hp p hpp
    · obtain ⟨value, hvv, rfl⟩ := List.mem_map.1 hc
      exact hv value hvv
  obtain ⟨claimed, ha⟩ := h.added
  have mem : ∀ a ∈ t.nested, ∃ c ∈ parts.map ResolvedMember.contribution ++
      (r.undeclared? traits additional typed?).toList.map r.catchAll, a ∈ c.artifacts := by
    intro a hm
    have := ha.artifacts
    simp only [List.nil_append] at this
    rw [this] at hm
    exact List.mem_flatMap.1 hm
  refine ⟨fun a hm => ?_, ?_, fun a hm => ?_, fun a hm => ?_⟩
  · obtain ⟨c, hc, hac⟩ := mem a hm
    exact (each c hc).artifact a hac
  · have tracks := ha.tracks .empty (fun c hc => (each c hc).distinct) (h.keys_distinct hr hk)
    exact tracks.distinct
  · obtain ⟨c, hc, hac⟩ := mem a hm
    exact (each c hc).under a hac
  · obtain ⟨c, hc, hac⟩ := mem a hm
    exact (each c hc).placed a hac

end Builds

/-- The class of an object, when its members have the names of members. -/
theorem YieldsClass.namedClass (hr : r.Dotted) {traits : Traits} {properties : List (Scalar × Node)}
    {required : List Scalar} {additional : Additional Node}
    (h : YieldsClass r traits properties required additional name package path depth res)
    (hk : properties.Pairwise fun p q => p.1.same q.1 = false)
    (member : ∀ p ∈ properties, ∀ name package owner? path depth res, Plain name.toList →
      r.resolve name package owner? path depth p.2 = .ok res → Named package owner? res.artifacts)
    (schema : ∀ s, additional = .typed s → ∀ name package owner? path depth res, Plain name.toList →
      r.resolve name package owner? path depth s = .ok res → Named package owner? res.artifacts) :
    NamedClass (r.names.packageSegment name) name package res.artifacts := by
  cases h with
  | replaced => exact .replaced
  | @built parts typed? t h =>
    refine .built h.simple h.named h.placed (h.nested_named hr hk (fun p hp => ?_) fun value hv => ?_)
    · exact member p.property (h.mem_properties hp) _ _ _ _ _ _ (r.names.plain_typeName _)
        (h.resolved p hp).resolve
    · rcases h.mem_undeclared hv with rfl | ⟨s, hs, hres⟩
      · exact .nil
      · exact schema s hs _ _ _ _ _ _ (r.names.plain_typeName _) hres

theorem resolve_named (hr : r.Dotted) {node : Node} (hk : node.KeysDistinct) (hn : Plain name.toList)
    (h : r.resolve name package owner? path depth node = .ok res) : Named package owner? res.artifacts := by
  have y := resolve_ok h
  clear h
  induction y using Yields.induction with
  | intOrString | untyped | free | basic => exact .nil
  | «class» _ hc _ member schema =>
    cases hk with
    | object distinct hm hs =>
      have class_named := hc.namedClass hr distinct
        (fun p hp _ _ _ _ _ _ hn h => member p hp _ _ _ _ _ _ h (hm p hp) hn)
        (fun s hs' _ _ _ _ _ _ hn h => schema s hs' _ _ _ _ _ _ h (hs s hs') hn)
      exact class_named.named (r.names.plain_packageSegment _) hn
  | array _ _ ih =>
    cases hk with
    | array hk =>
      rw [arrayOf_artifacts]
      exact ih hk hn
  | map _ _ ih =>
    cases hk with
    | map hk =>
      rw [mapOf_artifacts]
      exact ih hk hn
  | enum _ he => exact resolveEnum_named hr he

theorem resolveObject_namedClass (hr : r.Dotted) {node : Node} (hk : node.KeysDistinct)
    (h : r.resolveObject node name package path depth = .ok res) :
    NamedClass (r.names.packageSegment name) name package res.artifacts :=
  (resolveObject_ok h).namedClass hr hk.properties
    (fun p hp _ _ _ _ _ _ hn h => resolve_named hr (hk.member p hp) hn h)
    (fun s hs _ _ _ _ _ _ hn h => resolve_named hr (additionalOf_keysDistinct hk s hs) hn h)

theorem partArtifacts_namedClass (hr : r.Dotted) {node? : Option Node} {artifacts : List Descriptor}
    (hk : ∀ node, node? = some node → node.KeysDistinct)
    (h : r.PartArtifacts node? name package path artifacts) :
    NamedClass (r.names.packageSegment name) name package artifacts :=
  h.elim .replaced fun node _ hn hres => resolveObject_namedClass hr (hk node hn) hres

/-- A class that adds a suffix to the name of the resource, with what lies under it: the suffix's last
letter ends their names. -/
theorem partArtifacts_named (hr : r.Dotted) {node? : Option Node} {artifacts : List Descriptor}
    (hk : ∀ node, node? = some node → node.KeysDistinct) (hn : Plain name.toList) (cs : List Char)
    (c : Char) {suffix : String} (hc : suffix.toList = cs ++ [c]) (letters : Plain suffix.toList)
    (alnum : c.isAlphanum) (low : c.toLower = c)
    (h : r.PartArtifacts node? (name ++ suffix) package path artifacts) :
    Named package none artifacts ∧ ∀ a ∈ artifacts, a.EndsIn package (name ++ suffix) c := by
  have hc : (name ++ suffix).toList = (name.toList ++ cs) ++ [c] := by
    rw [String.toList_append, hc, List.append_assoc]
  have plain : Plain (name ++ suffix).toList := by
    rw [String.toList_append]
    exact hn.append letters
  have last : (name ++ suffix).toList.getLast? = some c := by rw [hc, List.getLast?_concat]
  have lastSegment : (r.names.packageSegment (name ++ suffix)).toList.getLast? = some c := by
    rw [r.names.packageSegment_getLast? _ alnum hc, low]
  have segment := r.names.plain_packageSegment (name ++ suffix)
  have class_named := partArtifacts_namedClass hr hk h
  exact ⟨class_named.named segment plain, class_named.endsIn segment plain lastSegment last⟩

/-- The artifacts of a spec, of a status and the resource around them. -/
theorem assemble_named (hr : r.Dotted) {kind : String} {info : ResourceInfo} {spec status : Option Node}
    (hs : ∀ node, spec = some node → node.KeysDistinct)
    (ht : ∀ node, status = some node → node.KeysDistinct)
    (h : r.assemble kind package info spec status = .ok res) : Named package none res.artifacts := by
  obtain ⟨specs, statuses, t, rfl, simple, named, placed, -, hsp, hst⟩ := assemble_ok h
  have plain : Plain (r.names.typeName kind).toList := r.names.plain_typeName kind
  obtain ⟨namedSpec, endsSpec⟩ :=
    partArtifacts_named hr hs plain ['S', 'p', 'e'] 'c' rfl (.of_all rfl) rfl rfl hsp
  obtain ⟨namedStatus, endsStatus⟩ :=
    partArtifacts_named hr ht plain ['S', 't', 'a', 't', 'u'] 's' rfl (.of_all rfl) rfl rfl hst
  have resource_named : Named package none [.resource t] := .unit rfl plain simple named placed
  -- the spec's names end in one letter, the status's in another, and the resource has no suffix
  refine .append (.append namedSpec namedStatus fun a ha b hb hd => ?_) resource_named
    fun a ha b hb => ?_
  · obtain ⟨head, hp, hl, hh⟩ := (endsSpec a ha).head
    obtain ⟨head', hp', hl', hh'⟩ := (endsStatus b hb).head
    rw [hh.unique hh' hp hp' hd, hl'] at hl
    cases hl
  · rw [List.mem_singleton.1 hb, show (Descriptor.resource t).name = _ from named]
    have longer {suffix : String} (h : suffix ≠ "") :
        r.names.typeName kind ≠ r.names.typeName kind ++ suffix :=
      fun he => h (String.append_eq_left_iff.1 he.symm)
    rcases List.mem_append.1 ha with ha | ha
    · exact (endsSpec a ha).only _ plain (longer (by decide))
    · exact (endsStatus a ha).only _ plain (longer (by decide))

end Resolver

namespace Generator

/-- Classes below one package whose names differ have different paths. -/
theorem pathOf_nodup (g : Generator) (hx : '/' ∉ g.extension.toList) {package : List String}
    {units : List Descriptor} (hp : ∀ t ∈ units, t.Placed package) (hn : (units.map (·.name)).Nodup) :
    (units.map g.pathOf).Nodup := by
  have inj : ∀ t ∈ units, ∀ u ∈ units, g.pathOf t = g.pathOf u → t.name = u.name := by
    intro t ht u hu h
    obtain ⟨⟨inner, hpt, hi⟩, hst, hnt⟩ := hp t ht
    obtain ⟨⟨inner', hpu, hi'⟩, hsu, hnu⟩ := hp u hu
    have slash : ∀ d : Descriptor, (g.pathOf d).toList =
        stem '/' d.package ++ (d.simpleName ++ g.extension).toList := fun d =>
      Naming.join_concat (by simp) d.package _
    -- no segment has a slash, so that equal paths have equal packages and equal names
    have h := congrArg String.toList h
    rw [slash, slash, hpt, hpu, Naming.stem_append, Naming.stem_append, List.append_assoc,
      List.append_assoc, List.append_cancel_left_eq, String.toList_append, String.toList_append] at h
    have free : ∀ s : String, Plain s.toList → '/' ∉ s.toList ++ g.extension.toList := by
      intro s hs hm
      rcases List.mem_append.1 hm with hm | hm
      · exact hs.not_mem rfl (by decide) hm
      · exact hx hm
    obtain ⟨rfl, hs⟩ := Naming.stem_append_inj (fun s hs => (hi s hs).not_mem rfl (by decide))
      (fun s hs => (hi' s hs).not_mem rfl (by decide)) (free _ hst) (free _ hsu) h
    have simple := String.toList_inj.1 (List.append_cancel_right hs)
    rw [hnt, hnu, hpt, hpu, simple]
  rw [List.Nodup, List.pairwise_map] at hn ⊢
  exact hn.imp_of_mem fun ht hu hne he => hne (inj _ ht _ hu he)

end Generator

namespace Resolver

variable {r : Resolver} {res : Resolution} {d : Definition}

theorem resolveSchema_named (hr : r.Dotted) {schema package : Value} {name : String}
    (hk : schema.keysDistinct) (h : r.resolveSchema schema name package = .ok res) :
    ∃ package, Named package none res.artifacts := by
  obtain ⟨root, segments, hroot, -, h⟩ := resolveSchema_ok h
  have class_named := resolveObject_namedClass hr (Node.ofValue_keysDistinct hk hroot) h
  exact ⟨segments, class_named.named (r.names.plain_packageSegment _) (r.names.plain_typeName name)⟩

theorem resolveVersion_named (hr : r.Dotted) {version : Value} (hd : d.sharedSchema.keysDistinct)
    (hv : version.keysDistinct) (h : r.resolveVersion d version = .ok res) :
    ∃ package, Named package none res.artifacts := by
  obtain ⟨entries, label, root, info, he, hroot, h⟩ := resolveVersion_ok h
  have hk := versionRoot_distinct hd (versionEntries_distinct hv he) hroot
  exact ⟨_, assemble_named hr (fun node hn => hk.property? hn) (fun node hn => hk.property? hn) h⟩

end Resolver

/-- The artifacts of a resolution make a compilation, and its units have paths of their own. -/
structure Generator.Separates (g : Generator) (res : Resolution) : Prop where
  names : (res.artifacts.map (·.name)).Nodup
  compiled : ∃ c, Compilation.ofResolution res = .ok c ∧ (c.topLevel.map g.pathOf).Nodup

theorem Named.separates {g : Generator} (hx : '/' ∉ g.extension.toList) {res : Resolution}
    {package : List String} {owner? : Option String} (h : Named package owner? res.artifacts) :
    g.Separates res := by
  refine ⟨h.distinct, ?_⟩
  obtain ⟨c, hc⟩ := Compilation.exists_ofResolution h.artifact h.distinct
  refine ⟨c, hc, ?_⟩
  rw [(Compilation.ofResolution_ok hc).2]
  have placed : ∀ t ∈ res.artifacts.filter (·.isUnit), t.Placed package := fun t ht =>
    h.placed t (List.mem_filter.1 ht).1 (List.mem_filter.1 ht).2
  exact g.pathOf_nodup hx placed (h.distinct.sublist (List.filter_sublist.map _))

namespace Java

theorem dotted (config : Config) : (generator config).resolver.Dotted where
  inner _ _ := rfl
  catchAll := by
    show sanitizer.identifier additionalProperties = additionalProperties
    decide +kernel

theorem slash_not_mem_extension (config : Config) : '/' ∉ (generator config).extension.toList := by
  show '/' ∉ ".java".toList
  decide

/-- Artifacts of one resolution have distinct names and paths, whatever is resolved: a schema as a class
or any version of a definition. Their compilation never fails. -/
theorem separates_artifacts (config : Config) :
    (∀ schema name package res, schema.keysDistinct →
      (generator config).resolver.resolveSchema schema name package = .ok res →
        (generator config).Separates res) ∧
    ∀ (document : Value) es spec d versions version res, document.keysDistinct → document.entries = .ok es →
      (generator config).resolver.definitionOf es = .ok (spec, d) →
        Resolver.versionsOf spec = .ok versions → version ∈ versions →
          (generator config).resolver.resolveVersion d version = .ok res →
            (generator config).Separates res := by
  refine ⟨fun schema name package res hk h => ?_,
    fun document es spec d versions version res hk he hd hvs hv h => ?_⟩
  · obtain ⟨package, hn⟩ := Resolver.resolveSchema_named (dotted config) hk h
    exact hn.separates (slash_not_mem_extension config)
  · obtain ⟨hspec, hshared⟩ := Resolver.definitionOf_distinct (Value.entries_distinct hk he) hd
    have hver := Resolver.versionsOf_distinct hspec hvs version hv
    obtain ⟨package, hn⟩ := Resolver.resolveVersion_named (dotted config) hshared hver h
    exact hn.separates (slash_not_mem_extension config)

/-- The object of `deviceSchema` as it stands in a document. -/
def deviceValue : Value :=
  .map [(.str "type", .str "object"),
    (.str "properties", .map [
      (.str "mode", .map [(.str "enum", .list [.str "on", .str "off"])]),
      (.str "ports", .map [(.str "type", .str "array"),
        (.str "items", .map [(.str "type", .str "object"),
          (.str "properties", .map [(.str "number", .map [(.str "type", .str "integer")])])])])])]

def deviceDefinition : Value :=
  .map [(.str "spec", .map [(.str "group", .str "test.io"),
    (.str "names", .map [(.str "kind", .str "Device")]),
    (.str "versions", .list [.map [(.str "name", .str "v1"),
      (.str "schema", .map [(.str "openAPIV3Schema", .map [(.str "type", .str "object"),
        (.str "properties", .map [(.str "spec", deviceValue), (.str "status", deviceValue)])])])]])])]

theorem separates_artifacts_device :
    (∃ res, (generator {}).resolver.resolveSchema deviceValue "Device" (.str "test.io") = .ok res ∧
      (generator {}).Separates res ∧ res.artifacts.length = 3) ∧
    ∃ es spec d version res, deviceDefinition.entries = .ok es ∧
      (generator {}).resolver.definitionOf es = .ok (spec, d) ∧
        Resolver.versionsOf spec = .ok [version] ∧
          (generator {}).resolver.resolveVersion d version = .ok res ∧ (generator {}).Separates res ∧
            res.artifacts.length = 7 := by
  refine ⟨⟨_, rfl, ?_, rfl⟩, ⟨_, _, _, _, _, rfl, rfl, rfl, rfl, ?_, rfl⟩⟩
  · exact (separates_artifacts {}).1 deviceValue "Device" (.str "test.io") _ (by decide) rfl
  · exact (separates_artifacts {}).2 deviceDefinition _ _ _ _ _ _ (by decide) rfl rfl rfl
      List.mem_cons_self rfl

end Java

end ResourceCompiler
