import ResourceCompiler.Proofs.Resolver.Closed

/-!
# Packages of classes

A class stands in the package that its compilation was made for, or in that of the members of another
class: every segment after the first package is that of a class which stands before it and nests
whatever comes after it (`Resolver.Housed`). So a package has the dotted name of a class exactly when the
name of the class reads like the segment that another class of its package gives to its members
(`Compiles.namesPackage_iff`).
-/

namespace ResourceCompiler

open Naming (Plain stem qualified qualified_toList)

namespace Descriptor

/-- The qualified name is the dotted name of the package, or of one around it. -/
def NamesPackage (d : Descriptor) (package : List String) : Prop :=
  ∃ outer, outer <+: package ∧ d.name = Text.join "." outer

/-- The class has its qualified name from its package and a plain simple name. -/
structure Spelled (d : Descriptor) : Prop where
  named : d.name = qualified d.package d.simpleName
  plain : Plain d.simpleName.toList
  ne_empty : d.simpleName ≠ ""

/-- A dotted name that continues another one is no package around it. -/
theorem Spelled.name_ne_join {d : Descriptor} (h : d.Spelled) {outer : List String}
    (ho : outer <+: d.package) : d.name ≠ Text.join "." outer := by
  obtain ⟨rest, hr⟩ := ho
  intro hn
  have hlen := congrArg (·.toList.length) hn
  simp only [h.named, qualified_toList, ← hr, Naming.stem_append, List.length_append] at hlen
  have hne : d.simpleName.toList.length ≠ 0 := by
    simpa [String.toList_eq_nil_iff] using h.ne_empty
  -- a joined path is shorter than its stem, which ends in one more point
  have hle : (Text.join "." outer).toList.length ≤ (stem '.' outer).length := by
    rcases List.eq_nil_or_concat outer with rfl | ⟨init, last, rfl⟩
    · simp [Text.join, Text.joinWith]
    · rw [List.concat_eq_append, show Text.join "." (init ++ [last]) = qualified init last from rfl,
        qualified_toList, Naming.stem_append, Naming.stem_singleton]
      simp
  omega

end Descriptor

namespace Resolver

variable {r : Resolver} {name : String} {package : List String} {path : String} {depth : Int}
  {res : Resolution} {artifacts others : List Descriptor}

/-- What a class gives to the packages of its members. -/
def memberPackage (r : Resolver) (t : ObjectType Descriptor) : List String :=
  t.package ++ [r.names.packageSegment t.simpleName]

/-- The classes are in the package or in packages of members of classes that nest them. -/
structure Housed (r : Resolver) (package : List String) (artifacts : List Descriptor) : Prop where
  below : ∀ d ∈ artifacts, d.isUnit = true → ∃ inner, d.package = package ++ inner ∧
    ∀ before segment, before ++ [segment] <+: inner → ∃ u, .object u ∈ artifacts ∧
      u.package = package ++ before ∧ r.names.packageSegment u.simpleName = segment ∧ d ∈ u.nested
  members : ∀ u, .object u ∈ artifacts → ∀ d ∈ u.nested, d.isUnit = true → r.memberPackage u <+: d.package

namespace Housed

theorem nil : r.Housed package [] := ⟨by simp, by simp⟩

theorem append (h : r.Housed package artifacts) (h' : r.Housed package others) :
    r.Housed package (artifacts ++ others) := by
  refine ⟨fun d hd hu => ?_, fun u hu d hd => ?_⟩
  · rcases List.mem_append.1 hd with hd | hd
    · obtain ⟨inner, hp, hi⟩ := h.below d hd hu
      refine ⟨inner, hp, fun before segment hb => ?_⟩
      obtain ⟨u, hm, h⟩ := hi before segment hb
      exact ⟨u, by simp [hm], h⟩
    · obtain ⟨inner, hp, hi⟩ := h'.below d hd hu
      refine ⟨inner, hp, fun before segment hb => ?_⟩
      obtain ⟨u, hm, h⟩ := hi before segment hb
      exact ⟨u, by simp [hm], h⟩
  · rcases List.mem_append.1 hu with hu | hu
    · exact h.members u hu d hd
    · exact h'.members u hu d hd

theorem flatMap {α : Type} {f : α → List Descriptor} {xs : List α}
    (h : ∀ x ∈ xs, r.Housed package (f x)) : r.Housed package (xs.flatMap f) := by
  induction xs with
  | nil => exact .nil
  | cons x xs ih =>
    obtain ⟨hx, hxs⟩ := List.forall_mem_cons.1 h
    exact hx.append (ih hxs)

theorem perm (h : r.Housed package artifacts) (hp : artifacts.Perm others) : r.Housed package others := by
  refine ⟨fun d hd hu => ?_, fun u hu => h.members u (hp.mem_iff.2 hu)⟩
  obtain ⟨inner, hpk, hi⟩ := h.below d (hp.mem_iff.2 hd) hu
  refine ⟨inner, hpk, fun before segment hb => ?_⟩
  obtain ⟨u, hm, h⟩ := hi before segment hb
  exact ⟨u, hp.mem_iff.1 hm, h⟩

/-- The segments beyond the first package are those of classes. -/
theorem plain (h : r.Housed package artifacts) {d : Descriptor} (hd : d ∈ artifacts) (hu : d.isUnit = true)
    {inner : List String} (hp : d.package = package ++ inner) : ∀ s ∈ inner, Plain s.toList := by
  obtain ⟨inner', hp', hi⟩ := h.below d hd hu
  rw [hp, List.append_cancel_left_eq] at hp'
  subst hp'
  intro s hm
  obtain ⟨before, after, rfl⟩ := List.append_of_mem hm
  obtain ⟨u, -, -, rfl, -⟩ := hi before s ⟨after, by simp⟩
  exact r.names.plain_packageSegment _

/-- A resource nests no members in packages of its own. -/
theorem resource {t : ResourceType Descriptor} (hp : t.package = package) :
    r.Housed package [.resource t] := by
  refine ⟨fun d hd _ => ⟨[], ?_, by simp⟩, by simp⟩
  rw [List.mem_singleton.1 hd, List.append_nil]
  exact hp

/-- A class after what it nests. -/
theorem «class» {t : ObjectType Descriptor} (hp : t.package = package)
    (h : r.Housed (r.memberPackage t) t.nested) : r.Housed package (t.nested ++ [.object t]) := by
  subst hp
  refine ⟨fun d hd hu => ?_, fun u hu d hd hud => ?_⟩
  · rcases List.mem_append.1 hd with hd | hd
    · obtain ⟨inner, hpk, hi⟩ := h.below d hd hu
      refine ⟨r.names.packageSegment t.simpleName :: inner, by simp [hpk, memberPackage], ?_⟩
      rintro (_ | ⟨s, before⟩) segment hb
      · obtain ⟨rfl, -⟩ := List.cons_prefix_cons.1 hb
        exact ⟨t, by simp, by simp, rfl, hd⟩
      · obtain ⟨rfl, hrest⟩ := List.cons_prefix_cons.1 hb
        obtain ⟨u, hm, hup, h⟩ := hi before segment hrest
        exact ⟨u, by simp [hm], by simp [hup, memberPackage], h⟩
    · rw [List.mem_singleton.1 hd]
      exact ⟨[], by simp [Descriptor.package], by simp⟩
  · rcases List.mem_append.1 hu with hu | hu
    · exact h.members u hu d hd hud
    · cases List.mem_singleton.1 hu
      obtain ⟨inner, hpk, -⟩ := h.below d hd hud
      exact ⟨inner, hpk.symm⟩

end Housed

theorem housed (r : Resolver) : r.Invariant fun _ package _ res => r.Housed package res.artifacts where
  existing _ := .nil
  primitive _ := .nil
  enum h := by
    obtain ⟨e, rfl, -⟩ := resolveEnum_ok h
    exact ⟨by simp [Descriptor.isUnit], by simp⟩
  array h := h
  map h := h
  built h member value := by
    refine .class h.placed ?_
    rw [h.nested, memberPackage, h.placed, h.simple]
    exact .append (.flatMap member) (.flatMap value)

theorem partArtifacts_housed {node? : Option Node}
    (h : r.PartArtifacts node? name package path artifacts) : r.Housed package artifacts :=
  h.elim .nil fun _ _ _ h => r.housed.resolveObject none h

theorem Compiles.housed {c : Compilation} (h : r.Compiles c) : ∃ package, r.Housed package c.artifacts := by
  obtain ⟨res, hc, h⟩ := h.resolution
  have perm := (Compilation.artifacts_perm hc).symm
  rcases h with ⟨root, name, package, path, depth, h⟩ | ⟨kind, package, info, spec, status, h⟩
  · exact ⟨package, (r.housed.resolveObject none h).perm perm⟩
  · obtain ⟨specs, statuses, t, rfl, -, -, placed, -, hs, ht⟩ := assemble_ok h
    have parts := (partArtifacts_housed hs).append (partArtifacts_housed ht)
    exact ⟨package, (parts.append (.resource placed)).perm perm⟩

/-- What holds of the names of types, and of those with a suffix for a part of a resource, holds of the
simple names of all classes. -/
theorem Compiles.forall_simpleName {c : Compilation} (h : r.Compiles c) {N : String → Prop}
    (type : ∀ raw, N (r.names.typeName raw)) (spec : ∀ raw, N (r.names.typeName raw ++ "Spec"))
    (status : ∀ raw, N (r.names.typeName raw ++ "Status")) :
    ∀ d ∈ c.topLevel, N d.simpleName ∧ d.name = qualified d.package d.simpleName := by
  -- enums inside a class are named after it, so that nothing is said of them
  let P (d : Descriptor) : Prop := d.isUnit = true → N d.simpleName ∧ d.name = qualified d.package d.simpleName
  have invariant : r.Invariant fun name _ _ res => N name → ∀ d ∈ res.artifacts, P d := by
    refine ⟨fun _ _ => by simp [existing], fun _ _ => by simp, fun h _ d hd hu => ?_, fun h => h, fun h => h, ?_⟩
    · obtain ⟨e, rfl, -⟩ := resolveEnum_ok h
      rw [List.mem_singleton.1 hd] at hu
      cases hu
    · intro _ _ _ _ name package _ _ _ parts typed? t h member value hn
      rw [h.nested]
      refine List.forall_mem_append.2 ⟨List.forall_mem_append.2 ⟨fun d hd => ?_, fun d hd => ?_⟩, ?_⟩
      · obtain ⟨p, hp, hd⟩ := List.mem_flatMap.1 hd
        exact member p hp (type _) d hd
      · obtain ⟨v, hv, hd⟩ := List.mem_flatMap.1 hd
        exact value v hv (type _) d hd
      · intro d hd _
        rw [List.mem_singleton.1 hd]
        exact ⟨by simpa [Descriptor.simpleName, h.simple] using hn,
          by simp [Descriptor.name, Descriptor.package, Descriptor.simpleName, h.named, h.placed, h.simple]⟩
  have part {node? : Option Node} {name path : String} {package : List String} {artifacts : List Descriptor}
      (hn : N name) (h : r.PartArtifacts node? name package path artifacts) : ∀ d ∈ artifacts, P d :=
    h.elim (P := fun artifacts => ∀ d ∈ artifacts, P d) (by simp) fun _ _ _ h =>
      invariant.resolveObject none h hn
  intro d hd
  have hu := h.isUnit d hd
  obtain ⟨res, hc, h⟩ := h.resolution
  have hm : d ∈ res.artifacts := Compilation.mem_of_mem_artifacts hc d (List.mem_append_left _ hd)
  rcases h with ⟨root, name, package, path, depth, h⟩ | ⟨kind, package, info, specNode, statusNode, h⟩
  · exact invariant.resolveObject none h (type name) d hm hu
  · obtain ⟨specs, statuses, t, rfl, simple, named, placed, -, hs, ht⟩ := assemble_ok h
    simp only [List.mem_append, List.mem_singleton] at hm
    rcases hm with (hm | hm) | rfl
    · exact part (spec kind) hs d hm hu
    · exact part (status kind) ht d hm hu
    · exact ⟨by simpa [Descriptor.simpleName, simple] using type kind,
        by simp [Descriptor.name, Descriptor.package, Descriptor.simpleName, named, placed, simple]⟩

namespace Compiles

variable {c : Compilation} {t : Descriptor}

theorem spelled (h : r.Compiles c) : ∀ d ∈ c.topLevel, d.Spelled := by
  have longer (raw suffix : String) : r.names.typeName raw ++ suffix ≠ "" :=
    fun he => r.names.typeName_ne_empty raw (String.append_eq_empty_iff.1 he).1
  have plain (raw suffix : String) (hs : Plain suffix.toList) : Plain (r.names.typeName raw ++ suffix).toList := by
    rw [String.toList_append]
    exact (r.names.plain_typeName raw).append hs
  intro d hd
  obtain ⟨⟨hp, hne⟩, hn⟩ := h.forall_simpleName (N := fun name => Plain name.toList ∧ name ≠ "")
    (fun raw => ⟨r.names.plain_typeName raw, r.names.typeName_ne_empty raw⟩)
    (fun raw => ⟨plain raw _ (.of_all rfl), longer raw _⟩)
    (fun raw => ⟨plain raw _ (.of_all rfl), longer raw _⟩) d hd
  exact ⟨hn, hp, hne⟩

theorem mem_topLevel_of_isUnit {d : Descriptor} (hd : d ∈ c.artifacts) (hu : d.isUnit = true) :
    d ∈ c.topLevel := by
  rcases List.mem_append.1 hd with hd | hd
  · exact hd
  · obtain ⟨e, -, rfl⟩ := List.mem_map.1 hd
    cases hu

/-- A class is named like a package, or like one around it, exactly when a class of its own package gives
this name to the package of its members and nests another class. -/
theorem namesPackage_iff (h : r.Compiles c) (ht : t ∈ c.topLevel) :
    (∃ d ∈ c.topLevel, t.NamesPackage d.package) ↔
      ∃ u, .object u ∈ c.topLevel ∧ u.package = t.package ∧
        r.names.packageSegment u.simpleName = t.simpleName ∧ ∃ d ∈ u.nested, d.isUnit = true := by
  have spelled := h.spelled
  have no_point : ∀ s : String, Plain s.toList → '.' ∉ s.toList := fun s hs => hs.not_mem rfl (by decide)
  obtain ⟨package, housed⟩ := h.housed
  constructor
  · rintro ⟨d, hd, outer, ho, hn⟩
    obtain ⟨inner, hpk, hi⟩ := housed.below d (List.mem_append_left _ hd) (h.isUnit d hd)
    obtain ⟨inner', hpk', -⟩ := housed.below t (List.mem_append_left _ ht) (h.isUnit t ht)
    have segments := housed.plain (List.mem_append_left _ hd) (h.isUnit d hd) hpk
    have segments' := housed.plain (List.mem_append_left _ ht) (h.isUnit t ht) hpk'
    rw [hpk] at ho
    -- the outer package lies below that of the compilation, since a name is longer than a package above its own
    rcases List.prefix_or_prefix_of_prefix ho (List.prefix_append package inner) with hb | ⟨front, rfl⟩
    · exact absurd hn ((spelled t ht).name_ne_join (hb.trans ⟨inner', hpk'.symm⟩))
    have hf : front <+: inner := (List.prefix_append_right_inj package).1 ho
    rcases List.eq_nil_or_concat front with rfl | ⟨before, segment, rfl⟩
    · exact absurd hn ((spelled t ht).name_ne_join ⟨inner', by simp [hpk']⟩)
    rw [List.concat_eq_append] at hf hn
    obtain ⟨u, hu, hup, hs, nested⟩ := hi before segment hf
    have hn := congrArg String.toList hn
    rw [(spelled t ht).named, hpk', ← List.append_assoc,
      show Text.join "." (package ++ before ++ [segment]) = qualified (package ++ before) segment from rfl,
      qualified_toList, qualified_toList, Naming.stem_append, Naming.stem_append, List.append_assoc,
      List.append_assoc, List.append_cancel_left_eq] at hn
    obtain ⟨rfl, same⟩ := Naming.stem_append_inj (fun s hs => no_point s (segments' s hs))
      (fun s hs => no_point s (segments s (hf.subset (List.mem_append_left _ hs))))
      (no_point _ (spelled t ht).plain) (no_point _ (segments segment (hf.subset (by simp)))) hn
    exact ⟨u, mem_topLevel hu, by rw [hup, hpk'], hs.trans (String.toList_inj.1 same).symm, d, nested,
      h.isUnit d hd⟩
  · rintro ⟨u, hu, hp, hs, d, hd, hud⟩
    have mem : d ∈ c.artifacts := (h.closed.nested u (List.mem_append_left _ hu)).subset hd
    refine ⟨d, mem_topLevel_of_isUnit mem hud, r.memberPackage u,
      housed.members u (List.mem_append_left _ hu) d hd hud, ?_⟩
    rw [memberPackage, hp, hs]
    exact (spelled t ht).named

end Compiles

end Resolver

end ResourceCompiler
