import ResourceCompiler.Proofs.Compilation
import ResourceCompiler.Proofs.Compile
import ResourceCompiler.Proofs.Java.Packages

/-!
# Packages configured for groups

The package that is configured for a group is split into segments like the name of the group would be, and each
one is made a segment again (`compileDefinition_package`). Segments come out in lower case and without
underscores, except in front of a digit or of a reserved word (`Java.Settled`), so a configured package is kept
exactly when each of its segments is of this kind: `Java.override_kept_iff`.
-/

namespace ResourceCompiler

/-- The configuration has the package for the group of the definition. -/
def Config.Overrides (config : Config) (document : Value) (package : String) : Prop :=
  ∃ entries spec group, document.entries = .ok entries ∧ (entries.get "spec").entriesOrNone = .ok spec ∧
    (Entries.get spec "group").key = .ok group ∧ config.packageOverride? group = some package

namespace Resolver

variable {r : Resolver} {package : String} {d : Definition}

/-- Every artifact stands in the package it was resolved for or below it. -/
theorem below (r : Resolver) : r.Invariant fun _ package _ res => ∀ a ∈ res.artifacts, package <+: a.package where
  existing _ := by simp [existing]
  primitive _ := by simp
  enum h := by
    obtain ⟨e, rfl, -, -, -, placed, -⟩ := resolveEnum_ok h
    intro a ha
    rw [List.mem_singleton.1 ha]
    exact placed ▸ List.prefix_refl _
  array h := h
  map h := h
  built h member value := by
    intro a ha
    rw [h.nested] at ha
    simp only [List.mem_append, List.mem_flatMap, List.mem_singleton] at ha
    rcases ha with (⟨p, hp, ha⟩ | ⟨v, hv, ha⟩) | rfl
    · exact (List.prefix_append _ _).trans (member p hp a ha)
    · exact (List.prefix_append _ _).trans (value v hv a ha)
    · exact h.placed ▸ List.prefix_refl _

theorem assemble_below {kind : String} {package : List String} {info : ResourceInfo} {spec status : Option Node}
    {res : Resolution} (h : r.assemble kind package info spec status = .ok res) :
    ∀ a ∈ res.artifacts, package <+: a.package := by
  obtain ⟨specs, statuses, t, rfl, -, -, placed, -, hs, ht⟩ := assemble_ok h
  have part {node? : Option Node} {name path : String} {artifacts : List Descriptor}
      (h : r.PartArtifacts node? name package path artifacts) : ∀ a ∈ artifacts, package <+: a.package :=
    h.elim (P := fun artifacts => ∀ a ∈ artifacts, package <+: a.package) (by simp) fun _ _ _ h =>
      r.below.resolveObject none h
  refine List.forall_mem_append.2 ⟨List.forall_mem_append.2 ⟨part hs, part ht⟩, ?_⟩
  intro a ha
  rw [List.mem_singleton.1 ha]
  exact placed ▸ List.prefix_refl _

theorem definitionOf_basePackage {document : Value} {entries spec : Entries}
    (ho : r.config.Overrides document package) (he : document.entries = .ok entries)
    (h : r.definitionOf entries = .ok (spec, d)) : d.basePackage = package := by
  obtain ⟨entries', spec', group, he', hs', hg, hp⟩ := ho
  cases he.symm.trans he'
  unfold definitionOf at h
  simp only [bind_eq_ok, liftM_eq_ok] at h
  obtain ⟨spec'', hs, names, -, h⟩ := h
  cases hs.symm.trans hs'
  split at h
  · simp only [bind_eq_ok] at h
    obtain ⟨_, -, h⟩ := h
    cases h
  · simp only [bind_eq_ok, liftM_eq_ok] at h
    obtain ⟨base, hb, validation, -, h⟩ := h
    cases h
    rw [basePackageOf, hg] at hb
    simp only [bind, Except.bind, hp] at hb
    cases hb
    rfl

/-- The package of every version starts with the segments that those of the configured package give. -/
theorem compileDefinition_package {document : Value} {cs : List Compilation}
    (ho : r.config.Overrides document package) (h : r.compileDefinition document = .ok cs) :
    ∀ c ∈ cs, ∀ a ∈ c.artifacts, (Text.segments '.' package).map r.names.packageSegment <+: a.package := by
  intro c hc a ha
  obtain ⟨entries, _, d, label, info, _, _, res, he, hd, h, hc⟩ := assemble_of_mem h hc
  have placed := assemble_below h a (Compilation.mem_of_mem_artifacts hc a ha)
  rw [versionPackage, definitionOf_basePackage ho he hd, Text.segments_append rfl, List.map_append] at placed
  exact (List.prefix_append _ _).trans placed

end Resolver

namespace Java

open Naming

def isSmall (c : Char) : Bool := c.isLower || c.isDigit

/-- A segment that stays as it is: lower-case letters and digits, with an underscore in front exactly where
there is a digit or a reserved word behind it. -/
inductive Settled : List Char → Prop
  | word {c : Char} {cs : List Char} (hc : c.isLower = true) (hs : ∀ d ∈ cs, isSmall d = true)
      (free : String.ofList (c :: cs) ∉ reservedWords) : Settled (c :: cs)
  | number {c : Char} {cs : List Char} (hc : c.isDigit = true) (hs : ∀ d ∈ cs, isSmall d = true) :
      Settled ('_' :: c :: cs)
  | reserved {cs : List Char} (hr : String.ofList cs ∈ reservedWords) (hu : cs ≠ ['_']) : Settled ('_' :: cs)

theorem toLower_of_isSmall {c : Char} (h : isSmall c = true) : c.toLower = c := by
  refine Char.toLower_eq_of_not_isUpper fun hu => ?_
  rcases Bool.or_eq_true_iff.1 h with hl | hd
  · exact Char.not_isUpper_of_isLower hl hu
  · have ha := isAlpha_of_isDigit hd
    simp [Char.isAlpha, hu] at ha

theorem map_toLower_of_isSmall {cs : List Char} (h : ∀ c ∈ cs, isSmall c = true) : cs.map Char.toLower = cs :=
  (List.map_congr_left fun c hc => toLower_of_isSmall (h c hc)).trans (List.map_id _)

theorem isAlphanum_of_isSmall {c : Char} (h : isSmall c = true) : c.isAlphanum = true := by
  rcases Bool.or_eq_true_iff.1 h with hl | hd
  · simp [Char.isAlphanum, Char.isAlpha, hl]
  · exact isAlphanum_of_isDigit hd

theorem isSmall_toLower {c : Char} (h : c.isAlphanum = true) : isSmall c.toLower = true := by
  rcases Bool.or_eq_true_iff.1 h with ha | hd
  · simp [isSmall, ha]
  · have small : isSmall c = true := by simp [isSmall, hd]
    rwa [toLower_of_isSmall small]

theorem isSmall_map_toLower {cs : List Char} (h : ∀ c ∈ cs, c.isAlphanum = true) :
    ∀ d ∈ cs.map Char.toLower, isSmall d = true :=
  List.forall_mem_map.2 fun c hc => isSmall_toLower (h c hc)

theorem settled_packageSegment (name : String) : Settled (sanitizer.packageSegment name).toList := by
  rw [Sanitizer.packageSegment, String.toList_ofList]
  rcases sanitizer.identifierChars_alphanum name.toList with h | ⟨c, ds, hc, hds, h⟩
  · have field : sanitizer.escape (nameless.map Char.toLower) = "field".toList := by decide
    rw [h, field]
    exact .word rfl (List.all_eq_true.1 rfl) (by decide)
  rw [h]
  cases hd : c.isDigit with
  | true =>
    have hs : shielded (c :: ds) = '_' :: c :: ds := by simp [shielded, hd]
    have same : c.toLower = c := toLower_of_isSmall (by simp [isSmall, hd])
    rw [hs, escape_underscore (by simp)]
    show Settled (sanitizer.escape ('_' :: c.toLower :: ds.map Char.toLower))
    rw [escape_underscore (by simp), same]
    exact .number hd (isSmall_map_toLower hds)
  | false =>
    have ha : c.isAlpha = true := by simpa [Char.isAlphanum, hd] using hc
    have hs : shielded (c :: ds) = c :: ds := by simp [shielded, hd]
    rw [hs, escape_lower_escape, List.map_cons]
    by_cases hl : String.ofList (c.toLower :: ds.map Char.toLower) ∈ reservedWords
    · rw [escape_of_mem hl]
      refine .reserved hl fun he => ?_
      have letter : c.toLower.isAlpha = true := by simpa using ha
      rw [(List.cons.inj he).1] at letter
      cases letter
    · rw [escape_of_not_mem hl]
      exact .word (by simpa using ha) (isSmall_map_toLower hds) hl

theorem packageSegment_of_settled {name : String} (h : Settled name.toList) :
    sanitizer.packageSegment name = name := by
  generalize hn : name.toList = cs at h
  cases h with
  | @word c cs hc hs free =>
    have small : ∀ d ∈ c :: cs, isSmall d = true :=
      List.forall_mem_cons.2 ⟨by simp [isSmall, hc], hs⟩
    rw [Sanitizer.packageSegment, hn,
      identifierChars_letter (by simp [Char.isAlpha, hc]) fun d hd => isAlphanum_of_isSmall (hs d hd),
      escape_lower_escape, map_toLower_of_isSmall small, escape_of_not_mem free, ← hn, String.ofList_toList]
  | @number c cs hc hs =>
    have small : ∀ d ∈ c :: cs, isSmall d = true :=
      List.forall_mem_cons.2 ⟨by simp [isSmall, hc], hs⟩
    rw [packageSegment_number hn hc fun d hd => isAlphanum_of_isSmall (hs d hd), hn, List.map_cons,
      map_toLower_of_isSmall small, ← String.toList_inj, String.toList_ofList, hn]
    rfl
  | @reserved cs hr hu =>
    have low : ∀ c ∈ cs, c.isLower = true := by
      simpa using isLower_of_reserved hr fun h => hu (String.ofList_inj.1 h)
    cases cs with
    | nil => exact absurd hr (by decide)
    | cons c cs =>
      obtain ⟨hc, hs⟩ := List.forall_mem_cons.1 low
      rw [Sanitizer.packageSegment, hn, identifierChars_underscore,
        identifierChars_letter (by simp [Char.isAlpha, hc]) fun d hd => by
          simp [Char.isAlphanum, Char.isAlpha, hs d hd],
        escape_lower_escape, map_toLower_of_reserved hr, escape_of_mem hr, ← hn, String.ofList_toList]

/-- The settled segments are those that give themselves. -/
theorem packageSegment_eq_self_iff {name : String} :
    sanitizer.packageSegment name = name ↔ Settled name.toList :=
  ⟨fun h => h ▸ settled_packageSegment name, packageSegment_of_settled⟩

/-- A configured package is kept, in front of the packages of all artifacts of all versions, exactly when every
segment of it is one that stays as it is. -/
theorem override_kept_iff (config : Config) (document : Value) (package : String) (cs : List Compilation)
    (ho : config.Overrides document package)
    (h : (generator config).resolver.compileDefinition document = .ok cs) :
    ∀ c ∈ cs, ∀ a ∈ c.artifacts, Text.segments '.' package <+: a.package ↔
      ∀ s ∈ Text.segments '.' package, Settled s.toList := by
  intro c hc a ha
  have placed : (Text.segments '.' package).map sanitizer.packageSegment <+: a.package :=
    Resolver.compileDefinition_package ho h c hc a ha
  generalize Text.segments '.' package = segments at placed ⊢
  have same : segments <+: a.package ↔ segments.map sanitizer.packageSegment = segments := by
    constructor
    · intro kept
      exact (List.prefix_of_prefix_length_le placed kept (by simp)).eq_of_length (by simp)
    · intro he
      rwa [he] at placed
  have settled : segments.map sanitizer.packageSegment = segments.map id ↔ ∀ s ∈ segments, Settled s.toList := by
    simp only [List.map_inj_left, id, packageSegment_eq_self_iff]
  rw [same, ← settled, List.map_id]

/-- A package with a segment that is a number and one that is a reserved word. -/
def acmeConfig : Config where
  packageOverrides := [(.str "test.io", "org._2acme._int")]

theorem override_kept_iff_acme : ∃ c,
    (generator acmeConfig).resolver.compileDefinition Resolver.diskDefinition = .ok [c] ∧
      c.artifacts.map (·.name) = ["org._2acme._int.v1.Disk"] ∧
      ∀ a ∈ c.artifacts, ["org", "_2acme", "_int"] <+: a.package := by
  obtain ⟨c, hc, names⟩ : ∃ c,
      (generator acmeConfig).resolver.compileDefinition Resolver.diskDefinition = .ok [c] ∧
        c.artifacts.map (·.name) = ["org._2acme._int.v1.Disk"] := ⟨_, rfl, by decide +kernel⟩
  have segments : Text.segments '.' "org._2acme._int" = ["org", "_2acme", "_int"] := by decide
  have settled : ∀ s ∈ ["org", "_2acme", "_int"], Settled s.toList := by
    simp only [List.forall_mem_cons, List.not_mem_nil, false_imp_iff, implies_true, and_true]
    exact ⟨.word rfl (List.all_eq_true.1 rfl) (by decide), .number rfl (List.all_eq_true.1 rfl),
      .reserved (by decide) (by decide)⟩
  refine ⟨c, hc, names, fun a ha => ?_⟩
  have kept := override_kept_iff acmeConfig Resolver.diskDefinition "org._2acme._int" [c]
    ⟨_, _, _, rfl, rfl, rfl, rfl⟩ hc c (List.mem_singleton_self c) a ha
  rw [segments] at kept
  exact kept.2 settled

/-- A package of identifiers that comes out in lower case and without its underscore. -/
theorem override_lost : ∃ config c a,
    Config.ofOptions [(.str "package_overrides", .map [(.str "test.io", .str "com.Acme_Corp")])] = .ok config ∧
      config.Overrides Resolver.diskDefinition "com.Acme_Corp" ∧
      (∀ s ∈ Text.segments '.' "com.Acme_Corp", isIdentifier s = true) ∧
      (generator config).resolver.compileDefinition Resolver.diskDefinition = .ok [c] ∧ a ∈ c.artifacts ∧
      a.package = ["com", "acmecorp", "v1"] ∧ ¬ Text.segments '.' "com.Acme_Corp" <+: a.package :=
  ⟨_, _, _, rfl, ⟨_, _, _, rfl, rfl, rfl, rfl⟩, by decide, rfl, .head _, by decide +kernel, by decide +kernel⟩

end Java

end ResourceCompiler
