import ResourceCompiler.Proofs.Generation
import ResourceCompiler.Proofs.Java.Identifiers
import ResourceCompiler.Proofs.Path
import ResourceCompiler.Proofs.Resolver.Invariant

/-!
# Names in generated code

Whatever a definition is called and contains, everything that is generated for it has identifiers as
names: its packages, classes and enums, their fields and constants. So the path of a unit has nothing
but identifiers between its slashes, and lies below any directory it is written to
(`compileDefinition_identifiers`).
-/

namespace ResourceCompiler

/-- The constants of an enum. -/
def Descriptor.constants : Descriptor → List EnumEntry
  | .enum t => t.entries
  | _ => []

/-- Every file that was generated lies at the path of a unit. -/
theorem Generator.mem_paths_of_generate {g : Generator} {cs : List Compilation} {files : Files}
    {warnings : List String} {metadata : Metadata}
    (h : g.generate cs = .ok (.generated files warnings metadata))
    {path : String} (hp : path ∈ files.map (·.1)) : path ∈ cs.flatMap g.paths := by
  obtain ⟨wss, hw, ha⟩ := filesOf_ok .nil (filesOf_of_generate h)
  rw [List.nil_append] at ha
  rw [← paths_flatten hw]
  exact (ha.mem_iff path).1 hp

namespace Java

open Naming (Plain)

/-- All names of an artifact are identifiers. -/
structure WellNamed (a : Descriptor) : Prop where
  package : ∀ s ∈ a.package, isIdentifier s = true
  simple : isIdentifier a.simpleName = true
  fields : ∀ f ∈ a.fields, isIdentifier f.identifier = true
  constants : ∀ e ∈ a.constants, isIdentifier e.identifier = true

variable {config : Config} {name : String} {package : List String} {owner? : Option String} {path : String}
  {depth : Int} {res : Resolution}

theorem isIdentifier_enumIdentifier (token : Value) (value : Scalar) (primitive : Primitive) :
    isIdentifier ((generator config).resolver.enumIdentifier token value primitive) = true := by
  unfold Resolver.enumIdentifier
  split
  · split <;> decide
  · exact isIdentifier_constant _ _
  · exact isIdentifier_constant _ _

theorem resolveEnum_wellNamed {node : Node}
    (h : (generator config).resolver.resolveEnum node name package owner? path = .ok res)
    (hn : isIdentifier name = true) (hp : ∀ s ∈ package, isIdentifier s = true) :
    ∀ a ∈ res.artifacts, WellNamed a := by
  obtain ⟨type, rfl, rfl, -, -, rfl, tokens, -, entries⟩ := Resolver.resolveEnum_ok h
  intro a ha
  rw [List.mem_singleton.1 ha]
  refine ⟨hp, hn, by simp [Descriptor.fields], fun e hm => ?_⟩
  obtain ⟨token, -, he⟩ := exists_of_mem_right entries hm
  rw [he.identifier]
  exact isIdentifier_enumIdentifier token e.value _

theorem builds_wellNamed {traits : Traits} {properties : List (Scalar × Node)} {required : List Scalar}
    {additional : Additional Node} {parts : List ResolvedMember} {typed? : Option Resolution}
    {t : ObjectType Descriptor}
    (h : Resolver.Builds (generator config).resolver traits properties required additional name package path
      depth parts typed? t) (hn : isIdentifier name = true) (hp : ∀ s ∈ package, isIdentifier s = true) :
    WellNamed (.object t) := by
  refine ⟨fun s hs => hp s (h.placed ▸ hs), ?_, fun f hf => ?_, by simp [Descriptor.constants]⟩
  · rw [Descriptor.simpleName, h.simple]
    exact hn
  rw [Descriptor.fields, h.fields] at hf
  rcases List.mem_append.1 hf with hf | hf
  · obtain ⟨p, hpp, rfl⟩ := List.mem_map.1 hf
    rw [(Resolver.memberField_ok (h.resolved p hpp).field).1]
    exact isIdentifier_identifier _
  · obtain ⟨value, -, rfl⟩ := List.mem_map.1 hf
    show isIdentifier additionalProperties = true
    decide

theorem wellNamed (config : Config) : (generator config).resolver.Invariant fun name package _ res =>
    isIdentifier name = true → (∀ s ∈ package, isIdentifier s = true) → ∀ a ∈ res.artifacts, WellNamed a where
  existing _ _ _ := by simp [Resolver.existing]
  primitive _ _ _ := by simp
  enum h hn hp := resolveEnum_wellNamed h hn hp
  array h := h
  map h := h
  built {_ _ _ _ name package _ _ _ parts typed? t} h member value hn hp := by
    have inside : ∀ s ∈ package ++ [sanitizer.packageSegment name], isIdentifier s = true :=
      List.forall_mem_append.2 ⟨hp, by simpa using isIdentifier_packageSegment name⟩
    rw [h.nested]
    refine List.forall_mem_append.2 ⟨List.forall_mem_append.2 ⟨fun a ha => ?_, fun a ha => ?_⟩, ?_⟩
    · obtain ⟨p, hpp, ha⟩ := List.mem_flatMap.1 ha
      exact member p hpp (isIdentifier_typeName _) inside a ha
    · obtain ⟨v, hv, ha⟩ := List.mem_flatMap.1 ha
      exact value v hv (isIdentifier_typeName _) inside a ha
    · intro a ha
      rw [List.mem_singleton.1 ha]
      exact builds_wellNamed h hn hp

theorem partArtifacts_wellNamed {node? : Option Node} {artifacts : List Descriptor}
    (hn : isIdentifier name = true) (hp : ∀ s ∈ package, isIdentifier s = true)
    (h : (generator config).resolver.PartArtifacts node? name package path artifacts) :
    ∀ a ∈ artifacts, WellNamed a :=
  h.elim (P := fun artifacts => ∀ a ∈ artifacts, WellNamed a) (by simp) fun _ _ _ hres =>
    (wellNamed config).resolveObject none hres hn hp

theorem assemble_wellNamed {kind : String} {info : ResourceInfo} {spec status : Option Node}
    (hp : ∀ s ∈ package, isIdentifier s = true)
    (h : (generator config).resolver.assemble kind package info spec status = .ok res) :
    ∀ a ∈ res.artifacts, WellNamed a := by
  obtain ⟨specs, statuses, t, rfl, simple, -, placed, -, hs, ht⟩ := Resolver.assemble_ok h
  have named : isIdentifier (sanitizer.typeName kind) = true := isIdentifier_typeName kind
  have specs_named := partArtifacts_wellNamed (isIdentifier_append named (.of_all rfl) rfl) hp hs
  have statuses_named := partArtifacts_wellNamed (isIdentifier_append named (.of_all rfl) rfl) hp ht
  refine List.forall_mem_append.2 ⟨List.forall_mem_append.2 ⟨specs_named, statuses_named⟩, fun a ha => ?_⟩
  rw [List.mem_singleton.1 ha]
  refine ⟨fun s hs => hp s (placed ▸ hs), ?_, ?_, ?_⟩
  · rw [Descriptor.simpleName, simple]
    exact named
  · simp [Descriptor.fields]
  · simp [Descriptor.constants]

theorem compileDefinition_wellNamed {document : Value} {cs : List Compilation}
    (h : (generator config).resolver.compileDefinition document = .ok cs) :
    ∀ c ∈ cs, ∀ a ∈ c.artifacts, WellNamed a := by
  intro c hc a ha
  obtain ⟨_, _, d, label, info, _, _, res, -, -, h, hc⟩ := Resolver.assemble_of_mem h hc
  refine assemble_wellNamed (fun s hs => ?_) h a (Compilation.mem_of_mem_artifacts hc a ha)
  obtain ⟨piece, -, rfl⟩ := List.mem_map.1 hs
  exact isIdentifier_packageSegment piece

/-- A path of identifiers, the last one with the extension, that leads below any target. -/
structure Contained (path : String) : Prop where
  parts : ∃ package name, (∀ s ∈ package, isIdentifier s = true) ∧ isIdentifier name = true ∧
    path = Text.join "/" (package ++ [name ++ ".java"]) ∧
      Path.ofString path = ⟨.here, package ++ [name ++ ".java"]⟩
  below : ∀ target : Path,
    (target.append (.ofString path)).resolved = target.resolved ++ (Path.ofString path).parts

/-- What a part of a path must not be. -/
structure IsPart (s : String) : Prop where
  ne_empty : s ≠ ""
  no_slash : '/' ∉ s.toList
  ne_here : s ≠ "."
  ne_up : s ≠ ".."

theorem isPart_of_isIdentifier {s : String} (h : isIdentifier s = true) : IsPart s := by
  obtain ⟨shaped, -⟩ := isIdentifier_iff.1 h
  have no_point : '.' ∉ s.toList := shaped.plain.not_mem rfl (by decide)
  refine ⟨?_, shaped.plain.not_mem rfl (by decide), ?_, ?_⟩
  · rintro rfl
    exact shaped.ne_nil rfl
  · rintro rfl
    exact no_point (by decide)
  · rintro rfl
    exact no_point (by decide)

theorem isPart_file {s : String} (h : isIdentifier s = true) : IsPart (s ++ ".java") := by
  have long : ∀ t : String, t.length < 5 → s ++ ".java" ≠ t := by
    rintro t ht rfl
    have extension : ".java".length = 5 := rfl
    rw [String.length_append] at ht
    omega
  refine ⟨long "" (by decide), ?_, long "." (by decide), long ".." (by decide)⟩
  rw [String.toList_append, List.mem_append, not_or]
  exact ⟨(isPart_of_isIdentifier h).no_slash, by decide⟩

theorem contained_pathOf {t : Descriptor} (h : WellNamed t) : Contained ((generator config).pathOf t) := by
  have parts : ∀ s ∈ t.package ++ [t.simpleName ++ ".java"], IsPart s := by
    refine List.forall_mem_append.2 ⟨fun s hs => isPart_of_isIdentifier (h.package s hs), fun s hs => ?_⟩
    rw [List.mem_singleton.1 hs]
    exact isPart_file h.simple
  have read : Path.ofString ((generator config).pathOf t) = ⟨.here, t.package ++ [t.simpleName ++ ".java"]⟩ :=
    Path.ofString_join (fun s hs => ⟨(parts s hs).ne_empty, (parts s hs).no_slash⟩)
      fun hm => (parts _ hm).ne_here rfl
  refine ⟨⟨t.package, t.simpleName, h.package, h.simple, rfl, read⟩, fun target => ?_⟩
  rw [read]
  exact Path.resolved_append fun hm => (parts _ hm).ne_up rfl

/-- Whatever a definition reads, all names of its compilations are identifiers, and the files generated for
them lie below the target under such names. -/
theorem compileDefinition_identifiers (config : Config) (document : Value) (cs : List Compilation)
    (h : (generator config).resolver.compileDefinition document = .ok cs) :
    (∀ c ∈ cs, ∀ a ∈ c.artifacts, WellNamed a) ∧
      (∀ c ∈ cs, ∀ t ∈ c.topLevel, Contained ((generator config).pathOf t)) ∧
      ∀ files warnings metadata, (generator config).generate cs = .ok (.generated files warnings metadata) →
        ∀ f ∈ files, Contained f.1 := by
  have named := compileDefinition_wellNamed h
  have contained : ∀ c ∈ cs, ∀ t ∈ c.topLevel, Contained ((generator config).pathOf t) := fun c hc t ht =>
    contained_pathOf (named c hc t (List.mem_append_left _ ht))
  refine ⟨named, contained, fun files warnings metadata hg f hf => ?_⟩
  have path : f.1 ∈ cs.flatMap (generator config).paths :=
    Generator.mem_paths_of_generate hg (List.mem_map_of_mem hf)
  obtain ⟨c, hc, hm⟩ := List.mem_flatMap.1 path
  obtain ⟨t, ht, he⟩ := List.mem_map.1 hm
  exact he ▸ contained c hc t ht

/-- A definition whose names are reserved words, numbers and letters beyond ASCII. -/
def oddDefinition : Value :=
  .map [(.str "spec", .map [(.str "group", .str "new.größe.io"),
    (.str "names", .map [(.str "kind", .str "class")]),
    (.str "versions", .list [.map [(.str "name", .str "1-beta"),
      (.str "schema", .map [(.str "openAPIV3Schema", .map [
        (.str "properties", .map [(.str "spec", .map [
          (.str "properties", .map [
            (.str "日本", .map [(.str "type", .str "string")]),
            (.str "int", .map [(.str "properties", .map [(.str "2nd", .map [(.str "type", .str "string")])])]),
            (.str "static void", .map [(.str "enum", .list [.str "", .str "-1", .str "../x"])])])])])])])]])])]

theorem compileDefinition_identifiers_odd : ∃ cs files warnings metadata,
    (generator {}).resolver.compileDefinition oddDefinition = .ok cs ∧
      (generator {}).generate cs = .ok (.generated files warnings metadata) ∧
        (∀ c ∈ cs, ∀ a ∈ c.artifacts, WellNamed a) ∧ (∀ f ∈ files, Contained f.1) ∧
          files.map (·.1) = ["io/gre/_new/_1beta/classspec/Int.java", "io/gre/_new/_1beta/ClassSpec.java",
            "io/gre/_new/_1beta/Class.java"] := by
  have run : ((generator {}).resolver.compileDefinition oddDefinition >>= fun cs =>
      (generator {}).generate cs).toOption.map (fun g => (g.succeeded, g.files.map (·.1))) =
        some (true, ["io/gre/_new/_1beta/classspec/Int.java", "io/gre/_new/_1beta/ClassSpec.java",
          "io/gre/_new/_1beta/Class.java"]) := by
    decide +kernel
  obtain ⟨generation, h, he⟩ := Option.map_eq_some_iff.1 run
  obtain ⟨cs, hc, hg⟩ := bind_eq_ok.1 (toOption_eq_some.1 h)
  obtain ⟨hs, paths⟩ := Prod.mk.inj he
  cases generation with
  | generated files warnings metadata =>
    obtain ⟨named, -, contained⟩ := compileDefinition_identifiers {} oddDefinition cs hc
    exact ⟨cs, files, warnings, metadata, hc, hg, named, contained files warnings metadata hg, paths⟩
  | failed => cases hs

end Java

end ResourceCompiler
