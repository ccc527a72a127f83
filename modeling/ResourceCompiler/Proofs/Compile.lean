import ResourceCompiler.Compile
import ResourceCompiler.Proofs.Resolver.Steps
import ResourceCompiler.Proofs.Schema.Reader

/-!
# From schemas and definitions to compilations

What each step gave to the next one when a schema or a definition was compiled. A definition read from
a document in which no mapping repeats a key has trees in which no object repeats a property: the
document's entries, the shared schema and every version are parts of it.
-/

namespace ResourceCompiler

namespace Resolver

variable {r : Resolver} {name : String} {package : List String} {path : String} {res : Resolution}
  {c : Compilation} {d : Definition} {version : Value}

theorem resolveSchema_ok {schema package : Value} (h : r.resolveSchema schema name package = .ok res) :
    ∃ root segments, Node.ofValue schema (.str name) r.config.maxDepth = .ok root ∧
      Registry.packageOf package = .ok segments ∧
        r.resolveObject root (r.names.typeName name) segments "" 0 = .ok res := by
  unfold resolveSchema at h
  simp only [bind_eq_ok, liftM_eq_ok] at h
  obtain ⟨root, hroot, segments, hs, h⟩ := h
  exact ⟨root, segments, hroot, hs, h⟩

theorem compileSchema_ok {schema package : Value} (h : r.compileSchema schema name package = .ok c) :
    ∃ res, r.resolveSchema schema name package = .ok res ∧ Compilation.ofResolution res = .ok c := by
  unfold compileSchema at h
  exact bind_eq_ok.1 h

/-- A schema is compiled by the resolution of its tree as a class. -/
theorem compileSchema_eq_ok {schema package : Value} :
    r.compileSchema schema name package = .ok c ↔
      ∃ root segments res, Node.ofValue schema (.str name) r.config.maxDepth = .ok root ∧
        Registry.packageOf package = .ok segments ∧
          r.resolveObject root (r.names.typeName name) segments "" 0 = .ok res ∧
            Compilation.ofResolution res = .ok c := by
  unfold compileSchema resolveSchema
  simp only [bind_eq_ok, liftM_eq_ok]
  constructor
  · rintro ⟨res, ⟨root, hroot, segments, hs, hres⟩, hc⟩
    exact ⟨root, segments, res, hroot, hs, hres, hc⟩
  · rintro ⟨root, segments, res, hroot, hs, hres, hc⟩
    exact ⟨res, ⟨root, hroot, segments, hs, hres⟩, hc⟩

/-- The artifacts of a spec or a status: those of its class, none when there is none. -/
def PartArtifacts (r : Resolver) (node? : Option Node) (name : String) (package : List String)
    (path : String) (artifacts : List Descriptor) : Prop :=
  match node? with
  | none => artifacts = []
  | some node => ∃ part, r.resolveObject node name package path 1 = .ok part ∧ part.artifacts = artifacts

theorem PartArtifacts.elim {P : List Descriptor → Prop} {node? : Option Node} {artifacts : List Descriptor}
    (h : r.PartArtifacts node? name package path artifacts) (nil : P [])
    (object : ∀ node part, node? = some node → r.resolveObject node name package path 1 = .ok part →
      P part.artifacts) : P artifacts := by
  cases node? with
  | none =>
    rw [show artifacts = [] from h]
    exact nil
  | some node =>
    obtain ⟨part, hres, rfl⟩ := h
    exact object node part rfl hres

theorem resolvePart_ok {node? : Option Node} {simpleName resourceName suffix part type : String}
    {artifacts : List Descriptor}
    (h : r.resolvePart node? simpleName resourceName package suffix part = .ok (type, artifacts)) :
    r.PartArtifacts node? (simpleName ++ suffix) package (resourceName ++ "." ++ part) artifacts := by
  unfold resolvePart at h
  split at h
  · cases h
    rfl
  · obtain ⟨resolved, hr, h⟩ := bind_eq_ok.1 h
    cases h
    exact ⟨resolved, hr, rfl⟩

/-- A resource comes after the artifacts of its spec and then those of its status, and holds both. -/
theorem assemble_ok {kind : String} {info : ResourceInfo} {spec status : Option Node}
    (h : r.assemble kind package info spec status = .ok res) :
    ∃ specs statuses t, res = ⟨.resource t, specs ++ statuses ++ [.resource t]⟩ ∧
      t.simpleName = r.names.typeName kind ∧
      t.name = Naming.qualified package (r.names.typeName kind) ∧ t.package = package ∧
      t.nested = specs ++ statuses ∧
      r.PartArtifacts spec (r.names.typeName kind ++ "Spec") package (t.name ++ "." ++ "spec") specs ∧
      r.PartArtifacts status (r.names.typeName kind ++ "Status") package (t.name ++ "." ++ "status")
        statuses := by
  unfold assemble at h
  simp only [bind_eq_ok] at h
  obtain ⟨⟨specType, specs⟩, hs, ⟨statusType, statuses⟩, ht, h⟩ := h
  cases h
  exact ⟨specs, statuses, _, rfl, rfl, rfl, rfl, rfl, resolvePart_ok hs, resolvePart_ok ht⟩

theorem resolveVersion_ok (h : r.resolveVersion d version = .ok res) :
    ∃ entries label root info, versionEntries version = .ok (entries, label) ∧
      r.versionRoot d entries = .ok root ∧
        r.assemble d.kind.text (r.versionPackage d label) info (root.property? "spec")
          (root.property? "status") = .ok res := by
  unfold resolveVersion at h
  simp only [bind_eq_ok, liftM_eq_ok] at h
  obtain ⟨⟨entries, label⟩, he, root, hroot, h⟩ := h
  exact ⟨entries, label, root, _, he, hroot, h⟩

theorem compileVersion_ok (h : r.compileVersion d version = .ok c) :
    ∃ res, r.resolveVersion d version = .ok res ∧ Compilation.ofResolution res = .ok c := by
  unfold compileVersion at h
  exact bind_eq_ok.1 h

theorem compileDefinition_ok {document : Value} {cs : List Compilation}
    (h : r.compileDefinition document = .ok cs) :
    ∃ entries spec d versions, document.entries = .ok entries ∧
      r.definitionOf entries = .ok (spec, d) ∧ versionsOf spec = .ok versions ∧
        List.Forall₂ (fun version c => r.compileVersion d version = .ok c) versions cs := by
  unfold compileDefinition at h
  simp only [bind_eq_ok, liftM_eq_ok] at h
  obtain ⟨entries, he, ⟨spec, d⟩, hd, versions, hv, h⟩ := h
  exact ⟨entries, spec, d, versions, he, hd, hv, mapM_eq_ok h⟩

/-- What a definition gave for a version: the resource, assembled in the package of the version. -/
theorem assemble_of_mem {document : Value} {cs : List Compilation} (h : r.compileDefinition document = .ok cs)
    (hc : c ∈ cs) : ∃ entries spec d label info specNode statusNode res, document.entries = .ok entries ∧
      r.definitionOf entries = .ok (spec, d) ∧
      r.assemble d.kind.text (r.versionPackage d label) info specNode statusNode = .ok res ∧
        Compilation.ofResolution res = .ok c := by
  obtain ⟨entries, spec, d, versions, he, hd, -, h⟩ := compileDefinition_ok h
  obtain ⟨version, -, h⟩ := exists_of_mem_right h hc
  obtain ⟨res, hres, hc⟩ := compileVersion_ok h
  obtain ⟨_, label, root, info, -, -, h⟩ := resolveVersion_ok hres
  exact ⟨entries, spec, d, label, info, _, _, res, he, hd, h, hc⟩

/-- A compilation of a schema or of a version of a definition. -/
inductive Compiles (r : Resolver) : Compilation → Prop
  | schema {schema package : Value} {name : String} {c : Compilation}
      (h : r.compileSchema schema name package = .ok c) : r.Compiles c
  | version {document : Value} {cs : List Compilation} {c : Compilation}
      (h : r.compileDefinition document = .ok cs) (hc : c ∈ cs) : r.Compiles c

/-- A compilation is made of the class of a schema or of the resource of a version. -/
theorem Compiles.resolution (h : r.Compiles c) : ∃ res, Compilation.ofResolution res = .ok c ∧
    ((∃ root name package path depth,
        r.resolveObject root (r.names.typeName name) package path depth = .ok res) ∨
      ∃ kind package info spec status, r.assemble kind package info spec status = .ok res) := by
  cases h with
  | schema h =>
    obtain ⟨root, segments, res, -, -, hres, hc⟩ := compileSchema_eq_ok.1 h
    exact ⟨res, hc, .inl ⟨root, _, segments, "", 0, hres⟩⟩
  | version h hc =>
    obtain ⟨_, _, d, label, info, _, _, res, -, -, h, hc⟩ := assemble_of_mem h hc
    exact ⟨res, hc, .inr ⟨_, _, info, _, _, h⟩⟩

theorem definitionOf_distinct {document spec : Entries} (hk : document.Distinct)
    (h : r.definitionOf document = .ok (spec, d)) : spec.Distinct ∧ d.sharedSchema.keysDistinct := by
  unfold definitionOf at h
  simp only [bind_eq_ok, liftM_eq_ok] at h
  obtain ⟨spec', hs, names, -, h⟩ := h
  have hspec : spec'.Distinct := Value.entriesOrNone_distinct (hk.get "spec") hs
  split at h
  · simp only [bind_eq_ok] at h
    obtain ⟨_, -, h⟩ := h
    cases h
  · simp only [bind_eq_ok, liftM_eq_ok] at h
    obtain ⟨_, -, validation, hv, h⟩ := h
    cases h
    exact ⟨hspec, (Value.entriesOrNone_distinct (hspec.get "validation") hv).get "openAPIV3Schema"⟩

theorem versionsOf_distinct {spec : Entries} {versions : List Value} (hk : spec.Distinct)
    (h : versionsOf spec = .ok versions) : ∀ v ∈ versions, v.keysDistinct := by
  unfold versionsOf at h
  simp only [] at h
  split at h
  · rw [liftM_eq_ok] at h
    exact Value.keysDistinct_of_mem_elements (hk.get "versions") h
  · split at h
    · cases h
      intro v hv
      rw [List.mem_singleton.1 hv, Value.keysDistinct_map]
      refine ⟨by simp [Scalar.same], ?_⟩
      simpa [Value.keysDistinct] using hk.get "version"
    · cases h

theorem versionEntries_distinct {entries : Entries} {label : Value} (hv : version.keysDistinct)
    (h : versionEntries version = .ok (entries, label)) : entries.Distinct := by
  unfold versionEntries at h
  split at h
  · split at h
    · cases h
      exact (Value.keysDistinct_map.1 hv).2
    · cases h
  · cases h

theorem versionRoot_distinct {entries : Entries} {root : Node} (hd : d.sharedSchema.keysDistinct)
    (he : entries.Distinct) (h : r.versionRoot d entries = .ok root) : root.KeysDistinct := by
  unfold versionRoot at h
  simp only [bind_eq_ok, liftM_eq_ok] at h
  obtain ⟨schema, hs, h⟩ := h
  have own := (Value.entriesOrNone_distinct (he.get "schema") hs).get "openAPIV3Schema"
  exact Node.ofValue_keysDistinct (Value.keysDistinct_or own hd) h

theorem additionalOf_keysDistinct {node : Node} (hk : node.KeysDistinct) :
    ∀ s, additionalOf node = .typed s → s.KeysDistinct := by
  intro s hs
  cases hk with
  | object _ _ schema => exact schema s hs
  | map h =>
    cases hs
    exact h
  | _ => cases hs

end Resolver

end ResourceCompiler
