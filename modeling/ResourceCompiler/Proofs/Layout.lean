import ResourceCompiler.CustomResource
import ResourceCompiler.Java.Generator
import ResourceCompiler.Proofs.Entries

/-!
# Layouts of definitions

A definition may name a single version instead of listing versions, and may share one schema among them.
`Layout.modern` says the same with versions in the list and schemas in the versions only, and compiles to
the same (`compileDefinition_layout`). Versions are compiled one by one: what a definition has beside its
versions is the same for all lists of them (`definitionOf_congr`).
-/

namespace ResourceCompiler

namespace Value

/-- A mapping, or no value at all. -/
def isMapOrNull : Value → Bool
  | .map _ | .null => true
  | _ => false

/-- A list, or no value at all. -/
def isListOrNull : Value → Bool
  | .list _ | .null => true
  | _ => false

/-- The entries of a mapping; other values have none. -/
def members : Value → Entries
  | .map es => es
  | _ => []

/-- The elements of a list; other values have none. -/
def listed : Value → List Value
  | .list xs => xs
  | _ => []

/-- The value, or an empty mapping where it counts as false. -/
def orEmpty (v : Value) : Value := if v.truthy then v else .map []

theorem truthy_null : null.truthy = false := rfl

theorem entriesOrNone_map (es : Entries) : (map es).entriesOrNone = .ok es := by
  cases es <;> rfl

theorem eq_map_of_get_members (v : Value) (name : String) (h : v.members.get name ≠ null) : ∃ es, v = .map es := by
  cases v with
  | map es => exact ⟨es, rfl⟩
  | _ => exact absurd rfl h

theorem entriesOrNone_of_isMapOrNull {v : Value} (h : v.isMapOrNull) : v.entriesOrNone = .ok v.members := by
  unfold isMapOrNull at h
  split at h
  · exact entriesOrNone_map _
  · rfl
  · cases h

end Value

namespace Layout

/-- The entries of a version with the shared schema, unless they have a schema of their own. -/
def addSchema (shared : Value) (version : Entries) : Entries :=
  let schema := (version.get "schema").members
  if shared.truthy && !(schema.get "openAPIV3Schema").truthy then
    version.insert (.str "schema") (.map (schema.insert (.str "openAPIV3Schema") shared))
  else version

def withSchema (shared : Value) : Value → Value
  | .map version => .map (addSchema shared version)
  | v => v

/-- The version of a definition that lists none. -/
def singleVersion (name : Value) : Value :=
  .map [(.str "name", name), (.str "served", .bool true), (.str "storage", .bool true)]

/-- The versions that a spec lists, else the single one that it names. -/
def versions (spec : Entries) : List Value :=
  let listed := (spec.get "versions").listed
  if listed.isEmpty && (spec.get "version").truthy then [singleVersion (spec.get "version")] else listed

/-- The schema of the versions without one. -/
def sharedSchema (spec : Entries) : Value := (spec.get "validation").members.get "openAPIV3Schema"

/-- The spec with all about its versions in the list of versions. -/
def modernSpec (spec : Entries) : Entries :=
  let rest := (spec.erase "validation").erase "version"
  match versions spec with
  | [] => rest
  | vs => rest.insert (.str "versions") (.list (vs.map (withSchema (sharedSchema spec))))

/-- The document in the layout with nothing outside the list of versions. -/
def modern (document : Entries) : Entries :=
  match document.get "spec" with
  | .map spec => document.insert (.str "spec") (.map (modernSpec spec))
  | _ => document

/-- The document with another list of versions. -/
def withVersions (document : Entries) (vs : List Value) : Entries :=
  document.insert (.str "spec") (.map ((document.get "spec").members.insert (.str "versions") (.list vs)))

/-- What a document says about its versions has the shape of mappings and lists, where it says anything. -/
structure Layered (document : Entries) : Prop where
  validation : ((document.get "spec").members.get "validation").isMapOrNull
  versions : ((document.get "spec").members.get "versions").isListOrNull
  schemas : ∀ v ∈ ((document.get "spec").members.get "versions").listed, (v.members.get "schema").isMapOrNull

variable {document document' spec spec' : Entries} {name : String}

theorem find?_addSchema {shared : Value} (h : name ≠ "schema") :
    (addSchema shared spec).find? (.str name) = spec.find? (.str name) := by
  unfold addSchema
  dsimp only
  split
  · exact Entries.find?_insert_ne h _
  · rfl

/-- What stands beside the versions in a spec stays as it is. -/
theorem find?_modernSpec (h : name ∉ ["validation", "version", "versions"]) :
    (modernSpec spec).find? (.str name) = spec.find? (.str name) := by
  simp only [List.mem_cons, List.not_mem_nil, or_false, not_or] at h
  obtain ⟨hv, hs, hl⟩ := h
  unfold modernSpec
  split
  · rw [Entries.find?_erase_ne hs, Entries.find?_erase_ne hv]
  · rw [Entries.find?_insert_ne hl, Entries.find?_erase_ne hs, Entries.find?_erase_ne hv]

theorem get_modernSpec_versions :
    (modernSpec spec).get "versions" =
      match versions spec with
      | [] => spec.get "versions"
      | vs => .list (vs.map (withSchema (sharedSchema spec))) := by
  unfold modernSpec
  split
  · rw [Entries.get_erase_ne (by decide), Entries.get_erase_ne (by decide)]
  · rw [Entries.get_insert_self]

theorem get_modernSpec_version : (modernSpec spec).get "version" = .null := by
  unfold modernSpec
  split
  · exact Entries.get_erase_self
  · rw [Entries.get_insert_ne (by decide)]
    exact Entries.get_erase_self

theorem versions_modernSpec :
    versions (modernSpec spec) = (versions spec).map (withSchema (sharedSchema spec)) := by
  have version : (modernSpec spec).get "version" = .null := get_modernSpec_version
  have unlisted (h : versions spec = []) : (spec.get "versions").listed = [] := by
    unfold versions at h
    dsimp only at h
    split at h
    · cases h
    · exact h
  rw [versions, version, Value.truthy_null, Bool.and_false, if_neg Bool.false_ne_true, get_modernSpec_versions]
  split
  · next h => rw [h, unlisted h, List.map_nil]
  · rfl

theorem get_modernSpec_validation : (modernSpec spec).get "validation" = .null := by
  unfold modernSpec
  split
  · rw [Entries.get_erase_ne (by decide)]
    exact Entries.get_erase_self
  · rw [Entries.get_insert_ne (by decide), Entries.get_erase_ne (by decide)]
    exact Entries.get_erase_self

theorem isListOrNull_modernSpec (h : (spec.get "versions").isListOrNull) :
    ((modernSpec spec).get "versions").isListOrNull := by
  rw [get_modernSpec_versions]
  split
  · exact h
  · rfl

/-- The single version of a definition has no schema. -/
theorem schemas_versions (h : ∀ v ∈ (spec.get "versions").listed, (v.members.get "schema").isMapOrNull) :
    ∀ v ∈ versions spec, (v.members.get "schema").isMapOrNull := by
  unfold versions
  dsimp only
  split
  · intro v hv
    cases List.mem_singleton.1 hv
    rfl
  · exact h

theorem sharedSchema_modernSpec : sharedSchema (modernSpec spec) = .null := by
  rw [sharedSchema, get_modernSpec_validation]
  rfl

end Layout

namespace Resolver

open Layout

variable {r : Resolver} {document document' spec spec' : Entries} {d : Definition}

/-- What a document says beside its versions decides its definition, but for the shared schema. -/
theorem definitionOf_congr (hs : document.get "spec" = .map spec) (hs' : document'.get "spec" = .map spec')
    (metadata : document'.get "metadata" = document.get "metadata")
    (same : ∀ name ∈ ["group", "names", "scope"], spec'.find? (.str name) = spec.find? (.str name))
    (hv : (spec.get "validation").isMapOrNull) (hv' : (spec'.get "validation").isMapOrNull) :
    r.definitionOf document' = (do
      let (_, d) ← r.definitionOf document
      return (spec', { d with sharedSchema := sharedSchema spec' })) := by
  have group : spec'.get "group" = spec.get "group" := by rw [Entries.get, same _ (by decide), Entries.get]
  have names : spec'.get "names" = spec.get "names" := by rw [Entries.get, same _ (by decide), Entries.get]
  have liftOk {α : Type} (a : α) : (liftM (Except.ok a : Except Fault α) : Except Failure α) = .ok a := rfl
  have okBind {α β : Type} (a : α) (f : α → Except Failure β) : (Except.ok a >>= f) = f a := rfl
  unfold definitionOf
  rw [hs, hs', metadata, Value.entriesOrNone_map, Value.entriesOrNone_map]
  simp only [liftOk, okBind]
  rw [group, names, same "scope" (by decide), Value.entriesOrNone_of_isMapOrNull hv,
    Value.entriesOrNone_of_isMapOrNull hv', bind_assoc]
  refine bind_congr fun names => ?_
  split
  · rw [bind_assoc]
    rfl
  · rw [bind_assoc]
    rfl

/-- The schema that a version has after it got the shared one decides as its own and the shared one did. -/
theorem get_addSchema {version : Entries} (shared : Value) (h : (version.get "schema").isMapOrNull) :
    ((addSchema shared version).get "schema").isMapOrNull ∧
      ((((addSchema shared version).get "schema").members.get "openAPIV3Schema").or .null).orEmpty =
        (((version.get "schema").members.get "openAPIV3Schema").or shared).orEmpty := by
  unfold addSchema
  dsimp only
  generalize hs : (version.get "schema").members = schema
  cases own : (schema.get "openAPIV3Schema").truthy <;> cases hshared : shared.truthy
  · simp [h, hs, own, hshared, Value.or, Value.orEmpty, Value.truthy_null]
  · simp [Entries.get_insert_self, Value.isMapOrNull, Value.members, Value.or, own, hshared]
  · simp [h, hs, own, Value.or]
  · simp [h, hs, own, Value.or]

/-- With its own schema or with the one that the definition shares, a version has the same tree. -/
theorem versionRoot_addSchema (r : Resolver) (d : Definition) (version : Entries)
    (h : (version.get "schema").isMapOrNull) :
    r.versionRoot { d with sharedSchema := .null } (addSchema d.sharedSchema version) = r.versionRoot d version := by
  obtain ⟨h', same⟩ := get_addSchema d.sharedSchema h
  unfold versionRoot
  rw [Value.entriesOrNone_of_isMapOrNull h, Value.entriesOrNone_of_isMapOrNull h']
  simp only [Node.ofValue]
  exact congrArg (Node.readFragment r.config.maxDepth d.kind 0) same

theorem compileVersion_withSchema {v : Value} (h : (v.members.get "schema").isMapOrNull) :
    r.compileVersion { d with sharedSchema := .null } (withSchema d.sharedSchema v) = r.compileVersion d v := by
  cases v with
  | map version =>
    have root := versionRoot_addSchema r d version h
    have flag (name : String) (hn : name ≠ "schema") :
        versionFlag (addSchema d.sharedSchema version) name = versionFlag version name := by
      rw [versionFlag, find?_addSchema hn, versionFlag]
    have package (name : Value) : r.versionPackage { d with sharedSchema := .null } name = r.versionPackage d name := rfl
    rw [withSchema, compileVersion, compileVersion, resolveVersion, resolveVersion, versionEntries, versionEntries,
      find?_addSchema (by decide)]
    cases Entries.find? version (.str "name") with
    | none => rfl
    | some name =>
      have okBind {α β : Type} (a : α) (f : α → Except Failure β) : (liftM (Except.ok a : Except Fault α) >>= f) = f a := rfl
      simp only [okBind, root, package, flag "storage" (by decide), flag "served" (by decide)]
  | _ => rfl

/-- One compilation for each version, where there are any. -/
def compileVersions (r : Resolver) (d : Definition) : List Value → Except Failure (List Compilation)
  | [] => failShape .noVersions .null
  | vs => vs.mapM (r.compileVersion d)

theorem compileVersions_of_ne_nil {vs : List Value} (h : vs ≠ []) :
    r.compileVersions d vs = vs.mapM (r.compileVersion d) := by
  cases vs with
  | nil => exact absurd rfl h
  | cons => rfl

theorem compileVersions_withSchema {vs : List Value} (h : ∀ v ∈ vs, (v.members.get "schema").isMapOrNull) :
    r.compileVersions { d with sharedSchema := .null } (vs.map (withSchema d.sharedSchema)) = r.compileVersions d vs := by
  cases vs with
  | nil => rfl
  | cons v vs =>
    rw [compileVersions_of_ne_nil (by simp), compileVersions_of_ne_nil (by simp), List.mapM_map]
    exact mapM_congr fun v hv => compileVersion_withSchema (h v hv)

theorem versionsOf_bind (hl : (spec.get "versions").isListOrNull) :
    (do (← versionsOf spec).mapM (r.compileVersion d)) = r.compileVersions d (versions spec) := by
  unfold versionsOf Layout.versions
  generalize spec.get "versions" = listed at hl ⊢
  generalize spec.get "version" = version
  have single :
      ((if version.truthy then (pure [singleVersion version] : Except Failure (List Value))
        else failShape .noVersions .null) >>= fun vs => vs.mapM (r.compileVersion d)) =
        r.compileVersions d (if version.truthy then [singleVersion version] else []) := by
    split <;> rfl
  unfold Value.isListOrNull at hl
  split at hl
  · next vs =>
    cases vs with
    | nil => exact single
    | cons v vs => rfl
  · exact single
  · cases hl

/-- What a definition is compiled to, by what another one says beside its versions. -/
theorem compileDefinition_congr (hs : document.get "spec" = .map spec) (hs' : document'.get "spec" = .map spec')
    (metadata : document'.get "metadata" = document.get "metadata")
    (same : ∀ name ∈ ["group", "names", "scope"], spec'.find? (.str name) = spec.find? (.str name))
    (hv : (spec.get "validation").isMapOrNull) (hv' : (spec'.get "validation").isMapOrNull)
    (hl : (spec'.get "versions").isListOrNull) :
    r.compileDefinition (.map document') = (do
      let (_, d) ← r.definitionOf document
      r.compileVersions { d with sharedSchema := sharedSchema spec' } (versions spec')) := by
  have entries : (liftM (Value.map document').entries : Except Failure Entries) = .ok document' := rfl
  rw [compileDefinition, entries]
  show (r.definitionOf document' >>= _) = _
  rw [definitionOf_congr hs hs' metadata same hv hv', bind_assoc]
  exact bind_congr fun _ => versionsOf_bind hl

theorem compileDefinition_modern (h : Layered document) :
    r.compileDefinition (.map (modern document)) = r.compileDefinition (.map document) := by
  unfold modern
  split
  · next spec hs =>
    obtain ⟨hv, hl, hw⟩ := h
    rw [hs] at hv hl hw
    have hs' : (document.insert (.str "spec") (.map (modernSpec spec))).get "spec" = .map (modernSpec spec) :=
      Entries.get_insert_self _
    have same (name : String) (hn : name ∈ ["group", "names", "scope"]) :
        (modernSpec spec).find? (.str name) = Entries.find? spec (.str name) := by
      refine find?_modernSpec ?_
      revert name
      decide
    have hv' : ((modernSpec spec).get "validation").isMapOrNull := by
      rw [get_modernSpec_validation]
      rfl
    rw [compileDefinition_congr hs hs' (Entries.get_insert_ne (by decide) _) same hv hv' (isListOrNull_modernSpec hl),
      compileDefinition_congr hs hs rfl (fun _ _ => rfl) hv hv hl, versions_modernSpec, sharedSchema_modernSpec]
    refine bind_congr fun found => ?_
    exact compileVersions_withSchema (d := { found.2 with sharedSchema := sharedSchema spec }) (schemas_versions hw)
  · rfl

/-- With the versions replaced, the rest of a definition counts as before. -/
theorem compileDefinition_withVersions (h : Layered document) (hs : document.get "spec" = .map spec)
    {vs : List Value} (hne : vs ≠ []) :
    r.compileDefinition (.map (withVersions document vs)) = (do
      let (_, d) ← r.definitionOf document
      vs.mapM (r.compileVersion { d with sharedSchema := sharedSchema spec })) := by
  have hv := h.validation
  rw [hs] at hv
  have hs' : (withVersions document vs).get "spec" = .map (spec.insert (.str "versions") (.list vs)) := by
    rw [withVersions, Entries.get_insert_self, hs, Value.members]
  have same (name : String) (hn : name ∈ ["group", "names", "scope"]) :
      (spec.insert (.str "versions") (.list vs)).find? (.str name) = spec.find? (.str name) := by
    refine Entries.find?_insert_ne ?_ _
    revert name
    decide
  have validation : (spec.insert (.str "versions") (.list vs)).get "validation" = spec.get "validation" :=
    Entries.get_insert_ne (by decide) _
  have listed : (spec.insert (.str "versions") (.list vs)).get "versions" = .list vs := Entries.get_insert_self _
  have versions : versions (spec.insert (.str "versions") (.list vs)) = vs := by
    cases vs with
    | nil => exact absurd rfl hne
    | cons => rw [Layout.versions, listed]; rfl
  have shared : sharedSchema (spec.insert (.str "versions") (.list vs)) = sharedSchema spec := by
    rw [sharedSchema, validation, sharedSchema]
  rw [compileDefinition_congr hs hs' (Entries.get_insert_ne (by decide) _) same hv (by rwa [validation])
    (by rw [listed]; rfl), versions, shared]
  exact bind_congr fun _ => compileVersions_of_ne_nil hne

theorem compileDefinition_listed (h : Layered document) (hs : document.get "spec" = .map spec)
    {vs : List Value} (hl : spec.get "versions" = .list vs) (hne : vs ≠ []) :
    r.compileDefinition (.map document) = (do
      let (_, d) ← r.definitionOf document
      vs.mapM (r.compileVersion { d with sharedSchema := sharedSchema spec })) := by
  obtain ⟨hv, hlist, -⟩ := h
  rw [hs] at hv hlist
  have versions : versions spec = vs := by
    cases vs with
    | nil => exact absurd rfl hne
    | cons => rw [Layout.versions, hl]; rfl
  rw [compileDefinition_congr hs hs rfl (fun _ _ => rfl) hv hv hlist, versions]
  exact bind_congr fun _ => compileVersions_of_ne_nil hne

/-- A definition compiles to the same in either layout. Its versions compile one by one, up to the first
that fails. -/
theorem compileDefinition_layout (r : Resolver) (document : Entries) (h : Layered document) :
    r.compileDefinition (.map (modern document)) = r.compileDefinition (.map document) ∧
      ∀ xs ys, (document.get "spec").members.get "versions" = .list (xs ++ ys) → xs ≠ [] → ys ≠ [] →
        r.compileDefinition (.map document) = (do
          let first ← r.compileDefinition (.map (withVersions document xs))
          let second ← r.compileDefinition (.map (withVersions document ys))
          return first ++ second) ∧
        ∀ before v after e, xs ++ ys = before ++ v :: after →
          (∀ w ∈ before, ∃ c, r.compileDefinition (.map (withVersions document [w])) = .ok c) →
            r.compileDefinition (.map (withVersions document [v])) = .error e →
              r.compileDefinition (.map document) = .error e := by
  refine ⟨compileDefinition_modern h, fun xs ys hl hx hy => ?_⟩
  obtain ⟨spec, hs⟩ := Value.eq_map_of_get_members (document.get "spec") "versions" (by simp [hl])
  rw [hs] at hl
  have single (w : Value) := compileDefinition_withVersions (r := r) h hs (List.cons_ne_nil w [])
  rw [compileDefinition_listed h hs hl (by simp [hx]), compileDefinition_withVersions h hs hx,
    compileDefinition_withVersions h hs hy]
  simp only [single]
  cases r.definitionOf document with
  | error e =>
    refine ⟨rfl, fun before v after e' _ _ he => he⟩
  | ok p =>
    refine ⟨List.mapM_append, fun before v after e he hb hv => ?_⟩
    show List.mapM _ _ = _
    rw [he]
    refine mapM_eq_error (fun w hw => ?_) ?_
    · obtain ⟨c, hc⟩ := hb w hw
      obtain ⟨c', hc', -⟩ := bind_eq_ok.1 ((mapM_singleton _ w).symm.trans hc)
      exact ⟨c', hc'⟩
    · exact mapM_singleton_eq_error.1 hv

end Resolver

namespace Java

open Layout

/-- A definition with a single version and a schema, both outside of the list of versions. -/
def legacyDocument : Entries :=
  [(.str "spec", .map [(.str "group", .str "test.io"), (.str "names", .map [(.str "kind", .str "Disk")]),
    (.str "version", .str "v1beta1"),
    (.str "validation", .map [(.str "openAPIV3Schema", .map [
      (.str "properties", .map [(.str "spec", .map [(.str "type", .str "object")])])])])])]

/-- A definition with a schema for all versions, where one has its own and one has a status of its own. -/
def sharedDocument : Entries :=
  [(.str "spec", .map [(.str "group", .str "test.io"), (.str "names", .map [(.str "kind", .str "Disk")]),
    (.str "versions", .list [.map [(.str "name", .str "v1")], .map [(.str "name", .str "v2"),
      (.str "schema", .map [(.str "openAPIV3Schema", .map [
        (.str "properties", .map [(.str "status", .map [(.str "type", .str "object")])])])])]]),
    (.str "validation", .map [(.str "openAPIV3Schema", .map [
      (.str "properties", .map [(.str "spec", .map [(.str "type", .str "object")])])])])])]

theorem compileDefinition_layout_disk :
    Layered legacyDocument ∧ Layered sharedDocument ∧
      (∃ cs, (generator {}).resolver.compileDefinition (.map (modern legacyDocument)) = .ok cs ∧
        (generator {}).resolver.compileDefinition (.map legacyDocument) = .ok cs ∧
          cs.map (fun c => c.topLevel.map (·.name)) = [["io.test.v1beta1.DiskSpec", "io.test.v1beta1.Disk"]]) ∧
      ∃ first second,
        (generator {}).resolver.compileDefinition (.map sharedDocument) = .ok (first ++ second) ∧
          (generator {}).resolver.compileDefinition (.map (modern sharedDocument)) = .ok (first ++ second) ∧
            first.map (fun c => c.topLevel.map (·.name)) = [["io.test.v1.DiskSpec", "io.test.v1.Disk"]] ∧
              second.map (fun c => c.topLevel.map (·.name)) = [["io.test.v2.DiskStatus", "io.test.v2.Disk"]] := by
  have legacy : Layered legacyDocument := ⟨rfl, rfl, by decide⟩
  have shared : Layered sharedDocument := ⟨rfl, rfl, by decide⟩
  obtain ⟨modernLegacy, -⟩ := Resolver.compileDefinition_layout (generator {}).resolver legacyDocument legacy
  obtain ⟨modernShared, parts⟩ := Resolver.compileDefinition_layout (generator {}).resolver sharedDocument shared
  obtain ⟨split, -⟩ := parts [_] [_] rfl (by simp) (by simp)
  refine ⟨legacy, shared, ⟨_, modernLegacy.trans rfl, rfl, by decide +kernel⟩, _, _, split.trans rfl,
    modernShared.trans (split.trans rfl), by decide +kernel, by decide +kernel⟩

end Java

end ResourceCompiler
