import ResourceCompiler.Proofs.Resolver.Artifacts
import ResourceCompiler.Proofs.Resolver.Invariant
import ResourceCompiler.Proofs.Resolver.Names
import ResourceCompiler.Proofs.Resolver.Runs

/-!
# Overriding one class

A class of a compilation can be replaced by an existing type, and all else stays: the compilation under
the extended configuration is the first one without the class and what is nested in it, with the
existing type wherever a field mentions the class (`compileSchema_overriding`). Two runs are compared
fragment by fragment; below the class there is no second run, so what a fragment resolved to has the
class among its artifacts or nothing in common with it (`Override.Meets`).
-/

namespace ResourceCompiler

@[induction_eliminator]
theorem Descriptor.induction {motive : Descriptor → Prop} (primitive : ∀ t, motive (.primitive t))
    (array : ∀ name e, motive e → motive (.array name e)) (map : ∀ name v, motive v → motive (.map name v))
    (existing : ∀ name, motive (.existing name)) (enum : ∀ t, motive (.enum t))
    (object : ∀ t : ObjectType Descriptor, (∀ f ∈ t.fields, motive f.type) → (∀ a ∈ t.nested, motive a) →
      motive (.object t))
    (resource : ∀ t : ResourceType Descriptor, (∀ a ∈ t.nested, motive a) → motive (.resource t))
    (d : Descriptor) : motive d := by
  refine @Descriptor.rec motive (fun t => (∀ f ∈ t.fields, motive f.type) ∧ ∀ a ∈ t.nested, motive a)
    (fun t => ∀ a ∈ t.nested, motive a) (fun fs => ∀ f ∈ fs, motive f.type) (fun as => ∀ a ∈ as, motive a)
    (fun f => motive f.type) primitive array map existing enum (fun t h => object t h.1 h.2)
    (fun t h => resource t h) ?_ ?_ ?_ ?_ ?_ ?_ ?_ d
  · intro _ _ _ _ _ _ _ fields nested
    exact ⟨fields, nested⟩
  · intro _ _ _ _ _ _ _ _ _ nested
    exact nested
  · simp
  · intro f fs hf hfs
    exact List.forall_mem_cons.2 ⟨hf, hfs⟩
  · simp
  · intro a as ha has
    exact List.forall_mem_cons.2 ⟨ha, has⟩
  · intro _ _ _ _ _ _ _ _ _ h
    exact h

/-- An existing type in the place of a class. -/
structure Override where
  replaced : ObjectType Descriptor
  type : String

namespace Override

/-- Whether an artifact stays: neither the class nor nested in it. -/
def keeps (o : Override) (a : Descriptor) : Bool :=
  a.name ≠ o.replaced.name && !o.replaced.nested.any (·.name = a.name)

mutual

/-- A type with the existing type for the class. Lists and maps whose elements have another name then
are spelled anew; a type that is configured elsewhere stays, whatever its name. -/
def apply (o : Override) (types : Dialect) : Descriptor → Descriptor
  | .primitive t => .primitive t
  | .array name element =>
    let element' := o.apply types element
    .array (if element'.name = element.name then name else types.arrayOf element'.name) element'
  | .map name value =>
    let value' := o.apply types value
    .map (if value'.name = value.name then name else types.mapOf value'.name) value'
  | .existing name => .existing name
  | .enum t => .enum t
  | .object t => if t.name = o.replaced.name then .existing o.type else .object (o.applyClass types t)
  | .resource t => .resource t
termination_by structural t => t

def applyClass (o : Override) (types : Dialect) : ObjectType Descriptor → ObjectType Descriptor
  | ⟨simpleName, name, fields, nested, package, preservesUnknown, description⟩ =>
    ⟨simpleName, name, o.applyFields types fields, o.applyNested types nested, package, preservesUnknown,
      description⟩
termination_by structural t => t

def applyFields (o : Override) (types : Dialect) : List (Field Descriptor) → List (Field Descriptor)
  | [] => []
  | f :: fs => o.applyField types f :: o.applyFields types fs
termination_by structural fs => fs

def applyField (o : Override) (types : Dialect) : Field Descriptor → Field Descriptor
  | ⟨identifier, rawName, type, required, nullable, default?, deprecated, description, catchAll⟩ =>
    ⟨identifier, rawName, o.apply types type, required, nullable, default?, deprecated, description, catchAll⟩
termination_by structural f => f

/-- The artifacts that stay. -/
def applyNested (o : Override) (types : Dialect) : List Descriptor → List Descriptor
  | [] => []
  | a :: as => if o.keeps a then o.apply types a :: o.applyNested types as else o.applyNested types as
termination_by structural as => as

end

variable {o : Override} {types : Dialect}

theorem applyField_eq (f : Field Descriptor) :
    o.applyField types f = { f with type := o.apply types f.type } := by
  cases f
  rw [applyField]

theorem applyFields_eq (fs : List (Field Descriptor)) :
    o.applyFields types fs = fs.map (o.applyField types) := by
  induction fs with
  | nil => rw [applyFields, List.map_nil]
  | cons f fs ih => rw [applyFields, ih, List.map_cons]

theorem applyNested_eq (as : List Descriptor) :
    o.applyNested types as = (as.filter o.keeps).map (o.apply types) := by
  induction as with
  | nil => rw [applyNested, List.filter_nil, List.map_nil]
  | cons a as ih =>
    rw [applyNested, ih, List.filter_cons]
    split <;> simp

theorem applyNested_append (as bs : List Descriptor) :
    o.applyNested types (as ++ bs) = o.applyNested types as ++ o.applyNested types bs := by
  simp [applyNested_eq]

theorem applyNested_flatMap {α : Type} (f : α → List Descriptor) (xs : List α) :
    o.applyNested types (xs.flatMap f) = xs.flatMap fun x => o.applyNested types (f x) := by
  simp [applyNested_eq, List.filter_flatMap, List.map_flatMap]

/-- A class that stays, field by field. -/
theorem applyClass_eq (t : ObjectType Descriptor) :
    o.applyClass types t =
      { t with fields := t.fields.map (o.applyField types), nested := o.applyNested types t.nested } := by
  cases t
  rw [applyClass, applyFields_eq]

theorem apply_object {t : ObjectType Descriptor} (h : t.name ≠ o.replaced.name) :
    o.apply types (.object t) = .object (o.applyClass types t) := by
  rw [apply, if_neg h]

theorem keeps_ne {a : Descriptor} (h : o.keeps a = true) : a.name ≠ o.replaced.name := by
  unfold keeps at h
  simp only [Bool.and_eq_true, decide_eq_true_eq] at h
  exact h.1

/-- No class anywhere in the type is the replaced one or holds anything that goes with it. -/
def Avoids (o : Override) (d : Descriptor) : Prop :=
  ∀ t : ObjectType Descriptor, Descriptor.Occurs (.object t) d → ∀ a ∈ .object t :: t.nested, o.keeps a = true

theorem apply_eq_self {d : Descriptor} (h : o.Avoids d) : o.apply types d = d := by
  induction d with
  | primitive t => rw [apply]
  | array name e ih => simp only [apply, ih fun t ht => h t ht.element, if_true]
  | map name v ih => simp only [apply, ih fun t ht => h t ht.value, if_true]
  | existing name => rw [apply]
  | enum t => rw [apply]
  | object t ihf ihn =>
    obtain ⟨self, kept⟩ := List.forall_mem_cons.1 (h t .self)
    have fields : t.fields.map (o.applyField types) = t.fields := by
      refine (List.map_congr_left fun f hf => ?_).trans (List.map_id _)
      rw [applyField_eq, ihf f hf fun u hu => h u (.field hf hu), id_eq]
    have nested : o.applyNested types t.nested = t.nested := by
      rw [applyNested_eq, List.filter_eq_self.2 kept]
      refine (List.map_congr_left fun a ha => ?_).trans (List.map_id _)
      rw [ihn a ha fun u hu => h u (.nested ha hu), id_eq]
    rw [apply_object (keeps_ne self), applyClass_eq, fields, nested]
  | resource t _ => rw [apply]

/-- An artifact that stays keeps its name and its kind. -/
structure Kept (a b : Descriptor) : Prop where
  name : b.name = a.name
  unit : b.isUnit = a.isUnit
  enum : b.enum? = a.enum?
  artifact : b.IsArtifact

theorem apply_kept {a : Descriptor} (ha : a.IsArtifact) (hk : o.keeps a = true) :
    Kept a (o.apply types a) := by
  have hn := keeps_ne hk
  cases a with
  | object t =>
    rw [apply_object hn, applyClass_eq]
    exact ⟨rfl, rfl, rfl, .inl rfl⟩
  | enum t =>
    rw [apply]
    exact ⟨rfl, rfl, rfl, ha⟩
  | resource t =>
    rw [apply]
    exact ⟨rfl, rfl, rfl, ha⟩
  | _ =>
    rcases ha with ha | ⟨_, ha⟩
    · cases ha
    · cases ha

/-- Nothing stays of the class. -/
theorem applyNested_replaced :
    o.applyNested types (o.replaced.nested ++ [.object o.replaced]) = [] := by
  rw [applyNested_eq, List.map_eq_nil_iff, List.filter_eq_nil_iff, List.forall_mem_append]
  constructor
  · intro a ha
    simpa [keeps] using fun _ => ⟨a, ha, rfl⟩
  · simp [keeps, Descriptor.name]

def resolution (o : Override) (types : Dialect) (res : Resolution) : Resolution :=
  ⟨o.apply types res.type, o.applyNested types res.artifacts⟩

theorem resolution_object {t : ObjectType Descriptor} (hn : t.name ≠ o.replaced.name)
    (hk : o.keeps (.object t) = true) :
    o.resolution types ⟨.object t, t.nested ++ [.object t]⟩ =
      ⟨.object (o.applyClass types t), (o.applyClass types t).nested ++ [.object (o.applyClass types t)]⟩ := by
  have nested : (o.applyClass types t).nested = o.applyNested types t.nested := by
    rw [applyClass_eq]
  have self : o.applyNested types [.object t] = [.object (o.applyClass types t)] := by
    rw [applyNested, if_pos hk, apply_object hn, applyNested]
  rw [resolution, apply_object hn, applyNested_append, self, nested]

theorem resolution_replaced :
    o.resolution types ⟨.object o.replaced, o.replaced.nested ++ [.object o.replaced]⟩ =
      Resolver.existing o.type := by
  rw [resolution, applyNested_replaced, apply, if_pos rfl, Resolver.existing]

end Override

namespace Resolver

/-- Artifacts of a resolution: with a class they have what is nested in it, and no existing type was
configured for it. -/
structure Whole (r : Resolver) (artifacts : List Descriptor) : Prop where
  artifact : ∀ a ∈ artifacts, a.IsArtifact
  closed : ∀ t, .object t ∈ artifacts → ∀ a ∈ t.nested, a ∈ artifacts
  generated : ∀ t, .object t ∈ artifacts → r.config.existingType? t.name = none

variable {r : Resolver}

theorem Whole.nil : r.Whole [] := ⟨by simp, by simp, by simp⟩

theorem Whole.append {as bs : List Descriptor} (h : r.Whole as) (h' : r.Whole bs) : r.Whole (as ++ bs) := by
  refine ⟨List.forall_mem_append.2 ⟨h.artifact, h'.artifact⟩, fun t ht a ha => ?_, fun t ht => ?_⟩
  · rcases List.mem_append.1 ht with ht | ht
    · exact List.mem_append_left _ (h.closed t ht a ha)
    · exact List.mem_append_right _ (h'.closed t ht a ha)
  · rcases List.mem_append.1 ht with ht | ht
    · exact h.generated t ht
    · exact h'.generated t ht

theorem Whole.flatMap {α : Type} {f : α → List Descriptor} {xs : List α} (h : ∀ x ∈ xs, r.Whole (f x)) :
    r.Whole (xs.flatMap f) := by
  induction xs with
  | nil => exact .nil
  | cons x xs ih =>
    rw [List.flatMap_cons]
    exact (h x List.mem_cons_self).append (ih fun y hy => h y (List.mem_cons_of_mem _ hy))

theorem whole (r : Resolver) : r.Invariant fun _ _ _ res => r.Whole res.artifacts where
  existing _ := .nil
  primitive _ := .nil
  enum h := by
    obtain ⟨type, rfl, -⟩ := resolveEnum_ok h
    exact ⟨by simp [Descriptor.IsArtifact], by simp, by simp⟩
  array h := h
  map h := h
  built {_ _ _ _ _ _ _ _ _ _ _ t} h member value := by
    have nested : r.Whole t.nested := by
      rw [h.nested]
      exact (Whole.flatMap member).append (Whole.flatMap value)
    have self : (Descriptor.object t).IsArtifact := .inl rfl
    refine ⟨List.forall_mem_append.2 ⟨nested.artifact, by simpa using self⟩, fun u hu a ha => ?_,
      fun u hu => ?_⟩
    · rcases List.mem_append.1 hu with hu | hu
      · exact List.mem_append_left _ (nested.closed u hu a ha)
      · cases List.mem_singleton.1 hu
        exact List.mem_append_left _ ha
    · rcases List.mem_append.1 hu with hu | hu
      · exact nested.generated u hu
      · cases List.mem_singleton.1 hu
        rw [h.named]
        exact h.generated

end Resolver

namespace Override

/-- How the class may stand to the artifacts of a fragment: it is one of them, or has nothing in common
with them. -/
inductive Meets (o : Override) (artifacts : List Descriptor) : Prop
  | inside (distinct : (artifacts.map (·.name)).Nodup) (mem : .object o.replaced ∈ artifacts)
  | apart (kept : ∀ a ∈ artifacts, o.keeps a = true)

namespace Meets

variable {o : Override} {r : Resolver} {as bs : List Descriptor}

theorem keeps_of_ne {a : Descriptor} (hn : a.name ≠ o.replaced.name)
    (hm : ∀ b ∈ o.replaced.nested, b.name ≠ a.name) : o.keeps a = true := by
  simpa [keeps, hn] using hm

/-- Artifacts with other names than those among which the class is stay. -/
theorem keeps_of_distinct (hw : r.Whole as) (hm : .object o.replaced ∈ as)
    (hd : ∀ a ∈ as, ∀ b ∈ bs, a.name ≠ b.name) : ∀ b ∈ bs, o.keeps b = true := by
  refine fun b hb => keeps_of_ne (fun hn => hd _ hm b hb hn.symm) fun a ha => ?_
  exact hd a (hw.closed _ hm a ha) b hb

theorem append (h : o.Meets (as ++ bs)) (ha : r.Whole as) (hb : r.Whole bs) : o.Meets as ∧ o.Meets bs := by
  cases h with
  | inside distinct mem =>
    rw [List.map_append, List.nodup_append] at distinct
    obtain ⟨da, db, hd⟩ := distinct
    have hd : ∀ a ∈ as, ∀ b ∈ bs, a.name ≠ b.name := fun a ha b hb =>
      hd _ (List.mem_map_of_mem ha) _ (List.mem_map_of_mem hb)
    rcases List.mem_append.1 mem with mem | mem
    · exact ⟨.inside da mem, .apart (keeps_of_distinct ha mem hd)⟩
    · exact ⟨.apart (keeps_of_distinct hb mem fun b hb a ha => (hd a ha b hb).symm), .inside db mem⟩
  | apart kept =>
    rw [List.forall_mem_append] at kept
    exact ⟨.apart kept.1, .apart kept.2⟩

theorem flatMap {α : Type} {f : α → List Descriptor} {xs : List α} (h : o.Meets (xs.flatMap f))
    (hw : ∀ x ∈ xs, r.Whole (f x)) : ∀ x ∈ xs, o.Meets (f x) := by
  induction xs with
  | nil => simp
  | cons x xs ih =>
    rw [List.forall_mem_cons] at hw ⊢
    rw [List.flatMap_cons] at h
    obtain ⟨hx, hxs⟩ := h.append hw.1 (.flatMap hw.2)
    exact ⟨hx, ih hxs hw.2⟩

/-- Another class stays. -/
theorem concat {t : ObjectType Descriptor} (h : o.Meets (as ++ [.object t])) (hw : r.Whole as)
    (hn : t.name ≠ o.replaced.name) : o.Meets as ∧ o.keeps (.object t) = true := by
  cases h with
  | inside distinct mem =>
    have mem : .object o.replaced ∈ as := by
      rcases List.mem_append.1 mem with mem | mem
      · exact mem
      · cases List.mem_singleton.1 mem
        exact absurd rfl hn
    rw [List.map_append, List.nodup_append] at distinct
    obtain ⟨da, -, hd⟩ := distinct
    have kept : ∀ b ∈ [Descriptor.object t], o.keeps b = true := keeps_of_distinct hw mem fun a ha b hb =>
      hd _ (List.mem_map_of_mem ha) _ (List.mem_map_of_mem hb)
    exact ⟨.inside da mem, kept _ List.mem_cons_self⟩
  | apart kept =>
    rw [List.forall_mem_append] at kept
    exact ⟨.apart kept.1, kept.2 _ (by simp)⟩

/-- Where a class has the name, it is the one that is replaced. -/
theorem eq_replaced {t : ObjectType Descriptor} (h : o.Meets as) (ht : .object t ∈ as)
    (hn : t.name = o.replaced.name) : t = o.replaced := by
  cases h with
  | inside distinct mem =>
    have := List.inj_on_of_nodup_map distinct ht mem hn
    cases this
    rfl
  | apart kept =>
    have := kept _ ht
    simp [keeps, Descriptor.name, hn] at this

end Meets

/-- An enum is no class, so that it stays. -/
theorem resolution_enum {o : Override} {types : Dialect} {t : EnumType} (h : o.Meets [.enum t]) :
    o.resolution types ⟨.enum t, [.enum t]⟩ = ⟨.enum t, [.enum t]⟩ := by
  cases h with
  | inside _ mem => cases List.mem_singleton.1 mem
  | apart kept =>
    have hk := kept _ List.mem_cons_self
    rw [resolution, applyNested, if_pos hk, applyNested, apply]

end Override

namespace Config

/-- The configuration with one more existing type. -/
def withExistingType (c : Config) (className type : String) : Config :=
  { c with existingTypes := (className, type) :: c.existingTypes }

theorem existingType?_withExistingType (c : Config) (className type n : String) :
    (c.withExistingType className type).existingType? n =
      if n = className then some type else c.existingType? n := by
  unfold existingType? withExistingType
  rw [List.lookup_cons]
  by_cases h : n = className
  · simp [h]
  · simp [h, beq_eq_false_iff_ne.2 h]

end Config

namespace Resolver

def overriding (r : Resolver) (o : Override) : Resolver :=
  { r with config := r.config.withExistingType o.replaced.name o.type }

@[simp]
theorem overriding_names (r : Resolver) (o : Override) : (r.overriding o).names = r.names := rfl

@[simp]
theorem overriding_types (r : Resolver) (o : Override) : (r.overriding o).types = r.types := rfl

@[simp]
theorem overriding_preservesUnknown (r : Resolver) (o : Override) :
    (r.overriding o).config.preservesUnknown = r.config.preservesUnknown := rfl

/-- Which constants an enum has does not depend on existing types. -/
theorem overriding_resolveEnum (r : Resolver) (o : Override) (node : Node) (name : String)
    (package : List String) (owner? : Option String) (path : String) :
    (r.overriding o).resolveEnum node name package owner? path =
      r.resolveEnum node name package owner? path :=
  resolveEnum_congr (r.overriding_names o) rfl rfl node name package owner? path

end Resolver

namespace Override

def member (o : Override) (types : Dialect) (p : ResolvedMember) : ResolvedMember :=
  { p with field := o.applyField types p.field, resolution := o.resolution types p.resolution }

def contribution (o : Override) (types : Dialect) (c : Contribution) : Contribution :=
  ⟨c.property, o.applyField types c.field, o.applyNested types c.artifacts⟩

/-- What stays of contributions can be added in their place. -/
theorem adds {o : Override} {types : Dialect} {path : String} {cs : List Contribution} {m : Members}
    (h : Members.Adds path {} cs m) (artifact : ∀ a ∈ m.artifacts, a.IsArtifact) :
    ∃ claimed, Members.Adds path {} (cs.map (o.contribution types))
      ⟨m.fields.map (o.applyField types), o.applyNested types m.artifacts, claimed⟩ := by
  have artifact : ∀ c ∈ cs, ∀ a ∈ c.artifacts, a.IsArtifact := by
    intro c hc a ha
    refine artifact a ?_
    rw [h.artifacts]
    exact List.mem_append_right _ (List.mem_flatMap.2 ⟨c, hc, ha⟩)
  have added : ∃ m', Members.Adds path {} (cs.map (o.contribution types)) m' := by
    refine Members.exists_adds_of_names ⟨m, h⟩ fun c' hc' a' ha' => ?_
    obtain ⟨c, hc, rfl⟩ := List.mem_map.1 hc'
    rw [contribution, applyNested_eq] at ha'
    obtain ⟨a, ha, rfl⟩ := List.mem_map.1 ha'
    obtain ⟨ha, hk⟩ := List.mem_filter.1 ha
    exact ⟨c, hc, rfl, a, ha, (apply_kept (artifact c hc a ha) hk).name.symm⟩
  obtain ⟨⟨fields, artifacts, claimed⟩, h'⟩ := added
  have fields_eq : fields = _ := h'.fields
  have artifacts_eq : artifacts = _ := h'.artifacts
  refine ⟨claimed, ?_⟩
  rw [fields_eq, artifacts_eq] at h'
  rw [h.fields, h.artifacts, List.nil_append, List.nil_append, applyNested_flatMap, List.map_map]
  rw [List.nil_append, List.nil_append, List.map_map, List.flatMap_map] at h'
  exact h'

end Override

namespace Resolver

variable {r : Resolver} {o : Override} {name : String} {package : List String} {owner? : Option String}
  {path : String} {depth : Int} {res : Resolution}

theorem resolution_existing (type : String) : o.resolution r.types (existing type) = existing type := by
  simp [Override.resolution, existing, Override.apply, Override.applyNested]

theorem overriding_arrayOf (element : Resolution) :
    (r.overriding o).arrayOf (o.resolution r.types element) = o.resolution r.types (r.arrayOf element) := by
  simp only [arrayOf, Override.resolution, Override.apply]
  split
  · next h => rw [← h]; rfl
  · rfl

theorem overriding_mapType (value : Descriptor) :
    (r.overriding o).mapType (o.apply r.types value) = o.apply r.types (r.mapType value) := by
  simp only [mapType, Override.apply]
  split
  · next h => rw [← h]; rfl
  · rfl

theorem overriding_mapOf (value : Resolution) :
    (r.overriding o).mapOf (o.resolution r.types value) = o.resolution r.types (r.mapOf value) := by
  simp only [mapOf, Override.resolution, overriding_mapType]

theorem overriding_catchAll (value : Resolution) :
    (r.overriding o).catchAll (o.resolution r.types value) = o.contribution r.types (r.catchAll value) := by
  simp only [catchAll, Override.contribution, Override.applyField_eq, Override.resolution, overriding_mapType]

theorem overriding_undeclared? (traits : Traits) (additional : Additional Node) (typed? : Option Resolution) :
    (r.overriding o).undeclared? traits additional (typed?.map (o.resolution r.types)) =
      (r.undeclared? traits additional typed?).map (o.resolution r.types) := by
  cases typed? with
  | some value => rfl
  | none =>
    by_cases h : (traits.preservesUnknown || additional.isOpen || r.config.preservesUnknown.truthy) = true
    · simp [undeclared?, h, resolution_existing]
    · simp [undeclared?, h]

section

variable {traits : Traits} {properties : List (Scalar × Node)} {required : List Scalar}
  {additional : Additional Node}

/-- A class that stays is made of what stays of its parts. -/
theorem Builds.overridden {parts : List ResolvedMember} {typed? : Option Resolution}
    {t : ObjectType Descriptor}
    (h : Builds r traits properties required additional name package path depth parts typed? t)
    (hn : t.name ≠ o.replaced.name) (artifact : ∀ a ∈ t.nested, a.IsArtifact)
    (member : ∀ p ∈ parts, (r.overriding o).resolve (r.names.typeName p.name.text)
      (package ++ [r.names.packageSegment name]) (some (Naming.qualified package name))
      ((r.scopeOf name package path).path ++ "." ++ p.name.text) (depth + 1) p.node =
        .ok (o.resolution r.types p.resolution))
    (typed : (r.overriding o).resolveAdditional (r.scopeOf name package path) depth additional =
      .ok (typed?.map (o.resolution r.types))) :
    Builds (r.overriding o) traits properties required additional name package path depth
      (parts.map (o.member r.types)) (typed?.map (o.resolution r.types)) (o.applyClass r.types t) := by
  have contributions : (parts.map (o.member r.types)).map ResolvedMember.contribution ++
      ((r.overriding o).undeclared? traits additional (typed?.map (o.resolution r.types))).toList.map
        (r.overriding o).catchAll =
      (parts.map ResolvedMember.contribution ++
        (r.undeclared? traits additional typed?).toList.map r.catchAll).map (o.contribution r.types) := by
    rw [overriding_undeclared?, List.map_append, List.map_map, List.map_map, List.map_map, Option.toList_map,
      List.map_map]
    congr 1
    exact List.map_congr_left fun value _ => overriding_catchAll value
  rw [Override.applyClass_eq]
  refine ⟨h.simple, h.named, h.placed, ?_, h.reduced, ?_, ?_, typed, ?_, ?_, ?_, h.described⟩
  · show (r.config.withExistingType o.replaced.name o.type).existingType? _ = none
    rw [Config.existingType?_withExistingType, ← h.named, if_neg hn, h.named]
    exact h.generated
  · rw [List.map_map]
    exact h.kept
  · intro p' hp'
    obtain ⟨p, hp, rfl⟩ := List.mem_map.1 hp'
    refine ⟨member p hp, ?_⟩
    have type := (memberField_ok (h.resolved p hp).field).2.2.1
    refine (memberField_retype (h.resolved p hp).field (o.apply r.types p.resolution.type)).trans ?_
    rw [← type, Override.member, Override.applyField_eq]
  · rw [contributions]
    obtain ⟨claimed, ha⟩ := h.added
    exact Override.adds ha artifact
  · intro hs p' hp'
    obtain ⟨p, hp, rfl⟩ := List.mem_map.1 hp'
    rw [overriding_undeclared?, Option.isSome_map] at hs
    rw [Override.member, Override.applyField_eq]
    exact h.alone hs p hp
  · rw [overriding_undeclared?, Option.isSome_map, Option.isNone_map]
    exact h.preserves

/-- A second run under the extended configuration gives what stays of the first one. -/
def Stays (r : Resolver) (o : Override) (node : Node) : Prop :=
  ∀ name package owner? path depth res, r.resolve name package owner? path depth node = .ok res →
    o.Meets res.artifacts →
      (r.overriding o).resolve name package owner? path depth node = .ok (o.resolution r.types res)

theorem YieldsClass.overridden (hg : r.config.existingType? o.replaced.name = none)
    (h : YieldsClass r traits properties required additional name package path depth res)
    (hm : o.Meets res.artifacts) (member : ∀ p ∈ properties, r.Stays o p.2)
    (schema : ∀ s, additional = .typed s → r.Stays o s) :
    YieldsClass (r.overriding o) traits properties required additional name package path depth
      (o.resolution r.types res) := by
  have configured := r.config.existingType?_withExistingType o.replaced.name o.type
  cases h with
  | @replaced type hx =>
    rw [resolution_existing]
    refine .replaced ((configured _).trans ?_)
    split
    · next hn => rw [hn, hg] at hx; cases hx
    · exact hx
  | @built parts typed? t h =>
    by_cases hn : t.name = o.replaced.name
    · -- the class itself: nothing below it is resolved again
      obtain rfl : t = o.replaced := hm.eq_replaced (by simp) hn
      rw [Override.resolution_replaced]
      refine .replaced ((configured _).trans ?_)
      rw [← h.named, if_pos rfl]
    · obtain ⟨wholeParts, wholeValue⟩ := h.children (P := fun res => r.Whole res.artifacts) .nil
        (fun _ _ _ _ _ _ _ _ h => r.whole.resolve h) (fun _ _ _ _ _ _ _ _ h => r.whole.resolve h)
      have whole : r.Whole t.nested := by
        rw [h.nested]
        exact (Whole.flatMap wholeParts).append (.flatMap wholeValue)
      obtain ⟨hm, kept⟩ := hm.concat whole hn
      rw [h.nested] at hm
      obtain ⟨hm, hv⟩ := hm.append (.flatMap wholeParts) (.flatMap wholeValue)
      rw [Override.resolution_object hn kept]
      refine .built (h.overridden hn whole.artifact (fun p hp => ?_) ?_)
      · exact member p.property (h.mem_properties hp) _ _ _ _ _ _ (h.resolved p hp).resolve
          (hm.flatMap wholeParts p hp)
      · rcases resolveAdditional_ok h.typed with ⟨rfl, hs⟩ | ⟨s, value, rfl, rfl, hr⟩
        · cases additional with
          | typed s => exact absurd rfl (hs s)
          | closed | «open» => rfl
        · have meets := hv.flatMap wholeValue value (by simp [undeclared?])
          exact bind_eq_ok.2 ⟨_, schema s rfl _ _ _ _ _ _ hr meets, rfl⟩

end

theorem resolve_overridden (hg : r.config.existingType? o.replaced.name = none) (node : Node) :
    r.Stays o node := by
  intro name package owner? path depth res h hm
  refine resolve_of_yields h ?_ rfl
  have y := resolve_ok h
  clear h
  induction y using Yields.induction with
  | intOrString hi =>
    rw [resolution_existing]
    exact .intOrString hi
  | untyped hi =>
    rw [resolution_existing]
    exact .untyped hi
  | free hi =>
    rw [resolution_existing]
    exact .free hi
  | «class» hi hc hf member schema =>
    refine .class hi (hc.overridden hg hm (fun p hp _ _ _ _ _ _ h hm => ?_) fun s hs _ _ _ _ _ _ h hm => ?_) hf
    · exact resolve_of_yields h (member p hp _ _ _ _ _ _ h hm) rfl
    · exact resolve_of_yields h (schema s hs _ _ _ _ _ _ h hm) rfl
  | array hi he ih =>
    rw [← overriding_arrayOf]
    exact .array hi (resolve_of_yields he (ih hm) rfl)
  | map hi hv ih =>
    rw [← overriding_mapOf]
    exact .map hi (resolve_of_yields hv (ih hm) rfl)
  | enum hi he =>
    obtain ⟨type, rfl, -⟩ := resolveEnum_ok he
    rw [Override.resolution_enum hm]
    exact .enum hi (by rwa [overriding_resolveEnum])
  | basic hi hp =>
    rw [Override.resolution, Override.apply, Override.applyNested]
    exact .basic hi hp

theorem resolveObject_overridden (hg : r.config.existingType? o.replaced.name = none) {node : Node}
    (h : r.resolveObject node name package path depth = .ok res) (hm : o.Meets res.artifacts) :
    (r.overriding o).resolveObject node name package path depth = .ok (o.resolution r.types res) := by
  obtain ⟨hd, y⟩ := resolveObject_eq_ok.1 h
  refine resolveObject_eq_ok.2 ⟨hd, y.overridden hg hm (fun p _ => ?_) fun s _ => ?_⟩
  · exact resolve_overridden hg p.2
  · exact resolve_overridden hg s

end Resolver

namespace Override

/-- What stays of a compilation. -/
def compilation (o : Override) (types : Dialect) (c : Compilation) : Compilation where
  root := o.apply types c.root
  topLevel := (c.topLevel.filter o.keeps).map (o.apply types)
  inner := c.inner.filter fun t => o.keeps (.enum t)
  index := (c.index.filter fun e => o.keeps e.2).map fun e => (e.1, o.apply types e.2)

variable {o : Override} {types : Dialect} {c : Compilation} {res : Resolution}

section

variable {artifacts : List Descriptor} (ha : ∀ a ∈ artifacts, a.IsArtifact)

include ha

theorem kept_of_mem {a : Descriptor} (h : a ∈ artifacts.filter o.keeps) : Kept a (o.apply types a) :=
  apply_kept (ha a (List.mem_filter.1 h).1) (List.mem_filter.1 h).2

theorem compilation_extend {root : Descriptor} :
    o.compilation types (.extend { root } artifacts) =
      .extend { root := o.apply types root } (o.applyNested types artifacts) := by
  have units : ((artifacts.filter (·.isUnit)).filter o.keeps).map (o.apply types) =
      (o.applyNested types artifacts).filter (·.isUnit) := by
    rw [applyNested_eq, List.filter_map, List.filter_comm]
    congr 1
    exact List.filter_congr fun a hm => (kept_of_mem ha hm).unit.symm
  have enums : (artifacts.filterMap (·.enum?)).filter (fun t => o.keeps (.enum t)) =
      (o.applyNested types artifacts).filterMap (·.enum?) := by
    have stays : (artifacts.filter o.keeps).filterMap ((·.enum?) ∘ o.apply types) =
        (artifacts.filter o.keeps).filterMap (·.enum?) :=
      List.filterMap_congr fun a hm => (kept_of_mem ha hm).enum
    rw [applyNested_eq, List.filterMap_map, List.filter_filterMap, stays, List.filterMap_filter]
    refine List.filterMap_congr fun a _ => ?_
    cases a <;> simp [Descriptor.enum?, Option.filter]
  have index : ((artifacts.map fun a => (a.name, a)).filter fun e => o.keeps e.2).map
      (fun e => (e.1, o.apply types e.2)) = (o.applyNested types artifacts).map fun a => (a.name, a) := by
    rw [applyNested_eq, List.filter_map, List.map_map, List.map_map]
    refine List.map_congr_left fun a hm => ?_
    rw [Function.comp_apply, Function.comp_apply, (kept_of_mem ha hm).name]
  simp only [compilation, Compilation.extend, List.nil_append, units, enums, index]

theorem applyNested_names :
    (o.applyNested types artifacts).map (·.name) = (artifacts.filter o.keeps).map (·.name) := by
  rw [applyNested_eq, List.map_map]
  exact List.map_congr_left fun a hm => (kept_of_mem ha hm).name

end

theorem ofResolution_overridden (h : Compilation.ofResolution res = .ok c) :
    Compilation.ofResolution (o.resolution types res) = .ok (o.compilation types c) := by
  obtain ⟨ha, hn, rfl⟩ := Compilation.ofResolution_eq_ok.1 h
  refine Compilation.ofResolution_eq_ok.2 ⟨fun b hb => ?_, ?_, compilation_extend ha⟩
  · rw [resolution, applyNested_eq] at hb
    obtain ⟨a, hm, rfl⟩ := List.mem_map.1 hb
    exact (kept_of_mem ha hm).artifact
  · rw [resolution, applyNested_names ha]
    exact hn.sublist (List.filter_sublist.map _)

end Override

namespace Resolver

/-- Overriding one class is local: the second compilation is what stays of the first one, where artifacts
that avoid the class stay as they are. At the root, the existing type alone stays. -/
theorem compileSchema_overriding (r : Resolver) (o : Override) (schema package : Value) (name : String)
    (c : Compilation) (h : r.compileSchema schema name package = .ok c)
    (ho : (o.replaced.name, .object o.replaced) ∈ c.index) :
    (r.overriding o).compileSchema schema name package = .ok (o.compilation r.types c) ∧
      (∀ e ∈ c.index, o.keeps e.2 = true → o.Avoids e.2 → e ∈ (o.compilation r.types c).index) ∧
      (c.root = .object o.replaced → o.compilation r.types c = { root := .existing o.type }) := by
  obtain ⟨root, segments, res, hroot, hs, hres, hc⟩ := compileSchema_eq_ok.1 h
  obtain ⟨-, distinct, hi⟩ := Compilation.ofResolution_eq_ok.1 hc
  have mem : .object o.replaced ∈ res.artifacts := by
    rw [hi] at ho
    obtain ⟨a, hm, he⟩ := List.mem_map.1 ho
    rwa [(Prod.mk.inj he).2] at hm
  have generated := (r.whole.resolveObject none hres).generated _ mem
  have second := resolveObject_overridden generated hres (.inside distinct mem)
  have compiled : Compilation.ofResolution (o.resolution r.types res) = .ok (o.compilation r.types c) :=
    Override.ofResolution_overridden hc
  refine ⟨compileSchema_eq_ok.2 ⟨root, segments, _, hroot, hs, second, compiled⟩, fun e he hk hv => ?_,
    fun hr => ?_⟩
  · refine List.mem_map.2 ⟨e, List.mem_filter.2 ⟨he, hk⟩, ?_⟩
    rw [Override.apply_eq_self hv]
  have type : res.type = .object o.replaced := by
    rw [← (Compilation.ofResolution_ok hc).1, hr]
  cases resolveObject_ok hres with
  | replaced => cases type
  | built =>
    cases type
    rw [Override.resolution_replaced] at compiled
    exact (Except.ok.inj compiled).symm

end Resolver

namespace Java

/-- An existing type for the class of a device's ports. -/
def portsOverride : Override where
  replaced := {
    simpleName := "Ports", name := "test.io.device.Ports", nested := [], package := ["test", "io", "device"]
    preservesUnknown := false, description := .null
    fields := [{
      identifier := "number", rawName := .str "number"
      type := .primitive { name := "java.math.BigInteger", primitive := .bigInteger } }] }
  type := "io.Port"

/-- Overriding the class of an array's items: the list is one of the existing type, and the enum stays. -/
theorem compileSchema_overriding_ports :
    ∃ c : Compilation,
      (generator {}).resolver.compileSchema deviceValue "Device" (.str "test.io") = .ok c ∧
      (portsOverride.replaced.name, .object portsOverride.replaced) ∈ c.index ∧
      (generator (({} : Config).withExistingType "test.io.device.Ports" "io.Port")).resolver.compileSchema
        deviceValue "Device" (.str "test.io") = .ok (portsOverride.compilation ({} : TypeNames).dialect c) ∧
      (portsOverride.compilation ({} : TypeNames).dialect c).index.map (·.1) =
        ["test.io.Device.Mode", "test.io.Device"] ∧
      (portsOverride.compilation ({} : TypeNames).dialect c).topLevel.map (fun a => a.fields.map (·.type.name)) =
        [["test.io.Device.Mode", "java.util.List<io.Port>"]] := by
  refine ⟨_, rfl, List.mem_of_getElem? (i := 1) rfl, ?_, ?_, ?_⟩
  · exact (Resolver.compileSchema_overriding (generator {}).resolver portsOverride deviceValue (.str "test.io")
      "Device" _ rfl (List.mem_of_getElem? (i := 1) rfl)).1
  · decide +kernel
  · decide +kernel

end Java

end ResourceCompiler
