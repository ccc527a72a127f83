import ResourceCompiler.Proofs.Compilation
import ResourceCompiler.Proofs.Failure

/-!
# Packing artifacts

Any list of descriptors can be packed into a compilation, not only what a resolution found. It is refused at the first
of them whose name is taken or that no code is generated for; else nothing of it is lost, and what is packed can be
packed again (`ofResolution_iff`).
-/

namespace ResourceCompiler

namespace Compilation

/-- Why an artifact cannot stand behind others. -/
inductive Refuses (before : List Descriptor) (a : Descriptor) : Failure → Prop
  | repeated (taken : a.name ∈ before.map (·.name)) :
      Refuses before a (.generator (.duplicateType a.name [] .null))
  | unfit (free : a.name ∉ before.map (·.name)) (other : ¬ a.IsArtifact) :
      Refuses before a (.generator (.shape (.notEmittable a.kindName) (.str a.name)))

/-- A compilation of artifacts: the classes and the enums among them and an index of all, each in the given order. -/
structure Packs (root : Descriptor) (artifacts : List Descriptor) (c : Compilation) : Prop where
  root : c.root = root
  topLevel : c.topLevel = artifacts.filter (·.enum?.isNone)
  inner : c.inner.map Descriptor.enum = artifacts.filter (·.enum?.isSome)
  index : c.index = artifacts.map fun a => (a.name, a)

variable {root a : Descriptor} {before artifacts : List Descriptor} {c c' : Compilation} {e : Failure}

theorem refuses_iff : Refuses before a e ↔
    (a.name ∈ before.map (·.name) ∧ e = .generator (.duplicateType a.name [] .null)) ∨
      a.name ∉ before.map (·.name) ∧ ¬ a.IsArtifact ∧
        e = .generator (.shape (.notEmittable a.kindName) (.str a.name)) := by
  constructor
  · rintro (taken | ⟨free, other⟩)
    · exact Or.inl ⟨taken, rfl⟩
    · exact Or.inr ⟨free, other, rfl⟩
  · rintro (⟨taken, rfl⟩ | ⟨free, other, rfl⟩)
    · exact .repeated taken
    · exact .unfit free other

theorem add_eq_error (names : c.index.map (·.1) = before.map (·.name)) : c.add a = .error e ↔ Refuses before a e := by
  have taken : c.index.any (·.1 = a.name) = true ↔ a.name ∈ before.map (·.name) := by
    rw [← names]
    simp [List.any_eq_true]
  rw [refuses_iff]
  unfold add
  split
  · next h => simp [taken.1 h, eq_comm]
  · next h =>
    rw [taken] at h
    cases a <;> simp [h, Descriptor.IsArtifact, Descriptor.isUnit, eq_comm]

theorem ofResolution_eq_error {artifacts : List Descriptor} :
    ofResolution ⟨root, artifacts⟩ = .error e ↔ ∃ before a after, artifacts = before ++ a :: after ∧
      (∀ b ∈ before, b.IsArtifact) ∧ (before.map (·.name)).Nodup ∧ Refuses before a e := by
  have names (before : List Descriptor) : (extend { root } before).index.map (·.1) = before.map (·.name) := by
    simp [extend]
  have packed (before : List Descriptor) (c : Compilation) : before.foldlM add { root } = .ok c ↔
      (∀ b ∈ before, b.IsArtifact) ∧ (before.map (·.name)).Nodup ∧ c = extend { root } before :=
    @ofResolution_eq_ok c ⟨root, before⟩
  rw [ofResolution, foldlM_eq_error]
  simp only [packed]
  constructor
  · rintro ⟨before, a, after, _, whole, ⟨fit, distinct, rfl⟩, failed⟩
    exact ⟨before, a, after, whole, fit, distinct, (add_eq_error (names before)).1 failed⟩
  · rintro ⟨before, a, after, whole, fit, distinct, refused⟩
    exact ⟨before, a, after, _, whole, ⟨fit, distinct, rfl⟩, (add_eq_error (names before)).2 refused⟩

theorem isUnit_eq (h : a.IsArtifact) : a.isUnit = a.enum?.isNone := by
  rcases h with h | ⟨t, rfl⟩
  · cases a <;> first | rfl | cases h
  · rfl

theorem map_enum (artifacts : List Descriptor) :
    (artifacts.filterMap (·.enum?)).map Descriptor.enum = artifacts.filter (·.enum?.isSome) := by
  induction artifacts with
  | nil => rfl
  | cons a as ih =>
    cases a with
    | enum t => exact congrArg (List.cons (.enum t)) ih
    | _ => exact ih

theorem packs_extend (h : ∀ a ∈ artifacts, a.IsArtifact) : Packs root artifacts (extend { root } artifacts) where
  root := rfl
  topLevel := List.filter_congr fun a ha => isUnit_eq (h a ha)
  inner := map_enum artifacts
  index := rfl

/-- What is packed is in the order of its packing. -/
theorem extend_artifacts (h : ofResolution ⟨root, artifacts⟩ = .ok c) :
    (extend { root } c.artifacts).topLevel = c.topLevel ∧ (extend { root } c.artifacts).inner = c.inner := by
  obtain ⟨-, -, rfl⟩ := ofResolution_eq_ok.1 h
  have units : (artifacts.filter (·.isUnit)).filterMap (·.enum?) = [] := by
    rw [List.filterMap_eq_nil_iff]
    intro a ha
    have unit := (List.mem_filter.1 ha).2
    cases a <;> first | rfl | cases unit
  have enums (types : List EnumType) : (types.map Descriptor.enum).filterMap (·.enum?) = types := by
    rw [List.filterMap_map]
    exact List.filterMap_some
  constructor
  · simp [extend, Compilation.artifacts, List.filter_map, Function.comp_def, Descriptor.isUnit]
  · simp only [extend, Compilation.artifacts, List.nil_append, List.filterMap_append, units, enums]

theorem ofResolution_artifacts (h : ofResolution ⟨root, artifacts⟩ = .ok c) :
    ∃ c', ofResolution ⟨root, c.artifacts⟩ = .ok c' ∧ c'.topLevel = c.topLevel ∧ c'.inner = c.inner ∧
      c'.index.Perm c.index ∧ ∀ name, c'.index.lookup name = c.index.lookup name := by
  have perm : c.artifacts.Perm artifacts := artifacts_perm h
  obtain ⟨topLevel, inner⟩ := extend_artifacts h
  obtain ⟨fit, distinct, packed⟩ := ofResolution_eq_ok.1 h
  have fit' : ∀ a ∈ c.artifacts, a.IsArtifact := fun a ha => fit a (perm.mem_iff.1 ha)
  have distinct' : (c.artifacts.map (·.name)).Nodup := (perm.map _).nodup_iff.2 distinct
  have index : (extend { root } c.artifacts).index.Perm c.index := by
    have whole : c.index = artifacts.map fun a => (a.name, a) := by rw [packed]; rfl
    rw [whole]
    exact perm.map fun a => (a.name, a)
  refine ⟨_, ofResolution_eq_ok.2 ⟨fit', distinct', rfl⟩, topLevel, inner, index, fun name => lookup_perm index ?_ name⟩
  simpa [extend, Function.comp_def] using distinct'

/-- Descriptors are packed exactly if all are artifacts with distinct names; else the first that cannot stand behind
those before it decides the error. What was packed gives the same classes and enums when it is packed again, and an
index in which the same is found. -/
theorem ofResolution_iff (root : Descriptor) (artifacts : List Descriptor) :
    ((∃ c, ofResolution ⟨root, artifacts⟩ = .ok c) ↔
      (∀ a ∈ artifacts, a.IsArtifact) ∧ (artifacts.map (·.name)).Nodup) ∧
    (∀ e, ofResolution ⟨root, artifacts⟩ = .error e ↔
      ∃ before a after, artifacts = before ++ a :: after ∧ (∀ b ∈ before, b.IsArtifact) ∧
        (before.map (·.name)).Nodup ∧ Refuses before a e) ∧
    ∀ c, ofResolution ⟨root, artifacts⟩ = .ok c → Packs root artifacts c ∧
      ∃ c', ofResolution ⟨root, c.artifacts⟩ = .ok c' ∧ c'.topLevel = c.topLevel ∧ c'.inner = c.inner ∧
        c'.index.Perm c.index ∧ ∀ name, c'.index.lookup name = c.index.lookup name := by
  refine ⟨⟨?_, ?_⟩, fun e => ofResolution_eq_error, fun c h => ⟨?_, ofResolution_artifacts h⟩⟩
  · rintro ⟨c, h⟩
    obtain ⟨fit, distinct, -⟩ := ofResolution_eq_ok.1 h
    exact ⟨fit, distinct⟩
  · rintro ⟨fit, distinct⟩
    exact exists_ofResolution fit distinct
  · obtain ⟨fit, -, rfl⟩ := ofResolution_eq_ok.1 h
    exact packs_extend fit

/-- An enum and its class. -/
def lampMode : Descriptor :=
  .enum ⟨"Mode", "io.Lamp.Mode", [], ⟨"java.lang.String", .string, .null, .null, .null, .null⟩, ["io"], some "io.Lamp",
    .null⟩

def lampClass : Descriptor := .object ⟨"Lamp", "io.Lamp", [], [lampMode], ["io"], false, .null⟩

/-- The class once can be packed twice, the class twice cannot be packed at all. -/
theorem ofResolution_iff_lamp :
    (∃ c, ofResolution ⟨lampClass, [lampMode, lampClass]⟩ = .ok c ∧ Packs lampClass [lampMode, lampClass] c ∧
      ∃ c', ofResolution ⟨lampClass, c.artifacts⟩ = .ok c' ∧ c'.topLevel = c.topLevel ∧ c'.inner = c.inner) ∧
    ofResolution ⟨lampClass, [lampMode, lampClass, lampClass]⟩ =
      .error (.generator (.duplicateType "io.Lamp" [] .null)) := by
  have fit : ∀ a ∈ [lampMode, lampClass], a.IsArtifact := by
    rw [List.forall_mem_cons, List.forall_mem_singleton]
    exact ⟨Or.inr ⟨_, rfl⟩, Or.inl rfl⟩
  have distinct : ([lampMode, lampClass].map (·.name)).Nodup := by decide
  obtain ⟨succeeds, -, packs⟩ := ofResolution_iff lampClass [lampMode, lampClass]
  obtain ⟨c, packed⟩ := succeeds.2 ⟨fit, distinct⟩
  obtain ⟨whole, c', again, topLevel, inner, -⟩ := packs c packed
  obtain ⟨-, fails, -⟩ := ofResolution_iff lampClass [lampMode, lampClass, lampClass]
  refine ⟨⟨c, packed, whole, c', again, topLevel, inner⟩, (fails _).2 ?_⟩
  exact ⟨[lampMode, lampClass], lampClass, [], rfl, fit, distinct, .repeated (by decide)⟩

end Compilation

end ResourceCompiler
