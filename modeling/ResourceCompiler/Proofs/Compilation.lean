import Mathlib.Data.List.Nodup
import ResourceCompiler.Compilation
import ResourceCompiler.Proofs.Success

/-!
# What a compilation holds

A compilation of artifacts has the classes among them as units and the enums inside them, in their order.
It exists exactly when all of them are artifacts with distinct names (`ofResolution_eq_ok`).
-/

namespace ResourceCompiler

/-- A table with distinct keys gives the same in any order. -/
theorem lookup_perm {α : Type} {table table' : List (String × α)} (h : table.Perm table')
    (distinct : (table.map (·.1)).Nodup) (key : String) : table.lookup key = table'.lookup key := by
  induction h with
  | nil => rfl
  | cons entry _ ih =>
    rw [List.map_cons, List.nodup_cons] at distinct
    obtain ⟨name, value⟩ := entry
    rw [List.lookup_cons, List.lookup_cons, ih distinct.2]
  | swap entry other rest =>
    obtain ⟨name, value⟩ := entry
    obtain ⟨name', value'⟩ := other
    simp only [List.map_cons, List.nodup_cons, List.mem_cons, not_or] at distinct
    have apart : (name' == name) = false := beq_eq_false_iff_ne.2 distinct.1.1
    cases here : key == name' with
    | true => simp only [List.lookup_cons, eq_of_beq here, apart, BEq.rfl]
    | false => simp only [List.lookup_cons, here]
  | trans first _ ih ih' => exact (ih distinct).trans (ih' ((first.map _).nodup_iff.1 distinct))

namespace Descriptor

/-- A type that code is generated for. -/
def IsArtifact (d : Descriptor) : Prop := d.isUnit = true ∨ ∃ t, d = .enum t

def enum? : Descriptor → Option EnumType
  | .enum t => some t
  | _ => none

end Descriptor

namespace Compilation

variable {c c' : Compilation} {a : Descriptor} {artifacts : List Descriptor}

/-- The compilation with further artifacts. -/
def extend (c : Compilation) (artifacts : List Descriptor) : Compilation where
  root := c.root
  topLevel := c.topLevel ++ artifacts.filter (·.isUnit)
  inner := c.inner ++ artifacts.filterMap (·.enum?)
  index := c.index ++ artifacts.map fun a => (a.name, a)

@[simp]
theorem extend_nil : c.extend [] = c := by
  simp [extend]

theorem extend_append (c : Compilation) (artifacts others : List Descriptor) :
    c.extend (artifacts ++ others) = (c.extend artifacts).extend others := by
  simp [extend]

theorem add_eq_ok :
    c.add a = .ok c' ↔ a.IsArtifact ∧ a.name ∉ c.index.map (·.1) ∧ c' = c.extend [a] := by
  have taken : c.index.any (·.1 = a.name) = true ↔ a.name ∈ c.index.map (·.1) := by
    simp [List.any_eq_true]
  unfold add
  split
  · next h => simp [taken.1 h]
  · next h =>
    rw [taken] at h
    cases a <;> simp [h, extend, Descriptor.IsArtifact, Descriptor.isUnit, Descriptor.enum?, eq_comm]

theorem foldlM_add_eq_ok :
    artifacts.foldlM add c = .ok c' ↔ (∀ a ∈ artifacts, a.IsArtifact) ∧ (artifacts.map (·.name)).Nodup ∧
      (∀ a ∈ artifacts, a.name ∉ c.index.map (·.1)) ∧ c' = c.extend artifacts := by
  induction artifacts generalizing c with
  | nil =>
    rw [List.foldlM_nil, pure_eq_ok]
    simp [eq_comm]
  | cons a as ih =>
    have index : (c.extend [a]).index.map (·.1) = c.index.map (·.1) ++ [a.name] := by
      simp [extend]
    have rest : c.extend (a :: as) = (c.extend [a]).extend as := c.extend_append [a] as
    rw [List.foldlM_cons, bind_eq_ok, List.map_cons, List.nodup_cons, List.forall_mem_cons,
      List.forall_mem_cons, rest]
    constructor
    · rintro ⟨c₁, h₁, h⟩
      obtain ⟨ha, free, rfl⟩ := add_eq_ok.1 h₁
      obtain ⟨hs, nodup, fresh, rfl⟩ := ih.1 h
      rw [index] at fresh
      refine ⟨⟨ha, hs⟩, ⟨fun hm => ?_, nodup⟩, ⟨free, fun b hb hm => ?_⟩, rfl⟩
      · obtain ⟨b, hb, hn⟩ := List.mem_map.1 hm
        exact fresh b hb (by simp [hn])
      · exact fresh b hb (List.mem_append_left _ hm)
    · rintro ⟨⟨ha, hs⟩, ⟨apart, nodup⟩, ⟨free, fresh⟩, rfl⟩
      refine ⟨c.extend [a], add_eq_ok.2 ⟨ha, free, rfl⟩, ih.2 ⟨hs, nodup, fun b hb => ?_, rfl⟩⟩
      rw [index, List.mem_append, List.mem_singleton, not_or]
      exact ⟨fresh b hb, fun hn => apart (List.mem_map.2 ⟨b, hb, hn⟩)⟩

theorem ofResolution_eq_ok {res : Resolution} :
    ofResolution res = .ok c ↔ (∀ a ∈ res.artifacts, a.IsArtifact) ∧ (res.artifacts.map (·.name)).Nodup ∧
      c = extend { root := res.type } res.artifacts := by
  unfold ofResolution
  rw [foldlM_add_eq_ok]
  simp

theorem ofResolution_ok {res : Resolution} (h : ofResolution res = .ok c) :
    c.root = res.type ∧ c.topLevel = res.artifacts.filter (·.isUnit) := by
  obtain ⟨-, -, rfl⟩ := ofResolution_eq_ok.1 h
  exact ⟨rfl, rfl⟩

/-- Whether units come first does not change which artifacts there are. -/
theorem units_append_enums_perm (h : ∀ a ∈ artifacts, a.IsArtifact) :
    List.Perm (artifacts.filter (·.isUnit) ++ (artifacts.filterMap (·.enum?)).map Descriptor.enum)
      artifacts := by
  induction artifacts with
  | nil => exact .refl _
  | cons a as ih =>
    obtain ⟨ha, has⟩ := List.forall_mem_cons.1 h
    rcases ha with hu | ⟨e, rfl⟩
    · have he : a.enum? = none := by cases a <;> first | rfl | cases hu
      rw [List.filter_cons_of_pos hu, List.filterMap_cons_none he]
      exact (ih has).cons a
    · have he : (Descriptor.enum e).enum? = some e := rfl
      rw [List.filter_cons_of_neg (by simp [Descriptor.isUnit]), List.filterMap_cons_some he, List.map_cons]
      exact List.perm_middle.trans ((ih has).cons _)

theorem artifacts_perm {res : Resolution} (h : ofResolution res = .ok c) :
    c.artifacts.Perm res.artifacts := by
  obtain ⟨ha, -, rfl⟩ := ofResolution_eq_ok.1 h
  exact units_append_enums_perm ha

/-- What a compilation lists as its artifacts was among those of the resolution. -/
theorem mem_of_mem_artifacts {res : Resolution} (h : ofResolution res = .ok c) :
    ∀ a ∈ c.artifacts, a ∈ res.artifacts :=
  fun _ ha => (artifacts_perm h).mem_iff.1 ha

theorem isUnit_of_mem_topLevel {res : Resolution} (h : ofResolution res = .ok c) :
    ∀ t ∈ c.topLevel, t.isUnit = true := by
  rw [(ofResolution_ok h).2]
  exact fun t ht => (List.mem_filter.1 ht).2

theorem exists_ofResolution {res : Resolution} (ha : ∀ a ∈ res.artifacts, a.IsArtifact)
    (hn : (res.artifacts.map (·.name)).Nodup) : ∃ c, ofResolution res = .ok c :=
  ⟨_, ofResolution_eq_ok.2 ⟨ha, hn, rfl⟩⟩

end Compilation

end ResourceCompiler
