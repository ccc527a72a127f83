import ResourceCompiler.Proofs.Config
import ResourceCompiler.Proofs.Failure
import ResourceCompiler.Proofs.QualifiedName

/-!
# Names in configurations

A configuration takes the type names and packages of the grammar of qualified names and refuses all other values with an
error of its own, but for one exception: a name with a line break behind it is taken as well. `names_checked` says what
is taken, and for which mappings that is more than the grammar has.
-/

namespace ResourceCompiler

namespace QualifiedName

/-- A value that is written like a name. -/
def Written (v : Value) : Prop := ∃ s, v = .str s ∧ Named s.toList

/-- A value that is taken for a name. -/
def Taken (v : Value) : Prop := Written v ∨ ∃ s, Written (.str s) ∧ v = .str (s ++ "\n")

/-- A text of more than one line. -/
def Broken (v : Value) : Prop := ∃ s, v = .str s ∧ '\n' ∈ s.toList

variable {v : Value}

theorem written_str {s : String} : Written (.str s) ↔ Named s.toList := by
  constructor
  · rintro ⟨_, ⟨⟩, h⟩
    exact h
  · exact fun h => ⟨s, rfl, h⟩

theorem broken_str {s : String} : Broken (.str s) ↔ '\n' ∈ s.toList := by
  constructor
  · rintro ⟨_, ⟨⟩, h⟩
    exact h
  · exact fun h => ⟨s, rfl, h⟩

/-- The grammar has the names without line breaks. -/
theorem written_iff : Written v ↔ Taken v ∧ ¬ Broken v := by
  constructor
  · rintro ⟨s, rfl, h⟩
    exact ⟨Or.inl (written_str.2 h), fun broken => h.no_break (broken_str.1 broken)⟩
  · rintro ⟨h | ⟨s, -, rfl⟩, line⟩
    · exact h
    · exact absurd (broken_str.2 (by simp)) line

theorem isValid_toList {s : String} : isValid s.toList = true ↔ Taken (.str s) := by
  rw [isValid_iff]
  constructor
  · rintro ⟨name, ending, hs, named, rfl | rfl⟩
    · exact Or.inl (written_str.2 (by rwa [hs, List.append_nil]))
    · refine Or.inr ⟨String.ofList name, written_str.2 (by rwa [String.toList_ofList]), ?_⟩
      rw [← String.ofList_toList (s := s), hs, String.ofList_append]
  · rintro (h | ⟨t, h, same⟩)
    · exact ⟨s.toList, [], by simp, written_str.1 h, Or.inl rfl⟩
    · cases same
      exact ⟨t.toList, ['\n'], by simp, written_str.1 h, Or.inr rfl⟩

/-- Reading a name succeeds on what is taken for one. -/
theorem ofValue?_eq (h : Taken v) : ∃ s, ofValue? v = some s := by
  have text : ∃ s, v = .str s := by
    rcases h with ⟨s, rfl, -⟩ | ⟨s, -, rfl⟩
    · exact ⟨s, rfl⟩
    · exact ⟨_, rfl⟩
  obtain ⟨s, rfl⟩ := text
  exact ⟨s, by rw [ofValue?, if_pos (isValid_toList.2 h)]⟩

theorem ofValue?_eq_none (h : ¬ Taken v) : ofValue? v = none := by
  unfold ofValue?
  split
  · next s => rw [if_neg fun valid => h (isValid_toList.1 valid)]
  · rfl

end QualifiedName

namespace Config

open QualifiedName

variable {α β : Type} {right other : Prop}

/-- A check: it passes where everything is right, and refuses the configuration everywhere else. -/
structure Checks (right : Prop) (x : Except Failure α) : Prop where
  passes : right → ∃ a, x = .ok a
  refuses : ¬ right → ∃ cause, x = failConfig cause

namespace Checks

theorem pure (a : α) : Checks True (Pure.pure a : Except Failure α) :=
  ⟨fun _ => ⟨a, rfl⟩, fun h => absurd trivial h⟩

theorem fail (cause : ConfigError) : Checks False (failConfig cause : Except Failure α) :=
  ⟨False.elim, fun _ => ⟨cause, rfl⟩⟩

theorem congr {x : Except Failure α} (h : Checks right x) (same : right ↔ other) : Checks other x :=
  ⟨fun h' => h.passes (same.2 h'), fun h' => h.refuses fun h'' => h' (same.1 h'')⟩

theorem bind {x : Except Failure α} {f : α → Except Failure β} (hx : Checks right x)
    (hf : ∀ a, Checks other (f a)) : Checks (right ∧ other) (x >>= f) := by
  by_cases h : right
  · obtain ⟨a, rfl⟩ := hx.passes h
    exact (hf a).congr ⟨fun h' => ⟨h, h'⟩, And.right⟩
  · obtain ⟨cause, rfl⟩ := hx.refuses h
    exact (fail cause).congr ⟨False.elim, fun h' => h h'.1⟩

theorem map {x : Except Failure α} (f : α → β) (hx : Checks right x) : Checks right (do return f (← x)) :=
  (hx.bind fun _ => .pure _).congr (and_iff_left trivial)

theorem mapM {rights : α → Prop} {f : α → Except Failure β} (h : ∀ x, Checks (rights x) (f x)) (xs : List α) :
    Checks (∀ x ∈ xs, rights x) (xs.mapM f) := by
  induction xs with
  | nil => exact (Checks.pure []).congr (by simp)
  | cons x xs ih =>
    rw [List.mapM_cons]
    exact ((h x).bind fun y => ih.map (y :: ·)).congr List.forall_mem_cons.symm

/-- A check may stand for a stricter one where the two agree. -/
theorem iff_of {x : Except Failure α} (h : Checks right x) (stricter : other → right) :
    Checks other x ↔ (right → other) := by
  constructor
  · intro h' hr
    by_contra wrong
    obtain ⟨a, ha⟩ := h.passes hr
    obtain ⟨cause, hc⟩ := h'.refuses wrong
    rw [ha] at hc
    cases hc
  · exact fun same => h.congr ⟨same, stricter⟩

end Checks

/-- The values that have to be type names. -/
def typeTexts (es : Entries) : List Value := es.flatMap fun e => [.scalar e.1, e.2]

/-- The values that have to be packages. -/
def packageTexts (es : Entries) : List Value := es.map (·.2)

theorem typeNames_checks (es : Entries) : Checks (∀ v ∈ typeTexts es, Taken v) (typeNames es) := by
  have all : Checks (∀ e ∈ es, Taken (.scalar e.1) ∧ Taken e.2) (typeNames es) := by
    refine .mapM (fun (source, target) => ?_) es
    dsimp only
    by_cases hs : Taken (.scalar source)
    · obtain ⟨s, read⟩ := ofValue?_eq hs
      by_cases ht : Taken target
      · obtain ⟨t, read'⟩ := ofValue?_eq ht
        rw [read, read']
        exact (Checks.pure _).congr (by simp [hs, ht])
      · rw [read, ofValue?_eq_none ht]
        exact (Checks.fail _).congr (by simp [ht])
    · rw [ofValue?_eq_none hs]
      exact (Checks.fail _).congr (by simp [hs])
  refine all.congr ?_
  rw [typeTexts, List.forall_mem_flatMap]
  simp

theorem packages_checks (es : Entries) : Checks (∀ v ∈ packageTexts es, Taken v) (packages es) := by
  have all : Checks (∀ e ∈ es, Taken e.2) (packages es) := by
    refine .mapM (fun (_, package) => ?_) es
    dsimp only
    by_cases hp : Taken package
    · obtain ⟨p, read⟩ := ofValue?_eq hp
      rw [read]
      exact (Checks.pure _).congr (by simp [hp])
    · rw [ofValue?_eq_none hp]
      exact (Checks.fail _).congr (by simp [hp])
  exact all.congr List.forall_mem_map.symm

theorem types_checks (es : Entries) :
    Checks (∀ v ∈ typeTexts es, Taken v) (ofOptions [(.str "existing_java_types", .map es)]) :=
  (typeNames_checks es).map fun types => { existingTypes := types : Config }

theorem overrides_checks (es : Entries) :
    Checks (∀ v ∈ packageTexts es, Taken v) (ofOptions [(.str "package_overrides", .map es)]) :=
  (packages_checks es).map fun overrides => { packageOverrides := overrides : Config }

theorem Checks.written_iff {x : Except Failure α} {vs : List Value} (h : Checks (∀ v ∈ vs, Taken v) x) :
    Checks (∀ v ∈ vs, Written v) x ↔ ¬ ((∀ v ∈ vs, Taken v) ∧ ∃ v ∈ vs, Broken v) := by
  refine (h.iff_of fun written v hv => (QualifiedName.written_iff.1 (written v hv)).1).trans ?_
  constructor
  · rintro same ⟨taken, v, hv, broken⟩
    exact (QualifiedName.written_iff.1 (same taken v hv)).2 broken
  · intro none taken v hv
    exact QualifiedName.written_iff.2 ⟨taken v hv, fun broken => none ⟨taken, v, hv, broken⟩⟩

/-- A configuration takes existing types and packages exactly when each of them is a name of the grammar or such a name
and a line break, and refuses them with an error otherwise. That is what the grammar says, unless there is a line break
in what it takes. -/
theorem names_checked (es : Entries) :
    Checks (∀ v ∈ typeTexts es, Taken v) (ofOptions [(.str "existing_java_types", .map es)]) ∧
      Checks (∀ v ∈ packageTexts es, Taken v) (ofOptions [(.str "package_overrides", .map es)]) ∧
      (Checks (∀ v ∈ typeTexts es, Written v) (ofOptions [(.str "existing_java_types", .map es)]) ↔
        ¬ ((∀ v ∈ typeTexts es, Taken v) ∧ ∃ v ∈ typeTexts es, Broken v)) ∧
      (Checks (∀ v ∈ packageTexts es, Written v) (ofOptions [(.str "package_overrides", .map es)]) ↔
        ¬ ((∀ v ∈ packageTexts es, Taken v) ∧ ∃ v ∈ packageTexts es, Broken v)) :=
  ⟨types_checks es, overrides_checks es, (types_checks es).written_iff, (overrides_checks es).written_iff⟩

/-- A type name with a line break behind is taken, though it is no name. -/
theorem line_break_taken :
    (∃ c, ofOptions [(.str "existing_java_types", .map [(.str "v1.T\n", .str "org.test.T")])] = .ok c ∧
        c.existingTypes = [("v1.T\n", "org.test.T")]) ∧
      ¬ Written (.str "v1.T\n") ∧ Broken (.str "v1.T\n") := by
  have broken : Broken (.str "v1.T\n") := broken_str.2 (by decide)
  refine ⟨⟨_, rfl, rfl⟩, fun written => (QualifiedName.written_iff.1 written).2 broken, broken⟩

end Config

end ResourceCompiler
