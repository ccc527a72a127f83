import ResourceCompiler.Proofs.Resolver.Closed
import ResourceCompiler.Proofs.Resolver.Fields

/-!
# Accessors

The getter and the setter of a field are named after its identifier with the first letter capitalized.
The identifiers of a class are distinct, so that two accessors share a name exactly when two identifiers
differ in the case of their first letter and nowhere else (`accessors_nodup_iff`).
-/

namespace ResourceCompiler

namespace Naming

/-- Some name that starts with a small letter is among the names with a capital one as well. -/
def differInCase (names : List String) : Bool :=
  names.any fun name =>
    name.toList.head?.any Char.isLower && names.contains (String.ofList (capitalize name.toList))

/-- Characters that are the same in upper case differ in their case only. -/
theorem eq_toUpper {c d : Char} (h : c.toUpper = d.toUpper) (hne : c ≠ d) :
    c.isLower = true ∧ d = c.toUpper ∨ d.isLower = true ∧ c = d.toUpper := by
  by_cases hc : c.isLower = true
  · by_cases hd : d.isLower = true
    · refine absurd ?_ hne
      have same := congrArg Char.toLower h
      rwa [Char.toLower_toUpper_eq_toLower, Char.toLower_toUpper_eq_toLower,
        Char.toLower_eq_of_not_isUpper (Char.not_isUpper_of_isLower hc),
        Char.toLower_eq_of_not_isUpper (Char.not_isUpper_of_isLower hd)] at same
    · rw [Char.toUpper_eq_of_not_isLower hd] at h
      exact .inl ⟨hc, h.symm⟩
  · rw [Char.toUpper_eq_of_not_isLower hc] at h
    by_cases hd : d.isLower = true
    · exact .inr ⟨hd, h⟩
    · rw [Char.toUpper_eq_of_not_isLower hd] at h
      exact absurd h hne

theorem capitalize_capitalize (cs : List Char) : capitalize (capitalize cs) = capitalize cs := by
  cases cs with
  | nil => rfl
  | cons c cs => rw [capitalize, capitalize, Char.toUpper_toUpper_eq_toUpper]

theorem capitalize_ne {cs : List Char} (h : cs.head?.any Char.isLower = true) : capitalize cs ≠ cs := by
  cases cs with
  | nil => cases h
  | cons c cs =>
    intro he
    have small : c.isLower = true := h
    rw [← (List.cons.inj he).1, Char.isLower_toUpper_eq_false] at small
    cases small

theorem eq_capitalize {cs ds : List Char} (h : capitalize cs = capitalize ds) (hne : cs ≠ ds) :
    cs.head?.any Char.isLower = true ∧ ds = capitalize cs ∨
      ds.head?.any Char.isLower = true ∧ cs = capitalize ds := by
  cases cs with
  | nil =>
    cases ds with
    | nil => exact absurd rfl hne
    | cons d ds => cases h
  | cons c cs =>
    cases ds with
    | nil => cases h
    | cons d ds =>
      obtain ⟨hc, rfl⟩ := List.cons.inj h
      rcases eq_toUpper hc (fun he => hne (he ▸ rfl)) with ⟨small, rfl⟩ | ⟨small, rfl⟩
      · exact .inl ⟨small, rfl⟩
      · exact .inr ⟨small, rfl⟩

theorem differInCase_iff {names : List String} :
    differInCase names = true ↔ ∃ name ∈ names, name.toList.head?.any Char.isLower = true ∧
      String.ofList (capitalize name.toList) ∈ names := by
  simp only [differInCase, List.any_eq_true, Bool.and_eq_true, List.contains_iff_mem]

/-- Distinct names stay distinct when they are capitalized, unless two of them differ in case only. -/
theorem nodup_capitalize_iff {names : List String} (hn : names.Nodup) :
    (names.map fun name => capitalize name.toList).Nodup ↔ differInCase names = false := by
  rw [List.nodup_map_iff_inj_on hn, ← Bool.not_eq_true, differInCase_iff]
  constructor
  · rintro distinct ⟨name, hm, small, hu⟩
    have same := distinct name hm _ hu (by rw [String.toList_ofList, capitalize_capitalize])
    exact capitalize_ne small (by rw [same, String.toList_ofList, capitalize_capitalize])
  · intro apart name hm other ho h
    by_contra hne
    rcases eq_capitalize h (fun he => hne (String.toList_inj.1 he)) with ⟨small, he⟩ | ⟨small, he⟩
    · refine apart ⟨name, hm, small, ?_⟩
      rwa [← he, String.ofList_toList]
    · refine apart ⟨other, ho, small, ?_⟩
      rwa [← he, String.ofList_toList]

end Naming

theorem Resolver.Built.identifiers_nodup {r : Resolver} {t : ObjectType Descriptor} (h : r.Built t) :
    (t.fields.map (·.identifier)).Nodup := by
  cases h with
  | intro h _ => exact h.identifiers_nodup

theorem Resolver.Compiles.identifiers_nodup {r : Resolver} {c : Compilation} (h : r.Compiles c) :
    ∀ t ∈ c.topLevel, (t.fields.map (·.identifier)).Nodup := by
  intro t ht
  cases t with
  | object u => exact (h.built ht).identifiers_nodup
  | _ => exact List.nodup_nil

namespace Java

open Template

theorem accessor_nodup_iff (kind : String) {identifiers : List String} (hn : identifiers.Nodup) :
    (identifiers.map (accessor kind)).Nodup ↔ Naming.differInCase identifiers = false := by
  have injective : Function.Injective fun cs => kind ++ String.ofList cs := by
    intro cs ds h
    have := congrArg String.toList h
    simpa using this
  rw [← Naming.nodup_capitalize_iff hn, ← List.nodup_map_iff injective, List.map_map]
  rfl

/-- The template names the methods of a field as its accessors. -/
theorem fieldRecord_accessors {config : Config} {f : Field Descriptor} {record : Value}
    (h : fieldRecord config f = .ok record) (context : Context) :
    (ClassTemplate.field "getter").eval (("field", record) :: context) =
        .ok (.str (accessor "get" f.identifier)) ∧
      (ClassTemplate.field "setter").eval (("field", record) :: context) =
        .ok (.str (accessor "set" f.identifier)) := by
  unfold fieldRecord at h
  simp only [bind_eq_ok] at h
  obtain ⟨init, -, annotations, -, h⟩ := h
  cases h
  exact ⟨rfl, rfl⟩

/-- The getters of a class, and likewise its setters, have distinct names exactly when no two fields have
identifiers that differ in nothing but the case of their first letter. -/
theorem accessors_nodup_iff (config : Config) (c : Compilation)
    (h : (generator config).resolver.Compiles c) : ∀ t ∈ c.topLevel,
      (∀ f ∈ t.fields, ∀ record context, fieldRecord config f = .ok record →
        (ClassTemplate.field "getter").eval (("field", record) :: context) =
            .ok (.str (accessor "get" f.identifier)) ∧
          (ClassTemplate.field "setter").eval (("field", record) :: context) =
            .ok (.str (accessor "set" f.identifier))) ∧
      (t.fields.map (·.identifier)).Nodup ∧
      ∀ kind, (t.fields.map fun f => accessor kind f.identifier).Nodup ↔
        Naming.differInCase (t.fields.map (·.identifier)) = false := by
  intro t ht
  have distinct := h.identifiers_nodup t ht
  refine ⟨fun f _ record context hr => fieldRecord_accessors hr context, distinct, fun kind => ?_⟩
  rw [← accessor_nodup_iff kind distinct, List.map_map]
  rfl

/-- An object whose fields have all kinds of names, one of them reserved and one with a digit first. -/
def gaugeValue : Value :=
  .map [(.str "type", .str "object"), (.str "additionalProperties", .bool true),
    (.str "properties", .map [(.str "class", .map [(.str "type", .str "string")]),
      (.str "2nd", .map [(.str "type", .str "string")]), (.str "size", .map [(.str "type", .str "integer")]),
      (.str "maxSize", .map [(.str "type", .str "integer")])])]

theorem accessors_nodup_gauge : ∃ c t f record, (generator {}).resolver.Compiles c ∧ c.topLevel = [t] ∧
    t.fields.map (fun f => accessor "get" f.identifier) =
      ["get_class", "get_2nd", "getSize", "getMaxSize", "getAdditionalProperties"] ∧
    (∀ kind, (t.fields.map fun f => accessor kind f.identifier).Nodup) ∧
    f ∈ t.fields ∧ fieldRecord {} f = .ok record ∧
      (ClassTemplate.field "getter").eval [("field", record)] = .ok (.str (accessor "get" f.identifier)) := by
  obtain ⟨c, t, f, record, hc, ht, getters, differ, hf, hr⟩ : ∃ c t f record,
      (generator {}).resolver.compileSchema gaugeValue "Gauge" (.str "io") = .ok c ∧ c.topLevel = [t] ∧
        t.fields.map (fun f => accessor "get" f.identifier) =
          ["get_class", "get_2nd", "getSize", "getMaxSize", "getAdditionalProperties"] ∧
        Naming.differInCase (t.fields.map (·.identifier)) = false ∧
        f ∈ t.fields ∧ fieldRecord {} f = .ok record :=
    ⟨_, _, _, _, rfl, rfl, by decide +kernel, by decide +kernel, .head _, rfl⟩
  obtain ⟨methods, -, distinct⟩ := accessors_nodup_iff {} c (.schema hc) t (ht ▸ List.mem_singleton_self t)
  exact ⟨c, t, f, record, .schema hc, ht, getters, fun kind => (distinct kind).2 differ, hf, hr,
    (methods f hf record [] hr).1⟩

/-- Two properties that are read as two fields with one name for their getters. -/
def twinValue : Value :=
  .map [(.str "type", .str "object"),
    (.str "properties", .map [(.str "size", .map [(.str "type", .str "integer")]),
      (.str "Size", .map [(.str "type", .str "integer")])])]

theorem accessors_clash_twin : ∃ c t,
    (generator {}).resolver.compileSchema twinValue "Disk" (.str "io") = .ok c ∧ c.topLevel = [t] ∧
      t.fields.map (fun f => accessor "get" f.identifier) = ["getSize", "getSize"] ∧
      t.fields.map (fun f => accessor "set" f.identifier) = ["setSize", "setSize"] ∧
      ¬ (t.fields.map fun f => accessor "get" f.identifier).Nodup :=
  ⟨_, _, rfl, rfl, by decide +kernel, by decide +kernel, by decide +kernel⟩

end Java

end ResourceCompiler
