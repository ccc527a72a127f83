import ResourceCompiler.Config
import ResourceCompiler.Proofs.Entries
import ResourceCompiler.Proofs.Success

/-!
# What makes a configuration

`Makes` says of options what `Config.ofOptions` asks of them and what it makes of them. A configuration
is made by its own options (`Makes.toOptions`), in whatever order they stand (`Makes.congr`). Keys spell
settings by their names or in other ways; the name of the custom mapping has no other spelling.
-/

namespace ResourceCompiler.Config

variable {options : Entries} {c : Config}

/-- What options have to be like to make a configuration. -/
structure Makes (options : Entries) (c : Config) : Prop where
  fields : ∀ e ∈ options, isField e.1 = true
  existingTypes : (mappingOption options "existing_java_types" >>= typeNames) = .ok c.existingTypes
  packageOverrides : (mappingOption options "package_overrides" >>= packages) = .ok c.packageOverrides
  custom : mappingOption options "custom" = .ok c.custom
  maxDepth : depthLimit ((options.find? (.str "max_depth")).getD (.int 64)) = .ok c.maxDepth
  preservesUnknown : (options.find? (.str "preserve_unknown_fields")).getD (.bool false) = c.preservesUnknown
  enumUppercase : (options.find? (.str "enum_uppercase")).getD (.bool true) = c.enumUppercase
  generatedAnnotations : (options.find? (.str "generated_annotations")).getD (.bool true) = c.generatedAnnotations
  addComments : (options.find? (.str "add_comments")).getD (.bool true) = c.addComments
  indentSize : (options.find? (.str "indent_size")).getD (.int 4) = c.indentSize

theorem ofOptions_eq_ok : ofOptions options = .ok c ↔ Makes options c := by
  have fields : (options.any fun e => !isField e.1) = true ↔ ¬ ∀ e ∈ options, isField e.1 = true := by
    simp
  unfold ofOptions
  constructor
  · intro h
    split at h
    · cases h
    · next known =>
      rw [fields, not_not] at known
      simp only [bind_eq_ok, pure_eq_ok] at h
      obtain ⟨existing, he, overrides, ho, custom, hc, types, ht, ps, hp, depth, hd, rfl⟩ := h
      exact ⟨known, bind_eq_ok.2 ⟨_, he, ht⟩, bind_eq_ok.2 ⟨_, ho, hp⟩, hc, hd, rfl, rfl, rfl, rfl, rfl⟩
  · intro h
    obtain ⟨existing, he, ht⟩ := bind_eq_ok.1 h.existingTypes
    obtain ⟨overrides, ho, hp⟩ := bind_eq_ok.1 h.packageOverrides
    rw [if_neg (by rw [fields, not_not]; exact h.fields)]
    simp only [bind_eq_ok, pure_eq_ok]
    refine ⟨existing, he, overrides, ho, c.custom, h.custom, c.existingTypes, ht, c.packageOverrides, hp,
      c.maxDepth, h.maxDepth, ?_⟩
    rw [h.preservesUnknown, h.enumUppercase, h.generatedAnnotations, h.addComments, h.indentSize]

/-- What makes a configuration makes it in another order, too. -/
theorem Makes.congr {options' : Entries} (h : Makes options c) (fields : ∀ e ∈ options', isField e.1 = true)
    (same : ∀ name ∈ fieldNames, name ≠ "custom" → options'.find? (.str name) = options.find? (.str name))
    (custom : mappingOption options' "custom" = .ok c.custom) : Makes options' c where
  fields := fields
  custom := custom
  existingTypes := by
    rw [← h.existingTypes, mappingOption, mappingOption, same _ (by decide) (by decide)]
  packageOverrides := by
    rw [← h.packageOverrides, mappingOption, mappingOption, same _ (by decide) (by decide)]
  maxDepth := by rw [← h.maxDepth, same _ (by decide) (by decide)]
  preservesUnknown := by rw [← h.preservesUnknown, same _ (by decide) (by decide)]
  enumUppercase := by rw [← h.enumUppercase, same _ (by decide) (by decide)]
  generatedAnnotations := by rw [← h.generatedAnnotations, same _ (by decide) (by decide)]
  addComments := by rw [← h.addComments, same _ (by decide) (by decide)]
  indentSize := by rw [← h.indentSize, same _ (by decide) (by decide)]

theorem eq_str_of_ofValue? {v : Value} {s : String} (h : QualifiedName.ofValue? v = some s) : v = .str s := by
  unfold QualifiedName.ofValue? at h
  split at h
  · split at h
    · cases h
      rfl
    · cases h
  · cases h

/-- Names of types are what they are read from. -/
theorem textEntries_typeNames {es : Entries} {types : List (String × String)} (h : typeNames es = .ok types) :
    textEntries types = es := by
  refine map_eq_of_mapM_eq_ok h fun (source, target) pair made => ?_
  dsimp only at made
  split at made
  · next s t hs ht =>
    cases made
    rw [eq_str_of_ofValue? ht]
    cases eq_str_of_ofValue? hs
    rfl
  · cases made
  · cases made

theorem packageEntries_packages {es : Entries} {overrides : List (Scalar × String)}
    (h : packages es = .ok overrides) : packageEntries overrides = es := by
  refine map_eq_of_mapM_eq_ok h fun (group, package) pair made => ?_
  dsimp only at made
  split at made
  · next p hp =>
    cases made
    rw [eq_str_of_ofValue? hp]
  · cases made

theorem toScalar_depthLimit {v : Value} {depth : Limit} (h : depthLimit v = .ok depth) :
    .scalar depth.toScalar = v := by
  unfold depthLimit at h
  split at h
  · split at h
    · cases h
    · cases h
      rfl
  · cases h
    rfl
  · cases h

/-- A configuration passes its own checks. -/
theorem Makes.toOptions (h : Makes options c) : Makes c.toOptions c := by
  obtain ⟨existing, -, ht⟩ := bind_eq_ok.1 h.existingTypes
  obtain ⟨overrides, -, hp⟩ := bind_eq_ok.1 h.packageOverrides
  have types : typeNames (textEntries c.existingTypes) = .ok c.existingTypes := by
    rw [textEntries_typeNames ht, ht]
  have named : packages (packageEntries c.packageOverrides) = .ok c.packageOverrides := by
    rw [packageEntries_packages hp, hp]
  have depth : depthLimit (.scalar c.maxDepth.toScalar) = .ok c.maxDepth := by
    rw [toScalar_depthLimit h.maxDepth, h.maxDepth]
  refine ⟨by simp [Config.toOptions, isField, fieldNames], ?_, ?_, ?_, ?_, ?_, ?_, ?_, ?_, ?_⟩
  all_goals simp [mappingOption, Config.toOptions, Entries.find?, Scalar.same, types, named, depth, bind,
    Except.bind]

/-- Every setting that options have stands in the configuration as it was given. -/
theorem Makes.find?_toOptions (h : Makes options c) {name : String} {v : Value}
    (given : options.find? (.str name) = some v) (known : name ∈ fieldNames) :
    c.toOptions.find? (.str name) = some v := by
  -- an option is a mapping, the depth, or kept as it is given
  have mapping {name : String} {es : Entries} (option : mappingOption options name = .ok es)
      (given : options.find? (.str name) = some v) : v = .map es := by
    rw [mappingOption, given] at option
    cases v with
    | map es' => rw [Except.ok.inj option]
    | _ => cases option
  have switch {name : String} {standard actual : Value}
      (option : (options.find? (.str name)).getD standard = actual)
      (given : options.find? (.str name) = some v) : v = actual := by
    rw [← option, given]
    rfl
  simp only [fieldNames, List.mem_cons, List.not_mem_nil, or_false] at known
  rcases known with rfl | rfl | rfl | rfl | rfl | rfl | rfl | rfl | rfl
  · obtain ⟨existing, option, types⟩ := bind_eq_ok.1 h.existingTypes
    rw [mapping option given, ← textEntries_typeNames types]
    rfl
  · rw [switch h.preservesUnknown given]
    rfl
  · rw [switch h.enumUppercase given]
    rfl
  · obtain ⟨overrides, option, packages⟩ := bind_eq_ok.1 h.packageOverrides
    rw [mapping option given, ← packageEntries_packages packages]
    rfl
  · have depth := h.maxDepth
    rw [given] at depth
    rw [show v = .scalar c.maxDepth.toScalar from (toScalar_depthLimit depth).symm]
    rfl
  · rw [switch h.generatedAnnotations given]
    rfl
  · rw [switch h.addComments given]
    rfl
  · rw [switch h.indentSize given]
    rfl
  · rw [mapping h.custom given]
    rfl

/-! ### Keys -/

theorem aliases_lookup {name field : String} (h : aliases.lookup name = some field) :
    fieldNames.contains field = true ∧ field ≠ "custom" ∧ aliases.lookup field = none := by
  have all : ∀ p ∈ aliases, fieldNames.contains p.2 = true ∧ p.2 ≠ "custom" ∧ aliases.lookup p.2 = none := by
    decide
  obtain ⟨before, after, split, -⟩ := List.lookup_eq_some_iff.1 h
  exact all (name, field) (split ▸ List.mem_append_right _ List.mem_cons_self)

/-- A key spells itself or a setting other than the custom mapping. -/
theorem canonicalKey_eq (key : Scalar) :
    canonicalKey key = key ∨ ∃ field, canonicalKey key = .str field ∧ fieldNames.contains field = true ∧
      field ≠ "custom" ∧ aliases.lookup field = none := by
  cases key with
  | str s =>
    rw [canonicalKey]
    cases h : aliases.lookup s with
    | none => exact Or.inl rfl
    | some field => exact Or.inr ⟨field, rfl, aliases_lookup h⟩
  | _ => exact Or.inl rfl

theorem canonicalKey_canonicalKey (key : Scalar) : canonicalKey (canonicalKey key) = canonicalKey key := by
  rcases canonicalKey_eq key with same | ⟨field, spelled, -, -, last⟩
  · rw [same, same]
  · rw [spelled, canonicalKey, last]
    rfl

theorem canonicalKey_of_free {key : Scalar} (h : isField (canonicalKey key) = false) :
    canonicalKey key = key := by
  rcases canonicalKey_eq key with same | ⟨field, spelled, known, -⟩
  · exact same
  · rw [spelled, isField, known] at h
    cases h

theorem isField_canonicalKey {key : Scalar} (h : isField key = true) : isField (canonicalKey key) = true := by
  rcases canonicalKey_eq key with same | ⟨field, spelled, known, -⟩
  · rw [same, h]
  · rw [spelled, isField, known]

theorem canonicalKey_eq_custom {key : Scalar} : canonicalKey key = .str "custom" ↔ key = .str "custom" := by
  constructor
  · intro h
    rcases canonicalKey_eq key with same | ⟨field, spelled, -, other, -⟩
    · rw [← same, h]
    · rw [spelled] at h
      cases h
      exact absurd rfl other
  · rintro rfl
    rfl

theorem isField_custom : isField (.str "custom") = true := by decide

end ResourceCompiler.Config
