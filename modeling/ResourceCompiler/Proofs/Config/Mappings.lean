import ResourceCompiler.Proofs.Config.Load
import ResourceCompiler.Proofs.Config.Names

/-!
# Options that are no mappings

Existing types, package overrides and custom entries have to be mappings. That is checked when a configuration
is made, and refused with an error of its own. Options that name no setting are put into the custom mapping
before, so in their presence the custom option is taken for whatever mapping can be made of it: where none can
be made of it, loading stops at a fault, and where one can, the check never sees what was given
(`load_unmapped_iff`).
-/

namespace ResourceCompiler.Config

/-- The settings that have to be mappings. -/
def mappingNames : List String := ["existing_java_types", "package_overrides", "custom"]

/-- An option that is given and is no mapping. -/
def Unmapped (options : Entries) (name : String) : Prop :=
  ∃ v, options.find? (.str name) = some v ∧ v.isMap = false

/-- Every option names a setting. -/
def Closed (options : Entries) : Prop := ∀ e ∈ options, isField e.1 = true

/-- The mapping that the custom option is taken for beside options that name no setting. -/
def customMapping (options : Entries) : Except Fault Entries :=
  toMapping ((options.find? (.str "custom")).getD (.map []))

/-- The settings beside the custom mapping are as a configuration has them. -/
structure OthersFit (options : Entries) : Prop where
  existingTypes : ∃ types, (mappingOption options "existing_java_types" >>= typeNames) = .ok types
  packageOverrides : ∃ overrides, (mappingOption options "package_overrides" >>= packages) = .ok overrides
  maxDepth : ∃ depth, depthLimit ((options.find? (.str "max_depth")).getD (.int 64)) = .ok depth

variable {options options' base f c : Entries} {config : Config} {name : String}

theorem Unmapped.ne_ok (h : Unmapped options name) (es : Entries) : mappingOption options name ≠ .ok es := by
  obtain ⟨v, given, other⟩ := h
  intro option
  rw [mappingOption, given] at option
  cases v with
  | map _ => cases other
  | _ => cases option

theorem OthersFit.congr (h : OthersFit options)
    (same : ∀ name ∈ fieldNames, name ≠ "custom" → options'.find? (.str name) = options.find? (.str name)) :
    OthersFit options' where
  existingTypes := by
    rw [mappingOption, same _ (by decide) (by decide)]
    exact h.existingTypes
  packageOverrides := by
    rw [mappingOption, same _ (by decide) (by decide)]
    exact h.packageOverrides
  maxDepth := by
    rw [same _ (by decide) (by decide)]
    exact h.maxDepth

/-! ### What a configuration asks of its settings -/

theorem known_iff : ¬ (options.any fun e => !isField e.1) = true ↔ Closed options := by
  simp [Closed]

theorem exists_ofOptions (closed : Closed options) : (∃ config, ofOptions options = .ok config) ↔
    OthersFit options ∧ ∃ m, mappingOption options "custom" = .ok m := by
  constructor
  · rintro ⟨config, h⟩
    have made := ofOptions_eq_ok.1 h
    exact ⟨⟨⟨_, made.existingTypes⟩, ⟨_, made.packageOverrides⟩, ⟨_, made.maxDepth⟩⟩, _, made.custom⟩
  · rintro ⟨⟨⟨_, types⟩, ⟨_, overrides⟩, ⟨_, depth⟩⟩, m, custom⟩
    obtain ⟨existing, he, ht⟩ := bind_eq_ok.1 types
    obtain ⟨packaged, hp, ho⟩ := bind_eq_ok.1 overrides
    unfold ofOptions
    rw [if_neg (known_iff.2 closed)]
    simp only [bind_eq_ok, pure_eq_ok]
    exact ⟨_, existing, he, packaged, hp, m, custom, _, ht, _, ho, _, depth, rfl⟩

/-- A failure that refuses a configuration. -/
def Refusal (e : Failure) : Prop := ∃ cause, e = .generator (.config cause)

section

variable {α : Type} {x : Except Failure α}

theorem Checks.onlyFails {right : Prop} (h : Checks right x) : OnlyFails Refusal x := by
  intro e he
  by_cases hr : right
  · obtain ⟨a, ha⟩ := h.passes hr
    rw [he] at ha
    cases ha
  · obtain ⟨cause, hc⟩ := h.refuses hr
    rw [he] at hc
    exact ⟨cause, Except.error.inj hc⟩

theorem checks_of_onlyFails (h : OnlyFails Refusal x) : Checks (∃ a, x = .ok a) x := by
  refine ⟨id, fun none => ?_⟩
  cases x with
  | ok a => exact absurd ⟨a, rfl⟩ none
  | error e =>
    obtain ⟨cause, rfl⟩ := h e rfl
    exact ⟨cause, rfl⟩

end

theorem mappingOption_onlyFails : OnlyFails Refusal (mappingOption options name) := by
  unfold mappingOption
  split
  · exact .ok _
  · exact .ok _
  · exact .error ⟨_, rfl⟩

/-- An option that is no mapping is refused by its name. -/
theorem mappingOption_error {e : Failure} (h : mappingOption options name = .error e) :
    ∃ v, options.find? (.str name) = some v ∧ v.isMap = false ∧ e = .generator (.config (.notMapping name v)) := by
  unfold mappingOption at h
  split at h
  · cases h
  · cases h
  · next v other given =>
    refine ⟨v, given, ?_, (Except.error.inj h).symm⟩
    cases v with
    | map es => exact absurd rfl (other es)
    | _ => rfl

theorem depthLimit_onlyFails {v : Value} : OnlyFails Refusal (depthLimit v) := by
  unfold depthLimit
  split
  · split
    · exact .error ⟨_, rfl⟩
    · exact .ok _
  · exact .ok _
  · exact .error ⟨_, rfl⟩

/-- Settings make a configuration or are refused. -/
theorem ofOptions_checks (closed : Closed options) :
    Checks (OthersFit options ∧ ∃ m, mappingOption options "custom" = .ok m) (ofOptions options) := by
  refine (checks_of_onlyFails ?_).congr (exists_ofOptions closed)
  unfold ofOptions
  rw [if_neg (known_iff.2 closed)]
  refine .bind mappingOption_onlyFails fun existing _ => .bind mappingOption_onlyFails fun overrides _ =>
    .bind mappingOption_onlyFails fun custom _ => ?_
  exact .bind (typeNames_checks existing).onlyFails fun _ _ => .bind (packages_checks overrides).onlyFails fun _ _ =>
    .bind depthLimit_onlyFails fun _ _ => .ok _

/-! ### Options beside settings -/

/-- The settings with a custom mapping that has the other options as well. -/
def withLoose (options m : Entries) : Entries :=
  Entries.insert (options.filter (isField ·.1)) (.str "custom")
    (.map (Entries.merge m (options.filter (!isField ·.1))))

theorem closed_withLoose (options m : Entries) : Closed (withLoose options m) := by
  intro e he
  rcases Entries.mem_insert_str he with he | rfl
  · exact (List.mem_filter.1 he).2
  · exact isField_custom

theorem find?_withLoose (options m : Entries) (known : name ∈ fieldNames) (other : name ≠ "custom") :
    (withLoose options m).find? (.str name) = options.find? (.str name) := by
  rw [withLoose, Entries.find?_insert_ne other,
    Entries.find?_filter (p := isField) (List.elem_eq_true_of_mem known : isField (.str name) = true)]

theorem othersFit_withLoose (options m : Entries) : OthersFit (withLoose options m) ↔ OthersFit options :=
  ⟨fun h => h.congr fun _ known other => (find?_withLoose options m known other).symm,
    fun h => h.congr fun _ known other => find?_withLoose options m known other⟩

/-- Whatever mapping the custom option is taken for passes the check. -/
theorem withLoose_checks (options m : Entries) : Checks (OthersFit options) (ofOptions (withLoose options m)) := by
  refine (ofOptions_checks (closed_withLoose options m)).congr ?_
  rw [othersFit_withLoose]
  exact and_iff_left ⟨_, mappingOption_of_find? (Entries.find?_insert_self _)⟩

theorem filter_eq_nil_iff : options.filter (!isField ·.1) = [] ↔ Closed options := by
  simp [Closed, List.filter_eq_nil_iff]

theorem ofMixed_closed (closed : Closed options) : ofMixed options = ofOptions options := by
  rw [ofMixed_eq, filter_eq_nil_iff.2 closed, List.filter_eq_self.2 closed]
  rfl

theorem ofMixed_loose (loose : ¬ Closed options) : ofMixed options =
    ((liftM (customMapping options) : Except Failure Entries) >>= fun m => ofOptions (withLoose options m)) := by
  rw [ofMixed_eq, if_neg (by rwa [List.isEmpty_iff, filter_eq_nil_iff])]
  rfl

/-- A run is refused for an option that is no mapping. -/
def RefusedFor (options : Entries) (x : Except Failure Config) : Prop :=
  ∃ name ∈ mappingNames, ∃ v, options.find? (.str name) = some v ∧ v.isMap = false ∧
    x = failConfig (.notMapping name v)

theorem RefusedFor.cause {x : Except Failure Config} (h : RefusedFor options x) : ∃ cause, x = failConfig cause := by
  obtain ⟨_, _, v, _, _, outcome⟩ := h
  exact ⟨_, outcome⟩

/-- Among settings the first option that is no mapping is refused, before any other check. -/
theorem ofOptions_unmapped (closed : Closed options) (named : name ∈ mappingNames)
    (unmapped : Unmapped options name) : RefusedFor options (ofOptions options) := by
  have refused {first : String} {e : Failure} (listed : first ∈ mappingNames)
      (failed : mappingOption options first = .error e) (outcome : ofOptions options = .error e) :
      RefusedFor options (ofOptions options) := by
    obtain ⟨v, given, other, rfl⟩ := mappingOption_error failed
    exact ⟨first, listed, v, given, other, outcome⟩
  have run := ofOptions.eq_1 options
  rw [if_neg (known_iff.2 closed)] at run
  cases existing : mappingOption options "existing_java_types" with
  | error e =>
    rw [existing] at run
    exact refused (by decide) existing run
  | ok types =>
    cases packaged : mappingOption options "package_overrides" with
    | error e =>
      rw [existing, packaged] at run
      exact refused (by decide) packaged run
    | ok overrides =>
      cases custom : mappingOption options "custom" with
      | error e =>
        rw [existing, packaged, custom] at run
        exact refused (by decide) custom run
      | ok m =>
        simp only [mappingNames, List.mem_cons, List.not_mem_nil, or_false] at named
        rcases named with rfl | rfl | rfl
        · exact absurd existing (unmapped.ne_ok types)
        · exact absurd packaged (unmapped.ne_ok overrides)
        · exact absurd custom (unmapped.ne_ok m)

/-- What becomes of an option that is no mapping. -/
theorem ofMixed_cases (named : name ∈ mappingNames) (unmapped : Unmapped options name) :
    (Closed options ∧ RefusedFor options (ofMixed options)) ∨
      (∃ fault, ¬ Closed options ∧ customMapping options = .error fault ∧
        ofMixed options = .error (.fault fault)) ∨
      ∃ m, ¬ Closed options ∧ customMapping options = .ok m ∧ Checks (OthersFit options) (ofMixed options) := by
  by_cases closed : Closed options
  · rw [ofMixed_closed closed]
    exact Or.inl ⟨closed, ofOptions_unmapped closed named unmapped⟩
  · rw [ofMixed_loose closed]
    cases made : customMapping options with
    | error fault => exact Or.inr (Or.inl ⟨fault, closed, rfl, rfl⟩)
    | ok m => exact Or.inr (Or.inr ⟨m, closed, rfl, withLoose_checks options m⟩)

/-- Where an option that has to be a mapping is none, a configuration is refused for it among settings alone;
beside other options loading ends with the fault of making a mapping of the custom option, and where that
succeeds the configuration depends on the other settings. -/
theorem load_unmapped_iff {files : FileTree} {language file : Value} (defaults : defaultsOf language = .ok base)
    (read : fileOptions files file = .ok f) (named : name ∈ mappingNames)
    (unmapped : Unmapped (layered base f c) name) :
    ((∃ cause, load files language (.map c) file = failConfig cause) ↔ Closed (layered base f c) ∨
        (∃ m, customMapping (layered base f c) = .ok m) ∧ ¬ OthersFit (layered base f c)) ∧
      (Closed (layered base f c) → RefusedFor (layered base f c) (load files language (.map c) file)) ∧
      (∀ fault, load files language (.map c) file = .error (.fault fault) ↔
        ¬ Closed (layered base f c) ∧ customMapping (layered base f c) = .error fault) ∧
      ((∃ config, load files language (.map c) file = .ok config) ↔
        ¬ Closed (layered base f c) ∧ (∃ m, customMapping (layered base f c) = .ok m) ∧
          OthersFit (layered base f c)) := by
  have merged : load files language (.map c) file = ofMixed (layered base f c) := by
    rw [load_eq language read c, defaults]
    rfl
  rw [merged]
  rcases ofMixed_cases named unmapped with ⟨closed, refused⟩ | ⟨fault, loose, made, stopped⟩ |
    ⟨m, loose, made, checks⟩
  · obtain ⟨cause, outcome⟩ := refused.cause
    refine ⟨⟨fun _ => Or.inl closed, fun _ => ⟨cause, outcome⟩⟩, fun _ => refused, ?_, ?_⟩
    · simp [outcome, closed, failConfig]
    · simp [outcome, closed, failConfig]
  · simp [stopped, loose, made, failConfig]
  · by_cases fit : OthersFit (layered base f c)
    · obtain ⟨config, accepted⟩ := checks.passes fit
      simp [accepted, loose, made, fit, failConfig]
    · obtain ⟨cause, refused⟩ := checks.refuses fit
      simp [refused, loose, made, fit, failConfig]

/-- Packages that are none beside a custom list of pairs. -/
def pairedOptions : Entries :=
  [(.str "packageOverrides", .str "io"), (.str "custom", .list [.list [.str "footer", .bool true]])]

/-- The file has an option that names no setting, and the packages are refused all the same. -/
theorem load_unmapped_packages :
    Unmapped (layered [] headerOptions pairedOptions) "package_overrides" ∧
      Unmapped (layered [] headerOptions pairedOptions) "custom" ∧
      ∃ cause, load headerFile (.str "kotlin") (.map pairedOptions) (.str "c.json") = failConfig cause := by
  have packages : Unmapped (layered [] headerOptions pairedOptions) "package_overrides" := ⟨_, rfl, rfl⟩
  have defaults : defaultsOf (.str "kotlin") = .ok [] := rfl
  have outcome := load_unmapped_iff defaults fileOptions_header (by decide) packages
  refine ⟨packages, ⟨_, rfl, rfl⟩, outcome.1.2 (Or.inr ⟨⟨_, rfl⟩, fun fit => ?_⟩)⟩
  obtain ⟨_, made⟩ := fit.packageOverrides
  cases made

/-- Beside an option that names no setting, a custom number ends loading with a fault, and a custom list of
pairs is taken for a mapping. -/
theorem load_unmapped_custom :
    Unmapped (layered [] [] [(.str "custom", .int 5), (.str "footer", .bool true)]) "custom" ∧
      load ⟨[]⟩ (.str "kotlin") (.map [(.str "custom", .int 5), (.str "footer", .bool true)]) .null =
        .error (.fault .notIterable) ∧
      Unmapped (layered [] [] [(.str "custom", .list [.list [.str "header", .null]]), (.str "footer", .bool true)])
        "custom" ∧
      load ⟨[]⟩ (.str "kotlin")
          (.map [(.str "custom", .list [.list [.str "header", .null]]), (.str "footer", .bool true)]) .null =
        .ok { custom := [(.str "header", .null), (.str "footer", .bool true)] } :=
  ⟨⟨_, rfl, rfl⟩, rfl, ⟨_, rfl, rfl⟩, rfl⟩

end ResourceCompiler.Config
