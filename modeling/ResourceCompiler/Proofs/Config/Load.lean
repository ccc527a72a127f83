import ResourceCompiler.Proofs.Config.Store

/-!
# Explicit options over a file

Loading merges the defaults of a language, a file and explicit options by their keys, and takes what
names no setting for custom entries only after that. Every setting that is given explicitly stands in the
configuration, and so does every custom entry that is given as an option of its own. One that is given
inside the custom mapping stands there unless the file has an option of the same key with another value
(`load_explicit_iff`): of two options of one layer the entry outside the mapping wins, and which layer it
is from is no longer known.
-/

namespace ResourceCompiler.Config

/-- The options of a file, none where no file is named. -/
def fileOptions (files : FileTree) (file : Value) : Except Failure Entries := do
  match ← pathOf? file with
  | some path => readOptions files path
  | none => return []

/-- What options give to a setting, under the spelling of it that stands last. -/
def given? (options : Entries) (name : String) : Option Value :=
  (options.reverse.find? fun e => canonicalKey e.1 = .str name).map (·.2)

/-- What options have under a key of their own that spells no setting. -/
def loose? (options : Entries) (key : Scalar) : Option Value :=
  Entries.find? (options.filter fun e => !isField (canonicalKey e.1)).reverse key

/-- What options have under a key of their custom mapping. -/
def inner? (options : Entries) (key : Scalar) : Option Value := do
  let custom ← given? options "custom"
  let mapping ← (toMapping custom).toOption
  mapping.find? key

/-- The custom entry of a key: an option of its own before one inside the custom mapping. -/
def customOf? (options : Entries) (key : Scalar) : Option Value :=
  (loose? options key).or (inner? options key)

variable {options base f c : Entries} {config : Config} {key k : Scalar} {name : String}

theorem isField_same (h : key.same k = true) : isField key = isField k := by
  cases k with
  | str s => rw [Scalar.same_str h]
  | _ =>
    cases key with
    | str s => rw [Scalar.same_str (Scalar.same_symm h)]
    | _ => rfl

/-! ### What the options of one layer give -/

theorem find?_renamed (es : Entries) (name : String) :
    Entries.find? (renamed es) (.str name) =
      (List.find? (fun e => canonicalKey e.1 = .str name) es).map (·.2) := by
  induction es with
  | nil => rfl
  | cons e es ih =>
    rw [renamed, List.map_cons, Entries.find?, List.find?_cons]
    by_cases here : canonicalKey e.1 = .str name
    · simp [here, Entries.same_str_iff]
    · rw [if_neg (mt Entries.same_str_iff.1 here), decide_eq_false here]
      exact ih

theorem find?_normalize (options : Entries) (name : String) :
    (normalize options).find? (.str name) = given? options name := by
  rw [normalize_eq, Entries.find?_merge, renamed, ← List.map_reverse, ← renamed, find?_renamed]
  exact Option.or_none

theorem find?_renamed_loose (es : Entries) (free : isField key = false) :
    Entries.find? (renamed es) key = Entries.find? (es.filter fun e => !isField (canonicalKey e.1)) key := by
  induction es with
  | nil => rfl
  | cons e es ih =>
    rw [renamed, List.map_cons, Entries.find?, List.filter_cons]
    cases spells : isField (canonicalKey e.1) with
    | true =>
      have other : (canonicalKey e.1).same key = false := by
        refine Bool.eq_false_iff.2 fun same => ?_
        rw [isField_same same, free] at spells
        cases spells
      rw [other]
      exact ih
    | false =>
      rw [Bool.not_false, if_pos rfl, Entries.find?, canonicalKey_of_free spells]
      exact congrArg _ ih

theorem find?_normalize_loose (options : Entries) (free : isField key = false) :
    (normalize options).find? key = loose? options key := by
  rw [normalize_eq, Entries.find?_merge, renamed, ← List.map_reverse, ← renamed, find?_renamed_loose _ free,
    loose?, List.filter_reverse]
  exact Option.or_none

/-- No key that spells nothing is the name of a setting. -/
theorem loose?_eq_none (options : Entries) (field : isField key = true) : loose? options key = none := by
  refine Entries.find?_eq_none_iff.2 fun e he => Bool.eq_false_iff.2 fun same => ?_
  have spells := (List.mem_filter.1 (List.mem_reverse.1 he)).2
  rw [isField_canonicalKey ((isField_same same).trans field)] at spells
  cases spells

theorem apart_normalize (options : Entries) : (normalize options).Apart :=
  Entries.Apart.nil.merge _

/-! ### What the merged options give -/

/-- Options of a file and explicit ones over defaults. -/
def layered (base f c : Entries) : Entries :=
  Entries.merge (Entries.merge base (normalize f)) (normalize c)

theorem find?_layered : (layered base f c).find? key =
    ((normalize c).find? key).or (((normalize f).find? key).or (base.find? key)) := by
  rw [layered, Entries.find?_merge, Entries.find?_merge, (apart_normalize c).find?_reverse,
    (apart_normalize f).find?_reverse]

/-- Settings that options have stand in the configuration that they make. -/
theorem find?_of_ofMixed (h : ofMixed options = .ok config) {v : Value}
    (given : options.find? (.str name) = some v) (known : name ∈ fieldNames) (other : name ≠ "custom") :
    config.toOptions.find? (.str name) = some v := by
  have field : isField (.str name) = true := List.elem_eq_true_of_mem known
  have kept : Entries.find? (options.filter (isField ·.1)) (.str name) = some v := by
    rw [Entries.find?_filter (p := isField) field, given]
  rw [ofMixed_eq] at h
  split at h
  · exact (ofOptions_eq_ok.1 h).find?_toOptions kept known
  · obtain ⟨m, -, h⟩ := bind_eq_ok.1 h
    refine (ofOptions_eq_ok.1 h).find?_toOptions ?_ known
    rw [Entries.find?_insert_ne other, kept]

/-- Custom entries are the options that name no setting, and then what the custom mapping has. -/
theorem find?_custom_of_ofMixed (apart : options.Apart) (h : ofMixed options = .ok config) :
    ∃ m, toMapping ((Entries.find? options (.str "custom")).getD (.map [])) = .ok m ∧ ∀ key,
      config.custom.find? key = (if isField key then none else options.find? key).or (m.find? key) := by
  obtain ⟨m, made, custom⟩ := custom_of_ofMixed h
  refine ⟨m, made, fun key => ?_⟩
  rw [custom, Entries.find?_merge, (apart.filter _).find?_reverse]
  congr 1
  cases field : isField key with
  | true =>
    refine Entries.find?_eq_none_iff.2 fun e he => Bool.eq_false_iff.2 fun same => ?_
    have free := (List.mem_filter.1 he).2
    rw [isField_same same, field] at free
    cases free
  | false =>
    refine Entries.find?_filter_same (p := (!isField ·)) fun l same => ?_
    rw [isField_same same, field]
    rfl

/-- Plain options have nothing under other keys than those of settings. -/
theorem Plain.find?_eq_none (plain : Plain base) (h : isField key = false ∨ key = .str "custom") :
    base.find? key = none := by
  refine Entries.find?_eq_none_iff.2 fun e he => Bool.eq_false_iff.2 fun same => ?_
  obtain ⟨known, other⟩ := plain e he
  rcases h with free | rfl
  · rw [isField_same same, free] at known
    cases known
  · exact other (Scalar.same_str same)

/-- The custom entries of both layers: options of their own, explicit ones first, and then what the custom
mapping has that was given last. -/
theorem find?_custom_layered (plain : Plain base) (apart : base.Apart)
    (h : ofMixed (layered base f c) = .ok config) :
    ∃ m, toMapping (((given? c "custom").or (given? f "custom")).getD (.map [])) = .ok m ∧
      ∀ key, config.custom.find? key = (loose? c key).or ((loose? f key).or (m.find? key)) := by
  obtain ⟨m, made, custom⟩ := find?_custom_of_ofMixed ((apart.merge _).merge _) h
  change toMapping (((layered base f c).find? _).getD _) = _ at made
  rw [find?_layered, find?_normalize, find?_normalize, plain.find?_eq_none (Or.inr rfl), Option.or_none] at made
  refine ⟨m, made, fun key => (custom key).trans ?_⟩
  cases field : isField key with
  | true =>
    rw [loose?_eq_none c field, loose?_eq_none f field]
    rfl
  | false =>
    change ((layered base f c).find? key).or _ = _
    rw [find?_layered, find?_normalize_loose c field, find?_normalize_loose f field,
      plain.find?_eq_none (Or.inl field), Option.or_none, Option.or_assoc]

/-! ### Loading -/

theorem fileOptions_str {files : FileTree} {file : String} (name : file ≠ "") :
    fileOptions files (.str file) = readOptions files (.ofString file) := by
  rw [fileOptions, pathOf?_str name]
  rfl

/-- Loading merges both layers over the defaults of the language. -/
theorem load_eq {files : FileTree} {file : Value} (language : Value) (read : fileOptions files file = .ok f)
    (c : Entries) : load files language (.map c) file =
      ((liftM (defaultsOf language) : Except Failure Entries) >>= fun base => ofMixed (layered base f c)) := by
  have explicit : (Value.map c).entriesOrNone = .ok c := by
    cases c <;> rfl
  unfold fileOptions at read
  simp only [bind_eq_ok, liftM_eq_ok] at read
  obtain ⟨path?, named, read⟩ := read
  unfold load
  rw [named, explicit]
  cases path? with
  | none =>
    cases read
    rfl
  | some path =>
    change readOptions files path = .ok f at read
    refine bind_congr fun base => ?_
    change (Except.map normalize (readOptions files path) >>= fun fromFile =>
      ofMixed (Entries.merge (Entries.merge base fromFile) (normalize c))) = _
    rw [read]
    rfl

/-- Explicit options win over those of a file, but for an entry inside the custom mapping where the file
has an option of its own of the same key. -/
theorem load_explicit_iff {files : FileTree} {language file : Value} {f c : Entries} {config : Config}
    (read : fileOptions files file = .ok f) (loaded : load files language (.map c) file = .ok config) :
    (∀ name ∈ fieldNames, name ≠ "custom" → ∀ v, given? c name = some v →
      config.toOptions.find? (.str name) = some v) ∧
    ∀ key v, customOf? c key = some v →
      (config.custom.find? key = some v ↔ loose? c key ≠ none ∨ ∀ w, loose? f key = some w → w = v) := by
  rw [load_eq language read c] at loaded
  obtain ⟨base, hbase, made⟩ := bind_eq_ok.1 loaded
  rw [liftM_eq_ok] at hbase
  obtain ⟨plain, apart⟩ := defaultsOf_ok hbase
  refine ⟨fun name known other v given => ?_, fun key v entry => ?_⟩
  · refine find?_of_ofMixed made ?_ known other
    rw [find?_layered, find?_normalize, given, Option.some_or]
  · obtain ⟨m, mapping, custom⟩ := find?_custom_layered plain apart made
    rw [custom]
    rw [customOf?] at entry
    cases own : loose? c key with
    | some w =>
      rw [own, Option.some_or] at entry
      simp [entry]
    | none =>
      -- the entry is inside the explicit custom mapping, which is then the one of the configuration
      rw [own, Option.none_or, inner?] at entry
      obtain ⟨mappingValue, given, entry⟩ := Option.bind_eq_some_iff.1 entry
      obtain ⟨m', made', entry⟩ := Option.bind_eq_some_iff.1 entry
      rw [given, Option.some_or, Option.getD_some] at mapping
      rw [toOption_eq_some, mapping] at made'
      cases made'
      rw [entry]
      cases loose? f key with
      | none => simp
      | some w => simp

/-- A file with a setting and an option that names none. -/
def headerText : String := "\x7b\"uppercaseEnums\": false, \"header\": \"file\"\x7d"

def headerFile : FileTree := ⟨[(["c.json"], .file headerText)]⟩

def headerOptions : Entries := [(.str "uppercaseEnums", .bool false), (.str "header", .str "file")]

theorem fileOptions_header : fileOptions headerFile (.str "c.json") = .ok headerOptions := by
  have object : Json.read headerText = .ok (.map headerOptions) := by cbv
  rw [fileOptions_str (by decide)]
  exact readOptions_eq_ok (by decide +kernel) (by decide +kernel) rfl object

/-- Explicit options in two spellings of one setting, and with custom entries inside and outside. -/
def explicitOptions : Entries :=
  [(.str "enum_uppercase", .null), (.str "enumUppercase", .bool true), (.str "header", .str "explicit"),
   (.str "custom", .map [(.str "header", .null), (.str "footer", .bool true)])]

def explicitConfig : Config where
  custom := [(.str "header", .str "explicit"), (.str "footer", .bool true)]

/-- The last spelling, the entry outside the custom mapping and the one that the file does not have win. -/
theorem load_explicit_header :
    load headerFile (.str "java") (.map explicitOptions) (.str "c.json") = .ok explicitConfig ∧
      explicitConfig.toOptions.find? (.str "enum_uppercase") = some (.bool true) ∧
      explicitConfig.custom.find? (.str "header") = some (.str "explicit") ∧
      explicitConfig.custom.find? (.str "footer") = some (.bool true) := by
  have loaded : load headerFile (.str "java") (.map explicitOptions) (.str "c.json") = .ok explicitConfig :=
    (load_eq (.str "java") fileOptions_header explicitOptions).trans rfl
  obtain ⟨settings, entries⟩ := load_explicit_iff fileOptions_header loaded
  refine ⟨loaded, settings "enum_uppercase" (by decide) (by decide) _ rfl, ?_, ?_⟩
  · exact (entries (.str "header") _ rfl).2 (Or.inl (Option.some_ne_none _))
  · have absent : loose? headerOptions (.str "footer") = none := rfl
    exact (entries (.str "footer") _ rfl).2 (Or.inr (by simp [absent]))

/-- An entry inside the explicit custom mapping loses to an option of the file. -/
theorem load_explicit_lost :
    load headerFile (.str "java") (.map [(.str "custom", .map [(.str "header", .str "explicit")])])
      (.str "c.json") =
        .ok { enumUppercase := .bool false, custom := [(.str "header", .str "file")] } ∧
      customOf? [(.str "custom", .map [(.str "header", .str "explicit")])] (.str "header") =
        some (.str "explicit") :=
  ⟨(load_eq (.str "java") fileOptions_header _).trans rfl, rfl⟩

end ResourceCompiler.Config
