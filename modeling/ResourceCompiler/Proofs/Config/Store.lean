import ResourceCompiler.Config.Store
import ResourceCompiler.Proofs.Config
import ResourceCompiler.Proofs.FileTree
import ResourceCompiler.Proofs.Json.Lines
import ResourceCompiler.Proofs.Json.RoundTrip

/-!
# Configurations saved and loaded

A file holds the settings under their spellings and the custom entries beside them, and is read back as
it was written (`readOptions_saved`). Reading tells settings from custom entries by their keys alone. So
what is loaded is what was saved just when no custom key spells a setting (`Free`) and all integers are
short enough to be written (`save_load_iff`): a custom entry under the spelling of a setting replaces the
setting, and one under the name of the custom mapping is taken for the mapping, which would have to
contain itself to come back.

The texts of a configuration are sequences of Unicode scalar values. One with a lone surrogate is none of them,
and saving never writes the escape of one.
-/

namespace ResourceCompiler.Config

variable {options : Entries} {c : Config}

/-! ### Files -/

/-- Options that are settings, without the custom mapping. -/
def Plain (base : Entries) : Prop := ∀ e ∈ base, isField e.1 = true ∧ e.1 ≠ .str "custom"

/-- Defaults are settings, each given once. -/
theorem defaultsOf_ok {language : Value} {base : Entries} (h : defaultsOf language = .ok base) :
    Plain base ∧ base.Apart := by
  have all : ∀ p ∈ defaults, (∀ e ∈ p.2, isField e.1 = true ∧ e.1 ≠ .str "custom") ∧
      (p.2.map Prod.fst).Pairwise fun k l => k.same l = false := by decide
  unfold defaultsOf at h
  obtain ⟨key, -, h⟩ := bind_eq_ok.1 h
  split at h
  · next name =>
    cases h
    cases found : defaults.lookup name with
    | none => exact ⟨fun e he => (List.not_mem_nil he).elim, .nil⟩
    | some base =>
      obtain ⟨before, after, split, -⟩ := List.lookup_eq_some_iff.1 found
      exact all (name, base) (split ▸ List.mem_append_right _ List.mem_cons_self)
  · cases h
    exact ⟨fun e he => (List.not_mem_nil he).elim, .nil⟩

theorem defaultsOf_eq (language : String) : ∃ base, defaultsOf (.str language) = .ok base ∧ Plain base := by
  have found : defaultsOf (.str language) = .ok ((defaults.lookup language).getD []) := rfl
  exact ⟨_, found, (defaultsOf_ok found).1⟩

variable {files files' : FileTree} {path : Path}

/-- The settings under their spellings in a file. -/
def spelled (c : Config) : Entries :=
  [(.str "existingJavaTypes", .map (textEntries c.existingTypes)),
   (.str "preserveUnknownFields", c.preservesUnknown),
   (.str "enumUppercase", c.enumUppercase),
   (.str "packageOverrides", .map (packageEntries c.packageOverrides)),
   (.str "maxDepth", .scalar c.maxDepth.toScalar),
   (.str "generatedAnnotations", c.generatedAnnotations),
   (.str "addComments", c.addComments),
   (.str "indentSize", c.indentSize)]

/-- The settings under their names, without the custom mapping. -/
def settings (c : Config) : Entries := c.toOptions.dropLast

theorem toOptions_eq (c : Config) : c.toOptions = c.settings ++ [(.str "custom", .map c.custom)] := rfl

/-- Entries under the names that their keys spell. -/
def renamed (es : Entries) : Entries := es.map fun e => (canonicalKey e.1, e.2)

theorem normalize_eq (es : Entries) : normalize es = Entries.merge [] (renamed es) := rfl

theorem renamed_spelled (c : Config) : renamed c.spelled = c.settings := rfl

theorem fileEntries_eq (c : Config) : c.fileEntries = Entries.merge c.spelled c.custom := rfl

theorem mem_toOptions {e : Scalar × Value} (h : e ∈ c.spelled) : (canonicalKey e.1, e.2) ∈ c.toOptions := by
  rw [toOptions_eq, ← renamed_spelled]
  exact List.mem_append_left _ (List.mem_map.2 ⟨e, h, rfl⟩)

theorem isJson_custom (json : Json.isJson (.map c.toOptions) = true) : Json.isJson (.map c.custom) = true :=
  (Json.isJson_map.1 json).2 (.str "custom", .map c.custom) (by rw [toOptions_eq]; simp)

theorem keys_custom (json : Json.isJson (.map c.toOptions) = true) :
    (∀ e ∈ c.custom, ∃ name, e.1 = .str name) ∧ (c.custom.map Prod.fst).Nodup :=
  (Json.isJson_map.1 (isJson_custom json)).1

theorem isJson_fileEntries (json : Json.isJson (.map c.toOptions) = true) :
    Json.isJson (.map c.fileEntries) = true := by
  obtain ⟨⟨texts, distinct⟩, values⟩ := Json.isJson_map.1 (isJson_custom json)
  have spelledTexts : ∀ e ∈ c.spelled, ∃ name, e.1 = .str name := by simp [spelled]
  have spelledDistinct : (c.spelled.map Prod.fst).Nodup := by simp [spelled]
  have spelledValues : ∀ e ∈ c.spelled, Json.isJson e.2 = true := fun e he =>
    (Json.isJson_map.1 json).2 (canonicalKey e.1, e.2) (mem_toOptions he)
  refine Json.isJson_map.2 ⟨⟨fun e he => ?_, Entries.nodup_merge texts spelledDistinct⟩, fun e he => ?_⟩
  · exact (Entries.mem_merge texts he).elim (spelledTexts e) (texts e)
  · exact (Entries.mem_merge texts he).elim (spelledValues e) (values e)

theorem save_eq_ok : c.save files path = .ok files' ↔
    ∃ text, Json.write Json.indented (.map c.fileEntries) = .ok text ∧ files.write path text = .ok files' := by
  unfold save
  rw [bind_eq_ok]
  simp only [liftM_eq_ok]
  refine exists_congr fun text => and_congr_right fun _ => ?_
  cases files.write path text <;> simp [failConfig, pure, Except.pure]

/-- The options of a file that holds an object. -/
theorem readOptions_eq_ok {text : String} {es : Entries} (there : files.contains path = true)
    (suffix : path.lowerSuffix = ".json") (content : files.read path = .ok text)
    (object : Json.read text = .ok (.map es)) : readOptions files path = .ok es := by
  unfold readOptions
  simp [there, suffix, content, object, pure, Except.pure]

/-- What is saved is read back. -/
theorem readOptions_saved (json : Json.isJson (.map c.toOptions) = true) (suffix : path.lowerSuffix = ".json")
    (saved : c.save files path = .ok files') : readOptions files' path = .ok c.fileEntries := by
  obtain ⟨text, written, stored⟩ := save_eq_ok.1 saved
  have plain : '\r' ∉ text.toList := by
    obtain ⟨cs, hcs, rfl⟩ := Json.write_eq_ok.1 written
    rw [String.toList_ofList]
    exact Json.not_mem_writeChars hcs
  obtain ⟨there, content⟩ := FileTree.read_written stored plain
  exact readOptions_eq_ok there suffix content (Json.read_write (isJson_fileEntries json) written)

theorem pathOf?_str {file : String} (name : file ≠ "") :
    pathOf? (.str file) = .ok (some (.ofString file)) := by
  simp [pathOf?, Value.truthy, Scalar.truthy, name]

/-- Loading a file without other options merges it into the defaults of the language. -/
theorem load_file (language : String) {file : String} {base es : Entries} (name : file ≠ "")
    (hb : defaultsOf (.str language) = .ok base) (hr : readOptions files (.ofString file) = .ok es) :
    load files (.str language) .null (.str file) = ofMixed (Entries.merge base (normalize es)) := by
  unfold load
  rw [hb, pathOf?_str name]
  simp [hr, normalize, Entries.merge, Value.entriesOrNone, Value.truthy, Scalar.truthy, bind, Except.bind,
    liftM, monadLift, MonadLift.monadLift, Except.mapError, Except.map]

/-! ### The custom mapping -/

theorem ofMixed_eq (options : Entries) : ofMixed options =
    if (options.filter (!isField ·.1)).isEmpty then ofOptions (options.filter (isField ·.1))
    else
      (liftM (toMapping ((Entries.find? options (.str "custom")).getD (.map []))) : Except Failure Entries)
          >>= fun m => ofOptions (Entries.insert (options.filter (isField ·.1)) (.str "custom")
          (.map (Entries.merge m (options.filter (!isField ·.1))))) := by
  unfold ofMixed
  rw [List.partition_eq_filter_filter, ← Entries.find?_filter (p := isField) isField_custom]
  rfl

theorem mappingOption_of_find? {name : String} {es : Entries} (h : options.find? (.str name) = some (.map es)) :
    mappingOption options name = .ok es := by
  rw [mappingOption, h]

/-- The custom mapping is what the options have as such, with the options that name no setting. -/
theorem custom_of_ofMixed (h : ofMixed options = .ok c) :
    ∃ m, toMapping ((Entries.find? options (.str "custom")).getD (.map [])) = .ok m ∧
      c.custom = Entries.merge m (options.filter (!isField ·.1)) := by
  rw [ofMixed_eq] at h
  split at h
  · next none =>
    rw [List.isEmpty_iff] at none
    have custom := (ofOptions_eq_ok.1 h).custom
    rw [mappingOption, Entries.find?_filter (p := isField) isField_custom] at custom
    rw [none]
    cases hf : Entries.find? options (.str "custom") with
    | none =>
      rw [hf] at custom
      exact ⟨[], rfl, (Except.ok.inj custom).symm⟩
    | some v =>
      rw [hf] at custom
      cases v with
      | map es => exact ⟨es, rfl, (Except.ok.inj custom).symm⟩
      | _ => cases custom
  · rw [bind_eq_ok] at h
    simp only [liftM_eq_ok] at h
    obtain ⟨m, hm, h⟩ := h
    have custom := (ofOptions_eq_ok.1 h).custom
    rw [mappingOption_of_find? (Entries.find?_insert_self _)] at custom
    exact ⟨m, hm, (Except.ok.inj custom).symm⟩

theorem sizeOf_lt_of_mem {es : Entries} {e : Scalar × Value} (h : e ∈ es) :
    sizeOf e.2 < sizeOf (Value.map es) := by
  have entry := List.sizeOf_lt_of_mem h
  obtain ⟨key, v⟩ := e
  simp only [Prod.mk.sizeOf_spec, Value.map.sizeOf_spec] at entry ⊢
  omega

/-- The value of a pair is a scalar or lies inside what the pair is read from. -/
theorem pairOf_value {v : Value} {pair : Scalar × Value} (h : pairOf v = .ok pair) :
    (∃ s, pair.2 = .scalar s) ∨ sizeOf pair.2 < sizeOf v := by
  unfold pairOf at h
  split at h
  · next k x elements =>
    simp only [bind_eq_ok, pure_eq_ok] at h
    obtain ⟨key, -, rfl⟩ := h
    unfold Value.elements at elements
    split at elements
    · cases elements
      right
      simp only [Value.list.sizeOf_spec, List.cons.sizeOf_spec, List.nil.sizeOf_spec]
      omega
    · left
      have mem : x ∈ _ := Except.ok.inj elements ▸ List.mem_cons_of_mem _ List.mem_cons_self
      obtain ⟨e, -, rfl⟩ := List.mem_map.1 mem
      exact ⟨_, rfl⟩
    · left
      have mem : x ∈ _ := Except.ok.inj elements ▸ List.mem_cons_of_mem _ List.mem_cons_self
      obtain ⟨e, -, rfl⟩ := List.mem_map.1 mem
      exact ⟨_, rfl⟩
    · cases elements
  · cases h
  · cases h

/-- No mapping that is made of a value has the value itself. -/
theorem not_mem_toMapping {v : Value} {m : Entries} (h : toMapping v = .ok m) {e : Scalar × Value} (he : e ∈ m) :
    e.2 ≠ v := by
  intro same
  -- what is in the mapping was a part of the value, and so is smaller
  unfold toMapping at h
  split at h
  · cases h
    have inside := sizeOf_lt_of_mem he
    rw [same] at inside
    exact absurd inside (lt_irrefl _)
  · next other =>
    simp only [bind_eq_ok, pure_eq_ok] at h
    obtain ⟨xs, elements, pairs, hp, rfl⟩ := h
    obtain ⟨pair, hpair, value⟩ := Entries.exists_of_mem_merge he
    rw [List.nil_append] at hpair
    obtain ⟨x, hx, made⟩ := exists_of_mem_right (mapM_eq_ok hp) hpair
    rw [same] at value
    unfold Value.elements at elements
    split at elements
    · cases elements
      rcases pairOf_value made with ⟨s, plain⟩ | inside
      · rw [plain] at value
        cases value
      · have smaller := List.sizeOf_lt_of_mem hx
        rw [value, Value.list.sizeOf_spec] at inside
        omega
    · exact other _ rfl
    · -- one character is no pair
      cases elements
      obtain ⟨c, -, rfl⟩ := List.mem_map.1 hx
      simp [pairOf, Value.elements] at made
    · cases elements

/-! ### Options read back -/

theorem texts_renamed {es : Entries} (texts : ∀ e ∈ es, ∃ name, e.1 = .str name) :
    ∀ e ∈ renamed es, ∃ name, e.1 = .str name := by
  intro e he
  obtain ⟨f, hf, rfl⟩ := List.mem_map.1 he
  obtain ⟨name, hn⟩ := texts f hf
  exact ⟨_, congrArg canonicalKey hn⟩

theorem find?_renamed_custom (es : Entries) :
    Entries.find? (renamed es) (.str "custom") = es.find? (.str "custom") := by
  induction es with
  | nil => rfl
  | cons e es ih =>
    have same : (canonicalKey e.1).same (.str "custom") = e.1.same (.str "custom") := by
      rw [Bool.eq_iff_iff, Entries.same_str_iff, Entries.same_str_iff, canonicalKey_eq_custom]
    rw [renamed, List.map_cons, Entries.find?, Entries.find?, same]
    split
    · rfl
    · exact ih

section

variable {base : Entries}

/-- The options that a saved configuration is made of, over defaults. -/
def reloaded (base : Entries) (c : Config) : Entries := Entries.merge base (normalize c.fileEntries)

theorem texts_normalize (json : Json.isJson (.map c.toOptions) = true) :
    ∀ e ∈ normalize c.fileEntries, ∃ name, e.1 = .str name := by
  have texts := texts_renamed (Json.isJson_map.1 (isJson_fileEntries json)).1.1
  intro e he
  rcases Entries.mem_merge texts he with he | he
  · cases he
  · exact texts e he

theorem find?_reloaded (json : Json.isJson (.map c.toOptions) = true) (name : String) :
    (reloaded base c).find? (.str name) =
      ((normalize c.fileEntries).find? (.str name)).or (base.find? (.str name)) := by
  have texts := texts_renamed (Json.isJson_map.1 (isJson_fileEntries json)).1.1
  have distinct : ((normalize c.fileEntries).map Prod.fst).Nodup := Entries.nodup_merge texts List.nodup_nil
  rw [reloaded, Entries.find?_merge, Entries.find?_reverse distinct]

/-- Under the name of the custom mapping stands what the custom mapping has there. -/
theorem find?_reloaded_custom (json : Json.isJson (.map c.toOptions) = true)
    (hb : Plain base) :
    (reloaded base c).find? (.str "custom") = c.custom.find? (.str "custom") := by
  obtain ⟨⟨texts, distinct⟩, -⟩ := Json.isJson_map.1 (isJson_fileEntries json)
  obtain ⟨customTexts, customDistinct⟩ := keys_custom json
  have default : base.find? (.str "custom") = none := Entries.find?_eq_none.2 fun e he => (hb e he).2
  have spelled : c.spelled.find? (.str "custom") = none := Entries.find?_eq_none.2 (by simp [spelled])
  have file : c.fileEntries.find? (.str "custom") = c.custom.find? (.str "custom") := by
    rw [fileEntries_eq, Entries.find?_merge, Entries.find?_reverse customDistinct, spelled,
      Option.or_none]
  rw [find?_reloaded json, default, Option.or_none, normalize_eq, Entries.find?_merge,
    renamed, ← List.map_reverse, ← renamed, find?_renamed_custom, Entries.find?_reverse distinct, file]
  exact Option.or_none

/-- Keys beside those of settings are texts and spell nothing but themselves. -/
theorem others_reloaded (json : Json.isJson (.map c.toOptions) = true)
    (hb : Plain base) :
    ∀ e ∈ (reloaded base c).filter (!isField ·.1),
      (∃ name, e.1 = .str name) ∧ isField e.1 = false ∧ canonicalKey e.1 = e.1 := by
  have texts := texts_renamed (Json.isJson_map.1 (isJson_fileEntries json)).1.1
  intro e he
  obtain ⟨he, other⟩ := List.mem_filter.1 he
  have other : isField e.1 = false := by simpa using other
  rcases Entries.mem_merge (texts_normalize json) he with he | he
  · rw [(hb e he).1] at other
    cases other
  · refine ⟨texts_normalize json e he, other, ?_⟩
    rcases Entries.mem_merge texts he with he | he
    · cases he
    · obtain ⟨f, -, rfl⟩ := List.mem_map.1 he
      exact canonicalKey_canonicalKey f.1

/-- No custom key spells a setting. -/
def Free (c : Config) : Prop := ∀ e ∈ c.custom, isField (canonicalKey e.1) = false

instance (c : Config) : Decidable c.Free := inferInstanceAs (Decidable (∀ e ∈ c.custom, _))

/-- A custom key that spells a setting does not come back. -/
theorem free_of_ofMixed (json : Json.isJson (.map c.toOptions) = true) (hb : Plain base)
    (h : ofMixed (reloaded base c) = .ok c) : c.Free := by
  obtain ⟨m, hm, custom⟩ := custom_of_ofMixed h
  have others := others_reloaded json hb
  rw [find?_reloaded_custom json hb] at hm
  cases hc : c.custom.find? (.str "custom") with
  | none =>
    rw [hc] at hm
    cases hm
    intro e he
    rw [custom] at he
    rcases Entries.mem_merge (fun e he => (others e he).1) he with he | he
    · cases he
    · obtain ⟨-, other, same⟩ := others e he
      rw [same, other]
  | some v =>
    -- the custom mapping would be made of a value that it holds
    rw [hc] at hm
    have absent : Entries.find? ((reloaded base c).filter (!isField ·.1)).reverse (.str "custom") = none :=
      Entries.find?_eq_none.2 fun e he same => by
        obtain ⟨-, other, -⟩ := others e (List.mem_reverse.1 he)
        rw [same, isField_custom] at other
        cases other
    rw [custom, Entries.find?_merge, absent, Option.none_or] at hc
    obtain ⟨e, he, value⟩ := Entries.mem_of_find? hc
    exact absurd value (not_mem_toMapping hm he)

theorem Free.key (free : c.Free) {e : Scalar × Value} (he : e ∈ c.custom) :
    canonicalKey e.1 = e.1 ∧ isField e.1 = false := by
  have same := canonicalKey_of_free (free e he)
  exact ⟨same, same ▸ free e he⟩

theorem isField_settings : ∀ e ∈ c.settings, isField e.1 = true := by
  simp [settings, toOptions, isField, fieldNames]

theorem isField_spelled : ∀ e ∈ c.spelled, isField (canonicalKey e.1) = true := fun e he =>
  isField_settings (canonicalKey e.1, e.2) (List.mem_map.2 ⟨e, he, rfl⟩ : _ ∈ renamed c.spelled)

/-- Keys that spell settings are no free keys. -/
theorem Free.nodup (free : c.Free) (json : Json.isJson (.map c.toOptions) = true) {es : Entries}
    (distinct : (es.map Prod.fst).Nodup) (known : ∀ e ∈ es, isField (canonicalKey e.1) = true) :
    ((es ++ c.custom).map Prod.fst).Nodup := by
  rw [List.map_append, List.nodup_append]
  refine ⟨distinct, (keys_custom json).2, fun k hk l hl same => ?_⟩
  obtain ⟨e, he, rfl⟩ := List.mem_map.1 hk
  obtain ⟨f, hf, rfl⟩ := List.mem_map.1 hl
  have spells := known e he
  rw [same, free f hf] at spells
  cases spells

/-- Free keys come after the settings in a file. -/
theorem Free.fileEntries_eq (free : c.Free) (json : Json.isJson (.map c.toOptions) = true) :
    c.fileEntries = c.spelled ++ c.custom :=
  Entries.merge_new (keys_custom json).1 (free.nodup json (by simp) isField_spelled)

/-- They are read back after the settings. -/
theorem Free.normalize_eq (free : c.Free) (json : Json.isJson (.map c.toOptions) = true) :
    normalize c.fileEntries = c.settings ++ c.custom := by
  have custom : renamed c.custom = c.custom := by
    refine (List.map_congr_left fun e he => ?_).trans (List.map_id _)
    rw [(free.key he).1]
    rfl
  have both : renamed (c.spelled ++ c.custom) = c.settings ++ c.custom := by
    rw [renamed, List.map_append]
    exact congrArg (c.settings ++ ·) custom
  have texts : ∀ e ∈ c.settings, ∃ name, e.1 = .str name := by simp [settings, toOptions]
  rw [Config.normalize_eq, free.fileEntries_eq json, both]
  exact Entries.merge_nil (List.forall_mem_append.2 ⟨texts, (keys_custom json).1⟩)
    (free.nodup json (by simp [settings, toOptions]) fun e he => isField_canonicalKey (isField_settings e he))

theorem exists_setting {name : String} (h : name ∈ fieldNames) (other : name ≠ "custom") :
    ∃ v, c.settings.find? (.str name) = some v := by
  rw [← Option.isSome_iff_exists]
  simp only [fieldNames, List.mem_cons, List.not_mem_nil, or_false] at h
  rcases h with rfl | rfl | rfl | rfl | rfl | rfl | rfl | rfl | rfl
  all_goals simp_all [settings, toOptions, Entries.find?, Scalar.same]

/-- Each setting is read back, whatever its default. -/
theorem Free.find?_reloaded (free : c.Free) (json : Json.isJson (.map c.toOptions) = true) {name : String}
    (h : name ∈ fieldNames) (other : name ≠ "custom") :
    (reloaded base c).find? (.str name) = c.toOptions.find? (.str name) := by
  obtain ⟨v, hv⟩ := exists_setting (c := c) h other
  rw [Config.find?_reloaded json, free.normalize_eq json, Entries.find?_append, hv, toOptions_eq,
    Entries.find?_append, hv]
  rfl

theorem Free.find?_custom (free : c.Free) (json : Json.isJson (.map c.toOptions) = true) (hb : Plain base) :
    (reloaded base c).find? (.str "custom") = none := by
  rw [find?_reloaded_custom json hb, Entries.find?_eq_none]
  intro e he key
  have other := (free.key he).2
  rw [key, isField_custom] at other
  cases other

/-- Free keys are all that is beside the settings. -/
theorem Free.others (free : c.Free) (json : Json.isJson (.map c.toOptions) = true) (hb : Plain base) :
    (reloaded base c).filter (!isField ·.1) = c.custom := by
  obtain ⟨texts, distinct⟩ := keys_custom json
  have none : base.filter (!isField ·.1) = [] := List.filter_eq_nil_iff.2 fun e he => by simp [(hb e he).1]
  have settings : c.settings.filter (!isField ·.1) = [] :=
    List.filter_eq_nil_iff.2 fun e he => by simp [isField_settings e he]
  have custom : c.custom.filter (!isField ·.1) = c.custom :=
    List.filter_eq_self.2 fun e he => by simp [(free.key he).2]
  rw [reloaded, Entries.filter_merge (!isField ·) (texts_normalize json), none, free.normalize_eq json,
    List.filter_append, settings, custom, List.nil_append, Entries.merge_nil texts distinct]

/-- Without such keys the file makes the configuration. -/
theorem ofMixed_of_free (made : Makes options c) (json : Json.isJson (.map c.toOptions) = true)
    (hb : Plain base) (free : c.Free) : ofMixed (reloaded base c) = .ok c := by
  have fields : ∀ e ∈ (reloaded base c).filter (isField ·.1), isField e.1 = true := fun e he =>
    (List.mem_filter.1 he).2
  have same : ∀ name ∈ fieldNames, name ≠ "custom" →
      Entries.find? ((reloaded base c).filter (isField ·.1)) (.str name) = c.toOptions.find? (.str name) := by
    intro name hn other
    have known : isField (.str name) = true := List.elem_eq_true_of_mem hn
    rw [Entries.find?_filter (p := isField) known, free.find?_reloaded json hn other]
  have absent := free.find?_custom json hb
  rw [ofMixed_eq, free.others json hb, absent]
  split
  · next empty =>
    rw [List.isEmpty_iff] at empty
    refine ofOptions_eq_ok.2 (made.toOptions.congr fields same ?_)
    rw [mappingOption, Entries.find?_filter (p := isField) isField_custom, absent, empty]
  · obtain ⟨texts, distinct⟩ := keys_custom json
    have made : Makes (Entries.insert ((reloaded base c).filter (isField ·.1)) (.str "custom") (.map c.custom))
        c := by
      refine made.toOptions.congr (fun e he => ?_) (fun name hn other => ?_)
        (mappingOption_of_find? (Entries.find?_insert_self _))
      · rcases Entries.mem_insert_str he with he | rfl
        · exact fields e he
        · exact isField_custom
      · rw [Entries.find?_insert_ne other, same name hn other]
    rw [← ofOptions_eq_ok, ← Entries.merge_nil texts distinct] at made
    exact made

/-- What is written of a configuration with free keys is all of it. -/
theorem Free.isShort_iff (free : c.Free) (json : Json.isJson (.map c.toOptions) = true) :
    Json.isShort (.map c.fileEntries) = true ↔ Json.isShort (.map c.toOptions) = true := by
  rw [Json.isShort_map, Json.isShort_map, free.fileEntries_eq json, toOptions_eq, List.forall_mem_append,
    List.forall_mem_append, ← renamed_spelled, renamed, List.forall_mem_map, List.forall_mem_singleton,
    Json.isShort_map]

end

/-- A configuration is what its file loads as just when no custom key spells a setting and no integer is
too long. -/
theorem save_load_iff {file language : String} (made : ofOptions options = .ok c)
    (json : Json.isJson (.map c.toOptions) = true) (suffix : (Path.ofString file).lowerSuffix = ".json")
    (writable : ∀ text, ∃ files', files.write (.ofString file) text = .ok files') :
    (∃ files', c.save files (.ofString file) = .ok files' ∧
        load files' (.str language) .null (.str file) = .ok c) ↔
      c.Free ∧ Json.isShort (.map c.toOptions) = true := by
  have named : file ≠ "" := by
    rintro rfl
    revert suffix
    decide
  obtain ⟨base, hbase, hb⟩ := defaultsOf_eq language
  constructor
  · rintro ⟨files', saved, loaded⟩
    rw [load_file language named hbase (readOptions_saved json suffix saved)] at loaded
    have free := free_of_ofMixed json hb loaded
    obtain ⟨text, written, -⟩ := save_eq_ok.1 saved
    exact ⟨free, (free.isShort_iff json).1 ((Json.exists_write _ (isJson_fileEntries json)).1 ⟨text, written⟩)⟩
  · rintro ⟨free, short⟩
    obtain ⟨text, written⟩ := (Json.exists_write Json.indented (isJson_fileEntries json)).2
      ((free.isShort_iff json).2 short)
    obtain ⟨files', stored⟩ := writable text
    have saved := save_eq_ok.2 ⟨text, written, stored⟩
    refine ⟨files', saved, ?_⟩
    rw [load_file language named hbase (readOptions_saved json suffix saved)]
    exact ofMixed_of_free (ofOptions_eq_ok.1 made) json hb free

def pluginOptions : Entries :=
  [(.str "existing_java_types", .map [(.str "io.Disk", .str "acme.Disk<String>")]),
   (.str "max_depth", .bool true), (.str "indent_size", .float (.ofRatio false 1 2)),
   (.str "custom", .map [(.str "plugin", .map [(.str "custom", .list [.int (-7), .str "\"\n", .null])])])]

def plugin : Config where
  existingTypes := [("io.Disk", "acme.Disk<String>")]
  maxDepth := .flag true
  indentSize := .float (.ofRatio false 1 2)
  custom := [(.str "plugin", .map [(.str "custom", .list [.int (-7), .str "\"\n", .null])])]

theorem save_load_plugin : ∃ files, plugin.save ⟨[]⟩ (.ofString "c.json") = .ok files ∧
    load files (.str "java") .null (.str "c.json") = .ok plugin :=
  (save_load_iff (rfl : ofOptions pluginOptions = .ok plugin) (by decide +kernel) (by decide +kernel)
    fun text => ⟨_, rfl⟩).2 ⟨by decide, by decide +kernel⟩

def shadowed : Config := { custom := [(.str "maxDepth", .int 3)] }

/-- A custom entry under the spelling of a setting is read back as the setting. -/
theorem save_load_shadowed : ofOptions [(.str "custom", .map [(.str "maxDepth", .int 3)])] = .ok shadowed ∧
    ∃ files, shadowed.save ⟨[]⟩ (.ofString "c.json") = .ok files ∧
      load files (.str "java") .null (.str "c.json") = .ok { maxDepth := .levels 3 } ∧
      ({ maxDepth := .levels 3 } : Config) ≠ shadowed := by
  have json : Json.isJson (.map shadowed.toOptions) = true := by decide +kernel
  obtain ⟨text, written⟩ := (Json.exists_write Json.indented (isJson_fileEntries json)).2 (by decide +kernel)
  have saved : shadowed.save ⟨[]⟩ (.ofString "c.json") = .ok ⟨[(["c.json"], .file text)]⟩ :=
    save_eq_ok.2 ⟨text, written, rfl⟩
  have loaded := load_file "java" (by decide) rfl (readOptions_saved json (by decide +kernel) saved)
  exact ⟨rfl, _, saved, loaded, fun same => nomatch congrArg Config.custom same⟩

end ResourceCompiler.Config
