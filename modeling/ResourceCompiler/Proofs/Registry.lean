import Mathlib.Data.List.Induction
import Mathlib.Data.List.Nodup
import ResourceCompiler.Proofs.Success
import ResourceCompiler.Registry

/-!
# Runs of registrations

What a registry tells after any registrations, refused ones among them. A registration that is refused at an
alias has stored the language and the aliases before it.

A name is looked up among the languages first, and is resolved among the aliases first. The two agree while no
name is both. An alias is checked against the languages, but a language is not checked against the aliases, so
an alias becomes a language when it is registered as one.
-/

namespace ResourceCompiler

namespace Registry

section Tables

variable {α : Type} {table : List (String × α)} {key other : String} {value : α}

theorem any_key : table.any (·.1 = key) = (table.lookup key).isSome := by
  induction table with
  | nil => rfl
  | cons entry table ih =>
    rw [List.any_cons, ih, List.lookup_cons]
    by_cases h : entry.1 = key
    · simp [h]
    · simp [h, beq_false_of_ne (Ne.symm h)]

theorem lookup_isSome : (table.lookup key).isSome ↔ key ∈ table.map (·.1) := by
  rw [← any_key]
  simp [List.mem_map]

theorem put_known (known : (table.lookup key).isSome) :
    put table key value = table.map fun entry => (entry.1, if entry.1 = key then value else entry.2) := by
  rw [put, any_key, if_pos known]
  refine List.map_congr_left fun entry _ => ?_
  dsimp only
  split <;> rfl

theorem put_new (new : table.lookup key = none) : put table key value = table ++ [(key, value)] := by
  rw [put, any_key, new]
  rfl

theorem lookup_map (f : String → α → α) :
    (table.map fun entry => (entry.1, f entry.1 entry.2)).lookup other =
      (table.lookup other).map (f other) := by
  induction table with
  | nil => rfl
  | cons entry table ih =>
    rw [List.map_cons, List.lookup_cons, List.lookup_cons, ih]
    by_cases here : other = entry.1
    · simp [here]
    · rw [beq_false_of_ne here]

theorem lookup_put : (put table key value).lookup other =
    if other = key then some value else table.lookup other := by
  cases found : table.lookup key with
  | some v =>
    rw [put_known (by rw [found]; rfl), lookup_map fun k v => if k = key then value else v]
    split
    · next same => rw [same, found, Option.map_some]
    · exact Option.map_id'
  | none =>
    rw [put_new found, List.lookup_append]
    by_cases same : other = key
    · simp [same, found]
    · simp [same, List.lookup_cons, beq_false_of_ne same]

theorem nodup_put (distinct : (table.map (·.1)).Nodup) : ((put table key value).map (·.1)).Nodup := by
  cases found : table.lookup key with
  | some v =>
    rw [put_known (by rw [found]; rfl), List.map_map]
    exact distinct
  | none =>
    have new : key ∉ table.map (·.1) := fun member => by
      rw [← lookup_isSome, found] at member
      cases member
    rw [put_new found, List.map_append, List.map_singleton, ← List.concat_eq_append]
    exact distinct.concat new

/-- Setting a key to what stands there changes nothing. -/
theorem put_eq_self_iff (distinct : (table.map (·.1)).Nodup) :
    put table key value = table ↔ table.lookup key = some value := by
  constructor
  · intro h
    rw [← h, lookup_put, if_pos rfl]
  · intro found
    rw [put_known (by rw [found]; rfl)]
    refine (List.map_congr_left fun entry member => ?_).trans (List.map_id table)
    obtain ⟨before, later, rfl, -⟩ := List.lookup_eq_some_iff.1 found
    split
    · next same =>
      have once := List.inj_on_of_nodup_map distinct member (List.mem_append_right _ List.mem_cons_self) same
      rw [once, id]
    · rfl

/-- Sets keys one after the other to one value. -/
def putAll (table : List (String × α)) (keys : List String) (value : α) : List (String × α) :=
  keys.foldl (fun table key => put table key value) table

variable {keys : List String}

theorem lookup_putAll : (putAll table keys value).lookup other =
    if other ∈ keys then some value else table.lookup other := by
  induction keys generalizing table with
  | nil => rfl
  | cons key keys ih =>
    rw [putAll, List.foldl_cons, ← putAll, ih, lookup_put]
    by_cases h : other = key <;> simp [h]

theorem nodup_putAll (distinct : (table.map (·.1)).Nodup) : ((putAll table keys value).map (·.1)).Nodup := by
  induction keys generalizing table with
  | nil => exact distinct
  | cons key keys ih => exact ih (nodup_put distinct)

theorem putAll_eq_self_iff (distinct : (table.map (·.1)).Nodup) :
    putAll table keys value = table ↔ ∀ key ∈ keys, table.lookup key = some value := by
  constructor
  · intro h key member
    rw [← h, lookup_putAll, if_pos member]
  · intro h
    induction keys with
    | nil => rfl
    | cons key keys ih =>
      rw [List.forall_mem_cons] at h
      rw [putAll, List.foldl_cons, ← putAll, (put_eq_self_iff distinct).2 h.1, ih h.2]

end Tables

/-- A call that registers a language. -/
structure Registration where
  language : Value
  class? : Option GeneratorClass
  aliases : Value

def Registration.names (call : Registration) : List Value :=
  if call.aliases.truthy then
    match call.aliases.elements with
    | .ok names => names
    | .error _ => []
  else []

/-- The registry after a call, and whether the call was refused. -/
def apply (r : Registry) (call : Registration) : Registry × Except Failure Unit :=
  r.register call.language call.class? call.aliases

/-- A new registry after calls, whether they were refused or not. -/
def after (calls : List Registration) : Registry :=
  calls.foldl (fun r call => (r.apply call).1) {}

theorem after_concat (calls : List Registration) (call : Registration) :
    after (calls ++ [call]) = ((after calls).apply call).1 := by
  simp [after]

example : standard = after [{
    language := .str "java", class? := some .java, aliases := .list [.str "fabric8", .str "jvm"] }] :=
  rfl

/-- The registry with a generator for a language and aliases of it. -/
def stored (r : Registry) (language : String) (c : GeneratorClass) (aliases : List String) : Registry where
  generators := put r.generators language c
  aliases := putAll r.aliases aliases language

variable {r : Registry} {call : Registration} {language : String} {c : GeneratorClass} {aliases : List String}

abbrev StoredAs (name : Value) (key : String) : Prop := keyOf name = .ok key

/-- Aliases are stored up to a name that is no text or a language. -/
theorem addAliases_cases (r : Registry) (language : String) (names : List Value) :
    ∃ before later aliases, names = before ++ later ∧ List.Forall₂ StoredAs before aliases ∧
      (∀ alt ∈ aliases, r.generators.lookup alt = none) ∧
      (r.addAliases language names).1 = { r with aliases := putAll r.aliases aliases language } ∧
      ∀ e, (r.addAliases language names).2 = .error (.generator (.registry e)) → ∃ name rest taken,
        later = name :: rest ∧ StoredAs name taken ∧ (r.generators.lookup taken).isSome ∧
          e = .aliasTaken name.text := by
  induction names generalizing r with
  | nil => exact ⟨[], [], [], rfl, .nil, by simp, rfl, fun e h => by simp [addAliases] at h⟩
  | cons name names ih =>
    rw [addAliases]
    cases spelled : keyOf name with
    | error f => exact ⟨[], name :: names, [], rfl, .nil, by simp, rfl, fun e h => by simp at h⟩
    | ok key =>
      dsimp only
      rw [any_key]
      split
      · next taken =>
        exact ⟨[], name :: names, [], rfl, .nil, by simp, rfl, fun e h =>
          ⟨name, names, key, rfl, spelled, taken, by simpa using h.symm⟩⟩
      · next free =>
        obtain ⟨before, later, aliases, rfl, read, new, result, refused⟩ :=
          ih { r with aliases := put r.aliases key language }
        refine ⟨name :: before, later, key :: aliases, rfl, .cons spelled read, ?_, result, refused⟩
        exact List.forall_mem_cons.2 ⟨Option.not_isSome_iff_eq_none.1 free, new⟩

/-- A call with a class and a language stores the generator, then the aliases that it names. -/
theorem apply_of_class (class_eq : call.class? = some c) (language_eq : StoredAs call.language language) :
    (r.apply call).1 =
      ({ r with generators := put r.generators language c }.addAliases language call.names).1 ∧
    ∀ e, (r.apply call).2 = .error (.generator e) →
      ({ r with generators := put r.generators language c }.addAliases language call.names).2 =
        .error (.generator e) := by
  simp only [apply, register, class_eq, language_eq, Registration.names]
  by_cases given : call.aliases.truthy
  · cases elements : call.aliases.elements <;> simp [given, addAliases]
  · simp [given, addAliases]

/-- A call that stores a generator for a language, and aliases of it. -/
structure Stores (r : Registry) (call : Registration) (language : String) (c : GeneratorClass)
    (aliases : List String) : Prop where
  class_eq : call.class? = some c
  language_eq : StoredAs call.language language
  /-- No alias is a language. -/
  fresh : ∀ alt ∈ aliases, alt ≠ language ∧ r.generators.lookup alt = none
  result : (r.apply call).1 = r.stored language c aliases
  /-- The aliases are those of the names before the first that is refused. -/
  names : ∃ before later, call.names = before ++ later ∧ List.Forall₂ StoredAs before aliases ∧
    ∀ e, (r.apply call).2 = .error (.generator (.registry e)) → ∃ name rest taken,
      later = name :: rest ∧ StoredAs name taken ∧
        (taken = language ∨ (r.generators.lookup taken).isSome) ∧ e = .aliasTaken name.text

/-- A call without a class or without a language. -/
structure StoresNothing (r : Registry) (call : Registration) : Prop where
  lacking : ∀ c, call.class? = some c → ∀ language, ¬ StoredAs call.language language
  result : (r.apply call).1 = r
  refused : ∀ e, (r.apply call).2 = .error (.generator (.registry e)) → e = .notGenerator

theorem apply_cases (r : Registry) (call : Registration) :
    StoresNothing r call ∨ ∃ language c aliases, Stores r call language c aliases := by
  cases class_eq : call.class? with
  | none =>
    refine .inl ⟨fun c some => by simp [class_eq] at some, ?_, fun e h => ?_⟩
    · simp only [apply, register, class_eq]
    · simpa [apply, register, class_eq] using h.symm
  | some c =>
    cases language_eq : keyOf call.language with
    | error fault =>
      have lacking : ∀ language, ¬ StoredAs call.language language := by simp [StoredAs, language_eq]
      refine .inl ⟨fun _ _ => lacking, ?_, fun e h => ?_⟩
      · simp only [apply, register, class_eq, language_eq]
      · simp [apply, register, class_eq, language_eq] at h
    | ok language =>
      obtain ⟨result, same⟩ := apply_of_class (r := r) class_eq language_eq
      obtain ⟨before, later, aliases, split, read, fresh, added, refused⟩ :=
        addAliases_cases { r with generators := put r.generators language c } language call.names
      refine .inr ⟨language, c, aliases, class_eq, language_eq, fun alt member => ?_, result.trans added,
        before, later, split, read, fun e h => ?_⟩
      · have new := fresh alt member
        rw [lookup_put] at new
        split at new
        · cases new
        · next other => exact ⟨other, new⟩
      · obtain ⟨name, rest, taken, rest_eq, spelled, here, text⟩ := refused e (same _ h)
        refine ⟨name, rest, taken, rest_eq, spelled, ?_, text⟩
        rw [lookup_put] at here
        split at here
        · next own => exact .inl own
        · exact .inr here

theorem Stores.spelled (h : Stores r call language c aliases) {alt : String}
    (member : alt ∈ aliases) : ∃ name, StoredAs name alt :=
  let ⟨_, _, _, read, _⟩ := h.names
  let ⟨name, _, spelled⟩ := exists_of_mem_right read member
  ⟨name, spelled⟩

theorem lookup_generators_stored (key : String) :
    (r.stored language c aliases).generators.lookup key =
      if key = language then some c else r.generators.lookup key := lookup_put

theorem lookup_aliases_stored (key : String) :
    (r.stored language c aliases).aliases.lookup key =
      if key ∈ aliases then some language else r.aliases.lookup key := lookup_putAll

/-- What every registry satisfies that calls lead to. -/
structure WellFormed (r : Registry) : Prop where
  languages_distinct : (r.generators.map (·.1)).Nodup
  aliases_distinct : (r.aliases.map (·.1)).Nodup
  /-- An alias is the key of a name. -/
  spelled : ∀ alt language, r.aliases.lookup alt = some language → ∃ name, StoredAs name alt
  /-- An alias stands for a registered language. -/
  registered : ∀ alt language, r.aliases.lookup alt = some language →
    ∃ c, r.generators.lookup language = some c

theorem WellFormed.apply (h : r.WellFormed) (call : Registration) : (r.apply call).1.WellFormed := by
  obtain kept | ⟨language, c, aliases, set⟩ := apply_cases r call
  · rwa [kept.result]
  · rw [set.result]
    refine ⟨nodup_put h.languages_distinct, nodup_putAll h.aliases_distinct, fun alt target found => ?_,
      fun alt target found => ?_⟩
    all_goals
      rw [lookup_aliases_stored] at found
      split at found
    · exact set.spelled ‹_›
    · exact h.spelled alt target found
    · rw [lookup_generators_stored, if_pos (Option.some.inj found).symm]
      exact ⟨c, rfl⟩
    · rw [lookup_generators_stored]
      split
      · exact ⟨c, rfl⟩
      · exact h.registered alt target found

theorem wellFormed_after (calls : List Registration) : (after calls).WellFormed := by
  induction calls using List.reverseRecOn with
  | nil => exact ⟨.nil, .nil, nofun, nofun⟩
  | append_singleton calls call ih =>
    rw [after_concat]
    exact ih.apply call

/-- No registered language is an alias. -/
def Disjoint (r : Registry) : Prop :=
  ∀ language c, r.generators.lookup language = some c → r.aliases.lookup language = none

/-- A call does not register an alias as a language. -/
def Fresh (r : Registry) (call : Registration) : Prop :=
  ∀ c, call.class? = some c → ∀ language, StoredAs call.language language →
    r.aliases.lookup language = none

theorem disjoint_apply_iff : (r.apply call).1.Disjoint ↔ r.Disjoint ∧ r.Fresh call := by
  obtain kept | ⟨language, c, aliases, set⟩ := apply_cases r call
  · have fresh : r.Fresh call := fun c some language spelled => absurd spelled (kept.lacking c some language)
    rw [kept.result]
    exact ⟨fun h => ⟨h, fresh⟩, And.left⟩
  · have fresh_iff : r.Fresh call ↔ r.aliases.lookup language = none := by
      refine ⟨fun h => h c set.class_eq language set.language_eq, fun h c' _ language' spelled => ?_⟩
      rwa [← Except.ok.inj (set.language_eq.symm.trans spelled)]
    simp only [set.result, fresh_iff, Disjoint, lookup_generators_stored, lookup_aliases_stored]
    constructor
    · intro h
      -- the call keeps the aliases that are there, though it may change what they stand for
      have none_of {key : String}
          (absent : (if key ∈ aliases then some language else r.aliases.lookup key) = none) :
          r.aliases.lookup key = none := by
        split at absent
        · cases absent
        · exact absent
      refine ⟨fun key d found => ?_, none_of (h language c (if_pos rfl))⟩
      by_cases same : key = language
      · exact none_of (h key c (if_pos same))
      · exact none_of (h key d (by rw [if_neg same, found]))
    · rintro ⟨apart, new⟩ key d found
      by_cases same : key = language
      · rw [if_neg fun member => (set.fresh key member).1 same, same, new]
      · rw [if_neg same] at found
        rw [if_neg fun member => by simp [(set.fresh key member).2] at found, apart key d found]

/-- The calls up to which no alias became a language. -/
theorem disjoint_after_iff (calls : List Registration) : (after calls).Disjoint ↔
    ∀ before call later, calls = before ++ call :: later → (after before).Fresh call := by
  induction calls using List.reverseRecOn with
  | nil => exact ⟨fun _ before call later split => by simp at split, fun _ => nofun⟩
  | append_singleton calls last ih =>
    rw [after_concat, disjoint_apply_iff, ih]
    constructor
    · rintro ⟨earlier, fresh⟩ before call later split
      obtain rfl | ⟨later, end_, rfl⟩ := List.eq_nil_or_concat later
      · obtain ⟨rfl, same⟩ := List.append_inj' split rfl
        rwa [← (List.cons.inj same).1]
      · rw [List.concat_eq_append, ← List.cons_append, ← List.append_assoc] at split
        exact earlier before call later (List.append_inj' split rfl).1
    · intro h
      exact ⟨fun before call later split => h before call (later ++ [last]) (by rw [split]; simp),
        h calls last [] rfl⟩

theorem classOf_eq_ok {name : Value} {key : String} (spelled : StoredAs name key) :
    r.classOf name = .ok c ↔
      (r.generators.lookup key).or ((r.aliases.lookup key).bind fun target => r.generators.lookup target) =
        some c := by
  rw [classOf, bind_eq_ok]
  simp only [liftM_eq_ok, show keyOf name = .ok key from spelled, Except.ok.injEq, exists_eq_left']
  cases r.generators.lookup key with
  | some d => simp [pure_eq_ok]
  | none =>
    dsimp only
    rw [Option.none_or]
    split
    · next found => rw [found, pure_eq_ok, Option.some_inj]
    · next none => rw [none]; simp

theorem resolve_eq_ok {name : Value} {key : String} (spelled : StoredAs name key) :
    r.resolve name = .ok ((r.aliases.lookup key).getD key) := by
  rw [resolve, show keyOf name = .ok key from spelled]
  rfl

theorem storedAs_of_classOf {name : Value} (h : r.classOf name = .ok c) : ∃ key, StoredAs name key := by
  rw [classOf, bind_eq_ok] at h
  obtain ⟨key, spelled, -⟩ := h
  exact ⟨key, liftM_eq_ok.1 spelled⟩

/-- Each name with a generator stands for a registered language, which has that generator. -/
def Consistent (r : Registry) : Prop :=
  ∀ name c, r.classOf name = .ok c →
    ∃ language, r.resolve name = .ok language ∧ r.generators.lookup language = some c

/-- A name is looked up and resolved alike unless it is an alias and a language, with different generators. -/
theorem WellFormed.consistent_iff (h : r.WellFormed) : r.Consistent ↔
    ∀ alt language c, r.aliases.lookup alt = some language → r.generators.lookup alt = some c →
      r.generators.lookup language = some c := by
  constructor
  · intro consistent alt language c target found
    obtain ⟨name, spelled⟩ := h.spelled alt language target
    have own : r.classOf name = .ok c := (classOf_eq_ok spelled).2 (by rw [found, Option.some_or])
    obtain ⟨resolved, eq, here⟩ := consistent name c own
    rw [resolve_eq_ok spelled, target, Option.getD_some, Except.ok.injEq] at eq
    rwa [eq]
  · intro same name c found
    obtain ⟨key, spelled⟩ := storedAs_of_classOf found
    refine ⟨_, resolve_eq_ok spelled, ?_⟩
    rw [classOf_eq_ok spelled, Option.or_eq_some_iff] at found
    cases target : r.aliases.lookup key with
    | none => simpa [target] using found
    | some language =>
      obtain here | ⟨-, there⟩ := found
      · exact same key language c target here
      · simpa [target] using there

theorem Disjoint.consistent (h : r.Disjoint) (formed : r.WellFormed) : r.Consistent :=
  formed.consistent_iff.2 fun alt language c target found => by
    rw [h alt c found] at target
    cases target

/-- After any calls a name that has a generator stands for a registered language. The generator is that of
the language unless the name is an alias and a language with another generator, and no name is both exactly when
no call registered an alias as a language. -/
theorem consistent_after_iff (calls : List Registration) :
    (∀ name c, (after calls).classOf name = .ok c → ∃ language d,
      (after calls).resolve name = .ok language ∧ (after calls).generators.lookup language = some d) ∧
    ((after calls).Consistent ↔ ∀ alt language c, (after calls).aliases.lookup alt = some language →
      (after calls).generators.lookup alt = some c → (after calls).generators.lookup language = some c) ∧
    ((after calls).Consistent ∧ (after calls).Disjoint ↔
      ∀ before call later, calls = before ++ call :: later → (after before).Fresh call) := by
  have formed := wellFormed_after calls
  refine ⟨fun name c found => ?_, formed.consistent_iff, ?_⟩
  · obtain ⟨key, spelled⟩ := storedAs_of_classOf found
    rw [classOf_eq_ok spelled, Option.or_eq_some_iff] at found
    rw [resolve_eq_ok spelled]
    cases target : (after calls).aliases.lookup key with
    | none => exact ⟨key, c, rfl, by simpa [target] using found⟩
    | some language =>
      obtain ⟨d, here⟩ := formed.registered key language target
      exact ⟨language, d, rfl, here⟩
  · rw [← disjoint_after_iff]
    exact ⟨And.right, fun apart => ⟨apart.consistent formed, apart⟩⟩

/-- An alias that is registered as a language with another class. -/
theorem inconsistent_after_alias :
    ¬ (after [{ language := .str "a", class? := some .java, aliases := .list [.str "b"] },
      { language := .str "b", class? := some .bare, aliases := .null }]).Consistent := by
  intro consistent
  obtain ⟨language, resolved, found⟩ := consistent (.str "b") .bare (by rfl)
  obtain rfl : "a" = language := Except.ok.inj ((show _ = Except.ok "a" by rfl).symm.trans resolved)
  have same : GeneratorClass.java = GeneratorClass.bare :=
    Option.some.inj ((show _ = some GeneratorClass.java by rfl).symm.trans found)
  exact absurd (congrArg GeneratorClass.name same) (by decide)

/-- Two registries that tell the same. -/
structure SameLookups (r r' : Registry) : Prop where
  languages : r.languages = r'.languages
  aliasesOf : ∀ language, r.aliasesOf language = r'.aliasesOf language
  classOf : ∀ name, r.classOf name = r'.classOf name
  resolve : ∀ name, r.resolve name = r'.resolve name

theorem mem_languages : language ∈ r.languages ↔ (r.generators.lookup language).isSome := by
  rw [lookup_isSome]
  exact (List.mergeSort_perm ..).mem_iff

theorem WellFormed.stored_eq_self_iff (h : r.WellFormed) :
    r.stored language c aliases = r ↔
      r.generators.lookup language = some c ∧ ∀ alt ∈ aliases, r.aliases.lookup alt = some language := by
  rw [← put_eq_self_iff h.languages_distinct, ← putAll_eq_self_iff h.aliases_distinct]
  obtain ⟨generators, aliases⟩ := r
  exact Registry.mk.injEq .. ▸ Iff.rfl

theorem SameLookups.refl (r : Registry) : SameLookups r r :=
  ⟨rfl, fun _ => rfl, fun _ => rfl, fun _ => rfl⟩

/-- What is stored and changes something can be told. -/
theorem Stores.sameLookups_iff (set : Stores r call language c aliases) (h : r.WellFormed) :
    SameLookups r (r.stored language c aliases) ↔ r.stored language c aliases = r := by
  constructor
  swap
  · intro same
    rw [same]
    exact .refl r
  intro same
  refine h.stored_eq_self_iff.2 ⟨?_, fun alt member => ?_⟩
  · -- the class alone does not tell: the language may have been an alias of one with the same class
    have known : (r.generators.lookup language).isSome := by
      rw [← mem_languages, same.languages, mem_languages, lookup_generators_stored, if_pos rfl]
      rfl
    have found : r.classOf call.language = .ok c := by
      rw [same.classOf, classOf_eq_ok set.language_eq, lookup_generators_stored, if_pos rfl, Option.some_or]
    rw [classOf_eq_ok set.language_eq] at found
    obtain ⟨d, here⟩ := Option.isSome_iff_exists.1 known
    rwa [here, Option.some_or, ← here] at found
  · obtain ⟨name, spelled⟩ := set.spelled member
    have target := same.resolve name
    rw [resolve_eq_ok spelled, resolve_eq_ok spelled, lookup_aliases_stored, if_pos member, Option.getD_some,
      Except.ok.injEq] at target
    cases found : r.aliases.lookup alt with
    | none =>
      rw [found] at target
      exact absurd target (set.fresh alt member).1
    | some there =>
      rw [found] at target
      exact congrArg some target

/-- A refused registration keeps what it stored before it was refused: nothing without a class, else the
generator and the aliases before the one that is a language. The registry is as it was exactly when all these
were there, and tells the same in no other case. -/
theorem refused_unchanged_iff (calls : List Registration) (call : Registration) {e : RegistryError}
    (refused : ((after calls).apply call).2 = .error (.generator (.registry e))) :
    (SameLookups (after calls) ((after calls).apply call).1 ↔
      ((after calls).apply call).1 = after calls) ∧
    (e = .notGenerator ∧ ((after calls).apply call).1 = after calls ∨
      ∃ language c before name later aliases taken, call.class? = some c ∧ StoredAs call.language language ∧
        call.names = before ++ name :: later ∧ List.Forall₂ StoredAs before aliases ∧
        StoredAs name taken ∧ (taken = language ∨ ((after calls).generators.lookup taken).isSome) ∧
        e = .aliasTaken name.text ∧ ((after calls).apply call).1 = (after calls).stored language c aliases ∧
        (((after calls).apply call).1 = after calls ↔ (after calls).generators.lookup language = some c ∧
          ∀ alt ∈ aliases, (after calls).aliases.lookup alt = some language)) := by
  have formed := wellFormed_after calls
  obtain kept | ⟨language, c, aliases, set⟩ := apply_cases (after calls) call
  · rw [kept.result]
    exact ⟨⟨fun _ => rfl, fun _ => .refl _⟩, .inl ⟨kept.refused e refused, rfl⟩⟩
  · obtain ⟨before, _, split, read, at_⟩ := set.names
    obtain ⟨name, later, taken, rfl, spelled, here, text⟩ := at_ e refused
    rw [set.result]
    exact ⟨set.sameLookups_iff formed, .inr ⟨language, c, before, name, later, aliases, taken, set.class_eq,
      set.language_eq, split, read, spelled, here, text, rfl, formed.stored_eq_self_iff⟩⟩

/-- A second registration of a language, refused for its last alias, stores what was there. -/
theorem refused_repeated :
    let calls := [{ language := .str "java", class? := some .java, aliases := .list [.str "jvm"] }]
    let call := { language := .str "Java", class? := some .java, aliases := .list [.str "JVM", .str "java"] }
    ((after calls).apply call).2 = .error (.generator (.registry (.aliasTaken "java"))) ∧
      SameLookups (after calls) ((after calls).apply call).1 := by
  intro calls call
  have refused : ((after calls).apply call).2 = .error (.generator (.registry (.aliasTaken "java"))) := by rfl
  have known : after calls = { generators := [("java", .java)], aliases := [("jvm", "java")] } := by rfl
  have same : ((after calls).apply call).1 = after calls := by
    rw [known]
    rfl
  exact ⟨refused, (refused_unchanged_iff calls call refused).1.2 same⟩

/-- A registration that is refused for its alias leaves a new language. -/
theorem refused_leaves_language :
    let calls := [{ language := .str "java", class? := some .java, aliases := .null }]
    let call := { language := .str "other", class? := some .java, aliases := .list [.str "java"] }
    ((after calls).apply call).2 = .error (.generator (.registry (.aliasTaken "java"))) ∧
      "other" ∉ (after calls).languages ∧ "other" ∈ ((after calls).apply call).1.languages := by
  refine ⟨rfl, ?_, ?_⟩
  · rw [mem_languages]
    exact nofun
  · rw [mem_languages]
    rfl

end Registry

end ResourceCompiler
