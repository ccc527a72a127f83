import ResourceCompiler.Java.Names
import ResourceCompiler.Proofs.Naming

/-!
# Identifiers of generated classes

Every name that the sanitizer makes is an identifier, whatever text it is made of. Each way to make one
ends in the escape of reserved words, before which the name has its shape: escapes come after changes of
case, and only a lone underscore is reserved among the words that start with one.
-/

namespace ResourceCompiler

namespace Naming

/-- Letters, digits and underscores, and no digit first. -/
structure Shaped (cs : List Char) : Prop where
  plain : Plain cs
  start : ∃ c rest, cs = c :: rest ∧ (c.isAlpha ∨ c = '_')

namespace Shaped

variable {cs ds : List Char}

theorem ne_nil (h : Shaped cs) : cs ≠ [] := by
  obtain ⟨c, rest, rfl, -⟩ := h.start
  exact List.cons_ne_nil c rest

theorem of_not_digit {c : Char} (h : Plain (c :: cs)) (hc : c.isDigit = false) : Shaped (c :: cs) := by
  refine ⟨h, c, cs, rfl, ?_⟩
  rcases h c List.mem_cons_self with ha | hu
  · left
    simpa [Char.isAlphanum, hc] using ha
  · exact .inr hu

theorem escape (h : Plain cs) : Shaped ('_' :: cs) := ⟨h.escape, '_', cs, rfl, .inr rfl⟩

theorem append (h : Shaped cs) (h' : Plain ds) : Shaped (cs ++ ds) := by
  obtain ⟨c, rest, rfl, hc⟩ := h.start
  exact ⟨h.plain.append h', c, rest ++ ds, rfl, hc⟩

theorem shielded (h : Plain cs) (hne : cs ≠ []) : Shaped (shielded cs) := by
  cases cs with
  | nil => exact absurd rfl hne
  | cons c cs =>
    rw [Naming.shielded]
    split
    · exact .escape h
    · next hd => exact .of_not_digit h (by simpa using hd)

/-- An escape is only dropped where a letter follows. -/
theorem dropEscape (h : Shaped cs) : Shaped (dropEscape cs) := by
  unfold Naming.dropEscape
  split
  · next c cs =>
    split
    · next ha => exact ⟨fun d hd => h.plain d (List.mem_cons_of_mem _ hd), c, cs, rfl, .inl ha⟩
    · exact h
  · exact h

theorem capitalize (h : Shaped cs) : Shaped (capitalize cs) := by
  refine ⟨h.plain.capitalize, ?_⟩
  obtain ⟨c, rest, rfl, hc⟩ := h.start
  refine ⟨c.toUpper, rest, rfl, ?_⟩
  rcases hc with ha | rfl
  · exact .inl (by rwa [Char.isAlpha_toUpper_eq_isAlpha])
  · exact .inr (by decide)

theorem lower (h : Shaped cs) : Shaped (cs.map Char.toLower) := by
  refine ⟨h.plain.lower, ?_⟩
  obtain ⟨c, rest, rfl, hc⟩ := h.start
  refine ⟨c.toLower, _, rfl, ?_⟩
  rcases hc with ha | rfl
  · exact .inl (by rwa [Char.isAlpha_toLower_eq_isAlpha])
  · exact .inr (by decide)

theorem reserve (s : Sanitizer) (h : Shaped cs) : Shaped (s.escape cs) := by
  unfold Sanitizer.escape
  simp only []
  split
  · exact .escape h.plain
  · exact h

end Shaped

theorem Plain.upper {cs : List Char} (h : Plain cs) : Plain (cs.map Char.toUpper) := by
  intro d hd
  obtain ⟨c, hc, rfl⟩ := List.mem_map.1 hd
  rcases h c hc with hc | rfl
  · exact .inl (isAlphanum_toUpper hc)
  · exact .inr (by decide)

end Naming

namespace Sanitizer

open Naming

variable (s : Sanitizer)

/-- An identifier is a shaped name that was escaped, or that of what has no words. -/
theorem identifierChars_eq (cs : List Char) :
    s.identifierChars cs = nameless ∨ ∃ ds, Shaped ds ∧ s.identifierChars cs = s.escape ds := by
  unfold identifierChars
  split
  · exact .inl rfl
  · next first rest hw =>
    have mem : first ∈ words cs := hw ▸ List.mem_cons_self
    have hne : first ≠ [] := by simpa using (List.mem_filter.1 mem).2
    have hr : Plain (rest.flatMap Naming.capitalize) := by
      intro c hc
      obtain ⟨word, hm, hc⟩ := List.mem_flatMap.1 hc
      exact (plain_of_mem_words (hw ▸ List.mem_cons_of_mem _ hm)).capitalize c hc
    exact .inr ⟨_, .shielded ((plain_of_mem_words mem).append hr) (by simp [hne]), rfl⟩

theorem shaped_identifierChars (cs : List Char) : Shaped (s.identifierChars cs) := by
  rcases s.identifierChars_eq cs with h | ⟨ds, hd, h⟩
  · rw [h]
    exact ⟨.of_all rfl, 'f', _, rfl, .inl rfl⟩
  · rw [h]
    exact hd.reserve s

theorem typeName_ne_empty (name : String) : s.typeName name ≠ "" := by
  intro h
  have shaped := (s.shaped_identifierChars name.toList).dropEscape.capitalize.reserve s
  rw [typeName, String.ofList_eq_empty_iff] at h
  exact shaped.ne_nil h

/-- A constant is a shaped name that was escaped: what would start with a digit gets a mark. -/
theorem constant_eq (token : String) (uppercase : Bool) :
    ∃ cs, Shaped cs ∧ s.constant token uppercase = String.ofList (s.escape cs) := by
  have replaced : Plain (token.toList.map fun c => if c.isAlphanum || c = '_' then c else '_') := by
    intro d hd
    obtain ⟨c, -, rfl⟩ := List.mem_map.1 hd
    split
    · next hc => simpa using hc
    · exact .inr rfl
  unfold constant
  simp only []
  generalize token.toList.map _ = cs at replaced
  generalize (token.toList.head?.any _ : Bool) = signed
  -- the name is not empty from here on
  have named : Plain (if cs.isEmpty then "EMPTY".toList else cs) ∧
      (if cs.isEmpty then "EMPTY".toList else cs) ≠ [] := by
    split
    · exact ⟨.of_all rfl, by simp⟩
    · next hne => exact ⟨replaced, by simpa using hne⟩
  generalize (if cs.isEmpty then "EMPTY".toList else cs) = name at named
  have cased : Plain (if uppercase then name.map Char.toUpper else name) ∧
      (if uppercase then name.map Char.toUpper else name) ≠ [] := by
    split
    · exact ⟨named.1.upper, by simpa using named.2⟩
    · exact named
  generalize (if uppercase then name.map Char.toUpper else name) = ds at cased
  refine ⟨_, ?_, rfl⟩
  split
  · exact (⟨.of_all rfl, 'V', _, rfl, .inl rfl⟩ : Shaped "V__".toList).append cased.1
  · next hm =>
    cases ds with
    | nil => exact absurd rfl cased.2
    | cons d ds =>
      rw [Bool.or_eq_true, not_or] at hm
      exact .of_not_digit cased.1 (by simpa using hm.1)

theorem eq_of_escape {c : Char} {cs ds : List Char} (hc : c ≠ '_') (h : s.escape ds = c :: cs) :
    ds = c :: cs := by
  unfold escape at h
  simp only [] at h
  split at h
  · exact absurd (List.cons.inj h).1.symm hc
  · exact h

/-- A constant that starts with a small letter is its text: what is put in front or in place of a text
starts otherwise. -/
theorem constant_eq_of_isLower {token : String} {uppercase : Bool} {c : Char} {cs : List Char}
    (hc : c.isLower = true) (hu : '_' ∉ c :: cs) (h : s.constant token uppercase = String.ofList (c :: cs)) :
    uppercase = false ∧ token = String.ofList (c :: cs) := by
  have other : ∀ d : Char, d.isLower = false → d ≠ c := by
    rintro d hd rfl
    rw [hc] at hd
    cases hd
  unfold constant at h
  simp only [] at h
  generalize hr : token.toList.map _ = replaced at h
  generalize (token.toList.head?.any _ : Bool) = signed at h
  generalize hn : (if replaced.isEmpty then "EMPTY".toList else replaced) = named at h
  generalize hd : (if uppercase then named.map Char.toUpper else named) = cased at h
  have h := s.eq_of_escape (other '_' rfl).symm (String.ofList_inj.1 h)
  split at h
  · exact absurd (List.cons.inj h).1 (other 'V' rfl)
  subst h
  cases uppercase with
  | true =>
    obtain ⟨d, ds, -, rfl, -⟩ := List.map_eq_cons_iff.1 hd
    rw [Char.isLower_toUpper_eq_false] at hc
    cases hc
  | false =>
    have hd : named = c :: cs := hd
    rw [hd] at hn
    split at hn
    · exact absurd (List.cons.inj hn).1 (other 'E' rfl)
    refine ⟨rfl, ?_⟩
    -- a character that was replaced would be an underscore now
    have same : token.toList.map id = c :: cs := by
      rw [← hn, ← hr] at hu ⊢
      refine List.map_congr_left fun d hm => ?_
      split
      · rfl
      · next hne => exact (hu (List.mem_map.2 ⟨d, hm, if_neg hne⟩)).elim
    rw [← same, List.map_id, String.ofList_toList]

end Sanitizer

namespace Java

open Naming (Plain Shaped)

/-- Whether code may use the name: letters, digits and underscores, no digit first, not a reserved word. -/
def isIdentifier (name : String) : Bool :=
  (name.toList.head?.any fun c => c.isAlpha || c = '_') &&
    name.toList.all (fun c => c.isAlphanum || c = '_') && !reservedWords.contains name

theorem isIdentifier_iff {name : String} :
    isIdentifier name = true ↔ Shaped name.toList ∧ name ∉ reservedWords := by
  have plain : name.toList.all (fun c => c.isAlphanum || c = '_') = true ↔ Plain name.toList := by
    rw [List.all_eq_true]
    simp [Plain]
  have start : (name.toList.head?.any fun c => c.isAlpha || c = '_') = true ↔
      ∃ c rest, name.toList = c :: rest ∧ (c.isAlpha ∨ c = '_') := by
    cases name.toList <;> simp
  rw [isIdentifier, Bool.and_eq_true, Bool.and_eq_true, plain, start]
  simp only [Bool.not_eq_true', List.contains_eq_mem, decide_eq_false_iff_not]
  exact ⟨fun ⟨⟨hs, hp⟩, hf⟩ => ⟨⟨hp, hs⟩, hf⟩, fun ⟨⟨hp, hs⟩, hf⟩ => ⟨⟨hs, hp⟩, hf⟩⟩

/-- Of the reserved words only the underscore starts with one. -/
theorem reserved_of_underscore : ∀ word ∈ reservedWords, word.toList.head? = some '_' → word = "_" := by
  decide

theorem isIdentifier_escape {cs : List Char} (h : Shaped cs) :
    isIdentifier (String.ofList (sanitizer.escape cs)) = true := by
  refine isIdentifier_iff.2 ⟨by rw [String.toList_ofList]; exact h.reserve sanitizer, ?_⟩
  unfold Sanitizer.escape
  simp only []
  split
  · intro hm
    have := reserved_of_underscore _ hm (by simp)
    have := congrArg String.toList this
    rw [String.toList_ofList] at this
    exact h.ne_nil (List.cons.inj this).2
  · next hr => simpa [sanitizer] using hr

theorem isIdentifier_identifier (name : String) : isIdentifier (sanitizer.identifier name) = true := by
  unfold Sanitizer.identifier
  rcases sanitizer.identifierChars_eq name.toList with h | ⟨cs, hs, h⟩
  · rw [h]
    decide
  · rw [h]
    exact isIdentifier_escape hs

theorem isIdentifier_typeName (name : String) : isIdentifier (sanitizer.typeName name) = true :=
  isIdentifier_escape (sanitizer.shaped_identifierChars _).dropEscape.capitalize

theorem isIdentifier_packageSegment (name : String) : isIdentifier (sanitizer.packageSegment name) = true :=
  isIdentifier_escape (sanitizer.shaped_identifierChars _).lower

theorem isIdentifier_constant (token : String) (uppercase : Bool) :
    isIdentifier (sanitizer.constant token uppercase) = true := by
  obtain ⟨cs, hs, hc⟩ := sanitizer.constant_eq token uppercase
  rw [hc]
  exact isIdentifier_escape hs

/-- No reserved word has a capital letter, so that a suffix with one makes any identifier another. -/
theorem isIdentifier_append {name suffix : String} (h : isIdentifier name = true) (hp : Plain suffix.toList)
    (hu : suffix.toList.any Char.isUpper = true) : isIdentifier (name ++ suffix) = true := by
  have lower : ∀ word ∈ reservedWords, word.toList.any Char.isUpper = false := by decide
  obtain ⟨shaped, -⟩ := isIdentifier_iff.1 h
  refine isIdentifier_iff.2 ⟨?_, fun hm => ?_⟩
  · rw [String.toList_append]
    exact shaped.append hp
  · have := lower _ hm
    rw [String.toList_append, List.any_append, hu, Bool.or_true] at this
    cases this

end Java

end ResourceCompiler
