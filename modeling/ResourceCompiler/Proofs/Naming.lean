import Mathlib
import ResourceCompiler.Naming

/-!
# What generated names look like

Whatever a name in a schema reads, the identifiers, types and segments made of it are plain: letters,
digits and underscores. So a separator between plain names stays visible: `stem_append_inj` recovers the
segments of a qualified name from its text. `packageSegment_getLast?` says how a segment ends.
-/

namespace ResourceCompiler

namespace Text

variable {p : Char → Bool}

/-- No piece has a separator. -/
theorem not_of_mem_splitAt {cs piece : List Char} (h : piece ∈ splitAt p cs) :
    ∀ c ∈ piece, p c = false := by
  induction cs generalizing piece with
  | nil =>
    rw [splitAt, List.mem_singleton] at h
    subst h
    simp
  | cons d cs ih =>
    rw [splitAt] at h
    split at h
    · rcases List.mem_cons.1 h with rfl | h
      · simp
      · exact ih h
    · next hd =>
      have hd : p d = false := by simpa using hd
      split at h
      · rw [List.mem_singleton] at h
        subst h
        simpa using hd
      · next first rest hs =>
        rcases List.mem_cons.1 h with rfl | h
        · intro c hc
          rcases List.mem_cons.1 hc with rfl | hc
          · exact hd
          · exact ih (hs ▸ List.mem_cons_self) c hc
        · exact ih (hs ▸ List.mem_cons_of_mem _ h)

/-- A character that separates nothing prolongs the last piece. -/
theorem splitAt_concat {c : Char} (hc : p c = false) (cs : List Char) :
    ∃ pieces last, splitAt p cs = pieces ++ [last] ∧ splitAt p (cs ++ [c]) = pieces ++ [last ++ [c]] := by
  induction cs with
  | nil => exact ⟨[], [], rfl, by simp [splitAt, hc]⟩
  | cons d cs ih =>
    obtain ⟨pieces, last, h, h'⟩ := ih
    cases hd : p d with
    | true => exact ⟨[] :: pieces, last, by simp [splitAt, hd, h], by simp [splitAt, hd, h']⟩
    | false =>
      cases pieces with
      | nil => exact ⟨[], d :: last, by simp [splitAt, hd, h], by simp [splitAt, hd, h']⟩
      | cons first pieces =>
        exact ⟨(d :: first) :: pieces, last, by simp [splitAt, hd, h], by simp [splitAt, hd, h']⟩

theorem joinWith_concat (separator : List Char) (pieces : List (List Char)) (last : List Char) :
    joinWith separator (pieces ++ [last]) = pieces.flatMap (· ++ separator) ++ last := by
  induction pieces with
  | nil => rfl
  | cons piece pieces ih =>
    have hne : pieces ++ [last] ≠ [] := by simp
    rw [List.cons_append, joinWith.eq_3 _ _ _ hne, ih, List.flatMap_cons]
    simp only [List.append_assoc]

end Text

namespace Naming

theorem isAlphanum_of_isDigit {c : Char} (h : c.isDigit = true) : c.isAlphanum = true := by
  simp [Char.isAlphanum, h]

theorem isAlpha_of_isDigit {c : Char} (h : c.isDigit = true) : c.isAlpha = false := by
  simp only [Char.isDigit, Bool.and_eq_true, decide_eq_true_eq, UInt32.le_iff_toNat_le, ge_iff_le] at h
  simp only [Char.isAlpha, Char.isUpper, Char.isLower, Bool.or_eq_false_iff, Bool.and_eq_false_iff,
    decide_eq_false_iff_not, UInt32.le_iff_toNat_le, ge_iff_le]
  simp at h ⊢
  omega

theorem isDigit_of_isAlpha {c : Char} (h : c.isAlpha = true) : c.isDigit = false := by
  by_contra hd
  rw [isAlpha_of_isDigit (eq_true_of_ne_false hd)] at h
  cases h

/-- Nothing but letters, digits and underscores. -/
def Plain (cs : List Char) : Prop := ∀ c ∈ cs, c.isAlphanum ∨ c = '_'

theorem isAlphanum_toUpper {c : Char} (h : c.isAlphanum) : c.toUpper.isAlphanum := by
  unfold Char.isAlphanum at *
  by_cases ha : c.isAlpha
  · rw [Char.isAlpha_toUpper_eq_isAlpha, ha, Bool.true_or]
  · have hl : ¬ c.isLower := fun hl => ha (by simp [Char.isAlpha, hl])
    rw [Char.toUpper_eq_of_not_isLower hl]
    exact h

theorem isAlphanum_toLower {c : Char} (h : c.isAlphanum) : c.toLower.isAlphanum := by
  unfold Char.isAlphanum at *
  by_cases ha : c.isAlpha
  · rw [Char.isAlpha_toLower_eq_isAlpha, ha, Bool.true_or]
  · have hu : ¬ c.isUpper := fun hu => ha (by simp [Char.isAlpha, hu])
    rw [Char.toLower_eq_of_not_isUpper hu]
    exact h

namespace Plain

variable {cs ds : List Char}

theorem of_all (h : (cs.all fun c => c.isAlphanum || c = '_') = true) : Plain cs := by
  intro c hc
  simpa using List.all_eq_true.1 h c hc

theorem append (h : Plain cs) (h' : Plain ds) : Plain (cs ++ ds) := by
  intro c hc
  rcases List.mem_append.1 hc with hc | hc
  · exact h c hc
  · exact h' c hc

theorem escape (h : Plain cs) : Plain ('_' :: cs) := by
  intro c hc
  rcases List.mem_cons.1 hc with rfl | hc
  · exact .inr rfl
  · exact h c hc

theorem capitalize (h : Plain cs) : Plain (capitalize cs) := by
  cases cs with
  | nil => exact h
  | cons c cs =>
    intro d hd
    rcases List.mem_cons.1 hd with rfl | hd
    · rcases h c List.mem_cons_self with hc | rfl
      · exact .inl (isAlphanum_toUpper hc)
      · exact .inr (by decide)
    · exact h d (List.mem_cons_of_mem _ hd)

theorem lower (h : Plain cs) : Plain (cs.map Char.toLower) := by
  intro d hd
  obtain ⟨c, hc, rfl⟩ := List.mem_map.1 hd
  rcases h c hc with hc | rfl
  · exact .inl (isAlphanum_toLower hc)
  · exact .inr (by decide)

theorem shielded (h : Plain cs) : Plain (shielded cs) := by
  unfold Naming.shielded
  split
  · exact h
  · split
    · exact h.escape
    · exact h

theorem dropEscape (h : Plain cs) : Plain (dropEscape cs) := by
  unfold Naming.dropEscape
  split
  · split
    · exact fun c hc => h c (List.mem_cons_of_mem _ hc)
    · exact h
  · exact h

theorem reserve (s : Sanitizer) (h : Plain cs) : Plain (s.escape cs) := by
  unfold Sanitizer.escape
  simp only []
  split
  · exact h.escape
  · exact h

/-- A plain name has no separator. -/
theorem not_mem {c : Char} (h : Plain cs) (hc : c.isAlphanum = false) (hne : c ≠ '_') : c ∉ cs := by
  intro hm
  rcases h c hm with ha | rfl
  · simp [hc] at ha
  · exact hne rfl

end Plain

theorem plain_of_mem_words {cs word : List Char} (h : word ∈ words cs) : Plain word := by
  intro c hc
  have := Text.not_of_mem_splitAt (List.mem_filter.1 h).1 c hc
  exact .inl (by simpa using this)

end Naming

namespace Sanitizer

open Naming

variable (s : Sanitizer) (name : String)

theorem plain_identifierChars (cs : List Char) : Plain (s.identifierChars cs) := by
  unfold identifierChars
  split
  · exact .of_all rfl
  · next first rest hw =>
    have hf : Plain first := plain_of_mem_words (hw ▸ List.mem_cons_self)
    have hr : Plain (rest.flatMap capitalize) := by
      intro c hc
      obtain ⟨word, hm, hc⟩ := List.mem_flatMap.1 hc
      exact (plain_of_mem_words (hw ▸ List.mem_cons_of_mem _ hm)).capitalize c hc
    exact (hf.append hr).shielded.reserve s

/-- Escapes only stand in front of a name. -/
theorem escape_shielded (cs : List Char) : ∃ front, s.escape (shielded cs) = front ++ cs := by
  have shield : ∃ front, shielded cs = front ++ cs := by
    unfold shielded
    split
    · exact ⟨[], rfl⟩
    · split
      · exact ⟨['_'], rfl⟩
      · exact ⟨[], rfl⟩
  obtain ⟨front, h⟩ := shield
  unfold escape
  simp only [h]
  split
  · exact ⟨'_' :: front, rfl⟩
  · exact ⟨front, rfl⟩

/-- A name that ends in a letter or a digit keeps it as its last character, up to its case. -/
theorem identifierChars_getLast? {c : Char} (hc : c.isAlphanum) (cs : List Char) :
    (s.identifierChars (cs ++ [c])).getLast? = some c ∨
      (s.identifierChars (cs ++ [c])).getLast? = some c.toUpper := by
  have hp : (!c.isAlphanum) = false := by simp [hc]
  obtain ⟨pieces, last, -, h⟩ := Text.splitAt_concat (p := fun c => !c.isAlphanum) hp cs
  have hw : words (cs ++ [c]) = pieces.filter (!·.isEmpty) ++ [last ++ [c]] := by
    simp [words, h, List.filter_append]
  unfold identifierChars
  rw [hw]
  cases pieces.filter (!·.isEmpty) with
  | nil =>
    obtain ⟨front, he⟩ := s.escape_shielded (last ++ [c])
    left
    simp [he]
  | cons first rest =>
    obtain ⟨front, he⟩ := s.escape_shielded
      (first ++ (rest ++ [last ++ [c]]).flatMap capitalize)
    simp only [List.cons_append, he]
    cases last with
    | nil => right; simp [capitalize]
    | cons d last => left; simp [capitalize, List.getLast?_cons]

/-- So does its segment, in lower case. -/
theorem packageSegment_getLast? {c : Char} (hc : c.isAlphanum) {cs : List Char}
    (hn : name.toList = cs ++ [c]) : (s.packageSegment name).toList.getLast? = some c.toLower := by
  have escape_getLast? : ∀ xs : List Char, ∀ d, xs.getLast? = some d → (s.escape xs).getLast? = some d := by
    intro xs d h
    unfold escape
    simp only []
    split
    · rw [List.getLast?_cons, h]
      rfl
    · exact h
  rw [packageSegment, String.toList_ofList, hn]
  refine escape_getLast? _ _ ?_
  rw [List.getLast?_map]
  rcases s.identifierChars_getLast? hc cs with h | h
  · rw [h]
    rfl
  · rw [h, Option.map_some, Char.toLower_toUpper_eq_toLower]

theorem plain_typeName : Plain (s.typeName name).toList := by
  rw [typeName, String.toList_ofList]
  exact (s.plain_identifierChars _).dropEscape.capitalize.reserve s

theorem plain_packageSegment : Plain (s.packageSegment name).toList := by
  rw [packageSegment, String.toList_ofList]
  exact (s.plain_identifierChars _).lower.reserve s

end Sanitizer

namespace Naming

/-- What stands before the simple name in the qualified names of a package. -/
def stem (separator : Char) (package : List String) : List Char :=
  package.flatMap (·.toList ++ [separator])

theorem stem_append (separator : Char) (package inner : List String) :
    stem separator (package ++ inner) = stem separator package ++ stem separator inner :=
  List.flatMap_append

theorem stem_singleton (separator : Char) (segment : String) :
    stem separator [segment] = segment.toList ++ [separator] := by
  simp [stem]

/-- The text of a joined path: its stem and its last piece. -/
theorem join_concat {text : String} {separator : Char} (ht : text.toList = [separator])
    (package : List String) (last : String) :
    (Text.join text (package ++ [last])).toList = stem separator package ++ last.toList := by
  rw [Text.join, String.toList_ofList, List.map_append, List.map_singleton, Text.joinWith_concat, ht,
    List.flatMap_map, stem]

theorem qualified_toList (package : List String) (name : String) :
    (qualified package name).toList = stem '.' package ++ name.toList :=
  join_concat (by simp) package name

theorem qualified_eq_empty_iff {package : List String} {name : String} :
    qualified package name = "" ↔ package = [] ∧ name = "" := by
  rw [← String.toList_eq_nil_iff, qualified_toList, List.append_eq_nil_iff, String.toList_eq_nil_iff]
  cases package <;> simp [stem]

theorem stem_starts_qualified (package : List String) (name : String) :
    stem '.' package <+: (qualified package name).toList := by
  rw [qualified_toList]
  exact List.prefix_append _ _

/-- Two texts that start the same up to a separator agree before and after it. -/
theorem append_separator_inj {separator : Char} {xs xs' ys ys' : List Char} (hx : separator ∉ xs)
    (hx' : separator ∉ xs') (h : xs ++ separator :: ys = xs' ++ separator :: ys') : xs = xs' ∧ ys = ys' := by
  induction xs generalizing xs' with
  | nil =>
    cases xs' with
    | nil => exact ⟨rfl, (List.cons.inj h).2⟩
    | cons c xs' => exact absurd ((List.cons.inj h).1 ▸ List.mem_cons_self) hx'
  | cons c xs ih =>
    cases xs' with
    | nil => exact absurd ((List.cons.inj h).1 ▸ List.mem_cons_self) hx
    | cons c' xs' =>
      rw [List.cons_append, List.cons_append, List.cons.injEq] at h
      obtain ⟨rfl, hy⟩ := ih (fun hm => hx (List.mem_cons_of_mem _ hm))
        (fun hm => hx' (List.mem_cons_of_mem _ hm)) h.2
      exact ⟨by rw [h.1], hy⟩

/-- Segments without a separator are read back from a joined path. -/
theorem stem_append_inj {separator : Char} {ps qs : List String} {x y : List Char}
    (hp : ∀ s ∈ ps, separator ∉ s.toList) (hq : ∀ s ∈ qs, separator ∉ s.toList) (hx : separator ∉ x)
    (hy : separator ∉ y) (h : stem separator ps ++ x = stem separator qs ++ y) : ps = qs ∧ x = y := by
  induction ps generalizing qs with
  | nil =>
    cases qs with
    | nil => exact ⟨rfl, h⟩
    | cons q qs =>
      refine absurd ?_ hx
      rw [show x = _ from h]
      simp [stem]
  | cons p ps ih =>
    cases qs with
    | nil =>
      refine absurd ?_ hy
      rw [show y = _ from h.symm]
      simp [stem]
    | cons q qs =>
      have h : p.toList ++ separator :: (stem separator ps ++ x) =
          q.toList ++ separator :: (stem separator qs ++ y) := by
        simpa [stem] using h
      obtain ⟨hpq, h⟩ := append_separator_inj (hp p List.mem_cons_self) (hq q List.mem_cons_self) h
      obtain ⟨rfl, hxy⟩ := ih (fun s hs => hp s (List.mem_cons_of_mem _ hs))
        (fun s hs => hq s (List.mem_cons_of_mem _ hs)) h
      exact ⟨by rw [String.toList_inj.1 hpq], hxy⟩

end Naming

end ResourceCompiler
