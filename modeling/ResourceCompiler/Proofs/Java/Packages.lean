import ResourceCompiler.Java.Generator
import ResourceCompiler.Proofs.Java.Identifiers
import ResourceCompiler.Proofs.Path
import ResourceCompiler.Proofs.Resolver.Packages

/-!
# Classes and packages of one name

Types have a capital letter first and segments of packages are in lower case, so that they are told apart
by their first letter, when they have one. A name that starts with a digit gets an underscore in front of
it, as a type and as a segment, and there the two can be the same (`namesPackage_iff_lower`).
-/

namespace ResourceCompiler

namespace Naming

/-- A capital letter first, or an underscore and a digit, and then letters and digits. -/
inductive TypeShaped : List Char → Prop
  | capital {c : Char} {cs : List Char} (hc : c.isUpper = true) (hs : ∀ d ∈ cs, d.isAlphanum = true) :
      TypeShaped (c :: cs)
  | number {c : Char} {cs : List Char} (hc : c.isDigit = true) (hs : ∀ d ∈ cs, d.isAlphanum = true) :
      TypeShaped ('_' :: c :: cs)

theorem TypeShaped.append {cs ds : List Char} (h : TypeShaped cs) (hd : ∀ d ∈ ds, d.isAlphanum = true) :
    TypeShaped (cs ++ ds) := by
  cases h with
  | capital hc hs => exact .capital hc (List.forall_mem_append.2 ⟨hs, hd⟩)
  | number hc hs => exact .number hc (List.forall_mem_append.2 ⟨hs, hd⟩)

/-- Letters and digits are one word. -/
theorem words_of_alphanum {cs : List Char} (hne : cs ≠ []) (h : ∀ c ∈ cs, c.isAlphanum = true) :
    words cs = [cs] := by
  have one : Text.splitAt (fun c => !c.isAlphanum) cs = [cs] := Text.splitAt_of_none (by simpa using h)
  simp [words, one, hne]

theorem words_of_underscore (cs : List Char) : words ('_' :: cs) = words cs := by
  simp [words, Text.splitAt]

theorem isAlphanum_of_mem_words {cs word : List Char} (h : word ∈ words cs) :
    ∀ c ∈ word, c.isAlphanum = true := by
  intro c hc
  simpa using Text.not_of_mem_splitAt (List.mem_filter.1 h).1 c hc

theorem isAlphanum_capitalize {cs : List Char} (h : ∀ c ∈ cs, c.isAlphanum = true) :
    ∀ c ∈ capitalize cs, c.isAlphanum = true := by
  cases cs with
  | nil => exact h
  | cons c cs =>
    obtain ⟨hc, hcs⟩ := List.forall_mem_cons.1 h
    exact List.forall_mem_cons.2 ⟨isAlphanum_toUpper hc, hcs⟩

end Naming

namespace Sanitizer

open Naming

/-- An identifier is made of letters and digits, before what is put in front of them. -/
theorem identifierChars_alphanum (s : Sanitizer) (cs : List Char) :
    s.identifierChars cs = nameless ∨ ∃ c ds, c.isAlphanum = true ∧ (∀ d ∈ ds, d.isAlphanum = true) ∧
      s.identifierChars cs = s.escape (shielded (c :: ds)) := by
  unfold identifierChars
  split
  · exact .inl rfl
  · next first rest hw =>
    right
    have hf : first ∈ words cs := hw ▸ List.mem_cons_self
    have hrest : ∀ c ∈ rest.flatMap capitalize, c.isAlphanum = true := by
      intro c hc
      obtain ⟨word, hm, hc⟩ := List.mem_flatMap.1 hc
      exact isAlphanum_capitalize (isAlphanum_of_mem_words (hw ▸ List.mem_cons_of_mem _ hm)) c hc
    cases first with
    | nil => simp [words] at hf
    | cons c first =>
      obtain ⟨hc, hfirst⟩ := List.forall_mem_cons.1 (isAlphanum_of_mem_words hf)
      exact ⟨c, _, hc, List.forall_mem_append.2 ⟨hfirst, hrest⟩, rfl⟩

end Sanitizer

namespace Java

open Naming

theorem escape_of_not_mem {cs : List Char} (h : String.ofList cs ∉ reservedWords) :
    sanitizer.escape cs = cs := by
  simp [Sanitizer.escape, sanitizer, h]

theorem escape_of_mem {cs : List Char} (h : String.ofList cs ∈ reservedWords) :
    sanitizer.escape cs = '_' :: cs := by
  simp [Sanitizer.escape, sanitizer, h]

theorem isLower_of_reserved {word : String} (h : word ∈ reservedWords) (hu : word ≠ "_") :
    ∀ c ∈ word.toList, c.isLower = true := by
  have low : ∀ word ∈ reservedWords, word = "_" ∨ word.toList.all Char.isLower = true := by decide
  exact List.all_eq_true.1 ((low _ h).resolve_left hu)

/-- Reserved words are in lower case. -/
theorem map_toLower_of_reserved {cs : List Char} (h : String.ofList cs ∈ reservedWords) :
    cs.map Char.toLower = cs := by
  by_cases hu : String.ofList cs = "_"
  · obtain rfl : cs = ['_'] := String.ofList_inj.1 hu
    rfl
  · have low := isLower_of_reserved h hu
    rw [String.toList_ofList] at low
    exact (List.map_congr_left fun c hc =>
      Char.toLower_eq_of_not_isUpper (Char.not_isUpper_of_isLower (low c hc))).trans (List.map_id _)

theorem escape_capital {c : Char} (hc : c.isUpper = true) (cs : List Char) :
    sanitizer.escape (c :: cs) = c :: cs := by
  have low : ∀ word ∈ reservedWords, word.toList.head?.any Char.isUpper = false := by decide
  refine escape_of_not_mem fun hm => ?_
  have := low _ hm
  simp [hc] at this

theorem escape_underscore {cs : List Char} (hne : cs ≠ []) : sanitizer.escape ('_' :: cs) = '_' :: cs := by
  refine escape_of_not_mem fun hm => hne ?_
  have := congrArg String.toList (reserved_of_underscore _ hm (by simp))
  simpa using this

/-- What was escaped is in lower case already, so that the escape makes no difference to a segment. -/
theorem escape_lower_escape (c : Char) (cs : List Char) :
    sanitizer.escape ((sanitizer.escape (c :: cs)).map Char.toLower) =
      sanitizer.escape ((c :: cs).map Char.toLower) := by
  by_cases hr : String.ofList (c :: cs) ∈ reservedWords
  · have same := map_toLower_of_reserved hr
    rw [escape_of_mem hr, List.map_cons, same, escape_of_mem hr]
    exact escape_underscore (by simp)
  · rw [escape_of_not_mem hr]

/-- The identifier of a raw name beside its type name, which has the same characters but for the first. -/
inductive Spelling (name : String) : Prop
  | nameless (identifier : sanitizer.identifierChars name.toList = nameless)
      (type : (sanitizer.typeName name).toList = capitalize nameless)
  | number {c : Char} {cs : List Char} (hc : c.isDigit = true) (hs : ∀ d ∈ cs, d.isAlphanum = true)
      (identifier : sanitizer.identifierChars name.toList = '_' :: c :: cs)
      (type : (sanitizer.typeName name).toList = '_' :: c :: cs)
  | letter {c : Char} {cs : List Char} (hc : c.isAlpha = true) (hs : ∀ d ∈ cs, d.isAlphanum = true)
      (identifier : sanitizer.identifierChars name.toList = sanitizer.escape (c :: cs))
      (type : (sanitizer.typeName name).toList = c.toUpper :: cs)

theorem spelling (name : String) : Spelling name := by
  have type : (sanitizer.typeName name).toList =
      sanitizer.escape (capitalize (dropEscape (sanitizer.identifierChars name.toList))) :=
    String.toList_ofList
  rcases sanitizer.identifierChars_alphanum name.toList with h | ⟨c, ds, hc, hds, h⟩
  · refine .nameless h ?_
    rw [type, h]
    decide
  cases hd : c.isDigit with
  | true =>
    have ha : c.isAlpha = false := isAlpha_of_isDigit hd
    have hs : shielded (c :: ds) = '_' :: c :: ds := by simp [shielded, hd]
    rw [hs, escape_underscore (by simp)] at h
    refine .number hd hds h ?_
    rw [type, h, dropEscape, ha]
    exact escape_underscore (by simp)
  | false =>
    have ha : c.isAlpha = true := by simpa [Char.isAlphanum, hd] using hc
    have hs : shielded (c :: ds) = c :: ds := by simp [shielded, hd]
    have dropped : dropEscape (sanitizer.escape (c :: ds)) = c :: ds := by
      unfold Sanitizer.escape
      simp only []
      split
      · rw [dropEscape, if_pos ha]
      · unfold dropEscape
        split
        · next heq =>
          cases heq
          simp at ha
        · rfl
    have upper : c.toUpper.isUpper = true := by rw [Char.isUpper_toUpper_eq_isAlpha, ha]
    rw [hs] at h
    refine .letter ha hds h ?_
    rw [type, h, dropped, capitalize, escape_capital upper]

theorem typeShaped_typeName (name : String) : TypeShaped (sanitizer.typeName name).toList := by
  cases spelling name with
  | nameless _ type =>
    rw [type]
    exact .capital rfl (List.all_eq_true.1 rfl)
  | number hc hs _ type =>
    rw [type]
    exact .number hc hs
  | letter hc hs _ type =>
    rw [type]
    exact .capital (by rw [Char.isUpper_toUpper_eq_isAlpha, hc]) hs

theorem identifierChars_letter {c : Char} {cs : List Char} (hc : c.isAlpha = true)
    (hs : ∀ d ∈ cs, d.isAlphanum = true) : sanitizer.identifierChars (c :: cs) = sanitizer.escape (c :: cs) := by
  have all : ∀ d ∈ c :: cs, d.isAlphanum = true :=
    List.forall_mem_cons.2 ⟨by simp [Char.isAlphanum, hc], hs⟩
  rw [Sanitizer.identifierChars, words_of_alphanum (by simp) all]
  simp [shielded, isDigit_of_isAlpha hc]

theorem identifierChars_underscore (cs : List Char) :
    sanitizer.identifierChars ('_' :: cs) = sanitizer.identifierChars cs := by
  rw [Sanitizer.identifierChars, words_of_underscore, Sanitizer.identifierChars]

theorem identifierChars_capital {c : Char} {cs : List Char} (hc : c.isUpper = true)
    (hs : ∀ d ∈ cs, d.isAlphanum = true) : sanitizer.identifierChars (c :: cs) = c :: cs := by
  rw [identifierChars_letter (by simp [Char.isAlpha, hc]) hs, escape_capital hc]

theorem identifierChars_number {c : Char} {cs : List Char} (hc : c.isDigit = true)
    (hs : ∀ d ∈ cs, d.isAlphanum = true) : sanitizer.identifierChars ('_' :: c :: cs) = '_' :: c :: cs := by
  have all : ∀ d ∈ c :: cs, d.isAlphanum = true :=
    List.forall_mem_cons.2 ⟨isAlphanum_of_isDigit hc, hs⟩
  rw [identifierChars_underscore, Sanitizer.identifierChars, words_of_alphanum (by simp) all]
  simp [shielded, hc, escape_underscore]

theorem packageSegment_capital {name : String} {c : Char} {cs : List Char} (hn : name.toList = c :: cs)
    (hc : c.isUpper = true) (hs : ∀ d ∈ cs, d.isAlphanum = true) :
    ∃ front, (sanitizer.packageSegment name).toList = front ++ c.toLower :: cs.map Char.toLower ∧
      (front = [] ∨ front = ['_']) := by
  rw [Sanitizer.packageSegment, String.toList_ofList, hn, identifierChars_capital hc hs, List.map_cons]
  unfold Sanitizer.escape
  simp only []
  split
  · exact ⟨['_'], rfl, .inr rfl⟩
  · exact ⟨[], rfl, .inl rfl⟩

theorem packageSegment_number {name : String} {c : Char} {cs : List Char} (hn : name.toList = '_' :: c :: cs)
    (hc : c.isDigit = true) (hs : ∀ d ∈ cs, d.isAlphanum = true) :
    sanitizer.packageSegment name = String.ofList (name.toList.map Char.toLower) := by
  rw [Sanitizer.packageSegment, hn, identifierChars_number hc hs]
  show String.ofList (sanitizer.escape ('_' :: (c :: cs).map Char.toLower)) = _
  rw [escape_underscore (by simp)]
  rfl

/-- A type is called like a segment only when both names start with an underscore, in front of a digit. -/
theorem packageSegment_eq_iff {name other : String} (h : TypeShaped name.toList)
    (h' : TypeShaped other.toList) : sanitizer.packageSegment name = other ↔
      name.toList.head? = some '_' ∧ other = String.ofList (name.toList.map Char.toLower) := by
  generalize hn : name.toList = cs at h
  cases h with
  | @capital c cs hc hs =>
    obtain ⟨front, hf, hx⟩ := packageSegment_capital hn hc hs
    have small : c.toLower.isLower = true := by
      rw [Char.isLower_toLower_eq_isAlpha]
      simp [Char.isAlpha, hc]
    constructor
    · rintro rfl
      rw [hf] at h'
      generalize c.toLower = d at small h'
      generalize cs.map Char.toLower = ds at h'
      rcases hx with rfl | rfl
      · cases h' with
        | capital hu => exact absurd small (Char.not_isLower_of_isUpper hu)
        | number => cases small
      · cases h' with
        | capital hu => cases hu
        | number hd =>
          have ha := isAlpha_of_isDigit hd
          simp [Char.isAlpha, small] at ha
    · rintro ⟨hu, -⟩
      cases hu
      cases hc
  | @number c cs hc hs =>
    rw [packageSegment_number hn hc hs, hn]
    simp [eq_comm]

variable {config : Config} {c : Compilation}

theorem typeShaped_simpleName (h : (generator config).resolver.Compiles c) :
    ∀ d ∈ c.topLevel, TypeShaped d.simpleName.toList := by
  have suffixed (raw suffix : String) (hs : ∀ d ∈ suffix.toList, d.isAlphanum = true) :
      TypeShaped (sanitizer.typeName raw ++ suffix).toList := by
    rw [String.toList_append]
    exact (typeShaped_typeName raw).append hs
  intro d hd
  exact (h.forall_simpleName (N := fun name => TypeShaped name.toList) typeShaped_typeName
    (fun raw => suffixed raw "Spec" (List.all_eq_true.1 rfl))
    (fun raw => suffixed raw "Status" (List.all_eq_true.1 rfl)) d hd).1

/-- A class is named like a package, or like one around it, exactly when its simple name starts with an
underscore in front of a digit, has no capital letter and is, up to case, that of a class of its package
that nests another one. -/
theorem namesPackage_iff_lower (config : Config) (c : Compilation)
    (h : (generator config).resolver.Compiles c) : ∀ t ∈ c.topLevel, TypeShaped t.simpleName.toList ∧
      ((∃ d ∈ c.topLevel, t.NamesPackage d.package) ↔
        ∃ u, .object u ∈ c.topLevel ∧ u.package = t.package ∧ u.simpleName.toList.head? = some '_' ∧
          t.simpleName = String.ofList (u.simpleName.toList.map Char.toLower) ∧
            ∃ d ∈ u.nested, d.isUnit = true) := by
  intro t ht
  have shaped := typeShaped_simpleName h
  refine ⟨shaped t ht, (h.namesPackage_iff ht).trans ⟨?_, ?_⟩⟩
  · rintro ⟨u, hu, hp, hs, hd⟩
    obtain ⟨head, lower⟩ := (packageSegment_eq_iff (shaped _ hu) (shaped t ht)).1 hs
    exact ⟨u, hu, hp, head, lower, hd⟩
  · rintro ⟨u, hu, hp, head, lower, hd⟩
    exact ⟨u, hu, hp, (packageSegment_eq_iff (shaped _ hu) (shaped t ht)).2 ⟨head, lower⟩, hd⟩

/-- Classes whose names start with a digit, one of them with a capital letter and a class inside. -/
def ratioValue : Value :=
  .map [(.str "properties", .map [
    (.str "2X", .map [(.str "properties", .map [(.str "limit", .map [(.str "type", .str "object")])])]),
    (.str "10", .map [(.str "type", .str "object")])])]

theorem namesPackage_iff_lower_ratio : ∃ c, (generator {}).resolver.Compiles c ∧
    c.topLevel.map (·.name) = ["io.ratio._2x.Limit", "io.ratio._2X", "io.ratio._10", "io.Ratio"] ∧
    ∀ t ∈ c.topLevel, ∀ d ∈ c.topLevel, ¬ t.NamesPackage d.package := by
  obtain ⟨c, hc, names, nested⟩ : ∃ c,
      (generator {}).resolver.compileSchema ratioValue "Ratio" (.str "io") = .ok c ∧
        c.topLevel.map (·.name) = ["io.ratio._2x.Limit", "io.ratio._2X", "io.ratio._10", "io.Ratio"] ∧
        ∀ t ∈ c.topLevel, ∀ u ∈ c.topLevel, u.simpleName.toList.head? = some '_' →
          t.simpleName = String.ofList (u.simpleName.toList.map Char.toLower) → u.nested.length = 0 :=
    ⟨_, rfl, by decide +kernel, by decide +kernel⟩
  refine ⟨c, .schema hc, names, fun t ht d hd hn => ?_⟩
  obtain ⟨u, hu, -, head, lower, d, hd, -⟩ := ((namesPackage_iff_lower {} c (.schema hc) t ht).2).1 ⟨d, hd, hn⟩
  have none : u.nested = [] := List.length_eq_zero_iff.1 (nested t ht _ hu head lower)
  rw [none] at hd
  cases hd

/-- A class whose name is a number, with a class inside. -/
def numberValue : Value :=
  .map [(.str "properties", .map [(.str "1", .map [
    (.str "properties", .map [(.str "limit", .map [(.str "type", .str "object")])])])])]

theorem namesPackage_number : ∃ c t d,
    (generator {}).resolver.compileSchema numberValue "Disk" (.str "io") = .ok c ∧
      t ∈ c.topLevel ∧ d ∈ c.topLevel ∧ t.name = "io.disk._1" ∧ d.name = "io.disk._1.Limit" ∧
        t.name = Text.join "." d.package ∧ t.NamesPackage d.package :=
  ⟨_, _, _, rfl, .tail _ (.head _), .head _, by decide +kernel, by decide +kernel, by decide +kernel,
    _, List.prefix_refl _, by decide +kernel⟩

end Java

end ResourceCompiler
