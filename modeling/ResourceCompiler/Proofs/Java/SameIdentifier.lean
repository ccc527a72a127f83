import Mathlib.Data.List.SplitBy
import ResourceCompiler.Proofs.Java.Packages

/-!
# Names with one identifier

An identifier is the runs of letters and digits of a name, joined, behind the escapes of digits and reserved words.
Escapes are underscores, which part runs and belong to none: an identifier has what was joined as its only run. So it is
its own identifier, and two names have the same one exactly if their runs join to the same text (`identifier_eq_iff`).
-/

namespace ResourceCompiler

namespace Naming

/-- The runs of letters and digits in a name, each as long as it can be. -/
def runs (cs : List Char) : List (List Char) :=
  (cs.splitBy fun c d => c.isAlphanum == d.isAlphanum).filter (·.all Char.isAlphanum)

/-- The runs of a name in one, each but the first with its first letter in upper case. -/
def joined (cs : List Char) : List Char :=
  match runs cs with
  | [] => "field".toList
  | first :: rest => first ++ (rest.map fun run => run.modifyHead Char.toUpper).flatten

/-- A text that keeps runs apart: not empty, and without letters and digits. -/
def Separator (text : String) : Prop := text ≠ "" ∧ ∀ c ∈ text.toList, c.isAlphanum = false

variable {cs ds run : List Char}

/-! ### Words as runs -/

theorem words_append {c : Char} (hc : c.isAlphanum = false) (cs ds : List Char) :
    words (cs ++ c :: ds) = words cs ++ words ds := by
  have separates : (!c.isAlphanum) = true := by simp [hc]
  rw [words, Text.splitAt_append separates, List.filter_append, words, words]

theorem words_of_separators (h : ∀ c ∈ cs, c.isAlphanum = false) (ds : List Char) :
    words (cs ++ ds) = words ds := by
  induction cs with
  | nil => rfl
  | cons c cs ih =>
    obtain ⟨hc, hcs⟩ := List.forall_mem_cons.1 h
    exact (words_append hc [] (cs ++ ds)).trans (ih hcs)

theorem words_of_run (hne : run ≠ []) (h : ∀ c ∈ run, c.isAlphanum = true)
    (ends : ∀ c ∈ ds.head?, c.isAlphanum = false) : words (run ++ ds) = run :: words ds := by
  cases ds with
  | nil =>
    rw [List.append_nil, words_of_alphanum hne h]
    rfl
  | cons c ds =>
    have hc : c.isAlphanum = false := ends c rfl
    have rest : words (c :: ds) = words ds := words_append hc [] ds
    rw [words_append hc, words_of_alphanum hne h, rest]
    rfl

/-- The characters of a piece all belong to runs, or none does. -/
theorem isAlphanum_eq_of_isChain {c : Char} (h : (c :: cs).IsChain fun c d => c.isAlphanum == d.isAlphanum) :
    ∀ d ∈ c :: cs, d.isAlphanum = c.isAlphanum := by
  induction cs generalizing c with
  | nil => simp
  | cons d cs ih =>
    rw [List.isChain_cons_cons, beq_iff_eq] at h
    rw [List.forall_mem_cons]
    exact ⟨rfl, fun e he => (ih h.2 e he).trans h.1.symm⟩

/-- Behind a run stands no letter or digit. -/
theorem not_isAlphanum_of_apart {pieces : List (List Char)} (all : ∀ c ∈ run, c.isAlphanum = true)
    (apart : ∀ next ∈ pieces.head?, ∃ ha hb, ((run.getLast ha).isAlphanum == (next.head hb).isAlphanum) = false) :
    ∀ c ∈ pieces.flatten.head?, c.isAlphanum = false := by
  cases pieces with
  | nil => simp
  | cons next pieces =>
    obtain ⟨_, some, differ⟩ := apart next rfl
    have last := all _ (List.getLast_mem ‹_›)
    rw [last] at differ
    rw [List.flatten_cons, List.head?_append_of_ne_nil _ some, List.head?_eq_some_head some]
    simpa using differ

theorem words_eq_runs (cs : List Char) : words cs = runs cs := by
  obtain ⟨whole, full, alike, apart⟩ :=
    List.splitBy_eq_iff.1 (Eq.refl (cs.splitBy fun c d => c.isAlphanum == d.isAlphanum))
  rw [runs]
  generalize (cs.splitBy fun c d => c.isAlphanum == d.isAlphanum) = pieces at whole full alike apart
  subst whole
  induction pieces with
  | nil => rfl
  | cons piece pieces ih =>
    rw [List.mem_cons, not_or] at full
    rw [List.forall_mem_cons] at alike
    rw [List.isChain_cons] at apart
    have rest := ih full.2 alike.2 apart.2
    obtain ⟨c, piece, rfl⟩ := List.exists_cons_of_ne_nil (Ne.symm full.1)
    have same := isAlphanum_eq_of_isChain alike.1
    rw [List.flatten_cons]
    cases hc : c.isAlphanum with
    | false =>
      rw [hc] at same
      rw [words_of_separators same, rest, List.filter_cons_of_neg (by simp [hc])]
    | true =>
      rw [hc] at same
      have ends := not_isAlphanum_of_apart same apart.1
      have kept : (c :: piece).all Char.isAlphanum = true := List.all_eq_true.2 same
      rw [words_of_run (List.cons_ne_nil c piece) same ends, rest, List.filter_cons, if_pos kept]

theorem capitalize_eq (cs : List Char) : capitalize cs = cs.modifyHead Char.toUpper := by
  cases cs <;> rfl

theorem joined_of_words_eq_nil (h : words cs = []) : joined cs = nameless := by
  rw [joined, ← words_eq_runs, h]
  rfl

theorem joined_of_words_eq_cons {first : List Char} {rest : List (List Char)} (h : words cs = first :: rest) :
    joined cs = first ++ rest.flatMap capitalize := by
  rw [joined, ← words_eq_runs, h, List.flatMap_def, funext capitalize_eq]

theorem joined_congr (h : words cs = words ds) : joined cs = joined ds := by
  rw [joined, ← words_eq_runs, h, words_eq_runs, joined]

/-- What is joined is one word. -/
theorem words_joined (cs : List Char) : words (joined cs) = [joined cs] := by
  cases h : words cs with
  | nil =>
    rw [joined_of_words_eq_nil h]
    decide
  | cons first rest =>
    have hf : first ∈ words cs := h ▸ List.mem_cons_self
    have hne : first ≠ [] := by simpa using (List.mem_filter.1 hf).2
    rw [joined_of_words_eq_cons h]
    refine words_of_alphanum (by simp [hne]) (List.forall_mem_append.2 ⟨isAlphanum_of_mem_words hf, ?_⟩)
    intro c hc
    obtain ⟨word, hm, hc⟩ := List.mem_flatMap.1 hc
    exact isAlphanum_capitalize (isAlphanum_of_mem_words (h ▸ List.mem_cons_of_mem _ hm)) c hc

theorem words_shielded (cs : List Char) : words (shielded cs) = words cs := by
  unfold shielded
  split
  · rfl
  · split
    · exact words_of_underscore _
    · rfl

theorem words_separated {between : String} (h : Separator between) (cs ds : List Char) :
    words (cs ++ (between.toList ++ ds)) = words cs ++ words ds := by
  obtain ⟨some, separators⟩ := h
  obtain ⟨c, rest, text⟩ := List.exists_cons_of_ne_nil (mt String.toList_eq_nil_iff.1 some)
  rw [text, List.forall_mem_cons] at separators
  rw [text, List.cons_append, words_append separators.1, words_of_separators separators.2]

end Naming

namespace Sanitizer

open Naming

variable (s : Sanitizer) (cs : List Char)

theorem words_escape : words (s.escape cs) = words cs := by
  unfold escape
  simp only []
  split
  · exact words_of_underscore _
  · rfl

/-- What was joined is read back from an identifier. -/
theorem words_identifierChars : words (s.identifierChars cs) = [joined cs] := by
  rw [← words_joined cs, identifierChars]
  cases h : words cs with
  | nil => rw [joined_of_words_eq_nil h]
  | cons first rest => rw [joined_of_words_eq_cons h, words_escape, words_shielded]

theorem joined_identifierChars : joined (s.identifierChars cs) = joined cs := by
  rw [joined_of_words_eq_cons (s.words_identifierChars cs), List.flatMap_nil, List.append_nil]

end Sanitizer

namespace Java

open Naming

/-- The name of what has no words needs no escape, so that all identifiers are made in one way. -/
theorem identifierChars_eq_joined (cs : List Char) :
    sanitizer.identifierChars cs = sanitizer.escape (shielded (joined cs)) := by
  rw [Sanitizer.identifierChars]
  cases h : words cs with
  | nil =>
    rw [joined_of_words_eq_nil h]
    decide
  | cons first rest => rw [joined_of_words_eq_cons h]

theorem identifierChars_eq_iff (cs ds : List Char) :
    sanitizer.identifierChars cs = sanitizer.identifierChars ds ↔ joined cs = joined ds := by
  constructor
  · intro same
    rw [← sanitizer.joined_identifierChars cs, same, sanitizer.joined_identifierChars]
  · intro same
    rw [identifierChars_eq_joined, same, identifierChars_eq_joined]

/-- An identifier is its own. Two names have the same identifier exactly if their runs join to the same text, whatever
keeps the runs apart. -/
theorem identifier_eq_iff (a b : String) :
    sanitizer.identifier (sanitizer.identifier a) = sanitizer.identifier a ∧
    (sanitizer.identifier a = sanitizer.identifier b ↔ joined a.toList = joined b.toList) ∧
    ∀ before after between between' : String, Separator between → Separator between' →
      sanitizer.identifier (before ++ between ++ after) = sanitizer.identifier (before ++ between' ++ after) := by
  have same (a b : String) : sanitizer.identifier a = sanitizer.identifier b ↔ joined a.toList = joined b.toList :=
    String.ofList_inj.trans (identifierChars_eq_iff a.toList b.toList)
  refine ⟨?_, same a b, fun before after between between' separator separator' => ?_⟩
  · rw [same, Sanitizer.identifier, String.toList_ofList, Sanitizer.joined_identifierChars]
  · rw [same]
    refine joined_congr ?_
    simp only [String.toList_append, List.append_assoc]
    rw [words_separated separator, words_separated separator']

/-- A keyword and its escape, and a name with two separators. -/
theorem identifier_eq_iff_class :
    sanitizer.identifier "class" = "_class" ∧ sanitizer.identifier "_class" = "_class" ∧
      sanitizer.identifier "1class" = "_1class" ∧ sanitizer.identifier "class" ≠ sanitizer.identifier "1class" ∧
      Separator "_" ∧ Separator " - " ∧
      sanitizer.identifier ("test" ++ "_" ++ "Dup") = sanitizer.identifier ("test" ++ " - " ++ "Dup") := by
  have escaped : sanitizer.identifier "class" = "_class" := by decide +kernel
  obtain ⟨again, apart, exchanged⟩ := identifier_eq_iff "class" "1class"
  rw [escaped] at again
  have underscore : Separator "_" := ⟨by decide, by simp⟩
  have dash : Separator " - " := ⟨by decide, by simp⟩
  exact ⟨escaped, again, by decide +kernel, mt apart.1 (by decide +kernel), underscore, dash,
    exchanged "test" "Dup" "_" " - " underscore dash⟩

end Java

end ResourceCompiler
