import Mathlib.Data.List.DropRight
import ResourceCompiler.Proofs.Naming
import ResourceCompiler.Proofs.Path
import ResourceCompiler.Source

/-!
# The normal form of source text

Formatting keeps the paragraphs of a text, its lines as they are parted by blank ones, and lays them out with one empty
line between two of them (`formatChars_eq`). What is laid out has the paragraphs that it was made of
(`paragraphs_layOut`), so that formatting a second time changes nothing, and it is in normal form whatever the
paragraphs are (`normal_layOut`).
-/

namespace ResourceCompiler.Source

open Text

/-- The paragraphs of a text: its lines without the blanks at their ends, parted where such a line is empty. -/
def paragraphs (cs : List Char) : List (List (List Char)) :=
  (((lines cs).map (trimRight isBlank)).splitOn []).filter (!·.isEmpty)

/-- A text of paragraphs: an empty line between two of them, and a newline at the end. -/
def layOut (ps : List (List (List Char))) : List Char :=
  joinWith ['\n'] ([[]].intercalate ps) ++ ['\n']

/-- Texts in normal form. Of their lines, the last is what stands behind the last newline. -/
structure Normal (cs : List Char) : Prop where
  /-- There is one newline at the end. -/
  ends : ∃ body, cs = body ++ ['\n'] ∧ body.getLast? ≠ some '\n'
  starts : cs.head? = some '\n' → cs = ['\n']
  trimmed : ∀ line ∈ lines cs, ∀ c, line.getLast? = some c → isBlank c = false
  spaced : (lines cs).dropLast.IsChain fun line next => line ≠ [] ∨ next ≠ []

/-- A line of a paragraph. -/
structure Row (line : List Char) : Prop where
  ne_nil : line ≠ []
  newline : '\n' ∉ line
  trimmed : ∀ c, line.getLast? = some c → isBlank c = false

/-- Paragraphs that a text can have. -/
def Rows (ps : List (List (List Char))) : Prop := ∀ p ∈ ps, p ≠ [] ∧ ∀ line ∈ p, Row line

variable {cs line : List Char} {ls : List (List Char)} {ps : List (List (List Char))}

/-! ### Pieces -/

theorem flatten_splitOn (ls : List (List Char)) : (ls.splitOn []).flatten = ls.filter (!·.isEmpty) := by
  induction ls with
  | nil => rfl
  | cons line ls ih =>
    rw [List.splitOn_eq_splitOnP] at ih ⊢
    rw [List.splitOnP_cons_eq_if_modifyHead]
    obtain ⟨first, rest, pieces⟩ := List.exists_cons_of_ne_nil (List.splitOnP_ne_nil (· == []) ls)
    cases line with
    | nil => simpa using ih
    | cons c cs =>
      rw [pieces] at ih ⊢
      simpa using ih

theorem nil_not_mem_of_mem_splitOn {p : List (List Char)} (h : p ∈ ls.splitOn []) : [] ∉ p := by
  intro empty
  have inside : [] ∈ (ls.splitOn []).flatten := List.mem_flatten.2 ⟨p, h, empty⟩
  rw [flatten_splitOn] at inside
  simpa using (List.mem_filter.1 inside).2

theorem intercalate_concat (ps : List (List (List Char))) (p : List (List Char)) :
    [[]].intercalate (ps ++ [p]) = ps.flatMap (· ++ [[]]) ++ p := by
  induction ps with
  | nil => simp
  | cons q ps ih =>
    rw [List.cons_append, List.intercalate_cons_of_ne_nil (by simp), ih, List.flatMap_cons]
    simp only [List.append_assoc]

theorem mem_intercalate (h : line ∈ [[]].intercalate ps) : line = [] ∨ ∃ p ∈ ps, line ∈ p := by
  induction ps with
  | nil => simp at h
  | cons p ps ih =>
    by_cases more : ps = []
    · subst more
      rw [List.intercalate_singleton] at h
      exact Or.inr ⟨p, List.mem_singleton_self p, h⟩
    · rw [List.intercalate_cons_of_ne_nil more, List.mem_append, List.mem_append, List.mem_singleton] at h
      rcases h with (h | h) | h
      · exact Or.inr ⟨p, List.mem_cons_self, h⟩
      · exact Or.inl h
      · rcases ih h with h | ⟨q, hq, h⟩
        · exact Or.inl h
        · exact Or.inr ⟨q, List.mem_cons_of_mem _ hq, h⟩

/-! ### Empty lines -/

theorem collapse_cons (h : line ≠ []) (afterEmpty : Bool) (ls : List (List Char)) :
    collapse afterEmpty (line :: ls) = line :: collapse false ls := by
  rw [collapse, if_neg (by simpa using h)]

/-- Lines that are not empty all stay. -/
theorem collapse_append {p : List (List Char)} (h : [] ∉ p) (ls : List (List Char)) :
    collapse false (p ++ ls) = p ++ collapse false ls := by
  induction p with
  | nil => rfl
  | cons line p ih =>
    rw [List.mem_cons, not_or] at h
    rw [List.cons_append, collapse_cons (Ne.symm h.1), ih h.2, List.cons_append]

/-- At the start there may be an empty line more. -/
theorem collapse_false (ls : List (List Char)) :
    collapse false ls = collapse true ls ∨ collapse false ls = [] :: collapse true ls := by
  cases ls with
  | nil => exact Or.inl rfl
  | cons line ls =>
    cases line with
    | nil => exact Or.inr rfl
    | cons c cs => exact Or.inl rfl

/-- An empty line is dropped behind another one. -/
theorem collapse_nil_cons (ps : List (List (List Char))) :
    collapse true ([[]].intercalate ([] :: ps)) = collapse true ([[]].intercalate ps) := by
  cases ps with
  | nil => rfl
  | cons p ps =>
    rw [List.intercalate_cons_cons]
    rfl

theorem collapse_piece {p : List (List Char)} (some : p ≠ []) (h : [] ∉ p) (ls : List (List Char)) :
    collapse true (p ++ ls) = p ++ collapse false ls := by
  obtain ⟨line, p, rfl⟩ := List.exists_cons_of_ne_nil some
  rw [List.mem_cons, not_or] at h
  rw [List.cons_append, collapse_cons (Ne.symm h.1), collapse_append h.2, List.cons_append]

/-- Of the empty lines that part pieces, one stays between two that have lines, and perhaps one at the end. -/
theorem collapse_true (h : ∀ p ∈ ps, [] ∉ p) : ∃ back, (back = [] ∨ back = [[]]) ∧
    (ps.filter (!·.isEmpty) = [] → back = []) ∧
      collapse true ([[]].intercalate ps) = [[]].intercalate (ps.filter (!·.isEmpty)) ++ back := by
  induction ps with
  | nil => exact ⟨[], Or.inl rfl, fun _ => rfl, rfl⟩
  | cons p ps ih =>
    obtain ⟨hp, hps⟩ := List.forall_mem_cons.1 h
    obtain ⟨back, short, bare, rest⟩ := ih hps
    by_cases some : p = []
    · subst some
      exact ⟨back, short, bare, (collapse_nil_cons ps).trans rest⟩
    rw [List.filter_cons_of_pos (by simpa using some)]
    by_cases more : ps = []
    · subst more
      refine ⟨[], Or.inl rfl, fun _ => rfl, ?_⟩
      have whole := collapse_piece some hp []
      rw [List.append_nil] at whole
      simpa [collapse] using whole
    · rw [List.intercalate_cons_of_ne_nil more, List.append_assoc, collapse_piece some hp, List.singleton_append,
        collapse, if_pos (by rfl), if_neg (by simp), rest]
      by_cases none : ps.filter (!·.isEmpty) = []
      · rw [none, bare none]
        exact ⟨[[]], Or.inr rfl, by simp, by simp⟩
      · rw [List.intercalate_cons_of_ne_nil none]
        exact ⟨back, short, by simp, by simp⟩

/-! ### Ends -/

theorem trim_cons {c : Char} {p : Char → Bool} (h : p c = true) (cs : List Char) : trim p (c :: cs) = trim p cs := by
  rw [trim, trim, List.dropWhile_cons_of_pos h]

theorem trim_concat {c : Char} {p : Char → Bool} (h : p c = true) (cs : List Char) :
    trim p (cs ++ [c]) = trim p cs := by
  have right (cs : List Char) : trimRight p (cs ++ [c]) = trimRight p cs := List.rdropWhile_concat_pos p cs c h
  rw [trim, trim, List.dropWhile_append]
  split
  · next all =>
    rw [List.isEmpty_iff.1 all, List.dropWhile_cons_of_pos h]
    rfl
  · exact right _

theorem trim_eq_self {p : Char → Bool} (first : ∀ c, cs.head? = some c → p c = false)
    (last : ∀ c, cs.getLast? = some c → p c = false) : trim p cs = cs := by
  cases cs with
  | nil => rfl
  | cons c cs =>
    rw [trim, List.dropWhile_cons_of_neg (by simp [first c rfl])]
    refine List.rdropWhile_eq_self_iff.2 fun some => ?_
    simp [last _ (List.getLast?_eq_some_getLast some)]

theorem trim_nil_cons (ls : List (List Char)) :
    trim (· = '\n') (joinWith ['\n'] ([] :: ls)) = trim (· = '\n') (joinWith ['\n'] ls) := by
  cases ls with
  | nil => rfl
  | cons line ls =>
    rw [joinWith.eq_3 _ _ _ (List.cons_ne_nil line ls)]
    exact trim_cons (by decide) _

theorem trim_concat_nil (ls : List (List Char)) :
    trim (· = '\n') (joinWith ['\n'] (ls ++ [[]])) = trim (· = '\n') (joinWith ['\n'] ls) := by
  rcases List.eq_nil_or_concat ls with rfl | ⟨init, line, rfl⟩
  · rfl
  · rw [List.concat_eq_append, joinWith_concat, joinWith_concat, List.flatMap_append, List.flatMap_singleton,
      List.append_nil, ← List.append_assoc]
    exact trim_concat (by decide) _

/-- An empty line at the start does not matter where newlines are trimmed. -/
theorem trim_collapse (ls : List (List Char)) : trim (· = '\n') (joinWith ['\n'] (collapse false ls)) =
    trim (· = '\n') (joinWith ['\n'] (collapse true ls)) := by
  rcases collapse_false ls with same | more
  · rw [same]
  · rw [more, trim_nil_cons]

namespace Rows

/-- Paragraphs start with a row. -/
theorem head (h : Rows ps) : ∀ c, (joinWith ['\n'] ([[]].intercalate ps)).head? = some c → c ≠ '\n' := by
  cases ps with
  | nil => simp [joinWith]
  | cons p ps =>
    obtain ⟨⟨some, rows⟩, -⟩ := List.forall_mem_cons.1 h
    obtain ⟨line, p, rfl⟩ := List.exists_cons_of_ne_nil some
    have row := rows line List.mem_cons_self
    obtain ⟨d, line, rfl⟩ := List.exists_cons_of_ne_nil row.ne_nil
    obtain ⟨rest, text⟩ := joinWith_cons ['\n'] (d :: line) ([[]].intercalate (p :: ps))
    rw [List.intercalate_cons_cons_left, text]
    rintro c ⟨⟩ rfl
    exact row.newline List.mem_cons_self

/-- Paragraphs end with a row. -/
theorem last (h : Rows ps) : ∀ c, (joinWith ['\n'] ([[]].intercalate ps)).getLast? = some c → c ≠ '\n' := by
  rcases List.eq_nil_or_concat ps with rfl | ⟨init, p, rfl⟩
  · simp [joinWith]
  · rw [List.concat_eq_append] at h ⊢
    obtain ⟨some, rows⟩ := h p (by simp)
    obtain ⟨p', line, rfl⟩ := (List.eq_nil_or_concat p).resolve_left some
    rw [List.concat_eq_append] at rows ⊢
    have row := rows line (by simp)
    rw [intercalate_concat, ← List.append_assoc, joinWith_concat, List.getLast?_append_of_ne_nil _ row.ne_nil]
    rintro c hc rfl
    exact row.newline (List.mem_of_getLast? hc)

end Rows

/-! ### Layouts -/

theorem flatten_paragraphs (cs : List Char) :
    (paragraphs cs).flatten = ((lines cs).map (trimRight isBlank)).filter (!·.isEmpty) := by
  rw [← flatten_splitOn, paragraphs, List.flatten_filter_not_isEmpty]

theorem not_blank_of_trimRight {p : Char → Bool} {c : Char} (h : (trimRight p cs).getLast? = some c) : p c = false := by
  have h : (cs.rdropWhile p).getLast? = some c := h
  have full : cs.rdropWhile p ≠ [] := by
    intro empty
    rw [empty] at h
    cases h
  rw [List.getLast?_eq_some_getLast full] at h
  cases h
  simpa using List.rdropWhile_last_not p cs full

theorem rows_paragraphs (cs : List Char) : Rows (paragraphs cs) := by
  intro p hp
  refine ⟨by simpa using (List.mem_filter.1 hp).2, fun row hrow => ?_⟩
  have inside : row ∈ (paragraphs cs).flatten := List.mem_flatten.2 ⟨p, hp, hrow⟩
  rw [flatten_paragraphs] at inside
  obtain ⟨trimmed, some⟩ := List.mem_filter.1 inside
  obtain ⟨line, hline, rfl⟩ := List.mem_map.1 trimmed
  refine ⟨by simpa using some, fun newline => ?_, fun c hc => not_blank_of_trimRight hc⟩
  have separator := not_of_mem_splitAt hline '\n' ((List.rdropWhile_prefix isBlank line).mem newline)
  simp at separator

/-- Formatting lays out the paragraphs of a text. -/
theorem formatChars_eq (cs : List Char) : formatChars cs = layOut (paragraphs cs) := by
  have rows := rows_paragraphs cs
  have whole : [[]].intercalate (((lines cs).map (trimRight isBlank)).splitOn []) =
      (lines cs).map (trimRight isBlank) := List.intercalate_splitOn []
  have full : ∀ p ∈ ((lines cs).map (trimRight isBlank)).splitOn [], [] ∉ p := fun p => nil_not_mem_of_mem_splitOn
  obtain ⟨back, short, -, collapsed⟩ := collapse_true full
  rw [whole] at collapsed
  have stop (ls : List (List Char)) : trim (· = '\n') (joinWith ['\n'] (ls ++ back)) =
      trim (· = '\n') (joinWith ['\n'] ls) := by
    rcases short with rfl | rfl
    · rw [List.append_nil]
    · exact trim_concat_nil ls
  rw [formatChars, trim_collapse, collapsed, stop, layOut]
  refine congrArg (· ++ ['\n']) (trim_eq_self ?_ ?_)
  · exact fun c hc => decide_eq_false (rows.head c hc)
  · exact fun c hc => decide_eq_false (rows.last c hc)

namespace Rows

theorem nil_not_mem (h : Rows ps) : ∀ p ∈ ps, [] ∉ p :=
  fun p hp empty => ((h p hp).2 [] empty).ne_nil rfl

theorem of_mem (h : Rows ps) (hl : line ∈ [[]].intercalate ps) : line = [] ∨ Row line := by
  rcases mem_intercalate hl with empty | ⟨p, hp, inside⟩
  · exact Or.inl empty
  · exact Or.inr ((h p hp).2 line inside)

/-- No two lines of paragraphs are empty in a row. -/
theorem spaced (h : Rows ps) : ([[]].intercalate ps).IsChain fun line next => line ≠ [] ∨ next ≠ [] := by
  induction ps with
  | nil => exact List.isChain_nil
  | cons p ps ih =>
    obtain ⟨⟨-, rows⟩, rest⟩ := List.forall_mem_cons.1 h
    have inside : p.IsChain fun line next => line ≠ [] ∨ next ≠ [] :=
      (List.pairwise_of_forall_mem_list fun line hl _ _ => Or.inl (rows line hl).ne_nil).isChain
    cases ps with
    | nil =>
      rw [List.intercalate_singleton]
      exact inside
    | cons q ps =>
      -- the line behind the empty one is the first of a paragraph
      obtain ⟨some, next⟩ := rest q List.mem_cons_self
      obtain ⟨line, q, rfl⟩ := List.exists_cons_of_ne_nil some
      have row := next line List.mem_cons_self
      have ih := ih rest
      rw [List.intercalate_cons_cons_left] at ih
      rw [List.intercalate_cons_cons, List.append_assoc, List.singleton_append, List.intercalate_cons_cons_left,
        List.isChain_append]
      refine ⟨inside, List.isChain_cons_cons.2 ⟨Or.inr row.ne_nil, ih⟩, fun last hl _ _ => Or.inl ?_⟩
      exact (rows last (List.mem_of_getLast? hl)).ne_nil

end Rows

/-- The lines of a layout: those of its paragraphs and the empty ones between, or an empty one when there are none, and
what stands behind the newline. -/
theorem lines_layOut (h : Rows ps) :
    lines (layOut ps) = (if ps = [] then [[]] else [[]].intercalate ps) ++ [[]] := by
  have cut : lines (layOut ps) = lines (joinWith ['\n'] ([[]].intercalate ps)) ++ [[]] :=
    splitAt_append (by decide) _ []
  rw [cut]
  split
  · next none =>
    subst none
    rfl
  · next some =>
    have full : [[]].intercalate ps ≠ [] := by
      obtain ⟨p, ps, rfl⟩ := List.exists_cons_of_ne_nil some
      obtain ⟨line, p, rfl⟩ := List.exists_cons_of_ne_nil (h p List.mem_cons_self).1
      rw [List.intercalate_cons_cons_left]
      exact List.cons_ne_nil _ _
    refine congrArg (· ++ [[]]) (splitAt_joinWith full fun line hl => ?_)
    rcases h.of_mem hl with rfl | row
    · simp
    · exact row.newline

theorem of_mem_lines_layOut (h : Rows ps) (hl : line ∈ lines (layOut ps)) : line = [] ∨ Row line := by
  rw [lines_layOut h, List.mem_append, List.mem_singleton] at hl
  rcases hl with hl | empty
  · split at hl
    · exact Or.inl (List.mem_singleton.1 hl)
    · exact h.of_mem hl
  · exact Or.inl empty

theorem trimmed_layOut (h : Rows ps) : (lines (layOut ps)).map (trimRight isBlank) = lines (layOut ps) := by
  refine (List.map_congr_left fun line hl => ?_).trans (List.map_id _)
  rcases of_mem_lines_layOut h hl with rfl | row
  · rfl
  · refine List.rdropWhile_eq_self_iff.2 fun some => ?_
    simp [row.trimmed _ (List.getLast?_eq_some_getLast some)]

theorem paragraphs_layOut (h : Rows ps) : paragraphs (layOut ps) = ps := by
  rw [paragraphs, trimmed_layOut h, lines_layOut h]
  split
  · next none =>
    subst none
    rfl
  · next some =>
    have pieces : ([[]].intercalate ps ++ [[]]).splitOn [] = ps ++ [[]] := by
      rw [List.splitOn_eq_splitOnP, List.splitOnP_append_cons _ _ (by rfl), ← List.splitOn_eq_splitOnP,
        List.splitOn_intercalate [] h.nil_not_mem some, List.splitOnP_nil]
    have kept : ps.filter (!·.isEmpty) = ps := List.filter_eq_self.2 fun p hp => by simpa using (h p hp).1
    rw [pieces, List.filter_append, kept]
    exact List.append_nil ps

theorem normal_layOut (h : Rows ps) : Normal (layOut ps) where
  ends := ⟨_, rfl, fun last => h.last _ last rfl⟩
  starts first := by
    by_cases empty : joinWith ['\n'] ([[]].intercalate ps) = []
    · rw [layOut, empty]
      rfl
    · rw [layOut, List.head?_append_of_ne_nil _ empty] at first
      exact absurd rfl (h.head _ first)
  trimmed line hl c hc := by
    rcases of_mem_lines_layOut h hl with rfl | row
    · cases hc
    · exact row.trimmed c hc
  spaced := by
    rw [lines_layOut h, List.dropLast_concat]
    split
    · exact List.isChain_singleton _
    · exact h.spaced

/-- A formatted text is in normal form and stays as it is when it is formatted again. It has the lines of the text that
are not blank, without the blanks at their ends, and an empty line between two of them exactly where blank ones part
the text. -/
theorem format_normal (code : String) :
    format (format code) = format code ∧ Normal (format code).toList ∧
      (lines (format code).toList).filter (!·.isEmpty) =
        ((lines code.toList).map (trimRight isBlank)).filter (!·.isEmpty) ∧
      paragraphs (format code).toList = paragraphs code.toList := by
  have rows := rows_paragraphs code.toList
  have text : (format code).toList = layOut (paragraphs code.toList) := by
    rw [format, String.toList_ofList, formatChars_eq]
  have same : paragraphs (format code).toList = paragraphs code.toList := by
    rw [text, paragraphs_layOut rows]
  refine ⟨?_, text ▸ normal_layOut rows, ?_, same⟩
  · rw [format, formatChars_eq, same, format, formatChars_eq]
  · rw [← flatten_paragraphs code.toList, ← same, flatten_paragraphs, text, trimmed_layOut rows]

example : format "a  \n\n\n\nb\n\n" = "a\n\nb\n" := by decide +kernel

end ResourceCompiler.Source
