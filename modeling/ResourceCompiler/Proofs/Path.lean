import ResourceCompiler.FileTree

/-!
# Joined paths

Parts without slashes are read back from the path they are joined to, and such a path below a target is
the target and the parts, unless one of them leads up.
-/

namespace ResourceCompiler

namespace Text

theorem splitAt_ne_nil {p : Char → Bool} (cs : List Char) : splitAt p cs ≠ [] := by
  cases cs with
  | nil => exact List.cons_ne_nil _ _
  | cons c cs =>
    rw [splitAt]
    split
    · exact List.cons_ne_nil _ _
    · split <;> exact List.cons_ne_nil _ _

theorem splitAt_of_none {p : Char → Bool} {piece : List Char} (h : ∀ c ∈ piece, p c = false) :
    splitAt p piece = [piece] := by
  induction piece with
  | nil => rfl
  | cons c cs ih =>
    obtain ⟨hc, hcs⟩ := List.forall_mem_cons.1 h
    simp [splitAt, hc, ih hcs]

/-- The pieces on both sides of a separator. -/
theorem splitAt_append {p : Char → Bool} {separator : Char} (hs : p separator = true) (cs rest : List Char) :
    splitAt p (cs ++ separator :: rest) = splitAt p cs ++ splitAt p rest := by
  induction cs with
  | nil => simp [splitAt, hs]
  | cons c cs ih =>
    rw [List.cons_append, splitAt, splitAt, ih]
    split
    · rfl
    · -- there is a first piece, which the character prolongs
      cases hp : splitAt p cs with
      | nil => exact absurd hp (splitAt_ne_nil cs)
      | cons piece pieces => rfl

theorem splitAt_joinWith {separator : Char} {pieces : List (List Char)} (hne : pieces ≠ [])
    (h : ∀ piece ∈ pieces, separator ∉ piece) :
    splitAt (· = separator) (joinWith [separator] pieces) = pieces := by
  have free : ∀ piece ∈ pieces, ∀ c ∈ piece, decide (c = separator) = false := by
    intro piece hp c hc
    rw [decide_eq_false_iff_not]
    rintro rfl
    exact h piece hp hc
  induction pieces with
  | nil => exact absurd rfl hne
  | cons piece pieces ih =>
    obtain ⟨hp, hps⟩ := List.forall_mem_cons.1 free
    cases pieces with
    | nil => exact splitAt_of_none hp
    | cons next pieces =>
      have rest := ih (by simp) (List.forall_mem_cons.1 h).2 hps
      rw [joinWith.eq_3 _ _ _ (by simp), List.append_assoc, List.singleton_append,
        splitAt_append (by simp), splitAt_of_none hp, rest]
      rfl

theorem joinWith_cons_eq (separator piece : List Char) (pieces : List (List Char)) :
    joinWith separator (piece :: pieces) = piece ++ pieces.flatMap (separator ++ ·) := by
  induction pieces generalizing piece with
  | nil => simp [joinWith]
  | cons next pieces ih =>
    rw [joinWith.eq_3 _ _ _ (List.cons_ne_nil next pieces), ih, List.flatMap_cons]
    simp only [List.append_assoc]

theorem joinWith_cons (separator piece : List Char) (pieces : List (List Char)) :
    ∃ rest, joinWith separator (piece :: pieces) = piece ++ rest :=
  ⟨_, joinWith_cons_eq separator piece pieces⟩

theorem segments_append {text : String} {separator : Char} (ht : text.toList = [separator]) (s s' : String) :
    segments separator (s ++ text ++ s') = segments separator s ++ segments separator s' := by
  have both : (s ++ text ++ s').toList = s.toList ++ separator :: s'.toList := by simp [ht]
  rw [segments, both, splitAt_append (by simp), List.filter_append, List.map_append, segments, segments]

theorem segments_join {text : String} {separator : Char} (ht : text.toList = [separator])
    {pieces : List String} (h : ∀ s ∈ pieces, s ≠ "" ∧ separator ∉ s.toList) :
    segments separator (join text pieces) = pieces := by
  cases pieces with
  | nil => simp [segments, join, joinWith, splitAt]
  | cons piece pieces =>
    have free : ∀ cs ∈ (piece :: pieces).map String.toList, separator ∉ cs := by
      intro cs hcs
      obtain ⟨s, hs, rfl⟩ := List.mem_map.1 hcs
      exact (h s hs).2
    have full : ∀ cs ∈ (piece :: pieces).map String.toList, (!cs.isEmpty) = true := by
      intro cs hcs
      obtain ⟨s, hs, rfl⟩ := List.mem_map.1 hcs
      simpa using (h s hs).1
    rw [segments, join, String.toList_ofList, ht, splitAt_joinWith (by simp) free,
      List.filter_eq_self.2 full, List.map_map]
    exact (List.map_congr_left fun s _ => String.ofList_toList).trans (List.map_id _)

end Text

namespace Path

theorem ofChars_of_ne {cs : List Char} (h : cs.head? ≠ some '/') : PathStart.ofChars cs = .here := by
  unfold PathStart.ofChars
  split <;> simp_all

/-- A path joined from parts that are proper parts of paths. -/
theorem ofString_join {parts : List String} (h : ∀ s ∈ parts, s ≠ "" ∧ '/' ∉ s.toList) (hd : "." ∉ parts) :
    ofString (Text.join "/" parts) = ⟨.here, parts⟩ := by
  have start : PathStart.ofChars (Text.join "/" parts).toList = .here := by
    refine ofChars_of_ne ?_
    rw [Text.join, String.toList_ofList]
    cases parts with
    | nil => simp [Text.joinWith]
    | cons part parts =>
      obtain ⟨rest, hr⟩ := Text.joinWith_cons "/".toList part.toList (parts.map String.toList)
      obtain ⟨hne, hs⟩ := h part List.mem_cons_self
      rw [List.map_cons, hr]
      cases hp : part.toList with
      | nil => exact absurd (String.toList_eq_nil_iff.1 hp) hne
      | cons c cs =>
        rw [hp, List.mem_cons, not_or] at hs
        simpa using Ne.symm hs.1
  have stay : ∀ s ∈ parts, decide (s ≠ ".") = true := by
    intro s hs
    rw [decide_eq_true_eq]
    rintro rfl
    exact hd hs
  rw [ofString, start, Text.segments_join rfl h, List.filter_eq_self.2 stay]

/-- What does not lead up stays below its target. -/
theorem resolved_append {target : Path} {parts : List String} (h : ".." ∉ parts) :
    (target.append ⟨.here, parts⟩).resolved = target.resolved ++ parts := by
  simp only [append, resolved, ne_eq, not_true_eq_false, if_false, List.foldl_append]
  generalize target.parts.foldl _ _ = done
  induction parts generalizing done with
  | nil => simp
  | cons part parts ih =>
    rw [List.mem_cons, not_or] at h
    obtain ⟨hp, hps⟩ := h
    rw [List.foldl_cons, if_neg (Ne.symm hp), ih hps, List.append_assoc, List.singleton_append]

end Path

end ResourceCompiler
