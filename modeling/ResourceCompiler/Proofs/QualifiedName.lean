import ResourceCompiler.Config
import ResourceCompiler.Proofs.Path

/-!
# Names of types and packages

A qualified name is a row of segments with dots between them, and perhaps type arguments behind (`Named`). A text is
taken for one when it is a name of this grammar, or such a name and a line break (`isValid_iff`). The grammar has no
line breaks, so that these two ways are apart.
-/

namespace ResourceCompiler.QualifiedName

/-- A segment of a name. -/
def Segment (cs : List Char) : Prop := ∃ c rest, cs = c :: rest ∧ isStart c = true ∧ ∀ d ∈ rest, isPart d = true

/-- Type arguments: anything on one line between angle brackets. -/
def Arguments (cs : List Char) : Prop := ∃ body, cs = '<' :: (body ++ ['>']) ∧ body ≠ [] ∧ '\n' ∉ body

/-- Qualified names. -/
def Named (cs : List Char) : Prop :=
  ∃ segments arguments, cs = Text.joinWith ['.'] segments ++ arguments ∧ segments ≠ [] ∧
    (∀ s ∈ segments, Segment s) ∧ (arguments = [] ∨ Arguments arguments)

/-- Nothing, or a line break. -/
def Ending (cs : List Char) : Prop := cs = [] ∨ cs = ['\n']

/-- What can follow the first character of a name and its line break: the rest of the segment, more segments, type
arguments. -/
def Tail (cs : List Char) : Prop :=
  ∃ (part : List Char) (segments : List (List Char)) (arguments ending : List Char),
    cs = part ++ (segments.flatMap ('.' :: ·) ++ (arguments ++ ending)) ∧ (∀ d ∈ part, isPart d = true) ∧
      (∀ s ∈ segments, Segment s) ∧ (arguments = [] ∨ Arguments arguments) ∧ Ending ending

variable {c : Char} {cs ending : List Char}

/-! ### Type arguments -/

theorem closes_complete {body : List Char} (full : body ≠ []) (line : '\n' ∉ body) (h : Ending ending) :
    closes (body ++ '>' :: ending) = true := by
  rcases h with rfl | rfl <;> simp [closes, full, line]

theorem closes_sound (h : closes cs = true) :
    ∃ body ending, cs = body ++ '>' :: ending ∧ body ≠ [] ∧ '\n' ∉ body ∧ Ending ending := by
  unfold closes at h
  split at h
  · next body hb =>
    refine ⟨body.reverse, [], by simpa using List.reverse_eq_iff.1 hb, ?_⟩
    simpa [Ending] using h
  · next body hb =>
    refine ⟨body.reverse, ['\n'], by simpa using List.reverse_eq_iff.1 hb, ?_⟩
    simpa [Ending] using h
  · cases h

/-! ### Segments -/

theorem continues_dot (c : Char) (cs : List Char) : continues ('.' :: c :: cs) = (isStart c && continues cs) := by
  rw [continues]

theorem continues_part (h : isPart c = true) (cs : List Char) : continues (c :: cs) = continues cs := by
  have apart {d : Char} (hd : isPart d = false) : c ≠ d := by
    rintro rfl
    rw [h] at hd
    cases hd
  rw [continues.eq_5 c cs (fun e _ => apart (by decide) e) (fun _ _ e _ => apart (by decide) e)
    (fun e => apart (by decide) e), h, Bool.true_and]

theorem continues_parts {part : List Char} (h : ∀ d ∈ part, isPart d = true) (cs : List Char) :
    continues (part ++ cs) = continues cs := by
  induction part with
  | nil => rfl
  | cons c part ih =>
    rw [List.forall_mem_cons] at h
    rw [List.cons_append, continues_part h.1, ih h.2]

theorem continues_ending {arguments : List Char} (ha : arguments = [] ∨ Arguments arguments) (he : Ending ending) :
    continues (arguments ++ ending) = true := by
  rcases ha with rfl | ⟨body, rfl, full, line⟩
  · rcases he with rfl | rfl <;> rfl
  · have shape : '<' :: (body ++ ['>']) ++ ending = '<' :: (body ++ '>' :: ending) := by simp
    rw [shape, continues]
    exact closes_complete full line he

theorem continues_segments {segments : List (List Char)} (h : ∀ s ∈ segments, Segment s) (cs : List Char) :
    continues (segments.flatMap ('.' :: ·) ++ cs) = continues cs := by
  induction segments with
  | nil => rfl
  | cons s segments ih =>
    obtain ⟨⟨c, part, rfl, hc, hp⟩, hs⟩ := List.forall_mem_cons.1 h
    rw [List.flatMap_cons, List.append_assoc, List.cons_append, List.cons_append, continues_dot, hc, Bool.true_and,
      continues_parts hp, ih hs]

theorem continues_iff (cs : List Char) : continues cs = true ↔ Tail cs := by
  constructor
  · intro h
    fun_induction continues cs with
    | case1 => exact ⟨[], [], [], [], rfl, nofun, nofun, Or.inl rfl, Or.inl rfl⟩
    | case2 => exact ⟨[], [], [], ['\n'], rfl, nofun, nofun, Or.inl rfl, Or.inr rfl⟩
    | case3 c cs ih =>
      rw [Bool.and_eq_true] at h
      obtain ⟨part, segments, arguments, ending, rfl, hp, hs, rest⟩ := ih h.2
      refine ⟨[], (c :: part) :: segments, arguments, ending, by simp, nofun, ?_, rest⟩
      exact List.forall_mem_cons.2 ⟨⟨c, part, rfl, h.1, hp⟩, hs⟩
    | case4 cs =>
      obtain ⟨body, ending, rfl, full, line, he⟩ := closes_sound h
      exact ⟨[], [], '<' :: (body ++ ['>']), ending, by simp, nofun, nofun, Or.inr ⟨body, rfl, full, line⟩, he⟩
    | case5 c cs _ _ _ ih =>
      rw [Bool.and_eq_true] at h
      obtain ⟨part, segments, arguments, ending, rfl, hp, rest⟩ := ih h.2
      exact ⟨c :: part, segments, arguments, ending, rfl, List.forall_mem_cons.2 ⟨h.1, hp⟩, rest⟩
  · rintro ⟨part, segments, arguments, ending, rfl, hp, hs, ha, he⟩
    rw [continues_parts hp, continues_segments hs, continues_ending ha he]

/-! ### Names -/

/-- What is taken for a name: a name of the grammar, and perhaps a line break after it. -/
theorem isValid_iff : isValid cs = true ↔ ∃ name ending, cs = name ++ ending ∧ Named name ∧ Ending ending := by
  constructor
  · intro h
    cases cs with
    | nil => cases h
    | cons c cs =>
      rw [isValid, Bool.and_eq_true, continues_iff] at h
      obtain ⟨hc, part, segments, arguments, ending, rfl, hp, hs, ha, he⟩ := h
      refine ⟨c :: part ++ segments.flatMap ('.' :: ·) ++ arguments, ending, by simp, ?_, he⟩
      refine ⟨(c :: part) :: segments, arguments, by simp [Text.joinWith_cons_eq], by simp, ?_, ha⟩
      exact List.forall_mem_cons.2 ⟨⟨c, part, rfl, hc, hp⟩, hs⟩
  · rintro ⟨_, ending, rfl, ⟨segments, arguments, rfl, hne, hs, ha⟩, he⟩
    cases segments with
    | nil => exact absurd rfl hne
    | cons s segments =>
      obtain ⟨⟨c, part, rfl, hc, hp⟩, more⟩ := List.forall_mem_cons.1 hs
      have tail : Tail (part ++ (segments.flatMap ('.' :: ·) ++ (arguments ++ ending))) :=
        ⟨part, segments, arguments, ending, rfl, hp, more, ha, he⟩
      have shape : Text.joinWith ['.'] ((c :: part) :: segments) ++ arguments ++ ending =
          c :: (part ++ (segments.flatMap ('.' :: ·) ++ (arguments ++ ending))) := by
        simp [Text.joinWith_cons_eq]
      rw [shape, isValid, hc, (continues_iff _).2 tail, Bool.and_true]

theorem Segment.no_break (h : Segment cs) : '\n' ∉ cs := by
  obtain ⟨c, part, rfl, hc, hp⟩ := h
  rw [List.mem_cons, not_or]
  constructor
  · rintro rfl
    exact absurd hc (by decide)
  · intro hm
    exact absurd (hp _ hm) (by decide)

theorem Arguments.no_break (h : Arguments cs) : '\n' ∉ cs := by
  obtain ⟨body, rfl, -, line⟩ := h
  simp [line]

/-- A name stands on one line. -/
theorem Named.no_break (h : Named cs) : '\n' ∉ cs := by
  obtain ⟨segments, arguments, rfl, hne, hs, ha⟩ := h
  have behind : '\n' ∉ arguments := by
    rcases ha with rfl | ha
    · exact List.not_mem_nil
    · exact ha.no_break
  cases segments with
  | nil => exact absurd rfl hne
  | cons s segments =>
    rw [List.forall_mem_cons] at hs
    have more : ∀ s' ∈ segments, '\n' ∉ s' := fun s' hs' => (hs.2 s' hs').no_break
    simpa [Text.joinWith_cons_eq, hs.1.no_break, behind] using more

end ResourceCompiler.QualifiedName
