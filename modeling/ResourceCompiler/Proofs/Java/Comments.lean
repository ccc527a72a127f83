import ResourceCompiler.Proofs.Java.StringLiterals
import ResourceCompiler.Proofs.Naming
import ResourceCompiler.Proofs.Path
import ResourceCompiler.Template

/-!
# Descriptions as comments

A description is written into a comment, and its lines stay inside as long as nothing before the end reads as the mark
that closes a comment. The mark is replaced where it is written with its own two characters, but escapes of units are
read before comments are: a description that spells the mark with an escape closes its comment early, and no other
description does (`closes_at_end_iff`).
-/

namespace ResourceCompiler

namespace Text

variable {pattern : List Char}

theorem trimRight_append (p : Char → Bool) (cs : List Char) :
    ∃ back, (∀ c ∈ back, p c = true) ∧ cs = trimRight p cs ++ back := by
  refine ⟨(cs.reverse.takeWhile p).reverse, ?_, ?_⟩
  · intro c hc
    exact List.mem_takeWhile_imp (List.mem_reverse.1 hc)
  · rw [trimRight, ← List.reverse_append, List.takeWhile_append_dropWhile, List.reverse_reverse]

theorem trim_append (p : Char → Bool) (cs : List Char) :
    ∃ front back, (∀ c ∈ front, p c = true) ∧ (∀ c ∈ back, p c = true) ∧ cs = front ++ (trim p cs ++ back) := by
  obtain ⟨back, hback, hcs⟩ := trimRight_append p (cs.dropWhile p)
  refine ⟨cs.takeWhile p, back, fun c hc => List.mem_takeWhile_imp hc, hback, ?_⟩
  rw [trim, ← hcs, List.takeWhile_append_dropWhile]

/-- The first occurrence of a pattern is replaced, and what is behind it is searched on. -/
theorem replaceAll_cases (hne : pattern ≠ []) (replacement cs : List Char) :
    (¬ pattern <:+: cs ∧ replaceAll pattern replacement cs = cs) ∨
      ∃ front back, cs = front ++ (pattern ++ back) ∧ ¬ pattern <:+: front ++ pattern.dropLast ∧
        replaceAll pattern replacement cs = front ++ (replacement ++ replaceAll pattern replacement back) := by
  induction cs with
  | nil =>
    refine Or.inl ⟨?_, by rw [replaceAll]⟩
    rwa [List.infix_nil]
  | cons c cs ih =>
    -- the first occurrence starts here, or what is found behind the character is found in the whole
    by_cases here : pattern <+: c :: cs
    · right
      obtain ⟨back, hback⟩ := here
      refine ⟨[], back, hback.symm, ?_, ?_⟩
      · intro inside
        have shorter := inside.length_le
        have some := List.length_pos_iff.2 hne
        rw [List.nil_append, List.length_dropLast] at shorter
        omega
      · have start : pattern.isPrefixOf (c :: cs) = true := List.isPrefixOf_iff_prefix.2 ⟨back, hback⟩
        have rest : cs.drop (pattern.length - 1) = back := by
          cases pattern with
          | nil => exact absurd rfl hne
          | cons d ds =>
            rw [List.cons_append, List.cons.injEq] at hback
            rw [← hback.2, List.length_cons, Nat.add_sub_cancel, List.drop_left]
        rw [replaceAll, if_pos ⟨start, hne⟩, rest, List.nil_append]
    · have later : replaceAll pattern replacement (c :: cs) = c :: replaceAll pattern replacement cs := by
        rw [replaceAll, if_neg]
        rintro ⟨start, -⟩
        exact here (List.isPrefixOf_iff_prefix.1 start)
      rw [later]
      rcases ih with ⟨none, same⟩ | ⟨front, back, hcs, first, replaced⟩
      · left
        rw [same, List.infix_cons_iff, not_or]
        exact ⟨⟨here, none⟩, rfl⟩
      · right
        refine ⟨c :: front, back, by rw [hcs, List.cons_append], ?_, by rw [replaced, List.cons_append]⟩
        rw [List.cons_append, List.infix_cons_iff, not_or]
        refine ⟨fun start => here (start.trans ?_), first⟩
        -- what stands before the end of the occurrence starts the text
        rw [hcs]
        refine (List.cons_prefix_cons.2 ⟨rfl, ?_⟩)
        exact (List.prefix_append_right_inj front).2 ((List.dropLast_prefix pattern).trans (List.prefix_append _ _))

end Text

namespace Java

/-- The mark that closes a comment. -/
def closing : List Nat := ['*'.toNat, '/'.toNat]

/-- A text holds the closing mark, and not with the two characters that are written for it. -/
def SpellsClosing (cs : List Char) : Prop :=
  ∃ u v, [u, v] <:+: unescape false cs ∧ [u.code, v.code] = closing ∧ (u.escaped = true ∨ v.escaped = true)

/-- Two units that close a comment; unless `raw`, one of them is an escape. -/
def Closes (raw : Bool) (u v : SourceUnit) : Prop :=
  [u.code, v.code] = closing ∧ (raw = true ∨ u.escaped = true ∨ v.escaped = true)

instance (raw : Bool) (u v : SourceUnit) : Decidable (Closes raw u v) := inferInstanceAs (Decidable (_ ∧ _))

/-- No two units of a text close a comment. -/
def Unclosed (raw : Bool) (cs : List Char) : Prop :=
  (unescape false cs).IsChain fun u v => ¬ Closes raw u v

/-- A character that goes on neither with an escape nor with a closing mark. -/
structure Apart (c : Char) : Prop extends Parts c where
  star : c ≠ '*'
  solidus : c ≠ '/'

variable {raw odd : Bool} {c d : Char} {u v : SourceUnit} {cs ds bs : List Char}

/-! ### Units in a row -/

theorem isChain_iff_pairs {α : Type} {R : α → α → Prop} {l : List α} :
    l.IsChain R ↔ ∀ a b, [a, b] <:+: l → R a b := by
  rw [List.isChain_iff_forall_rel_of_append_cons_cons]
  constructor
  · rintro h a b ⟨before, after, rfl⟩
    exact h (List.append_assoc before [a, b] after)
  · rintro h a b before after rfl
    exact h a b ⟨before, after, by simp⟩

theorem unclosed_false_iff : Unclosed false cs ↔ ¬ SpellsClosing cs := by
  unfold Unclosed SpellsClosing Closes
  rw [isChain_iff_pairs]
  simp

theorem eq_of_mem_rawUnits (hd : d.toNat < 0xd800) (hu : u ∈ rawUnits c) (h : u.code = d.toNat) : c = d := by
  obtain ⟨n, hn, rfl⟩ := List.mem_map.1 hu
  rcases units16_cases hn with same | far
  · exact Char.toNat_inj.1 (same.symm.trans h)
  · have code : n = d.toNat := h
    omega

theorem rawUnits_ne_nil (c : Char) : rawUnits c ≠ [] := by
  unfold rawUnits Text.units16
  dsimp only
  split <;> simp

theorem not_closes_left (hc : c ≠ '*') (hu : u ∈ rawUnits c) : ¬ Closes raw u v := by
  rintro ⟨mark, -⟩
  exact hc (eq_of_mem_rawUnits (by decide) hu (List.cons.inj mark).1)

theorem not_closes_right (hc : c ≠ '/') (hv : v ∈ rawUnits c) : ¬ Closes raw u v := by
  rintro ⟨mark, -⟩
  exact hc (eq_of_mem_rawUnits (by decide) hv (List.cons.inj (List.cons.inj mark).2).1)

theorem unescape_plain (h : '\\' ∉ cs) : unescape false cs = cs.flatMap rawUnits := by
  induction cs with
  | nil => exact unescape_nil
  | cons c cs ih =>
    rw [List.mem_cons, not_or] at h
    rw [unescape_raw (Or.inl (Ne.symm h.1)), ih h.2, List.flatMap_cons]

theorem unclosed_nil : Unclosed raw [] := by
  rw [Unclosed, unescape_nil]
  exact List.isChain_nil

/-- The two sides of a character that stands apart do not close a comment together. -/
theorem unclosed_append (hc : Apart c) : Unclosed raw (cs ++ c :: ds) ↔ Unclosed raw cs ∧ Unclosed raw ds := by
  have inner : (rawUnits c).IsChain fun u v => ¬ Closes raw u v := by
    rw [isChain_iff_pairs]
    intro u v both
    exact not_closes_left hc.star (both.subset List.mem_cons_self)
  have hlast := List.getLast?_eq_some_getLast (rawUnits_ne_nil c)
  unfold Unclosed
  rw [unescape_append hc.toParts, List.isChain_append, List.isChain_append]
  constructor
  · rintro ⟨⟨left, -, -⟩, right, -⟩
    exact ⟨left, right⟩
  · rintro ⟨left, right⟩
    refine ⟨⟨left, inner, ?_⟩, right, ?_⟩
    · intro u _ v hv
      exact not_closes_right hc.solidus (List.mem_of_mem_head? hv)
    · intro u hu v _
      rw [List.getLast?_append, hlast] at hu
      cases hu
      exact not_closes_left hc.star (List.getLast_mem _)

theorem unclosed_cons (hc : Apart c) : Unclosed raw (c :: ds) ↔ Unclosed raw ds := by
  rw [← List.nil_append (c :: ds), unclosed_append hc, and_iff_right unclosed_nil]

theorem unclosed_prepend (h : ∀ c ∈ bs, Apart c) : Unclosed raw (bs ++ cs) ↔ Unclosed raw cs := by
  induction bs with
  | nil => rfl
  | cons b bs ih =>
    obtain ⟨hb, hbs⟩ := List.forall_mem_cons.1 h
    rw [List.cons_append, unclosed_cons hb, ih hbs]

theorem unclosed_extend (h : ∀ c ∈ bs, Apart c) : Unclosed raw (cs ++ bs) ↔ Unclosed raw cs := by
  cases bs with
  | nil => rw [List.append_nil]
  | cons b bs =>
    obtain ⟨hb, hbs⟩ := List.forall_mem_cons.1 h
    have rest : Unclosed raw bs := by
      rw [← List.append_nil bs]
      exact (unclosed_prepend hbs).2 unclosed_nil
    rw [unclosed_append hb, and_iff_left rest]

/-! ### The mark as it is written -/

/-- A text whose units start with that of a character starts with the character. -/
theorem head?_of_unescape (hd : d.toNat < 0xd800) (h : (unescape odd cs).head? = some ⟨d.toNat, false⟩) :
    ∃ rest, cs = d :: rest := by
  cases cs with
  | nil =>
    rw [unescape_nil] at h
    cases h
  | cons c cs =>
    rcases unescape_cases odd c cs with ⟨odd', raw⟩ | ⟨n, rest, -, escape⟩
    · rw [raw, List.head?_append_of_ne_nil _ (rawUnits_ne_nil c)] at h
      rw [eq_of_mem_rawUnits hd (List.mem_of_mem_head? h) rfl]
      exact ⟨cs, rfl⟩
    · rw [escape] at h
      simp at h

/-- Without the two characters of the mark no two units that are written as they are close a comment. -/
theorem not_raw_closing (h : ¬ ['*', '/'] <:+: cs) :
    (unescape odd cs).IsChain fun u v => ¬ (u = ⟨'*'.toNat, false⟩ ∧ v = ⟨'/'.toNat, false⟩) := by
  induction hl : cs.length using Nat.strongRecOn generalizing odd cs with
  | ind length ih =>
    subst hl
    cases cs with
    | nil =>
      rw [unescape_nil]
      exact List.isChain_nil
    | cons c cs =>
      have rest : ¬ ['*', '/'] <:+: cs := fun inside => h (inside.trans (List.suffix_cons c cs).isInfix)
      -- the mark would lie among the units of one character or at a border; one that is escaped is no mark
      rcases unescape_cases odd c cs with ⟨odd', raw⟩ | ⟨n, after, he, escape⟩
      · rw [raw]
        refine (List.isChain_append).2 ⟨?_, ih cs.length (Nat.lt_succ_self _) rest rfl, ?_⟩
        · rw [isChain_iff_pairs]
          rintro u v both ⟨rfl, rfl⟩
          have star := eq_of_mem_rawUnits (d := '*') (by decide) (both.subset List.mem_cons_self) rfl
          have solidus := eq_of_mem_rawUnits (d := '/') (by decide)
            (both.subset (List.mem_cons_of_mem _ List.mem_cons_self)) rfl
          rw [star] at solidus
          exact absurd solidus (by decide)
        · rintro u hu v hv ⟨rfl, rfl⟩
          have star := eq_of_mem_rawUnits (d := '*') (by decide) (List.mem_of_mem_getLast? hu) rfl
          obtain ⟨ds, rfl⟩ := head?_of_unescape (by decide) hv
          subst star
          exact h ⟨[], ds, rfl⟩
      · have shorter := escapedUnit?_lt he
        have inside : after <:+: cs := by
          cases cs with
          | nil => cases he
          | cons d cs => exact ((escapedUnit?_suffix he).trans (List.suffix_cons d cs)).isInfix
        rw [escape, List.isChain_cons]
        refine ⟨fun v _ => ?_, ih after.length (Nat.lt_succ_of_lt shorter) (fun mark => rest (mark.trans inside)) rfl⟩
        rintro ⟨escaped, -⟩
        cases escaped

theorem unclosed_iff_of_not_raw (h : ¬ ['*', '/'] <:+: cs) : Unclosed true cs ↔ Unclosed false cs := by
  have raw : (unescape false cs).IsChain _ := not_raw_closing h
  unfold Unclosed
  rw [isChain_iff_pairs] at raw ⊢
  rw [isChain_iff_pairs]
  refine forall₃_congr fun u v both => not_congr ?_
  unfold Closes
  constructor
  · rintro ⟨mark, -⟩
    refine ⟨mark, ?_⟩
    by_contra written
    simp only [Bool.false_eq_true, false_or, not_or, Bool.not_eq_true] at written
    obtain ⟨hu, hv⟩ := written
    simp only [closing, List.cons.injEq, and_true] at mark
    refine raw u v both ⟨?_, ?_⟩
    · cases u
      simp_all
    · cases v
      simp_all
  · rintro ⟨mark, -⟩
    exact ⟨mark, Or.inl rfl⟩

/-! ### Replacing the mark -/

theorem unclosed_seam (front back : List Char) :
    Unclosed false (front ++ '*' :: '/' :: back) ↔ Unclosed false (front ++ ['*']) ∧ Unclosed false back := by
  have star : Parts '*' := ⟨by decide, by decide, by decide⟩
  have left : rawUnits '*' = [⟨'*'.toNat, false⟩] := by decide
  have right : rawUnits '/' = [⟨'/'.toNat, false⟩] := by decide
  unfold Unclosed
  rw [unescape_append star, unescape_append star, unescape_nil, List.append_nil, unescape_raw (Or.inl (by decide)),
    left, right, List.isChain_append, List.singleton_append, List.isChain_cons]
  constructor
  · rintro ⟨before, ⟨-, behind⟩, -⟩
    exact ⟨before, behind⟩
  · rintro ⟨before, behind⟩
    refine ⟨before, ⟨fun v _ => ?_, behind⟩, ?_⟩
    · exact not_closes_left (c := '/') (by decide) (right ▸ List.mem_cons_self)
    · intro u hu v hv
      rw [List.getLast?_concat] at hu
      cases hu
      cases hv
      rintro ⟨-, escaped⟩
      simp at escaped

theorem unclosed_replaced (front back : List Char) :
    Unclosed true (front ++ ("*&#47;".toList ++ back)) ↔ Unclosed true (front ++ ['*']) ∧ Unclosed true back := by
  have ampersand : Apart '&' := ⟨⟨by decide, by decide, by decide⟩, by decide, by decide⟩
  have number : Apart '#' := ⟨⟨by decide, by decide, by decide⟩, by decide, by decide⟩
  have semicolon : Apart ';' := ⟨⟨by decide, by decide, by decide⟩, by decide, by decide⟩
  have digits : Unclosed true ['4', '7'] := by
    rw [Unclosed, unescape_plain (by decide)]
    decide
  have spelled : front ++ ("*&#47;".toList ++ back) = (front ++ ['*']) ++ '&' :: '#' :: (['4', '7'] ++ ';' :: back) := by
    simp
  rw [spelled, unclosed_append ampersand, unclosed_cons number, unclosed_append semicolon, and_iff_right digits]

/-- The mark is gone, unless it is spelled with an escape. -/
theorem unclosed_replaceAll (cs : List Char) :
    Unclosed true (Text.replaceAll ['*', '/'] "*&#47;".toList cs) ↔ Unclosed false cs := by
  induction h : cs.length using Nat.strongRecOn generalizing cs with
  | ind length ih =>
    have mark : ['*', '/'] ≠ [] := List.cons_ne_nil _ _
    rcases Text.replaceAll_cases mark "*&#47;".toList cs with
      ⟨none, same⟩ | ⟨front, back, hcs, first, replaced⟩
    · rw [same, unclosed_iff_of_not_raw none]
    · have shorter : back.length < length := by
        rw [← h, hcs]
        simp only [List.length_append, List.length_cons]
        omega
      rw [replaced, unclosed_replaced, ih back.length shorter back rfl, hcs]
      exact (and_congr_left' (unclosed_iff_of_not_raw first)).trans (unclosed_seam front back).symm

/-! ### Lines of a comment -/

theorem apart_of_isBlank (h : Text.isBlank c = true) : Apart c := by
  have far : c.toNat ≤ 32 ∨ 0x85 ≤ c.toNat := by
    simp only [Text.isBlank, Text.isAsciiBlank, Bool.or_eq_true, Bool.and_eq_true, decide_eq_true_eq] at h
    by_cases space : c = ' '
    · rw [space]
      decide
    · simp only [space, false_or] at h
      omega
  have other (d : Char) (hd : 32 < d.toNat ∧ d.toNat < 0x85) : c ≠ d := by
    rintro rfl
    omega
  refine ⟨⟨other '\\' (by decide), other 'u' (by decide), ?_⟩, other '*' (by decide), other '/' (by decide)⟩
  unfold Json.hexValue?
  rw [if_neg, if_neg, if_neg]
  · rintro ⟨low, high⟩
    have low : 'A'.toNat ≤ c.toNat := low
    have high : c.toNat ≤ 'F'.toNat := high
    have ends : 'A'.toNat = 65 ∧ 'F'.toNat = 70 := by decide
    omega
  · rintro ⟨low, high⟩
    have low : 'a'.toNat ≤ c.toNat := low
    have high : c.toNat ≤ 'f'.toNat := high
    have ends : 'a'.toNat = 97 ∧ 'f'.toNat = 102 := by decide
    omega
  · intro digit
    have bounds := Char.isDigit_iff_toNat.1 digit
    have ends : '0'.toNat = 48 ∧ '9'.toNat = 57 := by decide
    omega

theorem unclosed_trim : Unclosed raw (Text.trim Text.isBlank cs) ↔ Unclosed raw cs := by
  obtain ⟨front, back, hfront, hback, hcs⟩ := Text.trim_append Text.isBlank cs
  conv_rhs => rw [hcs]
  rw [unclosed_prepend fun c hc => apart_of_isBlank (hfront c hc),
    unclosed_extend fun c hc => apart_of_isBlank (hback c hc)]

theorem unclosed_lines : Unclosed raw cs ↔ ∀ line ∈ Text.lines cs, Unclosed raw line := by
  induction h : cs.length using Nat.strongRecOn generalizing cs with
  | ind length ih =>
    by_cases more : '\n' ∈ cs
    · obtain ⟨before, after, rfl⟩ := List.append_of_mem more
      rw [List.length_append, List.length_cons] at h
      have cut : Text.lines (before ++ '\n' :: after) = Text.lines before ++ Text.lines after :=
        Text.splitAt_append (by decide) before after
      rw [cut, List.forall_mem_append, unclosed_append (apart_of_isBlank (by decide)),
        ih before.length (by omega) rfl, ih after.length (by omega) rfl]
    · have single : Text.lines cs = [cs] := by
        refine Text.splitAt_of_none fun c hc => decide_eq_false ?_
        rintro rfl
        exact more hc
      rw [single, List.forall_mem_singleton]

theorem unclosed_flatMap {lines : List (List Char)} :
    Unclosed raw (lines.flatMap (· ++ ['\n'])) ↔ ∀ line ∈ lines, Unclosed raw line := by
  induction lines with
  | nil => simp [unclosed_nil]
  | cons line lines ih =>
    rw [List.flatMap_cons, List.append_assoc, List.singleton_append, unclosed_append (apart_of_isBlank (by decide)), ih,
      List.forall_mem_cons]

theorem apart_of_mem_padding {n : Int} (h : c ∈ Filter.padding n) : Apart c := by
  rw [List.eq_of_mem_replicate h]
  exact apart_of_isBlank (by decide)

theorem unclosed_star : Unclosed raw ['*'] := by
  rw [Unclosed, unescape_plain (by decide)]
  exact List.isChain_singleton _

theorem unclosed_commentLine (n : Int) (line : List Char) :
    Unclosed raw (Filter.commentLine n line) ↔ Unclosed raw line := by
  have blank : Apart ' ' := apart_of_isBlank (by decide)
  have whole : Unclosed raw (Filter.padding n ++ ' ' :: '*' :: ' ' :: line) ↔ Unclosed raw line := by
    rw [unclosed_prepend fun c hc => apart_of_mem_padding hc, unclosed_cons blank, ← List.singleton_append,
      unclosed_append blank, and_iff_right unclosed_star]
  obtain ⟨back, hback, hline⟩ := Text.trimRight_append Text.isBlank (Filter.padding n ++ ' ' :: '*' :: ' ' :: line)
  rw [hline, unclosed_extend fun c hc => apart_of_isBlank (hback c hc)] at whole
  exact whole

/-- A comment up to its last character. -/
def commentBody (n : Int) (cs : List Char) : List Char :=
  let safe := Text.replaceAll ['*', '/'] "*&#47;".toList cs
  let body := (Text.lines (Text.trim Text.isBlank safe)).map (Filter.commentLine n)
  ((Filter.padding n ++ "/**".toList) :: body).flatMap (· ++ ['\n']) ++ Filter.padding n ++ [' ', '*']

theorem docCommentChars_eq (n : Int) (cs : List Char) : Filter.docCommentChars n cs = commentBody n cs ++ ['/'] := by
  unfold Filter.docCommentChars commentBody
  dsimp only
  rw [← List.cons_append, Text.joinWith_concat]
  simp

theorem unclosed_commentBody (n : Int) (cs : List Char) : Unclosed true (commentBody n cs) ↔ Unclosed false cs := by
  have opening : Unclosed true (Filter.padding n ++ "/**".toList) := by
    refine (unclosed_prepend fun c hc => apart_of_mem_padding hc).2 ?_
    rw [Unclosed, unescape_plain (by decide)]
    decide
  unfold commentBody
  dsimp only
  rw [unclosed_append (apart_of_isBlank (by decide)), and_iff_left unclosed_star,
    unclosed_extend fun c hc => apart_of_mem_padding hc, unclosed_flatMap, List.forall_mem_cons, and_iff_right opening,
    List.forall_mem_map]
  simp only [unclosed_commentLine]
  rw [← unclosed_lines, unclosed_trim, unclosed_replaceAll]

/-! ### The end of a comment -/

theorem unclosed_true_iff : Unclosed true cs ↔ ¬ closing <:+: codes cs := by
  have pairs : Unclosed true cs ↔ (codes cs).IsChain fun m n => [m, n] ≠ closing := by
    unfold Unclosed Closes codes
    rw [List.isChain_map]
    simp
  rw [pairs, isChain_iff_pairs]
  constructor
  · intro h inside
    exact h _ _ inside rfl
  · intro h m n inside same
    exact h (same ▸ inside)

/-- A pair stands at the end only, if the text without its last element does not hold it. -/
theorem at_end_iff {α : Type} {us : List α} {a b : α} :
    (∀ before after, us ++ [b] = before ++ [a, b] ++ after → after = []) ↔ ¬ [a, b] <:+: us := by
  constructor
  · rintro h ⟨before, after, rfl⟩
    have last := h before (after ++ [b]) (by simp)
    simp at last
  · intro h before after whole
    rcases List.eq_nil_or_concat after with rfl | ⟨init, z, rfl⟩
    · rfl
    · rw [List.concat_eq_append, ← List.append_assoc] at whole
      obtain ⟨same, -⟩ := List.append_inj' whole rfl
      exact absurd ⟨before, init, same.symm⟩ h

theorem codes_append (hc : Parts c) (cs ds : List Char) :
    codes (cs ++ c :: ds) = codes cs ++ Text.units16 c ++ codes ds := by
  unfold codes
  rw [unescape_append hc, List.map_append, List.map_append, map_code_rawUnits]

theorem codes_concat (hc : Parts c) (single : c.toNat < 0x10000) (cs : List Char) :
    codes (cs ++ [c]) = codes cs ++ [c.toNat] := by
  have unit : Text.units16 c = [c.toNat] := if_pos single
  have empty : codes [] = [] := by rw [codes, unescape_nil, List.map_nil]
  rw [codes_append hc, unit, empty, List.append_nil]

theorem codes_docComment (n : Int) (s : String) :
    codes (Filter.docComment n s).toList = codes (commentBody n s.toList) ++ ['/'.toNat] := by
  rw [Filter.docComment, String.toList_ofList, docCommentChars_eq]
  exact codes_concat ⟨by decide, by decide, by decide⟩ (by decide) _

theorem closing_suffix_docComment (n : Int) (s : String) : closing <:+ codes (Filter.docComment n s).toList := by
  have last : ∃ front, commentBody n s.toList = front ++ ['*'] := ⟨_, List.append_cons _ ' ' ['*']⟩
  obtain ⟨front, hfront⟩ := last
  rw [codes_docComment, hfront, codes_concat ⟨by decide, by decide, by decide⟩ (by decide), List.append_assoc]
  exact List.suffix_append _ _

/-- A comment of a template ends with the mark that closes it. The mark stands nowhere before, unless the text spells it
with an escape. -/
theorem closes_at_end_iff (n : Int) (s : String) :
    Template.Filter.apply (.docComment n) (.str s) = .ok (.str (Filter.docComment n s)) ∧
    closing <:+ codes (Filter.docComment n s).toList ∧
    ((∀ before after, codes (Filter.docComment n s).toList = before ++ closing ++ after → after = []) ↔
      ¬ SpellsClosing s.toList) := by
  refine ⟨rfl, closing_suffix_docComment n s, ?_⟩
  calc (∀ before after, codes (Filter.docComment n s).toList = before ++ closing ++ after → after = [])
      ↔ ¬ closing <:+: codes (commentBody n s.toList) := by
        rw [codes_docComment]
        exact at_end_iff
    _ ↔ Unclosed false s.toList := by rw [← unclosed_true_iff, unclosed_commentBody]
    _ ↔ ¬ SpellsClosing s.toList := unclosed_false_iff

/-- A solidus that is written as an escape closes the comment. -/
theorem comment_closed_early : ∃ before after,
    codes (Filter.docComment 0 "*\\u002f").toList = before ++ closing ++ after ∧ after ≠ [] := by
  have written : (Filter.docComment 0 "*\\u002f").toList =
      "/**\n *".toList ++ ' ' :: '*' :: '\\' :: "u002f\n */".toList := by
    decide +kernel
  have escape : escapedUnit? "u002f\n */".toList = some ('/'.toNat, "\n */".toList) := by decide
  have read : codes ('*' :: '\\' :: "u002f\n */".toList) = closing ++ codes "\n */".toList := by
    rw [codes_raw (by decide), codes, unescape_escape escape]
    rfl
  refine ⟨codes "/**\n *".toList ++ [' '.toNat], codes "\n */".toList, ?_, ?_⟩
  · rw [written, codes_append (apart_of_isBlank (by decide)).toParts, read, ← List.append_assoc]
    rfl
  · have rest : "\n */".toList = '\n' :: " */".toList := by decide
    rw [rest, codes_raw (by decide)]
    exact List.cons_ne_nil _ _

end Java

end ResourceCompiler
