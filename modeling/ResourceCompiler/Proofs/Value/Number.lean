import ResourceCompiler.Proofs.Json.Number
import ResourceCompiler.Proofs.Naming
import ResourceCompiler.Value.Number
import ResourceCompiler.Value.Text

/-!
# Texts of numbers

Numbers in text are read from more spellings than they are written in: with blanks, signs, underscores and digits of
every script. What is written is among them. The text of a double precision number reads back as the number, be it
finite or not (`readFloat?_text`), so that no two numbers have one text; and it is never the text of an integer
(`text_ne_ofInt`).
-/

namespace ResourceCompiler

namespace Text

variable {cs : List Char} {c : Char}

/-- A character that readers of numbers take as it is. -/
def Bare (c : Char) : Prop :=
  c.toNat < 127 ∧ isAsciiBlank c = false ∧ c ≠ '_'

instance (c : Char) : Decidable (Bare c) := inferInstanceAs (Decidable (_ ∧ _ ∧ _))

theorem bare_of_isDigit (h : c.isDigit = true) : Bare c := by
  have bounds := Char.isDigit_iff_toNat.1 h
  have ends : '0'.toNat = 48 ∧ '9'.toNat = 57 := by decide
  refine ⟨by omega, ?_, ?_⟩
  · have space : c ≠ ' ' := by
      rintro rfl
      cases h
    have control : (decide (9 ≤ c.toNat) && decide (c.toNat ≤ 13)) = false := by
      rw [Bool.and_eq_false_iff, decide_eq_false_iff_not, decide_eq_false_iff_not]
      omega
    rw [isAsciiBlank, control, decide_eq_false space]
    rfl
  · rintro rfl
    cases h

theorem asciiNumber?_bare (h : ∀ c ∈ cs, Bare c) : asciiNumber? cs = some cs := by
  unfold asciiNumber?
  induction cs with
  | nil => rfl
  | cons c cs ih =>
    obtain ⟨hc, hcs⟩ := List.forall_mem_cons.1 h
    rw [List.mapM_cons, ih hcs, if_pos hc.1]
    rfl

theorem trim_bare (h : ∀ c ∈ cs, Bare c) : trim isAsciiBlank cs = cs := by
  have kept (ds : List Char) (hd : ∀ c ∈ ds, Bare c) : ds.dropWhile isAsciiBlank = ds := by
    cases ds with
    | nil => rfl
    | cons d ds => exact List.dropWhile_cons_of_neg (by simp [(hd d List.mem_cons_self).2.1])
  rw [trim, trimRight, kept cs h, kept cs.reverse fun c hc => h c (List.mem_reverse.1 hc), List.reverse_reverse]

theorem dropUnderscores?_bare (previous : Char) (h : ∀ c ∈ cs, Bare c) : dropUnderscores? previous cs = some cs := by
  induction cs generalizing previous with
  | nil => rfl
  | cons c cs ih =>
    obtain ⟨hc, hcs⟩ := List.forall_mem_cons.1 h
    rw [dropUnderscores?.eq_3 _ _ _ fun hu => hc.2.2 hu, ih c hcs]
    rfl

theorem groupedDigits?_digits (hne : cs ≠ []) (h : ∀ c ∈ cs, c.isDigit = true) : groupedDigits? cs = some cs := by
  induction cs with
  | nil => exact absurd rfl hne
  | cons c cs ih =>
    obtain ⟨hc, hcs⟩ := List.forall_mem_cons.1 h
    cases cs with
    | nil => rw [groupedDigits?, if_pos hc]
    | cons d ds =>
      have digit : d ≠ '_' := (bare_of_isDigit (hcs d List.mem_cons_self)).2.2
      rw [groupedDigits?.eq_4 _ _ (by simp) (by simp [digit]), if_pos hc, ih (by simp) hcs]
      rfl

/-! ### Integers -/

theorem isDigit_toDigits (n : Nat) : ∀ c ∈ Nat.toDigits 10 n, c.isDigit = true := fun _ hc =>
  Nat.isDigit_of_mem_toDigits (by decide) (by decide) hc

theorem mem_intChars {n : Int} (h : c ∈ intChars n) : c = '-' ∨ c.isDigit = true := by
  unfold intChars at h
  split at h
  · rcases List.mem_cons.1 h with rfl | h
    · exact Or.inl rfl
    · exact Or.inr (isDigit_toDigits _ c h)
  · exact Or.inr (isDigit_toDigits _ c h)

theorem signed_of_isDigit (h : ∀ c ∈ cs.head?, c.isDigit = true) : signed cs = (false, cs) := by
  unfold signed
  split
  · cases h '-' rfl
  · cases h '+' rfl
  · rfl

theorem signed_intChars (n : Int) : signed (intChars n) = (decide (n < 0), Nat.toDigits 10 n.natAbs) := by
  unfold intChars
  split
  · next negative => rw [decide_eq_true negative]; rfl
  · next natural =>
    rw [decide_eq_false natural]
    exact signed_of_isDigit fun c hc => isDigit_toDigits _ c (List.mem_of_mem_head? hc)

/-- An integer is read from its text as itself, if it is not too long. -/
theorem readInt?_ofInt {m n : Int} (h : readInt? (ofInt m) = some n) : n = m := by
  have bare : ∀ c ∈ intChars m, Bare c := by
    intro c hc
    rcases mem_intChars hc with rfl | digit
    · decide
    · exact bare_of_isDigit digit
  have digits : groupedDigits? (Nat.toDigits 10 m.natAbs) = some (Nat.toDigits 10 m.natAbs) :=
    groupedDigits?_digits Nat.toDigits_ne_nil (isDigit_toDigits _)
  unfold readInt? ofInt at h
  rw [String.toList_ofList, asciiNumber?_bare bare, Option.bind_eq_bind, Option.bind_some, trim_bare bare,
    signed_intChars] at h
  simp only [digits, digitsToNat_toDigits, Option.bind_eq_bind, Option.bind_some, Option.bind_eq_some_iff,
    decide_eq_true_eq] at h
  obtain ⟨-, -, value⟩ := h
  have exact : (if m < 0 then -(m.natAbs : Int) else m.natAbs) = n := Option.some.inj value
  split at exact <;> omega

end Text

namespace Json

variable {negative : Bool} {cs whole fraction exponent rest : List Char} {e : Int} {x : Binary64}

theorem toLower_of_isDigit {c : Char} (h : c.isDigit = true) : c.toLower = c := by
  refine Char.toLower_eq_of_not_isUpper fun upper => ?_
  have letter := Naming.isAlpha_of_isDigit h
  rw [Char.isAlpha, upper, Bool.true_or] at letter
  cases letter

/-- The parts of a number with a point or an exponent, or both. -/
structure Parts (cs whole fraction exponent : List Char) (e : Int) : Prop where
  written : cs = whole ++ ((if fraction.isEmpty then [] else '.' :: fraction) ++ exponent)
  nonempty : whole ≠ []
  digits : ∀ c ∈ whole, c.isDigit = true
  decimals : ∀ c ∈ fraction, c.isDigit = true
  marked : fraction ≠ [] ∨ exponent ≠ []
  power : exponent = [] ∧ e = 0 ∨
    ∃ letter tail, exponent = letter :: tail ∧ (letter = 'e' ∨ letter = 'E') ∧ Text.readExponent? tail = some e

theorem takeWhile_append_drop (p : Char → Bool) (cs : List Char) :
    cs.takeWhile p ++ cs.drop (cs.takeWhile p).length = cs := by
  conv_rhs => rw [← List.take_append_drop (cs.takeWhile p).length cs]
  rw [← List.prefix_iff_eq_take.1 (List.takeWhile_prefix p)]

theorem readWhole?_parts (h : readWhole? cs = some (whole, rest)) :
    cs = whole ++ rest ∧ whole ≠ [] ∧ ∀ c ∈ whole, c.isDigit = true := by
  unfold readWhole? at h
  split at h
  · cases h
    exact ⟨rfl, by simp, by simp⟩
  · dsimp only at h
    split at h
    · cases h
    · next nonempty =>
      cases h
      exact ⟨(takeWhile_append_drop _ _).symm, by simpa using nonempty, fun c hc => List.mem_takeWhile_imp hc⟩

theorem readFraction_parts (h : readFraction cs = (fraction, rest)) :
    cs = (if fraction.isEmpty then [] else '.' :: fraction) ++ rest ∧ ∀ c ∈ fraction, c.isDigit = true := by
  unfold readFraction at h
  split at h
  · next ds =>
    dsimp only at h
    split at h
    · cases h
      exact ⟨rfl, by simp⟩
    · next nonempty =>
      cases h
      refine ⟨?_, fun c hc => List.mem_takeWhile_imp hc⟩
      rw [if_neg nonempty, List.cons_append, takeWhile_append_drop]
  · cases h
    exact ⟨rfl, by simp⟩

theorem readExponent?_parts (h : readExponent? cs = some (e, [])) :
    ∃ letter tail, cs = letter :: tail ∧ (letter = 'e' ∨ letter = 'E') ∧ Text.readExponent? tail = some e := by
  unfold readExponent? at h
  split at h
  · cases h
  · next letter tail =>
    dsimp only at h
    split at h
    · next marked =>
      split at h
      · cases h
      · next nonempty =>
        have all : (Text.signed tail).2.takeWhile Char.isDigit = (Text.signed tail).2 := by
          have rest := takeWhile_append_drop Char.isDigit (Text.signed tail).2
          rwa [(Prod.mk.inj (Option.some.inj h)).2, List.append_nil] at rest
        have digits : (Text.signed tail).2.all Char.isDigit = true :=
          List.all_eq_true.2 (List.takeWhile_eq_self_iff.1 all)
        rw [all] at h nonempty
        refine ⟨letter, tail, rfl, marked, ?_⟩
        unfold Text.readExponent?
        dsimp only
        rw [digits, Bool.not_true, Bool.or_false, if_neg nonempty, (Prod.mk.inj (Option.some.inj h)).1]
    · cases h

theorem parts_of_readMagnitude (h : readMagnitude negative cs = .ok (.float x, [])) :
    ∃ whole fraction exponent e, Parts cs whole fraction exponent e ∧
      x = .ofDecimal negative (Text.digitsToNat (whole ++ fraction)) (e - fraction.length) := by
  unfold readMagnitude at h
  split at h
  · cases h
  · next whole rest hw =>
    obtain ⟨rfl, some, digits⟩ := readWhole?_parts hw
    dsimp only at h
    generalize hf : readFraction rest = parts at h
    obtain ⟨fraction, after⟩ := parts
    obtain ⟨rfl, decimals⟩ := readFraction_parts hf
    dsimp only at h
    split at h
    · next e found he =>
      cases h
      have exponent := readExponent?_parts he
      refine ⟨whole, fraction, after, e, ⟨rfl, some, digits, decimals, Or.inr ?_, Or.inr exponent⟩, rfl⟩
      obtain ⟨letter, tail, rfl, -⟩ := exponent
      simp
    · split at h
      · split at h <;> cases h
      · next nonempty =>
        cases h
        refine ⟨whole, fraction, [], 0, ⟨rfl, some, digits, decimals, Or.inl (by simpa using nonempty), Or.inl ⟨rfl, rfl⟩⟩, ?_⟩
        rw [zero_sub]

/-- The characters of numbers that are no integers. -/
def marks : List Char := ['.', 'e', 'E', '+', '-']

theorem mem_of_signed {tail : List Char} {c : Char} (h : c ∈ tail) :
    c ∈ (Text.signed tail).2 ∨ c = '+' ∨ c = '-' := by
  unfold Text.signed
  split
  · rcases List.mem_cons.1 h with rfl | h
    · exact Or.inr (Or.inr rfl)
    · exact Or.inl h
  · rcases List.mem_cons.1 h with rfl | h
    · exact Or.inr (Or.inl rfl)
    · exact Or.inl h
  · exact Or.inl h

theorem mem_of_readExponent? {tail : List Char} {c : Char} (h : Text.readExponent? tail = some e) (hc : c ∈ tail) :
    c.isDigit = true ∨ c ∈ marks := by
  unfold Text.readExponent? at h
  dsimp only at h
  split at h
  · cases h
  · next digits =>
    simp only [Bool.or_eq_true, Bool.not_eq_true', not_or, Bool.not_eq_false, List.all_eq_true] at digits
    rcases mem_of_signed hc with hc | rfl | rfl
    · exact Or.inl (digits.2 c hc)
    · exact Or.inr (by decide)
    · exact Or.inr (by decide)

theorem dropWhile_digits {digits : List Char} (hd : ∀ c ∈ digits, c.isDigit = true)
    (hr : ∀ c ∈ rest.head?, c.isDigit = false) : (digits ++ rest).dropWhile Char.isDigit = rest := by
  rw [List.dropWhile_append_of_pos hd]
  cases rest with
  | nil => rfl
  | cons c rest => rw [List.dropWhile_cons_of_neg (by simp [hr c rfl])]

namespace Parts

variable (h : Parts cs whole fraction exponent e)
include h

theorem mem {c : Char} (hc : c ∈ cs) : c.isDigit = true ∨ c ∈ marks := by
  rw [h.written, List.mem_append, List.mem_append] at hc
  rcases hc with hc | hc | hc
  · exact Or.inl (h.digits c hc)
  · split at hc
    · cases hc
    · rcases List.mem_cons.1 hc with rfl | hc
      · exact Or.inr (by decide)
      · exact Or.inl (h.decimals c hc)
  · rcases h.power with ⟨rfl, -⟩ | ⟨letter, tail, rfl, marked, read⟩
    · cases hc
    · rcases List.mem_cons.1 hc with rfl | hc
      · rcases marked with rfl | rfl
        · exact Or.inr (by decide)
        · exact Or.inr (by decide)
      · exact mem_of_readExponent? read hc

/-- A number that is no integer shows it. -/
theorem exists_mark : ∃ c ∈ cs, c = '.' ∨ c = 'e' ∨ c = 'E' := by
  rw [h.written]
  rcases h.power with ⟨rfl, -⟩ | ⟨letter, tail, rfl, marked, -⟩
  · have point : fraction ≠ [] := by simpa using h.marked
    exact ⟨'.', by simp [point], Or.inl rfl⟩
  · exact ⟨letter, by simp, Or.inr marked⟩

theorem head?_isDigit : ∀ c ∈ cs.head?, c.isDigit = true := by
  intro c hc
  rw [h.written, List.head?_append_of_ne_nil _ h.nonempty] at hc
  exact h.digits c (List.mem_of_mem_head? hc)

theorem exponent_stops : ∀ c ∈ exponent.head?, c.isDigit = false ∧ c ≠ '.' := by
  intro c hc
  rcases h.power with ⟨rfl, -⟩ | ⟨letter, tail, rfl, marked, -⟩
  · cases hc
  · cases hc
    rcases marked with rfl | rfl <;> decide

/-- A number is none of the words for numbers. -/
theorem ne_word (word : List Char) (hw : word.head?.all Char.isDigit = false) :
    String.ofList (cs.map Char.toLower) ≠ String.ofList word := by
  intro same
  rw [String.ofList_inj] at same
  cases cs with
  | nil => cases same; cases hw
  | cons c cs =>
    have digit := h.head?_isDigit c rfl
    rw [← same, List.map_cons, List.head?_cons, Option.all_some, toLower_of_isDigit digit, digit] at hw
    cases hw

/-- The reader of numbers in text takes the parts as they are. -/
theorem read (negative : Bool) : Text.readMagnitude? negative cs =
    some (.ofDecimal negative (Text.digitsToNat (whole ++ fraction)) (e - fraction.length)) := by
  have stops := h.exponent_stops
  have first : ∀ c ∈ ((if fraction.isEmpty then [] else '.' :: fraction) ++ exponent).head?, c.isDigit = false := by
    split
    · exact fun c hc => (stops c hc).1
    · rintro c ⟨⟩
      rfl
  have front := takeWhile_digits h.digits first
  have behind := dropWhile_digits h.digits first
  rw [← h.written] at front behind
  have infinite : ¬ (String.ofList (cs.map Char.toLower) = "inf" ∨ String.ofList (cs.map Char.toLower) = "infinity") :=
    not_or.2 ⟨h.ne_word "inf".toList rfl, h.ne_word "infinity".toList rfl⟩
  have number : ¬ String.ofList (cs.map Char.toLower) = "nan" := h.ne_word "nan".toList rfl
  have some : (whole.isEmpty && fraction.isEmpty) = false := by
    rw [List.isEmpty_eq_false_iff.2 h.nonempty, Bool.false_and]
  unfold Text.readMagnitude?
  dsimp only
  rw [if_neg infinite, if_neg number, front, behind]
  cases fraction with
  | nil =>
    rcases h.power with ⟨rfl, -⟩ | ⟨letter, tail, rfl, marked, read⟩
    · rcases h.marked with point | power
      · exact absurd rfl point
      · exact absurd rfl power
    · have point : letter ≠ '.' := (stops letter rfl).2
      simp [point, marked, read, h.nonempty]
  | cons d ds =>
    have decimals := takeWhile_digits h.decimals fun c hc => (stops c hc).1
    have rest := dropWhile_digits h.decimals fun c hc => (stops c hc).1
    rcases h.power with ⟨rfl, rfl⟩ | ⟨letter, tail, rfl, marked, read⟩
    · rw [List.append_nil] at decimals rest
      simp [decimals, rest]
    · rw [List.cons_append] at decimals rest
      simp [decimals, rest, marked, read]

end Parts

theorem exists_signed (h : readNumber cs = .ok (.float x, [])) : ∃ negative body,
    cs = (if negative then '-' :: body else body) ∧ readMagnitude negative body = .ok (.float x, []) := by
  unfold readNumber at h
  split at h
  · next body => exact ⟨true, body, rfl, h⟩
  · exact ⟨false, cs, rfl, h⟩

theorem bare_of_mark {c : Char} (h : c.isDigit = true ∨ c ∈ marks) : Text.Bare c := by
  have kept : marks.all (Text.Bare ·) = true := by decide
  rcases h with digit | mark
  · exact Text.bare_of_isDigit digit
  · exact of_decide_eq_true (List.all_eq_true.1 kept c mark)

/-- What is written for a number is read as the number by both readers. -/
theorem readFloat?_of_readNumber (h : readNumber cs = .ok (.float x, [])) :
    Text.readFloat? (String.ofList cs) = some x := by
  obtain ⟨negative, body, rfl, read⟩ := exists_signed h
  obtain ⟨whole, fraction, exponent, e, parts, rfl⟩ := parts_of_readMagnitude read
  have bare : ∀ c ∈ (if negative then '-' :: body else body), Text.Bare c := by
    intro c hc
    split at hc
    · rcases List.mem_cons.1 hc with rfl | hc
      · decide
      · exact bare_of_mark (parts.mem hc)
    · exact bare_of_mark (parts.mem hc)
  have sign : Text.signed (if negative then '-' :: body else body) = (negative, body) := by
    cases negative with
    | true => rfl
    | false => exact Text.signed_of_isDigit parts.head?_isDigit
  unfold Text.readFloat?
  rw [String.toList_ofList, Text.asciiNumber?_bare bare]
  show (Text.dropUnderscores? ' ' (Text.trim Text.isAsciiBlank _)).bind _ = _
  rw [Text.trim_bare bare, Text.dropUnderscores?_bare ' ' bare, Option.bind_some, sign]
  exact parts.read negative

end Json

namespace Binary64

theorem readNumber_finite {negative : Bool} {m p : Nat} {h : Fits m p} :
    Json.readNumber (finite negative m p h).chars = .ok (.float (.finite negative m p h), []) := by
  have stops : Json.Stops [] := by
    intro c hc
    cases hc
  have read : Json.readNumber ((finite negative m p h).chars ++ []) = _ := Json.readNumber_chars stops
  rwa [List.append_nil] at read

/-- A number is read from its text as itself. -/
theorem readFloat?_text (x : Binary64) : Text.readFloat? x.text = some x := by
  cases x with
  | nan => decide +kernel
  | infinite negative => cases negative <;> decide +kernel
  | finite negative m p h => exact Json.readFloat?_of_readNumber readNumber_finite

theorem text_injective : Function.Injective text := by
  intro x y h
  have read := readFloat?_text x
  rw [h, readFloat?_text y] at read
  exact (Option.some.inj read).symm

/-- The text of a finite number has the parts of a number behind its sign. -/
theorem exists_parts {negative : Bool} {m p : Nat} {h : Fits m p} : ∃ body whole fraction exponent e,
    Json.Parts body whole fraction exponent e ∧ body ⊆ (finite negative m p h).chars := by
  have number : Json.readNumber (finite negative m p h).chars = _ := readNumber_finite
  obtain ⟨sign, body, written, read⟩ := Json.exists_signed number
  obtain ⟨whole, fraction, exponent, e, parts, -⟩ := Json.parts_of_readMagnitude read
  refine ⟨body, whole, fraction, exponent, e, parts, fun c hc => ?_⟩
  rw [written]
  split
  · exact List.mem_cons_of_mem _ hc
  · exact hc

/-- Every number shows in its text that it is no integer, with a character of a number or of a word. -/
theorem exists_mark (x : Binary64) : ∃ c ∈ x.chars, c ∈ ['.', 'e', 'E', 'n'] := by
  cases x with
  | nan => exact ⟨'n', by decide, by decide⟩
  | infinite negative => exact ⟨'n', by cases negative <;> decide, by decide⟩
  | finite negative m p h =>
    obtain ⟨body, whole, fraction, exponent, e, parts, inside⟩ := exists_parts
    obtain ⟨c, hc, mark⟩ := parts.exists_mark
    exact ⟨c, inside hc, by rcases mark with rfl | rfl | rfl <;> decide⟩

/-- The text of a number holds a digit, or else it is a word for a number. -/
theorem exists_digit (x : Binary64) : ∃ c ∈ x.chars, c.isDigit = true ∨ c = 'n' := by
  cases x with
  | nan => exact ⟨'n', by decide, Or.inr rfl⟩
  | infinite negative => exact ⟨'n', by cases negative <;> decide, Or.inr rfl⟩
  | finite negative m p h =>
    obtain ⟨body, whole, fraction, exponent, e, parts, inside⟩ := exists_parts
    obtain ⟨c, hc⟩ := List.exists_mem_of_ne_nil whole parts.nonempty
    have first : c ∈ body := by
      rw [parts.written]
      exact List.mem_append_left _ hc
    exact ⟨c, inside first, Or.inl (parts.digits c hc)⟩

theorem text_ne_ofInt (x : Binary64) (n : Int) : x.text ≠ Text.ofInt n := by
  intro same
  obtain ⟨c, hc, mark⟩ := x.exists_mark
  have other : ['.', 'e', 'E', 'n'].all (fun d => ¬ (d = '-' ∨ d.isDigit = true)) = true := by decide
  rw [text, Text.ofInt, String.ofList_inj] at same
  exact of_decide_eq_true (List.all_eq_true.1 other c mark) (Text.mem_intChars (same ▸ hc))

end Binary64

end ResourceCompiler
