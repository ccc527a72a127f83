import ResourceCompiler.Java.Unit
import ResourceCompiler.Proofs.Java.Escapes

/-!
# Texts as string literals

A text between double quotes is written for readers of data and read as a string literal of source code, whose escapes
are replaced in two steps: those of units in all of the source text, then those of the literal. Since every escape that
is written leaves an even number of backslashes behind it, the first step stays inside one character, and the second
step gives the units of that character (`readText?_quoteChar`). The literal of a text is read as that text and to its
end, whatever the text is (`literal_faithful`).
-/

namespace ResourceCompiler.Java

/-- The UTF-16 units of a text. -/
def units (s : String) : List Nat :=
  s.toList.flatMap Text.units16

/-- What source text reads as, once its escapes of units are replaced. -/
def codes (cs : List Char) : List Nat :=
  (unescape false cs).map (·.code)

/-- The letters and marks of a string's escapes, with the units they stand for. -/
def marks : List (Char × Nat) :=
  [('b', 8), ('s', 32), ('t', 9), ('n', 10), ('f', 12), ('r', 13), ('"', 34), ('\'', 39), ('\\', 92)]

/-- The octal digits of an escape: three if the first of them is three at most, and otherwise two. -/
def octalDigits (us : List Nat) : List Nat :=
  (us.take (if us.head?.any (· < '4'.toNat) then 3 else 2)).takeWhile fun u => '0'.toNat ≤ u && u ≤ '7'.toNat

def octal? (us : List Nat) : Option (Nat × List Nat) :=
  if (octalDigits us).isEmpty then none
  else some ((octalDigits us).foldl (fun n u => 8 * n + (u - '0'.toNat)) 0, us.drop (octalDigits us).length)

/-- The unit that an escape of a string stands for, after its backslash. -/
def stringEscape? : List Nat → Option (Nat × List Nat)
  | [] => none
  | u :: us =>
    match marks.find? (·.1.toNat = u) with
    | some mark => some (mark.2, us)
    | none => octal? (u :: us)

theorem stringEscape?_lt {n : Nat} {us rest : List Nat} (h : stringEscape? us = some (n, rest)) :
    rest.length < us.length := by
  unfold stringEscape? at h
  split at h
  · cases h
  · split at h
    · cases h
      simp
    · unfold octal? at h
      split at h
      · cases h
      · next some =>
        cases h
        rw [List.isEmpty_iff, ← List.length_eq_zero_iff] at some
        simp only [List.length_drop, List.length_cons]
        omega

/-- The units of a string up to its closing quote, and what follows. A string ends on the line it starts on. -/
def stringText? (us : List Nat) : Option (List Nat × List Nat) :=
  match us with
  | [] => none
  | u :: us =>
    if u = '"'.toNat then some ([], us)
    else if u = '\n'.toNat ∨ u = '\r'.toNat then none
    else if u = '\\'.toNat then
      match _h : stringEscape? us with
      | some (n, rest) => (stringText? rest).map fun (text, rest) => (n :: text, rest)
      | none => none
    else (stringText? us).map fun (text, rest) => (u :: text, rest)
termination_by us.length
decreasing_by
  · have := stringEscape?_lt ‹_›
    simp only [List.length_cons]
    omega
  · simp

/-- The string literal at the start of source text, and what follows. Three quotes start a literal of another kind. -/
def stringLiteral? (cs : List Char) : Option (List Nat × List Nat) :=
  match codes cs with
  | 34 :: 34 :: 34 :: _ => none
  | 34 :: us => stringText? us
  | _ => none

variable {c d : Char} {cs ds rest : List Char} {us us' : List Nat} {n : Nat}

/-! ### The first step -/

theorem map_code_rawUnits (c : Char) : (rawUnits c).map (·.code) = Text.units16 c := by
  simp [rawUnits, Function.comp_def]

theorem codes_raw (h : c ≠ '\\') : codes (c :: rest) = Text.units16 c ++ codes rest := by
  unfold codes
  rw [unescape_raw (Or.inl h), List.map_append, map_code_rawUnits]

theorem codes_escape (h : n < 0x10000) : codes (Text.unitEscape n ++ rest) = n :: codes rest := by
  have letter : ∀ k < 16, Nat.digitChar k ≠ 'u' := by decide
  have first : (Text.hexDigits 4 n ++ rest).dropWhile (· = 'u') = Text.hexDigits 4 n ++ rest := by
    have digits : Text.hexDigits 4 n = Nat.digitChar (n / Nat.pow 16 3 % 16) ::
        (List.range 3).reverse.map fun i => Nat.digitChar (n / Nat.pow 16 i % 16) := rfl
    have other := letter (n / Nat.pow 16 3 % 16) (Nat.mod_lt _ (by decide))
    rw [digits, List.cons_append, List.dropWhile_cons_of_neg]
    simp only [decide_eq_true_eq]
    exact other
  have read : escapedUnit? ('u' :: (Text.hexDigits 4 n ++ rest)) = some (n, rest) := by
    rw [escapedUnit?, first, Json.readHex?_hexDigits h]
  unfold codes
  rw [Text.unitEscape, List.cons_append, List.cons_append, unescape_escape read]
  rfl

/-- A backslash and the character behind it are left to the second step, unless they start an escape of a unit. -/
theorem codes_slash (h : c ≠ 'u') : codes ('\\' :: c :: rest) = '\\'.toNat :: (Text.units16 c ++ codes rest) := by
  have other : escapedUnit? (c :: rest) = none := by simp [escapedUnit?, h]
  unfold codes
  rw [unescape_slash other, unescape_raw (Or.inr rfl), List.map_append, List.map_append, map_code_rawUnits,
    map_code_rawUnits]
  rfl

/-- What the first step makes of a quoted character. -/
def quotedCodes (c : Char) : List Nat :=
  match Text.shortEscape? c with
  | some e => ['\\'.toNat, e.toNat]
  | none => Text.units16 c

theorem codes_quoteChar (c : Char) (rest : List Char) :
    codes (Text.quoteChar true c ++ rest) = quotedCodes c ++ codes rest := by
  unfold Text.quoteChar quotedCodes
  cases he : Text.shortEscape? c with
  | some e =>
    obtain ⟨other, -⟩ := Json.escapeChar?_of_shortEscape? he
    have ascii : e.toNat < 0x10000 := by
      unfold Text.shortEscape? at he
      split_ifs at he <;> cases he <;> decide
    have single : Text.units16 e = [e.toNat] := if_pos ascii
    show codes ('\\' :: e :: rest) = _
    rw [codes_slash other, single]
    rfl
  | none =>
    have slash : c ≠ '\\' := by
      rintro rfl
      cases he
    obtain ⟨-, small⟩ := Json.toNat_bounds c
    show codes ((if c.toNat < 32 then Text.unitEscape c.toNat else
      if true && decide (127 ≤ c.toNat) then (Text.units16 c).flatMap Text.unitEscape else [c]) ++ rest) = _
    by_cases control : c.toNat < 32
    · have single : Text.units16 c = [c.toNat] := if_pos (by omega)
      rw [if_pos control, codes_escape (by omega), single]
      rfl
    · rw [if_neg control]
      split
      · unfold Text.units16
        dsimp only
        split
        · next single =>
          rw [List.flatMap_singleton, codes_escape single]
          rfl
        · rw [List.flatMap_cons, List.flatMap_singleton, List.append_assoc, codes_escape (by omega),
            codes_escape (by omega)]
          rfl
      · exact codes_raw slash

/-! ### The second step -/

theorem stringText?_plain (quote : n ≠ '"'.toNat) (line : n ≠ '\n'.toNat ∧ n ≠ '\r'.toNat) (slash : n ≠ '\\'.toNat) :
    stringText? (n :: us) = (stringText? us).map fun (text, rest) => (n :: text, rest) := by
  rw [stringText?, if_neg quote, if_neg (not_or.2 line), if_neg slash]

theorem stringText?_escape (h : stringEscape? us = some (n, us')) :
    stringText? ('\\'.toNat :: us) = (stringText? us').map fun (text, rest) => (n :: text, rest) := by
  rw [stringText?, if_neg (by decide), if_neg (by decide), if_pos rfl]
  split
  · next found =>
    rw [h] at found
    cases found
    rfl
  · next lost =>
    rw [h] at lost
    cases lost

theorem stringEscape?_of_shortEscape? (h : Text.shortEscape? c = some d) :
    stringEscape? (d.toNat :: us) = some (c.toNat, us) := by
  unfold Text.shortEscape? at h
  split_ifs at h with h1 h2 h3 h4 h5 h6 h7 <;> cases h
  · rw [h1]; rfl
  · rw [h2]; rfl
  · rw [h3]; rfl
  · rw [h4]; rfl
  · rw [h5]; rfl
  · rw [h6]; rfl
  · rw [h7]; rfl

/-- A unit of a character is the character itself or lies beyond ASCII. -/
theorem units16_cases (h : n ∈ Text.units16 c) : n = c.toNat ∨ 0xd800 ≤ n := by
  unfold Text.units16 at h
  dsimp only at h
  split at h
  · simp only [List.mem_singleton] at h
    exact Or.inl h
  · simp only [List.mem_cons, List.not_mem_nil, or_false] at h
    right
    rcases h with high | low <;> omega

theorem stringText?_units {vs : List Nat}
    (h : ∀ n ∈ vs, n ≠ '"'.toNat ∧ n ≠ '\n'.toNat ∧ n ≠ '\r'.toNat ∧ n ≠ '\\'.toNat) :
    stringText? (vs ++ us) = (stringText? us).map fun (text, rest) => (vs ++ text, rest) := by
  induction vs with
  | nil => simp
  | cons v vs ih =>
    obtain ⟨⟨quote, line, back, slash⟩, hvs⟩ := List.forall_mem_cons.1 h
    rw [List.cons_append, stringText?_plain quote ⟨line, back⟩ slash, ih hvs, Option.map_map]
    rfl

/-- The second step gives the units of a character. -/
theorem stringText?_quotedCodes (c : Char) (us : List Nat) :
    stringText? (quotedCodes c ++ us) = (stringText? us).map fun (text, rest) => (Text.units16 c ++ text, rest) := by
  unfold quotedCodes
  cases he : Text.shortEscape? c with
  | some e =>
    have single : Text.units16 c = [c.toNat] := by
      refine if_pos ?_
      unfold Text.shortEscape? at he
      split_ifs at he with h1 h2 h3 h4 h5 h6 h7
      all_goals first | omega | subst c; decide
    rw [single]
    exact stringText?_escape (stringEscape?_of_shortEscape? he)
  | none =>
    refine stringText?_units fun n hn => ?_
    have other (d : Char) (hd : d.toNat < 0xd800) (hne : c ≠ d) : n ≠ d.toNat := by
      rcases units16_cases hn with rfl | far
      · exact fun h => hne (Char.toNat_inj.1 h)
      · omega
    unfold Text.shortEscape? at he
    split_ifs at he with h1 h2 h3 h4 h5
    exact ⟨other '"' (by decide) h1, other '\n' (by decide) h3, other '\r' (by decide) h4, other '\\' (by decide) h2⟩

/-! ### Whole literals -/

theorem codes_quoteChars (cs rest : List Char) :
    codes (cs.flatMap (Text.quoteChar true) ++ rest) = cs.flatMap quotedCodes ++ codes rest := by
  induction cs with
  | nil => rfl
  | cons c cs ih =>
    rw [List.flatMap_cons, List.flatMap_cons, List.append_assoc, codes_quoteChar, ih, List.append_assoc]

theorem stringText?_quoted (cs : List Char) (us : List Nat) :
    stringText? (cs.flatMap quotedCodes ++ '"'.toNat :: us) = some (cs.flatMap Text.units16, us) := by
  induction cs with
  | nil =>
    rw [List.flatMap_nil, List.nil_append, stringText?, if_pos rfl]
    rfl
  | cons c cs ih =>
    rw [List.flatMap_cons, List.append_assoc, stringText?_quotedCodes, ih, List.flatMap_cons]
    rfl

theorem codes_quote (s : String) :
    codes (Text.quote s).toList = '"'.toNat :: (s.toList.flatMap quotedCodes ++ ['"'.toNat]) := by
  have closing : codes ['"'] = ['"'.toNat] := by
    rw [codes_raw (by decide), codes, unescape_nil]
    rfl
  rw [Text.quote, Text.quoteChars, String.toList_ofList, codes_raw (by decide), codes_quoteChars, closing]
  rfl

theorem stringLiteral?_quote (s : String) : stringLiteral? (Text.quote s).toList = some (units s, []) := by
  have read := stringText?_quoted s.toList []
  have coded := codes_quote s
  unfold stringLiteral?
  split
  · next three =>
    -- a quote at the start of the text would end it there
    rw [three, List.cons.injEq] at coded
    rw [← coded.2, stringText?, if_pos (by decide)] at read
    simp at read
  · next one =>
    rw [one, List.cons.injEq] at coded
    rw [coded.2, read]
    rfl
  · next other =>
    exact absurd coded (other _)

theorem units16_append_inj (h : Text.units16 c ++ us = Text.units16 d ++ us') : c = d ∧ us = us' := by
  obtain ⟨hc, small⟩ := Json.toNat_bounds c
  obtain ⟨hd, small'⟩ := Json.toNat_bounds d
  unfold Text.units16 at h
  dsimp only at h
  split at h <;> split at h
  · simp only [List.cons_append, List.nil_append, List.cons.injEq] at h
    exact ⟨Char.toNat_inj.1 h.1, h.2⟩
  · simp only [List.cons_append, List.nil_append, List.cons.injEq] at h
    omega
  · simp only [List.cons_append, List.nil_append, List.cons.injEq] at h
    omega
  · simp only [List.cons_append, List.nil_append, List.cons.injEq] at h
    obtain ⟨high, low, rest⟩ := h
    exact ⟨Char.toNat_inj.1 (by omega), rest⟩

theorem units_injective : Function.Injective units := by
  have chars (cs ds : List Char) (h : cs.flatMap Text.units16 = ds.flatMap Text.units16) : cs = ds := by
    have nonempty (c : Char) : Text.units16 c ≠ [] := by
      unfold Text.units16
      dsimp only
      split <;> simp
    induction cs generalizing ds with
    | nil =>
      cases ds with
      | nil => rfl
      | cons d ds => simp [nonempty] at h
    | cons c cs ih =>
      cases ds with
      | nil => simp [nonempty] at h
      | cons d ds =>
        obtain ⟨rfl, rest⟩ := units16_append_inj h
        rw [ih ds rest]
  intro s t h
  exact String.toList_inj.1 (chars s.toList t.toList h)

/-- The printable characters of ASCII, which end no line. -/
def Shown (c : Char) : Prop :=
  ' '.toNat ≤ c.toNat ∧ c.toNat ≤ '~'.toNat

instance (c : Char) : Decidable (Shown c) := inferInstanceAs (Decidable (_ ∧ _))

theorem shown_unitEscape (n : Nat) : ∀ c ∈ Text.unitEscape n, Shown c := by
  have digit : ∀ k < 16, Shown (Nat.digitChar k) := by decide
  intro c hc
  simp only [Text.unitEscape, Text.hexDigits, List.mem_cons, List.mem_map] at hc
  rcases hc with rfl | rfl | ⟨i, -, rfl⟩
  · decide
  · decide
  · exact digit _ (Nat.mod_lt _ (by decide))

theorem shown_quoteChar (c : Char) : ∀ d ∈ Text.quoteChar true c, Shown d := by
  intro d hd
  unfold Text.quoteChar at hd
  split at hd
  · next e he =>
    simp only [List.mem_cons, List.not_mem_nil, or_false] at hd
    rcases hd with rfl | rfl
    · decide
    · unfold Text.shortEscape? at he
      split_ifs at he <;> cases he <;> decide
  · split at hd
    · exact shown_unitEscape _ d hd
    · next printed =>
      split at hd
      · obtain ⟨u, -, hd⟩ := List.mem_flatMap.1 hd
        exact shown_unitEscape u d hd
      · next ascii =>
        rw [List.mem_singleton] at hd
        subst hd
        have below : d.toNat < 127 := by simpa using ascii
        exact ⟨Nat.not_lt.1 printed, Nat.le_of_lt_succ below⟩

theorem shown_quote (s : String) : ∀ c ∈ (Text.quote s).toList, Shown c := by
  intro c hc
  rw [Text.quote, Text.quoteChars, String.toList_ofList] at hc
  simp only [List.mem_cons, List.mem_append, List.mem_flatMap, List.not_mem_nil, or_false] at hc
  rcases hc with rfl | ⟨d, -, hd⟩ | rfl
  · decide
  · exact shown_quoteChar d c hd
  · decide

/-- The literal of a text has printable characters of ASCII only. It is read as the text, up to its end, so that no two
texts have one literal. The filter of the templates, the constants and defaults of generated classes and the arguments
of their annotations all write this literal. -/
theorem literal_faithful (s : String) :
    (Template.Filter.quote.apply (.str s) = .ok (.str (Text.quote s)) ∧ literal (.str s) .string = .ok (Text.quote s) ∧
      quoted (.str s) = .ok (Text.quote s)) ∧
    (∀ c ∈ (Text.quote s).toList, Shown c) ∧
    stringLiteral? (Text.quote s).toList = some (units s, []) ∧
    ∀ t, Text.quote s = Text.quote t → s = t := by
  refine ⟨⟨rfl, rfl, rfl⟩, shown_quote s, stringLiteral?_quote s, fun t h => ?_⟩
  have read := stringLiteral?_quote s
  rw [h, stringLiteral?_quote t] at read
  exact (units_injective (congrArg Prod.fst (Option.some.inj read))).symm

/-- A backslash of the text starts no escape of a unit. -/
example : Text.quote "\\u0022" = "\"\\\\u0022\"" := by decide +kernel

end ResourceCompiler.Java
