import ResourceCompiler.Proofs.Json.Text

/-!
# Escapes of source text

Source text is a sequence of UTF-16 units, any of which may be written as an escape of four digits in base sixteen.
Escapes are replaced before anything else is read, and a backslash starts one only if an even number of backslashes
stands before it. A character that is no part of an escape parts a text in two that are read apart
(`unescape_append`).
-/

namespace ResourceCompiler.Java

/-- A UTF-16 unit, and whether it is written as an escape. -/
structure SourceUnit where
  code : Nat
  escaped : Bool
deriving DecidableEq

/-- The units of a character that stands for itself. -/
def rawUnits (c : Char) : List SourceUnit :=
  (Text.units16 c).map (⟨·, false⟩)

/-- The unit of an escape after its backslash, one `u` or more and four digits, and what follows it. -/
def escapedUnit? : List Char → Option (Nat × List Char)
  | 'u' :: cs => Json.readHex? 4 (cs.dropWhile (· = 'u'))
  | _ => none

theorem readHex?_suffix {n count : Nat} {cs rest : List Char} (h : Json.readHex? count cs = some (n, rest)) :
    rest <:+ cs := by
  unfold Json.readHex? at h
  split at h
  · cases h
  · obtain ⟨_, -, hn⟩ := Option.map_eq_some_iff.1 h
    cases hn
    exact List.drop_suffix count cs

theorem escapedUnit?_suffix {n : Nat} {c : Char} {cs rest : List Char} (h : escapedUnit? (c :: cs) = some (n, rest)) :
    rest <:+ cs := by
  unfold escapedUnit? at h
  split at h
  · next cs' start =>
    rw [List.cons.injEq] at start
    rw [start.2]
    exact (readHex?_suffix h).trans (List.dropWhile_suffix _)
  · cases h

theorem escapedUnit?_lt {n : Nat} {cs rest : List Char} (h : escapedUnit? cs = some (n, rest)) :
    rest.length < cs.length := by
  cases cs with
  | nil => cases h
  | cons c cs => exact Nat.lt_succ_of_le (escapedUnit?_suffix h).length_le

/-- The units of a text. An odd number of backslashes right before it keeps a backslash from starting an escape. -/
def unescape (odd : Bool) (cs : List Char) : List SourceUnit :=
  match cs with
  | [] => []
  | c :: cs =>
    if c = '\\' ∧ odd = false then
      match _h : escapedUnit? cs with
      | some (n, rest) => ⟨n, true⟩ :: unescape false rest
      | none => rawUnits c ++ unescape true cs
    else rawUnits c ++ unescape false cs
termination_by cs.length
decreasing_by
  · have := escapedUnit?_lt ‹_›
    simp only [List.length_cons]
    omega
  all_goals simp

variable {odd : Bool} {c : Char} {n : Nat} {cs ds rest : List Char}

theorem unescape_nil : unescape odd [] = [] := by rw [unescape]

theorem unescape_raw (h : c ≠ '\\' ∨ odd = true) : unescape odd (c :: cs) = rawUnits c ++ unescape false cs := by
  rw [unescape, if_neg]
  rintro ⟨slash, even⟩
  rcases h with h | h
  · exact h slash
  · rw [even] at h
    cases h

theorem unescape_escape (h : escapedUnit? cs = some (n, rest)) :
    unescape false ('\\' :: cs) = ⟨n, true⟩ :: unescape false rest := by
  rw [unescape, if_pos ⟨rfl, rfl⟩]
  split
  · next m rest' found =>
    rw [found] at h
    cases h
    rfl
  · next none =>
    rw [none] at h
    cases h

theorem unescape_slash (h : escapedUnit? cs = none) :
    unescape false ('\\' :: cs) = rawUnits '\\' ++ unescape true cs := by
  rw [unescape, if_pos ⟨rfl, rfl⟩]
  split
  · next found =>
    rw [found] at h
    cases h
  · rfl

/-- A text starts with a character that stands for itself or with an escape. -/
theorem unescape_cases (odd : Bool) (c : Char) (cs : List Char) :
    (∃ odd', unescape odd (c :: cs) = rawUnits c ++ unescape odd' cs) ∨
      ∃ n rest, escapedUnit? cs = some (n, rest) ∧ unescape odd (c :: cs) = ⟨n, true⟩ :: unescape false rest := by
  by_cases raw : c ≠ '\\' ∨ odd = true
  · exact Or.inl ⟨false, unescape_raw raw⟩
  · rw [not_or, Decidable.not_not, Bool.not_eq_true] at raw
    obtain ⟨rfl, rfl⟩ := raw
    cases he : escapedUnit? cs with
    | none => exact Or.inl ⟨true, unescape_slash he⟩
    | some found => exact Or.inr ⟨found.1, found.2, rfl, unescape_escape he⟩

/-- A character that neither starts an escape nor goes on with one. -/
structure Parts (c : Char) : Prop where
  slash : c ≠ '\\'
  letter : c ≠ 'u'
  digit : Json.hexValue? c = none

theorem readHex?_append (hc : Parts c) (cs ds : List Char) :
    Json.readHex? 4 (cs ++ c :: ds) = (Json.readHex? 4 cs).map fun (n, rest) => (n, rest ++ c :: ds) := by
  have lost (es : List Char) : es.foldl (fun n? e => (do return 16 * (← n?) + (← Json.hexValue? e) : Option Nat))
      none = none := by
    induction es with
    | nil => rfl
    | cons e es ih => exact ih
  have stop (n? : Option Nat) : (do return 16 * (← n?) + (← Json.hexValue? c) : Option Nat) = none := by
    rw [hc.digit]
    cases n? <;> rfl
  rcases Nat.lt_or_ge cs.length 4 with short | long
  · -- the character is among the first four, and no digit
    have refused : Json.readHex? 4 cs = none := by simp [Json.readHex?, short]
    obtain ⟨k, hk⟩ : ∃ k, 4 - cs.length = k + 1 := ⟨3 - cs.length, by omega⟩
    have first : (cs ++ c :: ds).take 4 = cs ++ c :: ds.take k := by
      rw [List.take_append, List.take_of_length_le (by omega), hk, List.take_succ_cons]
    rw [refused, Json.readHex?, first, List.foldl_append, List.foldl_cons, stop, lost]
    split <;> rfl
  · have shorter : ¬ cs.length < 4 := by omega
    have longer : ¬ (cs ++ c :: ds).length < 4 := by
      rw [List.length_append]
      omega
    rw [Json.readHex?, Json.readHex?, if_neg shorter, if_neg longer, List.take_append_of_le_length long,
      List.drop_append_of_le_length long]
    dsimp only
    rw [Option.map_map]
    rfl

theorem escapedUnit?_append (hc : Parts c) (cs ds : List Char) :
    escapedUnit? (cs ++ c :: ds) = (escapedUnit? cs).map fun (n, rest) => (n, rest ++ c :: ds) := by
  cases cs with
  | nil => simp [escapedUnit?, hc.letter]
  | cons d cs =>
    by_cases hd : d = 'u'
    · subst hd
      have dropped : (cs ++ c :: ds).dropWhile (· = 'u') = cs.dropWhile (· = 'u') ++ c :: ds := by
        rw [List.dropWhile_append]
        split
        · next all =>
          rw [List.isEmpty_iff.1 all, List.dropWhile_cons_of_neg (by simp [hc.letter]), List.nil_append]
        · rfl
      rw [List.cons_append, escapedUnit?, escapedUnit?, dropped, readHex?_append hc]
    · simp [escapedUnit?, hd]

/-- What stands before a parting character and what stands behind it are read apart. -/
theorem unescape_append (hc : Parts c) (odd : Bool) (cs ds : List Char) :
    unescape odd (cs ++ c :: ds) = unescape odd cs ++ rawUnits c ++ unescape false ds := by
  induction h : cs.length using Nat.strongRecOn generalizing odd cs with
  | ind length ih =>
    cases cs with
    | nil => rw [unescape_nil, List.nil_append, List.nil_append, unescape_raw (Or.inl hc.slash)]
    | cons d cs =>
      subst h
      have rest (odd : Bool) := ih cs.length (Nat.lt_succ_self _) odd cs rfl
      rw [List.cons_append]
      by_cases raw : d ≠ '\\' ∨ odd = true
      · rw [unescape_raw raw, unescape_raw raw, rest]
        simp
      · rw [not_or, Decidable.not_not, Bool.not_eq_true] at raw
        obtain ⟨rfl, rfl⟩ := raw
        have read := escapedUnit?_append hc cs ds
        cases he : escapedUnit? cs with
        | none =>
          rw [he] at read
          rw [unescape_slash read, unescape_slash he, rest, List.append_assoc, List.append_assoc, List.append_assoc]
        | some found =>
          obtain ⟨n, after⟩ := found
          rw [he] at read
          have shorter := escapedUnit?_lt he
          have behind := ih after.length (Nat.lt_succ_of_lt shorter) false after rfl
          rw [unescape_escape read, unescape_escape he, behind]
          rfl

end ResourceCompiler.Java
