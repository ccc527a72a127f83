import Mathlib.Tactic.SplitIfs
import ResourceCompiler.Json.Printer
import ResourceCompiler.Json.Reader

/-!
# Quoted text read back

Between quotes a character stands for itself, for a short escape or for one or two units of four digits.
Each reads back as the character (`readText?_quoteChar`), and so does a whole text (`readText?_quoted`).
-/

namespace ResourceCompiler.Json

open Text

variable {ascii : Bool} {c : Char} {rest : List Char}

theorem hexValue?_digitChar {n : Nat} (h : n < 16) : hexValue? (Nat.digitChar n) = some n := by
  have all : ∀ k < 16, hexValue? (Nat.digitChar k) = some k := by decide
  exact all n h

theorem readHex?_hexDigits {n : Nat} (h : n < 0x10000) (rest : List Char) :
    readHex? 4 (hexDigits 4 n ++ rest) = some (n, rest) := by
  have digits : hexDigits 4 n = [Nat.digitChar (n / 4096 % 16), Nat.digitChar (n / 256 % 16),
      Nat.digitChar (n / 16 % 16), Nat.digitChar (n % 16)] := by
    simp [hexDigits, List.range_succ]
  have value : 16 * (16 * (16 * (n / 4096 % 16) + n / 256 % 16) + n / 16 % 16) + n % 16 = n := by omega
  have small (k : Nat) : hexValue? (Nat.digitChar (k % 16)) = some (k % 16) :=
    hexValue?_digitChar (Nat.mod_lt _ (by decide))
  rw [digits]
  simp [readHex?, small, value]

/-- No character lies among the units of pairs, and none beyond them all. -/
theorem toNat_bounds (c : Char) : (c.toNat < 0xd800 ∨ 0xe000 ≤ c.toNat) ∧ c.toNat < 0x110000 := by
  have valid : c.toNat < 0xd800 ∨ 0xdfff < c.toNat ∧ c.toNat < 0x110000 := c.valid
  omega

theorem readUnit?_single (h : c.toNat < 0x10000) (rest : List Char) :
    readUnit? (hexDigits 4 c.toNat ++ rest) = some (c, rest) := by
  obtain ⟨proper, -⟩ := toNat_bounds c
  have unit : unitChar c.toNat = c := by
    rw [unitChar, if_neg (by omega), Char.ofNat_toNat]
  have alone (low : Nat) : pairChar? c.toNat low = none := by
    rw [pairChar?, if_neg (by omega)]
  unfold readUnit?
  rw [readHex?_hexDigits h, Option.bind_eq_bind, Option.bind_some]
  dsimp only
  split
  · split
    · rw [alone, unit]
      rfl
    · rw [unit]
      rfl
  · rw [unit]
    rfl

theorem readUnit?_pair {high low : Nat} (hh : high < 0x10000) (hl : low < 0x10000)
    (pair : pairChar? high low = some c) (rest : List Char) :
    readUnit? (hexDigits 4 high ++ '\\' :: 'u' :: (hexDigits 4 low ++ rest)) = some (c, rest) := by
  unfold readUnit?
  rw [readHex?_hexDigits hh]
  simp [readHex?_hexDigits hl, pair]

theorem pairChar?_units (h : 0x10000 ≤ c.toNat) :
    pairChar? (0xd800 + (c.toNat - 0x10000) / 0x400) (0xdc00 + (c.toNat - 0x10000) % 0x400) = some c := by
  obtain ⟨-, small⟩ := toNat_bounds c
  have value : 0x10000 + (0xd800 + (c.toNat - 0x10000) / 0x400 - 0xd800) * 0x400 +
      (0xdc00 + (c.toNat - 0x10000) % 0x400 - 0xdc00) = c.toNat := by omega
  rw [pairChar?, if_pos (by omega), value, Char.ofNat_toNat]

theorem escapeChar?_of_shortEscape? {e : Char} (h : shortEscape? c = some e) :
    e ≠ 'u' ∧ escapeChar? e = some c := by
  unfold shortEscape? at h
  split_ifs at h with h1 h2 h3 h4 h5 h6 h7 <;> cases h
  · exact ⟨by decide, by rw [h1]; rfl⟩
  · exact ⟨by decide, by rw [h2]; rfl⟩
  · exact ⟨by decide, by rw [h3]; rfl⟩
  · exact ⟨by decide, by rw [h4]; rfl⟩
  · exact ⟨by decide, by rw [h5]; rfl⟩
  · exact ⟨by decide, by rw [← Char.ofNat_toNat c, h6]; rfl⟩
  · exact ⟨by decide, by rw [← Char.ofNat_toNat c, h7]; rfl⟩

/-- A character of a quoted text reads back as itself. -/
theorem readText?_quoteChar {n : Nat} :
    readText? (n + 1) (quoteChar ascii c ++ rest) =
      (readText? n rest).map fun (text, rest) => (c :: text, rest) := by
  have unit {cs : List Char} (h : readUnit? cs = some (c, rest)) : readText? (n + 1) ('\\' :: 'u' :: cs) =
      (readText? n rest).map fun (text, rest) => (c :: text, rest) := by
    rw [readText?, h]
    cases hr : readText? n rest <;> simp [hr]
  unfold quoteChar
  split
  · next e he =>
    obtain ⟨other, back⟩ := escapeChar?_of_shortEscape? he
    rw [List.cons_append, List.cons_append, List.nil_append, readText?, back]
    · cases hr : readText? n rest <;> simp
    · exact other
  · next plain =>
    split
    · exact unit (readUnit?_single (by omega) rest)
    · next printed =>
      split
      · obtain ⟨-, small⟩ := toNat_bounds c
        unfold units16
        dsimp only
        split
        · next single =>
          rw [List.flatMap_singleton, unitEscape]
          exact unit (readUnit?_single single rest)
        · next pair =>
          -- both escapes are read at once
          rw [List.flatMap_cons, List.flatMap_singleton, unitEscape, unitEscape]
          simp only [List.cons_append, List.append_assoc]
          exact unit (readUnit?_pair (by omega) (by omega) (pairChar?_units (Nat.le_of_not_lt pair)) rest)
      · have quote : c ≠ '"' := by
          rintro rfl
          cases plain
        have slash : c ≠ '\\' := by
          rintro rfl
          cases plain
        rw [List.singleton_append, readText?, if_neg printed]
        · cases readText? n rest <;> rfl
        all_goals simp [quote, slash]

/-- A quoted text reads back as itself. -/
theorem readText?_quoted {cs : List Char} {fuel : Nat} (hf : cs.length < fuel) :
    readText? fuel (cs.flatMap (quoteChar ascii) ++ '"' :: rest) = some (cs, rest) := by
  induction cs generalizing fuel with
  | nil =>
    obtain ⟨n, rfl⟩ := Nat.exists_eq_add_one_of_ne_zero (Nat.ne_of_gt hf)
    rfl
  | cons c cs ih =>
    obtain ⟨n, rfl⟩ := Nat.exists_eq_add_one_of_ne_zero (Nat.ne_of_gt (Nat.zero_lt_of_lt hf))
    rw [List.flatMap_cons, List.append_assoc, readText?_quoteChar, ih (Nat.lt_of_succ_lt_succ hf)]
    rfl

theorem length_le_quoted (ascii : Bool) (cs : List Char) : cs.length ≤ (cs.flatMap (quoteChar ascii)).length := by
  induction cs with
  | nil => exact Nat.zero_le _
  | cons c cs ih =>
    have some : 0 < (quoteChar ascii c).length := by
      unfold quoteChar
      split
      · exact Nat.two_pos
      · split
        · exact Nat.succ_pos _
        · split
          · unfold units16
            dsimp only
            split <;> exact Nat.succ_pos _
          · exact Nat.one_pos
    rw [List.flatMap_cons, List.length_append, List.length_cons]
    omega

end ResourceCompiler.Json
