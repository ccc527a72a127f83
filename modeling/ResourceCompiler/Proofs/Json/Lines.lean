import Mathlib.Tactic.SplitIfs
import ResourceCompiler.Json.Printer
import ResourceCompiler.Proofs.Success
import ResourceCompiler.Proofs.Value

/-!
# Line ends of JSON texts

A text escapes its controls, and a layout breaks lines by single newlines. So no written text has a
carriage return, and nothing of it is taken for another line end.
-/

namespace ResourceCompiler.Json

open Text

variable {layout : Layout} {level : Nat}

theorem not_mem_toDigits (n : Nat) : '\r' ∉ Nat.toDigits 10 n := fun hc =>
  absurd (Nat.isDigit_of_mem_toDigits (by decide) (by decide) hc) (by decide)

theorem not_mem_layOut {ds : List Char} {point : Int} (h : '\r' ∉ ds) : '\r' ∉ Binary64.layOut ds point := by
  have take (n : Nat) : '\r' ∉ ds.take n := fun hc => h (List.mem_of_mem_take hc)
  have drop (n : Nat) : '\r' ∉ ds.drop n := fun hc => h (List.mem_of_mem_drop hc)
  have tail : '\r' ∉ ds.tail := fun hc => h (List.mem_of_mem_tail hc)
  unfold Binary64.layOut
  split
  · split
    · simp [h]
    · dsimp only
      split <;> simp [take, drop]
  · dsimp only
    split <;> split <;> simp [take, tail, not_mem_toDigits]

theorem not_mem_floatChars (x : Binary64) : '\r' ∉ floatChars x := by
  cases x with
  | nan => decide
  | infinite negative => cases negative <;> decide
  | finite negative m p fits =>
    have digits (n : Nat) : '\r' ∉ Binary64.trimZeros (Nat.toDigits 10 n) := fun hc =>
      not_mem_toDigits n (List.mem_reverse.1 ((List.dropWhile_sublist _).subset (List.mem_reverse.1 hc)))
    have body : '\r' ∉ (if m = 0 then ['0', '.', '0'] else
        Binary64.layOut (Binary64.trimZeros (Nat.toDigits 10 (Binary64.shortest m p).digits))
          ((Nat.toDigits 10 (Binary64.shortest m p).digits).length + (Binary64.shortest m p).exponent)) := by
      split
      · decide
      · exact not_mem_layOut (digits _)
    unfold floatChars Binary64.chars
    dsimp only
    split
    · intro hc
      exact body ((List.mem_cons.1 hc).resolve_left (by decide))
    · exact body

theorem not_mem_hexDigits (count n : Nat) : '\r' ∉ hexDigits count n := by
  have digit : ∀ k < 16, '\r' ≠ Nat.digitChar k := by decide
  intro hc
  obtain ⟨i, -, hi⟩ := List.mem_map.1 hc
  exact digit _ (Nat.mod_lt _ (by decide)) hi.symm

theorem not_mem_quoteChar (ascii : Bool) (c : Char) : '\r' ∉ quoteChar ascii c := by
  have unit (n : Nat) : '\r' ∉ unitEscape n := by simp [unitEscape, not_mem_hexDigits]
  unfold quoteChar
  split
  · next e he =>
    unfold shortEscape? at he
    split_ifs at he <;> cases he <;> decide
  · next plain =>
    split
    · exact unit _
    · next printed =>
      split
      · simp [unit]
      · intro hc
        cases List.mem_singleton.1 hc
        exact printed (by decide)

theorem not_mem_scalarChars {s : Scalar} {cs : List Char} (h : scalarChars layout s = .ok cs) : '\r' ∉ cs := by
  cases s with
  | null =>
    cases h
    decide
  | bool b =>
    cases h
    cases b <;> decide
  | int n =>
    rw [scalarChars] at h
    split at h
    · cases h
      unfold intChars
      split <;> simp [not_mem_toDigits]
    · cases h
  | float x =>
    cases h
    exact not_mem_floatChars x
  | str s =>
    cases h
    simp [quoteChars, not_mem_quoteChar]
  | date d => cases h

theorem not_mem_opening : '\r' ∉ layout.opening level := by
  unfold Layout.opening
  split <;> simp

theorem not_mem_separator : '\r' ∉ layout.separator level := by
  unfold Layout.separator
  split
  · decide
  · simp [not_mem_opening]

theorem not_mem_closing : '\r' ∉ layout.closing level := by
  unfold Layout.closing
  split <;> simp

theorem not_mem_keyChars {key : Scalar} {cs : List Char} (h : keyChars layout key = .ok cs) : '\r' ∉ cs := by
  have quoted (name : List Char) : '\r' ∉ quoteChars layout.ascii name := by
    simp [quoteChars, not_mem_quoteChar]
  unfold keyChars at h
  split at h
  · cases h
    exact quoted _
  · simp only [bind_eq_ok, pure_eq_ok] at h
    obtain ⟨_, -, rfl⟩ := h
    exact quoted _

theorem not_mem_writeElements {xs : List Value} {body : List Char}
    (ih : ∀ x ∈ xs, ∀ {level cs}, writeChars layout level x = .ok cs → '\r' ∉ cs)
    (h : writeElements layout level xs = .ok body) : '\r' ∉ body := by
  induction xs generalizing body with
  | nil =>
    cases h
    decide
  | cons x xs ihs =>
    rw [List.forall_mem_cons] at ih
    simp only [writeElements, bind_eq_ok, pure_eq_ok] at h
    obtain ⟨first, hx, others, hxs, rfl⟩ := h
    have last := ihs ih.2 hxs
    split <;> simp [ih.1 hx, last, not_mem_separator]

theorem not_mem_writeEntries {es : Entries} {body : List Char}
    (ih : ∀ e ∈ es, ∀ {level cs}, writeChars layout level e.2 = .ok cs → '\r' ∉ cs)
    (h : writeEntries layout level es = .ok body) : '\r' ∉ body := by
  induction es generalizing body with
  | nil =>
    cases h
    decide
  | cons e es ihs =>
    obtain ⟨key, v⟩ := e
    rw [List.forall_mem_cons] at ih
    simp only [writeEntries, bind_eq_ok, pure_eq_ok] at h
    obtain ⟨name, hk, first, hv, others, hes, rfl⟩ := h
    have last := ihs ih.2 hes
    split <;> simp [ih.1 hv, last, not_mem_keyChars hk, not_mem_separator]

/-- Written text ends its lines with single newlines. -/
theorem not_mem_writeChars {v : Value} {cs : List Char} (h : writeChars layout level v = .ok cs) : '\r' ∉ cs := by
  induction v generalizing level cs with
  | scalar s => exact not_mem_scalarChars h
  | list xs ih =>
    cases xs with
    | nil =>
      cases h
      decide
    | cons x xs =>
      simp only [writeChars, bind_eq_ok, pure_eq_ok] at h
      obtain ⟨body, hb, rfl⟩ := h
      simp [not_mem_writeElements ih hb, not_mem_opening, not_mem_closing]
  | map es ih =>
    cases es with
    | nil =>
      cases h
      decide
    | cons e es =>
      simp only [writeChars, bind_eq_ok, pure_eq_ok] at h
      obtain ⟨body, hb, rfl⟩ := h
      simp [not_mem_writeEntries ih hb, not_mem_opening, not_mem_closing]

end ResourceCompiler.Json
