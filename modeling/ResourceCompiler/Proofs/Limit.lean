import ResourceCompiler.Limit

/-!
# The order of nesting limits

A limit is at most another one when it stops wherever the other one does; limits of whole levels are ordered
as their numbers. What lies deeper is stopped as well, and a limit of infinitely many levels stops nothing.
-/

namespace ResourceCompiler.Limit

instance : LE Limit where
  le l m := ∀ depth : Int, m.exceededBy depth = true → l.exceededBy depth = true

theorem levels_exceededBy {n depth : Int} : (levels n).exceededBy depth = true ↔ n < depth :=
  decide_eq_true_iff

theorem levels_le_levels {m n : Int} : levels m ≤ levels n ↔ m ≤ n := by
  refine ⟨fun h => ?_, fun h depth hd => ?_⟩
  · have := levels_exceededBy.1 (h (n + 1) (levels_exceededBy.2 (by omega)))
    omega
  · have := levels_exceededBy.1 hd
    exact levels_exceededBy.2 (by omega)

theorem not_exceededBy_of_le {l m : Limit} (h : l ≤ m) {depth : Int} (hd : l.exceededBy depth = false) :
    m.exceededBy depth = false :=
  Bool.eq_false_iff.2 fun hm => Bool.eq_false_iff.1 hd (h depth hm)

theorem exceededBy_mono {limit : Limit} {d d' : Int} (h : d ≤ d') (hd : limit.exceededBy d = true) :
    limit.exceededBy d' = true := by
  cases limit with
  | levels n => exact levels_exceededBy.2 (Int.lt_of_lt_of_le (levels_exceededBy.1 hd) h)
  | flag b =>
    simp only [exceededBy, decide_eq_true_eq] at hd ⊢
    omega
  | fraction x =>
    cases x with
    | nan => cases hd
    | infinite negative => exact hd
    | finite negative mantissa shift fits =>
      simp only [exceededBy, Option.any_eq_true, decide_eq_true_eq] at hd ⊢
      obtain ⟨n, hn, hd⟩ := hd
      exact ⟨n, hn, Int.lt_of_lt_of_le hd (Int.mul_le_mul_of_nonneg_right h (Int.natCast_nonneg _))⟩

theorem levels_le_iff {n : Int} {m : Limit} : levels n ≤ m ↔ m.exceededBy n = false := by
  constructor
  · intro h
    rw [← Bool.not_eq_true]
    intro hm
    exact absurd (levels_exceededBy.1 (h n hm)) (Int.lt_irrefl n)
  · intro h depth hm
    refine levels_exceededBy.2 (Int.not_le.1 fun hd => ?_)
    rw [exceededBy_mono hd hm] at h
    cases h

/-- Infinitely many levels. -/
def unbounded : Limit := .fraction (.infinite false)

theorem le_unbounded (limit : Limit) : limit ≤ unbounded := nofun

end ResourceCompiler.Limit
