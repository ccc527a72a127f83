import ResourceCompiler.Proofs.Value

/-!
# Equality of keys

Two scalars are one key when they have the same `point`: numbers their exact value, other scalars
themselves. What is not a number has none and is no key of anything.
-/

namespace ResourceCompiler

/-- What a key is compared by. -/
inductive Point where
  | null
  | number (scaled : Int)
  | infinite (negative : Bool)
  | text (s : String)
  | date (d : Date)

namespace Binary64

def point? : Binary64 → Option Point
  | .nan => none
  | .infinite negative => some (.infinite negative)
  | x => x.scaled?.map .number

theorem equals_iff {x y : Binary64} : x.equals y = true ↔ ∃ p, x.point? = some p ∧ y.point? = some p := by
  cases x <;> cases y <;> simp [equals, point?, scaled?, eq_comm]

theorem equalsInt_iff {x : Binary64} {n : Int} :
    x.equalsInt n = true ↔ x.point? = some (.number (n * scale)) := by
  cases x <;> simp [equalsInt, point?, scaled?]

theorem point?_ne_null (x : Binary64) : x.point? ≠ some .null := by
  cases x <;> simp [point?, scaled?]

theorem point?_ne_text (x : Binary64) (s : String) : x.point? ≠ some (.text s) := by
  cases x <;> simp [point?, scaled?]

theorem point?_ne_date (x : Binary64) (d : Date) : x.point? ≠ some (.date d) := by
  cases x <;> simp [point?, scaled?]

theorem scale_pos : 0 < scale := by
  have shifted (n : Nat) : 0 < 1 <<< n := by
    rw [Nat.shiftLeft_eq, Nat.one_mul]
    exact Nat.two_pow_pos n
  exact shifted 1074

end Binary64

namespace Scalar

def point? : Scalar → Option Point
  | .null => some .null
  | .float x => x.point?
  | .str s => some (.text s)
  | .date d => some (.date d)
  | s => s.int?.map fun n => .number (n * Binary64.scale)

theorem same_iff {s t : Scalar} : s.same t = true ↔ ∃ p, s.point? = some p ∧ t.point? = some p := by
  have number {m n : Int} : Point.number (m * Binary64.scale) = .number (n * Binary64.scale) ↔ n = m := by
    have positive := Binary64.scale_pos
    rw [Point.number.injEq, Int.mul_eq_mul_right_iff (by omega)]
    exact eq_comm
  have text {s t : String} : Point.text s = .text t ↔ t = s := by
    rw [Point.text.injEq]
    exact eq_comm
  have date {d e : Date} : Point.date d = .date e ↔ e = d := by
    rw [Point.date.injEq]
    exact eq_comm
  cases s <;> cases t <;>
    simp only [same, point?, int?, Binary64.equals_iff, Binary64.equalsInt_iff, Binary64.point?_ne_null,
      Binary64.point?_ne_text, Binary64.point?_ne_date, Option.any_some, Option.any_none,
      Option.map_some, Option.some.injEq, number, text, date, exists_eq_left', exists_eq_right',
      reduceCtorEq, decide_eq_true_eq]

theorem same_symm {s t : Scalar} (h : s.same t = true) : t.same s = true := by
  obtain ⟨p, hs, ht⟩ := same_iff.1 h
  exact same_iff.2 ⟨p, ht, hs⟩

theorem same_comm (s t : Scalar) : s.same t = t.same s :=
  Bool.eq_iff_iff.2 ⟨same_symm, same_symm⟩

/-- Only what is not a number differs from itself. -/
theorem eq_nan_of_same_self {s : Scalar} (h : s.same s = false) : s = .float .nan := by
  cases hp : s.point? with
  | some p =>
    rw [same_iff.2 ⟨p, hp, hp⟩] at h
    cases h
  | none =>
    cases s with
    | float x => cases x <;> first | rfl | cases hp
    | _ => cases hp

theorem same_trans {s t u : Scalar} (h : s.same t = true) (h' : t.same u = true) : s.same u = true := by
  obtain ⟨p, hs, ht⟩ := same_iff.1 h
  obtain ⟨q, ht', hu⟩ := same_iff.1 h'
  rw [ht] at ht'
  cases ht'
  exact same_iff.2 ⟨p, hs, hu⟩

/-- What is the same as one of two keys that are the same is the same as the other. -/
theorem same_congr {s t : Scalar} (h : s.same t = true) (u : Scalar) : s.same u = t.same u :=
  Bool.eq_iff_iff.2 ⟨same_trans (same_symm h), same_trans h⟩

end Scalar

end ResourceCompiler
