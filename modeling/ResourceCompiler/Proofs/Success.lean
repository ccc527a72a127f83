import Mathlib.Data.List.Forall2
import ResourceCompiler.Error

/-!
# Successful runs

When a run of steps succeeds: each step does, on what the steps before it gave. A run over a list pairs
each element with its result.
-/

namespace ResourceCompiler

variable {ε α β : Type}

theorem bind_eq_ok {x : Except ε α} {f : α → Except ε β} {b : β} :
    (x >>= f) = .ok b ↔ ∃ a, x = .ok a ∧ f a = .ok b := by
  cases x <;> simp [bind, Except.bind]

theorem pure_eq_ok {a b : α} : (pure a : Except ε α) = .ok b ↔ a = b := by
  simp [pure, Except.pure]

theorem map_eq_ok {x : Except ε α} {f : α → β} {b : β} : x.map f = .ok b ↔ ∃ a, x = .ok a ∧ f a = b := by
  cases x <;> simp [Except.map]

theorem ite_eq_ok {p : Prop} [Decidable p] {a b : α} {e : ε} :
    (if p then .ok a else .error e : Except ε α) = .ok b ↔ p ∧ b = a := by
  split
  · next holds => simp [holds, eq_comm]
  · next fails => simp [fails]

theorem mapError_eq_ok {δ : Type} {x : Except ε α} {f : ε → δ} {a : α} : x.mapError f = .ok a ↔ x = .ok a := by
  cases x <;> simp [Except.mapError]

theorem toOption_eq_some {x : Except ε α} {a : α} : x.toOption = some a ↔ x = .ok a := by
  cases x <;> simp [Except.toOption]

/-- A fault that is lifted to a failure leaves successes alone. -/
theorem liftM_eq_ok {x : Except Fault α} {a : α} :
    (liftM x : Except Failure α) = .ok a ↔ x = .ok a := by
  cases x <;> simp [liftM, monadLift, MonadLift.monadLift, Except.mapError]

@[simp]
theorem failShape_notEmittable {kind : String} {path : Value} :
    (failShape (.notEmittable kind) path : Except Failure α) =
      .error (.generator (.shape (.notEmittable kind) path)) := rfl

@[simp]
theorem failShape_ne_ok {cause : ShapeError} {path : Value} {a : α} : failShape cause path ≠ .ok a := by
  unfold failShape
  split <;> nofun

theorem failShape_map {cause : ShapeError} {path : Value} {f : α → β} :
    (failShape cause path).map f = failShape cause path := by
  unfold failShape
  split <;> rfl

/-- A function that succeeds on a whole list succeeds on each element. -/
theorem mapM_eq_ok {f : α → Except ε β} {xs : List α} {ys : List β} (h : xs.mapM f = .ok ys) :
    List.Forall₂ (fun x y => f x = .ok y) xs ys := by
  induction xs generalizing ys with
  | nil =>
    cases h
    exact .nil
  | cons x xs ih =>
    rw [List.mapM_cons] at h
    simp only [bind_eq_ok, pure_eq_ok] at h
    obtain ⟨y, hy, ys', hys, rfl⟩ := h
    exact .cons hy (ih hys)

theorem exists_forall₂ {R : α → β → Prop} {xs : List α} (h : ∀ x ∈ xs, ∃ y, R x y) :
    ∃ ys, List.Forall₂ R xs ys := by
  induction xs with
  | nil => exact ⟨[], .nil⟩
  | cons x xs ih =>
    rw [List.forall_mem_cons] at h
    obtain ⟨⟨y, hy⟩, hs⟩ := h
    obtain ⟨ys, hys⟩ := ih hs
    exact ⟨y :: ys, .cons hy hys⟩

theorem map_eq_of_forall₂ {γ : Type} {R : α → β → Prop} {f : α → γ} {g : β → γ} {xs : List α} {ys : List β}
    (h : List.Forall₂ R xs ys) (same : ∀ x y, R x y → g y = f x) : ys.map g = xs.map f := by
  induction h with
  | nil => rfl
  | cons hr _ ih => rw [List.map_cons, List.map_cons, same _ _ hr, ih]

/-- Where each result tells what it was made of, all results do. -/
theorem map_eq_of_mapM_eq_ok {f : α → Except ε β} {g : β → α} {xs : List α} {ys : List β}
    (h : xs.mapM f = .ok ys) (back : ∀ x y, f x = .ok y → g y = x) : ys.map g = xs :=
  (map_eq_of_forall₂ (mapM_eq_ok h) back).trans xs.map_id

theorem mapM_congr {f g : α → Except ε β} {xs : List α} (h : ∀ x ∈ xs, f x = g x) : xs.mapM f = xs.mapM g := by
  induction xs with
  | nil => rfl
  | cons x xs ih =>
    rw [List.forall_mem_cons] at h
    rw [List.mapM_cons, List.mapM_cons, h.1, ih h.2]

/-- A function that succeeds wherever another one does succeeds on a whole list as well. -/
theorem exists_mapM_ok {R : β → β → Prop} {f g : α → Except ε β} {xs : List α} {ys : List β}
    (h : xs.mapM f = .ok ys) (step : ∀ y ∈ ys, ∀ x, f x = .ok y → ∃ y', g x = .ok y' ∧ R y y') :
    ∃ ys', xs.mapM g = .ok ys' ∧ List.Forall₂ R ys ys' := by
  have made := mapM_eq_ok h
  clear h
  induction made with
  | nil => exact ⟨[], rfl, .nil⟩
  | cons hy _ ih =>
    rw [List.forall_mem_cons] at step
    obtain ⟨y', hy', first⟩ := step.1 _ hy
    obtain ⟨ys', hys', rest⟩ := ih step.2
    refine ⟨y' :: ys', ?_, .cons first rest⟩
    rw [List.mapM_cons, hy', hys']
    rfl

/-- A function fails on a list where it fails first. -/
theorem mapM_eq_error {f : α → Except ε β} {before after : List α} {x : α} {e : ε}
    (h : ∀ w ∈ before, ∃ y, f w = .ok y) (hx : f x = .error e) :
    (before ++ x :: after).mapM f = .error e := by
  induction before with
  | nil => rw [List.nil_append, List.mapM_cons, hx]; rfl
  | cons w before ih =>
    rw [List.forall_mem_cons] at h
    obtain ⟨⟨y, hy⟩, hb⟩ := h
    rw [List.cons_append, List.mapM_cons, hy, ih hb]
    rfl

/-- A search along which every test succeeds is the search with the answers. -/
theorem findM?_eq_ok {f : α → Except ε Bool} {p : α → Bool} {xs : List α} (h : ∀ x ∈ xs, f x = .ok (p x)) :
    xs.findM? f = .ok (xs.find? p) := by
  induction xs with
  | nil => rfl
  | cons x xs ih =>
    rw [List.forall_mem_cons] at h
    rw [List.findM?, h.1, List.find?_cons]
    cases p x with
    | true => rfl
    | false => exact ih h.2

theorem mapM_singleton (f : α → Except ε β) (x : α) : [x].mapM f = (do return [← f x]) := by
  rw [List.mapM_cons]
  rfl

theorem mapM_singleton_eq_error {f : α → Except ε β} {x : α} {e : ε} :
    [x].mapM f = .error e ↔ f x = .error e := by
  rw [mapM_singleton]
  cases f x <;> simp [bind, Except.bind, pure, Except.pure]

theorem forM_eq_ok {f : α → Except ε Unit} {xs : List α} :
    xs.forM f = .ok () ↔ ∀ x ∈ xs, f x = .ok () := by
  induction xs with
  | nil => simp [List.forM, pure_eq_ok]
  | cons x xs ih =>
    rw [List.forM, bind_eq_ok, ih, List.forall_mem_cons]
    exact ⟨fun ⟨_, hx, h⟩ => ⟨hx, h⟩, fun ⟨hx, h⟩ => ⟨(), hx, h⟩⟩

/-- A run over a list fails with the failure of the first element that has one. -/
theorem forM_eq_error {f : α → Except ε Unit} {xs : List α} {e : ε} :
    xs.forM f = .error e ↔
      ∃ before x after, xs = before ++ x :: after ∧ (∀ w ∈ before, f w = .ok ()) ∧ f x = .error e := by
  induction xs with
  | nil => simp [List.forM, pure, Except.pure]
  | cons x xs ih =>
    rw [List.forM]
    cases hx : f x with
    | error e' =>
      constructor
      · intro h
        cases h
        exact ⟨[], x, xs, rfl, by simp, hx⟩
      · rintro ⟨before, y, after, hs, hb, hy⟩
        cases before with
        | nil =>
          cases hs
          exact hx.symm.trans hy
        | cons w before =>
          cases hs
          rw [hb _ List.mem_cons_self] at hx
          cases hx
    | ok =>
      refine Iff.trans (b := xs.forM f = .error e) Iff.rfl (ih.trans ?_)
      constructor
      · rintro ⟨before, y, after, rfl, hb, hy⟩
        exact ⟨x :: before, y, after, rfl, List.forall_mem_cons.2 ⟨hx, hb⟩, hy⟩
      · rintro ⟨before, y, after, hs, hb, hy⟩
        cases before with
        | nil =>
          cases hs
          rw [hx] at hy
          cases hy
        | cons w before =>
          cases hs
          exact ⟨before, y, after, rfl, (List.forall_mem_cons.1 hb).2, hy⟩

theorem exists_of_mem_left {R : α → β → Prop} {xs : List α} {ys : List β} (h : List.Forall₂ R xs ys)
    {x : α} (hx : x ∈ xs) : ∃ y ∈ ys, R x y := by
  induction h with
  | nil => cases hx
  | @cons x' y _ _ hr _ ih =>
    rcases List.mem_cons.1 hx with rfl | hx
    · exact ⟨y, List.mem_cons_self, hr⟩
    · obtain ⟨y', hy', h⟩ := ih hx
      exact ⟨y', List.mem_cons_of_mem _ hy', h⟩

theorem exists_of_mem_right {R : α → β → Prop} {xs : List α} {ys : List β} (h : List.Forall₂ R xs ys)
    {y : β} (hy : y ∈ ys) : ∃ x ∈ xs, R x y :=
  exists_of_mem_left h.flip hy

end ResourceCompiler
