import ResourceCompiler.Proofs.Success

/-!
# Failing runs

What a run of steps can fail with: only what one of its steps can fail with. A check of a fragment fails at the
place of the fragment (`PlacedAt`); a run that does not fail at a nesting limit is `Shallow`. A run over a list fails
exactly when one of its steps does (`FailsWhen`).
-/

namespace ResourceCompiler

section

variable {ε α β : Type} {P Q : ε → Prop} {x : Except ε α}

theorem bind_eq_error {f : α → Except ε β} {e : ε} :
    (x >>= f) = .error e ↔ x = .error e ∨ ∃ a, x = .ok a ∧ f a = .error e := by
  cases x <;> simp [bind, Except.bind]

/-- A run of steps fails at one of them, after those before it have succeeded. -/
theorem foldlM_eq_error {f : β → α → Except ε β} {xs : List α} {start : β} {e : ε} :
    xs.foldlM f start = .error e ↔
      ∃ before x after reached, xs = before ++ x :: after ∧ before.foldlM f start = .ok reached ∧
        f reached x = .error e := by
  induction xs generalizing start with
  | nil => simp [pure, Except.pure]
  | cons x xs ih =>
    rw [List.foldlM_cons, bind_eq_error]
    simp only [ih]
    constructor
    · rintro (failed | ⟨next, hx, before, y, after, reached, rfl, run, failed⟩)
      · exact ⟨[], x, xs, start, rfl, rfl, failed⟩
      · exact ⟨x :: before, y, after, reached, rfl, bind_eq_ok.2 ⟨next, hx, run⟩, failed⟩
    · rintro ⟨before, y, after, reached, whole, run, failed⟩
      cases before with
      | nil =>
        cases whole
        cases run
        exact Or.inl failed
      | cons w before =>
        cases whole
        obtain ⟨next, hx, run⟩ := bind_eq_ok.1 run
        exact Or.inr ⟨next, hx, before, y, after, reached, rfl, run, failed⟩

/-- A search fails at a test, after those before it have said no. -/
theorem findM?_eq_error {f : α → Except ε Bool} {xs : List α} {e : ε} :
    xs.findM? f = .error e ↔
      ∃ before x after, xs = before ++ x :: after ∧ (∀ y ∈ before, f y = .ok false) ∧ f x = .error e := by
  induction xs with
  | nil => simp [List.findM?, pure, Except.pure]
  | cons x xs ih =>
    rw [List.findM?, bind_eq_error]
    constructor
    · rintro (failed | ⟨found, hx, failed⟩)
      · exact ⟨[], x, xs, rfl, List.forall_mem_nil _, failed⟩
      · cases found with
        | true => cases failed
        | false =>
          obtain ⟨before, y, after, rfl, passed, failed⟩ := ih.1 failed
          exact ⟨x :: before, y, after, rfl, List.forall_mem_cons.2 ⟨hx, passed⟩, failed⟩
    · rintro ⟨before, y, after, whole, passed, failed⟩
      cases before with
      | nil =>
        cases whole
        exact Or.inl failed
      | cons w before =>
        cases whole
        rw [List.forall_mem_cons] at passed
        exact Or.inr ⟨false, passed.1, ih.2 ⟨before, y, after, rfl, passed.2, failed⟩⟩

/-- Whatever the run fails with is one of these failures. -/
def OnlyFails (P : ε → Prop) (x : Except ε α) : Prop :=
  ∀ e, x = .error e → P e

namespace OnlyFails

theorem ok (a : α) : OnlyFails P (.ok a : Except ε α) := nofun

theorem error {e : ε} (h : P e) : OnlyFails P (.error e : Except ε α) := by
  rintro _ ⟨⟩
  exact h

theorem mono (h : OnlyFails P x) (hpq : ∀ e, P e → Q e) : OnlyFails Q x :=
  fun e he => hpq e (h e he)

theorem bind {f : α → Except ε β} (hx : OnlyFails P x) (hf : ∀ a, x = .ok a → OnlyFails P (f a)) :
    OnlyFails P (x >>= f) := by
  cases x with
  | ok a => exact hf a rfl
  | error e => exact .error (hx e rfl)

theorem mapM {f : α → Except ε β} (xs : List α) (h : ∀ x ∈ xs, OnlyFails P (f x)) :
    OnlyFails P (xs.mapM f) := by
  induction xs with
  | nil => exact .ok []
  | cons x xs ih =>
    rw [List.mapM_cons]
    exact .bind (h x List.mem_cons_self) fun _ _ =>
      .bind (ih fun y hy => h y (List.mem_cons_of_mem _ hy)) fun _ _ => .ok _

theorem forM {f : α → Except ε Unit} (xs : List α) (h : ∀ x ∈ xs, OnlyFails P (f x)) :
    OnlyFails P (xs.forM f) := by
  induction xs with
  | nil => exact .ok ()
  | cons x xs ih =>
    exact .bind (h x List.mem_cons_self) fun _ _ => ih fun y hy => h y (List.mem_cons_of_mem _ hy)

end OnlyFails

/-- A run that fails where something is wrong, with an error that is wrong, and succeeds everywhere else. -/
structure FailsWhen (wrong : ε → Prop) (x : Except ε α) : Prop where
  only : OnlyFails wrong x
  fails : ∀ e, wrong e → ∃ e', x = .error e'

namespace FailsWhen

variable {wrong other : ε → Prop}

theorem pure (a : α) : FailsWhen (fun _ => False) (Pure.pure a : Except ε α) := ⟨.ok a, fun _ => False.elim⟩

theorem congr (h : FailsWhen wrong x) (same : ∀ e, wrong e ↔ other e) : FailsWhen other x :=
  ⟨h.only.mono fun e => (same e).1, fun e he => h.fails e ((same e).2 he)⟩

theorem ok_iff (h : FailsWhen wrong x) : (∃ a, x = .ok a) ↔ ∀ e, ¬ wrong e := by
  constructor
  · rintro ⟨a, rfl⟩ e bad
    obtain ⟨_, ⟨⟩⟩ := h.fails e bad
  · intro right
    cases x with
    | ok a => exact ⟨a, rfl⟩
    | error e => exact absurd (h.only e rfl) (right e)

/-- What is wrong with a run that fails in one way only is its error. -/
theorem error_iff (h : FailsWhen wrong x) (one : ∀ e e', wrong e → wrong e' → e = e') {e : ε} :
    x = .error e ↔ wrong e := by
  refine ⟨h.only e, fun bad => ?_⟩
  obtain ⟨e', failed⟩ := h.fails e bad
  rw [failed, one e e' bad (h.only e' failed)]

theorem bind {f : α → Except ε β} (hx : FailsWhen wrong x) (hf : ∀ a, x = .ok a → FailsWhen other (f a)) :
    FailsWhen (fun e => wrong e ∨ other e) (x >>= f) := by
  cases x with
  | ok a =>
    refine ((hf a rfl).congr fun e => ?_)
    exact ⟨Or.inr, fun bad => bad.resolve_left (hx.ok_iff.1 ⟨a, rfl⟩ e)⟩
  | error e => exact ⟨.error (Or.inl (hx.only e rfl)), fun _ _ => ⟨e, rfl⟩⟩

/-- A run that goes on without failing. -/
theorem map {f : α → β} (hx : FailsWhen wrong x) : FailsWhen wrong (do return f (← x)) :=
  (hx.bind fun _ _ => .pure _).congr fun _ => or_iff_left id

variable {bad : α → ε → Prop} {xs : List α}

theorem mapM {f : α → Except ε β} (h : ∀ x ∈ xs, FailsWhen (bad x) (f x)) :
    FailsWhen (fun e => ∃ x ∈ xs, bad x e) (xs.mapM f) := by
  induction xs with
  | nil => exact (FailsWhen.pure []).congr (by simp)
  | cons x xs ih =>
    rw [List.forall_mem_cons] at h
    rw [List.mapM_cons]
    exact (h.1.bind fun _ _ => (ih h.2).map).congr fun e => (List.exists_mem_cons_iff (bad · e) x xs).symm

theorem filterAuxM {f : α → Except ε Bool} (h : ∀ x ∈ xs, FailsWhen (bad x) (f x)) (kept : List α) :
    FailsWhen (fun e => ∃ x ∈ xs, bad x e) (xs.filterAuxM f kept) := by
  induction xs generalizing kept with
  | nil => exact (FailsWhen.pure kept).congr (by simp)
  | cons x xs ih =>
    rw [List.forall_mem_cons] at h
    exact (h.1.bind fun b _ => ih h.2 _).congr fun e => (List.exists_mem_cons_iff (bad · e) x xs).symm

theorem filterM {f : α → Except ε Bool} (h : ∀ x ∈ xs, FailsWhen (bad x) (f x)) :
    FailsWhen (fun e => ∃ x ∈ xs, bad x e) (xs.filterM f) :=
  (filterAuxM h []).map

end FailsWhen

end

variable {α β : Type}

/-- A run that does not fail because a schema nests too deep. -/
def Shallow (x : Except Failure α) : Prop :=
  ∀ limit path, x ≠ .error (.generator (.tooDeep limit path))

theorem shallow_iff {x : Except Failure α} :
    Shallow x ↔ OnlyFails (fun e => ∀ limit path, e ≠ .generator (.tooDeep limit path)) x := by
  constructor
  · rintro h e he limit path rfl
    exact h limit path he
  · rintro h limit path he
    exact h _ he limit path rfl

/-- A fault, or an error at the place that has nothing to do with nesting. -/
inductive PlacedAt (path : String) : Failure → Prop
  | fault (f : Fault) : PlacedAt path (.fault f)
  | error {g : GeneratorError} (place : g.path = .str path) (apart : ∀ limit place, g ≠ .tooDeep limit place) :
      PlacedAt path (.generator g)

namespace PlacedAt

variable {path : String}

theorem liftM (x : Except Fault α) : OnlyFails (PlacedAt path) (liftM x : Except Failure α) := by
  cases x with
  | ok a => exact .ok a
  | error f => exact .error (.fault f)

theorem shape (cause : ShapeError) :
    OnlyFails (PlacedAt path) (failShape cause (.str path) : Except Failure α) := by
  unfold failShape
  split
  · exact .error (.error rfl nofun)
  · exact .error (.fault _)

theorem shallow {e : Failure} (h : PlacedAt path e) : ∀ limit place, e ≠ .generator (.tooDeep limit place) := by
  cases h with
  | fault => nofun
  | error _ apart =>
    rintro limit place ⟨⟩
    exact apart limit place rfl

end PlacedAt

namespace Shallow

theorem ok (a : α) : Shallow (.ok a : Except Failure α) :=
  shallow_iff.2 (.ok a)

theorem error {e : Failure} (h : ∀ limit path, e ≠ .generator (.tooDeep limit path)) :
    Shallow (.error e : Except Failure α) :=
  shallow_iff.2 (.error h)

theorem bind {x : Except Failure α} {f : α → Except Failure β} (hx : Shallow x)
    (hf : ∀ a, x = .ok a → Shallow (f a)) : Shallow (x >>= f) :=
  shallow_iff.2 (.bind (shallow_iff.1 hx) fun a ha => shallow_iff.1 (hf a ha))

theorem of_placed {path : String} {x : Except Failure α} (h : OnlyFails (PlacedAt path) x) : Shallow x :=
  shallow_iff.2 (h.mono fun _ he => he.shallow)

theorem fault (x : Except Fault α) : Shallow (liftM x : Except Failure α) :=
  .of_placed (PlacedAt.liftM x : OnlyFails (PlacedAt "") _)

theorem shape (cause : ShapeError) (path : Value) : Shallow (failShape cause path : Except Failure α) := by
  unfold failShape
  split <;> exact error nofun

end Shallow

end ResourceCompiler
