import ResourceCompiler.Proofs.Success
import ResourceCompiler.Value

/-!
# Mappings without repeated keys

A mapping read from a document has each key once. `Value.keysDistinct` says so for all mappings inside a
value; parts of such a value are such values.
-/

namespace ResourceCompiler

theorem Scalar.same_str {s : Scalar} {name : String} (h : s.same (.str name) = true) : s = .str name := by
  cases s with
  | str s => simpa [same] using h
  | _ => simp [same, int?] at h

namespace Value

@[induction_eliminator]
theorem induction {motive : Value → Prop} (scalar : ∀ s, motive (.scalar s))
    (list : ∀ xs, (∀ x ∈ xs, motive x) → motive (.list xs))
    (map : ∀ es, (∀ e ∈ es, motive e.2) → motive (.map es)) (v : Value) : motive v := by
  refine @Value.rec motive (fun xs => ∀ x ∈ xs, motive x) (fun es => ∀ e ∈ es, motive e.2)
    (fun e => motive e.2) scalar list map ?_ ?_ ?_ ?_ ?_ v
  · intro x hx
    cases hx
  · intro x xs hx hxs y hy
    rcases List.mem_cons.1 hy with rfl | hy
    · exact hx
    · exact hxs y hy
  · intro e he
    cases he
  · intro e es he hes f hf
    rcases List.mem_cons.1 hf with rfl | hf
    · exact he
    · exact hes f hf
  · intro key v h
    exact h

mutual

/-- Whether no mapping inside the value has one key twice. -/
def keysDistinct : Value → Bool
  | .scalar _ => true
  | .list xs => keysDistinctAll xs
  | .map es => decide (es.Pairwise fun e f => e.1.same f.1 = false) && keysDistinctEntries es
termination_by structural v => v

def keysDistinctAll : List Value → Bool
  | [] => true
  | x :: xs => x.keysDistinct && keysDistinctAll xs
termination_by structural xs => xs

def keysDistinctEntries : List (Scalar × Value) → Bool
  | [] => true
  | (_, v) :: rest => v.keysDistinct && keysDistinctEntries rest
termination_by structural es => es

end

theorem keysDistinct_list {xs : List Value} :
    (list xs).keysDistinct ↔ ∀ x ∈ xs, x.keysDistinct := by
  rw [keysDistinct]
  induction xs with
  | nil => simp [keysDistinctAll]
  | cons x xs ih => rw [keysDistinctAll, Bool.and_eq_true, ih, List.forall_mem_cons]

theorem keysDistinct_map {es : List (Scalar × Value)} :
    (map es).keysDistinct ↔
      (es.Pairwise fun e f => e.1.same f.1 = false) ∧ ∀ e ∈ es, e.2.keysDistinct := by
  have entries : keysDistinctEntries es ↔ ∀ e ∈ es, e.2.keysDistinct := by
    induction es with
    | nil => simp [keysDistinctEntries]
    | cons e es ih => rw [keysDistinctEntries, Bool.and_eq_true, ih, List.forall_mem_cons]
  rw [keysDistinct, Bool.and_eq_true, decide_eq_true_eq, entries]

mutual

/-- Whether every scalar that is no key passes one test and the keys of every mapping another. -/
def every (leaf : Scalar → Bool) (keys : List Scalar → Bool) : Value → Bool
  | .scalar s => leaf s
  | .list xs => everyElement leaf keys xs
  | .map es => keys (es.map Prod.fst) && everyEntry leaf keys es
termination_by structural v => v

def everyElement (leaf : Scalar → Bool) (keys : List Scalar → Bool) : List Value → Bool
  | [] => true
  | x :: xs => x.every leaf keys && everyElement leaf keys xs
termination_by structural xs => xs

def everyEntry (leaf : Scalar → Bool) (keys : List Scalar → Bool) : List (Scalar × Value) → Bool
  | [] => true
  | (_, v) :: rest => v.every leaf keys && everyEntry leaf keys rest
termination_by structural es => es

end

variable {leaf : Scalar → Bool} {keys : List Scalar → Bool}

theorem every_scalar {s : Scalar} : (scalar s).every leaf keys = leaf s := rfl

theorem every_list {xs : List Value} : (list xs).every leaf keys = true ↔ ∀ x ∈ xs, x.every leaf keys = true := by
  rw [every]
  induction xs with
  | nil => simp [everyElement]
  | cons x xs ih => rw [everyElement, Bool.and_eq_true, ih, List.forall_mem_cons]

theorem every_map {es : List (Scalar × Value)} : (map es).every leaf keys = true ↔
    keys (es.map Prod.fst) = true ∧ ∀ e ∈ es, e.2.every leaf keys = true := by
  have entries : everyEntry leaf keys es = true ↔ ∀ e ∈ es, e.2.every leaf keys = true := by
    induction es with
    | nil => simp [everyEntry]
    | cons e es ih => rw [everyEntry, Bool.and_eq_true, ih, List.forall_mem_cons]
  rw [every, Bool.and_eq_true, entries]

end Value

namespace Entries

variable {es : Entries}

theorem mem_of_find? {key : Scalar} {v : Value} (h : es.find? key = some v) :
    ∃ e ∈ es, e.2 = v := by
  induction es with
  | nil => cases h
  | cons e es ih =>
    rw [find?] at h
    split at h
    · cases h
      exact ⟨e, List.mem_cons_self, rfl⟩
    · obtain ⟨f, hf, rfl⟩ := ih h
      exact ⟨f, List.mem_cons_of_mem _ hf, rfl⟩

/-- All values of entries are without repeated keys. -/
def Distinct (es : Entries) : Prop := ∀ e ∈ es, e.2.keysDistinct

theorem Distinct.get (h : es.Distinct) (name : String) : (es.get name).keysDistinct := by
  unfold Entries.get
  cases hf : es.find? (.str name) with
  | none => rfl
  | some v =>
    obtain ⟨e, he, rfl⟩ := mem_of_find? hf
    exact h e he

end Entries

namespace Value

variable {v w : Value}

theorem entries_distinct {es : Entries} (hv : v.keysDistinct) (h : v.entries = .ok es) : es.Distinct := by
  cases v with
  | map es' =>
    cases h
    exact (keysDistinct_map.1 hv).2
  | _ => cases h

theorem entriesOrNone_distinct {es : Entries} (hv : v.keysDistinct) (h : v.entriesOrNone = .ok es) :
    es.Distinct := by
  unfold entriesOrNone at h
  split at h
  · exact entries_distinct hv h
  · cases h
    intro e he
    cases he

theorem keysDistinct_or (hv : v.keysDistinct) (hw : w.keysDistinct) : (v.or w).keysDistinct := by
  unfold Value.or
  split
  · exact hv
  · exact hw

/-- The elements of a list are parts of it, those of texts and mappings are scalars. -/
theorem keysDistinct_of_mem_elements {xs : List Value} (hv : v.keysDistinct) (h : v.elements = .ok xs) :
    ∀ x ∈ xs, x.keysDistinct := by
  intro x hx
  unfold elements at h
  split at h
  · cases h
    exact keysDistinct_list.1 hv x hx
  · cases h
    obtain ⟨e, -, rfl⟩ := List.mem_map.1 hx
    rfl
  · cases h
    obtain ⟨c, -, rfl⟩ := List.mem_map.1 hx
    rfl
  · cases h

end Value

end ResourceCompiler
