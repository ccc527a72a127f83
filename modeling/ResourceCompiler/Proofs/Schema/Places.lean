import ResourceCompiler.Schema.Reader

/-!
# Places in a schema tree

A fragment is found from the root step by step: into a property, the items of an array, the values of a map or the
schema of additional properties (`Node.Leads`). The text of a place grows with each step (`Step.eq_nil_of_text`), so
it tells how far down it lies.
-/

namespace ResourceCompiler

/-- The schema of additional properties, where they have one. -/
def Additional.schema? {α : Type} : Additional α → Option α
  | .typed schema => some schema
  | _ => none

namespace Node

/-- A step from a fragment to a part of it. -/
inductive Step where
  | property (name : Scalar)
  | items
  | values
  | additional

/-- What the step adds to the text of a place. -/
def Step.text : Step → String
  | .property name => "." ++ name.text
  | .items => "[]"
  | .values => "\x7b\x7d"
  | .additional => ".\x7b\x7d"

theorem Step.text_ne (s : Step) : s.text ≠ "" := by
  cases s with
  | property name => exact fun h => absurd (String.append_eq_empty_iff.1 h).1 (by decide)
  | items | values | additional => decide

/-- Steps that add nothing to a place are no steps. -/
theorem Step.eq_nil_of_text {place : String} {steps : List Step}
    (h : steps.foldl (fun text step => text ++ step.text) place = place) : steps = [] := by
  have longer (steps : List Step) (text : String) :
      text.length + steps.length ≤ (steps.foldl (fun text step => text ++ step.text) text).length := by
    induction steps generalizing text with
    | nil => exact Nat.le_refl _
    | cons step steps ih =>
      have added : step.text.length ≠ 0 := fun h => step.text_ne (String.length_eq_zero_iff.1 h)
      have rest := ih (text ++ step.text)
      rw [String.length_append] at rest
      rw [List.foldl_cons, List.length_cons]
      omega
  have length := longer steps place
  rw [h] at length
  exact List.eq_nil_of_length_eq_zero (by omega)

/-- The part that a step leads to. -/
inductive HasPart : Node → Step → Node → Prop
  | property {n m : Node} {name : Scalar} (h : (name, m) ∈ n.properties) : HasPart n (.property name) m
  | items (traits : Traits) (m : Node) : HasPart (.array traits m) .items m
  | values (traits : Traits) (m : Node) : HasPart (.map traits m) .values m
  | additional {n m : Node} (h : n.additional = .typed m) : HasPart n .additional m

/-- The fragment that steps lead to. -/
inductive Leads : Node → List Step → Node → Prop
  | here (n : Node) : Leads n [] n
  | step {n m target : Node} {s : Step} {steps : List Step} (part : n.HasPart s m)
      (rest : Leads m steps target) : Leads n (s :: steps) target

end Node

end ResourceCompiler
