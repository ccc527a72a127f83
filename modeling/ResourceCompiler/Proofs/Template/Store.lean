import Mathlib.Data.List.Basic
import ResourceCompiler.Java.Unit

/-!
# Templates added to a collection

A collection in memory has each template under its own name: adding one changes what stands under that name,
and what other templates become that ask for it. A collection that reads a directory gives the directory up for
the first template that is added, and with it every other template (`add_frame`). Asking for templates or
rendering them changes no collection.

The results hold for every engine: a rendering depends on the collection only through what it asks for
(`Rendering.run_congr`).
-/

namespace ResourceCompiler

namespace Rendering

variable {Source : Type} {find before : String → Except RenderError Source}

/-- The names that a rendering asks for, in order. -/
def asked (find : String → Except RenderError Source) : Rendering Source → List String
  | .done _ => []
  | .load name go => name :: asked find (go (find name))

/-- What a rendering does not ask for has no effect on it. -/
theorem run_congr {rendering : Rendering Source} (h : ∀ name ∈ rendering.asked before, find name = before name) :
    rendering.run find = rendering.run before := by
  induction rendering with
  | done result => rfl
  | load name go ih =>
    rw [asked, List.forall_mem_cons] at h
    rw [run, run, h.1]
    exact ih _ h.2

end Rendering

namespace Templates

open Rendering (finish)

variable {Source : Type}

/-- What is asked of a collection. -/
inductive Step (Source : Type) where
  | add (name : String) (source : Source)
  | contains (name : String)
  | render (name : String) (context : Template.Context)

namespace Step

def isAdd : Step Source → Bool
  | .add .. => true
  | _ => false

/-- The step adds a template under the name. -/
def Adds (name : String) : Step Source → Prop
  | .add added _ => added = name
  | _ => False

/-- The collection after a step. -/
def next (store : Templates Source) : Step Source → Templates Source
  | .add name source => store.add name source
  | _ => store

end Step

/-- The collection after steps. -/
def after (store : Templates Source) (steps : List (Step Source)) : Templates Source := steps.foldl Step.next store

def isMemory : Templates Source → Bool
  | .memory _ => true
  | .directory _ => false

/-- A collection that reads no directory once the steps are done. -/
def Detached (store : Templates Source) (steps : List (Step Source)) : Prop :=
  store.isMemory = true ∨ ∃ step ∈ steps, step.isAdd = true

/-- What a source renders as in a collection, under a name. -/
def renderSource (engine : Engine Source) (store : Templates Source) (name : String) (source : Source)
    (context : Template.Context) : Except Failure String :=
  finish (.failedTemplate name) ((engine source context).run store.find)

/-- The collection has the name, and renders it as the source. -/
structure Shows (engine : Engine Source) (store : Templates Source) (name : String) (source : Source) : Prop where
  contains : store.contains name = true
  render : ∀ context, store.renderBy engine name context = renderSource engine store name source context

/-- Rendering a template of the collection asks for none that satisfies `p`. -/
def AsksNone (engine : Engine Source) (store : Templates Source) (name : String) (context : Template.Context)
    (p : String → Prop) : Prop :=
  ∀ other ∈ (Rendering.ofName engine name context).asked store.find, ¬ p other

variable {engine : Engine Source} {store before : Templates Source} {name other : String} {source : Source}
variable {steps : List (Step Source)} {step : Step Source} {context : Template.Context}
variable {sources files : List (String × Source)}

/-! ### One step -/

theorem lookup_filter_ne (h : other ≠ name) :
    (sources.filter (·.1 ≠ name)).lookup other = sources.lookup other := by
  induction sources with
  | nil => rfl
  | cons entry sources ih =>
    rw [List.filter_cons, List.lookup_cons]
    split
    · rw [List.lookup_cons, ih]
    · next here =>
      have same : entry.1 = name := by simpa using here
      rw [ih, same, beq_false_of_ne h]

theorem any_filter_ne (h : other ≠ name) :
    (sources.filter (·.1 ≠ name)).any (·.1 = other) = sources.any (·.1 = other) := by
  rw [List.any_filter]
  refine List.any_congr rfl fun entry => ?_
  by_cases here : entry.1 = other
  · simp [here, h]
  · simp [here]

theorem isMemory_add (store : Templates Source) (name : String) (source : Source) :
    (store.add name source).isMemory = true := by
  cases store <;> rfl

theorem isMemory_next : (step.next store).isMemory = (store.isMemory || step.isAdd) := by
  cases step with
  | add name source => rw [Step.next, isMemory_add, Step.isAdd, Bool.or_true]
  | _ => exact (Bool.or_false _).symm

theorem isMemory_after : (after store steps).isMemory = true ↔ Detached store steps := by
  induction steps generalizing store with
  | nil => simp [after, Detached]
  | cons step steps ih =>
    rw [after, List.foldl_cons, ← after, ih, Detached, Detached, isMemory_next, Bool.or_eq_true, or_assoc,
      List.exists_mem_cons_iff]

/-- A name is there and found as in another collection. -/
structure SameAt (name : String) (store before : Templates Source) : Prop where
  contains : store.contains name = before.contains name
  find : store.find name = before.find name

theorem SameAt.trans {first : Templates Source} (h : SameAt name store first) (h' : SameAt name first before) :
    SameAt name store before :=
  ⟨h.contains.trans h'.contains, h.find.trans h'.find⟩

/-- In memory a step leaves the names alone that it does not add. -/
theorem next_sameAt (memory : store.isMemory = true) (apart : ¬ step.Adds other) :
    SameAt other (step.next store) store := by
  cases step with
  | add name source =>
    cases store with
    | directory files => cases memory
    | memory sources =>
      have ne : other ≠ name := fun same => apart same.symm
      constructor
      · change ((name, source) :: sources.filter (·.1 ≠ name)).any (·.1 = other) = sources.any (·.1 = other)
        rw [List.any_cons, any_filter_ne ne, decide_eq_false ne.symm, Bool.false_or]
      · rw [Step.next, Templates.add, Templates.find, Templates.find, List.lookup_cons, beq_false_of_ne ne,
          lookup_filter_ne ne]
  | _ => exact ⟨rfl, rfl⟩

/-! ### Runs -/

theorem after_sameAt (memory : store.isMemory = true) (apart : ∀ step ∈ steps, ¬ step.Adds other) :
    SameAt other (after store steps) store := by
  induction steps generalizing store with
  | nil => exact ⟨rfl, rfl⟩
  | cons step steps ih =>
    rw [List.forall_mem_cons] at apart
    have stays : (step.next store).isMemory = true := by rw [isMemory_next, memory, Bool.true_or]
    exact (ih stays apart.2).trans (next_sameAt memory apart.1)

/-! ### What is rendered -/

theorem shows_of_find (there : store.contains name = true) (found : store.find name = .ok source) :
    Shows engine store name source := by
  refine ⟨there, fun context => ?_⟩
  rw [renderBy, Rendering.ofName, Rendering.run, found]
  rfl

theorem renderBy_of_error {e : RenderError} (found : store.find name = .error e) :
    store.renderBy engine name context = .error (.generator (.template (.failedTemplate name e) .null)) := by
  rw [renderBy, Rendering.ofName, Rendering.run, found]
  rfl

theorem renderBy_congr {p : String → Prop} (apart : AsksNone engine before name context p)
    (same : ∀ other, ¬ p other → SameAt other store before) :
    store.renderBy engine name context = before.renderBy engine name context := by
  rw [renderBy, renderBy, Rendering.run_congr fun other asked => (same other (apart other asked)).find]

theorem contains_add (store : Templates Source) (name : String) (source : Source) :
    (store.add name source).contains name = true := by
  cases store <;> simp [add, contains]

theorem find_add (store : Templates Source) (name : String) (source : Source) :
    (store.add name source).find name = .ok source := by
  cases store <;> simp [add, find]

/-- An addition to a directory leaves nothing of it. -/
theorem add_directory (files : List (String × Source)) (source : Source) (h : other ≠ name) :
    ((directory files).add name source).contains other = false ∧
      ((directory files).add name source).find other = .error (.unknownTemplate other) := by
  constructor
  · simp [add, contains, h.symm]
  · simp [add, find, List.lookup_cons, beq_false_of_ne h]

/-- A template is there from its addition to the next one of its name. Where the collection has left its directory
by then, other names are as before the addition, and render as before unless they ask for what has been added
since. Where it has not, no other name is there any more or renders. -/
theorem add_frame (engine : Engine Source) (store : Templates Source) (steps later : List (Step Source))
    (name : String) (source : Source) :
    ((∀ step ∈ later, ¬ step.Adds name) →
        Shows engine (after store (steps ++ .add name source :: later)) name source) ∧
      ∀ other, other ≠ name → (∀ step ∈ later, ¬ step.Adds other) →
        ((after store (steps ++ .add name source :: later)).contains other = (after store steps).contains other ↔
          Detached store steps ∨ (after store steps).contains other = false) ∧
        (Detached store steps → ∀ context,
          AsksNone engine (after store steps) other context
            (fun asked => asked = name ∨ ∃ step ∈ later, step.Adds asked) →
          (after store (steps ++ .add name source :: later)).renderBy engine other context =
            (after store steps).renderBy engine other context) ∧
        (¬ Detached store steps → ∀ context,
          (after store (steps ++ .add name source :: later)).renderBy engine other context =
            .error (.generator (.template (.failedTemplate other (.unknownTemplate other)) .null))) := by
  have run : after store (steps ++ .add name source :: later) =
      after ((after store steps).add name source) later := by
    rw [after, List.foldl_append]
    rfl
  have memory := isMemory_add (after store steps) name source
  rw [run]
  refine ⟨fun kept => ?_, fun other ne kept => ?_⟩
  · have same := after_sameAt memory kept
    exact shows_of_find (same.contains.trans (contains_add ..)) (same.find.trans (find_add ..))
  · have rest := after_sameAt memory kept
    by_cases detached : Detached store steps
    · have same : ∀ asked, ¬ (asked = name ∨ ∃ step ∈ later, step.Adds asked) →
          SameAt asked (after ((after store steps).add name source) later) (after store steps) := by
        intro asked apart
        rw [not_or, not_exists] at apart
        have first : SameAt asked ((Step.add name source).next (after store steps)) (after store steps) :=
          next_sameAt (isMemory_after.2 detached) (Ne.symm apart.1)
        exact (after_sameAt memory fun step mem adds => apart.2 step ⟨mem, adds⟩).trans first
      have here := same other (not_or.2 ⟨ne, fun ⟨step, mem, adds⟩ => kept step mem adds⟩)
      exact ⟨⟨fun _ => Or.inl detached, fun _ => here.contains⟩,
        fun _ context apart => renderBy_congr apart same, fun attached => absurd detached attached⟩
    · cases start : after store steps with
      | memory sources => exact absurd (isMemory_after.1 (by rw [start]; rfl)) detached
      | directory files =>
        rw [start] at rest
        obtain ⟨gone, unknown⟩ := add_directory files source ne
        rw [rest.contains, gone, or_iff_right detached]
        exact ⟨eq_comm, fun attached => absurd attached detached,
          fun _ context => renderBy_of_error (rest.find.trans unknown)⟩

def headerSteps : List (Step Template.Source) := [.add "header" "// H"]

def bodySteps : List (Step Template.Source) := [.add "body" "", .contains "header"]

/-- The second template that is added beside the ones for classes leaves the first alone. -/
theorem add_frame_footer :
    let before := after Java.store headerSteps
    let store := after Java.store (headerSteps ++ .add "footer" "// F" :: bodySteps)
    Shows Template.engine store "footer" "// F" ∧ store.contains "header" = before.contains "header" ∧
      store.renderBy Template.engine "header" [] = before.renderBy Template.engine "header" [] ∧
      before.contains "header" = true := by
  have frame := add_frame Template.engine Java.store headerSteps bodySteps "footer" "// F"
  have detached : Detached Java.store headerSteps := Or.inr ⟨_, List.mem_cons_self, rfl⟩
  have others := frame.2 "header" (by decide) (by simp [bodySteps, Step.Adds])
  have rendered := others.2.1 detached [] fun asked mem => by
    have same : asked = "header" := List.mem_singleton.1 mem
    simp [same, bodySteps, Step.Adds]
  exact ⟨frame.1 (by simp [bodySteps, Step.Adds]), others.1.2 (Or.inl detached), rendered, by decide⟩

/-- The first one takes the place of the templates for classes. -/
theorem add_loses_directory :
    (after Java.store []).contains "enum.java.j2" = true ∧
      (after Java.store [.add "header" "// H"]).contains "enum.java.j2" = false ∧
      (after Java.store [.add "header" "// H"]).renderBy Template.engine "enum.java.j2" [] =
        .error (.generator (.template (.failedTemplate "enum.java.j2" (.unknownTemplate "enum.java.j2")) .null)) := by
  have apart : "enum.java.j2" ≠ "header" := by decide
  obtain ⟨gone, unknown⟩ := add_directory Java.templateFiles "// H" apart
  exact ⟨by decide, gone, renderBy_of_error unknown⟩

end Templates

end ResourceCompiler
