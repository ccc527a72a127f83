import ResourceCompiler.Java.Types
import ResourceCompiler.Proofs.Failure
import ResourceCompiler.Resolver

/-!
# What the checks of a fragment fail with

The checks that a class, an enum or a scalar type is made with are told the place of their fragment, and whatever
they fail with is at that place and has nothing to do with nesting (`PlacedAt`). Spelling the values of an enum as
literals is the one step that is told no place.
-/

namespace ResourceCompiler

theorem checkCollisions_placed (s : Sanitizer) (properties : List (Scalar × Node)) (path : String) :
    OnlyFails (PlacedAt path) (checkCollisions s properties path) := by
  refine .forM _ fun g _ => ?_
  unfold Group.check
  split
  · exact .ok ()
  · exact .ok ()
  · refine .bind (.mapM _ fun _ _ => .liftM _) fun marks _ => ?_
    split
    · exact .error (.error rfl nofun)
    · exact .ok ()

namespace Members

theorem claim_placed (claimed : List (String × Scalar)) (property : Scalar) (artifacts : List Descriptor)
    (path : String) : OnlyFails (PlacedAt path) (claim claimed property artifacts path) := by
  induction artifacts generalizing claimed with
  | nil => exact .ok _
  | cons a as ih =>
    unfold claim
    simp only []
    split
    · exact ih _
    · exact .error (.error rfl nofun)

theorem add_placed (m : Members) (f : Field Descriptor) (property : Scalar) (artifacts : List Descriptor)
    (path : String) : OnlyFails (PlacedAt path) (m.add f property artifacts path) :=
  .bind (claim_placed _ _ _ _) fun _ _ => .ok _

theorem catchAllField_placed (m : Members) (type : Descriptor) (path : String) :
    OnlyFails (PlacedAt path) (m.catchAllField type path) := by
  unfold catchAllField
  split
  · exact .error (.error rfl nofun)
  · exact .ok _

end Members

theorem classify_placed (kind : Kind) (format : Value) (path : String) :
    OnlyFails (PlacedAt path) (classify kind format path) := by
  unfold classify
  split
  · exact .ok _
  · exact .ok _
  · refine .bind (.liftM _) fun f _ => ?_
    split
    · exact .ok _
    · exact .shape _
  · refine .bind (.liftM _) fun f _ => ?_
    split
    · exact .ok _
    · exact .shape _
  · exact .shape _

theorem parseEnumValue_placed (token : Value) (primitive : Primitive) (path : String) :
    OnlyFails (PlacedAt path) (parseEnumValue token primitive path) := by
  unfold parseEnumValue
  split
  · exact .ok _
  · exact .shape _
  · exact .shape _
  · exact .error (.fault _)

namespace Resolver

variable {r : Resolver}

theorem resolvePrimitive_placed (node : Node) (path : String) :
    OnlyFails (PlacedAt path) (r.resolvePrimitive node path) :=
  .bind (classify_placed _ _ _) fun _ _ => .ok _

theorem enumTokens_placed (node : Node) (path : String) : OnlyFails (PlacedAt path) (enumTokens node path) := by
  unfold enumTokens
  split
  · exact .shape _
  · simp only []
    split
    · exact .shape _
    · exact .ok _

theorem enumBacking_placed (node : Node) (path : String) : OnlyFails (PlacedAt path) (r.enumBacking node path) := by
  refine .bind (resolvePrimitive_placed _ _) fun backing _ => ?_
  split <;> exact .ok _

section

variable {P : Failure → Prop} {path : String}

/-- Beside the checks of an enum, only spelling its literals can fail. -/
theorem enumEntries_fails (placed : ∀ e, PlacedAt path e → P e)
    (hl : ∀ value primitive, OnlyFails P (r.types.literal value primitive)) (primitive : Primitive)
    (seen : List (String × String)) (tokens : List Value) :
    OnlyFails P (r.enumEntries primitive path seen tokens) := by
  induction tokens generalizing seen with
  | nil => exact .ok _
  | cons token rest ih =>
    unfold enumEntries
    refine .bind ((parseEnumValue_placed _ _ _).mono placed) fun value _ => ?_
    refine .bind ((PlacedAt.liftM _).mono placed) fun text _ => ?_
    simp only []
    split
    · exact .error (placed _ (.error rfl nofun))
    · exact .bind (hl value primitive) fun _ _ => .bind (ih _) fun _ _ => .ok _

theorem resolveEnum_fails (placed : ∀ e, PlacedAt path e → P e)
    (hl : ∀ value primitive, OnlyFails P (r.types.literal value primitive)) (node : Node) (name : String)
    (package : List String) (owner? : Option String) :
    OnlyFails P (r.resolveEnum node name package owner? path) :=
  .bind ((enumTokens_placed _ _).mono placed) fun _ _ => .bind ((enumBacking_placed _ _).mono placed) fun _ _ =>
    .bind (enumEntries_fails placed hl _ _ _) fun _ _ => .ok _

end

theorem addCatchAll_placed (scope : Scope) (m : Members) (value? : Option Resolution) :
    OnlyFails (PlacedAt scope.path) (r.addCatchAll scope m value?) := by
  unfold addCatchAll
  split
  · exact .bind (Members.catchAllField_placed _ _ _) fun _ _ => Members.add_placed _ _ _ _ _
  · exact .ok _

end Resolver

namespace Java

/-- A value without a literal is a fault. -/
theorem literal_faults (t : TypeNames) (value : Scalar) (primitive : Primitive) :
    OnlyFails (fun e => ∃ f, e = .fault f) (t.dialect.literal value primitive) := by
  intro e he
  have he : (literal (.scalar value) primitive).mapError Failure.fault = .error e := he
  cases hx : literal (.scalar value) primitive with
  | ok text =>
    rw [hx] at he
    cases he
  | error f =>
    rw [hx] at he
    cases he
    exact ⟨f, rfl⟩

end Java

end ResourceCompiler
