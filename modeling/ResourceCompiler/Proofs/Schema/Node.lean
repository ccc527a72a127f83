import ResourceCompiler.Schema.Node

/-!
# Induction on schema trees

The parts of a fragment stand in a list of properties or below the keys nobody declares. `Node.induction`
gives the hypothesis for each of them.
-/

namespace ResourceCompiler

@[induction_eliminator]
theorem Node.induction {motive : Node → Prop}
    (object : ∀ traits properties required additional, (∀ p ∈ properties, motive p.2) →
      (∀ schema, additional = .typed schema → motive schema) →
        motive (.object traits properties required additional))
    (array : ∀ traits items, motive items → motive (.array traits items))
    (map : ∀ traits values, motive values → motive (.map traits values))
    (enum : ∀ traits base values, motive (.enum traits base values))
    (basic : ∀ traits type, motive (.basic traits type))
    (any : ∀ traits, motive (.any traits)) (node : Node) : motive node := by
  refine @Node.rec motive (fun ps => ∀ p ∈ ps, motive p.2)
    (fun additional => ∀ schema, additional = .typed schema → motive schema) (fun p => motive p.2)
    object array map enum basic any ?_ ?_ ?_ ?_ ?_ ?_ node
  · intro p hp
    cases hp
  · intro p ps hp hps q hq
    rcases List.mem_cons.1 hq with rfl | hq
    · exact hp
    · exact hps q hq
  · intro schema h
    cases h
  · intro schema h
    cases h
  · intro schema hs schema' h
    cases h
    exact hs
  · intro name node h
    exact h

end ResourceCompiler
