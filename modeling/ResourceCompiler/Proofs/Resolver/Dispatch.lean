import ResourceCompiler.Java.Generator
import ResourceCompiler.Proofs.Naming.Reduction
import ResourceCompiler.Proofs.Schema.Record

/-!
# Resolving records, and the branches nobody reaches

A record may lack what its kind needs: the items of an array, the base of an enum, the schema of typed keys. A
resolution of records must say how it goes on then, and what it does with a kind that no branch takes: it is given
`Fallbacks`, of which `Resolver.fallbacks` are those of the resolver here. On a sound record they make no
difference, whatever they are (`resolveRecord_agree`, `recordObject_agree`), and the record of a node resolves as the
node does (`resolveRecord_record`, `recordObject_of_parts`).
-/

namespace ResourceCompiler

/-- What a resolution of records does where a record does not say how to go on. -/
structure Fallbacks where
  /-- A kind that no branch takes, at a place. -/
  kind : Kind → String → Except Failure Resolution
  /-- Items or values that are absent, at their place and depth. -/
  items : String → Int → Except Failure Resolution
  /-- The base of an enum, absent or no scalar type. -/
  base : Option Kind → String → Except Failure Basic
  /-- The absent schema of undeclared keys, at its place and depth. -/
  schema : String → Int → Except Failure Resolution

namespace SchemaNode

/-- What can be seen of properties without a look at their shapes. -/
def outlines (properties : List (Scalar × SchemaNode)) : List (Scalar × Node) :=
  properties.map fun (name, n) => (name, .any n.traits)

end SchemaNode

/-- What a policy says about undeclared keys, their schema aside. -/
def Policy.additional : Policy → Additional Node
  | .any => .open
  | .none | .typed => .closed

namespace Resolver

open SchemaNode (outlines)

/-- Absent items have any type, an enum without a base has texts; the rest is an error. -/
def fallbacks (r : Resolver) : Fallbacks where
  kind kind path := failShape (.noResolver kind) (.str path)
  items path depth := do
    r.checkDepth path depth
    return existing r.types.any
  base
    | none, _ => .ok .string
    | some kind, path => failShape (.notPrimitive kind) (.str path)
  schema path depth := do
    r.checkDepth path depth
    .error (.fault .notMapping)

variable (r : Resolver) (fb : Fallbacks)

/-- The scalar type of an enum's values. -/
def baseOf (path : String) : Option Kind → Except Failure Basic
  | some (.basic base) => .ok base
  | base? => fb.base base? path

def enumOf (traits : Traits) (values : List Value) (base? : Option Kind) (name : String) (package : List String)
    (owner? : Option String) (path : String) : Except Failure Resolution := do
  let _ ← enumTokens (.enum traits .string values) path
  let base ← baseOf fb path base?
  r.resolveEnum (.enum traits base values) name package owner? path

mutual

/-- The type of a member, by its record. -/
def resolveRecord (r : Resolver) (fb : Fallbacks) (name : String) (package : List String) (owner? : Option String)
    (path : String) (depth : Int) : SchemaNode → Except Failure Resolution
  | ⟨kind, traits, properties, required, items?, enumValues, enumBase?, policy, schema?⟩ => do
    r.checkDepth path depth
    if traits.intOrString then return existing r.types.intOrString
    else if kind = .object then
      if properties.isEmpty && policy == .any then return existing r.types.any
      else
        r.checkDepth path depth
        r.buildClass traits (outlines properties) policy.additional name package path
          (fun scope => r.recordMembers fb scope depth required (outlines properties) {} properties)
          (fun scope => r.recordValues fb scope depth policy schema?)
    else if kind = .array then
      return r.arrayOf (← r.recordItems fb name package owner? (path ++ "[]") (depth + 1) items?)
    else if kind = .map then
      return r.mapOf (← r.recordItems fb name package owner? (path ++ "\x7b\x7d") (depth + 1) items?)
    else if kind = .enum then r.enumOf fb traits enumValues enumBase? name package owner? path
    else if kind = .any then return existing r.types.any
    else
      match kind with
      | .basic base => return ⟨.primitive (← r.resolvePrimitive (.basic traits base) path), []⟩
      | kind => fb.kind kind path
termination_by structural n => n

/-- The fields of properties that give way to none of the `siblings`, after `members`. -/
def recordMembers (r : Resolver) (fb : Fallbacks) (scope : Scope) (depth : Int) (required : List Scalar)
    (siblings : List (Scalar × Node)) (members : Members) :
    List (Scalar × SchemaNode) → Except Failure Members
  | [] => .ok members
  | (property, n) :: rest => do
    if givesWay r.names siblings (property, .any n.traits) then
      r.recordMembers fb scope depth required siblings members rest
    else
      let resolved ← r.resolveRecord fb (r.names.typeName property.text) scope.memberPackage
        (some scope.className) (scope.path ++ "." ++ property.text) (depth + 1) n
      let field ← r.memberField required property n.traits resolved.type
      let members ← members.add field property resolved.artifacts scope.path
      r.recordMembers fb scope depth required siblings members rest
termination_by structural properties => properties

/-- The items of an array or the values of a map. -/
def recordItems (r : Resolver) (fb : Fallbacks) (name : String) (package : List String) (owner? : Option String)
    (path : String) (depth : Int) : Option SchemaNode → Except Failure Resolution
  | some items => r.resolveRecord fb name package owner? path depth items
  | none => fb.items path depth
termination_by structural items? => items?

/-- The type of the values under undeclared keys, when they have a schema. -/
def recordValues (r : Resolver) (fb : Fallbacks) (scope : Scope) (depth : Int) (policy : Policy) :
    Option SchemaNode → Except Failure (Option Resolution)
  | some schema => do
    if policy = .typed then
      let value ← r.resolveRecord fb (r.names.typeName additionalProperties) scope.memberPackage
        (some scope.className) (scope.path ++ ".\x7b\x7d") (depth + 1) schema
      return some value
    else return none
  | none => do
    if policy = .typed then
      let value ← fb.schema (scope.path ++ ".\x7b\x7d") (depth + 1)
      return some value
    else return none
termination_by structural schema? => schema?

end

/-- The class of any fragment, by its record: the values of a map are those of its undeclared keys. -/
def recordObject (name : String) (package : List String) (path : String) (depth : Int) (n : SchemaNode) :
    Except Failure Resolution := do
  r.checkDepth path depth
  let policy := if n.kind = .map then .typed else n.policy
  r.buildClass n.traits (outlines n.properties) policy.additional name package path
    (fun scope => r.recordMembers fb scope depth n.required (outlines n.properties) {} n.properties)
    (fun scope =>
      if n.kind = .map then do
        let value ← r.recordItems fb (r.names.typeName additionalProperties) scope.memberPackage
          (some scope.className) (scope.path ++ ".\x7b\x7d") (depth + 1) n.items?
        return some value
      else r.recordValues fb scope depth n.policy n.schema?)

variable {r fb} {fb' : Fallbacks} {name : String} {package : List String} {owner? : Option String} {path : String}
  {depth : Int}

/-- Absent items resolve as a fragment that says nothing. -/
theorem fallbacks_items (name : String) (package : List String) (owner? : Option String) :
    r.fallbacks.items path depth = r.resolveRecord fb name package owner? path depth .nothing := rfl

/-! ### Sound records -/

/-- The fragment resolves alike with either fallbacks, wherever it is. -/
def Agree (r : Resolver) (fb fb' : Fallbacks) (n : SchemaNode) : Prop :=
  ∀ (name : String) (package : List String) (owner? : Option String) (path : String) (depth : Int),
    r.resolveRecord fb name package owner? path depth n = r.resolveRecord fb' name package owner? path depth n

theorem recordMembers_agree {properties : List (Scalar × SchemaNode)} (h : ∀ p ∈ properties, r.Agree fb fb' p.2)
    (scope : Scope) (required : List Scalar) (siblings : List (Scalar × Node)) (members : Members) :
    r.recordMembers fb scope depth required siblings members properties =
      r.recordMembers fb' scope depth required siblings members properties := by
  induction properties generalizing members with
  | nil => rfl
  | cons p properties ih =>
    obtain ⟨property, n⟩ := p
    rw [List.forall_mem_cons] at h
    simp only [recordMembers, ih h.2, h.1 _ _ _ _ _]

theorem recordItems_agree {items? : Option SchemaNode} (there : items?.isSome = true)
    (h : ∀ m, items? = some m → r.Agree fb fb' m) (name : String) (package : List String) (owner? : Option String)
    (path : String) (depth : Int) :
    r.recordItems fb name package owner? path depth items? =
      r.recordItems fb' name package owner? path depth items? := by
  obtain ⟨items, rfl⟩ := Option.isSome_iff_exists.1 there
  simp only [recordItems]
  exact h items rfl ..

theorem recordValues_agree {policy : Policy} {schema? : Option SchemaNode}
    (there : policy = .typed → schema?.isSome = true) (h : ∀ m, schema? = some m → r.Agree fb fb' m)
    (scope : Scope) :
    r.recordValues fb scope depth policy schema? = r.recordValues fb' scope depth policy schema? := by
  cases schema? with
  | some schema => simp only [recordValues, h schema rfl _ _ _ _ _]
  | none =>
    have untyped : policy ≠ .typed := fun typed => by cases there typed
    simp only [recordValues, if_neg untyped]

theorem recordObject_agree {n : SchemaNode} (fits : n.WellFormed) (parts : ∀ m, n.HasPart m → r.Agree fb fb' m) :
    r.recordObject fb name package path depth n = r.recordObject fb' name package path depth n := by
  have members (scope : Scope) :
      r.recordMembers fb scope depth n.required (outlines n.properties) {} n.properties =
        r.recordMembers fb' scope depth n.required (outlines n.properties) {} n.properties :=
    recordMembers_agree (fun p hp => parts p.2 (.property hp)) ..
  have values (scope : Scope) :
      r.recordValues fb scope depth n.policy n.schema? = r.recordValues fb' scope depth n.policy n.schema? :=
    recordValues_agree fits.typed.1 (fun m hm => parts m (.schema hm)) scope
  unfold recordObject
  simp only [members, values]
  by_cases isMap : n.kind = .map
  · have items := recordItems_agree (fits.items.2 (.inr isMap)) fun m hm => parts m (.items hm)
    simp only [items]
  · simp only [if_neg isMap]

theorem resolveRecord_eq (n : SchemaNode) :
    r.resolveRecord fb name package owner? path depth n = do
      r.checkDepth path depth
      if n.traits.intOrString then return existing r.types.intOrString
      else
        match n.kind with
        | .object =>
          if n.properties.isEmpty && n.policy == .any then return existing r.types.any
          else r.recordObject fb name package path depth n
        | .array => return r.arrayOf (← r.recordItems fb name package owner? (path ++ "[]") (depth + 1) n.items?)
        | .map => return r.mapOf (← r.recordItems fb name package owner? (path ++ "\x7b\x7d") (depth + 1) n.items?)
        | .enum => r.enumOf fb n.traits n.enumValues n.enumBase? name package owner? path
        | .any => return existing r.types.any
        | .basic base => return ⟨.primitive (← r.resolvePrimitive (.basic n.traits base) path), []⟩ := by
  obtain ⟨kind, traits, properties, required, items?, values, base?, policy, schema?⟩ := n
  cases kind <;> rfl

/-- What a sound record resolves to does not depend on the fallbacks. -/
theorem resolveRecord_agree {n : SchemaNode} (h : n.Sound) : r.Agree fb fb' n := by
  induction h with
  | @mk n fits _ parts =>
    intro name package owner? path depth
    have items (holds : n.kind = .array ∨ n.kind = .map) :=
      recordItems_agree (fits.items.2 holds) fun m hm => parts m (.items hm)
    rw [resolveRecord_eq, resolveRecord_eq]
    cases hk : n.kind with
    | object => simp only [recordObject_agree fits parts]
    | array => simp only [items (.inl hk)]
    | map => simp only [items (.inr hk)]
    | enum =>
      obtain ⟨base, hb⟩ := fits.base hk
      simp only [hb]
      rfl
    | basic | any => rfl

/-! ### Records of nodes -/

/-- The record of a fragment resolves as the fragment does, wherever it is. -/
def Follows (r : Resolver) (fb : Fallbacks) (n : Node) : Prop :=
  ∀ (name : String) (package : List String) (owner? : Option String) (path : String) (depth : Int),
    r.resolveRecord fb name package owner? path depth n.record = r.resolve name package owner? path depth n

theorem outlines_record (properties : List (Scalar × Node)) :
    outlines (Node.recordMembers properties) = properties.map Group.outline := by
  induction properties with
  | nil => rfl
  | cons p properties ih =>
    obtain ⟨name, n⟩ := p
    rw [Node.recordMembers, List.map_cons, ← ih, Group.outline, ← n.record_traits]
    rfl

theorem recordMembers_record {properties : List (Scalar × Node)} (h : ∀ p ∈ properties, r.Follows fb p.2)
    (scope : Scope) (required : List Scalar) (siblings : List (Scalar × Node)) (members : Members) :
    r.recordMembers fb scope depth required (siblings.map Group.outline) members (Node.recordMembers properties) =
      r.resolveMembers scope depth required siblings members properties := by
  induction properties generalizing members with
  | nil => rfl
  | cons p properties ih =>
    obtain ⟨property, n⟩ := p
    rw [List.forall_mem_cons] at h
    have way : givesWay r.names (siblings.map Group.outline) (property, .any n.traits) =
        givesWay r.names siblings (property, n) := givesWay_outline r.names siblings (property, n)
    simp only [Node.recordMembers, recordMembers, resolveMembers, n.record_traits, way, h.1 _ _ _ _ _, ih h.2]

theorem recordValues_record {additional : Additional Node}
    (h : ∀ schema, additional = .typed schema → r.Follows fb schema) (scope : Scope) :
    r.recordValues fb scope depth additional.policy (Node.recordSchema additional) =
      r.resolveAdditional scope depth additional := by
  cases additional with
  | typed schema =>
    simp only [Node.recordSchema, recordValues, resolveAdditional, h schema rfl _ _ _ _ _]
    rfl
  | closed | «open» =>
    simp only [Node.recordSchema, recordValues, resolveAdditional]
    rfl

theorem buildClass_outline (traits : Traits) (properties : List (Scalar × Node)) (additional : Additional Node)
    (members : Scope → Except Failure Members) (value : Scope → Except Failure (Option Resolution)) :
    r.buildClass traits (properties.map Group.outline) additional.policy.additional name package path members value =
      r.buildClass traits properties additional name package path members value := by
  have «open» : additional.policy.additional.isOpen = additional.isOpen := by cases additional <;> rfl
  have undeclared (typed? : Option Resolution) : r.undeclared? traits additional.policy.additional typed? =
      r.undeclared? traits additional typed? := by
    unfold undeclared?
    rw [«open»]
  unfold buildClass
  simp only [checkCollisions_outline, undeclared]

theorem recordObject_of_parts (n : Node) (members : ∀ p ∈ n.properties, r.Follows fb p.2)
    (values : ∀ schema, additionalOf n = .typed schema → r.Follows fb schema) :
    r.recordObject fb name package path depth n.record = r.resolveObject n name package path depth := by
  have parts : n.record.properties = Node.recordMembers n.properties ∧ n.record.required = n.required := by
    cases n <;> exact ⟨rfl, rfl⟩
  have policy : (if n.record.kind = .map then .typed else n.record.policy) = (additionalOf n).policy := by
    cases n <;> rfl
  have schema (scope : Scope) :
      (if n.record.kind = .map then do
        let value ← r.recordItems fb (r.names.typeName additionalProperties) scope.memberPackage
          (some scope.className) (scope.path ++ ".\x7b\x7d") (depth + 1) n.record.items?
        return some value
      else r.recordValues fb scope depth n.record.policy n.record.schema?) =
        r.recordValues fb scope depth (additionalOf n).policy (Node.recordSchema (additionalOf n)) := by
    cases n <;> rfl
  unfold recordObject resolveObject
  simp only [schema, policy, parts, n.record_traits, outlines_record, recordMembers_record members,
    recordValues_record values, buildClass_outline]

theorem enumOf_basic (traits : Traits) (values : List Value) (base : Basic) :
    r.enumOf fb traits values (some (.basic base)) name package owner? path =
      r.resolveEnum (.enum traits base values) name package owner? path := by
  have tokens : enumTokens (.enum traits .string values) path = enumTokens (.enum traits base values) path := rfl
  unfold enumOf
  rw [tokens]
  cases found : enumTokens (.enum traits base values) path with
  | error e =>
    unfold resolveEnum
    rw [found]
    rfl
  | ok => rfl

/-- A record that a node is laid out as resolves as the node does. -/
theorem resolveRecord_record (n : Node) : r.Follows fb n := by
  induction n with
  | object traits properties required additional members values =>
    intro name package owner? path depth
    have bare : (Node.recordMembers properties).isEmpty = properties.isEmpty := by
      cases properties <;> rfl
    have «open» : (additional.policy == .any) = additional.isOpen := by cases additional <;> rfl
    have made : r.recordObject fb name package path depth (Node.object traits properties required additional).record =
        r.resolveObject (.object traits properties required additional) name package path depth :=
      recordObject_of_parts _ members values
    rw [resolveRecord_eq, resolve, made]
    simp only [Node.record, bare, «open»]
    unfold resolveObject
    -- the class checks the depth once more
    cases r.checkDepth path depth <;> rfl
  | array traits items h | map traits values h =>
    intro name package owner? path depth
    rw [resolveRecord_eq, resolve]
    simp only [Node.record, recordItems, h _ _ _ _ _]
  | enum traits base values =>
    intro name package owner? path depth
    rw [resolveRecord_eq, resolve]
    simp only [Node.record, enumOf_basic]
  | basic =>
    intro name package owner? path depth
    rw [resolveRecord_eq, resolve]
    rfl
  | any traits =>
    intro name package owner? path depth
    rw [resolveRecord_eq, resolve]
    refine bind_congr fun _ => ?_
    show (if traits.intOrString then pure (existing r.types.intOrString) else pure (existing r.types.any)) =
      pure (existing (if traits.intOrString then r.types.intOrString else r.types.any))
    split <;> rfl

/-- Every fragment of a tree that was read, as a record, is well formed, and no fallback has a part in resolving it,
as a member or as a class: every kind has its branch, no array or map lacks what it holds, and no values of undeclared
keys lack their schema. The fragment is that of a node, and resolves as the node does. -/
theorem fallbacks_unused (raw place : Value) (limit : Limit) (root : SchemaNode)
    (h : SchemaNode.ofValue raw place limit = .ok root) (n : SchemaNode) (hn : root.Contains n) :
    n.WellFormed ∧
      (∀ (r : Resolver) (fb : Fallbacks) (name : String) (package : List String) (owner? : Option String)
        (path : String) (depth : Int),
        r.resolveRecord fb name package owner? path depth n =
            r.resolveRecord r.fallbacks name package owner? path depth n ∧
          r.recordObject fb name package path depth n = r.recordObject r.fallbacks name package path depth n) ∧
      ∃ tree node : Node, Node.ofValue raw place limit = .ok tree ∧ tree.record = root ∧ node.record = n ∧
        ∀ (r : Resolver) (name : String) (package : List String) (owner? : Option String) (path : String)
          (depth : Int),
          r.resolveRecord r.fallbacks name package owner? path depth n =
              r.resolve name package owner? path depth node ∧
            r.recordObject r.fallbacks name package path depth n = r.resolveObject node name package path depth := by
  have sound := (SchemaNode.ofValue_sound h).contains hn
  refine ⟨sound.fits, fun r fb name package owner? path depth => ⟨?_, ?_⟩, ?_⟩
  · exact resolveRecord_agree sound ..
  · exact recordObject_agree sound.fits fun m hm => resolveRecord_agree (sound.part hm)
  · rw [Node.ofValue_eq_record, map_eq_ok] at h
    obtain ⟨tree, read, rfl⟩ := h
    obtain ⟨node, rfl⟩ := Node.exists_record hn
    refine ⟨tree, node, read, rfl, rfl, fun r name package owner? path depth => ⟨?_, ?_⟩⟩
    · exact resolveRecord_record node ..
    · exact recordObject_of_parts node (fun p _ => resolveRecord_record p.2) fun m _ => resolveRecord_record m

/-- A name, beside lists that do not say what they hold. -/
def crateValue : Value :=
  .map [(.str "properties", .map [(.str "name", .map [(.str "type", .str "string")])]),
    (.str "additionalProperties", .map [(.str "type", .str "array")])]

/-- Fallbacks that fail. -/
def refusing : Fallbacks where
  kind _ _ := .error (.fault .unknownName)
  items _ _ := .error (.fault .missingKey)
  base _ _ := .error (.fault .unknownName)
  schema _ _ := .error (.fault .notMapping)

/-- The lists and the class with them resolve though no fallback would. -/
theorem fallbacks_unused_crate :
    ∃ root n lists made, SchemaNode.ofValue crateValue .null (.levels 2) = .ok root ∧ root.Contains n ∧
      n.WellFormed ∧ n.kind = .array ∧
      (Java.generator {}).resolver.resolveRecord refusing "Lists" ["io"] none "io.Crate" 1 n = .ok lists ∧
      root.WellFormed ∧
      (Java.generator {}).resolver.recordObject refusing "Crate" ["io"] "" 0 root = .ok made := by
  let r := (Java.generator {}).resolver
  obtain ⟨root, n, lists, made, hr, hp, hk, hl, hm⟩ : ∃ root n lists made,
      SchemaNode.ofValue crateValue .null (.levels 2) = .ok root ∧ root.HasPart n ∧ n.kind = .array ∧
      r.resolveRecord r.fallbacks "Lists" ["io"] none "io.Crate" 1 n = .ok lists ∧
      r.recordObject r.fallbacks "Crate" ["io"] "" 0 root = .ok made :=
    ⟨_, _, _, _, rfl, .schema rfl, rfl, rfl, rfl⟩
  obtain ⟨wellFormed, here, -⟩ := fallbacks_unused _ _ _ root hr n (.single hp)
  obtain ⟨rootWellFormed, there, -⟩ := fallbacks_unused _ _ _ root hr root .refl
  refine ⟨root, n, lists, made, hr, .single hp, wellFormed, hk, ?_, rootWellFormed, ?_⟩
  · rw [(here r refusing "Lists" ["io"] none "io.Crate" 1).1, hl]
  · rw [(there r refusing "Crate" ["io"] none "" 0).2, hm]

end Resolver

end ResourceCompiler
