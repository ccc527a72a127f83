import Mathlib.Logic.Relation
import ResourceCompiler.Proofs.Schema.Reading

/-!
# Fragments as records

A `SchemaNode` holds every part that a fragment can have, side by side, whatever its kind: nothing keeps an
array from having properties or an object from lacking the schema of its typed keys. Reading fills the parts in
(`SchemaNode.read`), and what it makes is well formed at every depth (`read_sound`). `Node.record` lays out a tree
that has one constructor per shape, and reading a record is reading such a tree and laying it out
(`Node.ofValue_eq_record`).
-/

namespace ResourceCompiler

/-- How an object treats undeclared keys. -/
inductive Policy where
  | none | any | typed
deriving DecidableEq

/-- A fragment as a record; the parts that any kind may carry are in `traits`. -/
structure SchemaNode where
  kind : Kind
  traits : Traits := {}
  properties : List (Scalar × SchemaNode) := []
  required : List Scalar := []
  /-- The elements of an array or the values of a map. -/
  items? : Option SchemaNode := none
  enumValues : List Value := []
  enumBase? : Option Kind := none
  policy : Policy := .none
  /-- The schema of the values under undeclared keys. -/
  schema? : Option SchemaNode := none

namespace SchemaNode

/-- A fragment without type information. -/
def nothing : SchemaNode := { kind := .any }

/-! ### Reading -/

mutual

def read (limit : Limit) (path : Value) (depth : Nat) : Value → Except Failure SchemaNode
  | .map entries => do
    let es : Entries := entries
    Node.checkDepth limit path depth
    let traits := Node.traitsOf es
    match Node.shapeOf es with
    | .enum =>
      let type := es.get "type"
      let base ← Node.basicOf (if type.truthy then type else .str "string") path
      return { kind := .enum, traits, enumValues := ← (es.get "enum").elements, enumBase? := some (.basic base) }
    | .array => return { kind := .array, traits, items? := some (← readItems limit path depth entries) }
    | .object =>
      let (policy, schema?) ← readPolicy limit path depth entries
      if policy = .typed && !(es.get "properties").truthy then return { kind := .map, traits, items? := schema? }
      else
        let properties ← readProperties limit path depth entries
        let required ← Node.requiredNames (es.get "required")
        return { kind := .object, traits, properties, required, policy, schema? }
    | .any => return { kind := .any, traits }
    | .basic => return { kind := .basic (← Node.basicOf (es.get "type") path), traits }
  | v => do
    Node.checkDepth limit path depth
    failShape (.notMapping v) path
termination_by structural v => v

def readItems (limit : Limit) (path : Value) (depth : Nat) : List (Scalar × Value) → Except Failure SchemaNode
  | [] => do
    Node.checkDepth limit (childPath path (.str "[]")) (depth + 1)
    return nothing
  | (k, v) :: rest =>
    if k.same (.str "items") then
      if v.truthy then read limit (childPath path (.str "[]")) (depth + 1) v
      else do
        Node.checkDepth limit (childPath path (.str "[]")) (depth + 1)
        return nothing
    else readItems limit path depth rest
termination_by structural es => es

def readPolicy (limit : Limit) (path : Value) (depth : Nat) :
    List (Scalar × Value) → Except Failure (Policy × Option SchemaNode)
  | [] => .ok (.none, none)
  | (k, v) :: rest =>
    if k.same (.str "additionalProperties") then
      if v.isMap then do
        let place := childPath path (.str "\x7b\x7d")
        return (.typed, some (← read limit place (depth + 1) v))
      else .ok (if v.isTrue then .any else .none, none)
    else readPolicy limit path depth rest
termination_by structural es => es

def readProperties (limit : Limit) (path : Value) (depth : Nat) :
    List (Scalar × Value) → Except Failure (List (Scalar × SchemaNode))
  | [] => .ok []
  | (k, v) :: rest =>
    if k.same (.str "properties") then
      if v.truthy then
        match v with
        | .map members => readMembers limit path depth members
        | _ => .error (.fault .notMapping)
      else .ok []
    else readProperties limit path depth rest
termination_by structural es => es

def readMembers (limit : Limit) (path : Value) (depth : Nat) :
    List (Scalar × Value) → Except Failure (List (Scalar × SchemaNode))
  | [] => .ok []
  | (name, v) :: rest => do
    let node ← read limit (childPath path name) (depth + 1) v
    return (name, node) :: (← readMembers limit path depth rest)
termination_by structural es => es

end

/-- The record of a raw schema; one that counts as false says nothing. -/
def ofValue (raw : Value) (path : Value) (limit : Limit) : Except Failure SchemaNode :=
  read limit path 0 (if raw.truthy then raw else .map [])

/-! ### Records whose parts fit -/

/-- The parts of a fragment fit its kind and each other. -/
structure WellFormed (n : SchemaNode) : Prop where
  items : n.items?.isSome = true ↔ n.kind = .array ∨ n.kind = .map
  base : n.kind = .enum → ∃ base, n.enumBase? = some (.basic base)
  object : n.properties ≠ [] ∨ n.policy ≠ .none → n.kind = .object
  typed : n.policy = .typed ↔ n.schema?.isSome = true
  declared : n.policy = .typed → n.properties ≠ []

/-- A fragment right below another one. -/
inductive HasPart : SchemaNode → SchemaNode → Prop
  | property {n m : SchemaNode} {name : Scalar} (h : (name, m) ∈ n.properties) : HasPart n m
  | items {n m : SchemaNode} (h : n.items? = some m) : HasPart n m
  | schema {n m : SchemaNode} (h : n.schema? = some m) : HasPart n m

/-- The fragment is the tree itself or one below it. -/
def Contains : SchemaNode → SchemaNode → Prop := Relation.ReflTransGen HasPart

/-- All fragments of a tree are well formed. -/
inductive Sound : SchemaNode → Prop
  | mk {n : SchemaNode} (fits : n.WellFormed) (parts : ∀ m, n.HasPart m → Sound m) : Sound n

namespace Sound

variable {n m : SchemaNode}

theorem fits (h : n.Sound) : n.WellFormed := by
  cases h with
  | mk fits => exact fits

theorem part (h : n.Sound) (hp : n.HasPart m) : m.Sound := by
  cases h with
  | mk _ parts => exact parts m hp

theorem contains (h : n.Sound) (hm : n.Contains m) : m.Sound := by
  induction hm with
  | refl => exact h
  | tail _ hp ih => exact ih.part hp

/-- A fragment without properties and undeclared keys. -/
theorem plain {kind : Kind} {traits : Traits} {values : List Value} {base? : Option Kind}
    (hk : kind ≠ .array ∧ kind ≠ .map) (hb : kind = .enum → ∃ base, base? = some (.basic base)) :
    Sound { kind, traits, enumValues := values, enumBase? := base? } := by
  refine ⟨⟨by simp [hk], hb, by simp, by simp, nofun⟩, fun m hm => ?_⟩
  cases hm with
  | property h => cases h
  | items h => cases h
  | schema h => cases h

theorem holding {kind : Kind} {traits : Traits} {items : SchemaNode} (hk : kind = .array ∨ kind = .map)
    (hi : items.Sound) : Sound { kind, traits, items? := some items } := by
  refine ⟨⟨by simp [hk], by rcases hk with rfl | rfl <;> nofun, by simp, by simp, nofun⟩, fun m hm => ?_⟩
  cases hm with
  | property h => cases h
  | items h => exact Option.some.inj h ▸ hi
  | schema h => cases h

theorem object {traits : Traits} {properties : List (Scalar × SchemaNode)} {required : List Scalar} {policy : Policy}
    {schema? : Option SchemaNode} (typed : policy = .typed ↔ schema?.isSome = true)
    (declared : policy = .typed → properties ≠ []) (members : ∀ p ∈ properties, p.2.Sound)
    (schema : ∀ m, schema? = some m → m.Sound) :
    Sound { kind := .object, traits, properties, required, policy, schema? } := by
  refine ⟨⟨by simp, nofun, fun _ => rfl, typed, declared⟩, fun m hm => ?_⟩
  cases hm with
  | property h => exact members _ h
  | items h => cases h
  | schema h => exact schema m h

end Sound

theorem nothing_sound : nothing.Sound := .plain (by decide) nofun

variable {limit : Limit}

/-- Where a fragment declares properties, some are read. -/
theorem readProperties_ne_nil {es : Entries} {path : Value} {depth : Nat} {properties : List (Scalar × SchemaNode)}
    (ht : (es.get "properties").truthy = true) (h : readProperties limit path depth es = .ok properties) :
    properties ≠ [] := by
  induction es with
  | nil => cases ht
  | cons e es ih =>
    obtain ⟨k, v⟩ := e
    rw [Entries.get_cons] at ht
    cases hk : k.same (.str "properties") with
    | false =>
      simp only [hk, Bool.false_eq_true, if_false] at ht
      refine ih ht ?_
      cases v <;> simpa [readProperties, hk] using h
    | true =>
      simp only [hk, if_true] at ht
      cases v with
      | map members =>
        cases members with
        | nil => cases ht
        | cons member members =>
          obtain ⟨name, v⟩ := member
          simp only [readProperties, hk, ht, if_true, readMembers, bind_eq_ok, pure_eq_ok] at h
          obtain ⟨_, _, _, _, rfl⟩ := h
          exact List.cons_ne_nil _ _
      | scalar s | list xs => simp [readProperties, hk, ht] at h

/-- Only mappings are fragments. -/
theorem isMap_of_read {v path : Value} {depth : Nat} {n : SchemaNode} (h : read limit path depth v = .ok n) :
    v.isMap = true := by
  cases v with
  | map entries => rfl
  | scalar s | list xs =>
    simp only [read, bind_eq_ok] at h
    obtain ⟨_, _, h⟩ := h
    exact absurd h failShape_ne_ok

-- the induction follows the reader, with one theorem for each of its functions
mutual

theorem read_sound : ∀ (v : Value) {path : Value} {depth : Nat} {n : SchemaNode},
    read limit path depth v = .ok n → n.Sound
  | .map entries, path, depth, n, h => by
    rw [read] at h
    obtain ⟨_, _, h⟩ := bind_eq_ok.1 h
    cases hs : Node.shapeOf entries with
    | enum =>
      simp only [hs, bind_eq_ok, pure_eq_ok] at h
      obtain ⟨base, _, values, _, rfl⟩ := h
      exact .plain (by decide) fun _ => ⟨base, rfl⟩
    | array =>
      simp only [hs, bind_eq_ok, pure_eq_ok] at h
      obtain ⟨items, hi, rfl⟩ := h
      exact .holding (.inl rfl) (readItems_sound entries hi)
    | object =>
      simp only [hs, bind_eq_ok] at h
      obtain ⟨⟨policy, schema?⟩, hp, h⟩ := h
      obtain ⟨typed, schema⟩ := readPolicy_sound entries hp
      split at h
      · next bare =>
        simp only [Bool.and_eq_true, decide_eq_true_eq, Bool.not_eq_true'] at bare
        obtain ⟨values, rfl⟩ := Option.isSome_iff_exists.1 (typed.1 bare.1)
        exact pure_eq_ok.1 h ▸ .holding (.inr rfl) (schema values rfl)
      · next declares =>
        simp only [bind_eq_ok, pure_eq_ok] at h
        obtain ⟨properties, hq, required, _, rfl⟩ := h
        have declared (ht : policy = .typed) : properties ≠ [] :=
          readProperties_ne_nil (by simpa [ht] using declares) hq
        exact .object typed declared (readProperties_sound entries hq) schema
    | any =>
      simp only [hs, pure_eq_ok] at h
      exact h ▸ .plain (by decide) nofun
    | basic =>
      simp only [hs, bind_eq_ok, pure_eq_ok] at h
      obtain ⟨base, _, rfl⟩ := h
      exact .plain (by simp) nofun
  | .scalar _, _, _, _, h | .list _, _, _, _, h => by cases isMap_of_read h

theorem readItems_sound : ∀ (es : List (Scalar × Value)) {path : Value} {depth : Nat} {n : SchemaNode},
    readItems limit path depth es = .ok n → n.Sound
  | [], path, depth, n, h => by
    rw [readItems] at h
    obtain ⟨_, _, h⟩ := bind_eq_ok.1 h
    exact pure_eq_ok.1 h ▸ nothing_sound
  | (k, v) :: rest, path, depth, n, h => by
    rw [readItems] at h
    split at h
    · split at h
      · exact read_sound v h
      · obtain ⟨_, _, h⟩ := bind_eq_ok.1 h
        exact pure_eq_ok.1 h ▸ nothing_sound
    · exact readItems_sound rest h

theorem readPolicy_sound : ∀ (es : List (Scalar × Value)) {path : Value} {depth : Nat} {policy : Policy}
    {schema? : Option SchemaNode}, readPolicy limit path depth es = .ok (policy, schema?) →
      (policy = .typed ↔ schema?.isSome = true) ∧ ∀ m, schema? = some m → m.Sound
  | [], path, depth, policy, schema?, h => by
    cases h
    exact ⟨by simp, nofun⟩
  | (k, v) :: rest, path, depth, policy, schema?, h => by
    rw [readPolicy] at h
    split at h
    · split at h
      · obtain ⟨schema, hs, h⟩ := bind_eq_ok.1 h
        cases h
        refine ⟨by simp, fun m hm => ?_⟩
        exact Option.some.inj hm ▸ read_sound v hs
      · cases h
        exact ⟨by split <;> simp, nofun⟩
    · exact readPolicy_sound rest h

theorem readProperties_sound : ∀ (es : List (Scalar × Value)) {path : Value} {depth : Nat}
    {properties : List (Scalar × SchemaNode)}, readProperties limit path depth es = .ok properties →
      ∀ p ∈ properties, p.2.Sound
  | [], path, depth, properties, h => by
    cases h
    nofun
  | (k, v) :: rest, path, depth, properties, h => by
    cases v with
    | map members =>
      rw [readProperties] at h
      split at h
      · split at h
        · exact readMembers_sound members h
        · cases h
          nofun
      · exact readProperties_sound rest h
    | scalar s | list xs =>
      simp only [readProperties] at h
      split at h
      · split at h
        · cases h
        · cases h
          nofun
      · exact readProperties_sound rest h

theorem readMembers_sound : ∀ (es : List (Scalar × Value)) {path : Value} {depth : Nat}
    {properties : List (Scalar × SchemaNode)}, readMembers limit path depth es = .ok properties →
      ∀ p ∈ properties, p.2.Sound
  | [], path, depth, properties, h => by
    cases h
    nofun
  | (name, v) :: rest, path, depth, properties, h => by
    rw [readMembers] at h
    simp only [bind_eq_ok, pure_eq_ok] at h
    obtain ⟨n, hn, properties, hp, rfl⟩ := h
    exact List.forall_mem_cons.2 ⟨read_sound v hn, readMembers_sound rest hp⟩

end

theorem ofValue_sound {raw path : Value} {n : SchemaNode} (h : ofValue raw path limit = .ok n) : n.Sound :=
  read_sound _ h

end SchemaNode

/-! ### Laying out nodes -/

namespace Additional

def policy {α : Type} : Additional α → Policy
  | .closed => .none
  | .open => .any
  | .typed _ => .typed

end Additional

namespace Node

mutual

/-- The record of a node. -/
def record : Node → SchemaNode
  | .object traits properties required additional =>
    { kind := .object, traits, properties := recordMembers properties, required, policy := additional.policy,
      schema? := recordSchema additional }
  | .array traits items => { kind := .array, traits, items? := some (record items) }
  | .map traits values => { kind := .map, traits, items? := some (record values) }
  | .enum traits base values => { kind := .enum, traits, enumValues := values, enumBase? := some (.basic base) }
  | .basic traits type => { kind := .basic type, traits }
  | .any traits => { kind := .any, traits }
termination_by structural n => n

def recordMembers : List (Scalar × Node) → List (Scalar × SchemaNode)
  | [] => []
  | (name, n) :: rest => (name, record n) :: recordMembers rest
termination_by structural ps => ps

def recordSchema : Additional Node → Option SchemaNode
  | .typed schema => some (record schema)
  | .closed => none
  | .open => none
termination_by structural additional => additional

end

theorem record_traits (n : Node) : n.record.traits = n.traits := by
  cases n <;> rfl

variable {limit : Limit}

mutual

theorem read_eq_record : ∀ (v : Value) (path : Value) (depth : Nat),
    SchemaNode.read limit path depth v = (readFragment limit path depth v).map record
  | .map entries, path, depth => by
    rw [SchemaNode.read, readFragment, readItems_eq_record entries, readPolicy_eq_record entries,
      readProperties_eq_record entries]
    cases checkDepth limit path depth with
    | error e => rfl
    | ok =>
      cases hs : shapeOf entries with
      | enum =>
        dsimp only
        cases basicOf (if (Entries.get entries "type").truthy then Entries.get entries "type" else .str "string")
          path with
        | error e => rfl
        | ok base => cases (Entries.get entries "enum").elements <;> rfl
      | array => cases readItems limit path depth entries <;> rfl
      | object =>
        cases readAdditional limit path depth entries with
        | error e => rfl
        | ok additional =>
          cases declares : (Entries.get entries "properties").truthy <;>
          cases readProperties limit path depth entries <;>
          cases requiredNames (Entries.get entries "required") <;>
          cases additional <;> rfl
      | any => rfl
      | basic => cases basicOf (Entries.get entries "type") path <;> rfl
  | .scalar _, path, depth | .list _, path, depth => by
    simp only [SchemaNode.read, readFragment]
    cases checkDepth limit path depth with
    | error e => rfl
    | ok => simp only [bind, Except.bind, failShape_map]

theorem readItems_eq_record : ∀ (es : List (Scalar × Value)) (path : Value) (depth : Nat),
    SchemaNode.readItems limit path depth es = (readItems limit path depth es).map record
  | [], path, depth => by
    rw [SchemaNode.readItems, readItems]
    cases checkDepth limit (childPath path (.str "[]")) (depth + 1) <;> rfl
  | (k, v) :: rest, path, depth => by
    rw [SchemaNode.readItems, readItems, read_eq_record v, readItems_eq_record rest]
    split
    · split
      · rfl
      · cases checkDepth limit (childPath path (.str "[]")) (depth + 1) <;> rfl
    · rfl

theorem readPolicy_eq_record : ∀ (es : List (Scalar × Value)) (path : Value) (depth : Nat),
    SchemaNode.readPolicy limit path depth es =
      (readAdditional limit path depth es).map fun additional => (additional.policy, recordSchema additional)
  | [], path, depth => rfl
  | (k, v) :: rest, path, depth => by
    simp only [SchemaNode.readPolicy, readAdditional, read_eq_record v, readPolicy_eq_record rest]
    split
    · split
      · cases readFragment limit (childPath path (.str "\x7b\x7d")) (depth + 1) v <;> rfl
      · cases v.isTrue <;> rfl
    · rfl

theorem readProperties_eq_record : ∀ (es : List (Scalar × Value)) (path : Value) (depth : Nat),
    SchemaNode.readProperties limit path depth es = (readProperties limit path depth es).map recordMembers
  | [], path, depth => rfl
  | (k, v) :: rest, path, depth => by
    cases v with
    | map members =>
      rw [SchemaNode.readProperties, readProperties, readMembers_eq_record members, readProperties_eq_record rest]
      split
      · split <;> rfl
      · rfl
    | scalar s | list xs =>
      simp only [SchemaNode.readProperties, readProperties, readProperties_eq_record rest]
      split
      · split <;> rfl
      · rfl

theorem readMembers_eq_record : ∀ (es : List (Scalar × Value)) (path : Value) (depth : Nat),
    SchemaNode.readMembers limit path depth es = (readMembers limit path depth es).map recordMembers
  | [], path, depth => rfl
  | (name, v) :: rest, path, depth => by
    rw [SchemaNode.readMembers, readMembers, read_eq_record v, readMembers_eq_record rest]
    cases readFragment limit (childPath path name) (depth + 1) v with
    | error e => rfl
    | ok n => cases readMembers limit path depth rest <;> rfl

end

/-- Reading a record is reading a node and laying it out. -/
theorem ofValue_eq_record (raw path : Value) (limit : Limit) :
    SchemaNode.ofValue raw path limit = (ofValue raw path limit).map record :=
  read_eq_record ..

theorem mem_recordMembers {properties : List (Scalar × Node)} {p : Scalar × SchemaNode}
    (h : p ∈ recordMembers properties) : ∃ n : Node, n.record = p.2 := by
  induction properties with
  | nil => cases h
  | cons q properties ih =>
    obtain ⟨name, n⟩ := q
    rcases List.mem_cons.1 h with rfl | h
    · exact ⟨n, rfl⟩
    · exact ih h

/-- The fragments in the record of a node are records of nodes. -/
theorem exists_record {n : Node} {m : SchemaNode} (h : n.record.Contains m) : ∃ k : Node, k.record = m := by
  induction h with
  | refl => exact ⟨n, rfl⟩
  | tail _ hp ih =>
    obtain ⟨k, rfl⟩ := ih
    cases hp with
    | property h =>
      cases k with
      | object => exact mem_recordMembers h
      | _ => cases h
    | items h =>
      cases k with
      | array traits items | map traits items => exact ⟨items, Option.some.inj h⟩
      | _ => cases h
    | schema h =>
      cases k with
      | object traits properties required additional =>
        cases additional with
        | typed schema => exact ⟨schema, Option.some.inj h⟩
        | _ => cases h
      | _ => cases h

end Node

end ResourceCompiler
