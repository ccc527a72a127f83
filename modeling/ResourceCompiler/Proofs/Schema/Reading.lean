import ResourceCompiler.Proofs.Schema.Node
import ResourceCompiler.Proofs.Success
import ResourceCompiler.Proofs.Value
import ResourceCompiler.Schema.Reader

/-!
# Which tree a fragment is read as

`Node.Reads` says, one case per shape, from which parts of a fragment the parts of its tree are read and
at which depth; `readFragment_eq_ok`: these are exactly the trees that reading gives. What a fragment
says is looked up under the names of its parts, so that the equations before it do away with the walks
through its entries.
-/

namespace ResourceCompiler

namespace Entries

theorem get_cons (k : Scalar) (v : Value) (es : Entries) (name : String) :
    Entries.get ((k, v) :: es) name = if k.same (.str name) then v else es.get name := by
  unfold get
  rw [find?]
  split <;> rfl

/-- A value that is found under a name stands in an entry. -/
theorem exists_mem_of_get {es : Entries} {name : String} (h : es.get name ≠ .null) :
    ∃ e ∈ es, e.2 = es.get name := by
  unfold get at h ⊢
  cases hf : es.find? (.str name) with
  | none =>
    rw [hf] at h
    exact absurd rfl h
  | some v =>
    obtain ⟨e, he, rfl⟩ := mem_of_find? hf
    exact ⟨e, he, rfl⟩

end Entries

namespace Node

variable {limit : Limit} {path : Value} {depth : Nat} {es : Entries}

theorem checkDepth_eq_ok : checkDepth limit path depth = .ok () ↔ limit.exceededBy depth = false := by
  unfold checkDepth
  split
  · next h => simp [h]
  · next h => simpa using h

/-- The place of a fragment only matters for errors. -/
theorem basicOf_path {type : Value} {b : Basic} (h : basicOf type path = .ok b) (path' : Value) :
    basicOf type path' = .ok b := by
  unfold basicOf at h ⊢
  obtain ⟨name, hn, h⟩ := bind_eq_ok.1 h
  refine bind_eq_ok.2 ⟨name, hn, ?_⟩
  cases name with
  | str s =>
    cases hb : Basic.ofName? s with
    | none => simp [hb] at h
    | some b' => simpa [hb] using h
  | _ => exact absurd h failShape_ne_ok

theorem readItems_eq :
    readItems limit path depth es =
      if (es.get "items").truthy then
        readFragment limit (childPath path (.str "[]")) (depth + 1) (es.get "items")
      else do
        checkDepth limit (childPath path (.str "[]")) (depth + 1)
        return .nothing := by
  induction es with
  | nil => rfl
  | cons e es ih =>
    obtain ⟨k, v⟩ := e
    rw [readItems, Entries.get_cons]
    cases k.same (.str "items") with
    | true => rfl
    | false => exact ih

theorem readAdditional_eq :
    readAdditional limit path depth es =
      if (es.get "additionalProperties").isMap then do
        return .typed
          (← readFragment limit (childPath path (.str "\x7b\x7d")) (depth + 1) (es.get "additionalProperties"))
      else .ok (if (es.get "additionalProperties").isTrue then .open else .closed) := by
  induction es with
  | nil => rfl
  | cons e es ih =>
    obtain ⟨k, v⟩ := e
    rw [readAdditional, Entries.get_cons]
    cases k.same (.str "additionalProperties") with
    | true => rfl
    | false => exact ih

theorem readProperties_eq :
    readProperties limit path depth es =
      match es.get "properties" with
      | .map members => readMembers limit path depth members
      | v => if v.truthy then .error (.fault .notMapping) else .ok [] := by
  induction es with
  | nil => rfl
  | cons e es ih =>
    obtain ⟨k, v⟩ := e
    rw [Entries.get_cons]
    cases hk : k.same (.str "properties") with
    | false =>
      cases v <;> simp [readProperties, hk, ih]
    | true =>
      cases v with
      | map members => cases members <;> simp [readProperties, hk, readMembers, Value.truthy]
      | scalar s | list xs => simp [readProperties, hk]

/-- The properties that a fragment declares, as they stand there. -/
def Declares (es : Entries) (members : Entries) : Prop :=
  es.get "properties" = .map members ∨ (es.get "properties").truthy = false ∧ members = []

theorem readProperties_eq_ok {ps : List (Scalar × Node)} :
    readProperties limit path depth es = .ok ps ↔
      ∃ members, Declares es members ∧ readMembers limit path depth members = .ok ps := by
  rw [readProperties_eq]
  unfold Declares
  cases es.get "properties" with
  | map members =>
    refine ⟨fun h => ⟨members, .inl rfl, h⟩, ?_⟩
    rintro ⟨members', h | ⟨h, rfl⟩, hm⟩
    · cases h
      exact hm
    · have hn : members = [] := by simpa [Value.truthy] using h
      exact hn ▸ hm
  | scalar s | list xs =>
    constructor
    · intro h
      simp only [] at h
      split at h
      · cases h
      · next ht => exact ⟨[], .inr ⟨by simpa using ht, rfl⟩, h⟩
    · rintro ⟨members, h | ⟨h, rfl⟩, hm⟩
      · cases h
      · simp only [h]
        exact hm

theorem readMembers_eq_ok {members : Entries} {ps : List (Scalar × Node)} :
    readMembers limit path depth members = .ok ps ↔
      ps.map (·.1) = members.map (·.1) ∧ ∀ q ∈ members.zip ps,
        readFragment limit (childPath path q.1.1) (depth + 1) q.1.2 = .ok q.2.2 := by
  induction members generalizing ps with
  | nil => cases ps <;> simp [readMembers]
  | cons e members ih =>
    obtain ⟨k, v⟩ := e
    rw [readMembers]
    simp only [bind_eq_ok, pure_eq_ok, ih]
    constructor
    · rintro ⟨n, hn, ps, ⟨hk, hq⟩, rfl⟩
      refine ⟨by rw [List.map_cons, List.map_cons, hk], ?_⟩
      rw [List.zip_cons_cons]
      exact List.forall_mem_cons.2 ⟨hn, hq⟩
    · rintro ⟨hk, hq⟩
      cases ps with
      | nil => cases hk
      | cons p ps =>
        obtain ⟨k', n⟩ := p
        rw [List.map_cons, List.map_cons, List.cons.injEq] at hk
        obtain ⟨rfl, hk⟩ := hk
        rw [List.zip_cons_cons] at hq
        obtain ⟨hn, hrest⟩ := List.forall_mem_cons.1 hq
        exact ⟨n, hn, ps, ⟨hk, hrest⟩, rfl⟩

/-- Each property was read from a member. -/
theorem exists_mem_zip {members : Entries} {properties : List (Scalar × Node)}
    (hk : properties.map (·.1) = members.map (·.1)) {p : Scalar × Node} (hp : p ∈ properties) :
    ∃ e ∈ members, (e, p) ∈ members.zip properties := by
  have length : properties.length = members.length := by simpa using congrArg List.length hk
  obtain ⟨i, hi, rfl⟩ := List.mem_iff_getElem.1 hp
  refine ⟨members[i], List.getElem_mem _, List.mem_iff_getElem.2 ⟨i, ?_, List.getElem_zip⟩⟩
  rw [List.length_zip]
  omega

/-- Each member was read as a property. -/
theorem exists_mem_zip_of_member {members : Entries} {properties : List (Scalar × Node)}
    (hk : properties.map (·.1) = members.map (·.1)) {e : Scalar × Value} (he : e ∈ members) :
    ∃ p, (e, p) ∈ members.zip properties := by
  have length : properties.length = members.length := by simpa using congrArg List.length hk
  obtain ⟨i, hi, rfl⟩ := List.mem_iff_getElem.1 he
  refine ⟨properties[i], List.mem_iff_getElem.2 ⟨i, ?_, List.getElem_zip⟩⟩
  rw [List.length_zip]
  omega

/-- What the value under the name of additional properties says about them, a schema aside. -/
def Allows {α : Type} (v : Value) : Additional α → Prop
  | .typed _ => v.isMap = true
  | .open => v.isMap = false ∧ v.isTrue = true
  | .closed => v.isMap = false ∧ v.isTrue = false

/-- The ways in which a fragment at a depth is read. -/
inductive Reads (limit : Limit) : Nat → Value → Node → Prop
  | enum {depth : Nat} {es : Entries} {base : Basic} {values : List Value}
      (hd : limit.exceededBy depth = false) (hs : shapeOf es = .enum)
      (hb : basicOf (if (es.get "type").truthy then es.get "type" else .str "string") .null = .ok base)
      (hv : (es.get "enum").elements = .ok values) :
      Reads limit depth (.map es) (.enum (traitsOf es) base values)
  | array {depth : Nat} {es : Entries} {items : Node} (hd : limit.exceededBy depth = false)
      (hs : shapeOf es = .array) (ht : (es.get "items").truthy = true)
      (hi : Reads limit (depth + 1) (es.get "items") items) :
      Reads limit depth (.map es) (.array (traitsOf es) items)
  | bareArray {depth : Nat} {es : Entries} (hd : limit.exceededBy depth = false)
      (hs : shapeOf es = .array) (ht : (es.get "items").truthy = false)
      (hi : limit.exceededBy (depth + 1 : Nat) = false) :
      Reads limit depth (.map es) (.array (traitsOf es) .nothing)
  | map {depth : Nat} {es : Entries} {values : Node} (hd : limit.exceededBy depth = false)
      (hs : shapeOf es = .object) (ht : (es.get "properties").truthy = false)
      (ha : (es.get "additionalProperties").isMap = true)
      (hv : Reads limit (depth + 1) (es.get "additionalProperties") values) :
      Reads limit depth (.map es) (.map (traitsOf es) values)
  | object {depth : Nat} {es members : Entries} {properties : List (Scalar × Node)}
      {required : List Scalar} {additional : Additional Node} (hd : limit.exceededBy depth = false)
      (hs : shapeOf es = .object) (hm : Declares es members)
      (hk : properties.map (·.1) = members.map (·.1))
      (hp : ∀ q ∈ members.zip properties, Reads limit (depth + 1) q.1.2 q.2.2)
      (hr : requiredNames (es.get "required") = .ok required)
      (hw : Allows (es.get "additionalProperties") additional)
      (ht : (es.get "additionalProperties").isMap = true → (es.get "properties").truthy = true)
      (ha : ∀ schema, additional = .typed schema →
        Reads limit (depth + 1) (es.get "additionalProperties") schema) :
      Reads limit depth (.map es) (.object (traitsOf es) properties required additional)
  | any {depth : Nat} {es : Entries} (hd : limit.exceededBy depth = false) (hs : shapeOf es = .any) :
      Reads limit depth (.map es) (.any (traitsOf es))
  | basic {depth : Nat} {es : Entries} {type : Basic} (hd : limit.exceededBy depth = false)
      (hs : shapeOf es = .basic) (hb : basicOf (es.get "type") .null = .ok type) :
      Reads limit depth (.map es) (.basic (traitsOf es) type)

theorem readItems_eq_ok {n : Node} :
    readItems limit path depth es = .ok n ↔
      (es.get "items").truthy = true ∧
          readFragment limit (childPath path (.str "[]")) (depth + 1) (es.get "items") = .ok n ∨
        (es.get "items").truthy = false ∧ limit.exceededBy (depth + 1 : Nat) = false ∧ n = .nothing := by
  rw [readItems_eq]
  cases (es.get "items").truthy with
  | true => simp
  | false =>
    simp only [Bool.false_eq_true, if_false, false_and, false_or, true_and, bind_eq_ok, pure_eq_ok]
    constructor
    · rintro ⟨_, hd, rfl⟩
      exact ⟨checkDepth_eq_ok.1 hd, rfl⟩
    · rintro ⟨hd, rfl⟩
      exact ⟨(), checkDepth_eq_ok.2 hd, rfl⟩

theorem readAdditional_eq_ok {additional : Additional Node} :
    readAdditional limit path depth es = .ok additional ↔
      Allows (es.get "additionalProperties") additional ∧ ∀ schema, additional = .typed schema →
        readFragment limit (childPath path (.str "\x7b\x7d")) (depth + 1) (es.get "additionalProperties") =
          .ok schema := by
  rw [readAdditional_eq]
  unfold Allows
  cases (es.get "additionalProperties").isMap with
  | true =>
    rw [if_pos rfl, bind_eq_ok]
    cases additional <;> simp [pure_eq_ok]
  | false => cases (es.get "additionalProperties").isTrue <;> cases additional <;> simp

/-- Within the limit, the shape of a fragment decides how it is read. -/
theorem readFragment_map (hd : limit.exceededBy depth = false) :
    readFragment limit path depth (.map es) =
      match shapeOf es with
      | .enum => do
        let base ← basicOf (if (es.get "type").truthy then es.get "type" else .str "string") path
        return .enum (traitsOf es) base (← (es.get "enum").elements)
      | .array => return .array (traitsOf es) (← readItems limit path depth es)
      | .object => do
        match ← readAdditional limit path depth es with
        | .typed schema =>
          if (es.get "properties").truthy then
            let properties ← readProperties limit path depth es
            return .object (traitsOf es) properties (← requiredNames (es.get "required")) (.typed schema)
          else return .map (traitsOf es) schema
        | additional =>
          let properties ← readProperties limit path depth es
          return .object (traitsOf es) properties (← requiredNames (es.get "required")) additional
      | .any => return .any (traitsOf es)
      | .basic => return .basic (traitsOf es) (← basicOf (es.get "type") path) := by
  have checked : checkDepth limit path depth = .ok () := checkDepth_eq_ok.2 hd
  rw [readFragment, checked]
  rfl

theorem Reads.run {v : Value} {n : Node} (h : Reads limit depth v n) (path : Value) :
    readFragment limit path depth v = .ok n := by
  induction h generalizing path with
  | enum hd hs hb hv =>
    rw [readFragment_map hd, hs]
    simp only [bind_eq_ok, liftM_eq_ok]
    exact ⟨_, basicOf_path hb path, _, hv, rfl⟩
  | array hd hs ht hi ih =>
    rw [readFragment_map hd, hs]
    exact bind_eq_ok.2 ⟨_, readItems_eq_ok.2 (.inl ⟨ht, ih _⟩), rfl⟩
  | bareArray hd hs ht hi =>
    rw [readFragment_map hd, hs]
    exact bind_eq_ok.2 ⟨_, readItems_eq_ok.2 (.inr ⟨ht, hi, rfl⟩), rfl⟩
  | @map depth es values hd hs ht ha hv ih =>
    have additional : readAdditional limit path depth es = .ok (.typed values) := by
      refine readAdditional_eq_ok.2 ⟨ha, fun schema h => ?_⟩
      cases h
      exact ih _
    rw [readFragment_map hd, hs]
    refine bind_eq_ok.2 ⟨_, additional, ?_⟩
    simp only [ht]
    rfl
  | @object depth es members properties required additional hd hs hm hk hp hr hw ht ha ihp iha =>
    have read : readAdditional limit path depth es = .ok additional :=
      readAdditional_eq_ok.2 ⟨hw, fun schema h => iha schema h _⟩
    have declared : readProperties limit path depth es = .ok properties :=
      readProperties_eq_ok.2 ⟨members, hm, readMembers_eq_ok.2 ⟨hk, fun q hq => ihp q hq _⟩⟩
    rw [readFragment_map hd, hs]
    refine bind_eq_ok.2 ⟨_, read, ?_⟩
    cases additional with
    | typed schema =>
      simp only [ht hw, if_true, bind_eq_ok, liftM_eq_ok]
      exact ⟨properties, declared, required, hr, rfl⟩
    | closed | «open» =>
      simp only [bind_eq_ok, liftM_eq_ok]
      exact ⟨properties, declared, required, hr, rfl⟩
  | any hd hs => rw [readFragment_map hd, hs]; rfl
  | basic hd hs hb =>
    rw [readFragment_map hd, hs]
    exact bind_eq_ok.2 ⟨_, basicOf_path hb path, rfl⟩

/-- Induction on a fragment: its parts are what it has under the names of items and of additional properties,
and the members of its properties. -/
theorem fragment_induction {motive : Value → Prop} (scalar : ∀ s, motive (.scalar s))
    (list : ∀ xs, motive (.list xs))
    (map : ∀ es : Entries, motive (es.get "items") → motive (es.get "additionalProperties") →
      (∀ members, es.get "properties" = .map members → ∀ e ∈ members, motive e.2) → motive (.map es))
    (v : Value) : motive v := by
  -- the members of the properties of a fragment lie two mappings below it
  suffices h : motive v ∧ ∀ es, v = .map es → ∀ e ∈ es, motive e.2 from h.1
  induction v with
  | scalar s => exact ⟨scalar s, fun es he => by cases he⟩
  | list xs => exact ⟨list xs, fun es he => by cases he⟩
  | map es ih =>
    have part (name : String) : motive (Entries.get es name) := by
      by_cases h : Entries.get es name = .null
      · exact h ▸ scalar _
      · obtain ⟨e, he, hg⟩ := Entries.exists_mem_of_get h
        exact hg ▸ (ih e he).1
    refine ⟨map es (part _) (part _) fun members hm e he => ?_, fun es' he e hm => ?_⟩
    · have hn : Entries.get es "properties" ≠ .null := hm ▸ by simp
      obtain ⟨f, hf, hg⟩ := Entries.exists_mem_of_get hn
      exact (ih f hf).2 members (hg.trans hm) e he
    · cases he
      exact (ih e hm).1

theorem reads_of_readProperties {properties : List (Scalar × Node)}
    (members : ∀ declared, es.get "properties" = .map declared → ∀ e ∈ declared,
      ∀ {path : Value} {depth : Nat} {n : Node}, readFragment limit path depth e.2 = .ok n → Reads limit depth e.2 n)
    (h : readProperties limit path depth es = .ok properties) :
    ∃ declared, Declares es declared ∧ properties.map (·.1) = declared.map (·.1) ∧
      ∀ q ∈ declared.zip properties, Reads limit (depth + 1) q.1.2 q.2.2 := by
  obtain ⟨declared, hm, hp⟩ := readProperties_eq_ok.1 h
  obtain ⟨hk, hp⟩ := readMembers_eq_ok.1 hp
  refine ⟨declared, hm, hk, fun q hq => ?_⟩
  rcases hm with hm | ⟨-, rfl⟩
  · exact members declared hm q.1 (List.of_mem_zip hq).1 (hp q hq)
  · cases hq

/-- What is read from a value is read in one of these ways. -/
theorem reads_of_readFragment {v : Value} {n : Node} (h : readFragment limit path depth v = .ok n) :
    Reads limit depth v n := by
  induction v using fragment_induction generalizing path depth n with
  | scalar s | list xs =>
    rw [readFragment] at h
    · obtain ⟨-, -, h⟩ := bind_eq_ok.1 h
      cases h
    · simp
  | map es items additionalProperties members =>
    rw [readFragment] at h
    obtain ⟨_, hd, h⟩ := bind_eq_ok.1 h
    rw [checkDepth_eq_ok] at hd
    cases hs : shapeOf es with
    | enum =>
      simp only [hs, bind_eq_ok, liftM_eq_ok] at h
      obtain ⟨base, hb, values, hv, h⟩ := h
      cases h
      exact .enum hd hs (basicOf_path hb _) hv
    | array =>
      simp only [hs] at h
      obtain ⟨element, hi, h⟩ := bind_eq_ok.1 h
      cases h
      rcases readItems_eq_ok.1 hi with ⟨ht, hr⟩ | ⟨ht, hn, rfl⟩
      · exact .array hd hs ht (items hr)
      · exact .bareArray hd hs ht hn
    | object =>
      simp only [hs] at h
      obtain ⟨additional, ha, h⟩ := bind_eq_ok.1 h
      obtain ⟨hw, ha⟩ := readAdditional_eq_ok.1 ha
      have typed : ∀ schema, additional = .typed schema →
          Reads limit (depth + 1) (Entries.get es "additionalProperties") schema :=
        fun schema hs => additionalProperties (ha schema hs)
      have object {required : List Scalar} {properties : List (Scalar × Node)}
          (hp : readProperties limit path depth es = .ok properties)
          (hr : requiredNames (Entries.get es "required") = .ok required)
          (ht : (Entries.get es "additionalProperties").isMap = true →
            (Entries.get es "properties").truthy = true) :
          Reads limit depth (.map es) (.object (traitsOf es) properties required additional) := by
        obtain ⟨declared, hm, hk, hp⟩ := reads_of_readProperties members hp
        exact .object hd hs hm hk hp hr hw ht typed
      -- only a schema beside no properties makes a map
      cases additional with
      | typed schema =>
        simp only [] at h
        split at h
        · next ht =>
          simp only [bind_eq_ok, liftM_eq_ok] at h
          obtain ⟨properties, hp, required, hr, h⟩ := h
          cases h
          exact object hp hr fun _ => ht
        · next ht =>
          cases h
          exact .map hd hs (by simpa using ht) hw (typed schema rfl)
      | closed | «open» =>
        simp only [bind_eq_ok, liftM_eq_ok] at h
        obtain ⟨properties, hp, required, hr, h⟩ := h
        cases h
        exact object hp hr fun ht => by rw [hw.1] at ht; cases ht
    | any =>
      simp only [hs] at h
      cases h
      exact .any hd hs
    | basic =>
      simp only [hs] at h
      obtain ⟨base, hb, h⟩ := bind_eq_ok.1 h
      cases h
      exact .basic hd hs (basicOf_path hb _)

theorem readFragment_eq_ok {v : Value} {n : Node} :
    readFragment limit path depth v = .ok n ↔ Reads limit depth v n :=
  ⟨reads_of_readFragment, fun h => h.run path⟩

/-- What a raw schema is read from: one that counts as false says nothing. -/
theorem ofValue_eq_ok {raw : Value} {n : Node} :
    ofValue raw path limit = .ok n ↔ Reads limit 0 (if raw.truthy then raw else .map []) n :=
  readFragment_eq_ok

end Node

end ResourceCompiler
