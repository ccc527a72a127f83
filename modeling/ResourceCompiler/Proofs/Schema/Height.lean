import ResourceCompiler.Proofs.Limit
import ResourceCompiler.Proofs.Schema.Reading

/-!
# How deep a schema nests

`Node.height` counts levels the way a fragment is read: a property, the items of an array and the schema of
additional properties lie one level below their fragment, and an array has items even where it does not say
which. A tree is only read under limits that reach its height (`Reads.reaches`).
-/

namespace ResourceCompiler

namespace Node

mutual

/-- How many levels lie below a fragment. -/
def height : Value → Nat
  | .map entries =>
    match shapeOf entries with
    | .array => itemsHeight entries + 1
    | .object => max (additionalHeight entries) (propertiesHeight entries)
    | .enum | .any | .basic => 0
  | _ => 0
termination_by structural v => v

/-- The height of an array's items, none where they are absent. -/
def itemsHeight : List (Scalar × Value) → Nat
  | [] => 0
  | (k, v) :: rest => if k.same (.str "items") then height v else itemsHeight rest
termination_by structural es => es

def additionalHeight : List (Scalar × Value) → Nat
  | [] => 0
  | (k, v) :: rest =>
    if k.same (.str "additionalProperties") then if v.isMap then height v + 1 else 0
    else additionalHeight rest
termination_by structural es => es

def propertiesHeight : List (Scalar × Value) → Nat
  | [] => 0
  | (k, v) :: rest =>
    if k.same (.str "properties") then
      match v with
      | .map members => membersHeight members
      | _ => 0
    else propertiesHeight rest
termination_by structural es => es

def membersHeight : List (Scalar × Value) → Nat
  | [] => 0
  | (_, v) :: rest => max (height v + 1) (membersHeight rest)
termination_by structural es => es

end

variable {limit : Limit} {depth : Nat} {es : Entries}

theorem itemsHeight_eq : itemsHeight es = height (es.get "items") := by
  induction es with
  | nil => rfl
  | cons e es ih =>
    rw [itemsHeight, Entries.get_cons, ih]
    split <;> rfl

theorem additionalHeight_eq : additionalHeight es =
    if (es.get "additionalProperties").isMap then height (es.get "additionalProperties") + 1 else 0 := by
  induction es with
  | nil => rfl
  | cons e es ih =>
    rw [additionalHeight, Entries.get_cons, ih]
    split <;> rfl

theorem propertiesHeight_eq : propertiesHeight es =
    match es.get "properties" with
    | .map members => membersHeight members
    | _ => 0 := by
  induction es with
  | nil => rfl
  | cons e es ih =>
    obtain ⟨k, v⟩ := e
    rw [Entries.get_cons]
    cases hk : k.same (.str "properties") with
    | false => cases v <;> simp [propertiesHeight, hk, ih]
    | true => cases v <;> simp [propertiesHeight, hk]

theorem height_array (hs : shapeOf es = .array) : height (.map es) = height (es.get "items") + 1 := by
  rw [height, hs]
  exact congrArg (· + 1) itemsHeight_eq

theorem height_object (hs : shapeOf es = .object) :
    height (.map es) = max (additionalHeight es) (propertiesHeight es) := by
  rw [height, hs]

/-- What counts as false says nothing. -/
theorem height_of_falsy {v : Value} (h : v.truthy = false) : height v = 0 := by
  cases v with
  | map es =>
    cases es with
    | nil => rfl
    | cons => cases h
  | _ => rfl

theorem propertiesHeight_of_falsy (h : (es.get "properties").truthy = false) : propertiesHeight es = 0 := by
  rw [propertiesHeight_eq]
  split
  · next members hm =>
    rw [hm] at h
    obtain rfl : members = [] := by simpa [Value.truthy] using h
    rfl
  · rfl

theorem reaches_max {a b : Nat} (ha : limit.exceededBy (depth + a : Nat) = false)
    (hb : limit.exceededBy (depth + b : Nat) = false) : limit.exceededBy (depth + max a b : Nat) = false := by
  rw [Nat.max_def]
  split
  · exact hb
  · exact ha

theorem reaches_succ {a : Nat} (h : limit.exceededBy (depth + 1 + a : Nat) = false) :
    limit.exceededBy (depth + (a + 1) : Nat) = false := by
  rwa [Nat.add_comm a, ← Nat.add_assoc]

theorem reaches_membersHeight {members : Entries} (hd : limit.exceededBy depth = false)
    (h : ∀ e ∈ members, limit.exceededBy (depth + 1 + height e.2 : Nat) = false) :
    limit.exceededBy (depth + membersHeight members : Nat) = false := by
  induction members with
  | nil => exact hd
  | cons e members ih =>
    obtain ⟨first, rest⟩ := List.forall_mem_cons.1 h
    exact reaches_max (reaches_succ first) (ih rest)

/-- A tree that was read lies within the limit as a whole. -/
theorem Reads.reaches {v : Value} {n : Node} (h : Reads limit depth v n) :
    limit.exceededBy (depth + height v : Nat) = false := by
  induction h with
  | enum hd hs | any hd hs | basic hd hs =>
    rw [height, hs]
    exact hd
  | array _ hs _ _ ih =>
    rw [height_array hs]
    exact reaches_succ ih
  | bareArray _ hs ht hi =>
    rw [height_array hs, height_of_falsy ht]
    exact hi
  | @map depth es _ hd hs ht ha hv ih =>
    have additional : limit.exceededBy (depth + additionalHeight es : Nat) = false := by
      rw [additionalHeight_eq, if_pos ha]
      exact reaches_succ ih
    rw [height_object hs]
    refine reaches_max additional ?_
    rw [propertiesHeight_of_falsy ht]
    exact hd
  | @object depth es members properties _ additional hd hs hm hk _ _ hw _ _ ihp iha =>
    -- the height is that of a schema for other keys or of a property, and both were read
    have additionalReached : limit.exceededBy (depth + additionalHeight es : Nat) = false := by
      rw [additionalHeight_eq]
      cases additional with
      | typed schema =>
        have isMap : (es.get "additionalProperties").isMap = true := hw
        rw [if_pos isMap]
        exact reaches_succ (iha schema rfl)
      | closed | «open» =>
        rw [hw.1]
        exact hd
    rw [height_object hs]
    refine reaches_max additionalReached ?_
    rcases hm with hm | ⟨ht, rfl⟩
    · rw [propertiesHeight_eq, hm]
      refine reaches_membersHeight hd fun e he => ?_
      obtain ⟨p, hq⟩ := exists_mem_zip_of_member hk he
      exact ihp _ hq
    · rw [propertiesHeight_of_falsy ht]
      exact hd

end Node

end ResourceCompiler
