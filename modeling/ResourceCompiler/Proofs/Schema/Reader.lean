import ResourceCompiler.Proofs.Schema.Reading

/-!
# Trees without repeated properties

A tree read from data in which no mapping repeats a key has no object that repeats a property
(`ofValue_keysDistinct`): the properties of an object have the keys of the mapping that declares them.
-/

namespace ResourceCompiler

namespace Node

/-- No object in the tree has a property twice. -/
inductive KeysDistinct : Node → Prop
  | object {traits : Traits} {properties : List (Scalar × Node)} {required : List Scalar}
      {additional : Additional Node} (distinct : properties.Pairwise fun p q => p.1.same q.1 = false)
      (member : ∀ p ∈ properties, KeysDistinct p.2)
      (schema : ∀ s, additional = .typed s → KeysDistinct s) :
      KeysDistinct (.object traits properties required additional)
  | array {traits : Traits} {items : Node} (h : KeysDistinct items) : KeysDistinct (.array traits items)
  | map {traits : Traits} {values : Node} (h : KeysDistinct values) : KeysDistinct (.map traits values)
  | enum {traits : Traits} {base : Basic} {values : List Value} : KeysDistinct (.enum traits base values)
  | basic {traits : Traits} {type : Basic} : KeysDistinct (.basic traits type)
  | any {traits : Traits} : KeysDistinct (.any traits)

namespace KeysDistinct

variable {n : Node}

theorem properties (h : n.KeysDistinct) : n.properties.Pairwise fun p q => p.1.same q.1 = false := by
  cases h with
  | object distinct => exact distinct
  | _ => exact .nil

theorem member (h : n.KeysDistinct) : ∀ p ∈ n.properties, p.2.KeysDistinct := by
  cases h with
  | object _ member => exact member
  | _ => exact fun p hp => by cases hp

theorem property? {name : String} {m : Node} (h : n.KeysDistinct) (hm : n.property? name = some m) :
    m.KeysDistinct := by
  obtain ⟨p, hp, rfl⟩ := Option.map_eq_some_iff.1 hm
  exact h.member p (List.mem_of_find?_eq_some hp)

end KeysDistinct

variable {limit : Limit} {path : Value} {depth : Nat} {es : Entries}

theorem Declares.distinct {members : Entries} (h : Declares es members) (hes : es.Distinct) :
    (Value.map members).keysDistinct := by
  rcases h with h | ⟨-, rfl⟩
  · exact h ▸ hes.get "properties"
  · rfl

theorem Reads.keysDistinct {v : Value} {n : Node} (h : Reads limit depth v n) (hv : v.keysDistinct) :
    n.KeysDistinct := by
  induction h with
  | enum => exact .enum
  | @array _ es _ _ _ _ _ ih =>
    have hes : Entries.Distinct es := (Value.keysDistinct_map.1 hv).2
    exact .array (ih (hes.get "items"))
  | bareArray => exact .array .any
  | @map _ es _ _ _ _ _ _ ih =>
    have hes : Entries.Distinct es := (Value.keysDistinct_map.1 hv).2
    exact .map (ih (hes.get "additionalProperties"))
  | @object _ es members properties _ _ _ _ hm hk _ _ _ _ _ ihp iha =>
    have hes : Entries.Distinct es := (Value.keysDistinct_map.1 hv).2
    obtain ⟨distinct, values⟩ := Value.keysDistinct_map.1 (hm.distinct hes)
    refine .object ?_ (fun p hp => ?_) fun schema hs => iha schema hs (hes.get "additionalProperties")
    · have keys : (members.map (·.1)).Pairwise fun k l => k.same l = false := List.pairwise_map.2 distinct
      rw [← hk] at keys
      exact List.pairwise_map.1 keys
    · obtain ⟨e, he, hq⟩ := exists_mem_zip hk hp
      exact ihp _ hq (values e he)
  | any => exact .any
  | basic => exact .basic

theorem ofValue_keysDistinct {raw : Value} {n : Node} (hr : raw.keysDistinct)
    (h : ofValue raw path limit = .ok n) : n.KeysDistinct := by
  refine (ofValue_eq_ok.1 h).keysDistinct ?_
  split
  · exact hr
  · rfl

end Node

end ResourceCompiler
