import Mathlib.Data.List.Induction
import Mathlib.Data.List.Nodup
import ResourceCompiler.Naming.Collision
import ResourceCompiler.Proofs.Matched

/-!
# Collisions of identifiers

Which properties share an identifier does not depend on their order, nor does it which of them are
deprecated. So properties that match in some order pass the check together (`checkCollisions_matched`)
and give way together. Where the check passes, the properties that are kept have distinct identifiers
(`keptProperties_nodup`).
-/

namespace ResourceCompiler

/-- One property's name with fragments that say the same beside their shapes. -/
def SameTraits (p q : Scalar × Node) : Prop := p.1 = q.1 ∧ p.2.traits = q.2.traits

namespace Group

/-- The properties of an identifier. -/
def membersOf (s : Sanitizer) (properties : List (Scalar × Node)) (identifier : String) :
    List (Scalar × Node) :=
  properties.filter fun p => s.identifier p.1.text = identifier

/-- The groups of some properties: each identifier once, with all properties that have it. -/
structure Groups (s : Sanitizer) (properties : List (Scalar × Node)) (groups : List Group) : Prop where
  distinct : (groups.map (·.identifier)).Nodup
  members : ∀ g ∈ groups, g.members = membersOf s properties g.identifier
  covers : ∀ p ∈ properties, ∃ g ∈ groups, g.identifier = s.identifier p.1.text

theorem add_of_not_mem {identifier : String} {member : Scalar × Node} {groups : List Group}
    (h : identifier ∉ groups.map (·.identifier)) :
    add identifier member groups = groups ++ [⟨identifier, [member]⟩] := by
  induction groups with
  | nil => rfl
  | cons g groups ih =>
    rw [List.map_cons, List.mem_cons, not_or] at h
    rw [add, if_neg (Ne.symm h.1), ih h.2, List.cons_append]

theorem add_of_mem {identifier : String} {member : Scalar × Node} {groups : List Group}
    (h : identifier ∈ groups.map (·.identifier)) (hn : (groups.map (·.identifier)).Nodup) :
    add identifier member groups = groups.map fun g =>
      if g.identifier = identifier then { g with members := g.members ++ [member] } else g := by
  induction groups with
  | nil => cases h
  | cons g groups ih =>
    rw [List.map_cons, List.nodup_cons] at hn
    rw [add, List.map_cons]
    by_cases hg : g.identifier = identifier
    · subst hg
      have others : groups.map (fun g' =>
          if g'.identifier = g.identifier then { g' with members := g'.members ++ [member] } else g') =
            groups := by
        refine (List.map_congr_left fun g' hg' => if_neg fun he => ?_).trans (List.map_id groups)
        exact hn.1 (he ▸ List.mem_map_of_mem hg')
      rw [if_pos rfl, if_pos rfl, others]
    · have h : identifier ∈ groups.map (·.identifier) := by
        rw [List.map_cons, List.mem_cons] at h
        exact h.resolve_left (Ne.symm hg)
      rw [if_neg hg, if_neg hg, ih h hn.2]

theorem membersOf_concat (s : Sanitizer) (properties : List (Scalar × Node)) (p : Scalar × Node)
    (identifier : String) : membersOf s (properties ++ [p]) identifier =
      membersOf s properties identifier ++ if s.identifier p.1.text = identifier then [p] else [] := by
  rw [membersOf, List.filter_append, membersOf]
  by_cases h : s.identifier p.1.text = identifier <;> simp [h]

section

variable {s : Sanitizer} {properties : List (Scalar × Node)} {groups : List Group} {p : Scalar × Node}

theorem Groups.membersOf_eq_nil (h : Groups s properties groups) {identifier : String}
    (hm : identifier ∉ groups.map (·.identifier)) : membersOf s properties identifier = [] := by
  rw [membersOf, List.filter_eq_nil_iff]
  intro q hq he
  obtain ⟨g, hg, hi⟩ := h.covers q hq
  exact hm (by rw [← of_decide_eq_true he, ← hi]; exact List.mem_map_of_mem hg)

/-- A property of a new identifier makes a group of its own. -/
theorem Groups.concat (h : Groups s properties groups)
    (hm : s.identifier p.1.text ∉ groups.map (·.identifier)) :
    Groups s (properties ++ [p]) (groups ++ [⟨s.identifier p.1.text, [p]⟩]) where
  distinct := by
    rw [List.map_append, List.nodup_append]
    refine ⟨h.distinct, List.nodup_singleton _, fun i hi j hj he => hm ?_⟩
    have hj : j = s.identifier p.1.text := List.mem_singleton.1 hj
    rwa [he, hj] at hi
  members g hg := by
    rcases List.mem_append.1 hg with hg | hg
    · have he : s.identifier p.1.text ≠ g.identifier := fun he => hm (he ▸ List.mem_map_of_mem hg)
      simp [membersOf_concat, he, h.members g hg]
    · rw [List.mem_singleton.1 hg, membersOf_concat, h.membersOf_eq_nil hm, if_pos rfl, List.nil_append]
  covers q hq := by
    rcases List.mem_append.1 hq with hq | hq
    · obtain ⟨g, hg, he⟩ := h.covers q hq
      exact ⟨g, List.mem_append_left _ hg, he⟩
    · exact ⟨_, List.mem_append_right _ (List.mem_singleton_self _), by rw [List.mem_singleton.1 hq]⟩

/-- A property of an identifier that has a group joins it. -/
theorem Groups.join (h : Groups s properties groups)
    (hm : s.identifier p.1.text ∈ groups.map (·.identifier)) :
    Groups s (properties ++ [p]) (groups.map fun g =>
      if g.identifier = s.identifier p.1.text then { g with members := g.members ++ [p] } else g) := by
  have identifiers : (groups.map fun g => if g.identifier = s.identifier p.1.text then
      { g with members := g.members ++ [p] } else g).map (·.identifier) = groups.map (·.identifier) := by
    rw [List.map_map]
    refine List.map_congr_left fun g _ => ?_
    simp only [Function.comp_apply]
    split <;> rfl
  refine ⟨identifiers ▸ h.distinct, fun g' hg' => ?_, fun q hq => ?_⟩
  · obtain ⟨g, hg, rfl⟩ := List.mem_map.1 hg'
    split
    · next he => simp [membersOf_concat, he, h.members g hg]
    · next he => simp [membersOf_concat, Ne.symm he, h.members g hg]
  · have hq : s.identifier q.1.text ∈ groups.map (·.identifier) := by
      rcases List.mem_append.1 hq with hq | hq
      · obtain ⟨g, hg, he⟩ := h.covers q hq
        exact List.mem_map.2 ⟨g, hg, he⟩
      · rw [List.mem_singleton.1 hq]
        exact hm
    rw [← identifiers] at hq
    exact List.mem_map.1 hq

theorem Groups.add (h : Groups s properties groups) (p : Scalar × Node) :
    Groups s (properties ++ [p]) (add (s.identifier p.1.text) p groups) := by
  by_cases hm : s.identifier p.1.text ∈ groups.map (·.identifier)
  · rw [add_of_mem hm h.distinct]
    exact h.join hm
  · rw [add_of_not_mem hm]
    exact h.concat hm

end

theorem groups_ofProperties (s : Sanitizer) (properties : List (Scalar × Node)) :
    Groups s properties (ofProperties s properties) := by
  induction properties using List.reverseRecOn with
  | nil => exact ⟨.nil, by simp [ofProperties], by simp⟩
  | append_singleton properties p ih =>
    rw [ofProperties, List.foldl_append]
    exact ih.add p

/-- Whether the properties of an identifier are reduced to one, told from their marks alone. -/
def Reduced (marks : List (Except Fault Bool)) : Prop :=
  marks.length ≤ 1 ∨ ∃ deprecated : List Bool, marks = deprecated.map .ok ∧ deprecated.length ≤ 2 ∧
    deprecated.count false = 1

theorem Reduced.perm {marks marks' : List (Except Fault Bool)} (h : Reduced marks) (hp : marks'.Perm marks) :
    Reduced marks' := by
  rcases h with h | ⟨deprecated, rfl, hl, hc⟩
  · exact .inl (hp.length_eq ▸ h)
  · obtain ⟨deprecated', rfl, hd⟩ := exists_map_of_perm hp
    exact .inr ⟨deprecated', rfl, hd.length_eq ▸ hl, hd.count_eq false ▸ hc⟩

theorem marks_eq_ok {members : List (Scalar × Node)} {deprecated : List Bool} :
    (members.mapM fun (_, node) => (liftM node.isDeprecated : Except Failure Bool)) = .ok deprecated ↔
      members.map (·.2.isDeprecated) = deprecated.map .ok := by
  induction members generalizing deprecated with
  | nil => cases deprecated <;> simp [pure_eq_ok]
  | cons p members ih =>
    rw [List.mapM_cons]
    simp only [bind_eq_ok, liftM_eq_ok, pure_eq_ok, ih]
    cases deprecated with
    | nil => simp
    | cons b deprecated => simp

theorem check_eq_ok {g : Group} {path : String} :
    g.check path = .ok () ↔ Reduced (g.members.map (·.2.isDeprecated)) := by
  unfold check Reduced
  split
  · next h => simp [h]
  · next p h => simp [h]
  · next members h₀ h₁ =>
    have long : 2 ≤ g.members.length := by
      match hm : g.members with
      | [] => exact absurd hm h₀
      | [p] => exact absurd hm (h₁ p)
      | _ :: _ :: _ => simp
    rw [bind_eq_ok]
    simp only [marks_eq_ok]
    constructor
    · rintro ⟨deprecated, hm, h⟩
      have length : g.members.length = deprecated.length := by simpa using congrArg List.length hm
      split at h
      · cases h
      · next hc =>
        rw [Bool.or_eq_true, decide_eq_true_eq, decide_eq_true_eq, not_or, not_not] at hc
        exact .inr ⟨deprecated, hm, by omega, hc.2⟩
    · rintro (h | ⟨deprecated, hm, hl, hc⟩)
      · rw [List.length_map] at h
        omega
      · have length : g.members.length = deprecated.length := by simpa using congrArg List.length hm
        have few : ¬ g.members.length > 2 := by omega
        exact ⟨deprecated, hm, by simp [few, hc, pure_eq_ok]⟩

end Group

variable {s : Sanitizer} {properties properties' : List (Scalar × Node)} {path : String}

theorem checkCollisions_eq_ok :
    checkCollisions s properties path = .ok () ↔ ∀ p ∈ properties,
      Group.Reduced ((Group.membersOf s properties (s.identifier p.1.text)).map (·.2.isDeprecated)) := by
  have groups := Group.groups_ofProperties s properties
  unfold checkCollisions
  simp only [forM_eq_ok, Group.check_eq_ok]
  constructor
  · intro h p hp
    obtain ⟨g, hg, hi⟩ := groups.covers p hp
    rw [← hi, ← groups.members g hg]
    exact h g hg
  · intro h g hg
    rw [groups.members g hg]
    cases hm : Group.membersOf s properties g.identifier with
    | nil => exact .inl (by simp)
    | cons p rest =>
      have hp : p ∈ Group.membersOf s properties g.identifier := hm ▸ List.mem_cons_self
      obtain ⟨hp, hi⟩ := List.mem_filter.1 hp
      rw [← hm, ← of_decide_eq_true hi]
      exact h p hp

theorem Group.membersOf_matched {R : Scalar × Node → Scalar × Node → Prop}
    (hr : ∀ p q, R p q → SameTraits p q) (hm : Matched R properties properties') (identifier : String) :
    Matched R (membersOf s properties identifier) (membersOf s properties' identifier) :=
  hm.filter fun p q h => by rw [(hr p q h).1]

theorem checkCollisions_matched (hm : Matched SameTraits properties properties')
    (h : checkCollisions s properties path = .ok ()) : checkCollisions s properties' path = .ok () := by
  rw [checkCollisions_eq_ok] at h ⊢
  intro p' hp'
  obtain ⟨p, hp, same⟩ := hm.exists_left hp'
  have members := Group.membersOf_matched (s := s) (fun _ _ => id) hm (s.identifier p'.1.text)
  refine (same.1 ▸ h p hp).perm (members.map_perm fun q q' hq => ?_).symm
  unfold Node.isDeprecated
  rw [hq.2]

/-- Properties that match keep those that match. -/
theorem keptProperties_matched {R : Scalar × Node → Scalar × Node → Prop}
    (hr : ∀ p q, R p q → SameTraits p q) (hm : Matched R properties properties') :
    Matched R (keptProperties s properties) (keptProperties s properties') := by
  refine hm.filter fun p q h => ?_
  obtain ⟨name, traits⟩ := hr p q h
  have marked : p.2.isMarked = q.2.isMarked := by
    unfold Node.isMarked Node.isDeprecated
    rw [traits]
  have many : properties.countP (fun p' => s.identifier p'.1.text = s.identifier p.1.text) =
      properties'.countP fun q' => s.identifier q'.1.text = s.identifier q.1.text := by
    rw [List.countP_eq_length_filter, List.countP_eq_length_filter, name]
    exact (Group.membersOf_matched hr hm _).length_eq
  rw [givesWay, givesWay, marked, many]

theorem Group.isMarked_eq {members : List (Scalar × Node)} {deprecated : List Bool}
    (h : members.map (·.2.isDeprecated) = deprecated.map .ok) : members.map (·.2.isMarked) = deprecated := by
  induction members generalizing deprecated with
  | nil =>
    rw [List.map_nil] at h
    exact (List.map_eq_nil_iff.1 h.symm).symm
  | cons p members ih =>
    cases deprecated with
    | nil => cases h
    | cons b deprecated =>
      obtain ⟨hb, h⟩ := List.cons.inj h
      have hb : p.2.isDeprecated = .ok b := hb
      rw [List.map_cons, ih h, Node.isMarked, hb]

/-- What is kept has distinct identifiers: of a pair only the member that is not deprecated is left. -/
theorem keptProperties_nodup (h : checkCollisions s properties path = .ok ()) :
    ((keptProperties s properties).map fun p => s.identifier p.1.text).Nodup := by
  rw [List.nodup_iff_count_le_one]
  intro identifier
  have kept : List.count identifier ((keptProperties s properties).map fun p => s.identifier p.1.text) =
      (Group.membersOf s properties identifier).countP (!givesWay s properties ·) := by
    rw [List.count_eq_countP, List.countP_map, keptProperties, Group.membersOf, List.countP_filter,
      List.countP_filter]
    exact List.countP_congr fun p _ => by simp [and_comm]
  rw [kept]
  by_cases few : (Group.membersOf s properties identifier).length ≤ 1
  · exact Nat.le_trans List.countP_le_length few
  obtain ⟨p, hp⟩ := List.exists_mem_of_length_pos (l := Group.membersOf s properties identifier) (by omega)
  obtain ⟨hp, hi⟩ := List.mem_filter.1 hp
  have reduced := checkCollisions_eq_ok.1 h p hp
  rw [of_decide_eq_true hi] at reduced
  rcases reduced with hl | ⟨deprecated, marks, -, one⟩
  · exact absurd (by simpa using hl) few
  -- in a group of several properties those that are marked give way
  have marked : ∀ q ∈ Group.membersOf s properties identifier, givesWay s properties q = q.2.isMarked := by
    intro q hq
    have same := of_decide_eq_true (List.mem_filter.1 hq).2
    have many : 1 < properties.countP fun p => s.identifier p.1.text = s.identifier q.1.text := by
      rw [same, List.countP_eq_length_filter]
      exact Nat.lt_of_not_le few
    rw [givesWay, decide_eq_true many, Bool.and_true]
  calc (Group.membersOf s properties identifier).countP (!givesWay s properties ·)
      = (Group.membersOf s properties identifier).countP (!·.2.isMarked) :=
        List.countP_congr fun q hq => by rw [marked q hq]
    _ = List.count false ((Group.membersOf s properties identifier).map (·.2.isMarked)) := by
        rw [List.count_eq_countP, List.countP_map]
        exact List.countP_congr fun q _ => by simp
    _ ≤ 1 := by
        rw [Group.isMarked_eq marks]
        exact Nat.le_of_eq one

end ResourceCompiler
