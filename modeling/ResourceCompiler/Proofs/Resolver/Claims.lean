import Mathlib.Data.List.Basic
import ResourceCompiler.Proofs.Key
import ResourceCompiler.Proofs.Resolver.Steps

/-!
# Which property generated a type

A class notes for each type which property generated it, and refuses a second one: contributions can be
added in whatever order exactly when any two of them that have an artifact of one name come from the
same property (`exists_adds_iff`). So the artifacts of all its members have distinct names as soon as
those of each single member do (`Adds.tracks`).
-/

namespace ResourceCompiler

namespace Contribution

/-- Two contributions with an artifact of one name come from one property. -/
def Agree (c d : Contribution) : Prop :=
  ∀ a ∈ c.artifacts, ∀ b ∈ d.artifacts, a.name = b.name → c.property.same d.property

/-- The artifacts that other members have as well come from the same property there. -/
def Fits (c : Contribution) (m : Members) : Prop :=
  ∀ a ∈ c.artifacts, ∀ q, m.claimed.lookup a.name = some q → q.same c.property

theorem Agree.symm {c d : Contribution} (h : c.Agree d) : d.Agree c :=
  fun a ha b hb hn => Scalar.same_symm (h b hb a ha hn.symm)

end Contribution

namespace Members

variable {path : String} {m m' : Members} {property : Scalar} {artifacts : List Descriptor}

/-- After noting the artifacts of a property, each of them has its first property. -/
theorem claim_lookup {claimed claimed' : List (String × Scalar)}
    (h : claim claimed property artifacts path = .ok claimed') (n : String) :
    claimed'.lookup n =
      if n ∈ artifacts.map (·.name) then some ((claimed.lookup n).getD property) else claimed.lookup n := by
  induction artifacts generalizing claimed with
  | nil =>
    cases h
    rfl
  | cons a as ih =>
    unfold claim at h
    simp only [] at h
    split at h
    · rw [ih h, List.map_cons, List.lookup_cons]
      by_cases hn : n = a.name
      · subst hn
        simp
      · simp [hn, beq_eq_false_iff_ne.2 hn]
    · cases h

theorem exists_claim_iff {claimed : List (String × Scalar)} :
    (∃ claimed', claim claimed property artifacts path = .ok claimed') ↔
      ∀ a ∈ artifacts, ((claimed.lookup a.name).getD property).same property := by
  induction artifacts generalizing claimed with
  | nil => simp [claim]
  | cons a as ih =>
    unfold claim
    simp only [List.forall_mem_cons]
    split
    · next hs =>
      rw [ih]
      -- the new entry repeats the old one or fills a gap
      have same_first : ∀ b : Descriptor,
          (List.lookup b.name ((a.name, (claimed.lookup a.name).getD property) :: claimed)).getD property =
            (claimed.lookup b.name).getD property := by
        intro b
        rw [List.lookup_cons]
        by_cases hb : b.name = a.name
        · simp [hb]
        · simp [beq_eq_false_iff_ne.2 hb]
      simp only [same_first, hs, true_and]
    · next hs => simp [hs]

/-- What noting the artifacts of a property does. -/
structure Claims (claimed : List (String × Scalar)) (property : Scalar) (artifacts : List Descriptor)
    (claimed' : List (String × Scalar)) : Prop where
  agree : ∀ a ∈ artifacts, ∀ q, claimed.lookup a.name = some q → q.same property
  kept : ∀ n q, claimed.lookup n = some q → claimed'.lookup n = some q
  noted : ∀ a ∈ artifacts, ∃ q, claimed'.lookup a.name = some q
  origin : ∀ n q, claimed'.lookup n = some q → q = property ∨ claimed.lookup n = some q

theorem claim_ok {claimed claimed' : List (String × Scalar)}
    (h : claim claimed property artifacts path = .ok claimed') :
    Claims claimed property artifacts claimed' := by
  have agree := exists_claim_iff.1 ⟨_, h⟩
  refine ⟨fun a ha q hq => ?_, fun n q hq => ?_, fun a ha => ?_, fun n q hq => ?_⟩
  · simpa [hq] using agree a ha
  · rw [claim_lookup h, hq]
    simp
  · rw [claim_lookup h, if_pos (List.mem_map_of_mem ha)]
    exact ⟨_, rfl⟩
  · rw [claim_lookup h] at hq
    split at hq
    · cases hl : claimed.lookup n <;> simp_all
    · exact .inr hq

/-- An artifact is refused when its type was noted for another property, or when the property is not the same as
itself. -/
theorem claim_error {claimed : List (String × Scalar)} {e : Failure}
    (h : claim claimed property artifacts path = .error e) :
    ∃ a ∈ artifacts, ∃ first, first.same property = false ∧ (claimed.lookup a.name = some first ∨ first = property) ∧
      e = .generator (.duplicateType a.name [first, property] (.str path)) := by
  induction artifacts generalizing claimed with
  | nil => cases h
  | cons a as ih =>
    unfold claim at h
    simp only [] at h
    split at h
    · obtain ⟨b, hb, first, differs, noted, he⟩ := ih h
      refine ⟨b, List.mem_cons_of_mem _ hb, first, differs, ?_, he⟩
      rw [List.lookup_cons] at noted
      by_cases hn : b.name = a.name
      · -- the new entry repeats the old one or names the property itself
        rw [hn, beq_self_eq_true] at noted
        rw [hn]
        rcases noted with noted | rfl
        · rw [← Option.some.inj noted]
          cases claimed.lookup a.name <;> simp
        · exact .inr rfl
      · simpa [beq_eq_false_iff_ne.2 hn] using noted
    · next differs =>
      cases h
      refine ⟨a, List.mem_cons_self, _, Bool.eq_false_iff.2 differs, ?_, rfl⟩
      cases claimed.lookup a.name <;> simp

theorem exists_add_iff {c : Contribution} :
    (∃ m', m.add c.field c.property c.artifacts path = .ok m') ↔ c.Fits m ∧ c.Agree c := by
  have claimable : (∃ m', m.add c.field c.property c.artifacts path = .ok m') ↔
      ∀ a ∈ c.artifacts, ((m.claimed.lookup a.name).getD c.property).same c.property := by
    rw [← @exists_claim_iff path]
    constructor
    · rintro ⟨m', h⟩
      exact ⟨m'.claimed, (add_ok h).2.2⟩
    · rintro ⟨claimed, hc⟩
      exact ⟨_, bind_eq_ok.2 ⟨claimed, hc, rfl⟩⟩
  rw [claimable]
  constructor
  · intro h
    refine ⟨fun a ha q hq => by simpa [hq] using h a ha, fun a ha _ _ _ => ?_⟩
    exact Scalar.same_trans (Scalar.same_symm (h a ha)) (h a ha)
  · rintro ⟨fits, self⟩ a ha
    cases hl : m.claimed.lookup a.name with
    | none => exact self a ha a ha rfl
    | some q => exact fits a ha q hl

theorem fits_add {c d : Contribution} (h : m.add c.field c.property c.artifacts path = .ok m') :
    d.Fits m' ↔ d.Fits m ∧ c.Agree d := by
  have noted := claim_lookup (add_ok h).2.2
  have fits := (exists_add_iff.1 ⟨m', h⟩).1
  constructor
  · intro hd
    refine ⟨fun b hb q hq => hd b hb q ((claim_ok (add_ok h).2.2).kept _ q hq), fun a ha b hb hn => ?_⟩
    have there := noted b.name
    rw [← hn, if_pos (List.mem_map_of_mem ha), hn] at there
    have first := hd b hb _ there
    cases hl : m.claimed.lookup b.name with
    | none => rwa [hl] at first
    | some q =>
      rw [hl] at first
      exact Scalar.same_trans (Scalar.same_symm (fits a ha q (hn ▸ hl))) first
  · rintro ⟨hd, agree⟩ b hb q hq
    rw [noted] at hq
    split at hq
    · next hm =>
      obtain ⟨a, ha, hn⟩ := List.mem_map.1 hm
      cases hq
      cases hl : m.claimed.lookup b.name with
      | none => exact agree a ha b hb hn
      | some q => exact hd b hb q hl
    · exact hd b hb q hq

theorem exists_adds_from_iff {cs : List Contribution} :
    (∃ m', Adds path m cs m') ↔ (∀ c ∈ cs, c.Fits m) ∧ ∀ c ∈ cs, ∀ d ∈ cs, c.Agree d := by
  induction cs generalizing m with
  | nil => exact ⟨fun _ => ⟨by simp, by simp⟩, fun _ => ⟨m, .nil m⟩⟩
  | cons c cs ih =>
    constructor
    · rintro ⟨m', h⟩
      cases h with
      | cons step rest =>
        obtain ⟨fits, agree⟩ := ih.1 ⟨m', rest⟩
        obtain ⟨here, self⟩ := exists_add_iff.1 ⟨_, step⟩
        have later : ∀ d ∈ cs, d.Fits m ∧ c.Agree d := fun d hd => (fits_add step).1 (fits d hd)
        refine ⟨List.forall_mem_cons.2 ⟨here, fun d hd => (later d hd).1⟩, List.forall_mem_cons.2 ⟨?_, ?_⟩⟩
        · exact List.forall_mem_cons.2 ⟨self, fun d hd => (later d hd).2⟩
        · intro d hd
          exact List.forall_mem_cons.2 ⟨(later d hd).2.symm, agree d hd⟩
    · rintro ⟨fits, agree⟩
      have head := List.forall_mem_cons.1 (agree c List.mem_cons_self)
      obtain ⟨m₁, step⟩ := exists_add_iff.2 ⟨fits c List.mem_cons_self, head.1⟩
      have rest : ∃ m', Adds path m₁ cs m' := by
        refine ih.2 ⟨fun d hd => ?_, fun d hd e he => ?_⟩
        · exact (fits_add step).2 ⟨fits d (List.mem_cons_of_mem _ hd), head.2 d hd⟩
        · exact agree d (List.mem_cons_of_mem _ hd) e (List.mem_cons_of_mem _ he)
      obtain ⟨m', h⟩ := rest
      exact ⟨m', .cons step h⟩

/-- Contributions can be added, in their order, exactly when any two of them agree. -/
theorem exists_adds_iff {cs : List Contribution} :
    (∃ m', Adds path {} cs m') ↔ ∀ c ∈ cs, ∀ d ∈ cs, c.Agree d := by
  rw [exists_adds_from_iff]
  refine ⟨fun h => h.2, fun h => ⟨fun c _ a _ q hq => ?_, h⟩⟩
  cases hq

/-- A type was noted for a property that generated it. -/
theorem Adds.origin {cs : List Contribution} (h : Adds path m cs m') {n : String} {q : Scalar}
    (hq : m'.claimed.lookup n = some q) :
    m.claimed.lookup n = some q ∨ ∃ c ∈ cs, c.property = q ∧ ∃ a ∈ c.artifacts, a.name = n := by
  induction h with
  | nil => exact .inl hq
  | @cons m m₁ m' c cs step _ ih =>
    rcases ih hq with hq | ⟨d, hd, origin⟩
    · rw [claim_lookup (add_ok step).2.2] at hq
      split at hq
      · next hn =>
        cases hl : m.claimed.lookup n with
        | some q' => exact .inl (by simpa [hl] using hq)
        | none =>
          rw [hl] at hq
          exact .inr ⟨c, List.mem_cons_self, Option.some.inj hq, List.mem_map.1 hn⟩
      · exact .inl hq
    · exact .inr ⟨d, List.mem_cons_of_mem _ hd, origin⟩

/-- Contributions can be added in the place of others that gave artifacts of their names to their properties. -/
theorem exists_adds_of_names {cs cs' : List Contribution} (added : ∃ m', Adds path {} cs m')
    (origin : ∀ c' ∈ cs', ∀ a' ∈ c'.artifacts,
      ∃ c ∈ cs, c.property = c'.property ∧ ∃ a ∈ c.artifacts, a.name = a'.name) :
    ∃ m', Adds path {} cs' m' := by
  rw [exists_adds_iff] at added ⊢
  intro c' hc' d' hd' a' ha' b' hb' same
  obtain ⟨c, hc, propertyC, a, ha, nameA⟩ := origin c' hc' a' ha'
  obtain ⟨d, hd, propertyD, b, hb, nameB⟩ := origin d' hd' b' hb'
  rw [← propertyC, ← propertyD]
  exact added c hc d hd a ha b hb (by rw [nameA, nameB, same])

/-- The artifacts of members have distinct names, and each was noted for one of the properties `keys`. -/
structure Tracks (m : Members) (keys : List Scalar) : Prop where
  distinct : (m.artifacts.map (·.name)).Nodup
  noted : ∀ a ∈ m.artifacts, ∃ q, m.claimed.lookup a.name = some q
  owned : ∀ n q, m.claimed.lookup n = some q → q ∈ keys

namespace Tracks

variable {keys : List Scalar}

theorem empty : Tracks {} [] :=
  ⟨.nil, by simp, by simp⟩

theorem add {f : Field Descriptor} (h : m.Tracks keys)
    (ha : m.add f property artifacts path = .ok m') (hd : (artifacts.map (·.name)).Nodup)
    (fresh : ∀ k ∈ keys, k.same property = false) : m'.Tracks (keys ++ [property]) := by
  obtain ⟨-, hm, hc⟩ := add_ok ha
  have c := claim_ok hc
  refine ⟨?_, fun a ha => ?_, fun n q hq => ?_⟩
  · rw [hm, List.map_append, List.nodup_append]
    refine ⟨h.distinct, hd, ?_⟩
    intro n hn n' hn' he
    obtain ⟨a, ha, rfl⟩ := List.mem_map.1 hn
    obtain ⟨b, hb, rfl⟩ := List.mem_map.1 hn'
    obtain ⟨q, hq⟩ := h.noted a ha
    have := c.agree b hb q (he ▸ hq)
    rw [fresh q (h.owned _ q hq)] at this
    cases this
  · rw [hm] at ha
    rcases List.mem_append.1 ha with ha | ha
    · obtain ⟨q, hq⟩ := h.noted a ha
      exact ⟨q, c.kept _ _ hq⟩
    · exact c.noted a ha
  · rcases c.origin n q hq with rfl | hq
    · exact List.mem_append_right _ (List.mem_singleton_self _)
    · exact List.mem_append_left _ (h.owned n q hq)

end Tracks

theorem Adds.tracks {cs : List Contribution} {keys : List Scalar} (h : Adds path m cs m')
    (hm : m.Tracks keys) (hd : ∀ c ∈ cs, (c.artifacts.map (·.name)).Nodup)
    (hk : (keys ++ cs.map (·.property)).Pairwise fun k l => k.same l = false) :
    m'.Tracks (keys ++ cs.map (·.property)) := by
  induction h generalizing keys with
  | nil => simpa using hm
  | @cons m m₁ m' c cs step rest ih =>
    have fresh : ∀ k ∈ keys, k.same c.property = false := fun k hk' =>
      (List.pairwise_append.1 hk).2.2 k hk' _ List.mem_cons_self
    rw [List.map_cons, List.append_cons] at hk ⊢
    exact ih (hm.add step (hd c List.mem_cons_self) fresh)
      (fun c hc => hd c (List.mem_cons_of_mem _ hc)) hk

end Members

end ResourceCompiler
