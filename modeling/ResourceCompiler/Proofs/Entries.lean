import ResourceCompiler.Proofs.Key

/-!
# Changed mappings

What a mapping has under a name after another entry is set or left out.
-/

namespace ResourceCompiler

namespace Entries

/-- The entries under other names. -/
def erase (es : Entries) (name : String) : Entries := es.filter fun e => !e.1.same (.str name)

variable {es : Entries} {name other : String}

theorem same_str_iff {k : Scalar} : k.same (.str name) = true ↔ k = .str name :=
  ⟨Scalar.same_str, fun h => by simp [h, Scalar.same]⟩

theorem find?_erase_ne (h : other ≠ name) : (es.erase name).find? (.str other) = es.find? (.str other) := by
  induction es with
  | nil => rfl
  | cons e es ih =>
    unfold erase at ih ⊢
    rw [List.filter_cons, find?]
    split
    · rw [find?, ih]
    · next hk =>
      have key : e.1 = .str name := same_str_iff.1 (by simpa using hk)
      rw [if_neg (by simp [key, Scalar.same, h.symm]), ih]

theorem find?_erase_self : (es.erase name).find? (.str name) = none := by
  induction es with
  | nil => rfl
  | cons e es ih =>
    unfold erase at ih ⊢
    rw [List.filter_cons]
    split
    · next hk => rw [find?, if_neg (by simpa using hk), ih]
    · exact ih

/-- Setting an entry changes what stands under the keys that are the same. -/
theorem find?_insert (es : Entries) (key : Scalar) (v : Value) (k : Scalar) :
    (es.insert key v).find? k = if key.same k then some v else es.find? k := by
  induction es with
  | nil => rfl
  | cons e es ih =>
    rw [insert]
    split
    · next same =>
      rw [find?, find?, Scalar.same_congr same k]
      split <;> rfl
    · next apart =>
      rw [find?, find?, ih]
      split
      · next here => rw [if_neg fun set => apart (Scalar.same_trans here (Scalar.same_symm set))]
      · rfl

theorem find?_insert_self (v : Value) : (es.insert (.str name) v).find? (.str name) = some v := by
  rw [find?_insert, if_pos (same_str_iff.2 rfl)]

theorem find?_insert_ne (h : other ≠ name) (v : Value) :
    (es.insert (.str name) v).find? (.str other) = es.find? (.str other) := by
  rw [find?_insert, if_neg (by simpa [Scalar.same] using h.symm)]

theorem get_erase_ne (h : other ≠ name) : (es.erase name).get other = es.get other := by
  rw [get, get, find?_erase_ne h]

theorem get_erase_self : (es.erase name).get name = .null := by
  rw [get, find?_erase_self]
  rfl

theorem get_insert_ne (h : other ≠ name) (v : Value) : (es.insert (.str name) v).get other = es.get other := by
  rw [get, get, find?_insert_ne h]

theorem get_insert_self (v : Value) : (es.insert (.str name) v).get name = v := by
  rw [get, find?_insert_self]
  rfl

theorem find?_append {others : Entries} {key : Scalar} :
    Entries.find? (es ++ others) key = (es.find? key).or (others.find? key) := by
  induction es with
  | nil => rfl
  | cons e es ih =>
    rw [List.cons_append, find?, find?, ih]
    split <;> rfl

theorem find?_eq_none_iff {k : Scalar} : es.find? k = none ↔ ∀ e ∈ es, e.1.same k = false := by
  induction es with
  | nil => simp [find?]
  | cons e es ih =>
    rw [find?, List.forall_mem_cons, ← ih]
    split
    · next same => simp [same]
    · next other => simp [other]

theorem find?_eq_none {name : String} : es.find? (.str name) = none ↔ ∀ e ∈ es, e.1 ≠ .str name := by
  rw [find?_eq_none_iff]
  exact forall₂_congr fun e _ => by rw [← Bool.not_eq_true, same_str_iff]

/-- Where each name stands once, the order does not matter. -/
theorem find?_reverse (distinct : (es.map Prod.fst).Nodup) (name : String) :
    Entries.find? es.reverse (.str name) = es.find? (.str name) := by
  induction es with
  | nil => rfl
  | cons e es ih =>
    obtain ⟨key, v⟩ := e
    rw [List.map_cons, List.nodup_cons] at distinct
    rw [List.reverse_cons, find?_append, ih distinct.2]
    by_cases same : key = .str name
    · have absent : Entries.find? es (.str name) = none := find?_eq_none.2 fun e he hk =>
        distinct.1 (List.mem_map.2 ⟨e, he, hk.trans same.symm⟩)
      simp [find?, absent, same_str_iff.2 same]
    · simp [find?, mt same_str_iff.1 same]

/-- A new name comes last. -/
theorem insert_new {v : Value} (h : ∀ e ∈ es, e.1 ≠ .str name) :
    es.insert (.str name) v = es ++ [(.str name, v)] := by
  induction es with
  | nil => rfl
  | cons e es ih =>
    rw [List.forall_mem_cons] at h
    rw [insert, if_neg (by rw [same_str_iff]; exact h.1), ih h.2]
    rfl

theorem merge_cons (es : Entries) (key : Scalar) (v : Value) (changes : Entries) :
    es.merge ((key, v) :: changes) = (es.insert key v).merge changes := rfl

/-- New names come after those that are there, in order. -/
theorem merge_new {changes : Entries} (texts : ∀ e ∈ changes, ∃ name, e.1 = .str name)
    (distinct : ((es ++ changes).map Prod.fst).Nodup) : merge es changes = es ++ changes := by
  induction changes generalizing es with
  | nil => exact (List.append_nil es).symm
  | cons e changes ih =>
    obtain ⟨key, v⟩ := e
    rw [List.forall_mem_cons] at texts
    obtain ⟨⟨name, rfl⟩, texts⟩ := texts
    have fresh : ∀ e ∈ es, e.1 ≠ .str name := by
      rw [List.map_append, List.nodup_append] at distinct
      exact fun e he => distinct.2.2 _ (List.mem_map_of_mem he) _ List.mem_cons_self
    rw [merge_cons, insert_new fresh, ih texts (by simpa using distinct), List.append_assoc]
    rfl

theorem merge_nil (texts : ∀ e ∈ es, ∃ name, e.1 = .str name) (distinct : (es.map Prod.fst).Nodup) :
    merge [] es = es :=
  merge_new texts distinct

/-- After a merge a key has what it was set to last. -/
theorem find?_merge (es changes : Entries) (k : Scalar) :
    (merge es changes).find? k = (Entries.find? changes.reverse k).or (es.find? k) := by
  induction changes generalizing es with
  | nil => rfl
  | cons e changes ih =>
    obtain ⟨key, v⟩ := e
    rw [merge_cons, ih, List.reverse_cons, find?_append, Option.or_assoc, find?_insert, find?]
    split <;> rfl

/-- Setting an entry adds its key where none of the keys is the same. -/
theorem keys_insert (es : Entries) (key : Scalar) (v : Value) :
    (es.insert key v).map Prod.fst =
      if es.any (·.1.same key) then es.map Prod.fst else es.map Prod.fst ++ [key] := by
  induction es with
  | nil => rfl
  | cons e es ih =>
    rw [insert, List.any_cons]
    split
    · next same => simp [same]
    · next other =>
      rw [List.map_cons, ih, Bool.eq_false_iff.2 other, Bool.false_or]
      split <;> rfl

/-- No key is there twice. -/
def Apart (es : Entries) : Prop := (es.map Prod.fst).Pairwise fun k l => k.same l = false

namespace Apart

theorem nil : Apart [] := List.Pairwise.nil

theorem insert (h : es.Apart) (key : Scalar) (v : Value) : (es.insert key v).Apart := by
  unfold Apart
  rw [keys_insert]
  split
  · exact h
  · next new =>
    refine List.pairwise_append.2 ⟨h, List.pairwise_singleton .., fun k hk l hl => ?_⟩
    obtain ⟨e, he, rfl⟩ := List.mem_map.1 hk
    rw [List.mem_singleton.1 hl]
    exact Bool.eq_false_iff.2 fun same => new (List.any_eq_true.2 ⟨e, he, same⟩)

theorem merge (h : es.Apart) (changes : Entries) : (Entries.merge es changes).Apart := by
  induction changes generalizing es with
  | nil => exact h
  | cons e changes ih => exact ih (h.insert e.1 e.2)

theorem filter (h : es.Apart) (p : Scalar × Value → Bool) : Apart (es.filter p) :=
  h.sublist (List.filter_sublist.map _)

/-- Where no key is there twice, the order does not matter. -/
theorem find?_reverse (h : es.Apart) (k : Scalar) : Entries.find? es.reverse k = es.find? k := by
  induction es with
  | nil => rfl
  | cons e es ih =>
    obtain ⟨first, rest⟩ := List.pairwise_cons.1 h
    rw [List.reverse_cons, find?_append, ih rest]
    simp only [find?]
    split
    · next here =>
      have absent : Entries.find? es k = none := find?_eq_none_iff.2 fun f hf => by
        rw [Scalar.same_comm, ← Scalar.same_congr here, first f.1 (List.mem_map_of_mem hf)]
      rw [absent]
      rfl
    · exact Option.or_none

end Apart

/-- What is there after an entry is set was there, or has the value that was set. -/
theorem mem_insert {key : Scalar} {v : Value} {e : Scalar × Value} (h : e ∈ es.insert key v) :
    e ∈ es ∨ e.2 = v ∧ (e.1 = key ∨ e.1.same key = true) := by
  induction es with
  | nil =>
    cases List.mem_singleton.1 h
    exact Or.inr ⟨rfl, Or.inl rfl⟩
  | cons f es ih =>
    rw [insert] at h
    split at h
    · next same =>
      rcases List.mem_cons.1 h with rfl | h
      · exact Or.inr ⟨rfl, Or.inr same⟩
      · exact Or.inl (List.mem_cons_of_mem _ h)
    · rcases List.mem_cons.1 h with rfl | h
      · exact Or.inl List.mem_cons_self
      · exact (ih h).imp_left (List.mem_cons_of_mem _)

theorem mem_insert_str {v : Value} {e : Scalar × Value} (h : e ∈ es.insert (.str name) v) :
    e ∈ es ∨ e = (.str name, v) :=
  (mem_insert h).imp_right fun ⟨value, key⟩ => Prod.ext (key.elim id same_str_iff.1) value

/-- What a merge has is from either side. -/
theorem mem_merge {changes : Entries} (texts : ∀ e ∈ changes, ∃ name, e.1 = .str name) {e : Scalar × Value}
    (h : e ∈ merge es changes) : e ∈ es ∨ e ∈ changes := by
  induction changes generalizing es with
  | nil => exact Or.inl h
  | cons f changes ih =>
    obtain ⟨key, v⟩ := f
    rw [List.forall_mem_cons] at texts
    obtain ⟨⟨name, rfl⟩, texts⟩ := texts
    rcases ih texts h with h | h
    · refine (mem_insert_str h).imp_right fun last => ?_
      rw [last]
      exact List.mem_cons_self
    · exact Or.inr (List.mem_cons_of_mem _ h)

/-- A merge has no values of its own. -/
theorem exists_of_mem_merge {changes : Entries} {e : Scalar × Value} (h : e ∈ merge es changes) :
    ∃ f ∈ es ++ changes, f.2 = e.2 := by
  induction changes generalizing es with
  | nil => exact ⟨e, List.mem_append_left _ h, rfl⟩
  | cons g changes ih =>
    obtain ⟨key, v⟩ := g
    obtain ⟨f, hf, value⟩ := ih h
    rcases List.mem_append.1 hf with hf | hf
    · rcases mem_insert hf with hf | ⟨set, -⟩
      · exact ⟨f, List.mem_append_left _ hf, value⟩
      · exact ⟨(key, v), List.mem_append_right _ List.mem_cons_self, set.symm.trans value⟩
    · exact ⟨f, List.mem_append_right _ (List.mem_cons_of_mem _ hf), value⟩

theorem nodup_insert {name : String} {v : Value} (distinct : (es.map Prod.fst).Nodup) :
    ((es.insert (.str name) v).map Prod.fst).Nodup := by
  induction es with
  | nil => exact List.nodup_cons.2 ⟨List.not_mem_nil, List.nodup_nil⟩
  | cons e es ih =>
    rw [List.map_cons, List.nodup_cons] at distinct
    rw [insert]
    split
    · exact List.nodup_cons.2 distinct
    · next other =>
      refine List.nodup_cons.2 ⟨fun hk => ?_, ih distinct.2⟩
      obtain ⟨f, hf, same⟩ := List.mem_map.1 hk
      rcases mem_insert_str hf with hf | rfl
      · exact distinct.1 (List.mem_map.2 ⟨f, hf, same⟩)
      · exact other (same_str_iff.2 same.symm)

/-- A merge repeats no key. -/
theorem nodup_merge {changes : Entries} (texts : ∀ e ∈ changes, ∃ name, e.1 = .str name)
    (distinct : (es.map Prod.fst).Nodup) : ((merge es changes).map Prod.fst).Nodup := by
  induction changes generalizing es with
  | nil => exact distinct
  | cons e changes ih =>
    obtain ⟨key, v⟩ := e
    rw [List.forall_mem_cons] at texts
    obtain ⟨⟨name, rfl⟩, texts⟩ := texts
    exact ih texts (nodup_insert distinct)

theorem filter_insert (p : Scalar → Bool) (name : String) (v : Value) :
    (es.insert (.str name) v).filter (p ·.1) =
      if p (.str name) then Entries.insert (es.filter (p ·.1)) (.str name) v else es.filter (p ·.1) := by
  induction es with
  | nil =>
    rw [insert, List.filter_cons]
    rfl
  | cons e es ih =>
    obtain ⟨key, w⟩ := e
    rw [insert]
    by_cases same : key = .str name
    · subst same
      rw [if_pos (same_str_iff.2 rfl), List.filter_cons, List.filter_cons]
      split
      · rw [insert, if_pos (same_str_iff.2 rfl)]
      · rfl
    · rw [if_neg (mt same_str_iff.1 same), List.filter_cons, List.filter_cons, ih]
      split <;> split <;> simp [insert, mt same_str_iff.1 same]

/-- Leaving keys out before or after a merge is the same. -/
theorem filter_merge {changes : Entries} (p : Scalar → Bool) (texts : ∀ e ∈ changes, ∃ name, e.1 = .str name) :
    (merge es changes).filter (p ·.1) = merge (es.filter (p ·.1)) (changes.filter (p ·.1)) := by
  induction changes generalizing es with
  | nil => rfl
  | cons e changes ih =>
    obtain ⟨key, v⟩ := e
    rw [List.forall_mem_cons] at texts
    obtain ⟨⟨name, rfl⟩, texts⟩ := texts
    rw [merge_cons, ih texts, filter_insert, List.filter_cons]
    split <;> rfl

/-- Leaving out other keys does not change what stands under a key. -/
theorem find?_filter_same {p : Scalar → Bool} {k : Scalar} (h : ∀ l : Scalar, l.same k = true → p l = true) :
    Entries.find? (es.filter (p ·.1)) k = es.find? k := by
  induction es with
  | nil => rfl
  | cons e es ih =>
    rw [List.filter_cons]
    split
    · rw [find?, find?, ih]
    · next out => rw [find?, if_neg fun same => out (h e.1 same), ih]

theorem find?_filter {p : Scalar → Bool} {name : String} (h : p (.str name) = true) :
    Entries.find? (es.filter (p ·.1)) (.str name) = es.find? (.str name) :=
  find?_filter_same fun _ same => same_str_iff.1 same ▸ h

end Entries

end ResourceCompiler
