import ResourceCompiler.Proofs.Entries
import ResourceCompiler.Proofs.Key
import ResourceCompiler.Proofs.Matched
import ResourceCompiler.Proofs.Schema.Reader

/-!
# Schemas in another order

`Value.Reordered` is generated by the ways in which a schema may be put in another order: the keywords of
a fragment, or the entries of its properties, at any depth. Under each name of a fragment stands then
the same value, a reordered schema, or the same properties in some order (`Follows`). So reading gives a
tree whenever it gave one, related to it by whatever relation the shapes of trees respect
(`Reads.reordered`).
-/

namespace ResourceCompiler

namespace Value

/-- The same schema with the keywords of fragments and the entries of properties in another order. -/
inductive Reordered : Value → Value → Prop
  | refl (v : Value) : Reordered v v
  | trans {u v w : Value} (h : Reordered u v) (h' : Reordered v w) : Reordered u w
  | keywords {es es' : Entries} (h : es.Perm es') : Reordered (.map es) (.map es')
  | properties {before after ms ms' : Entries} (h : ms.Perm ms') :
      Reordered (.map (before ++ (.str "properties", .map ms) :: after))
        (.map (before ++ (.str "properties", .map ms') :: after))
  | member {before after ms ns : Entries} {name : Scalar} {v v' : Value} (h : Reordered v v') :
      Reordered (.map (before ++ (.str "properties", .map (ms ++ (name, v) :: ns)) :: after))
        (.map (before ++ (.str "properties", .map (ms ++ (name, v') :: ns)) :: after))
  | part {before after : Entries} {name : String} {v v' : Value}
      (hn : name = "items" ∨ name = "additionalProperties") (h : Reordered v v') :
      Reordered (.map (before ++ (.str name, v) :: after)) (.map (before ++ (.str name, v') :: after))

theorem Reordered.symm {v v' : Value} (h : v.Reordered v') : v'.Reordered v := by
  induction h with
  | refl v => exact .refl v
  | trans _ _ ih ih' => exact ih'.trans ih
  | keywords h => exact .keywords h.symm
  | properties h => exact .properties h.symm
  | member _ ih => exact .member ih
  | part hn _ ih => exact .part hn ih

theorem keysDistinct_replace {before after : Entries} {k : Scalar} {v v' : Value}
    (hd : (map (before ++ (k, v) :: after)).keysDistinct) (h : v.keysDistinct → v'.keysDistinct) :
    (map (before ++ (k, v') :: after)).keysDistinct := by
  obtain ⟨distinct, values⟩ := keysDistinct_map.1 hd
  refine keysDistinct_map.2 ⟨?_, fun e he => ?_⟩
  · have keys : (before ++ (k, v') :: after).map (·.1) = (before ++ (k, v) :: after).map (·.1) := by simp
    have distinct := List.pairwise_map (f := Prod.fst) (R := fun k l : Scalar => k.same l = false).2 distinct
    exact List.pairwise_map.1 (keys ▸ distinct)
  · rcases List.mem_append.1 he with he | he
    · exact values e (List.mem_append_left _ he)
    · rcases List.mem_cons.1 he with rfl | he
      · exact h (values (k, v) (by simp))
      · exact values e (List.mem_append_right _ (List.mem_cons_of_mem _ he))

theorem keysDistinct_perm {es es' : Entries} (h : es.Perm es') (hd : (map es).keysDistinct) :
    (map es').keysDistinct := by
  obtain ⟨distinct, values⟩ := keysDistinct_map.1 hd
  refine keysDistinct_map.2 ⟨?_, fun e he => values e (h.mem_iff.2 he)⟩
  exact (h.pairwise_iff fun {e f} hs => by rwa [Scalar.same_comm]).1 distinct

theorem Reordered.keysDistinct {v v' : Value} (h : v.Reordered v') (hd : v.keysDistinct) :
    v'.keysDistinct := by
  induction h with
  | refl => exact hd
  | trans _ _ ih ih' => exact ih' (ih hd)
  | keywords h => exact keysDistinct_perm h hd
  | properties h => exact keysDistinct_replace hd (keysDistinct_perm h)
  | member _ ih => exact keysDistinct_replace hd fun hd => keysDistinct_replace hd ih
  | part _ _ ih => exact keysDistinct_replace hd ih

theorem truthy_middle (before after : Entries) (e : Scalar × Value) :
    (map (before ++ e :: after)).truthy = true := by
  cases before <;> rfl

theorem Reordered.truthy_eq {v v' : Value} (h : v.Reordered v') : v'.truthy = v.truthy := by
  induction h with
  | refl => rfl
  | trans _ _ ih ih' => exact ih'.trans ih
  | keywords h => rw [truthy, truthy, h.isEmpty_eq]
  | properties | member | part => exact (truthy_middle _ _ _).trans (truthy_middle _ _ _).symm

theorem Reordered.isMap_eq {v v' : Value} (h : v.Reordered v') : v'.isMap = v.isMap := by
  induction h with
  | trans _ _ ih ih' => exact ih'.trans ih
  | _ => rfl

theorem Reordered.isTrue_eq {v v' : Value} (h : v.Reordered v') : v'.isTrue = v.isTrue := by
  induction h with
  | trans _ _ ih ih' => exact ih'.trans ih
  | _ => rfl

end Value

namespace Entries

variable {es es' : Entries} {key : Scalar}

/-- Where keys are distinct, the order of entries does not matter. -/
theorem find?_perm (h : es.Perm es') (hd : es.Pairwise fun e f => e.1.same f.1 = false) :
    es'.find? key = es.find? key := by
  induction h with
  | nil => rfl
  | cons e h ih => rw [find?, find?, ih hd.of_cons]
  | swap e f es =>
    -- only one of two neighbours can have the key
    have apart : f.1.same e.1 = false := by
      rw [List.pairwise_cons] at hd
      exact hd.1 e List.mem_cons_self
    rw [find?, find?, find?, find?]
    cases he : e.1.same key with
    | false => rfl
    | true =>
      cases hf : f.1.same key with
      | false => rfl
      | true =>
        rw [Scalar.same_trans hf (Scalar.same_symm he)] at apart
        cases apart
  | trans h _ ih ih' =>
    have symm {e f : Scalar × Value} (hs : e.1.same f.1 = false) : f.1.same e.1 = false := by
      rwa [Scalar.same_comm]
    exact (ih' ((h.pairwise_iff symm).1 hd)).trans (ih hd)

end Entries

/-- Both say the same about undeclared keys, up to schemas that are related. -/
inductive Additional.Rel {α : Type} (R : α → α → Prop) : Additional α → Additional α → Prop
  | closed : Rel R .closed .closed
  | open : Rel R .open .open
  | typed {s s' : α} (h : R s s') : Rel R (.typed s) (.typed s')

/-- Members with the same names, each with the same fragment or with a reordered one. -/
def SameMember (e e' : Scalar × Value) : Prop := e.1 = e'.1 ∧ e.2.Reordered e'.2

/-- Of two values under a name, the second can stand there after reordering. -/
inductive CanFollow (name : String) : Value → Value → Prop
  | same (v : Value) : CanFollow name v v
  | part {v v' : Value} (hn : name = "items" ∨ name = "additionalProperties") (h : v.Reordered v') :
      CanFollow name v v'
  | properties {ms ms' : Entries} (hn : name = "properties") (h : Matched SameMember ms ms') :
      CanFollow name (.map ms) (.map ms')

/-- The names of a fragment under which schemas stand. -/
def schemaNames : List String := ["properties", "items", "additionalProperties"]

/-- Under every name stands what can stand there after reordering. -/
def Follows (es es' : Entries) : Prop :=
  ∀ name, Option.Rel (CanFollow name) (es.find? (.str name)) (es'.find? (.str name))

theorem SameMember.refl (e : Scalar × Value) : SameMember e e := ⟨rfl, .refl e.2⟩

theorem SameMember.trans (e f g : Scalar × Value) (h : SameMember e f) (h' : SameMember f g) :
    SameMember e g :=
  ⟨h.1.trans h'.1, h.2.trans h'.2⟩

theorem CanFollow.trans {name : String} {u v w : Value} (h : CanFollow name u v) (h' : CanFollow name v w) :
    CanFollow name u w := by
  cases h with
  | same => exact h'
  | part hn h =>
    cases h' with
    | same => exact .part hn h
    | part _ h' => exact .part hn (h.trans h')
    | properties hn' => simp [hn'] at hn
  | properties hn h =>
    cases h' with
    | same => exact .properties hn h
    | part hn' => simp [hn] at hn'
    | properties _ h' => exact .properties hn (h.trans SameMember.trans h')

theorem CanFollow.truthy_eq {name : String} {v v' : Value} (h : CanFollow name v v') :
    v'.truthy = v.truthy := by
  cases h with
  | same => rfl
  | part _ h => exact h.truthy_eq
  | properties _ h =>
    have length := h.length_eq
    rw [Value.truthy, Value.truthy, Bool.eq_iff_iff]
    simp [← List.length_eq_zero_iff, length]

namespace Follows

variable {es es' : Entries} {name : String}

theorem find?_eq (h : Follows es es') (hn : name ∉ schemaNames) :
    es'.find? (.str name) = es.find? (.str name) := by
  have under := h name
  generalize es.find? (.str name) = u, es'.find? (.str name) = v at under ⊢
  cases under with
  | none => rfl
  | some under =>
    cases under with
    | same => rfl
    | part hp => rcases hp with rfl | rfl <;> exact absurd (by decide) hn
    | properties hp => exact absurd (hp ▸ by decide) hn

theorem has_eq (h : Follows es es') (name : String) : es'.has name = es.has name :=
  (isSome_eq_of_rel (h name)).symm

theorem get (h : Follows es es') (name : String) : CanFollow name (es.get name) (es'.get name) := by
  have under := h name
  unfold Entries.get
  generalize es.find? (.str name) = u, es'.find? (.str name) = v at under ⊢
  cases under with
  | none => exact .same _
  | some under => exact under

theorem get_eq (h : Follows es es') (hn : name ∉ schemaNames) : es'.get name = es.get name := by
  unfold Entries.get
  rw [h.find?_eq hn]

theorem reordered (h : Follows es es') (name : String) (hp : name ≠ "properties") :
    (es.get name).Reordered (es'.get name) := by
  have under := h.get name
  generalize es.get name = u, es'.get name = v at under ⊢
  cases under with
  | same => exact .refl _
  | part _ hr => exact hr
  | properties hn => exact absurd hn hp

theorem of_eq (h : ∀ name : String, es'.find? (.str name) = es.find? (.str name)) : Follows es es' := by
  intro name
  rw [h]
  cases es.find? (.str name) with
  | none => exact .none
  | some v => exact .some (.same v)

theorem trans {es es' es'' : Entries} (h : Follows es es') (h' : Follows es' es'') : Follows es es'' := by
  intro name
  have first := h name
  have second := h' name
  generalize es.find? (.str name) = u, es'.find? (.str name) = v, es''.find? (.str name) = w at first second
  cases first with
  | none =>
    cases second
    exact .none
  | some first =>
    cases second with
    | some second => exact .some (first.trans second)

theorem replace {before after : Entries} {v v' : Value} (h : CanFollow name v v') :
    Follows (before ++ (.str name, v) :: after) (before ++ (.str name, v') :: after) := by
  intro other
  rw [Entries.find?_append, Entries.find?_append]
  cases before.find? (.str other) with
  | some w => exact .some (.same w)
  | none =>
    rw [Option.none_or, Option.none_or, Entries.find?, Entries.find?]
    by_cases hn : name = other
    · subst hn
      simpa [Scalar.same] using Option.Rel.some h
    · simp only [Scalar.same, hn, decide_false, Bool.false_eq_true, if_false]
      exact of_eq (fun _ => rfl) other

end Follows

theorem Value.Reordered.follows {es : Entries} {v v' : Value} (h : v.Reordered v') (hv : v = .map es)
    (hd : v.keysDistinct) : ∃ es', v' = .map es' ∧ Follows es es' := by
  induction h generalizing es with
  | refl => exact ⟨es, hv, .of_eq fun _ => rfl⟩
  | trans h _ ih ih' =>
    obtain ⟨es', he, f⟩ := ih hv hd
    obtain ⟨es'', he', f'⟩ := ih' he (h.keysDistinct hd)
    exact ⟨es'', he', f.trans f'⟩
  | keywords h =>
    cases hv
    exact ⟨_, rfl, .of_eq fun name => Entries.find?_perm h (keysDistinct_map.1 hd).1⟩
  | properties h =>
    cases hv
    exact ⟨_, rfl, .replace (.properties rfl (.of_perm SameMember.refl h))⟩
  | @member before after ms ns name v v' h =>
    cases hv
    have pairs : List.Forall₂ SameMember (ms ++ (name, v) :: ns) (ms ++ (name, v') :: ns) :=
      List.rel_append (List.forall₂_same.2 fun e _ => .refl e)
        (.cons ⟨rfl, h⟩ (List.forall₂_same.2 fun e _ => .refl e))
    exact ⟨_, rfl, .replace (.properties rfl (.of_forall₂ pairs))⟩
  | part hn h =>
    cases hv
    exact ⟨_, rfl, .replace (.part hn h)⟩

namespace Node

/-- A relation that trees are in when their parts are, whatever the order of the properties. -/
structure Congruence (S : Node → Node → Prop) : Prop where
  refl (n : Node) : S n n
  object {traits : Traits} {properties properties' : List (Scalar × Node)} {required : List Scalar}
    {additional additional' : Additional Node}
    (hp : Matched (fun p q => p.1 = q.1 ∧ S p.2 q.2) properties properties')
    (ha : additional.Rel S additional') :
    S (.object traits properties required additional) (.object traits properties' required additional')
  array {traits : Traits} {n n' : Node} (h : S n n') : S (.array traits n) (.array traits n')
  map {traits : Traits} {n n' : Node} (h : S n n') : S (.map traits n) (.map traits n')

theorem traitsOf_follows {es es' : Entries} (h : Follows es es') : traitsOf es' = traitsOf es := by
  unfold traitsOf
  simp (disch := decide) only [h.get_eq, h.find?_eq]

theorem shapeOf_follows {es es' : Entries} (h : Follows es es') : shapeOf es' = shapeOf es := by
  unfold shapeOf
  simp (disch := decide) only [h.get_eq, h.has_eq]

theorem Declares.follows {es es' members : Entries} (h : Follows es es') (hm : Declares es members) :
    ∃ members', Declares es' members' ∧ Matched SameMember members members' := by
  have under := h.get "properties"
  rcases hm with hm | ⟨ht, rfl⟩
  · rw [hm] at under
    generalize hv : es'.get "properties" = v at under
    cases under with
    | same => exact ⟨members, .inl hv, .of_perm SameMember.refl (.refl _)⟩
    | part hn => simp at hn
    | properties _ h => exact ⟨_, .inl hv, h⟩
  · exact ⟨[], .inr ⟨under.truthy_eq.trans ht, rfl⟩, .of_forall₂ .nil⟩

/-- What a value says about undeclared keys, a reordered one says alike. -/
theorem Allows.reordered {S : Node → Node → Prop} {v v' : Value} {additional : Additional Node}
    {R : Node → Prop} (hw : Allows v additional) (h : v.Reordered v')
    (schema : ∀ s, additional = .typed s → ∃ s', R s' ∧ S s s') :
    ∃ additional', Allows v' additional' ∧ (∀ s, additional' = .typed s → R s) ∧
      additional.Rel S additional' := by
  cases additional with
  | closed => exact ⟨.closed, by rwa [Allows, h.isMap_eq, h.isTrue_eq], nofun, .closed⟩
  | «open» => exact ⟨.open, by rwa [Allows, h.isMap_eq, h.isTrue_eq], nofun, .open⟩
  | typed s =>
    obtain ⟨s', hs', same⟩ := schema s rfl
    refine ⟨.typed s', h.isMap_eq.trans hw, fun _ hs => ?_, .typed same⟩
    cases hs
    exact hs'

/-- Properties by name, each with a fragment and the tree that it was read as. -/
theorem forall₂_members {R : Value → Node → Prop} {members : Entries} {properties : List (Scalar × Node)} :
    List.Forall₂ (fun e p => p.1 = e.1 ∧ R e.2 p.2) members properties ↔
      properties.map (·.1) = members.map (·.1) ∧ ∀ q ∈ members.zip properties, R q.1.2 q.2.2 := by
  induction members generalizing properties with
  | nil => cases properties <;> simp
  | cons e members ih =>
    cases properties with
    | nil => simp
    | cons p properties =>
      rw [List.forall₂_cons, ih, List.map_cons, List.map_cons, List.cons.injEq, List.zip_cons_cons,
        List.forall_mem_cons]
      tauto

/-- Members in another order are read as related properties in that order. -/
theorem reads_members {S : Node → Node → Prop} {limit : Limit} {depth : Nat} {members members' : Entries}
    {properties : List (Scalar × Node)} (hm : Matched SameMember members members')
    (hk : properties.map (·.1) = members.map (·.1))
    (hp : ∀ q ∈ members.zip properties, ∀ v', q.1.2.Reordered v' →
      ∃ n', Reads limit depth v' n' ∧ S q.2.2 n') :
    ∃ properties' : List (Scalar × Node), properties'.map (·.1) = members'.map (·.1) ∧
      (∀ q ∈ members'.zip properties', Reads limit depth q.1.2 q.2.2) ∧
        Matched (fun p q => p.1 = q.1 ∧ S p.2 q.2) properties properties' := by
  have fragments := (forall₂_members
    (R := fun v n => ∀ v', v.Reordered v' → ∃ n', Reads limit depth v' n' ∧ S n n')).2 ⟨hk, hp⟩
  obtain ⟨properties', read, matched⟩ := hm.transfer (V := fun e p => p.1 = e.1 ∧ Reads limit depth e.2 p.2)
      (U := fun p q => p.1 = q.1 ∧ S p.2 q.2) fragments fun e e' p he ht => by
    obtain ⟨n', hn', same⟩ := ht.2 e'.2 he.2
    exact ⟨(e'.1, n'), ⟨rfl, hn'⟩, ht.1.trans he.1, same⟩
  obtain ⟨hk', hp'⟩ := forall₂_members.1 read
  exact ⟨properties', hk', hp', matched⟩

/-- Reading a schema in another order gives a tree that the relation has for the first one. -/
theorem Reads.reordered {S : Node → Node → Prop} (hS : Congruence S) {limit : Limit} {depth : Nat}
    {v v' : Value} {n : Node} (h : Reads limit depth v n) (hr : v.Reordered v') (hd : v.keysDistinct) :
    ∃ n', Reads limit depth v' n' ∧ S n n' := by
  -- on how the fragment was read: whatever became of its entries, its parts are reordered fragments
  induction h generalizing v' with
  | @enum depth es base values hd' hs hb hv =>
    obtain ⟨es', rfl, f⟩ := hr.follows rfl hd
    refine ⟨.enum (traitsOf es') base values, .enum hd' (shapeOf_follows f ▸ hs) ?_ ?_, ?_⟩
    · rwa [f.get_eq (by decide)]
    · rwa [f.get_eq (by decide)]
    · rw [traitsOf_follows f]
      exact hS.refl _
  | @array depth es items hd' hs ht hi ih =>
    obtain ⟨es', rfl, f⟩ := hr.follows rfl hd
    have hes : Entries.Distinct es := (Value.keysDistinct_map.1 hd).2
    have part := f.reordered "items" (by decide)
    obtain ⟨items', hi', same⟩ := ih part (hes.get "items")
    refine ⟨.array (traitsOf es') items',
      .array hd' (shapeOf_follows f ▸ hs) (part.truthy_eq.trans ht) hi', ?_⟩
    rw [traitsOf_follows f]
    exact hS.array same
  | @bareArray depth es hd' hs ht hi =>
    obtain ⟨es', rfl, f⟩ := hr.follows rfl hd
    have part := f.reordered "items" (by decide)
    refine ⟨.array (traitsOf es') .nothing,
      .bareArray hd' (shapeOf_follows f ▸ hs) (part.truthy_eq.trans ht) hi, ?_⟩
    rw [traitsOf_follows f]
    exact hS.refl _
  | @map depth es values hd' hs ht ha hv ih =>
    obtain ⟨es', rfl, f⟩ := hr.follows rfl hd
    have hes : Entries.Distinct es := (Value.keysDistinct_map.1 hd).2
    have part := f.reordered "additionalProperties" (by decide)
    obtain ⟨values', hv', same⟩ := ih part (hes.get "additionalProperties")
    refine ⟨.map (traitsOf es') values', .map hd' (shapeOf_follows f ▸ hs)
      ((f.get "properties").truthy_eq.trans ht) (part.isMap_eq.trans ha) hv', ?_⟩
    rw [traitsOf_follows f]
    exact hS.map same
  | @object depth es members properties required additional hd' hs hm hk hp hr' hw ht ha ihp iha =>
    obtain ⟨es', rfl, f⟩ := hr.follows rfl hd
    have hes : Entries.Distinct es := (Value.keysDistinct_map.1 hd).2
    obtain ⟨members', hm', hmm⟩ := hm.follows f
    have values : Entries.Distinct members := (Value.keysDistinct_map.1 (hm.distinct hes)).2
    obtain ⟨properties', hk', hp', matched⟩ :=
      reads_members hmm hk fun q hq _ hr => ihp q hq hr (values _ (List.of_mem_zip hq).1)
    have part := f.reordered "additionalProperties" (by decide)
    obtain ⟨additional', hw', ha', same⟩ := hw.reordered part fun s hs => iha s hs part (hes.get _)
    refine ⟨.object (traitsOf es') properties' required additional',
      .object hd' (shapeOf_follows f ▸ hs) hm' hk' hp' ?_ hw' (fun h => ?_) ha', ?_⟩
    · rwa [f.get_eq (by decide)]
    · exact (f.get "properties").truthy_eq.trans (ht (part.isMap_eq ▸ h))
    · rw [traitsOf_follows f]
      exact hS.object matched same
  | @any depth es hd' hs =>
    obtain ⟨es', rfl, f⟩ := hr.follows rfl hd
    refine ⟨.any (traitsOf es'), .any hd' (shapeOf_follows f ▸ hs), ?_⟩
    rw [traitsOf_follows f]
    exact hS.refl _
  | @basic depth es type hd' hs hb =>
    obtain ⟨es', rfl, f⟩ := hr.follows rfl hd
    refine ⟨.basic (traitsOf es') type, .basic hd' (shapeOf_follows f ▸ hs) ?_, ?_⟩
    · rwa [f.get_eq (by decide)]
    · rw [traitsOf_follows f]
      exact hS.refl _

end Node

end ResourceCompiler
