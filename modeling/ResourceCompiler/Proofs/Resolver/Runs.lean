import ResourceCompiler.Proofs.Resolver.Steps

/-!
# What it takes to succeed

The converse of what a successful resolution did: a class whose parts resolve and can be added is built
(`YieldsClass.run`), and whatever a member yields within the nesting limit is its resolution
(`resolve_eq_ok`).
-/

namespace ResourceCompiler

namespace Members

variable {path : String} {m m' : Members}

theorem Adds.split {cs ds : List Contribution} (h : Adds path m (cs ++ ds) m') :
    ∃ m₁, Adds path m cs m₁ ∧ Adds path m₁ ds m' := by
  induction cs generalizing m with
  | nil => exact ⟨m, .nil m, h⟩
  | cons c cs ih =>
    cases h with
    | cons step rest =>
      obtain ⟨m₁, hc, hd⟩ := ih rest
      exact ⟨m₁, .cons step hc, hd⟩

theorem catchAllField_run {type : Descriptor} (h : ∀ f ∈ m.fields, f.identifier ≠ additionalProperties) :
    m.catchAllField type path =
      .ok { identifier := additionalProperties, rawName := .str additionalProperties, type,
            catchAll := true } := by
  have free : m.fields.find? (·.identifier = additionalProperties) = none := by
    rw [List.find?_eq_none]
    intro f hf
    simpa using h f hf
  unfold catchAllField
  rw [free]

end Members

namespace Resolver

variable {r : Resolver} {name : String} {package : List String} {owner? : Option String}
  {path : String} {depth : Int} {res : Resolution}

/-- A field is of whatever type its property resolved to. -/
theorem memberField_retype {required : List Scalar} {property : Scalar} {traits : Traits}
    {type : Descriptor} {f : Field Descriptor} (h : r.memberField required property traits type = .ok f)
    (type' : Descriptor) : r.memberField required property traits type' = .ok { f with type := type' } := by
  unfold memberField at h ⊢
  obtain ⟨deprecated, hd, h⟩ := bind_eq_ok.1 h
  cases h
  exact bind_eq_ok.2 ⟨deprecated, hd, rfl⟩

theorem enumEntries_congr {r r' : Resolver} (names : r'.names = r.names) (types : r'.types = r.types)
    (uppercase : r'.config.enumUppercase = r.config.enumUppercase) (primitive : Primitive) (path : String)
    (seen : List (String × String)) (tokens : List Value) :
    r'.enumEntries primitive path seen tokens = r.enumEntries primitive path seen tokens := by
  induction tokens generalizing seen with
  | nil => rfl
  | cons token tokens ih => simp only [enumEntries, enumIdentifier, names, types, uppercase, ih]

/-- An enum depends on the spelling of names, types and constants alone. -/
theorem resolveEnum_congr {r r' : Resolver} (names : r'.names = r.names) (types : r'.types = r.types)
    (uppercase : r'.config.enumUppercase = r.config.enumUppercase) (node : Node) (name : String)
    (package : List String) (owner? : Option String) (path : String) :
    r'.resolveEnum node name package owner? path = r.resolveEnum node name package owner? path := by
  simp only [resolveEnum, enumBacking, resolvePrimitive, enumName, types, enumEntries_congr names types uppercase]

theorem resolveMembers_run {scope : Scope} {required : List Scalar} {siblings ps : List (Scalar × Node)}
    {m m' : Members} {parts : List ResolvedMember} (hr : ∀ p ∈ parts, p.ResolvedBy r scope depth required)
    (hk : parts.map ResolvedMember.property = ps.filter (!givesWay r.names siblings ·))
    (ha : Members.Adds scope.path m (parts.map ResolvedMember.contribution) m') :
    r.resolveMembers scope depth required siblings m ps = .ok m' := by
  induction ps generalizing parts m with
  | nil =>
    rw [List.filter_nil, List.map_eq_nil_iff] at hk
    subst hk
    cases ha
    rw [resolveMembers]
  | cons p ps ih =>
    obtain ⟨property, node⟩ := p
    rw [resolveMembers]
    split
    · next hg => exact ih hr (by simpa [hg] using hk) ha
    · next hg =>
      rw [List.filter_cons_of_pos (by simpa using hg), List.map_eq_cons_iff] at hk
      obtain ⟨part, parts, rfl, hp, hk⟩ := hk
      cases hp
      obtain ⟨hres, hfield⟩ := hr part List.mem_cons_self
      cases ha with
      | @cons _ m₁ _ _ _ step rest =>
        have members := ih (fun p hp => hr p (List.mem_cons_of_mem _ hp)) hk rest
        simp only [bind_eq_ok, liftM_eq_ok]
        exact ⟨part.resolution, hres, part.field, hfield, m₁, step, members⟩

theorem addCatchAll_run {scope : Scope} {m m' : Members} {value? : Option Resolution}
    (ha : Members.Adds scope.path m (value?.toList.map r.catchAll) m')
    (hne : value?.isSome → ∀ f ∈ m.fields, f.identifier ≠ additionalProperties) :
    r.addCatchAll scope m value? = .ok m' := by
  cases value? with
  | none =>
    cases ha
    rfl
  | some value =>
    cases ha with
    | cons step rest =>
      cases rest
      exact bind_eq_ok.2 ⟨_, Members.catchAllField_run (hne rfl), step⟩

section

variable {traits : Traits} {properties : List (Scalar × Node)} {required : List Scalar}
  {additional : Additional Node}

theorem YieldsClass.run
    (h : YieldsClass r traits properties required additional name package path depth res) :
    r.buildClass traits properties additional name package path
      (fun scope => r.resolveMembers scope depth required properties {} properties)
      (fun scope => r.resolveAdditional scope depth additional) = .ok res := by
  unfold buildClass
  cases h with
  | replaced hx =>
    simp only [scopeOf, hx]
    rfl
  | @built parts typed? t h =>
    have hx : r.config.existingType? (r.scopeOf name package path).className = none := h.generated
    simp only [hx]
    obtain ⟨claimed, ha⟩ := h.added
    -- the properties are added first, the field of undeclared keys after them
    obtain ⟨declared, hd, hu⟩ := ha.split
    have members := resolveMembers_run h.resolved h.kept hd
    have fields : declared.fields = parts.map (·.field) := by
      simpa [ResolvedMember.contribution, Function.comp_def] using hd.fields
    have all : r.addCatchAll (r.scopeOf name package path) declared
        (r.undeclared? traits additional typed?) = .ok ⟨t.fields, t.nested, claimed⟩ := by
      refine addCatchAll_run hu fun hs f hf => ?_
      rw [fields] at hf
      obtain ⟨p, hp, rfl⟩ := List.mem_map.1 hf
      exact h.alone hs p hp
    simp only [bind_eq_ok]
    refine ⟨(), h.reduced, declared, members, typed?, h.typed, _, all, ?_⟩
    rw [pure_eq_ok, ← h.preserves, ← h.described]
    obtain ⟨simple, named, fields, nested, placed, preserves, description⟩ := t
    obtain rfl : simple = name := h.simple
    obtain rfl : named = Naming.qualified package simple := h.named
    obtain rfl : placed = package := h.placed
    rfl

end

/-- A member passes the check of its depth and then yields its resolution. -/
theorem resolve_eq_ok {node : Node} :
    r.resolve name package owner? path depth node = .ok res ↔
      r.checkDepth path depth = .ok () ∧ Yields r name package owner? path depth node res := by
  constructor
  · intro h
    refine ⟨?_, resolve_ok h⟩
    cases node <;>
    · rw [resolve] at h
      obtain ⟨_, hd, -⟩ := bind_eq_ok.1 h
      exact hd
  · rintro ⟨hd, h⟩
    cases h with
    | @intOrString node hi =>
      cases node with
      | any traits =>
        rw [Node.traits] at hi
        rw [resolve, hi]
        exact bind_eq_ok.2 ⟨(), hd, rfl⟩
      | _ =>
        rw [resolve]
        exact guarded_eq_ok.2 ⟨hd, .inl ⟨hi, rfl⟩⟩
    | untyped hi =>
      rw [resolve, hi]
      exact bind_eq_ok.2 ⟨(), hd, rfl⟩
    | free hi =>
      rw [resolve]
      exact guarded_eq_ok.2 ⟨hd, .inr ⟨hi, rfl⟩⟩
    | «class» hi hc hf =>
      rw [resolve, hf]
      exact guarded_eq_ok.2 ⟨hd, .inr ⟨hi, hc.run⟩⟩
    | array hi he =>
      rw [resolve]
      exact guarded_eq_ok.2 ⟨hd, .inr ⟨hi, bind_eq_ok.2 ⟨_, he, rfl⟩⟩⟩
    | map hi hv =>
      rw [resolve]
      exact guarded_eq_ok.2 ⟨hd, .inr ⟨hi, bind_eq_ok.2 ⟨_, hv, rfl⟩⟩⟩
    | enum hi he =>
      rw [resolve]
      exact guarded_eq_ok.2 ⟨hd, .inr ⟨hi, he⟩⟩
    | basic hi hp =>
      rw [resolve]
      exact guarded_eq_ok.2 ⟨hd, .inr ⟨hi, bind_eq_ok.2 ⟨_, hp, rfl⟩⟩⟩

/-- Resolvers of one nesting limit resolve members at the same depths. -/
theorem resolve_of_yields {r' : Resolver} {node node' : Node} {res' : Resolution}
    (h : r.resolve name package owner? path depth node = .ok res)
    (y : Yields r' name package owner? path depth node' res') (limit : r'.config.maxDepth = r.config.maxDepth) :
    r'.resolve name package owner? path depth node' = .ok res' := by
  have within := (resolve_eq_ok.1 h).1
  rw [checkDepth, ← limit] at within
  exact resolve_eq_ok.2 ⟨within, y⟩

/-- The class of a fragment, after the check of its depth. -/
theorem resolveObject_eq_ok {node : Node} :
    r.resolveObject node name package path depth = .ok res ↔
      r.checkDepth path depth = .ok () ∧
        YieldsClass r node.traits node.properties node.required (additionalOf node) name package path depth
          res := by
  unfold resolveObject
  rw [bind_eq_ok]
  exact ⟨fun ⟨_, hd, h⟩ => ⟨hd, buildClass_ok h⟩, fun ⟨hd, h⟩ => ⟨(), hd, h.run⟩⟩

end Resolver

end ResourceCompiler
