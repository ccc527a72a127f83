import ResourceCompiler.Java.Names
import ResourceCompiler.Proofs.Collision

/-!
# What the reduction of collisions gives

Groups stand in the order of their first members (`Group.ofProperties_eq`), and checking a group again
changes nothing. So the check of all groups is a check of every property's group, property by property
(`checkCollisions_eq`): the first property that is neither alone under its identifier nor in a pair with one
deprecated member decides the failure. `reduceCollisions_iff` says when there is none and what is left then.
-/

namespace ResourceCompiler

variable {ε α : Type}

theorem eraseDups_concat [BEq α] [LawfulBEq α] (xs : List α) (x : α) :
    (xs ++ [x]).eraseDups = xs.eraseDups ++ if x ∈ xs then [] else [x] := by
  rw [List.eraseDups_append]
  by_cases hx : x ∈ xs <;> simp [List.removeAll, hx, List.eraseDups_cons]

/-- A step that succeeded on an element succeeds on it again. -/
theorem forM_eraseDups [BEq α] [LawfulBEq α] (f : α → Except ε Unit) (xs : List α) :
    xs.eraseDups.forM f = xs.forM f := by
  induction xs using List.reverseRecOn with
  | nil => rfl
  | append_singleton xs x ih =>
    have split (ys zs : List α) : (ys ++ zs).forM f = (ys.forM f >>= fun _ => zs.forM f) := List.forM_append
    rw [eraseDups_concat, split, split, ih]
    by_cases hx : x ∈ xs
    · rw [if_pos hx]
      cases h : xs.forM f with
      | error e => rfl
      | ok =>
        have again : [x].forM f = .ok () := forM_eq_ok.2 (by simpa using forM_eq_ok.1 h x hx)
        exact again.symm
    · rw [if_neg hx]

namespace Group

variable {s : Sanitizer} {properties : List (Scalar × Node)}

theorem identifiers_add {identifier : String} {member : Scalar × Node} {groups : List Group}
    (hn : (groups.map (·.identifier)).Nodup) : (add identifier member groups).map (·.identifier) =
      groups.map (·.identifier) ++ if identifier ∈ groups.map (·.identifier) then [] else [identifier] := by
  by_cases hm : identifier ∈ groups.map (·.identifier)
  · rw [add_of_mem hm hn, if_pos hm, List.append_nil, List.map_map]
    refine List.map_congr_left fun g _ => ?_
    simp only [Function.comp_apply]
    split <;> rfl
  · rw [add_of_not_mem hm, if_neg hm, List.map_append, List.map_singleton]

theorem identifiers_ofProperties (s : Sanitizer) (properties : List (Scalar × Node)) :
    (ofProperties s properties).map (·.identifier) =
      (properties.map fun p => s.identifier p.1.text).eraseDups := by
  induction properties using List.reverseRecOn with
  | nil => rfl
  | append_singleton properties p ih =>
    have step : ofProperties s (properties ++ [p]) =
        add (s.identifier p.1.text) p (ofProperties s properties) := List.foldl_append
    rw [step, identifiers_add (groups_ofProperties s properties).distinct, List.map_append, List.map_singleton,
      eraseDups_concat, ih]
    simp only [List.mem_eraseDups]

/-- Each identifier has one group, at the place of its first member and with all its members. -/
theorem ofProperties_eq (s : Sanitizer) (properties : List (Scalar × Node)) : ofProperties s properties =
    (properties.map fun p => s.identifier p.1.text).eraseDups.map fun i => ⟨i, membersOf s properties i⟩ := by
  rw [← identifiers_ofProperties, List.map_map]
  refine (List.map_id _).symm.trans (List.map_congr_left fun g hg => ?_)
  rw [Function.comp_apply, ← (groups_ofProperties s properties).members g hg]
  rfl

end Group

/-- The check of all groups is that of every property's group, in the order of the properties. -/
theorem checkCollisions_eq (s : Sanitizer) (properties : List (Scalar × Node)) (path : String) :
    checkCollisions s properties path = properties.forM fun p =>
      Group.check ⟨s.identifier p.1.text, Group.membersOf s properties (s.identifier p.1.text)⟩ path := by
  unfold checkCollisions
  rw [Group.ofProperties_eq]
  calc _ = (properties.map fun p => s.identifier p.1.text).eraseDups.forM fun i =>
        Group.check ⟨i, Group.membersOf s properties i⟩ path := List.forM_map
    _ = (properties.map fun p => s.identifier p.1.text).forM fun i =>
        Group.check ⟨i, Group.membersOf s properties i⟩ path := forM_eraseDups _ _
    _ = _ := List.forM_map

namespace Group

/-- A property as collisions are checked: its shape does not matter. -/
def outline (p : Scalar × Node) : Scalar × Node := (p.1, .any p.2.traits)

theorem check_outline (identifier : String) (members : List (Scalar × Node)) (path : String) :
    check ⟨identifier, members.map outline⟩ path = check ⟨identifier, members⟩ path := by
  match members with
  | [] | [_] => rfl
  | p :: q :: rest =>
    let mark (p : Scalar × Node) : Except Failure Bool := liftM p.2.isDeprecated
    have marks : ((p :: q :: rest).map outline).mapM mark = (p :: q :: rest).mapM mark := List.mapM_map
    have names : ((p :: q :: rest).map outline).map (·.1) = (p :: q :: rest).map (·.1) := List.map_map
    simp only [List.map_cons, mark] at marks names
    simp only [check, Group.names, List.map_cons, marks, names, List.length_cons, List.length_map]

theorem membersOf_outline (s : Sanitizer) (properties : List (Scalar × Node)) (identifier : String) :
    membersOf s (properties.map outline) identifier = (membersOf s properties identifier).map outline :=
  List.filter_map

end Group

theorem checkCollisions_outline (s : Sanitizer) (properties : List (Scalar × Node)) (path : String) :
    checkCollisions s (properties.map Group.outline) path = checkCollisions s properties path := by
  rw [checkCollisions_eq, checkCollisions_eq]
  refine List.forM_map.trans (congrArg (properties.forM ·) (funext fun p => ?_))
  rw [Group.membersOf_outline, Group.check_outline]
  rfl

theorem givesWay_outline (s : Sanitizer) (properties : List (Scalar × Node)) (p : Scalar × Node) :
    givesWay s (properties.map Group.outline) (Group.outline p) = givesWay s properties p := by
  unfold givesWay
  rw [List.countP_map]
  rfl

/-- The description is a text, or there is none. -/
def Node.Described (n : Node) : Prop :=
  n.traits.description = .null ∨ ∃ text, n.traits.description = .str text

theorem Node.Described.isDeprecated {n : Node} (h : n.Described) : n.isDeprecated = .ok n.isMarked := by
  have known : ∃ b, n.isDeprecated = .ok b := by
    unfold Node.isDeprecated Traits.isDeprecated
    rcases h with h | ⟨text, h⟩
    · exact ⟨false, by rw [h]; rfl⟩
    · rw [h]
      split
      · exact ⟨false, rfl⟩
      · exact ⟨_, rfl⟩
  obtain ⟨b, hb⟩ := known
  unfold Node.isMarked
  rw [hb]

namespace Group

/-- A property alone, or a pair of which one is deprecated and the other one is not. -/
def Reducible (members : List (Scalar × Node)) : Prop :=
  members.length = 1 ∨ members.length = 2 ∧ members.countP (·.2.isMarked) = 1

instance (members : List (Scalar × Node)) : Decidable (Reducible members) :=
  inferInstanceAs (Decidable (_ ∨ _))

/-- What the check of a group finds where all descriptions are texts. -/
theorem check_eq {g : Group} (hd : ∀ p ∈ g.members, p.2.Described) (hne : g.members ≠ []) (path : String) :
    g.check path = if Reducible g.members then .ok () else
      .error (.generator (.duplicateField g.identifier g.names (.str path))) := by
  have known : g.members.map (·.2.isDeprecated) = (g.members.map (·.2.isMarked)).map .ok := by
    rw [List.map_map]
    exact List.map_congr_left fun p hp => (hd p hp).isDeprecated
  have marks := marks_eq_ok.2 known
  have split : g.members.length =
      g.members.countP (·.2.isMarked) + (g.members.map (·.2.isMarked)).count false := by
    rw [List.length_eq_countP_add_countP (·.2.isMarked), List.count_eq_countP, List.countP_map]
    simp [Function.comp_def]
  unfold check
  split
  · next h => exact absurd h hne
  · next p h => rw [if_pos (.inl (by simp [h]))]
  · next h₀ h₁ =>
    -- of two members or more, all but one must be deprecated, and there may be no third one
    have long : 2 ≤ g.members.length := by
      cases hm : g.members with
      | nil => exact absurd hm h₀
      | cons p rest =>
        cases rest with
        | nil => exact absurd hm (h₁ p)
        | cons q rest => simp
    have refused : (g.members.length > 2 || (g.members.map (·.2.isMarked)).count false ≠ 1) = true ↔
        ¬ Reducible g.members := by
      unfold Reducible
      simp only [Bool.or_eq_true, decide_eq_true_eq]
      omega
    rw [marks]
    by_cases hr : Reducible g.members
    · rw [if_pos hr]
      exact if_neg (mt refused.1 (not_not_intro hr))
    · rw [if_neg hr]
      exact if_pos (refused.2 hr)

end Group

variable {s : Sanitizer} {properties : List (Scalar × Node)} {path : String}

/-- The properties that share the identifier of a property. -/
def sharing (s : Sanitizer) (properties : List (Scalar × Node)) (p : Scalar × Node) : List (Scalar × Node) :=
  Group.membersOf s properties (s.identifier p.1.text)

/-- Whether a property is the deprecated member of a pair. -/
def isReplaced (s : Sanitizer) (properties : List (Scalar × Node)) (p : Scalar × Node) : Bool :=
  p.2.isMarked && (sharing s properties p).length = 2

theorem mem_sharing {p q : Scalar × Node} :
    q ∈ sharing s properties p ↔ q ∈ properties ∧ s.identifier q.1.text = s.identifier p.1.text := by
  simp [sharing, Group.membersOf]

theorem sharing_congr {p q : Scalar × Node} (h : s.identifier q.1.text = s.identifier p.1.text) :
    sharing s properties q = sharing s properties p := by
  rw [sharing, sharing, h]

theorem check_sharing (hd : ∀ p ∈ properties, p.2.Described) {p : Scalar × Node} (hp : p ∈ properties)
    (path : String) : Group.check ⟨s.identifier p.1.text, sharing s properties p⟩ path =
      if Group.Reducible (sharing s properties p) then .ok () else
        .error (.generator (.duplicateField (s.identifier p.1.text) ((sharing s properties p).map (·.1))
          (.str path))) :=
  Group.check_eq (fun q hq => hd q (mem_sharing.1 hq).1)
    (List.ne_nil_of_mem (mem_sharing.2 ⟨hp, rfl⟩)) path

theorem checkCollisions_ok_iff (hd : ∀ p ∈ properties, p.2.Described) :
    checkCollisions s properties path = .ok () ↔
      ∀ p ∈ properties, Group.Reducible (sharing s properties p) := by
  rw [checkCollisions_eq, forM_eq_ok]
  refine forall₂_congr fun p hp => ?_
  show Group.check ⟨_, sharing s properties p⟩ path = _ ↔ _
  rw [check_sharing hd hp]
  simp

theorem checkCollisions_error_iff (hd : ∀ p ∈ properties, p.2.Described) {e : Failure} :
    checkCollisions s properties path = .error e ↔ ∃ before p after, properties = before ++ p :: after ∧
      (∀ q ∈ before, Group.Reducible (sharing s properties q)) ∧
      ¬ Group.Reducible (sharing s properties p) ∧
      e = .generator (.duplicateField (s.identifier p.1.text) ((sharing s properties p).map (·.1))
        (.str path)) := by
  rw [checkCollisions_eq, forM_eq_error]
  refine exists₃_congr fun before p after => and_congr_right fun hs => ?_
  have member : ∀ q, q ∈ before ∨ q = p → q ∈ properties := by
    subst hs
    rintro q (hq | rfl) <;> simp [*]
  refine and_congr (forall₂_congr fun q hq => ?_) ?_
  · show Group.check ⟨_, sharing s properties q⟩ path = _ ↔ _
    rw [check_sharing hd (member q (.inl hq))]
    simp
  · show Group.check ⟨_, sharing s properties p⟩ path = _ ↔ _
    rw [check_sharing hd (member p (.inr rfl))]
    split
    · next hr => simp [hr]
    · next hr => simp [hr, eq_comm]

/-- A group that can be reduced has two members at most. -/
theorem givesWay_eq_isReplaced (h : ∀ p ∈ properties, Group.Reducible (sharing s properties p))
    {p : Scalar × Node} (hp : p ∈ properties) : givesWay s properties p = isReplaced s properties p := by
  have count : properties.countP (fun q => s.identifier q.1.text = s.identifier p.1.text) =
      (sharing s properties p).length := List.countP_eq_length_filter
  unfold givesWay isReplaced
  rw [count]
  congr 1
  rcases h p hp with hl | ⟨hl, -⟩ <;> simp [hl]

/-- Some member of a group that can be reduced is kept. -/
theorem exists_not_isReplaced {p : Scalar × Node} (h : Group.Reducible (sharing s properties p)) :
    ∃ q ∈ properties, s.identifier q.1.text = s.identifier p.1.text ∧ isReplaced s properties q = false := by
  by_contra hn
  have replaced : ∀ q ∈ sharing s properties p, q.2.isMarked = true ∧ (sharing s properties p).length = 2 := by
    intro q hq
    obtain ⟨hm, hi⟩ := mem_sharing.1 hq
    have hr : isReplaced s properties q = true := by
      by_contra hf
      exact hn ⟨q, hm, hi, by simpa using hf⟩
    simpa [isReplaced, sharing_congr hi] using hr
  have all : (sharing s properties p).countP (·.2.isMarked) = (sharing s properties p).length :=
    List.countP_eq_length.2 fun q hq => (replaced q hq).1
  have length : (sharing s properties p).length ≠ 2 := by
    rcases h with hl | ⟨hl, hc⟩ <;> omega
  cases hs : sharing s properties p with
  | nil => rcases h with hl | ⟨hl, -⟩ <;> simp [hs] at hl
  | cons q rest => exact length (replaced q (hs ▸ List.mem_cons_self)).2

theorem reduceCollisions_ok_iff {kept : List Member} : reduceCollisions s properties path = .ok kept ↔
    checkCollisions s properties path = .ok () ∧
      (keptProperties s properties).map (fun (name, node) => ⟨s.identifier name.text, name, node⟩) = kept := by
  unfold reduceCollisions
  rw [bind_eq_ok]
  exact ⟨fun ⟨_, hc, h⟩ => ⟨hc, pure_eq_ok.1 h⟩, fun ⟨hc, h⟩ => ⟨(), hc, pure_eq_ok.2 h⟩⟩

theorem reduceCollisions_error_iff {e : Failure} :
    reduceCollisions s properties path = .error e ↔ checkCollisions s properties path = .error e := by
  unfold reduceCollisions
  cases checkCollisions s properties path <;> simp [bind, Except.bind, pure, Except.pure]

/-- Properties are reduced to fields exactly when each of them is alone under its identifier or in a pair with
one deprecated member. Then all but the deprecated members are left, in order, one for each identifier; else
the first property of a group that cannot be reduced decides the failure, which names the whole group. -/
theorem reduceCollisions_iff (s : Sanitizer) (properties : List (Scalar × Node)) (path : String)
    (hd : ∀ p ∈ properties, p.2.Described) :
    ((∃ kept, reduceCollisions s properties path = .ok kept) ↔
      ∀ p ∈ properties, Group.Reducible (sharing s properties p)) ∧
    (∀ kept, reduceCollisions s properties path = .ok kept →
      kept = (properties.filter (!isReplaced s properties ·)).map
        (fun (name, node) => ⟨s.identifier name.text, name, node⟩) ∧
      (kept.map (·.identifier)).Nodup ∧
      ∀ p ∈ properties, s.identifier p.1.text ∈ kept.map (·.identifier)) ∧
    ∀ e, reduceCollisions s properties path = .error e ↔ ∃ before p after, properties = before ++ p :: after ∧
      (∀ q ∈ before, Group.Reducible (sharing s properties q)) ∧
      ¬ Group.Reducible (sharing s properties p) ∧
      e = .generator (.duplicateField (s.identifier p.1.text) ((sharing s properties p).map (·.1))
        (.str path)) := by
  refine ⟨?_, fun kept h => ?_, fun e => ?_⟩
  · have passes : checkCollisions s properties path = .ok () ↔ _ := checkCollisions_ok_iff hd
    rw [← passes]
    exact ⟨fun ⟨_, h⟩ => (reduceCollisions_ok_iff.1 h).1, fun h => ⟨_, reduceCollisions_ok_iff.2 ⟨h, rfl⟩⟩⟩
  · obtain ⟨hc, rfl⟩ := reduceCollisions_ok_iff.1 h
    have reducible := (checkCollisions_ok_iff hd).1 hc
    have left : keptProperties s properties = properties.filter (!isReplaced s properties ·) :=
      List.filter_congr fun p hp => by rw [givesWay_eq_isReplaced reducible hp]
    have identifiers : (((keptProperties s properties).map fun (name, node) =>
        (⟨s.identifier name.text, name, node⟩ : Member)).map (·.identifier)) =
          (keptProperties s properties).map fun p => s.identifier p.1.text := List.map_map
    rw [identifiers]
    refine ⟨by rw [left], keptProperties_nodup hc, fun p hp => ?_⟩
    obtain ⟨q, hq, same, hr⟩ := exists_not_isReplaced (reducible p hp)
    rw [left, ← same]
    exact List.mem_map_of_mem (List.mem_filter.2 ⟨hq, by simp [hr]⟩)
  · rw [reduceCollisions_error_iff]
    exact checkCollisions_error_iff hd

/-- Two spellings of a port, of which one is deprecated, around another property. -/
def portProperties : List (Scalar × Node) :=
  [(.str "host_port", .basic { description := .str "Deprecated, see host-port" } .integer),
   (.str "name", .any {}),
   (.str "host-port", .basic { description := .str "A port" } .integer)]

/-- A third spelling after them, deprecated as well. -/
def clashingPorts : List (Scalar × Node) :=
  portProperties ++ [(.str "host.port", .any { description := .str "DEPRECATED" })]

theorem reduceCollisions_iff_ports :
    (∃ kept, reduceCollisions Java.sanitizer portProperties "io.Pod" = .ok kept ∧
      kept.map (fun m => (m.identifier, m.name)) = [("name", .str "name"), ("hostPort", .str "host-port")] ∧
      (kept.map (·.identifier)).Nodup) ∧
    reduceCollisions Java.sanitizer clashingPorts "io.Pod" = .error (.generator (.duplicateField "hostPort"
      [.str "host_port", .str "host-port", .str "host.port"] (.str "io.Pod"))) := by
  have described : ∀ p ∈ clashingPorts, p.2.Described := by
    simp [clashingPorts, portProperties, Node.Described, Node.traits]
  obtain ⟨succeeds, given, -⟩ := reduceCollisions_iff Java.sanitizer portProperties "io.Pod"
    fun p hp => described p (List.mem_append_left _ hp)
  obtain ⟨-, -, fails⟩ := reduceCollisions_iff Java.sanitizer clashingPorts "io.Pod" described
  constructor
  · obtain ⟨kept, h⟩ := succeeds.2 (by decide +kernel)
    obtain ⟨rfl, distinct, -⟩ := given kept h
    exact ⟨_, h, by decide +kernel, distinct⟩
  · exact (fails _).2 ⟨[], _, _, rfl, by simp, by decide +kernel, rfl⟩

end ResourceCompiler
