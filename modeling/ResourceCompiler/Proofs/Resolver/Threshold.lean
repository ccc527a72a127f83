import ResourceCompiler.Compile
import ResourceCompiler.Proofs.Failure
import ResourceCompiler.Proofs.Resolver.Depth
import ResourceCompiler.Proofs.Resolver.Runs
import ResourceCompiler.Proofs.Schema.Height

/-!
# The exact threshold of a nesting limit

A limit decides whether a run stops at it and nothing else: a run that does not stop there does the same under
every higher limit (`Stands`), for reading, resolving and compiling alike. Reading stops exactly under the
limits that do not reach the height of the fragment.
-/

namespace ResourceCompiler

variable {α β : Type}

/-- The second run does what the first one does, unless that stops at its nesting limit. -/
def Stands (x y : Except Failure α) : Prop := Shallow x → y = x

namespace Stands

theorem refl (x : Except Failure α) : Stands x x := fun _ => rfl

theorem bind {x y : Except Failure α} {f g : α → Except Failure β} (hx : Stands x y)
    (hf : ∀ a, Stands (f a) (g a)) : Stands (x >>= f) (y >>= g) := by
  intro h
  cases x with
  | ok a =>
    rw [hx (.ok a)]
    exact hf a h
  | error e =>
    have first : Shallow (.error e : Except Failure α) := fun limit path he => h limit path (by cases he; rfl)
    rw [hx first]
    rfl

theorem ite {p : Prop} [Decidable p] {x x' y y' : Except Failure α} (hx : Stands x y) (hx' : Stands x' y') :
    Stands (if p then x else x') (if p then y else y') := by
  split
  · exact hx
  · exact hx'

theorem mapM {f g : α → Except Failure β} (xs : List α) (h : ∀ x, Stands (f x) (g x)) :
    Stands (xs.mapM f) (xs.mapM g) := by
  induction xs with
  | nil => exact .refl _
  | cons x xs ih =>
    rw [List.mapM_cons, List.mapM_cons]
    exact .bind (h x) fun _ => .bind ih fun _ => .refl _

/-- Past a check of a nesting limit, a higher one lets through as well. -/
theorem check {limit m : Limit} {depth : Int} {place : Value} (h : limit ≤ m) : Stands
    (if limit.exceededBy depth then .error (.generator (.tooDeep limit place)) else .ok ())
    (if m.exceededBy depth then .error (.generator (.tooDeep m place)) else .ok ()) := by
  intro shallow
  cases hd : limit.exceededBy depth with
  | true =>
    rw [hd] at shallow
    exact absurd rfl (shallow limit place)
  | false =>
    rw [Limit.not_exceededBy_of_le h hd]
    rfl

end Stands

/-- A failure at a nesting limit is one at this limit, which does not reach the depth. -/
def StopsAt (limit : Limit) (depth : Int) (e : Failure) : Prop :=
  ∀ l place, e = .generator (.tooDeep l place) → l = limit ∧ limit.exceededBy depth = true

theorem StopsAt.mono {limit : Limit} {d d' : Int} {e : Failure} (h : StopsAt limit d e) (hd : d ≤ d') :
    StopsAt limit d' e := by
  intro l place he
  obtain ⟨rfl, exceeded⟩ := h l place he
  exact ⟨rfl, Limit.exceededBy_mono hd exceeded⟩

theorem Shallow.stopsAt {x : Except Failure α} (h : Shallow x) (limit : Limit) (depth : Int) :
    OnlyFails (StopsAt limit depth) x := by
  rintro e he l place rfl
  exact absurd he (h l place)

namespace Node

variable {limit m : Limit} {path : Value} {depth : Nat}

theorem readFragment_of_isMap {v : Value} (h : v.isMap = false) : readFragment limit path depth v = (do
    checkDepth limit path depth
    failShape (.notMapping v) path) := by
  rw [readFragment]
  rintro es rfl
  cases h

theorem basicOf_shallow (type path : Value) : Shallow (basicOf type path) := by
  refine .bind (.fault _) fun name _ => ?_
  cases name with
  | str s =>
    cases hb : Basic.ofName? s with
    | some b => simpa only [hb] using .ok b
    | none => simpa only [hb] using .shape _ _
  | _ => exact .shape _ _

theorem checkDepth_stopsAt : OnlyFails (StopsAt limit depth) (checkDepth limit path depth) := by
  unfold checkDepth
  split
  · next h =>
    refine .error fun l place he => ?_
    cases he
    exact ⟨rfl, h⟩
  · exact .ok ()

theorem readMembers_stopsAt {members : Entries}
    (h : ∀ e ∈ members, ∀ path,
      OnlyFails (StopsAt limit (depth + 1 + height e.2 : Nat)) (readFragment limit path (depth + 1) e.2)) :
    OnlyFails (StopsAt limit (depth + membersHeight members : Nat)) (readMembers limit path depth members) := by
  induction members with
  | nil => exact .ok []
  | cons e members ih =>
    obtain ⟨first, rest⟩ := List.forall_mem_cons.1 h
    rw [readMembers, membersHeight]
    refine .bind ((first _).mono fun _ he => he.mono (by omega)) fun _ _ => ?_
    exact .bind ((ih rest).mono fun _ he => he.mono (by omega)) fun _ _ => .ok _

/-- Reading only stops at a limit that does not reach the height of the fragment. -/
theorem readFragment_stopsAt (limit : Limit) (v path : Value) (depth : Nat) :
    OnlyFails (StopsAt limit (depth + height v : Nat)) (readFragment limit path depth v) := by
  have check {path : Value} {d d' : Nat} (h : d ≤ d') :
      OnlyFails (StopsAt limit d') (checkDepth limit path d) :=
    checkDepth_stopsAt.mono fun _ he => he.mono (by omega)
  induction v using fragment_induction generalizing path depth with
  | scalar s | list xs =>
    rw [readFragment_of_isMap rfl]
    exact .bind (check (by omega)) fun _ _ => Shallow.stopsAt (.shape _ _) _ _
  | map es items additionalProperties members =>
    rw [readFragment]
    refine .bind (check (by omega)) fun _ _ => ?_
    -- a part lies one level below the fragment, and the height of the fragment is that of its highest part
    cases hs : shapeOf es with
    | enum => exact Shallow.stopsAt (.bind (basicOf_shallow _ _) fun _ _ => .bind (.fault _) fun _ _ => .ok _) _ _
    | any => exact .ok _
    | basic => exact Shallow.stopsAt (.bind (basicOf_shallow _ _) fun _ _ => .ok _) _ _
    | array =>
      refine .bind ?_ fun _ _ => .ok _
      rw [readItems_eq, height_array hs]
      split
      · exact (items _ _).mono fun _ he => he.mono (by omega)
      · exact .bind (check (by omega)) fun _ _ => .ok _
    | object =>
      have additional : OnlyFails (StopsAt limit (depth + height (.map es) : Nat))
          (readAdditional limit path depth es) := by
        rw [readAdditional_eq, height_object hs, additionalHeight_eq]
        split
        · exact .bind ((additionalProperties _ _).mono fun _ he => he.mono (by omega)) fun _ _ => .ok _
        · exact .ok _
      have properties : OnlyFails (StopsAt limit (depth + height (.map es) : Nat))
          (readProperties limit path depth es) := by
        rw [readProperties_eq, height_object hs]
        split
        · next declared hm =>
          have deepest : propertiesHeight es = membersHeight declared := by rw [propertiesHeight_eq, hm]
          rw [deepest]
          exact (readMembers_stopsAt fun e he _ => members _ hm e he _ _).mono fun _ he => he.mono (by omega)
        · split
          · refine .error fun l place he => ?_
            cases he
          · exact .ok []
      refine .bind additional fun a _ => ?_
      have object := OnlyFails.bind properties fun ps _ => OnlyFails.bind
        (Shallow.stopsAt (.fault (requiredNames (es.get "required"))) _ _) fun required _ =>
          OnlyFails.ok (Node.object (traitsOf es) ps required a)
      cases a with
      | typed schema =>
        simp only []
        split
        · exact object
        · exact .ok _
      | closed | «open» => exact object

theorem readMembers_stands {members : Entries} (h : ∀ e ∈ members, ∀ path,
      Stands (readFragment limit path (depth + 1) e.2) (readFragment m path (depth + 1) e.2)) :
    Stands (readMembers limit path depth members) (readMembers m path depth members) := by
  induction members with
  | nil => exact .refl _
  | cons e members ih =>
    obtain ⟨first, rest⟩ := List.forall_mem_cons.1 h
    rw [readMembers, readMembers]
    exact .bind (first _) fun _ => .bind (ih rest) fun _ => .refl _

theorem readFragment_stands (h : limit ≤ m) (v path : Value) (depth : Nat) :
    Stands (readFragment limit path depth v) (readFragment m path depth v) := by
  induction v using fragment_induction generalizing path depth with
  | scalar s | list xs =>
    rw [readFragment_of_isMap rfl, readFragment_of_isMap rfl]
    exact .bind (.check h) fun _ => .refl _
  | map es items additionalProperties members =>
    rw [readFragment, readFragment]
    refine .bind (.check h) fun _ => ?_
    cases hs : shapeOf es with
    | enum | any | basic => exact .refl _
    | array =>
      refine .bind ?_ fun _ => .refl _
      rw [readItems_eq, readItems_eq]
      exact .ite (items _ _) (.bind (.check h) fun _ => .refl _)
    | object =>
      have additional : Stands (readAdditional limit path depth es) (readAdditional m path depth es) := by
        rw [readAdditional_eq, readAdditional_eq]
        exact .ite (.bind (additionalProperties _ _) fun _ => .refl _) (.refl _)
      have properties : Stands (readProperties limit path depth es) (readProperties m path depth es) := by
        rw [readProperties_eq, readProperties_eq]
        split
        · next hm => exact readMembers_stands fun e he _ => members _ hm e he _ _
        · exact .refl _
      refine .bind additional fun a => ?_
      cases a with
      | typed schema => exact .ite (.bind properties fun _ => .refl _) (.refl _)
      | closed | «open» => exact .bind properties fun _ => .refl _

theorem ofValue_stands (h : limit ≤ m) (raw path : Value) : Stands (ofValue raw path limit) (ofValue raw path m) :=
  readFragment_stands h _ _ _

end Node

namespace Resolver

/-- The same resolver under another nesting limit. -/
def limited (r : Resolver) (m : Limit) : Resolver :=
  { r with config := { r.config with maxDepth := m } }

variable {r : Resolver} {m : Limit}

theorem checkDepth_stands (h : r.config.maxDepth ≤ m) (path : String) (depth : Int) :
    Stands (r.checkDepth path depth) ((r.limited m).checkDepth path depth) :=
  .check h

theorem resolveEnum_limited (node : Node) (name : String) (package : List String) (owner? : Option String)
    (path : String) :
    (r.limited m).resolveEnum node name package owner? path = r.resolveEnum node name package owner? path :=
  resolveEnum_congr (show (r.limited m).names = r.names from rfl) rfl rfl node name package owner? path

theorem resolveMembers_stands {scope : Scope} {depth : Int} {required : List Scalar}
    {siblings ps : List (Scalar × Node)} (members : Members)
    (h : ∀ p ∈ ps, ∀ name package owner? path, Stands (r.resolve name package owner? path (depth + 1) p.2)
      ((r.limited m).resolve name package owner? path (depth + 1) p.2)) :
    Stands (r.resolveMembers scope depth required siblings members ps)
      ((r.limited m).resolveMembers scope depth required siblings members ps) := by
  induction ps generalizing members with
  | nil =>
    rw [resolveMembers, resolveMembers]
    exact .refl _
  | cons p ps ih =>
    obtain ⟨property, node⟩ := p
    obtain ⟨first, rest⟩ := List.forall_mem_cons.1 h
    rw [resolveMembers, resolveMembers]
    refine .ite (ih _ rest) (.bind (first _ _ _ _) fun resolved => .bind (.refl _) fun field => ?_)
    exact .bind (.refl _) fun members => ih members rest

theorem resolveAdditional_stands {scope : Scope} {depth : Int} {additional : Additional Node}
    (h : ∀ s, additional = .typed s → ∀ name package owner? path,
      Stands (r.resolve name package owner? path (depth + 1) s)
        ((r.limited m).resolve name package owner? path (depth + 1) s)) :
    Stands (r.resolveAdditional scope depth additional) ((r.limited m).resolveAdditional scope depth additional) := by
  cases additional with
  | typed schema =>
    rw [resolveAdditional, resolveAdditional]
    exact .bind (h schema rfl _ _ _ _) fun _ => .refl _
  | closed | «open» =>
    rw [resolveAdditional, resolveAdditional]
    exact .refl _

theorem buildClass_stands (traits : Traits) (properties : List (Scalar × Node)) (additional : Additional Node)
    (name : String) (package : List String) (path : String) {members members' : Scope → Except Failure Members}
    {value value' : Scope → Except Failure (Option Resolution)}
    (hm : ∀ scope, Stands (members scope) (members' scope)) (hv : ∀ scope, Stands (value scope) (value' scope)) :
    Stands (r.buildClass traits properties additional name package path members value)
      ((r.limited m).buildClass traits properties additional name package path members' value') := by
  have scope : (r.limited m).scopeOf name package path = r.scopeOf name package path := rfl
  have existing : (r.limited m).config.existingType? = r.config.existingType? := rfl
  simp only [buildClass, scope, existing]
  cases r.config.existingType? (r.scopeOf name package path).className with
  | some override => exact .refl _
  | none => exact .bind (.refl _) fun _ => .bind (hm _) fun _ => .bind (hv _) fun _ => .refl _

theorem resolve_stands (h : r.config.maxDepth ≤ m) (name : String) (package : List String)
    (owner? : Option String) (path : String) (depth : Int) (node : Node) :
    Stands (r.resolve name package owner? path depth node)
      ((r.limited m).resolve name package owner? path depth node) := by
  induction node generalizing name package owner? path depth with
  | object traits properties required additional ihp iha =>
    rw [resolve, resolve]
    refine .bind (checkDepth_stands h _ _) fun _ => .ite (.refl _) (.ite (.refl _) ?_)
    refine buildClass_stands _ _ _ _ _ _ (fun scope => ?_) fun scope => ?_
    · exact resolveMembers_stands _ fun p hp _ _ _ _ => ihp p hp _ _ _ _ _
    · exact resolveAdditional_stands fun s hs _ _ _ _ => iha s hs _ _ _ _ _
  | array traits items ih =>
    rw [resolve, resolve]
    exact .bind (checkDepth_stands h _ _) fun _ => .ite (.refl _) (.bind (ih _ _ _ _ _) fun _ => .refl _)
  | map traits values ih =>
    rw [resolve, resolve]
    exact .bind (checkDepth_stands h _ _) fun _ => .ite (.refl _) (.bind (ih _ _ _ _ _) fun _ => .refl _)
  | enum traits base values =>
    rw [resolve, resolve, resolveEnum_limited]
    exact .bind (checkDepth_stands h _ _) fun _ => .refl _
  | basic traits type =>
    rw [resolve, resolve]
    exact .bind (checkDepth_stands h _ _) fun _ => .refl _
  | any traits =>
    rw [resolve, resolve]
    exact .bind (checkDepth_stands h _ _) fun _ => .refl _

theorem resolveObject_stands (h : r.config.maxDepth ≤ m) (node : Node) (name : String) (package : List String)
    (path : String) (depth : Int) : Stands (r.resolveObject node name package path depth)
      ((r.limited m).resolveObject node name package path depth) := by
  refine .bind (checkDepth_stands h _ _) fun _ => ?_
  refine buildClass_stands _ _ _ _ _ _ (fun scope => ?_) fun scope => ?_
  · exact resolveMembers_stands _ fun p _ _ _ _ _ => resolve_stands h _ _ _ _ _ _
  · exact resolveAdditional_stands fun s _ _ _ _ _ => resolve_stands h _ _ _ _ _ _

theorem compileSchema_stands (h : r.config.maxDepth ≤ m) (schema : Value) (name : String) (package : Value) :
    Stands (r.compileSchema schema name package) ((r.limited m).compileSchema schema name package) := by
  refine .bind ?_ fun _ => .refl _
  refine .bind (Node.ofValue_stands h _ _) fun _ => .bind (.refl _) fun _ => ?_
  exact resolveObject_stands h _ _ _ _ _

theorem resolvePart_stands (h : r.config.maxDepth ≤ m) (node? : Option Node) (simpleName resourceName : String)
    (package : List String) (suffix part : String) :
    Stands (r.resolvePart node? simpleName resourceName package suffix part)
      ((r.limited m).resolvePart node? simpleName resourceName package suffix part) := by
  cases node? with
  | none => exact .refl _
  | some node => exact .bind (resolveObject_stands h _ _ _ _ _) fun _ => .refl _

theorem compileVersion_stands (h : r.config.maxDepth ≤ m) (d : Definition) (version : Value) :
    Stands (r.compileVersion d version) ((r.limited m).compileVersion d version) := by
  refine .bind (.bind (.refl _) fun (es, name) => ?_) fun _ => .refl _
  refine .bind (.bind (.refl _) fun _ => Node.ofValue_stands h _ _) fun root => ?_
  exact .bind (resolvePart_stands h _ _ _ _ _ _) fun _ => .bind (resolvePart_stands h _ _ _ _ _ _) fun _ => .refl _

theorem compileDefinition_stands (h : r.config.maxDepth ≤ m) (document : Value) :
    Stands (r.compileDefinition document) ((r.limited m).compileDefinition document) :=
  .bind (.refl _) fun _ => .bind (.refl _) fun (_, d) => .bind (.refl _) fun versions =>
    .mapM versions fun _ => compileVersion_stands h d _

end Resolver

/-- A fragment that is read under some limit is read as the same tree under every limit of at least its height
and stops at every other one. A run that does not stop at its limit, whether it succeeds or not, does the same
under every higher limit: reading a fragment, compiling a schema and compiling a definition. -/
theorem nesting_threshold :
    (∀ raw path limit n, Node.ofValue raw path limit = .ok n → ∀ m : Limit,
      (.levels (Node.height raw) ≤ m → Node.ofValue raw path m = .ok n) ∧
      (¬ .levels (Node.height raw) ≤ m →
        ∃ place, Node.ofValue raw path m = .error (.generator (.tooDeep m place)))) ∧
    (∀ raw path limit e, Node.ofValue raw path limit = .error e →
      (∀ l place, e ≠ .generator (.tooDeep l place)) →
        ∀ m : Limit, limit ≤ m → Node.ofValue raw path m = .error e) ∧
    ∀ (r : Resolver) (m : Limit), r.config.maxDepth ≤ m →
      (∀ schema name package, Shallow (r.compileSchema schema name package) →
        (r.limited m).compileSchema schema name package = r.compileSchema schema name package) ∧
      ∀ document, Shallow (r.compileDefinition document) →
        (r.limited m).compileDefinition document = r.compileDefinition document := by
  refine ⟨fun raw path limit n h m => ?_, fun raw path limit e h he m hm => ?_, fun r m hm => ?_⟩
  · have height : Node.height (if raw.truthy then raw else .map []) = Node.height raw := by
      split
      · rfl
      · next ht => exact (Node.height_of_falsy (by simpa using ht)).symm
    have unlimited : Node.ofValue raw path .unbounded = .ok n :=
      (Node.ofValue_stands (Limit.le_unbounded limit) raw path (h ▸ .ok n)).trans h
    -- under `m` the fragment is read as under no limit, or not at all
    have read (shallow : Shallow (Node.ofValue raw path m)) : Node.ofValue raw path m = .ok n :=
      (Node.ofValue_stands (Limit.le_unbounded m) raw path shallow).symm.trans unlimited
    have stops : OnlyFails (StopsAt m (Node.height raw)) (Node.ofValue raw path m) := by
      have stops := Node.readFragment_stopsAt m (if raw.truthy then raw else .map []) path 0
      rwa [height, Nat.zero_add] at stops
    refine ⟨fun reached => read fun l place hs => ?_, fun low => ?_⟩
    · rw [Limit.levels_le_iff, (stops _ hs l place rfl).2] at reached
      cases reached
    · by_contra deep
      have shallow : Shallow (Node.ofValue raw path m) := by
        intro l place hs
        obtain ⟨rfl, -⟩ := stops _ hs l place rfl
        exact deep ⟨place, hs⟩
      have reached := (Node.ofValue_eq_ok.1 (read shallow)).reaches
      rw [height, Nat.zero_add] at reached
      exact low (Limit.levels_le_iff.2 reached)
  · rw [Node.ofValue_stands hm raw path (h ▸ .error he), h]
  · exact ⟨fun schema name package => Resolver.compileSchema_stands hm schema name package,
      fun document => Resolver.compileDefinition_stands hm document⟩

/-- Lists of lists of scalars of a type. -/
def nestedLists (type : String) : Value :=
  .map [(.str "type", .str "array"), (.str "items", .map [(.str "type", .str "array"),
    (.str "items", .map [(.str "type", .str type)])])]

/-- A definition whose spec holds such lists. -/
def listsDefinition : Value :=
  .map [(.str "spec", .map [(.str "group", .str "test.io"),
    (.str "names", .map [(.str "kind", .str "Matrix")]),
    (.str "versions", .list [.map [(.str "name", .str "v1"), (.str "schema", .map [(.str "openAPIV3Schema",
      .map [(.str "properties", .map [(.str "spec", .map [(.str "properties", .map [
        (.str "rows", nestedLists "integer")])])])])])]])])]

theorem nesting_threshold_lists :
    (∃ n, Node.ofValue (nestedLists "integer") .null (.levels 64) = .ok n ∧
      Node.height (nestedLists "integer") = 2 ∧ Node.ofValue (nestedLists "integer") .null (.levels 2) = .ok n ∧
      ∃ place, Node.ofValue (nestedLists "integer") .null (.levels 1) =
        .error (.generator (.tooDeep (.levels 1) place))) ∧
    (∃ e, Node.ofValue (nestedLists "float") .null (.levels 2) = .error e ∧
      Node.ofValue (nestedLists "float") .null (.levels 9) = .error e) ∧
    ∃ c cs, ((Java.generator { maxDepth := .levels 4 }).resolver.limited (.levels 9)).compileSchema
        (nestedLists "integer") "Matrix" (.str "io") = .ok c ∧
      ((Java.generator { maxDepth := .levels 4 }).resolver.limited (.levels 9)).compileDefinition
        listsDefinition = .ok cs := by
  obtain ⟨reading, failing, compiling⟩ := nesting_threshold
  obtain ⟨n, hn⟩ : ∃ n, Node.ofValue (nestedLists "integer") .null (.levels 64) = .ok n := ⟨_, rfl⟩
  have height : Node.height (nestedLists "integer") = 2 := by decide
  obtain ⟨reached, -⟩ := reading _ _ _ n hn (.levels 2)
  obtain ⟨-, low⟩ := reading _ _ _ n hn (.levels 1)
  rw [height] at reached low
  obtain ⟨e, he, deep⟩ : ∃ e, Node.ofValue (nestedLists "float") .null (.levels 2) = .error e ∧
      ∀ l place, e ≠ .generator (.tooDeep l place) := ⟨_, rfl, nofun⟩
  obtain ⟨c, hc⟩ : ∃ c, (Java.generator { maxDepth := .levels 4 }).resolver.compileSchema
      (nestedLists "integer") "Matrix" (.str "io") = .ok c := ⟨_, rfl⟩
  obtain ⟨cs, hcs⟩ : ∃ cs, (Java.generator { maxDepth := .levels 4 }).resolver.compileDefinition
      listsDefinition = .ok cs := ⟨_, rfl⟩
  obtain ⟨schemas, definitions⟩ := compiling (Java.generator { maxDepth := .levels 4 }).resolver (.levels 9)
    (Limit.levels_le_levels.2 (by decide))
  refine ⟨⟨n, hn, height, reached (Limit.levels_le_levels.2 (by decide)), low ?_⟩, ⟨e, he, ?_⟩, c, cs, ?_, ?_⟩
  · exact mt Limit.levels_le_levels.1 (by decide)
  · exact failing _ _ _ e he deep (.levels 9) (Limit.levels_le_levels.2 (by decide))
  · rw [schemas _ _ _ (hc ▸ .ok c), hc]
  · rw [definitions _ (hcs ▸ .ok cs), hcs]

end ResourceCompiler
