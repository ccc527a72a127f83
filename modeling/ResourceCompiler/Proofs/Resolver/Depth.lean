import ResourceCompiler.CustomResource
import ResourceCompiler.Java.Generator
import ResourceCompiler.Proofs.Resolver.Checks
import ResourceCompiler.Proofs.Schema.Reading

/-!
# One nesting limit for reading and resolving

Reading and resolving count the levels of a schema apart. `Node.Within` says that no fragment of a tree
lies beyond a limit when the tree itself lies at a depth; reading gives such trees (`Reads.within`), and
their resolution never stops at the limit (`resolve_shallow`). A class or a resource is made of parts
one level down at most, where the spec and the status of a tree lie.
-/

namespace ResourceCompiler

namespace Node

/-- No fragment of the tree lies beyond the limit when the tree lies at the depth. -/
inductive Within (limit : Limit) : Int → Node → Prop
  | object {depth : Int} {traits : Traits} {properties : List (Scalar × Node)} {required : List Scalar}
      {additional : Additional Node} (hd : limit.exceededBy depth = false)
      (member : ∀ p ∈ properties, Within limit (depth + 1) p.2)
      (schema : ∀ s, additional = .typed s → Within limit (depth + 1) s) :
      Within limit depth (.object traits properties required additional)
  | array {depth : Int} {traits : Traits} {items : Node} (hd : limit.exceededBy depth = false)
      (hi : Within limit (depth + 1) items) : Within limit depth (.array traits items)
  | map {depth : Int} {traits : Traits} {values : Node} (hd : limit.exceededBy depth = false)
      (hv : Within limit (depth + 1) values) : Within limit depth (.map traits values)
  | enum {depth : Int} {traits : Traits} {base : Basic} {values : List Value}
      (hd : limit.exceededBy depth = false) : Within limit depth (.enum traits base values)
  | basic {depth : Int} {traits : Traits} {type : Basic} (hd : limit.exceededBy depth = false) :
      Within limit depth (.basic traits type)
  | any {depth : Int} {traits : Traits} (hd : limit.exceededBy depth = false) :
      Within limit depth (.any traits)

variable {limit : Limit} {n : Node}

/-- Reading checks every fragment at the depth at which it lies. -/
theorem Reads.within {depth : Nat} {v : Value} (h : Reads limit depth v n) : n.Within limit depth := by
  induction h with
  | enum hd => exact .enum hd
  | array hd _ _ _ ih => exact .array hd (by exact_mod_cast ih)
  | bareArray hd _ _ hi => exact .array hd (.any (by exact_mod_cast hi))
  | map hd _ _ _ _ ih => exact .map hd (by exact_mod_cast ih)
  | object hd _ _ hk _ _ _ _ _ ihp iha =>
    refine .object hd (fun p hp => ?_) fun s hs => by exact_mod_cast iha s hs
    obtain ⟨e, -, hq⟩ := exists_mem_zip hk hp
    exact_mod_cast ihp _ hq
  | any hd => exact .any hd
  | basic hd => exact .basic hd

namespace Within

variable {depth : Int}

theorem depth_ok (h : n.Within limit depth) : limit.exceededBy depth = false := by
  cases h <;> assumption

theorem properties (h : n.Within limit depth) : ∀ p ∈ n.properties, p.2.Within limit (depth + 1) := by
  cases h with
  | object _ member => exact member
  | _ => exact fun p hp => by cases hp

theorem property? {name : String} {m : Node} (h : n.Within limit depth) (hm : n.property? name = some m) :
    m.Within limit (depth + 1) := by
  obtain ⟨p, hp, rfl⟩ := Option.map_eq_some_iff.1 hm
  exact h.properties p (List.mem_of_find?_eq_some hp)

theorem additionalOf (h : n.Within limit depth) :
    ∀ s, Resolver.additionalOf n = .typed s → s.Within limit (depth + 1) := by
  intro s hs
  cases h with
  | object _ _ schema => exact schema s hs
  | map _ hv =>
    cases hs
    exact hv
  | _ => cases hs

end Within

end Node

open Node (Within)

namespace Resolver

variable {r : Resolver}

theorem checkDepth_shallow {depth : Int} (h : r.config.maxDepth.exceededBy depth = false) (path : String) :
    Shallow (r.checkDepth path depth) := by
  unfold checkDepth
  rw [h]
  exact .ok ()

/-- Spelling a value as a literal has nothing to do with depths. -/
def LiteralsShallow (types : Dialect) : Prop := ∀ value primitive, Shallow (types.literal value primitive)

theorem resolveEnum_shallow (hl : LiteralsShallow r.types) (node : Node) (name : String)
    (package : List String) (owner? : Option String) (path : String) :
    Shallow (r.resolveEnum node name package owner? path) :=
  shallow_iff.2 <| resolveEnum_fails (fun _ he => he.shallow)
    (fun value primitive => shallow_iff.1 (hl value primitive)) _ _ _ _

theorem buildClass_shallow (traits : Traits) (properties : List (Scalar × Node))
    (additional : Additional Node) (name : String) (package : List String) (path : String)
    {members : Scope → Except Failure Members} {value : Scope → Except Failure (Option Resolution)}
    (hm : ∀ scope, Shallow (members scope)) (hv : ∀ scope, Shallow (value scope)) :
    Shallow (r.buildClass traits properties additional name package path members value) := by
  unfold buildClass
  simp only []
  split
  · exact .ok _
  · exact .bind (.of_placed (checkCollisions_placed _ _ _)) fun _ _ => .bind (hm _) fun _ _ =>
      .bind (hv _) fun _ _ => .bind (.of_placed (addCatchAll_placed _ _ _)) fun _ _ => .ok _

/-- The resolution of a member one level below the class. -/
theorem resolveMembers_shallow {scope : Scope} {depth : Int} {required : List Scalar}
    {siblings ps : List (Scalar × Node)} (m : Members)
    (h : ∀ p ∈ ps, ∀ name package owner? path, Shallow (r.resolve name package owner? path (depth + 1) p.2)) :
    Shallow (r.resolveMembers scope depth required siblings m ps) := by
  induction ps generalizing m with
  | nil => exact .ok _
  | cons p ps ih =>
    obtain ⟨property, node⟩ := p
    have rest := fun m => ih m fun q hq => h q (List.mem_cons_of_mem _ hq)
    rw [resolveMembers]
    split
    · exact rest m
    · exact .bind (h _ List.mem_cons_self _ _ _ _) fun _ _ => .bind (.fault _) fun _ _ =>
        .bind (.of_placed (Members.add_placed _ _ _ _ _)) fun _ _ => rest _

theorem resolveAdditional_shallow {scope : Scope} {depth : Int} {additional : Additional Node}
    (h : ∀ s, additional = .typed s →
      ∀ name package owner? path, Shallow (r.resolve name package owner? path (depth + 1) s)) :
    Shallow (r.resolveAdditional scope depth additional) := by
  cases additional with
  | typed schema =>
    rw [resolveAdditional]
    exact .bind (h schema rfl _ _ _ _) fun _ _ => .ok _
  | closed | «open» =>
    rw [resolveAdditional]
    exact .ok _

theorem guarded_shallow {depth : Int} {path : String} {traits : Traits} {x : Except Failure Resolution}
    (hd : r.config.maxDepth.exceededBy depth = false) (hx : Shallow x) :
    Shallow (do
      r.checkDepth path depth
      if traits.intOrString then return existing r.types.intOrString else x) := by
  refine .bind (checkDepth_shallow hd _) fun _ _ => ?_
  split
  · exact .ok _
  · exact hx

/-- Every fragment of the tree passes the check at the depth where the resolution meets it. -/
theorem resolve_shallow (hl : LiteralsShallow r.types) {node : Node} {depth : Int}
    (h : node.Within r.config.maxDepth depth) (name : String) (package : List String)
    (owner? : Option String) (path : String) : Shallow (r.resolve name package owner? path depth node) := by
  induction h generalizing name package owner? path with
  | object hd _ _ ihp iha =>
    rw [resolve]
    refine guarded_shallow hd ?_
    split
    · exact .ok _
    · refine buildClass_shallow _ _ _ _ _ _ (fun scope => ?_) fun scope => ?_
      · exact resolveMembers_shallow _ fun p hp _ _ _ _ => ihp p hp _ _ _ _
      · exact resolveAdditional_shallow fun s hs _ _ _ _ => iha s hs _ _ _ _
  | array hd _ ih =>
    rw [resolve]
    exact guarded_shallow hd (.bind (ih _ _ _ _) fun _ _ => .ok _)
  | map hd _ ih =>
    rw [resolve]
    exact guarded_shallow hd (.bind (ih _ _ _ _) fun _ _ => .ok _)
  | enum hd =>
    rw [resolve]
    exact guarded_shallow hd (resolveEnum_shallow hl _ _ _ _ _)
  | basic hd =>
    rw [resolve]
    exact guarded_shallow hd (.bind (.of_placed (resolvePrimitive_placed _ _)) fun _ _ => .ok _)
  | any hd =>
    rw [resolve]
    exact .bind (checkDepth_shallow hd _) fun _ _ => .ok _

theorem resolveObject_shallow (hl : LiteralsShallow r.types) {node : Node} {depth : Int}
    (h : node.Within r.config.maxDepth depth) (name : String) (package : List String) (path : String) :
    Shallow (r.resolveObject node name package path depth) := by
  refine .bind (checkDepth_shallow h.depth_ok _) fun _ _ => ?_
  refine buildClass_shallow _ _ _ _ _ _ (fun scope => ?_) fun scope => ?_
  · exact resolveMembers_shallow _ fun p hp _ _ _ _ => resolve_shallow hl (h.properties p hp) _ _ _ _
  · exact resolveAdditional_shallow fun s hs _ _ _ _ => resolve_shallow hl (h.additionalOf s hs) _ _ _ _

theorem resolvePart_shallow (hl : LiteralsShallow r.types) {node? : Option Node}
    (h : ∀ node, node? = some node → node.Within r.config.maxDepth 1) (simpleName resourceName : String)
    (package : List String) (suffix part : String) :
    Shallow (r.resolvePart node? simpleName resourceName package suffix part) := by
  unfold resolvePart
  split
  · exact .ok _
  · next node => exact .bind (resolveObject_shallow hl (h node rfl) _ _ _) fun _ _ => .ok _

/-- The spec and the status of a tree lie one level below it. -/
theorem assemble_shallow (hl : LiteralsShallow r.types) {root : Node}
    (h : root.Within r.config.maxDepth 0) (kind : String) (package : List String) (info : ResourceInfo) :
    Shallow (r.assemble kind package info (root.property? "spec") (root.property? "status")) :=
  .bind (resolvePart_shallow hl (fun _ hn => h.property? hn) _ _ _ _ _) fun _ _ =>
    .bind (resolvePart_shallow hl (fun _ hn => h.property? hn) _ _ _ _ _) fun _ _ => .ok _

end Resolver

namespace Java

theorem literals_shallow (t : TypeNames) : Resolver.LiteralsShallow t.dialect :=
  fun value primitive => shallow_iff.2 <| (literal_faults t value primitive).mono fun _ ⟨_, he⟩ _ _ => he ▸ nofun

/-- A tree that was read under the nesting limit of a configuration resolves under it: as a class where
the tree lies, and with its spec and status one level below as a resource. -/
theorem resolve_within_limit (config : Config) (schema path : Value) (root : Node)
    (h : Node.ofValue schema path config.maxDepth = .ok root) :
    (∀ name package place, Shallow ((generator config).resolver.resolveObject root name package place 0)) ∧
    ∀ kind package info, Shallow ((generator config).resolver.assemble kind package info
      (root.property? "spec") (root.property? "status")) := by
  have within : root.Within (generator config).resolver.config.maxDepth 0 := (Node.ofValue_eq_ok.1 h).within
  refine ⟨fun name package place => ?_, fun kind package info => ?_⟩
  · exact Resolver.resolveObject_shallow (literals_shallow {}) within name package place
  · exact Resolver.assemble_shallow (literals_shallow {}) within kind package info

/-- A list of lists of numbers in a spec, and a dictionary of dictionaries in a status. -/
def matrixValue : Value :=
  .map [(.str "properties", .map [
    (.str "spec", .map [(.str "properties", .map [
      (.str "rows", .map [(.str "type", .str "array"),
        (.str "items", .map [(.str "type", .str "array")])])])]),
    (.str "status", .map [(.str "additionalProperties", .map [
      (.str "additionalProperties", .map [(.str "type", .str "number")])])])])]

/-- Four levels are enough for the spec, and three are not enough to read it. -/
theorem resolve_within_limit_matrix :
    (∃ root made resource,
      Node.ofValue matrixValue (.str "Matrix") (.levels 4) = .ok root ∧
      (generator { maxDepth := .levels 4 }).resolver.resolveObject root "Matrix" ["io"] "" 0 = .ok made ∧
      (generator { maxDepth := .levels 4 }).resolver.assemble "Matrix" ["io"]
        ⟨.null, .null, .null, .null, .null, .null, .null, .null⟩ (root.property? "spec")
        (root.property? "status") = .ok resource ∧
      Shallow ((generator { maxDepth := .levels 4 }).resolver.resolveObject root "Matrix" ["io"] "" 0)) ∧
    (Node.ofValue matrixValue (.str "Matrix") (.levels 3)).toOption.isNone := by
  refine ⟨⟨_, _, _, rfl, rfl, rfl, ?_⟩, rfl⟩
  exact (resolve_within_limit { maxDepth := .levels 4 } matrixValue (.str "Matrix") _ rfl).1 "Matrix" ["io"] ""

end Java

end ResourceCompiler
