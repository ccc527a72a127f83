import Mathlib.Data.List.Sort
import ResourceCompiler.Manifest
import ResourceCompiler.Proofs.Failure
import ResourceCompiler.Proofs.Entries

/-!
# Definitions found in documents

A document stands at a place: its position among the documents and, inside lists, the positions of the items
that lead to it. Picking the definitions out of documents gives those at all places, in the order of the places
(`Selects`), unless it meets a mapping that stops it: one whose kind is no text and not empty, or a list of
something that has no elements (`Stops`). Everything else is passed over.

Documents are finite trees of mappings, lists and scalars; there are no binary scalars and sets among them and no
cycles.
-/

namespace ResourceCompiler.Manifest

/-- Entries of the kind of definitions. -/
def IsDefinition (es : Entries) : Prop := es.get "kind" = .str definitionKind

/-- Entries whose kind is that of a list. -/
def IsList (es : Entries) : Prop := ∃ s, es.get "kind" = .str s ∧ listSuffix.toList <:+ s.toList

/-- The items of entries, none where these are no list. -/
def itemsOf (es : Entries) : List Value :=
  match es.get "items" with
  | .list xs => xs
  | _ => []

/-- A document inside another one: at its root, or at a place in an item of a list. -/
inductive Within : Value → List Nat → Value → Prop
  | root (v : Value) : Within v [] v
  | item {es : Entries} {i : Nat} {x d : Value} {p : List Nat} (list : IsList es)
      (found : (itemsOf es)[i]? = some x) (inside : Within x p d) : Within (.map es) (i :: p) d

/-- A document at a place among documents. -/
def At (docs : List Value) : List Nat → Value → Prop
  | [], _ => False
  | i :: p, d => ∃ v, docs[i]? = some v ∧ Within v p d

/-- A mapping that stops the search at a fault. -/
inductive Stops : Value → Fault → Prop
  | kind {es : Entries} (counts : (es.get "kind").truthy = true) (other : ∀ s, es.get "kind" ≠ .str s) :
      Stops (.map es) .notText
  | items {es : Entries} {s : Scalar} (list : IsList es) (given : es.get "items" = .scalar s)
      (counts : s.truthy = true) (other : ∀ t, s ≠ .str t) : Stops (.map es) .notIterable

/-- The definitions at all places, each once and in the order of the places. -/
def Selects (places : List Nat → Value → Prop) (ds : List Entries) : Prop :=
  ∃ found : List (List Nat × Entries), found.Pairwise (·.1 < ·.1) ∧
    (∀ e, e ∈ found ↔ places e.1 (.map e.2) ∧ IsDefinition e.2) ∧ found.map (·.2) = ds

/-- The fault at the first place that has one. -/
def First (places : List Nat → Value → Prop) (f : Fault) : Prop :=
  ∃ p d, places p d ∧ Stops d f ∧ ∀ q e g, places q e → Stops e g → ¬ q < p

/-- A search of all places. -/
structure Searches (places : List Nat → Value → Prop) (x : Except Fault (List Entries)) : Prop where
  ok : ∀ ds, x = .ok ds → (∀ p d f, places p d → ¬ Stops d f) ∧ Selects places ds
  error : ∀ f, x = .error f → First places f

variable {es : Entries} {v : Value} {docs : List Value} {s : String}

/-! ### One document -/

theorem IsList.not_definition (h : IsList es) : ¬ IsDefinition es := by
  obtain ⟨s, kind, suffix⟩ := h
  intro definition
  rw [IsDefinition, kind] at definition
  cases definition
  revert suffix
  decide

theorem equalsScalar_iff : (es.get "kind").equalsScalar (.str definitionKind) = true ↔ IsDefinition es := by
  rw [IsDefinition]
  cases es.get "kind" with
  | scalar s => simp [Value.equalsScalar, Scalar.same_comm, Entries.same_str_iff]
  | _ => simp [Value.equalsScalar]

theorem isListKind_str (s : String) : isListKind (.str s) = .ok (listSuffix.toList.isSuffixOf s.toList) := by
  unfold isListKind
  split
  · next blank =>
    have empty : s = "" := by simpa [Value.truthy, Scalar.truthy] using blank
    rw [empty]
    rfl
  · rfl

theorem isListKind_other {kind : Value} (h : ∀ s, kind ≠ .str s) :
    isListKind kind = if kind.truthy then .error .notText else .ok false := by
  unfold isListKind
  cases kind.truthy with
  | false => rfl
  | true =>
    cases kind with
    | scalar s =>
      cases s with
      | str s => exact absurd rfl (h s)
      | _ => rfl
    | _ => rfl

theorem definitionsInItems_eq (es : Entries) : definitionsInItems es = definitionsInElements (es.get "items") := by
  induction es with
  | nil => rfl
  | cons e es ih =>
    obtain ⟨key, v⟩ := e
    rw [definitionsInItems, Entries.get, Entries.find?]
    split
    · rfl
    · exact ih

theorem definitionsIn_definition (h : IsDefinition es) : definitionsIn (.map es) = .ok [es] := by
  rw [definitionsIn]
  exact if_pos (equalsScalar_iff.2 h)

theorem definitionsIn_of_listKind {b : Bool} (h : ¬ IsDefinition es) (kind : isListKind (es.get "kind") = .ok b) :
    definitionsIn (.map es) = if b then definitionsInElements (es.get "items") else .ok [] := by
  rw [definitionsIn, if_neg (mt equalsScalar_iff.1 h), kind, definitionsInItems_eq]
  rfl

theorem not_stops_of_definition {f : Fault} (h : IsDefinition es) : ¬ Stops (.map es) f := by
  rintro (⟨-, other⟩ | ⟨list, -, -, -⟩)
  · exact other _ h
  · exact list.not_definition h

/-! ### Places -/

theorem within_iff {p : List Nat} {d : Value} :
    Within (.map es) p d ↔ (p = [] ∧ d = .map es) ∨ IsList es ∧ At (itemsOf es) p d := by
  constructor
  · intro h
    cases h with
    | root => exact Or.inl ⟨rfl, rfl⟩
    | item list found inside => exact Or.inr ⟨list, _, found, inside⟩
  · rintro (⟨rfl, rfl⟩ | ⟨list, inside⟩)
    · exact .root _
    · cases p with
      | nil => exact inside.elim
      | cons i p =>
        obtain ⟨x, found, rest⟩ := inside
        exact .item list found rest

theorem within_root_iff {p : List Nat} {d : Value} (h : ∀ es, v = .map es → ¬ IsList es) :
    Within v p d ↔ p = [] ∧ d = v := by
  constructor
  · intro inside
    cases inside with
    | root => exact ⟨rfl, rfl⟩
    | item list => exact absurd list (h _ rfl)
  · rintro ⟨rfl, rfl⟩
    exact .root _

/-- The place of a document after another document is put in front of all. -/
def shift : List Nat → List Nat
  | [] => []
  | i :: p => (i + 1) :: p

theorem shift_lt_iff {p q : List Nat} : shift p < shift q ↔ p < q := by
  cases p <;> cases q <;> simp [shift, List.cons_lt_cons_iff]

theorem at_cons_zero {p : List Nat} {d : Value} : At (v :: docs) (0 :: p) d ↔ Within v p d := by
  simp [At]

theorem at_cons_succ {i : Nat} {p : List Nat} {d : Value} : At (v :: docs) ((i + 1) :: p) d ↔ At docs (i :: p) d := by
  simp [At]

theorem free_cons (free : ∀ p d f, Within v p d → ¬ Stops d f) (rest : ∀ p d f, At docs p d → ¬ Stops d f) :
    ∀ p d f, At (v :: docs) p d → ¬ Stops d f := by
  rintro (_ | ⟨_ | i, p⟩) d f place
  · exact place.elim
  · exact free p d f (at_cons_zero.1 place)
  · exact rest (i :: p) d f (at_cons_succ.1 place)

/-- Those inside the first document come before those inside the documents after it. -/
theorem Selects.cons {here after : List Entries} (first : Selects (Within v) here) (rest : Selects (At docs) after) :
    Selects (At (v :: docs)) (here ++ after) := by
  obtain ⟨found, ordered, all, rfl⟩ := first
  obtain ⟨found', ordered', all', rfl⟩ := rest
  refine ⟨found.map (fun e => (0 :: e.1, e.2)) ++ found'.map (fun e => (shift e.1, e.2)), ?_, ?_, ?_⟩
  · refine List.pairwise_append.2 ⟨?_, ?_, ?_⟩
    · exact List.pairwise_map.2 (ordered.imp fun lt => List.cons_lt_cons_iff.2 (Or.inr ⟨rfl, lt⟩))
    · exact List.pairwise_map.2 (ordered'.imp fun lt => shift_lt_iff.2 lt)
    · intro e he e' he'
      obtain ⟨⟨p, fs⟩, -, rfl⟩ := List.mem_map.1 he
      obtain ⟨⟨q, gs⟩, member, rfl⟩ := List.mem_map.1 he'
      cases q with
      | nil => exact ((all' _).1 member).1.elim
      | cons j q => exact List.cons_lt_cons_iff.2 (Or.inl (Nat.succ_pos j))
  · rintro ⟨p, fs⟩
    rw [List.mem_append, List.mem_map, List.mem_map]
    constructor
    · rintro (⟨e, he, same⟩ | ⟨⟨q, gs⟩, he, same⟩)
      · cases same
        obtain ⟨place, definition⟩ := (all e).1 he
        exact ⟨at_cons_zero.2 place, definition⟩
      · cases same
        obtain ⟨place, definition⟩ := (all' _).1 he
        cases q with
        | nil => exact place.elim
        | cons j q => exact ⟨at_cons_succ.2 place, definition⟩
    · rintro ⟨place, definition⟩
      match p, place with
      | 0 :: p, place => exact Or.inl ⟨(p, fs), (all _).2 ⟨at_cons_zero.1 place, definition⟩, rfl⟩
      | (j + 1) :: p, place => exact Or.inr ⟨(j :: p, fs), (all' _).2 ⟨at_cons_succ.1 place, definition⟩, rfl⟩
  · rw [List.map_append, List.map_map, List.map_map]
    rfl

theorem First.head {f : Fault} (h : First (Within v) f) : First (At (v :: docs)) f := by
  obtain ⟨p, d, place, stops, least⟩ := h
  refine ⟨0 :: p, d, at_cons_zero.2 place, stops, ?_⟩
  rintro (_ | ⟨_ | j, q⟩) e g place' stops'
  · exact place'.elim
  · simpa [List.cons_lt_cons_iff] using least q e g (at_cons_zero.1 place') stops'
  · simp [List.cons_lt_cons_iff]

/-- A document inside of which nothing stops the search can be put in front. -/
theorem First.tail {f : Fault} (h : First (At docs) f) (free : ∀ p d f, Within v p d → ¬ Stops d f) :
    First (At (v :: docs)) f := by
  obtain ⟨p, d, place, stops, least⟩ := h
  cases p with
  | nil => exact place.elim
  | cons i p =>
    refine ⟨(i + 1) :: p, d, at_cons_succ.2 place, stops, ?_⟩
    rintro (_ | ⟨_ | j, q⟩) e g place' stops'
    · exact place'.elim
    · exact absurd stops' (free q e g (at_cons_zero.1 place'))
    · exact fun lt => least (j :: q) e g (at_cons_succ.1 place') stops' (shift_lt_iff.1 lt)

/-! ### Searches -/

namespace Searches

variable {places others : List Nat → Value → Prop} {x : Except Fault (List Entries)}

theorem congr (h : Searches places x) (same : ∀ p d, places p d ↔ others p d) : Searches others x := by
  have equal : places = others := funext fun p => funext fun d => propext (same p d)
  rwa [← equal]

theorem none : Searches (fun _ _ => False) (.ok []) where
  ok := by
    rintro _ ⟨⟩
    exact ⟨fun _ _ _ h => h.elim, [], .nil, by simp, rfl⟩
  error := nofun

theorem nil : Searches (At []) (.ok []) :=
  none.congr fun p d => by cases p <;> simp [At]

theorem definition (h : IsDefinition es) : Searches (fun p d => p = [] ∧ d = .map es) (.ok [es]) where
  ok := by
    rintro _ ⟨⟩
    refine ⟨?_, [([], es)], List.pairwise_singleton .., fun (p, fs) => ?_, rfl⟩
    · rintro p d f ⟨-, rfl⟩
      exact not_stops_of_definition h
    · simp only [List.mem_singleton, Prod.mk.injEq, Value.map.injEq]
      exact ⟨fun ⟨hp, he⟩ => ⟨⟨hp, he⟩, he ▸ h⟩, And.left⟩
  error := nofun

/-- A search stops at the first of all places. -/
theorem stop {f : Fault} (here : places [] v) (stops : Stops v f) : Searches places (.error f) where
  ok := nofun
  error := by
    rintro _ ⟨⟩
    exact ⟨[], v, here, stops, fun _ _ _ _ _ => List.not_lt_nil _⟩

/-- A document that is nothing itself, with whatever is inside it. -/
theorem root (h : Searches places x) (quiet : ∀ f, ¬ Stops v f) (plain : ∀ es, v = .map es → ¬ IsDefinition es) :
    Searches (fun p d => (p = [] ∧ d = v) ∨ places p d) x where
  ok := by
    intro ds hx
    obtain ⟨free, found, ordered, all, rfl⟩ := h.ok ds hx
    refine ⟨?_, found, ordered, fun e => (all e).trans ?_, rfl⟩
    · rintro p d f (⟨-, rfl⟩ | inside)
      · exact quiet f
      · exact free p d f inside
    · refine and_congr_left fun definition => (or_iff_right ?_).symm
      rintro ⟨-, same⟩
      exact plain _ same.symm definition
  error := by
    intro f hx
    obtain ⟨p, d, inside, stops, first⟩ := h.error f hx
    refine ⟨p, d, Or.inr inside, stops, ?_⟩
    rintro q e g (⟨-, rfl⟩ | inside) stops'
    · exact absurd stops' (quiet g)
    · exact first q e g inside stops'

/-- A document and the documents after it. -/
theorem cons {y : Except Fault (List Entries)} (first : Searches (Within v) x) (rest : Searches (At docs) y) :
    Searches (At (v :: docs)) (do return (← x) ++ (← y)) where
  ok := by
    intro ds h
    obtain ⟨here, hx, h⟩ := bind_eq_ok.1 h
    obtain ⟨after, hy, h⟩ := bind_eq_ok.1 h
    cases pure_eq_ok.1 h
    obtain ⟨free, selected⟩ := first.ok here hx
    obtain ⟨free', selected'⟩ := rest.ok after hy
    exact ⟨free_cons free free', selected.cons selected'⟩
  error := by
    intro f h
    rcases bind_eq_error.1 h with hx | ⟨here, hx, h⟩
    · exact (first.error f hx).head
    · rcases bind_eq_error.1 h with hy | ⟨after, hy, h⟩
      · exact (rest.error f hy).tail (first.ok here hx).1
      · cases h

end Searches

theorem searches_definitions (h : ∀ v ∈ docs, Searches (Within v) (definitionsIn v)) :
    Searches (At docs) (definitions docs) := by
  induction docs with
  | nil =>
    rw [definitions]
    exact .nil
  | cons v docs ih =>
    rw [List.forall_mem_cons] at h
    rw [definitions]
    exact h.1.cons (ih h.2)

theorem searches_other (h : ∀ es, v ≠ .map es) (quiet : definitionsIn v = .ok []) :
    Searches (Within v) (definitionsIn v) := by
  have plain : ∀ f, ¬ Stops v f := by
    rintro f (_ | _)
    all_goals exact h _ rfl
  rw [quiet]
  refine (Searches.none.root plain fun es same => absurd same (h es)).congr fun p d => ?_
  rw [within_root_iff fun es same => absurd same (h es), or_iff_left id]

theorem IsList.not_stops (list : IsList es)
    (iterable : ∀ s, es.get "items" = .scalar s → s.truthy = true → ∃ t, s = .str t) (f : Fault) :
    ¬ Stops (.map es) f := by
  rintro (⟨-, other⟩ | ⟨-, given, counts, other⟩)
  · obtain ⟨s, kind, -⟩ := list
    exact other s kind
  · obtain ⟨t, text⟩ := iterable _ given counts
    exact other t text

/-- The definitions inside a list, where the items have been searched. -/
theorem searches_items (list : IsList es)
    (inside : ∀ xs, es.get "items" = .list xs → Searches (At xs) (definitions xs)) :
    Searches (Within (.map es)) (definitionsInElements (es.get "items")) := by
  have plain : ∀ fs, Value.map es = .map fs → ¬ IsDefinition fs := by
    rintro _ ⟨⟩
    exact list.not_definition
  have all {x : Except Fault (List Entries)} (items : Searches (At (itemsOf es)) x)
      (iterable : ∀ s, es.get "items" = .scalar s → s.truthy = true → ∃ t, s = .str t) :
      Searches (Within (.map es)) x :=
    (items.root (list.not_stops iterable) plain).congr fun p d => by rw [within_iff, and_iff_right list]
  have nothing (empty : itemsOf es = []) : Searches (At (itemsOf es)) (.ok []) := by
    rw [empty]
    exact .nil
  -- only a list has items to search; of the rest, scalars other than texts stop the search where they count
  cases given : es.get "items" with
  | list xs =>
    have items : itemsOf es = xs := by rw [itemsOf, given]
    rw [definitionsInElements]
    exact all (items ▸ inside xs given) fun s same => by rw [given] at same; cases same
  | map fs =>
    rw [definitionsInElements]
    exact all (nothing (by rw [itemsOf, given])) fun s same => by rw [given] at same; cases same
  | scalar s =>
    have empty : itemsOf es = [] := by rw [itemsOf, given]
    by_cases text : ∃ t, s = .str t
    · obtain ⟨t, rfl⟩ := text
      rw [definitionsInElements]
      refine all (nothing empty) fun s same _ => ?_
      rw [given] at same
      cases same
      exact ⟨t, rfl⟩
    · have run : definitionsInElements (.scalar s) = if s.truthy then .error .notIterable else .ok [] := by
        cases s with
        | str t => exact absurd ⟨t, rfl⟩ text
        | _ => rw [definitionsInElements]; nofun
      rw [run]
      split
      · next counts => exact .stop (.root _) (.items list given counts fun t same => text ⟨t, same⟩)
      · next blank =>
        refine all (nothing empty) fun s' same counts => ?_
        rw [given] at same
        cases same
        exact absurd counts blank

/-- A mapping that is passed over. -/
theorem searches_alone (plain : ¬ IsDefinition es) (apart : ¬ IsList es) (quiet : ∀ f, ¬ Stops (.map es) f) :
    Searches (Within (.map es)) (.ok []) := by
  refine (Searches.none.root quiet ?_).congr fun p d => ?_
  · rintro _ ⟨⟩
    exact plain
  · rw [within_root_iff (by rintro _ ⟨⟩; exact apart), or_iff_left id]

theorem searches_text (plain : ¬ IsDefinition es) (kind : es.get "kind" = .str s)
    (inside : ∀ xs, es.get "items" = .list xs → Searches (At xs) (definitions xs)) :
    Searches (Within (.map es)) (definitionsIn (.map es)) := by
  rw [definitionsIn_of_listKind plain (by rw [kind, isListKind_str])]
  split
  · next suffix => exact searches_items ⟨s, kind, List.isSuffixOf_iff_suffix.1 suffix⟩ inside
  · next other =>
    have apart : ¬ IsList es := by
      rintro ⟨t, same, suffix⟩
      rw [kind] at same
      cases same
      exact other (List.isSuffixOf_iff_suffix.2 suffix)
    refine searches_alone plain apart ?_
    rintro f (⟨-, none⟩ | ⟨list, -, -, -⟩)
    · exact none s kind
    · exact apart list

theorem searches_textless (text : ∀ s, es.get "kind" ≠ .str s) :
    Searches (Within (.map es)) (definitionsIn (.map es)) := by
  have plain : ¬ IsDefinition es := text _
  have apart : ¬ IsList es := fun ⟨s, kind, _⟩ => text s kind
  have kind := isListKind_other text
  by_cases counts : (es.get "kind").truthy = true
  · have run : definitionsIn (.map es) = .error .notText := by
      rw [definitionsIn, if_neg (mt equalsScalar_iff.1 plain), kind, if_pos counts]
      rfl
    rw [run]
    exact .stop (.root _) (.kind counts text)
  · rw [if_neg counts] at kind
    rw [definitionsIn_of_listKind plain kind]
    refine searches_alone plain apart ?_
    rintro f (⟨counts', -⟩ | ⟨list, -, -, -⟩)
    · exact counts counts'
    · exact apart list

theorem searches_map (inside : ∀ xs, es.get "items" = .list xs → Searches (At xs) (definitions xs)) :
    Searches (Within (.map es)) (definitionsIn (.map es)) := by
  by_cases definition : IsDefinition es
  · rw [definitionsIn_definition definition]
    refine (Searches.definition definition).congr fun p d => (within_root_iff ?_).symm
    rintro _ ⟨⟩ list
    exact list.not_definition definition
  · by_cases text : ∃ s, es.get "kind" = .str s
    · obtain ⟨s, kind⟩ := text
      exact searches_text definition kind inside
    · exact searches_textless fun s kind => text ⟨s, kind⟩

/-- A search of a document goes through all that is inside it. -/
theorem searches_definitionsIn (v : Value) : Searches (Within v) (definitionsIn v) ∧
    ∀ xs, v = .list xs → Searches (At xs) (definitions xs) := by
  -- the second half carries the search over from the items of a mapping, which are inside it at depth two
  induction v with
  | scalar s => exact ⟨searches_other nofun (by rw [definitionsIn]; nofun), nofun⟩
  | list xs ih =>
    refine ⟨searches_other nofun (by rw [definitionsIn]; nofun), ?_⟩
    rintro _ ⟨⟩
    exact searches_definitions fun x hx => (ih x hx).1
  | map es ih =>
    refine ⟨searches_map fun xs items => ?_, nofun⟩
    cases found : Entries.find? es (.str "items") with
    | none =>
      rw [Entries.get, found] at items
      cases items
    | some v =>
      obtain ⟨e, he, rfl⟩ := Entries.mem_of_find? found
      rw [Entries.get, found] at items
      exact (ih e he).2 xs items

theorem definitions_searches (docs : List Value) : Searches (At docs) (definitions docs) :=
  searches_definitions fun v _ => (searches_definitionsIn v).1

/-! ### What is found -/

theorem Stops.unique {f g : Fault} (h : Stops v f) (h' : Stops v g) : f = g := by
  cases h with
  | kind _ other =>
    cases h' with
    | kind => rfl
    | items list =>
      obtain ⟨s, kind, -⟩ := list
      exact absurd kind (other s)
  | items list =>
    cases h' with
    | kind _ other =>
      obtain ⟨s, kind, -⟩ := list
      exact absurd kind (other s)
    | items => rfl

theorem Within.unique {p : List Nat} {d e : Value} (h : Within v p d) (h' : Within v p e) : d = e := by
  induction h with
  | root => cases h' with | root => rfl
  | item _ found _ ih =>
    cases h' with
    | item _ found' inside =>
      rw [found] at found'
      cases found'
      exact ih inside

theorem At.unique {p : List Nat} {d e : Value} (h : At docs p d) (h' : At docs p e) : d = e := by
  cases p with
  | nil => exact h.elim
  | cons i p =>
    obtain ⟨v, found, inside⟩ := h
    obtain ⟨w, found', inside'⟩ := h'
    rw [found] at found'
    cases found'
    exact inside.unique inside'

theorem First.unique {f g : Fault} (h : First (At docs) f) (h' : First (At docs) g) : f = g := by
  obtain ⟨p, d, place, stops, least⟩ := h
  obtain ⟨q, e, place', stops', least'⟩ := h'
  obtain rfl : p = q := List.le_antisymm (least q e g place' stops') (least' p d f place stops)
  cases place.unique place'
  exact stops.unique stops'

theorem Selects.unique {places : List Nat → Value → Prop} {ds ds' : List Entries} (h : Selects places ds)
    (h' : Selects places ds') : ds = ds' := by
  obtain ⟨found, ordered, all, rfl⟩ := h
  obtain ⟨found', ordered', all', rfl⟩ := h'
  have irrefl : Std.Irrefl fun e e' : List Nat × Entries => e.1 < e'.1 := ⟨fun e => List.lt_irrefl e.1⟩
  have antisymm : Std.Antisymm fun e e' : List Nat × Entries => e.1 < e'.1 :=
    ⟨fun e e' lt lt' => absurd (List.lt_trans lt lt') (List.lt_irrefl _)⟩
  rw [ordered.eq_of_mem_iff ordered' fun e => (all e).trans (all' e).symm]

theorem definitions_append (docs more : List Value) :
    definitions (docs ++ more) = (do return (← definitions docs) ++ (← definitions more)) := by
  induction docs with
  | nil =>
    rw [List.nil_append, definitions]
    cases definitions more <;> rfl
  | cons v docs ih =>
    rw [List.cons_append, definitions, definitions, ih]
    cases definitionsIn v with
    | error f => rfl
    | ok here =>
      cases definitions docs with
      | error f => rfl
      | ok after =>
        cases definitions more with
        | error f => rfl
        | ok rest => exact congrArg Except.ok (List.append_assoc ..).symm

theorem definitionsIn_wrapped (list : IsList es) (items : es.get "items" = .list docs) :
    definitionsIn (.map es) = definitions docs := by
  obtain ⟨s, kind, suffix⟩ := id list
  rw [definitionsIn_of_listKind list.not_definition (by rw [kind, isListKind_str]),
    if_pos (List.isSuffixOf_iff_suffix.2 suffix), items, definitionsInElements]

/-- The definitions of documents are those at all places, each once and in order, unless a mapping stops the
search; then the first that does decides its fault. Documents are searched one after the other, and as well
inside a list as beside it. -/
theorem definitions_found (docs : List Value) :
    ((∃ ds, definitions docs = .ok ds) ↔ ∀ p d f, At docs p d → ¬ Stops d f) ∧
      (∀ ds, definitions docs = .ok ds ↔ (∀ p d f, At docs p d → ¬ Stops d f) ∧ Selects (At docs) ds) ∧
      (∀ f, definitions docs = .error f ↔ First (At docs) f) ∧
      (∀ more, definitions (docs ++ more) = do return (← definitions docs) ++ (← definitions more)) ∧
      ∀ es before after, IsList es → es.get "items" = .list docs →
        definitions (before ++ .map es :: after) = definitions (before ++ docs ++ after) := by
  have search := definitions_searches docs
  have free {ds : List Entries} (h : definitions docs = .ok ds) := (search.ok ds h).1
  have exists_of_free (h : ∀ p d f, At docs p d → ¬ Stops d f) : ∃ ds, definitions docs = .ok ds := by
    cases run : definitions docs with
    | ok ds => exact ⟨ds, rfl⟩
    | error f =>
      obtain ⟨p, d, place, stops, -⟩ := search.error f run
      exact absurd stops (h p d f place)
  refine ⟨⟨fun ⟨_, h⟩ => free h, exists_of_free⟩, fun ds => ⟨search.ok ds, ?_⟩, fun f => ⟨search.error f, ?_⟩,
    definitions_append docs, fun es before after list items => ?_⟩
  · rintro ⟨none, selects⟩
    obtain ⟨ds', run⟩ := exists_of_free none
    rw [run, selects.unique (search.ok ds' run).2]
  · intro first
    cases run : definitions docs with
    | ok ds =>
      obtain ⟨p, d, place, stops, -⟩ := first
      exact absurd stops (free run p d f place)
    | error g => rw [first.unique (search.error g run)]
  · rw [List.append_assoc, definitions_append before, definitions_append before, definitions_append docs,
      definitions, definitionsIn_wrapped list items]

/-- A list of lists, with a text and a mapping of another kind in it. -/
def bundle : List Value :=
  [.map [(.str "kind", .str "DiskList"), (.str "items", .list [
      .map [(.str "kind", .str "Disk")], .str "text",
      .map [(.str "kind", .str definitionKind), (.str "name", .str "disks")]])],
    .map [(.str "kind", .str definitionKind), (.str "name", .str "shelves")]]

/-- Its definitions are those in the inner list and the one beside it, also when it is an item itself. -/
theorem definitions_found_bundle :
    IsList [(.str "kind", .str "List"), (.str "items", .list bundle)] ∧
      definitions [.map [(.str "kind", .str "List"), (.str "items", .list bundle)]] =
        .ok [[(.str "kind", .str definitionKind), (.str "name", .str "disks")],
          [(.str "kind", .str definitionKind), (.str "name", .str "shelves")]] := by
  have list : IsList [(.str "kind", .str "List"), (.str "items", .list bundle)] := ⟨"List", rfl, by decide⟩
  refine ⟨list, ((definitions_found bundle).2.2.2.2 _ [] [] list rfl).trans ?_⟩
  rfl

/-- A kind that is a number and items that are one stop the search, whatever definitions there are. -/
theorem definitions_stopped :
    definitions [.map [(.str "kind", .int 5)], .map [(.str "kind", .str definitionKind)]] = .error .notText ∧
      definitions [.map [(.str "kind", .str definitionKind)],
        .map [(.str "kind", .str "List"), (.str "items", .int 5)]] = .error .notIterable :=
  ⟨rfl, rfl⟩

end ResourceCompiler.Manifest
