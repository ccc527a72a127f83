import Mathlib.Data.List.Infix
import ResourceCompiler.FileTree
import ResourceCompiler.Proofs.Success

/-!
# What writing changes

A tree is seen through the texts of its files and through its directories, which are closed under going
up. `FileTree.Changed` says how far one tree is from another: a file that is written has its text and all
others keep theirs, and the new directories are those that lead to given places. Writing a file needs a
directory and makes none (`write_changed`); making a directory makes those that lead to it
(`makeDirectory_changed`).
-/

namespace ResourceCompiler

namespace Path

/-- The places that a path leads through, its own one last. -/
def ways (p : Path) : List (List String) :=
  (List.range (p.parts.length + 1)).map fun i => (p.take i).resolved

theorem mem_ways {p : Path} {q : List String} : q ∈ p.ways ↔ ∃ i ≤ p.parts.length, (p.take i).resolved = q := by
  simp only [ways, List.mem_map, List.mem_range, Nat.lt_succ_iff]

theorem resolved_mem_ways (p : Path) : p.resolved ∈ p.ways :=
  mem_ways.2 ⟨p.parts.length, le_rfl, by rw [take, List.take_length]⟩

theorem ways_cons {start : PathStart} {outer : List String} {part : String} {q : List String}
    (h : q ∈ (Path.mk start outer.reverse).ways) : q ∈ (Path.mk start (part :: outer).reverse).ways := by
  obtain ⟨i, hi, rfl⟩ := mem_ways.1 h
  refine mem_ways.2 ⟨i, ?_, ?_⟩
  · simp only [List.length_reverse, List.length_cons] at hi ⊢
    omega
  · rw [take, take, List.reverse_cons, List.take_append_of_le_length hi]

/-- A part that does not lead up leads further down. -/
theorem resolved_take_succ {p : Path} {i : Nat} {part : String} (hp : p.parts[i]? = some part) (hu : part ≠ "..") :
    (p.take (i + 1)).resolved = (p.take i).resolved ++ [part] := by
  unfold resolved take
  rw [List.take_add_one, hp, Option.toList_some, List.foldl_append, List.foldl_cons, List.foldl_nil, if_neg hu]

end Path

namespace FileTree

variable {t t' t'' : FileTree} {p q place : List String} {text : String} {path : Path}

/-- The text of the file at a place. -/
def textAt? (t : FileTree) (place : List String) : Option String :=
  match t.lookup? place with
  | some (.file text) => some text
  | _ => none

theorem isDirectoryAt_iff : t.isDirectoryAt q = true ↔
    isAbove q = true ∨ ∃ e ∈ t.entries, q <+: e.1 ∧ ∀ text, e.2 = .file text → e.1 ≠ q := by
  unfold isDirectoryAt
  rw [Bool.or_eq_true, List.any_eq_true]
  refine or_congr_right (exists_congr fun e => and_congr_right fun _ => ?_)
  obtain ⟨p, entry⟩ := e
  cases entry <;> simp

/-- What a directory lies in is a directory. -/
theorem isDirectoryAt_above (hq : q <+: p) (h : t.isDirectoryAt p = true) : t.isDirectoryAt q = true := by
  rw [isDirectoryAt_iff] at h ⊢
  rcases h with h | ⟨e, he, hp, proper⟩
  · left
    unfold isAbove at h ⊢
    rw [List.all_eq_true] at h ⊢
    exact fun part hpart => h part (hq.subset hpart)
  · refine Or.inr ⟨e, he, hq.trans hp, fun text hf heq => ?_⟩
    have short : p = q := (heq ▸ hp).eq_of_length_le hq.length_le
    exact proper text hf (heq.trans short.symm)

theorem prefix_dropLast (hq : q <+: p) (hne : p ≠ q) : q <+: p.dropLast := by
  obtain ⟨rest, rfl⟩ := hq
  have hr : rest ≠ [] := by
    rintro rfl
    exact hne (List.append_nil q)
  rw [List.dropLast_append_of_ne_nil hr]
  exact List.prefix_append _ _

/-- An entry after a file is put at a place. -/
def putEntry (place : List String) (text : String) (e : List String × FileEntry) : List String × FileEntry :=
  (e.1, if e.1 = place then .file text else e.2)

theorem put_entries : (t.put place text).entries =
    if t.entries.any (·.1 = place) then t.entries.map (putEntry place text)
    else t.entries ++ [(place, .file text)] := by
  unfold put
  split
  · refine List.map_congr_left fun (p, entry) _ => ?_
    dsimp only [putEntry]
    split <;> rfl
  · rfl

theorem lookup?_put : (t.put place text).lookup? q = if q = place then some (.file text) else t.lookup? q := by
  unfold lookup?
  rw [put_entries]
  split
  · next h =>
    have same : (fun e : List String × FileEntry => decide (e.1 = q)) ∘ putEntry place text = (decide <| ·.1 = q) :=
      rfl
    rw [List.find?_map, same, Option.map_map]
    cases hf : t.entries.find? (·.1 = q) with
    | none =>
      have absent : q ≠ place := by
        rintro rfl
        obtain ⟨e, he, hq⟩ := List.any_eq_true.1 h
        exact absurd hq (List.find?_eq_none.1 hf e he)
      rw [if_neg absent]
      rfl
    | some e =>
      have found : e.1 = q := by simpa using List.find?_some hf
      by_cases hq : q = place
      · simp [putEntry, found, hq]
      · simp [putEntry, found, hq]
  · next h =>
    rw [List.find?_append]
    by_cases hq : q = place
    · have absent : t.entries.find? (·.1 = q) = none :=
        List.find?_eq_none.2 fun e he hp => h (List.any_eq_true.2 ⟨e, he, hq ▸ hp⟩)
      rw [absent, if_pos hq]
      simp [hq]
    · simp [Ne.symm hq, hq]

theorem textAt?_put : (t.put place text).textAt? q = if q = place then some text else t.textAt? q := by
  unfold textAt?
  rw [lookup?_put]
  by_cases h : q = place
  · rw [if_pos h, if_pos h]
  · rw [if_neg h, if_neg h]

/-- A file in a directory that is there makes no new directory. -/
theorem isDirectoryAt_put (free : t.isDirectoryAt place = false) (outer : t.isDirectoryAt place.dropLast = true) :
    (t.put place text).isDirectoryAt q = t.isDirectoryAt q := by
  rw [Bool.eq_iff_iff, isDirectoryAt_iff, put_entries]
  split
  · have entry (e : List String × FileEntry) (he : e ∈ t.entries) :
        (∀ s, (putEntry place text e).2 = .file s → e.1 ≠ q) ↔ ∀ s, e.2 = .file s → e.1 ≠ q := by
      unfold putEntry
      split
      · next hp =>
        cases hf : e.2 with
        | file s => simp
        | directory =>
          have : t.isDirectoryAt place = true :=
            isDirectoryAt_iff.2 (Or.inr ⟨e, he, hp ▸ List.prefix_refl _, fun text h => by simp [hf] at h⟩)
          simp [this] at free
      · rfl
    rw [isDirectoryAt_iff]
    simp only [List.mem_map, exists_exists_and_eq_and]
    exact or_congr_right (exists_congr fun e => and_congr_right fun he => and_congr_right fun _ => entry e he)
  · constructor
    · rintro (h | ⟨e, he, hq, proper⟩)
      · exact isDirectoryAt_iff.2 (Or.inl h)
      · rcases List.mem_append.1 he with he | he
        · exact isDirectoryAt_iff.2 (Or.inr ⟨e, he, hq, proper⟩)
        · cases List.mem_singleton.1 he
          exact isDirectoryAt_above (prefix_dropLast hq (proper text rfl)) outer
    · intro h
      rcases isDirectoryAt_iff.1 h with h | ⟨e, he, h⟩
      · exact Or.inl h
      · exact Or.inr ⟨e, List.mem_append_left _ he, h⟩

/-- How far a tree is from another: the files written, the last one last, and the places that are made
directories with all that leads to them. -/
structure Changed (written : List (List String × String)) (made : List (List String)) (t t' : FileTree) :
    Prop where
  text (q : List String) : t'.textAt? q = (written.reverse.lookup q).or (t.textAt? q)
  directory (q : List String) : t'.isDirectoryAt q = true ↔ t.isDirectoryAt q = true ∨ ∃ p ∈ made, q <+: p

namespace Changed

variable {written written' : List (List String × String)} {made made' : List (List String)}

theorem refl (t : FileTree) : Changed [] [] t t :=
  ⟨fun _ => rfl, fun _ => by simp⟩

theorem trans (h : Changed written made t t') (h' : Changed written' made' t' t'') :
    Changed (written ++ written') (made ++ made') t t'' where
  text q := by
    rw [h'.text, h.text, List.reverse_append, List.lookup_append, Option.or_assoc]
  directory q := by
    rw [h'.directory, h.directory, or_assoc]
    simp only [List.mem_append, or_and_right, exists_or]

theorem text_of_mem (h : Changed written made t t') (hn : (written.map (·.1)).Nodup) (hw : (q, text) ∈ written) :
    t'.textAt? q = some text := by
  have found : written.reverse.lookup q = some text := by
    obtain ⟨before, after, rfl⟩ := List.append_of_mem hw
    rw [List.map_append, List.map_cons] at hn
    have later := (List.nodup_append.1 hn).2.1
    rw [List.nodup_cons] at later
    refine List.lookup_eq_some_iff.2 ⟨after.reverse, before.reverse, by simp, fun w hm => bne_iff_ne.2 ?_⟩
    rintro rfl
    exact later.1 (List.mem_map.2 ⟨w, List.mem_reverse.1 hm, rfl⟩)
  rw [h.text, found, Option.some_or]

theorem text_of_forall_ne (h : Changed written made t t') (hq : ∀ w ∈ written, w.1 ≠ q) :
    t'.textAt? q = t.textAt? q := by
  have absent : written.reverse.lookup q = none :=
    List.lookup_eq_none_iff.2 fun w hw => bne_iff_ne.2 (Ne.symm (hq w (List.mem_reverse.1 hw)))
  rw [h.text, absent, Option.none_or]

end Changed

theorem write_changed (h : t.write path text = .ok t') :
    Changed [(path.resolved, text)] [] t t' := by
  unfold write at h
  dsimp only at h
  split at h
  · cases h
  · cases h
  · next clear =>
    split at h
    · cases h
    · next free =>
      cases h
      have outer : t.isDirectoryAt path.resolved.dropLast = true := by
        unfold obstacle? at clear
        dsimp only at clear
        split at clear
        · cases clear
        · split at clear
          · assumption
          · cases clear
      refine ⟨fun q => ?_, fun q => ?_⟩
      · rw [textAt?_put]
        by_cases hq : q = path.resolved
        · simp [hq]
        · have other : (q == path.resolved) = false := beq_false_of_ne hq
          simp [hq, List.lookup_cons, other]
      · rw [isDirectoryAt_put (by simpa using free) outer]
        simp

theorem textAt?_makeLast : textAt? ⟨t.entries ++ [(place, .directory)]⟩ q = t.textAt? q := by
  unfold textAt? lookup?
  rw [List.find?_append]
  cases t.entries.find? (·.1 = q) with
  | some e => rfl
  | none =>
    by_cases hq : place = q
    · simp [hq]
    · simp [hq]

theorem isDirectoryAt_makeLast :
    isDirectoryAt ⟨t.entries ++ [(place, .directory)]⟩ q = true ↔ t.isDirectoryAt q = true ∨ q <+: place := by
  rw [isDirectoryAt_iff, isDirectoryAt_iff, or_assoc]
  simp [or_and_right, exists_or]

theorem blocked?_eq_none : t.blocked? path = none ↔
    ∀ i, path.parts[i]? = some ".." → t.isDirectoryAt (path.take i).resolved = true := by
  unfold blocked?
  rw [List.findSome?_eq_none_iff]
  constructor
  · intro h i hi
    have short : i < path.parts.length := (List.getElem?_eq_some_iff.1 hi).1
    have clear := h i (List.mem_range.2 short)
    by_contra hd
    dsimp only at clear
    rw [if_neg (by simp [hi, hd])] at clear
    split at clear <;> cases clear
  · intro h i _
    have clear : path.parts[i]? ≠ some ".." ∨ t.isDirectoryAt (path.take i).resolved = true :=
      or_iff_not_imp_left.2 fun hi => h i (not_not.1 hi)
    dsimp only
    rw [if_pos (by simpa using clear)]

/-- A path that can be followed to a directory leads through directories. -/
theorem isDirectoryAt_ways (hb : t.blocked? path = none) (h : t.isDirectoryAt path.resolved = true) :
    ∀ w ∈ path.ways, t.isDirectoryAt w = true := by
  rw [blocked?_eq_none] at hb
  intro w hw
  obtain ⟨i, hi, rfl⟩ := Path.mem_ways.1 hw
  -- from the end back: the next part leads up from a directory, or down into what lies in this one
  induction hi using Nat.decreasingInduction with
  | self => rwa [Path.take, List.take_length]
  | of_succ i hi ih =>
    have part := List.getElem?_eq_getElem hi
    by_cases hu : path.parts[i] = ".."
    · exact hb i (hu ▸ part)
    · have next := ih (Path.mem_ways.2 ⟨i + 1, hi, rfl⟩)
      rw [Path.resolved_take_succ part hu] at next
      exact isDirectoryAt_above (List.prefix_append _ _) next

theorem makeLast_changed (h : t.makeLast path = .ok t') :
    Changed [] [path.resolved] t t' ∧ t.blocked? path = none := by
  unfold makeLast at h
  dsimp only at h
  split at h
  · cases h
  · next clear =>
    refine ⟨?_, clear⟩
    split at h
    · next there =>
      cases h
      refine ⟨fun q => rfl, fun q => ?_⟩
      simp only [List.mem_singleton, exists_eq_left]
      exact ⟨Or.inl, fun h => h.elim id fun hq => isDirectoryAt_above hq there⟩
    · split at h
      · cases h
      · split at h
        · cases h
        · next clear =>
          cases h
          refine ⟨fun q => textAt?_makeLast, fun q => ?_⟩
          rw [isDirectoryAt_makeLast]
          simp only [List.mem_singleton, exists_eq_left]

/-- A directory that was made is led to by directories. -/
theorem isDirectoryAt_ways_makeLast (h : t.makeLast path = .ok t') : ∀ w ∈ path.ways, t'.isDirectoryAt w = true := by
  obtain ⟨changed, clear⟩ := makeLast_changed h
  refine isDirectoryAt_ways ?_ ((changed.directory _).2 (Or.inr ⟨_, List.mem_singleton_self _, List.prefix_refl _⟩))
  rw [blocked?_eq_none] at clear ⊢
  exact fun i hi => (changed.directory _).2 (Or.inl (clear i hi))

theorem makeAll_changed {start : PathStart} {parts : List String} (h : t.makeAll start parts = .ok t') :
    ∃ made ⊆ (Path.mk start parts.reverse).ways, Changed [] made t t' ∧
      ∀ w ∈ (Path.mk start parts.reverse).ways, t'.isDirectoryAt w = true := by
  induction parts generalizing t t' with
  | nil =>
    exact ⟨_, by simpa using Path.resolved_mem_ways _, (makeLast_changed h).1, isDirectoryAt_ways_makeLast h⟩
  | cons part outer ih =>
    rw [makeAll] at h
    split at h
    · -- what leads to the directory is made first
      obtain ⟨t₁, h₁, h₂⟩ := bind_eq_ok.1 h
      obtain ⟨made, hm, changed, -⟩ := ih h₁
      refine ⟨made ++ [_], ?_, changed.trans (makeLast_changed h₂).1, isDirectoryAt_ways_makeLast h₂⟩
      exact List.append_subset.2
        ⟨fun q hq => Path.ways_cons (hm hq), by simpa using Path.resolved_mem_ways _⟩
    · exact ⟨_, by simpa using Path.resolved_mem_ways _, (makeLast_changed h).1, isDirectoryAt_ways_makeLast h⟩

theorem makeDirectory_changed (h : t.makeDirectory path = .ok t') : Changed [] path.ways t t' := by
  obtain ⟨made, hm, changed, ways⟩ := makeAll_changed h
  rw [List.reverse_reverse] at hm ways
  refine ⟨changed.text, fun q => (changed.directory q).trans ⟨?_, ?_⟩⟩
  · rintro (h | ⟨p, hp, hq⟩)
    · exact Or.inl h
    · exact Or.inr ⟨p, hm hp, hq⟩
  · rintro (h | ⟨p, hp, hq⟩)
    · exact Or.inl h
    · exact (changed.directory q).1 (isDirectoryAt_above hq (ways p hp))

theorem plainLines_eq {cs : List Char} (h : '\r' ∉ cs) : plainLines cs = cs := by
  induction cs with
  | nil => rfl
  | cons c cs ih =>
    rw [List.mem_cons, not_or] at h
    have plain : plainLines (c :: cs) = c :: plainLines cs := by
      rw [plainLines]
      · rintro rest rfl
        exact absurd rfl h.1
      · rintro rfl
        exact absurd rfl h.1
    rw [plain, ih h.2]

/-- A file that is written is there and has its text, when its lines end in single newlines. -/
theorem read_written (h : t.write path text = .ok t') (plain : '\r' ∉ text.toList) :
    t'.contains path = true ∧ t'.read path = .ok text := by
  have changed := write_changed h
  have clear : t.blocked? path = none := by
    unfold write at h
    dsimp only at h
    split at h
    · cases h
    · cases h
    · assumption
  have open' : t'.blocked? path = none := by
    rw [blocked?_eq_none] at clear ⊢
    exact fun i hi => (changed.directory _).2 (Or.inl (clear i hi))
  have found : t'.lookup? path.resolved = some (.file text) := by
    have held : t'.textAt? path.resolved = some text := by
      rw [changed.text]
      simp
    unfold textAt? at held
    split at held
    · next hl =>
      cases held
      exact hl
    · cases held
  constructor
  · simp [contains, isFileAt, open', found]
  · unfold read
    simp only [open', found, plainLines_eq plain, String.ofList_toList]

end FileTree

end ResourceCompiler
