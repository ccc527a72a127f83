import Mathlib
import ResourceCompiler.Proofs.Resolver.Names

/-!
# Generated files

A generation writes the unit of every class to its path, one compilation after the other. Files hold
what was written last to each path (`Files.After`), so that no unit is lost exactly if no two of them
have one path. Within a compilation they never do; `generate_complete` says that the files are complete
exactly if no two compilations share a path.
-/

namespace ResourceCompiler

namespace Files

variable {files changes : Files} {path text : String} {writes others : List (String × String)}

theorem lookup_cons (p t q : String) (files : Files) :
    List.lookup q ((p, t) :: files) = if q = p then some t else files.lookup q := by
  rw [List.lookup_cons]
  by_cases hq : q = p
  · simp [hq]
  · rw [beq_eq_false_iff_ne.2 hq, if_neg hq]

theorem lookup_put (files : Files) (path text q : String) :
    (files.put path text).lookup q = if q = path then some text else files.lookup q := by
  induction files with
  | nil => rw [put, lookup_cons]
  | cons f files ih =>
    obtain ⟨p, t⟩ := f
    rw [put]
    by_cases hp : p = path
    · subst hp
      rw [if_pos rfl, lookup_cons, lookup_cons]
      split <;> rfl
    · rw [if_neg hp, lookup_cons, ih, lookup_cons]
      by_cases hq : q = p
      · subst hq
        rw [if_pos rfl, if_neg hp, if_pos rfl]
      · rw [if_neg hq, if_neg hq]

theorem map_fst_put (files : Files) (path text : String) :
    (files.put path text).map (·.1) =
      if path ∈ files.map (·.1) then files.map (·.1) else files.map (·.1) ++ [path] := by
  induction files with
  | nil => rfl
  | cons f files ih =>
    obtain ⟨p, t⟩ := f
    rw [put]
    by_cases hp : p = path
    · simp [hp]
    · rw [if_neg hp, List.map_cons, ih]
      by_cases hm : path ∈ files.map (·.1)
      · have hm' : path ∈ List.map (·.1) ((p, t) :: files) := List.mem_cons_of_mem _ hm
        rw [if_pos hm, if_pos hm', List.map_cons]
      · have hm' : path ∉ List.map (·.1) ((p, t) :: files) := by
          rw [List.map_cons, List.mem_cons, not_or]
          exact ⟨Ne.symm hp, hm⟩
        rw [if_neg hm, if_neg hm', List.map_cons, List.cons_append]

theorem lookup_of_mem (hn : (files.map (·.1)).Nodup) (h : (path, text) ∈ files) :
    files.lookup path = some text := by
  induction files with
  | nil => cases h
  | cons f files ih =>
    rw [List.map_cons, List.nodup_cons] at hn
    rcases List.mem_cons.1 h with rfl | h
    · exact List.lookup_cons_self
    · have hne : path ≠ f.1 := by
        rintro rfl
        exact hn.1 (List.mem_map.2 ⟨_, h, rfl⟩)
      rw [lookup_cons, if_neg hne]
      exact ih hn.2 h

theorem lookup_reverse (hn : (files.map (·.1)).Nodup) (path : String) :
    List.lookup path files.reverse = files.lookup path :=
  (lookup_perm (List.reverse_perm files).symm hn path).symm

/-- The files after some writes: each path once, with the text that was written last. -/
structure After (writes : List (String × String)) (files : Files) : Prop where
  distinct : (files.map (·.1)).Nodup
  last : ∀ path, files.lookup path = List.lookup path writes.reverse

namespace After

theorem nil : After [] [] := ⟨.nil, fun _ => rfl⟩

theorem put (h : After writes files) (path text : String) :
    After (writes ++ [(path, text)]) (files.put path text) := by
  refine ⟨?_, fun q => ?_⟩
  · rw [map_fst_put]
    split
    · exact h.distinct
    · next hm =>
      refine List.nodup_append.2 ⟨h.distinct, List.nodup_singleton _, fun p hp q hq he => ?_⟩
      rw [List.mem_singleton.1 hq] at he
      exact hm (he ▸ hp)
  · rw [lookup_put, h.last, List.reverse_append, List.reverse_singleton, List.singleton_append,
      lookup_cons]

theorem merge (h : After writes files) (changes : Files) :
    After (writes ++ changes) (files.merge changes) := by
  induction changes generalizing writes files with
  | nil => simpa [Files.merge] using h
  | cons f changes ih =>
    rw [List.append_cons]
    exact ih (h.put f.1 f.2)

/-- Merging files into others repeats the writes that led to them. -/
theorem trans (h : After writes files) (h' : After others changes) :
    After (writes ++ others) (files.merge changes) := by
  refine ⟨(h.merge changes).distinct, fun path => ?_⟩
  rw [(h.merge changes).last, List.reverse_append, List.reverse_append, List.lookup_append,
    List.lookup_append, lookup_reverse h'.distinct, h'.last]

theorem mem_iff (h : After writes files) (path : String) :
    path ∈ files.map (·.1) ↔ path ∈ writes.map (·.1) := by
  have mem (l : List (String × String)) : path ∈ l.map (·.1) ↔ (l.lookup path).isSome := by
    rw [List.lookup_isSome_iff, List.mem_map]
    refine exists_congr fun e => and_congr_right fun _ => ?_
    rw [beq_iff_eq, eq_comm]
  rw [mem, h.last, ← mem, List.map_reverse, List.mem_reverse]

theorem nodup_of_length (h : After writes files) (hl : files.length = writes.length) :
    (writes.map (·.1)).Nodup := by
  have sub : (files.map (·.1)).Subperm (writes.map (·.1)) :=
    h.distinct.subperm fun path hp => (h.mem_iff path).1 hp
  have perm := sub.perm_of_length_le (by simp [hl])
  exact perm.nodup_iff.1 h.distinct

theorem length_of_nodup (h : After writes files) (hn : (writes.map (·.1)).Nodup) :
    files.length = writes.length := by
  have sub : (files.map (·.1)).Subperm (writes.map (·.1)) :=
    h.distinct.subperm fun path hp => (h.mem_iff path).1 hp
  have sub' : (writes.map (·.1)).Subperm (files.map (·.1)) :=
    hn.subperm fun path hp => (h.mem_iff path).2 hp
  have := sub.length_le
  have := sub'.length_le
  simp only [List.length_map] at *
  omega

theorem lookup_of_nodup (h : After writes files) (hn : (writes.map (·.1)).Nodup)
    (hw : (path, text) ∈ writes) : files.lookup path = some text := by
  rw [h.last, lookup_reverse hn]
  exact lookup_of_mem hn hw

end After

end Files

namespace Generator

variable {g : Generator} {c : Compilation} {cs : List Compilation} {files files' : Files}

/-- The unit of a class as it is written. -/
def Writes (g : Generator) (c : Compilation) (t : Descriptor) (w : String × String) : Prop :=
  ∃ code, g.render t c = .ok code ∧ w = (g.pathOf t, Source.format code)

theorem foldlM_units_ok {units : List Descriptor}
    (h : units.foldlM (fun (files : Files) t => do
      return files.put (g.pathOf t) (Source.format (← g.render t c))) files = .ok files') :
    ∃ ws, List.Forall₂ (g.Writes c) units ws ∧ files' = files.merge ws := by
  induction units generalizing files with
  | nil =>
    cases h
    exact ⟨[], .nil, rfl⟩
  | cons t ts ih =>
    rw [List.foldlM_cons] at h
    simp only [bind_eq_ok, pure_eq_ok] at h
    obtain ⟨files₁, ⟨code, hr, rfl⟩, h⟩ := h
    obtain ⟨ws, hw, rfl⟩ := ih h
    exact ⟨(g.pathOf t, Source.format code) :: ws, .cons ⟨code, hr, rfl⟩ hw, rfl⟩

theorem units_ok (h : g.units c = .ok files) :
    ∃ ws, List.Forall₂ (g.Writes c) c.topLevel ws ∧ Files.After ws files := by
  obtain ⟨ws, hw, rfl⟩ := foldlM_units_ok h
  exact ⟨ws, hw, by simpa using Files.After.nil.merge ws⟩

/-- All units of all compilations are written, in order. -/
theorem filesOf_ok {warnings warnings' : List String} {writes : List (String × String)}
    (hf : Files.After writes files) (h : g.filesOf files warnings cs = .ok (files', warnings')) :
    ∃ wss, List.Forall₂ (fun (c : Compilation) ws => List.Forall₂ (g.Writes c) c.topLevel ws) cs wss ∧
      Files.After (writes ++ wss.flatten) files' := by
  induction cs generalizing files warnings writes with
  | nil =>
    cases h
    exact ⟨[], .nil, by simpa using hf⟩
  | cons c cs ih =>
    rw [filesOf] at h
    simp only [bind_eq_ok] at h
    obtain ⟨more, -, units, hu, h⟩ := h
    obtain ⟨ws, hw, ha⟩ := units_ok hu
    obtain ⟨wss, hws, ha'⟩ := ih (hf.trans ha) h
    exact ⟨ws :: wss, .cons hw hws, by simpa using ha'⟩

theorem filesOf_of_generate {warnings : List String} {metadata : Metadata}
    (h : g.generate cs = .ok (.generated files warnings metadata)) : g.filesOf [] [] cs = .ok (files, warnings) := by
  unfold generate at h
  split at h
  · next hf =>
    cases h
    exact hf
  · cases h
  · cases h

/-- The paths of the units of a compilation. -/
def paths (g : Generator) (c : Compilation) : List String := c.topLevel.map g.pathOf

theorem paths_of_writes {ws : List (String × String)} {units : List Descriptor}
    (h : List.Forall₂ (g.Writes c) units ws) : ws.map (·.1) = units.map g.pathOf := by
  induction h with
  | nil => rfl
  | cons hw _ ih =>
    obtain ⟨code, -, rfl⟩ := hw
    rw [List.map_cons, List.map_cons, ih]

/-- No two compilations have a unit of one path. -/
def Apart (g : Generator) (cs : List Compilation) : Prop :=
  cs.Pairwise fun c c' => (g.paths c).Disjoint (g.paths c')

/-- Each unit has its file, and there are no other files. -/
structure Complete (g : Generator) (cs : List Compilation) (files : Files) : Prop where
  count : files.length = (cs.map (·.topLevel.length)).sum
  unit : ∀ c ∈ cs, ∀ t ∈ c.topLevel, ∃ code, g.render t c = .ok code ∧
    files.lookup (g.pathOf t) = some (Source.format code)

variable {wss : List (List (String × String))}

theorem paths_flatten
    (h : List.Forall₂ (fun (c : Compilation) ws => List.Forall₂ (g.Writes c) c.topLevel ws) cs wss) :
    wss.flatten.map (·.1) = cs.flatMap g.paths := by
  induction h with
  | nil => rfl
  | cons hw _ ih => rw [List.flatten_cons, List.map_append, ih, paths_of_writes hw, List.flatMap_cons, paths]

theorem length_flatten
    (h : List.Forall₂ (fun (c : Compilation) ws => List.Forall₂ (g.Writes c) c.topLevel ws) cs wss) :
    wss.flatten.length = (cs.map (·.topLevel.length)).sum := by
  induction h with
  | nil => rfl
  | cons hw _ ih =>
    rw [List.flatten_cons, List.length_append, ih, List.map_cons, List.sum_cons, hw.length_eq]

theorem nodup_paths_iff (hn : ∀ c ∈ cs, (g.paths c).Nodup) : (cs.flatMap g.paths).Nodup ↔ g.Apart cs := by
  rw [List.nodup_flatMap]
  exact and_iff_right hn

theorem complete_of_apart
    (h : List.Forall₂ (fun (c : Compilation) ws => List.Forall₂ (g.Writes c) c.topLevel ws) cs wss)
    (ha : Files.After wss.flatten files) (hn : (wss.flatten.map (·.1)).Nodup) : g.Complete cs files := by
  refine ⟨(ha.length_of_nodup hn).trans (length_flatten h), fun c hc t ht => ?_⟩
  obtain ⟨ws, hws, hw⟩ := exists_of_mem_left h hc
  obtain ⟨w, hm, code, hr, rfl⟩ := exists_of_mem_left hw ht
  exact ⟨code, hr, ha.lookup_of_nodup hn (List.mem_flatten.2 ⟨ws, hws, hm⟩)⟩

end Generator

namespace Java

/-- What schemas and definitions compile to, under any configuration. -/
inductive Compiled : Compilation → Prop
  | schema {config : Config} {schema package : Value} {name : String} {c : Compilation}
      (hk : schema.keysDistinct)
      (h : (generator config).resolver.compileSchema schema name package = .ok c) : Compiled c
  | definition {config : Config} {document : Value} {cs : List Compilation} {c : Compilation}
      (hk : document.keysDistinct) (h : (generator config).resolver.compileDefinition document = .ok cs)
      (hc : c ∈ cs) : Compiled c

theorem paths_nodup {config : Config} {res : Resolution} {c : Compilation} {package : List String}
    {owner? : Option String} (h : Named package owner? res.artifacts)
    (hc : Compilation.ofResolution res = .ok c) : ((generator config).paths c).Nodup := by
  obtain ⟨c', hc', hp⟩ := (h.separates (slash_not_mem_extension config)).compiled
  cases hc.symm.trans hc'
  exact hp

theorem Compiled.paths_nodup {c : Compilation} (h : Compiled c) (config : Config) :
    ((generator config).paths c).Nodup := by
  cases h with
  | schema hk h =>
    obtain ⟨res, hres, hc⟩ := Resolver.compileSchema_ok h
    obtain ⟨package, hn⟩ := Resolver.resolveSchema_named (dotted _) hk hres
    exact Java.paths_nodup hn hc
  | definition hk h hc =>
    obtain ⟨entries, spec, d, versions, he, hd, hvs, h⟩ := Resolver.compileDefinition_ok h
    obtain ⟨version, hv, h⟩ := exists_of_mem_right h hc
    obtain ⟨res, hres, hc⟩ := Resolver.compileVersion_ok h
    obtain ⟨hspec, hshared⟩ := Resolver.definitionOf_distinct (Value.entries_distinct hk he) hd
    obtain ⟨package, hn⟩ := Resolver.resolveVersion_named (dotted _) hshared
      (Resolver.versionsOf_distinct hspec hvs version hv) hres
    exact Java.paths_nodup hn hc

/-- Files generated for compilations are complete exactly if no two of these share a path; else there
are too few. A generation that failed has none. -/
theorem generate_complete (config : Config) (cs : List Compilation) (hc : ∀ c ∈ cs, Compiled c) :
    (∀ files warnings metadata,
      (generator config).generate cs = .ok (.generated files warnings metadata) →
        ((generator config).Apart cs → (generator config).Complete cs files) ∧
          (files.length = (cs.map (·.topLevel.length)).sum → (generator config).Apart cs)) ∧
    ∀ (g : Generator) generation, g.generate cs = .ok generation → generation.succeeded = false →
      generation.files = [] := by
  refine ⟨fun files warnings metadata h => ?_, fun g generation _ hs => ?_⟩
  · unfold Generator.generate at h
    split at h
    · next files' warnings' hf =>
      cases h
      obtain ⟨wss, hw, ha⟩ := Generator.filesOf_ok .nil hf
      rw [List.nil_append] at ha
      have paths := Generator.nodup_paths_iff fun c hm => (hc c hm).paths_nodup config
      rw [← Generator.paths_flatten hw] at paths
      refine ⟨fun apart => Generator.complete_of_apart hw ha (paths.2 apart), fun count => ?_⟩
      exact paths.1 (ha.nodup_of_length (count.trans (Generator.length_flatten hw).symm))
    · cases h
    · cases h
  · cases generation with
    | generated => cases hs
    | failed => rfl

/-- A generator that refuses every class. -/
def refusing : Generator where
  __ := generator {}
  render t _ := .error (.generator (.template (.notUnit t.kindName) (.str t.name)))

theorem generate_complete_device :
    (∃ c files warnings metadata,
      (generator {}).resolver.compileSchema deviceValue "Device" (.str "io") = .ok c ∧
        (generator {}).generate [c] = .ok (.generated files warnings metadata) ∧
          (generator {}).Complete [c] files ∧
            files.map (·.1) = ["io/device/Ports.java", "io/Device.java"]) ∧
    ∃ c generation, (generator {}).resolver.compileSchema deviceValue "Device" (.str "io") = .ok c ∧
      refusing.generate [c] = .ok generation ∧ generation.files = [] := by
  have compiled {c : Compilation}
      (hc : (generator {}).resolver.compileSchema deviceValue "Device" (.str "io") = .ok c) :
      ∀ c' ∈ [c], Compiled c' := by
    intro c' hm
    rw [List.mem_singleton.1 hm]
    exact .schema (by decide) hc
  constructor
  · have run : ((generator {}).resolver.compileSchema deviceValue "Device" (.str "io") >>= fun c =>
        (generator {}).generate [c]).toOption.map (fun g => (g.succeeded, g.files.map (·.1))) =
          some (true, ["io/device/Ports.java", "io/Device.java"]) := by
      decide +kernel
    obtain ⟨generation, h, he⟩ := Option.map_eq_some_iff.1 run
    obtain ⟨c, hc, hg⟩ := bind_eq_ok.1 (toOption_eq_some.1 h)
    obtain ⟨hs, paths⟩ := Prod.mk.inj he
    obtain ⟨files, warnings, metadata, rfl⟩ : ∃ files warnings metadata,
        generation = .generated files warnings metadata := by
      cases generation with
      | generated files warnings metadata => exact ⟨_, _, _, rfl⟩
      | failed => cases hs
    have apart : (generator {}).Apart [c] := List.pairwise_singleton _ _
    have complete := ((generate_complete {} [c] (compiled hc)).1 _ _ _ hg).1 apart
    exact ⟨c, files, warnings, metadata, hc, hg, complete, paths⟩
  · obtain ⟨c, hc, generation, hg, hs⟩ : ∃ c,
        (generator {}).resolver.compileSchema deviceValue "Device" (.str "io") = .ok c ∧
          ∃ generation, refusing.generate [c] = .ok generation ∧ generation.succeeded = false :=
      ⟨_, rfl, _, rfl, rfl⟩
    exact ⟨c, generation, hc, hg, (generate_complete {} [c] (compiled hc)).2 refusing generation hg hs⟩

/-- A definition with two versions whose names make one segment of a package. -/
def twinDefinition : Value :=
  .map [(.str "spec", .map [(.str "group", .str "test.io"),
    (.str "names", .map [(.str "kind", .str "Device")]),
    (.str "versions", .list [.map [(.str "name", .str "v1")], .map [(.str "name", .str "v-1")]])])]

theorem twins_share_one_file :
    ∃ cs files warnings metadata, (generator {}).resolver.compileDefinition twinDefinition = .ok cs ∧
      (generator {}).generate cs = .ok (.generated files warnings metadata) ∧
        (cs.map (·.topLevel.length)).sum = 2 ∧ files.map (·.1) = ["io/test/v1/Device.java"] :=
  ⟨_, _, _, _, rfl, rfl, rfl, by decide +kernel⟩

end Java

end ResourceCompiler
