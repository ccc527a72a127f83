import ResourceCompiler.CommandLine.Run
import ResourceCompiler.Proofs.CommandLine.Arguments
import ResourceCompiler.Proofs.FileTree
import ResourceCompiler.Proofs.Java.WellNamed

/-!
# All or nothing

Whatever stops a run before everything is generated leaves the tree as it was (`generateAll_of_fails`). That does not
depend on how texts become documents and how lines are shown: the services of a run are arbitrary here, and a dry run
ends as the run that writes where that one can write and both can say so (`run_atomic`). The documents are finite trees
of scalars, lists and mappings.
-/

namespace ResourceCompiler

namespace Console

theorem pieces_text {cs : List Char} (done : List Char) (n : Nat) (h : '[' ∉ cs) :
    pieces (cs.length + n + 1) done cs = [.text (done.reverse ++ cs)] := by
  induction cs generalizing done with
  | nil => simp [pieces]
  | cons c cs ih =>
    rw [List.mem_cons, not_or] at h
    have fuel : (c :: cs).length + n + 1 = cs.length + n + 1 + 1 := by
      rw [List.length_cons]
      omega
    rw [fuel, pieces, ih _ h.2]
    · simp
    · exact fun hc => h.1 hc.symm

/-- Markup whose one tag is closed can be shown. -/
theorem plain_dryRun (known : Pictures) {rest : String} (h : '[' ∉ rest.toList) :
    ∃ lines, plain known ("[yellow]Dry run:[/yellow] " ++ rest) = .ok lines := by
  have cut : pieces (("[yellow]Dry run:[/yellow] " ++ rest).toList.length + 1) []
      ("[yellow]Dry run:[/yellow] " ++ rest).toList =
        [.text [], .tag "yellow".toList, .text "Dry run:".toList, .tag "/yellow".toList,
          .text (' ' :: rest.toList)] := by
    have opening : "[yellow]Dry run:[/yellow] ".toList.length = 26 := rfl
    have fuel : ("[yellow]Dry run:[/yellow] ".toList ++ rest.toList).length + 1 = rest.toList.length + 15 + 1 + 11 := by
      rw [List.length_append, opening]
      omega
    rw [String.toList_append, fuel]
    exact congrArg (.text [] :: .tag "yellow".toList :: .text "Dry run:".toList :: .tag "/yellow".toList :: ·)
      (pieces_text [' '] 15 h)
  unfold plain
  dsimp only
  rw [cut]
  exact ⟨_, rfl⟩

end Console

namespace CommandLine

variable {services : Services} {files files' : FileTree} {web : Web} {o : Options} {target : Path} {units : Files}

/-- Where a unit is written. -/
def outputOf (target : Path) (path : String) : Path := target.append (.ofString path)

open FileTree

theorem writeUnit_changed {path text : String} (h : writeUnit target files path text = (files', none)) :
    Changed [((outputOf target path).resolved, text)] (outputOf target path).parent.ways files files' := by
  unfold writeUnit at h
  dsimp only at h
  split at h
  · cases h
  · next made hm =>
    split at h
    · cases h
    · next hw =>
      cases h
      have changed := (makeDirectory_changed hm).trans (write_changed hw)
      rwa [List.nil_append, List.append_nil] at changed

theorem writeUnits_changed (h : writeUnits target files units = (files', none)) :
    Changed (units.map fun u => ((outputOf target u.1).resolved, u.2))
      (units.flatMap fun u => (outputOf target u.1).parent.ways) files files' := by
  induction units generalizing files with
  | nil =>
    cases h
    exact .refl _
  | cons u units ih =>
    obtain ⟨path, text⟩ := u
    rw [writeUnits] at h
    split at h
    · next made hm => exact (writeUnit_changed hm).trans (ih h)
    · next failed => exact absurd h (failed _)

/-- The tree after units are written below a target: each has its text, no other file changes, and the new
directories lead to units. -/
structure Written (target : Path) (units : Files) (before after : FileTree) : Prop where
  text : ∀ u ∈ units, after.textAt? (outputOf target u.1).resolved = some u.2
  below : ∀ u ∈ units, ∃ names, names ≠ [] ∧ (outputOf target u.1).resolved = target.resolved ++ names
  kept : ∀ q, (∀ u ∈ units, (outputOf target u.1).resolved ≠ q) → after.textAt? q = before.textAt? q
  directories : ∀ q, after.isDirectoryAt q = true ↔
    before.isDirectoryAt q = true ∨ ∃ u ∈ units, ∃ w ∈ (outputOf target u.1).parent.ways, q <+: w

theorem written_of_writeUnits (distinct : (units.map (·.1)).Nodup) (contained : ∀ u ∈ units, Java.Contained u.1)
    (h : writeUnits target files units = (files', none)) : Written target units files files' := by
  have changed := writeUnits_changed h
  have joined : ∀ u ∈ units, u.1 = Text.join "/" (Path.ofString u.1).parts := by
    intro u hu
    obtain ⟨package, name, -, -, he, hp⟩ := (contained u hu).parts
    rw [hp]
    exact he
  have places : ((units.map fun u => ((outputOf target u.1).resolved, u.2)).map (·.1)).Nodup := by
    rw [List.map_map]
    refine List.pairwise_map.2 ((List.pairwise_map.1 distinct).imp_of_mem fun {u v} hu hv hne he => hne ?_)
    have same : target.resolved ++ (Path.ofString u.1).parts = target.resolved ++ (Path.ofString v.1).parts := by
      rw [← (contained u hu).below target, ← (contained v hv).below target]
      exact he
    rw [joined u hu, joined v hv, List.append_cancel_left same]
  refine ⟨fun u hu => ?_, fun u hu => ?_, fun q hq => ?_, fun q => ?_⟩
  · exact changed.text_of_mem places (List.mem_map.2 ⟨u, hu, rfl⟩)
  · refine ⟨_, ?_, (contained u hu).below target⟩
    obtain ⟨package, name, -, -, -, hp⟩ := (contained u hu).parts
    simp [hp]
  · refine changed.text_of_forall_ne fun w hw => ?_
    obtain ⟨u, hu, rfl⟩ := List.mem_map.1 hw
    exact hq u hu
  · rw [changed.directory]
    simp only [List.mem_flatMap]
    refine or_congr_right ⟨?_, ?_⟩
    · rintro ⟨w, ⟨u, hu, hw⟩, hq⟩
      exact ⟨u, hu, w, hw, hq⟩
    · rintro ⟨u, hu, w, hw, hq⟩
      exact ⟨w, ⟨u, hu, hw⟩, hq⟩

theorem createWith_eq_ok {name : Value} {config : Config} {g : Generator}
    (h : Registry.standard.createWith name config = .ok g) : g = Java.generator config := by
  have only {key : String} {c : GeneratorClass} (hl : Registry.standard.generators.lookup key = some c) : c = .java := by
    obtain ⟨before, after, he, -⟩ := List.lookup_eq_some_iff.1 hl
    have : (key, c) ∈ Registry.standard.generators := by simp [he]
    have stored : Registry.standard.generators = [("java", .java)] := by rfl
    simp [stored] at this
    exact this.2
  unfold Registry.createWith at h
  obtain ⟨c, hc, h⟩ := bind_eq_ok.1 h
  rw [liftM_eq_ok] at h
  have java : c = .java := by
    unfold Registry.classOf at hc
    obtain ⟨key, -, hc⟩ := bind_eq_ok.1 hc
    split at hc
    · next c' hl =>
      cases hc
      exact only hl
    · split at hc
      · next c' hl =>
        cases hc
        obtain ⟨language, -, hl⟩ := Option.bind_eq_some_iff.1 hl
        exact only hl
      · cases hc
  subst java
  exact (Except.ok.inj h).symm

/-- What is generated for options: from the generator and the definitions to the units. -/
theorem generateAll_eq_ok {compilations : List Compilation} {warnings : List String}
    (h : generateAll services files web o = .ok (compilations, units, warnings)) :
    ∃ config g ds metadata, configOf files o = .ok config ∧
      Registry.standard.createWith (.str o.language) config = .ok g ∧
        Manifest.loadAll files web o.sources services.documents = .ok ds ∧
        ds ≠ [] ∧ compileAll g ds = .ok compilations ∧
          g.generate compilations = .ok (.generated units warnings metadata) := by
  unfold generateAll at h
  obtain ⟨config, hc, h⟩ := bind_eq_ok.1 h
  obtain ⟨g, hg, h⟩ := bind_eq_ok.1 h
  obtain ⟨ds, hd, h⟩ := bind_eq_ok.1 h
  dsimp only at h
  split at h
  · cases h
  · next some =>
    obtain ⟨cs, hcs, h⟩ := bind_eq_ok.1 h
    obtain ⟨generation, hgen, h⟩ := bind_eq_ok.1 h
    cases generation with
    | failed => cases h
    | generated units' warnings' metadata =>
      cases h
      exact ⟨config, g, ds, metadata, hc, hg, hd, by simpa using some, hcs, hgen⟩

theorem compileAll_eq_ok {g : Generator} {ds : List (String × Entries)} {compilations : List Compilation}
    (h : compileAll g ds = .ok compilations) : ∃ found, compilations = found.flatten ∧
      List.Forall₂ (fun d cs => g.resolver.compileDefinition (.map d.2) = .ok cs) ds found := by
  unfold compileAll at h
  obtain ⟨found, hf, h⟩ := bind_eq_ok.1 h
  cases h
  refine ⟨found, rfl, (mapM_eq_ok hf).imp fun d cs h => ?_⟩
  exact (bind_eq_ok.1 h).choose_spec.2

/-- Why nothing is generated: a stage fails, in any of its parts. -/
inductive Fails (services : Services) (files : FileTree) (web : Web) (o : Options) : Prop
  | config {e : Failure} (h : configOf files o = .error e)
  | language {config : Config} {e : Failure} (hc : configOf files o = .ok config)
      (h : Registry.standard.createWith (.str o.language) config = .error e)
  | source {source : String} {e : Failure} (hs : source ∈ o.sources)
      (h : Manifest.loadSource files web source services.documents = .error e)
  | noDefinition (h : Manifest.loadAll files web o.sources services.documents = .ok [])
  | definition {config : Config} {g : Generator} {ds : List (String × Entries)} {d : String × Entries}
      {e : Failure} (hc : configOf files o = .ok config)
      (hg : Registry.standard.createWith (.str o.language) config = .ok g)
      (hd : Manifest.loadAll files web o.sources services.documents = .ok ds) (hm : d ∈ ds)
      (h : g.resolver.compileDefinition (.map d.2) = .error e)
  | version {config : Config} {g : Generator} {ds : List (String × Entries)} {d : String × Entries}
      {spec : Entries} {definition : Resolver.Definition} {versions : List Value} {version : Value} {e : Failure}
      (hc : configOf files o = .ok config) (hg : Registry.standard.createWith (.str o.language) config = .ok g)
      (hd : Manifest.loadAll files web o.sources services.documents = .ok ds) (hm : d ∈ ds)
      (hs : g.resolver.definitionOf d.2 = .ok (spec, definition)) (hv : Resolver.versionsOf spec = .ok versions)
      (hm' : version ∈ versions) (h : g.resolver.compileVersion definition version = .error e)
  | unit {config : Config} {g : Generator} {ds : List (String × Entries)} {compilations : List Compilation}
      {c : Compilation} {t : Descriptor} {e : Failure} (hc : configOf files o = .ok config)
      (hg : Registry.standard.createWith (.str o.language) config = .ok g)
      (hd : Manifest.loadAll files web o.sources services.documents = .ok ds) (hcs : compileAll g ds = .ok compilations)
      (hm : c ∈ compilations) (ht : t ∈ c.topLevel) (h : g.render t c = .error e)

/-- Nothing is generated in part. -/
theorem generateAll_of_fails (h : Fails services files web o) : ∃ e, generateAll services files web o = .error e := by
  cases hg : generateAll services files web o with
  | error e => exact ⟨e, rfl⟩
  | ok generated =>
    exfalso
    -- a run that succeeds has passed every stage, and so the part that is said to fail
    obtain ⟨compilations, units, warnings⟩ := generated
    obtain ⟨config, g, ds, metadata, hconfig, hlanguage, hload, some, hcompile, hgenerate⟩ := generateAll_eq_ok hg
    cases h with
    | config h => simp [hconfig] at h
    | language hc h =>
      cases hconfig.symm.trans hc
      simp [hlanguage] at h
    | source hs h =>
      obtain ⟨found, hf, -⟩ := bind_eq_ok.1 hload
      obtain ⟨ds', -, hd⟩ := exists_of_mem_left (mapM_eq_ok hf) hs
      simp [hd] at h
    | noDefinition h => exact some (Except.ok.inj (hload.symm.trans h))
    | definition hc hg hd hm h =>
      cases hconfig.symm.trans hc
      cases hlanguage.symm.trans hg
      cases hload.symm.trans hd
      obtain ⟨found, -, hf⟩ := compileAll_eq_ok hcompile
      obtain ⟨cs, -, hcs⟩ := exists_of_mem_left hf hm
      simp [hcs] at h
    | version hc hg hd hm hs hv hm' h =>
      cases hconfig.symm.trans hc
      cases hlanguage.symm.trans hg
      cases hload.symm.trans hd
      obtain ⟨found, -, hf⟩ := compileAll_eq_ok hcompile
      obtain ⟨cs, -, hcs⟩ := exists_of_mem_left hf hm
      obtain ⟨entries, spec, definition, versions, he, hs', hv', hcs⟩ := Resolver.compileDefinition_ok hcs
      cases he
      cases hs.symm.trans hs'
      cases hv.symm.trans hv'
      obtain ⟨c, -, hc⟩ := exists_of_mem_left hcs hm'
      simp [hc] at h
    | unit hc hg hd hcs hm ht h =>
      cases hconfig.symm.trans hc
      cases hlanguage.symm.trans hg
      cases hload.symm.trans hd
      cases hcompile.symm.trans hcs
      obtain ⟨wss, hws, -⟩ := Generator.filesOf_ok .nil (Generator.filesOf_of_generate hgenerate)
      obtain ⟨ws, -, hw⟩ := exists_of_mem_left hws hm
      obtain ⟨w, -, code, hr, -⟩ := exists_of_mem_left hw ht
      simp [hr] at h

/-- The units of a run have names of their own, below the target. -/
theorem units_of_generateAll {compilations : List Compilation} {warnings : List String}
    (h : generateAll services files web o = .ok (compilations, units, warnings)) :
    (units.map (·.1)).Nodup ∧ ∀ u ∈ units, Java.Contained u.1 := by
  obtain ⟨config, g, ds, metadata, -, hlanguage, -, -, hcompile, hgenerate⟩ := generateAll_eq_ok h
  cases createWith_eq_ok hlanguage
  obtain ⟨found, rfl, hf⟩ := compileAll_eq_ok hcompile
  have named : ∀ c ∈ found.flatten, ∀ a ∈ c.artifacts, Java.WellNamed a := by
    intro c hc
    obtain ⟨cs, hcs, hm⟩ := List.mem_flatten.1 hc
    obtain ⟨d, -, hd⟩ := exists_of_mem_right hf hcs
    exact Java.compileDefinition_wellNamed hd c hm
  refine ⟨?_, fun u hu => ?_⟩
  · obtain ⟨wss, -, after⟩ := Generator.filesOf_ok .nil (Generator.filesOf_of_generate hgenerate)
    exact after.distinct
  · have path := Generator.mem_paths_of_generate hgenerate (List.mem_map_of_mem hu)
    obtain ⟨c, hc, hm⟩ := List.mem_flatMap.1 path
    obtain ⟨t, ht, he⟩ := List.mem_map.1 hm
    exact he ▸ Java.contained_pathOf (named c hc t (List.mem_append_left _ ht))

/-! ### Sessions -/

namespace Run

variable {α β : Type}

/-- What a run gives and leaves, from a session on. -/
def on (r : Run α) (s : Session) : Except Failure α × Session := r.run.run s

theorem on_bind (r : Run α) (f : α → Run β) (s : Session) :
    (r >>= f).on s = match r.on s with
      | (.ok a, s') => (f a).on s'
      | (.error e, s') => (.error e, s') := by
  have run : (r >>= f).on s = (match r.run.run s with
      | (x, s') => (ExceptT.bindCont f x).run s') := rfl
  rw [run, on]
  rcases r.run.run s with ⟨a | e, s'⟩ <;> rfl

theorem on_ofResult (x : Except Failure α) (s : Session) : (ofResult x).on s = (x, s) := rfl

theorem on_print (services : Services) (text : String) (s : Session) : (print services text).on s =
    match services.shown text with
    | .ok lines => (.ok (), { s with lines := s.lines ++ lines })
    | .error f => (.error (.fault f), s) := by
  unfold print ofFault
  rw [on_bind, on_ofResult]
  cases services.shown text <;> rfl

/-- A run that leaves the tree alone. -/
def Quiet (r : Run α) : Prop := ∀ s, (r.on s).2.files = s.files

theorem quiet_bind {r : Run α} {f : α → Run β} (hr : Quiet r) (hf : ∀ a, Quiet (f a)) : Quiet (r >>= f) := by
  intro s
  rw [on_bind]
  rcases h : r.on s with ⟨e | a, s'⟩
  · have := hr s
    rwa [h] at this
  · have := hr s
    rw [h] at this
    exact (hf a s').trans this

theorem quiet_print (services : Services) (text : String) : Quiet (print services text) := by
  intro s
  rw [on_print]
  split <;> rfl

theorem quiet_printTable (services : Services) (t : Console.Table) : Quiet (printTable services t) :=
  quiet_bind (fun _ => rfl) fun _ _ => rfl

theorem quiet_forM {f : α → Run Unit} (h : ∀ a, Quiet (f a)) (xs : List α) : Quiet (xs.forM f) := by
  induction xs with
  | nil => exact fun _ => rfl
  | cons x xs ih => exact quiet_bind (h x) fun _ => ih

end Run

open Run

/-- Tells what was compiled. -/
def announce (services : Services) (compilations : List Compilation) (warnings : List String) : Run Unit := do
  printTable services (summaryTable compilations)
  warnings.forM fun w => print services ("  [yellow]•[/yellow] " ++ w)

theorem quiet_announce (services : Services) (compilations : List Compilation) (warnings : List String) :
    Quiet (announce services compilations warnings) :=
  quiet_bind (quiet_printTable _ _) fun _ => quiet_forM (fun _ => quiet_print _ _) _

/-- Writes the units, or tells how many there are. -/
def finish (services : Services) (o : Options) (units : Files) : Run Unit := do
  if o.dryRun then print services (dryMessage units.length)
  else
    let target := o.target?.getD ""
    let (files, error?) := writeUnits (.ofString target) (← get).files units
    modify fun s => { s with files }
    if let some e := error? then throw (.command e)
    print services (wroteMessage units.length target)

theorem compileSources_eq (services : Services) (web : Web) (o : Options) : compileSources services web o = (do
    let (compilations, units, warnings) ← ofResult (generateAll services (← get).files web o)
    announce services compilations warnings
    finish services o units) := by
  unfold compileSources announce finish
  refine bind_congr fun s => bind_congr fun ⟨compilations, units, warnings⟩ => ?_
  exact (bind_assoc _ _ _).symm

theorem on_compileSources (s : Session) : (compileSources services web o).on s =
    match generateAll services s.files web o with
    | .error e => (.error e, s)
    | .ok (compilations, units, warnings) =>
      match (announce services compilations warnings).on s with
      | (.ok _, s') => (finish services o units).on s'
      | (.error e, s') => (.error e, s') := by
  rw [compileSources_eq, on_bind]
  show (_ >>= _ : Run Unit).on s = _
  rw [on_bind, on_ofResult]
  cases generateAll services s.files web o with
  | error e => rfl
  | ok generated =>
    dsimp only
    rw [on_bind]
    rcases (announce services generated.1 generated.2.2).on s with ⟨_ | _, _⟩ <;> rfl

theorem on_finish_dry (units : Files) (s : Session) (hd : o.dryRun = true) :
    (finish services o units).on s = (print services (dryMessage units.length)).on s := by
  rw [finish, if_pos hd]

theorem on_finish (s : Session) (hd : o.dryRun = false) : (finish services o units).on s =
    match writeUnits (.ofString (o.target?.getD "")) s.files units with
    | (files, none) => (print services (wroteMessage units.length (o.target?.getD ""))).on { s with files }
    | (files, some e) => (.error (.command e), { s with files }) := by
  rw [finish, if_neg (by simp [hd]), on_bind]
  show (_ >>= _ : Run Unit).on s = _
  rw [on_bind]
  show (match (writeUnits (.ofString (o.target?.getD "")) s.files units).2 with
    | some e => _
    | _ => _ : Run Unit).on _ = _
  rcases writeUnits (.ofString (o.target?.getD "")) s.files units with ⟨files, none | e⟩
  · rfl
  · rfl

theorem on_finish_writes (units : Files) (s : Session) (hd : o.dryRun = false) :
    ((finish services o units).on s).2.files = (writeUnits (.ofString (o.target?.getD "")) s.files units).1 ∧
      (((finish services o units).on s).1 = .ok () →
        (writeUnits (.ofString (o.target?.getD "")) s.files units).2 = none) := by
  rw [on_finish s hd]
  generalize wroteMessage units.length (o.target?.getD "") = message
  rcases writeUnits (.ofString (o.target?.getD "")) s.files units with ⟨files, none | e⟩
  · exact ⟨quiet_print services message { s with files }, fun _ => rfl⟩
  · exact ⟨rfl, by rintro ⟨⟩⟩

theorem on_report (e : Failure) (s : Session) :
    ((report services e).on s).2.files = s.files ∧ ((report services e).on s).1 ≠ .ok 0 := by
  unfold report
  split
  · next message _ =>
    rw [on_bind, on_print]
    cases services.shown ("[red]✗ Error:[/red] " ++ message) with
    | error f => exact ⟨rfl, by rintro ⟨⟩⟩
    | ok lines => exact ⟨rfl, by rintro ⟨⟩⟩
  · exact ⟨rfl, by rintro ⟨⟩⟩

theorem on_exitOf (s : Session) (hl : o.listLanguages = false) : (exitOf services web o).on s =
    match (compileSources services web o).on s with
    | (.ok _, s') => (.ok 0, s')
    | (.error e, s') => (report services e).on s' := by
  have caught (r : Run Nat) : (tryCatch r (report services)).on s = match r.on s with
      | (.ok n, s') => (.ok n, s')
      | (.error e, s') => (report services e).on s' := by
    unfold on ExceptT.run StateT.run
    simp only [tryCatch, tryCatchThe, MonadExceptOf.tryCatch, ExceptT.tryCatch, ExceptT.mk, bind, StateT.bind]
    rcases r s with ⟨e | n, s'⟩ <;> rfl
  rw [exitOf, if_neg (by simp [hl]), caught, on_bind]
  rcases (compileSources services web o).on s with ⟨e | _, s'⟩ <;> rfl

theorem quiet_exitOf_listLanguages (hl : o.listLanguages = true) : Quiet (exitOf services web o) := by
  rw [exitOf, if_pos hl]
  refine quiet_bind (quiet_bind (fun _ => rfl) fun _ => ?_) fun _ _ => rfl
  exact quiet_bind (fun _ => rfl) fun _ => quiet_printTable _ _

/-- A run that stops before the units are written leaves the tree alone. -/
theorem on_exitOf_of_error (s : Session) {e : Failure} (h : generateAll services s.files web o = .error e) :
    ((exitOf services web o).on s).2.files = s.files := by
  cases hl : o.listLanguages with
  | true => exact quiet_exitOf_listLanguages hl s
  | false =>
    rw [on_exitOf s hl, on_compileSources, h]
    exact (on_report e s).1

theorem on_exitOf_dry (s : Session) (hd : o.dryRun = true) : ((exitOf services web o).on s).2.files = s.files := by
  cases hl : o.listLanguages with
  | true => exact quiet_exitOf_listLanguages hl s
  | false =>
    rw [on_exitOf s hl, on_compileSources]
    cases generateAll services s.files web o with
    | error e => exact (on_report e s).1
    | ok generated =>
      obtain ⟨compilations, units, warnings⟩ := generated
      have quiet := quiet_announce services compilations warnings s
      dsimp only
      rcases h : (announce services compilations warnings).on s with ⟨e | _, s'⟩
      · rw [h] at quiet
        exact ((on_report e s').1).trans quiet
      · rw [h] at quiet
        have told := quiet_print services (dryMessage units.length) s'
        dsimp only
        rw [on_finish_dry units s' hd]
        rcases h' : (print services (dryMessage units.length)).on s' with ⟨e | _, s''⟩
        · rw [h'] at told
          exact ((on_report e s'').1.trans told).trans quiet
        · rw [h'] at told
          exact told.trans quiet

/-- What a run that succeeds has generated, and written. -/
theorem on_exitOf_zero (s : Session) (hd : o.dryRun = false) (hl : o.listLanguages = false)
    (h : ((exitOf services web o).on s).1 = .ok 0) :
    ∃ compilations units warnings, generateAll services s.files web o = .ok (compilations, units, warnings) ∧
      writeUnits (.ofString (o.target?.getD "")) s.files units = (((exitOf services web o).on s).2.files, none) := by
  rw [on_exitOf s hl, on_compileSources] at h ⊢
  cases hg : generateAll services s.files web o with
  | error e =>
    rw [hg] at h
    exact absurd h (on_report e s).2
  | ok generated =>
    obtain ⟨compilations, units, warnings⟩ := generated
    refine ⟨compilations, units, warnings, rfl, ?_⟩
    rw [hg] at h
    have quiet := quiet_announce services compilations warnings s
    dsimp only at h ⊢
    rcases ha : (announce services compilations warnings).on s with ⟨e | _, s'⟩
    · rw [ha] at h
      exact absurd h (on_report e s').2
    · rw [ha] at h quiet
      dsimp only at h quiet ⊢
      obtain ⟨left, done⟩ := on_finish_writes units s' hd
      rw [quiet] at left done
      rcases hf : (finish services o units).on s' with ⟨e | _, s''⟩
      · rw [hf] at h
        exact absurd h (on_report _ _).2
      · rw [hf] at left done
        exact Prod.ext left.symm (done rfl)

/-- The units can be written, and the console can show that they were, or that they were not in a dry run. -/
structure Finishes (services : Services) (o : Options) (files : FileTree) (units : Files) : Prop where
  writes : (writeUnits (.ofString (o.target?.getD "")) files units).2 = none
  tells : ∃ lines, services.shown (wroteMessage units.length (o.target?.getD "")) = .ok lines
  tellsDry : ∃ lines, services.shown (dryMessage units.length) = .ok lines

/-- A dry run ends as the run would that writes what it can. -/
theorem on_exitOf_dry_exit (s : Session) (hd : o.dryRun = false)
    (h : ∀ compilations units warnings, generateAll services s.files web o = .ok (compilations, units, warnings) →
      Finishes services o s.files units) :
    ((exitOf services web o.dry).on s).1 = ((exitOf services web o).on s).1 := by
  cases hl : o.listLanguages with
  | true => rw [exitOf, exitOf, if_pos hl, if_pos (show o.dry.listLanguages = true from hl)]
  | false =>
    have same : generateAll services s.files web o.dry = generateAll services s.files web o := rfl
    rw [on_exitOf s hl, on_exitOf s (o := o.dry) hl, on_compileSources, on_compileSources, same]
    cases hg : generateAll services s.files web o with
    | error e => rfl
    | ok generated =>
      obtain ⟨compilations, units, warnings⟩ := generated
      obtain ⟨writes, ⟨lines, tells⟩, lines', tellsDry⟩ := h _ _ _ hg
      have quiet := quiet_announce services compilations warnings s
      dsimp only
      rcases ha : (announce services compilations warnings).on s with ⟨e | _, s'⟩
      · rfl
      · rw [ha] at quiet
        dsimp only at quiet ⊢
        rw [on_finish_dry (o := o.dry) units s' rfl, on_print, tellsDry, on_finish s' hd, quiet]
        rcases hw : writeUnits (.ofString (o.target?.getD "")) s.files units with ⟨files', none | e⟩
        · dsimp only
          rw [on_print, tells]
        · rw [hw] at writes
          cases writes

theorem ofRun_files (r : Run Nat) : (Outcome.ofRun files r).files = (r.on { files }).2.files := by
  unfold Outcome.ofRun on
  split <;> next h => rw [h]

theorem ofRun_zero {r : Run Nat} (h : (Outcome.ofRun files r).exit = .ok 0) : (r.on { files }).1 = .ok 0 := by
  unfold Outcome.ofRun at h
  unfold on
  split at h
  · next n s hr =>
    cases h
    rw [hr]
  · cases h
  · cases h

theorem ofRun_exit {r r' : Run Nat} (h : (r.on { files }).1 = (r'.on { files }).1) :
    (Outcome.ofRun files r).exit = (Outcome.ofRun files r').exit := by
  unfold Outcome.ofRun
  unfold on at h
  rcases hr : r.run.run { files } with ⟨e | n, s⟩ <;> rcases hr' : r'.run.run { files } with ⟨e' | n', s'⟩ <;>
    rw [hr, hr'] at h <;> cases h
  · cases e <;> rfl
  · rfl

theorem run_of_parse {words : List String} (h : parse words = .ok o) : (run files web words services).1 =
    match missing? o with
    | some _ => ⟨.ok 2, [], files⟩
    | none => Outcome.ofRun files (exitOf services web o) := by
  unfold run
  rw [h]
  dsimp only
  cases missing? o <;> rfl

theorem run_of_stop {words : List String} {stop : Stop} (h : parse words = .error stop) :
    (run files web words services).1.files = files ∧
      ∀ words', parse words' = .error stop → run files web words' services = run files web words services := by
  unfold run
  rw [h]
  constructor
  · cases stop <;> rfl
  · intro words' h'
    rw [h']

/-- Only a run that is not dry and does not list languages changes the tree. -/
theorem run_files_of_quiet {words : List String}
    (h : ∀ o, parse words = .ok o → o.dryRun = true ∨ o.listLanguages = true) :
    (run files web words services).1.files = files := by
  cases hp : parse words with
  | error stop => exact (run_of_stop hp).1
  | ok o =>
    rw [run_of_parse hp]
    split
    · rfl
    · rw [ofRun_files]
      rcases h o hp with hd | hl
      · exact on_exitOf_dry _ hd
      · exact quiet_exitOf_listLanguages hl _

/-- A run is all or nothing, whatever services it uses. Where any stage fails, the tree stays as it was; a run that
succeeds has generated all units and written these and nothing else; and a dry run ends as the run would that writes,
where there is a target and writing succeeds, without writing. -/
theorem run_atomic (services : Services) (files : FileTree) (web : Web) (words : List String) :
    (∀ o, parse words = .ok o → Fails services files web o → (run files web words services).1.files = files) ∧
      ((∀ o, parse words = .ok o → o.dryRun = true ∨ o.listLanguages = true) →
        (run files web words services).1.files = files) ∧
      (∀ o, parse words = .ok o → o.dryRun = false → o.listLanguages = false →
        (run files web words services).1.exit = .ok 0 →
          ∃ compilations units warnings, generateAll services files web o = .ok (compilations, units, warnings) ∧
            Written (.ofString (o.target?.getD "")) units files (run files web words services).1.files) ∧
      ∀ before after, words = before ++ after → Complete before →
        (∀ o, parse words = .ok o → ∃ target, o.target? = some target ∧ target ≠ "") →
        (∀ o compilations units warnings, parse words = .ok o → o.dryRun = false →
          generateAll services files web o = .ok (compilations, units, warnings) →
            Finishes services o files units) →
        (run files web (before ++ "--dry-run" :: after) services).1.exit = (run files web words services).1.exit ∧
          (run files web (before ++ "--dry-run" :: after) services).1.files = files := by
  refine ⟨fun o hp hf => ?_, run_files_of_quiet, fun o hp hd hl h => ?_, ?_⟩
  · rw [run_of_parse hp]
    split
    · rfl
    · obtain ⟨e, he⟩ := generateAll_of_fails hf
      rw [ofRun_files]
      exact on_exitOf_of_error { files } he
  · rw [run_of_parse hp] at h ⊢
    split at h
    · cases h
    · obtain ⟨compilations, units, warnings, hg, hw⟩ := on_exitOf_zero { files } hd hl (ofRun_zero h)
      obtain ⟨distinct, contained⟩ := units_of_generateAll hg
      rw [ofRun_files]
      exact ⟨compilations, units, warnings, hg, written_of_writeUnits distinct contained hw⟩
  · rintro before after rfl complete hasTarget finishes
    have parsed := parse_dryRun complete after
    cases hp : parse (before ++ after) with
    | error stop =>
      rw [hp] at parsed
      rw [(run_of_stop hp).2 _ parsed]
      exact ⟨rfl, (run_of_stop hp).1⟩
    | ok o =>
      rw [hp] at parsed
      have dry : o.dry.dryRun = true := rfl
      refine ⟨?_, run_files_of_quiet fun o' ho' => ?_⟩
      · obtain ⟨target, ht, hne⟩ := hasTarget o hp
        have missing : missing? o.dry = missing? o := by
          unfold missing?
          simp [Options.dry, ht, hne]
        rw [run_of_parse parsed, run_of_parse hp, missing]
        split
        · rfl
        · refine ofRun_exit ?_
          cases hd : o.dryRun with
          | true =>
            have same : o.dry = o := by
              cases o
              cases hd
              rfl
            rw [same]
          | false =>
            exact on_exitOf_dry_exit { files } hd fun compilations units warnings hg =>
              finishes o compilations units warnings hp hd hg
      · cases parsed.symm.trans ho'
        exact Or.inl dry

/-- A tree with one definition. -/
def diskTree : FileTree :=
  .ofFiles [("crd.yaml",
    "kind: CustomResourceDefinition\nspec: \x7bgroup: test.io, names: \x7bkind: Disk\x7d, versions: [\x7bname: v1\x7d]\x7d\n")]

def diskOptions : Options := { sources := ["crd.yaml"], target? := some "out" }

theorem parse_disk : parse ["-s", "crd.yaml", "-t", "out"] = .ok diskOptions := rfl

/-- The console of the program can always tell that a run was dry. -/
theorem withPictures_tellsDry (known : Console.Pictures) (count : Nat) :
    ∃ lines, (Services.withPictures known).shown (dryMessage count) = .ok lines := by
  have free : '[' ∉ (Text.ofInt count ++ " file(s) not written").toList := by
    rw [String.toList_append, List.mem_append, not_or]
    refine ⟨fun h => ?_, by decide⟩
    rw [Text.ofInt, String.toList_ofList, Text.intChars, if_neg (by omega)] at h
    exact absurd (Nat.isDigit_of_mem_toDigits (by decide) (by decide) h) (by decide)
  obtain ⟨lines, shown⟩ := Console.plain_dryRun known free
  refine ⟨lines.map String.ofList, ?_⟩
  unfold dryMessage
  rw [String.append_assoc]
  exact bind_eq_ok.2 ⟨lines, shown, rfl⟩

/-- A console that knows no pictures. -/
def plainServices : Services := .withPictures []

theorem run_atomic_disk :
    (∃ o, parse ["-s", "crd.yaml", "-s", "none.yaml", "-t", "out"] = .ok o ∧ Fails plainServices diskTree [] o ∧
      (run diskTree [] ["-s", "crd.yaml", "-s", "none.yaml", "-t", "out"] plainServices).1.files = diskTree) ∧
    (run diskTree [] ["-s", "crd.yaml", "-t", "out"] plainServices).1.exit = .ok 0 ∧
      (∃ compilations units warnings,
        generateAll plainServices diskTree [] diskOptions = .ok (compilations, units, warnings) ∧
        units.map (·.1) = ["io/test/v1/Disk.java"] ∧ Written (.ofString "out") units diskTree
          (run diskTree [] ["-s", "crd.yaml", "-t", "out"] plainServices).1.files) ∧
      (run diskTree [] ["-s", "crd.yaml", "--dry-run", "-t", "out"] plainServices).1.exit = .ok 0 ∧
        (run diskTree [] ["-s", "crd.yaml", "--dry-run", "-t", "out"] plainServices).1.files = diskTree := by
  obtain ⟨failing, -⟩ := run_atomic plainServices diskTree [] ["-s", "crd.yaml", "-s", "none.yaml", "-t", "out"]
  have fails : Fails plainServices diskTree [] { sources := ["crd.yaml", "none.yaml"], target? := some "out" } :=
    .source (show "none.yaml" ∈ ["crd.yaml", "none.yaml"] by simp) (e := .fileNotFound "none.yaml") rfl
  obtain ⟨-, -, writing, dry⟩ := run_atomic plainServices diskTree [] ["-s", "crd.yaml", "-t", "out"]
  have succeeds : (run diskTree [] ["-s", "crd.yaml", "-t", "out"] plainServices).1.exit = .ok 0 :=
    toOption_eq_some.1 (by decide +kernel)
  obtain ⟨compilations, units, warnings, generated, written⟩ := writing diskOptions parse_disk rfl rfl succeeds
  have evaluated : (generateAll plainServices diskTree [] diskOptions).toOption.map (fun g =>
      (g.2.1.map (·.1), (writeUnits (.ofString "out") diskTree g.2.1).2.isNone,
        (plainServices.shown (wroteMessage g.2.1.length "out")).toOption.isSome)) =
          some (["io/test/v1/Disk.java"], true, true) := by
    decide +kernel
  obtain ⟨g, hg, evaluated⟩ := Option.map_eq_some_iff.1 evaluated
  cases generated.symm.trans (toOption_eq_some.1 hg)
  obtain ⟨paths, writes, tells⟩ : units.map (·.1) = ["io/test/v1/Disk.java"] ∧
      (writeUnits (.ofString "out") diskTree units).2.isNone ∧
        (plainServices.shown (wroteMessage units.length "out")).toOption.isSome := by
    obtain ⟨paths, rest⟩ := Prod.mk.inj evaluated
    exact ⟨paths, Prod.mk.inj rest⟩
  obtain ⟨lines, tells⟩ := Option.isSome_iff_exists.1 tells
  obtain ⟨exit, unchanged⟩ := dry ["-s", "crd.yaml"] ["-t", "out"] rfl ⟨by decide, _, rfl⟩
    (fun o ho => by
      cases parse_disk.symm.trans ho
      exact ⟨"out", rfl, by decide⟩)
    (fun o compilations' units' warnings' ho _ hg => by
      cases parse_disk.symm.trans ho
      cases generated.symm.trans hg
      exact ⟨Option.isNone_iff_eq_none.1 writes, ⟨lines, toOption_eq_some.1 tells⟩, withPictures_tellsDry _ _⟩)
  exact ⟨⟨_, rfl, fails, failing _ rfl fails⟩, succeeds, ⟨compilations, units, warnings, generated, paths, written⟩,
    exit.trans succeeds, unchanged⟩

/-- An empty target is none, unless the run is dry. -/
theorem run_emptyTarget :
    (run diskTree [] ["-s", "crd.yaml", "-t", ""] plainServices).1.exit = .ok 2 ∧
      (run diskTree [] ["-s", "crd.yaml", "-t", "", "--dry-run"] plainServices).1.exit = .ok 0 :=
  ⟨toOption_eq_some.1 (by decide +kernel), toOption_eq_some.1 (by decide +kernel)⟩

end CommandLine

end ResourceCompiler
