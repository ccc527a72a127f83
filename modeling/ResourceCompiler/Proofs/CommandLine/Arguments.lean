import ResourceCompiler.CommandLine.Arguments
import ResourceCompiler.Proofs.Success

/-!
# One more flag

The words of a command line are taken step by step, each step by the first words that are left
(`takeAll_cons`). What a step does to the options does not depend on whether the run is dry, so that the
flag for it may stand before or between other complete arguments (`parse_dryRun`).
-/

namespace ResourceCompiler.CommandLine

namespace Options

/-- The options of a dry run. -/
def dry (o : Options) : Options := { o with dryRun := true }

theorem set_dry (o : Options) (f : Flag) : o.dry.set f = (o.set f).map dry := by
  cases f <;> rfl

theorem setValue_dry (o : Options) (f : Flag) (value : String) :
    o.dry.setValue f value = (o.setValue f value).map dry := by
  cases f with
  | existingType =>
    unfold setValue
    cases readPair .existingType value <;> rfl
  | packageOverride =>
    unfold setValue
    cases readPair .packageOverride value <;> rfl
  | _ => rfl

end Options

namespace Progress

variable {p p' : Progress}

def dry (p : Progress) : Progress := { p with options := p.options.dry }

theorem setAll_dry (p : Progress) (flags : List Flag) : p.dry.setAll flags = (p.setAll flags).map dry := by
  unfold setAll
  have options (o : Options) : flags.foldlM Options.set o.dry = (flags.foldlM Options.set o).map Options.dry := by
    induction flags generalizing o with
    | nil => rfl
    | cons f flags ih =>
      rw [List.foldlM_cons, List.foldlM_cons, Options.set_dry]
      cases o.set f with
      | error => rfl
      | ok o => exact ih o
  rw [show p.dry.options = p.options.dry from rfl, options]
  cases flags.foldlM Options.set p.options <;> rfl

theorem setValue_dry (p : Progress) (f : Flag) (value : String) :
    p.dry.setValue f value = (p.setValue f value).map dry := by
  unfold setValue
  rw [show p.dry.options = p.options.dry from rfl, Options.setValue_dry]
  cases p.options.setValue f value <;> rfl

/-- What the flags of a word do, the last with the next word where that is its value, and the words left. -/
def bundleStep (rest : List (String × Word)) :
    Except Stop Bundle → (Progress → Except Stop Progress) × List (String × Word)
  | .error e => (fun _ => .error e, rest)
  | .ok (.stray flags extra) => (fun p => do return (← p.setAll flags).extra extra, rest)
  | .ok (.flags flags none) => (fun p => p.setAll flags, rest)
  | .ok (.flags flags (some (g, some value))) => (fun p => do (← p.setAll flags).setValue g value, rest)
  | .ok (.flags flags (some (g, none))) =>
    match rest with
    | (value, .plain) :: rest => (fun p => do (← p.setAll flags).setValue g value, rest)
    | rest => (fun _ => .error (.usage (.missingValue g)), rest)

/-- What the first of some words does, and the words left. -/
def step (w : String × Word) (rest : List (String × Word)) :
    (Progress → Except Stop Progress) × List (String × Word) :=
  match w.2 with
  | .flag f short attached? => bundleStep rest (bundleOf f short attached?)
  | _ => (fun p => .ok (p.extra w.1), rest)

theorem takeAll_cons (p : Progress) (w : String × Word) (rest : List (String × Word)) :
    p.takeAll (w :: rest) = (do (← (step w rest).1 p).takeAll (step w rest).2) := by
  obtain ⟨word, w⟩ := w
  cases w with
  | flag f short attached? =>
    rw [takeAll, step]
    dsimp only
    generalize bundleOf f short attached? = b
    match b with
    | .error e => rfl
    | .ok (.stray flags extra) =>
      simp only [bundleStep, bind_assoc, pure_bind]
    | .ok (.flags flags none) => rfl
    | .ok (.flags flags (some (g, some value))) =>
      simp only [bundleStep, bind_assoc]
    | .ok (.flags flags (some (g, none))) =>
      cases rest with
      | nil => rfl
      | cons v rest =>
        obtain ⟨value, v⟩ := v
        cases v with
        | plain => simp only [bundleStep, bind_assoc]
        | _ => rfl
  | _ => rfl

theorem length_step (w : String × Word) (rest : List (String × Word)) : (step w rest).2.length ≤ rest.length := by
  unfold step
  split
  · unfold bundleStep
    split
    · exact Nat.le_refl _
    · exact Nat.le_refl _
    · exact Nat.le_refl _
    · exact Nat.le_refl _
    · split
      · exact Nat.le_succ _
      · exact Nat.le_refl _
  · exact Nat.le_refl _

theorem step_dry (w : String × Word) (rest : List (String × Word)) (p : Progress) :
    (step w rest).1 p.dry = ((step w rest).1 p).map dry := by
  have value (flags : List Flag) (g : Flag) (v : String) :
      (do (← p.dry.setAll flags).setValue g v) = (do (← p.setAll flags).setValue g v).map dry := by
    rw [setAll_dry]
    cases p.setAll flags with
    | error => rfl
    | ok p => exact setValue_dry p g v
  unfold step
  split
  · unfold bundleStep
    split
    · rfl
    · dsimp only
      rw [setAll_dry]
      cases p.setAll _ <;> rfl
    · exact setAll_dry p _
    · exact value _ _ _
    · split
      · exact value _ _ _
      · rfl
  · rfl

theorem takeAll_dry (words : List (String × Word)) (p : Progress) :
    p.dry.takeAll words = (p.takeAll words).map dry := by
  induction hn : words.length using Nat.strongRecOn generalizing words p with
  | ind n ih =>
    cases words with
    | nil => rw [takeAll, takeAll]; rfl
    | cons w rest =>
      rw [takeAll_cons, takeAll_cons, step_dry]
      cases (step w rest).1 p with
      | error => rfl
      | ok p' =>
        have shorter := length_step w rest
        exact ih _ (by simp at hn; omega) (step w rest).2 p' rfl

/-- A step that is taken needs no more words. -/
theorem step_append {w : String × Word} {words : List (String × Word)} (h : (step w words).1 p = .ok p')
    (rest : List (String × Word)) : step w (words ++ rest) = ((step w words).1, (step w words).2 ++ rest) := by
  obtain ⟨word, w⟩ := w
  unfold step at h ⊢
  cases w with
  | flag f short attached? =>
    dsimp only at h ⊢
    generalize bundleOf f short attached? = b at h ⊢
    match b with
    | .error e => rfl
    | .ok (.stray flags extra) => rfl
    | .ok (.flags flags none) => rfl
    | .ok (.flags flags (some (g, some value))) => rfl
    | .ok (.flags flags (some (g, none))) =>
      cases words with
      | nil => cases h
      | cons v words =>
        obtain ⟨value, v⟩ := v
        cases v with
        | plain => rfl
        | _ => cases h
  | _ => rfl

/-- Words that can be taken are taken alike whatever follows them. -/
theorem takeAll_append {words : List (String × Word)} (h : p.takeAll words = .ok p') (rest : List (String × Word)) :
    p.takeAll (words ++ rest) = p'.takeAll rest := by
  induction hn : words.length using Nat.strongRecOn generalizing words p with
  | ind n ih =>
    cases words with
    | nil =>
      cases h
      rfl
    | cons w words =>
      rw [takeAll_cons] at h
      obtain ⟨p₁, h₁, h⟩ := bind_eq_ok.1 h
      have shorter := length_step w words
      rw [List.cons_append, takeAll_cons, step_append h₁]
      dsimp only
      rw [h₁]
      exact ih _ (by simp at hn; omega) h rfl

end Progress

namespace Word

theorem readAll_append {before : List String} {words : List (String × Word)} (hb : "--" ∉ before)
    (h : readAll before = .ok words) (after : List String) :
    readAll (before ++ after) = (do return words ++ (← readAll after)) := by
  induction before generalizing words with
  | nil =>
    cases h
    rw [List.nil_append]
    cases readAll after <;> rfl
  | cons s before ih =>
    rw [List.mem_cons, not_or] at hb
    obtain ⟨hs, hb⟩ := hb
    rw [readAll, if_neg (Ne.symm hs)] at h
    obtain ⟨w, hw, h⟩ := bind_eq_ok.1 h
    obtain ⟨words', h', h⟩ := bind_eq_ok.1 h
    cases h
    rw [List.cons_append, readAll, if_neg (Ne.symm hs), hw, ih hb h']
    cases readAll after <;> rfl

theorem read_dryRun : read "--dry-run".toList = .ok (.flag .dryRun false none) := rfl

end Word

/-- Words that stand before others without taking any of them as a value. -/
def Complete (words : List String) : Prop := "--" ∉ words ∧ ∃ o, parse words = .ok o

theorem parse_eq_ok {words : List String} {o : Options} : parse words = .ok o ↔
    ∃ ws, Word.readAll words = .ok ws ∧ ({} : Progress).takeAll ws = .ok ⟨o, []⟩ := by
  unfold parse
  cases Word.readAll words with
  | error e => simp
  | ok ws =>
    dsimp only
    rw [bind_eq_ok]
    constructor
    · rintro ⟨⟨o', extras⟩, hp, h⟩
      split at h
      · next none =>
        cases h
        have none : extras = [] := List.isEmpty_iff.1 none
        exact ⟨ws, rfl, none ▸ hp⟩
      · cases h
    · rintro ⟨_, he, h⟩
      cases he
      exact ⟨_, h, rfl⟩

/-- The flag makes the run dry and changes nothing else. -/
theorem parse_dryRun {before : List String} (hb : Complete before) (after : List String) :
    parse (before ++ "--dry-run" :: after) = (parse (before ++ after)).map Options.dry := by
  obtain ⟨plain, o, h⟩ := hb
  obtain ⟨words, hr, ht⟩ := parse_eq_ok.1 h
  have dry (p : Progress) (rest : List (String × Word)) :
      p.takeAll (("--dry-run", .flag .dryRun false none) :: rest) = (p.takeAll rest).map Progress.dry := by
    rw [Progress.takeAll_cons]
    exact Progress.takeAll_dry rest p
  unfold parse
  rw [Word.readAll_append plain hr, Word.readAll_append plain hr, Word.readAll, if_neg (by decide), Word.read_dryRun]
  cases Word.readAll after with
  | error e => rfl
  | ok rest =>
    show ((({} : Progress).takeAll (words ++ _ :: rest)) >>= _) = ((({} : Progress).takeAll (words ++ rest)) >>= _).map _
    rw [Progress.takeAll_append ht, Progress.takeAll_append ht, dry]
    cases Progress.takeAll ⟨o, []⟩ rest with
    | error e => rfl
    | ok p =>
      show (if p.extras.isEmpty then _ else _) = Except.map _ (if p.extras.isEmpty then _ else _)
      split <;> rfl

end ResourceCompiler.CommandLine
