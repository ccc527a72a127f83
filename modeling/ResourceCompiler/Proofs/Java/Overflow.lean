import ResourceCompiler.Java.Generator
import ResourceCompiler.Proofs.Binary64.Integer
import ResourceCompiler.Proofs.Failure
import ResourceCompiler.Proofs.Generation
import ResourceCompiler.Proofs.Java.Integers

/-!
# Values that no conversion expects

A token or a default that is no value of its type is caught: the one is an error of the schema, the other is left out
with a warning. Two kinds of values escape, with a fault that stops the generation of all code (`contained_iff`).
Numbers beyond the range of their type are the one: integers that a double precision number cannot hold, and infinities
as defaults of integer types. Values that cannot be written are the other: a token whose text is needed, be it for the
message that refuses the token, and a default that is compared with constants by their texts.
-/

namespace ResourceCompiler

/-- The faults of values that are no numbers, which the readers of tokens and defaults expect. -/
def Fault.Caught (f : Fault) : Prop := f = .malformedNumber ∨ f = .notNumber

/-- A conversion that faults beyond the range of numbers; elsewhere it faults only as expected. -/
structure Bounded {α : Type} (beyond : Prop) (x : Except Fault α) : Prop where
  outside : beyond → x = .error .outOfRange
  inside : ¬ beyond → OnlyFails Fault.Caught x

namespace Bounded

variable {α β : Type} {beyond other : Prop} {x : Except Fault α}

theorem ok (a : α) : Bounded False (.ok a : Except Fault α) := ⟨False.elim, fun _ => .ok a⟩

theorem caught {f : Fault} (h : f.Caught) : Bounded False (.error f : Except Fault α) :=
  ⟨False.elim, fun _ => .error h⟩

theorem congr (h : Bounded beyond x) (same : beyond ↔ other) : Bounded other x :=
  ⟨fun outside => h.outside (same.2 outside), fun inside => h.inside fun outside => inside (same.1 outside)⟩

theorem bind {f : α → Except Fault β} (h : Bounded beyond x) (hf : ∀ a, OnlyFails Fault.Caught (f a)) :
    Bounded beyond (x >>= f) := by
  refine ⟨fun outside => ?_, fun inside => .bind (h.inside inside) fun a _ => hf a⟩
  rw [h.outside outside]
  rfl

theorem map (h : Bounded beyond x) (f : α → β) : Bounded beyond (x.map f) := by
  have bound := h.bind (f := fun a => .ok (f a)) fun a => .ok (f a)
  cases x <;> exact bound

end Bounded

theorem Text.writeInt_caught (n : Int) : OnlyFails Fault.Caught (writeInt n) := by
  unfold writeInt
  split
  · exact .ok _
  · exact .error (Or.inl rfl)

namespace Value

/-- An integer that no double precision number comes near to. -/
def Huge (v : Value) : Prop := ∃ n, v = .int n ∧ Binary64.bound ≤ n.natAbs

def Endless (v : Value) : Prop := ∃ negative, v = .float (.infinite negative)

def isContainer : Value → Bool
  | .scalar _ => false
  | _ => true

variable {v : Value}

theorem toText_bounded (v : Value) : Bounded False v.toText := by
  unfold toText
  split
  · exact .ok _
  · exact .caught (Or.inl rfl)

theorem toInt_bounded (v : Value) : Bounded v.Endless v.toInt := by
  by_cases endless : v.Endless
  · obtain ⟨negative, rfl⟩ := endless
    exact ⟨fun _ => rfl, fun inside => absurd ⟨negative, rfl⟩ inside⟩
  · have finite : Bounded False v.toInt := by
      cases v with
      | scalar s =>
        cases s with
        | int n => exact .ok n
        | bool b => exact .ok _
        | float x =>
          cases x with
          | finite negative m p fits => exact .ok _
          | infinite negative => exact absurd ⟨negative, rfl⟩ endless
          | nan => exact .caught (Or.inl rfl)
        | str s =>
          show Bounded False ((Text.readInt? s).elim (.error .malformedNumber) .ok)
          cases Text.readInt? s with
          | none => exact .caught (Or.inl rfl)
          | some n => exact .ok n
        | null => exact .caught (Or.inr rfl)
        | date d => exact .caught (Or.inr rfl)
      | list xs => exact .caught (Or.inr rfl)
      | map es => exact .caught (Or.inr rfl)
    exact finite.congr (iff_of_false id endless)

/-- The rounding of integers is a variable here, so that checking the proof does not unfold it. -/
theorem toFloat_int {round : Int → Binary64} (hr : Binary64.ofInt = round) (n : Int) :
    (∃ negative, round n = .infinite negative) ∧ (Value.int n).toFloat = .error .outOfRange ∨
      (¬ ∃ negative, round n = .infinite negative) ∧ (Value.int n).toFloat = .ok (round n) := by
  rw [Value.toFloat.eq_def, hr]
  dsimp only
  split
  · next negative infinite => exact Or.inl ⟨⟨negative, infinite⟩, rfl⟩
  · next finite => exact Or.inr ⟨fun ⟨negative, infinite⟩ => finite negative infinite, rfl⟩

/-- An integer is a double precision number unless it is huge. -/
theorem toFloat_of_int {n : Int} (h : ¬ (Value.int n).Huge) : ∃ x, (Value.int n).toFloat = .ok x := by
  rcases toFloat_int rfl n with ⟨infinite, -⟩ | ⟨-, held⟩
  · exact absurd ⟨n, rfl, Binary64.ofInt_eq_infinite_iff.1 infinite⟩ h
  · exact ⟨_, held⟩

theorem toFloat_bounded (v : Value) : Bounded v.Huge v.toFloat := by
  by_cases integer : ∃ n, v = .int n
  · obtain ⟨n, rfl⟩ := integer
    refine ⟨fun huge => ?_, fun held => ?_⟩
    · obtain ⟨_, ⟨⟩, beyond⟩ := huge
      rcases toFloat_int rfl n with ⟨-, failed⟩ | ⟨finite, -⟩
      · exact failed
      · exact absurd (Binary64.ofInt_eq_infinite_iff.2 beyond) finite
    · obtain ⟨x, hx⟩ := toFloat_of_int held
      rw [hx]
      exact .ok x
  · have other : Bounded False v.toFloat := by
      cases v with
      | scalar s =>
        cases s with
        | int n => exact absurd ⟨n, rfl⟩ integer
        | bool b => exact .ok _
        | float x => exact .ok x
        | str s =>
          show Bounded False ((Text.readFloat? s).elim (.error .malformedNumber) .ok)
          cases Text.readFloat? s with
          | none => exact .caught (Or.inl rfl)
          | some x => exact .ok x
        | null => exact .caught (Or.inr rfl)
        | date d => exact .caught (Or.inr rfl)
      | list xs => exact .caught (Or.inr rfl)
      | map es => exact .caught (Or.inr rfl)
    refine other.congr (iff_of_false id ?_)
    rintro ⟨n, rfl, -⟩
    exact integer ⟨n, rfl⟩

end Value

/-! ### Tokens -/

/-- A huge integer for a type whose values are double precision numbers. -/
def Overflows (token : Value) (primitive : Primitive) : Prop :=
  (primitive = .float ∨ primitive = .double) ∧ token.Huge

/-- A token that cannot be written, although its text is needed: to read it, or to say that it is no value of the type.
Integers are numbers of every type whatever their length. -/
def Unwritten (token : Value) (primitive : Primitive) : Prop :=
  token.hasText = false ∧ (primitive = .string ∨ primitive = .boolean ∨ token.isContainer = true)

/-- The fault with which a token escapes. -/
inductive TokenEscapes (token : Value) (primitive : Primitive) : Fault → Prop
  | overflow (h : Overflows token primitive) : TokenEscapes token primitive .outOfRange
  | unwritten (h : Unwritten token primitive) : TokenEscapes token primitive .malformedNumber

theorem readEnumValue_bounded (token : Value) (primitive : Primitive) :
    Bounded (Overflows token primitive) (readEnumValue token primitive) := by
  cases primitive with
  | string => exact (token.toText_bounded.map Scalar.str).congr (by simp [Overflows])
  | boolean =>
    have read : Bounded False (readEnumValue token .boolean) := by
      simp only [readEnumValue]
      split
      · exact .ok _
      · refine token.toText_bounded.bind fun text => ?_
        split
        · exact .ok _
        · split
          · exact .ok _
          · exact .error (Or.inl rfl)
    exact read.congr (by simp [Overflows])
  | int32 | int64 | bigInteger =>
    rw [readEnumValue_integer rfl]
    -- infinities have no integer part, and are refused with the fractions
    have read : Bounded False (if token.isRounded then .error .malformedNumber else token.toInt.map Scalar.int) := by
      split
      · exact .caught (Or.inl rfl)
      · next whole =>
        refine (token.toInt_bounded.map Scalar.int).congr (iff_of_false ?_ id)
        rintro ⟨negative, rfl⟩
        exact whole rfl
    exact read.congr (by simp [Overflows])
  | float | double => exact (token.toFloat_bounded.map Scalar.float).congr (by simp [Overflows])

theorem exists_int_of_long {token : Value} (long : token.hasText = false) (scalar : token.isContainer = false) :
    ∃ n, token = .int n := by
  cases token with
  | scalar s =>
    cases s with
    | int n => exact ⟨n, rfl⟩
    | _ => cases long
  | _ => cases scalar

/-- A token that cannot be written is read only if it is an integer, and only as a number. -/
theorem exists_readEnumValue_iff {token : Value} {primitive : Primitive} (long : token.hasText = false)
    (held : ¬ Overflows token primitive) :
    (∃ value, readEnumValue token primitive = .ok value) ↔ ¬ Unwritten token primitive := by
  have unread : token.toText = .error .malformedNumber := if_neg (Bool.eq_false_iff.1 long)
  cases container : token.isContainer with
  | true =>
    refine iff_of_false ?_ fun written => written ⟨long, Or.inr (Or.inr container)⟩
    rintro ⟨value, h⟩
    cases token with
    | scalar s => cases container
    | list xs | map es =>
      cases primitive with
      | string | boolean => simp [readEnumValue, unread, Except.map, bind, Except.bind] at h
      | _ => cases h
  | false =>
    obtain ⟨n, rfl⟩ := exists_int_of_long long container
    cases primitive with
    | string | boolean =>
      refine iff_of_false ?_ fun written => written ⟨long, by simp⟩
      rintro ⟨value, h⟩
      simp [readEnumValue, unread, Except.map, bind, Except.bind] at h
    | int32 | int64 | bigInteger =>
      exact iff_of_true ⟨_, readEnumValue_int rfl n⟩ fun unwritten => by simp [Unwritten, container] at unwritten
    | float | double =>
      obtain ⟨x, hx⟩ := Value.toFloat_of_int fun huge => held ⟨by simp, huge⟩
      refine iff_of_true ⟨.float x, ?_⟩ fun unwritten => by simp [Unwritten, container] at unwritten
      exact map_eq_ok.2 ⟨x, hx, rfl⟩

theorem TokenEscapes.unique {token : Value} {primitive : Primitive} {f g : Fault}
    (hf : TokenEscapes token primitive f) (hg : TokenEscapes token primitive g) : f = g := by
  have apart (overflow : Overflows token primitive) (unwritten : Unwritten token primitive) : False := by
    obtain ⟨number, n, rfl, -⟩ := overflow
    rcases unwritten.2 with text | truth | container
    · rcases number with rfl | rfl <;> cases text
    · rcases number with rfl | rfl <;> cases truth
    · cases container
  cases hf with
  | overflow hf =>
    cases hg with
    | overflow => rfl
    | unwritten hg => exact (apart hf hg).elim
  | unwritten hf =>
    cases hg with
    | overflow hg => exact (apart hg hf).elim
    | unwritten => rfl

/-- A token is read or refused, or it escapes. -/
theorem parseEnumValue_cases (token : Value) (primitive : Primitive) (path : String) :
    (∃ f, TokenEscapes token primitive f ∧ parseEnumValue token primitive path = .error (.fault f)) ∨
      (∀ f, ¬ TokenEscapes token primitive f) ∧
        ((∃ value, parseEnumValue token primitive path = .ok value) ∨
          parseEnumValue token primitive path =
            .error (.generator (.shape (.unfitEnumValue token primitive) (.str path)))) := by
  by_cases overflows : Overflows token primitive
  · refine Or.inl ⟨_, .overflow overflows, ?_⟩
    unfold parseEnumValue
    rw [(readEnumValue_bounded token primitive).outside overflows]
  · have refused : (∃ value, readEnumValue token primitive = .ok value) ∨
        parseEnumValue token primitive path = failShape (.unfitEnumValue token primitive) (.str path) := by
      cases read : readEnumValue token primitive with
      | ok value => exact Or.inl ⟨value, rfl⟩
      | error f =>
        refine Or.inr ?_
        unfold parseEnumValue
        rw [read]
        rcases (readEnumValue_bounded token primitive).inside overflows f read with rfl | rfl <;> rfl
    have contained (written : ¬ Unwritten token primitive) : ∀ f, ¬ TokenEscapes token primitive f := by
      rintro f (overflow | unwritten)
      · exact overflows overflow
      · exact written unwritten
    cases long : token.hasText with
    | true =>
      refine Or.inr ⟨contained fun unwritten => ?_, refused.imp ?_ fun failed => failed.trans (if_pos long)⟩
      · rw [unwritten.1] at long
        cases long
      · exact fun ⟨value, read⟩ => ⟨value, parseEnumValue_eq_ok.2 read⟩
    | false =>
      by_cases unwritten : Unwritten token primitive
      · have unread := fun read => (exists_readEnumValue_iff long overflows).1 read unwritten
        exact Or.inl ⟨_, .unwritten unwritten, (refused.resolve_left unread).trans (if_neg (Bool.eq_false_iff.1 long))⟩
      · obtain ⟨value, read⟩ := (exists_readEnumValue_iff long overflows).2 unwritten
        exact Or.inr ⟨contained unwritten, Or.inl ⟨value, parseEnumValue_eq_ok.2 read⟩⟩

theorem parseEnumValue_eq_fault {token : Value} {primitive : Primitive} {path : String} {f : Fault} :
    parseEnumValue token primitive path = .error (.fault f) ↔ TokenEscapes token primitive f := by
  rcases parseEnumValue_cases token primitive path with ⟨g, escapes, failed⟩ | ⟨contained, ⟨value, read⟩ | refused⟩
  · rw [failed, Except.error.injEq, Failure.fault.injEq]
    exact ⟨fun same => same ▸ escapes, fun other => escapes.unique other⟩
  · simp [read, contained]
  · simp [refused, contained]

namespace Java

/-! ### Defaults -/

/-- A default that is compared with the value of a constant, and is another. -/
def Differs (v : Value) (value : Scalar) : Prop :=
  v.equalsScalar value = false ∧ v.hasText = true ∧ value.hasText = true ∧ value.text ≠ v.text

/-- The fault with which a default escapes: an infinity for an integer type, an integer for a type that cannot hold it,
or a text that is needed to compare the default with a constant, where one of the two has none. -/
inductive DefaultEscapes : Descriptor → Value → Fault → Prop
  | endless {p : PrimitiveType} {v : Value} (integer : p.primitive.isInteger = true) (h : v.Endless) :
      DefaultEscapes (.primitive p) v .outOfRange
  | overflow {p : PrimitiveType} {v : Value} (h : Overflows v p.primitive) : DefaultEscapes (.primitive p) v .outOfRange
  | unwritten {e : EnumType} {v : Value} {before after : List EnumEntry} {k : EnumEntry} (present : v.isNull = false)
      (split : e.entries = before ++ k :: after) (passed : ∀ l ∈ before, Differs v l.value)
      (other : v.equalsScalar k.value = false) (long : v.hasText = false ∨ k.value.hasText = false) :
      DefaultEscapes (.enum e) v .malformedNumber

theorem DefaultEscapes.unique {t : Descriptor} {v : Value} {f g : Fault} (hf : DefaultEscapes t v f)
    (hg : DefaultEscapes t v g) : f = g := by
  cases hf <;> cases hg <;> rfl

theorem scalarDefault_bounded (t : PrimitiveType) (v : Value) :
    Bounded (t.primitive.isInteger = true ∧ v.Endless ∨ Overflows v t.primitive) (scalarDefault t v) := by
  by_cases integer : t.primitive.isInteger = true
  · rw [scalarDefault_integer integer]
    have written (n : Int) : OnlyFails Fault.Caught (do
        return some ((frame t).1 ++ (← Text.writeInt n) ++ (frame t).2)) :=
      .bind (Text.writeInt_caught n) fun _ _ => .ok _
    refine (v.toInt_bounded.bind written).congr ?_
    have apart : ¬ Overflows v t.primitive := by
      rintro ⟨kind | kind, -⟩ <;> rw [kind] at integer <;> cases integer
    simp [integer, apart]
  · obtain ⟨name, primitive⟩ := t
    cases primitive with
    | string =>
      exact ((v.toText_bounded.map Text.quote).map some).congr (by simp [Overflows, Primitive.isInteger])
    | boolean =>
      have rendered : Bounded False (scalarDefault { name, primitive := .boolean } v) := by
        rcases v with s | xs | es
        · cases s <;> exact .ok _
        · exact .ok _
        · exact .ok _
      exact rendered.congr (by simp [Overflows, Primitive.isInteger])
    | float | double =>
      exact ((v.toFloat_bounded.map _).map some).congr (by simp [Overflows, Primitive.isInteger])
    | int32 | int64 | bigInteger => exact absurd rfl integer

/-- A default for a scalar type is rendered or left out, unless it is beyond the range of the type. -/
theorem defaultInitializer_primitive (p : PrimitiveType) {v : Value} (present : v.isNull = false) :
    FailsWhen (DefaultEscapes (.primitive p) v) (defaultInitializer (.primitive p) v) := by
  have bounded := scalarDefault_bounded p v
  have same (f : Fault) : DefaultEscapes (.primitive p) v f ↔
      f = .outOfRange ∧ (p.primitive.isInteger = true ∧ v.Endless ∨ Overflows v p.primitive) := by
    constructor
    · rintro (⟨integer, endless⟩ | overflow)
      · exact ⟨rfl, Or.inl ⟨integer, endless⟩⟩
      · exact ⟨rfl, Or.inr overflow⟩
    · rintro ⟨rfl, ⟨integer, endless⟩ | overflow⟩
      · exact .endless integer endless
      · exact .overflow overflow
  unfold defaultInitializer
  rw [present, if_neg Bool.false_ne_true]
  dsimp only
  refine ⟨fun f failed => (same f).2 ?_, fun f escapes => ⟨.outOfRange, ?_⟩⟩
  · split at failed
    · cases failed
    · cases failed
    · next malformed missing =>
      by_cases beyond : p.primitive.isInteger = true ∧ v.Endless ∨ Overflows v p.primitive
      · rw [bounded.outside beyond] at failed
        exact ⟨(Except.error.inj failed).symm, beyond⟩
      · rcases bounded.inside beyond f failed with rfl | rfl
        · exact absurd failed malformed
        · exact absurd failed missing
  · rw [bounded.outside ((same f).1 escapes).2]

theorem isTakenFor_cases (v : Value) (value : Scalar) :
    (∃ found, isTakenFor v value = .ok found ∧ (found = false ↔ Differs v value) ∧
        ¬ (v.equalsScalar value = false ∧ (v.hasText = false ∨ value.hasText = false))) ∨
      isTakenFor v value = .error .malformedNumber ∧ ¬ Differs v value ∧
        v.equalsScalar value = false ∧ (v.hasText = false ∨ value.hasText = false) := by
  unfold isTakenFor Differs Value.toText Scalar.toText
  cases v.equalsScalar value <;> cases v.hasText <;> cases value.hasText <;>
    simp [bind, Except.bind, pure, Except.pure]

/-- A default of an enum is rendered or left out, unless a text is missing that it is compared by. -/
theorem defaultInitializer_enumeration (e : EnumType) {v : Value} (present : v.isNull = false) :
    FailsWhen (DefaultEscapes (.enum e) v) (defaultInitializer (.enum e) v) := by
  have passes (k : EnumEntry) : isTakenFor v k.value = .ok false ↔ Differs v k.value := by
    rcases isTakenFor_cases v k.value with ⟨found, tested, differs, -⟩ | ⟨failed, same, -⟩
    · rw [tested, Except.ok.injEq, differs]
    · simp [failed, same]
  have fails (k : EnumEntry) (f : Fault) : isTakenFor v k.value = .error f ↔
      f = .malformedNumber ∧ v.equalsScalar k.value = false ∧ (v.hasText = false ∨ k.value.hasText = false) := by
    rcases isTakenFor_cases v k.value with ⟨found, tested, -, held⟩ | ⟨failed, -, long⟩
    · simp [tested, held]
    · rw [failed, Except.error.injEq]
      exact ⟨fun same => ⟨same.symm, long⟩, fun h => h.1.symm⟩
  have search (f : Fault) : (e.entries.findM? fun k => isTakenFor v k.value) = .error f ↔
      DefaultEscapes (.enum e) v f := by
    rw [findM?_eq_error]
    simp only [passes, fails]
    constructor
    · rintro ⟨before, k, after, split, passed, rfl, other, long⟩
      exact .unwritten present split passed other long
    · intro escapes
      cases escapes with
      | unwritten _ split passed other long => exact ⟨_, _, _, split, passed, rfl, other, long⟩
  have run : FailsWhen (DefaultEscapes (.enum e) v) (e.entries.findM? fun k => isTakenFor v k.value) :=
    ⟨fun f failed => (search f).1 failed, fun f escapes => ⟨f, (search f).2 escapes⟩⟩
  unfold defaultInitializer
  rw [present, if_neg Bool.false_ne_true]
  exact run.map

/-- A default that does not escape is rendered or left out. -/
theorem defaultInitializer_failsWhen (t : Descriptor) (v : Value) :
    FailsWhen (DefaultEscapes t v) (defaultInitializer t v) := by
  cases null : v.isNull with
  | true =>
    unfold defaultInitializer
    rw [null, if_pos rfl]
    refine (FailsWhen.pure none).congr fun f => iff_of_false id fun escapes => ?_
    -- null is neither an integer nor an infinity
    cases escapes with
    | endless _ h =>
      obtain ⟨negative, rfl⟩ := h
      cases null
    | overflow h =>
      obtain ⟨-, n, rfl, -⟩ := h
      cases null
    | unwritten present =>
      rw [present] at null
      cases null
  | false =>
    cases t with
    | primitive p => exact defaultInitializer_primitive p null
    | enum e => exact defaultInitializer_enumeration e null
    | _ =>
      unfold defaultInitializer
      rw [null, if_neg Bool.false_ne_true]
      exact (FailsWhen.pure _).congr fun f => iff_of_false id nofun

theorem defaultInitializer_eq_error {t : Descriptor} {v : Value} {f : Fault} :
    defaultInitializer t v = .error f ↔ DefaultEscapes t v f :=
  (defaultInitializer_failsWhen t v).error_iff fun _ _ => DefaultEscapes.unique

/-! ### Generation -/

/-- The fault with which a default of the class escapes. -/
def ClassEscapes (t : Descriptor) (f : Fault) : Prop :=
  ∃ field ∈ t.fields, ∃ v ∈ field.default?, DefaultEscapes field.type v f

theorem initializer_failsWhen (field : Field Descriptor) :
    FailsWhen (fun f => ∃ v ∈ field.default?, DefaultEscapes field.type v f) (initializer field) := by
  unfold initializer
  cases field.default? with
  | none => exact (FailsWhen.pure none).congr (by simp)
  | some v => exact (defaultInitializer_failsWhen field.type v).congr (by simp)

theorem warnings_failsWhen (c : Compilation) :
    FailsWhen (fun f => ∃ t ∈ c.topLevel, ClassEscapes t f) (warnings c) := by
  unfold warnings
  refine FailsWhen.map (f := fun lost => _ ++ lost.flatten) (FailsWhen.mapM fun t _ => ?_)
  exact (FailsWhen.filterM fun field _ => (initializer_failsWhen field).map).map

theorem filesOf_append {g : Generator} {files : Files} {known : List String} {before after : List Compilation} :
    g.filesOf files known (before ++ after) =
      g.filesOf files known before >>= fun (written, found) => g.filesOf written found after := by
  induction before generalizing files known with
  | nil => rfl
  | cons c before ih =>
    rw [List.cons_append, Generator.filesOf, Generator.filesOf]
    simp only [ih, bind_assoc]

/-- The warnings of a compilation come before its code, which is then not generated either. -/
theorem generate_of_escape {config : Config} {before after : List Compilation} {c : Compilation} {files : Files}
    {found : List String} {metadata : Metadata} {f : Fault}
    (h : (generator config).generate before = .ok (.generated files found metadata)) (escapes : warnings c = .error f) :
    (generator config).generate (before ++ c :: after) = .error (.fault f) := by
  have warned : (generator config).warnings c = .error (.fault f) := by
    show (liftM (warnings c) : Except Failure _) = _
    rw [escapes]
    rfl
  have stopped : (generator config).filesOf [] [] (before ++ c :: after) = .error (.fault f) := by
    rw [filesOf_append, Generator.filesOf_of_generate h]
    show (generator config).filesOf files found (c :: after) = _
    rw [Generator.filesOf, warned]
    rfl
  unfold Generator.generate
  rw [stopped]

/-- Tokens and defaults are read or refused unless they escape. A default that escapes stops the generation of the
compilations before it and after it as well. -/
theorem contained_iff (config : Config) :
    (∀ token primitive path,
      (∀ f, parseEnumValue token primitive path = .error (.fault f) ↔ TokenEscapes token primitive f) ∧
      ((∃ value, parseEnumValue token primitive path = .ok value) ∨
        parseEnumValue token primitive path =
          .error (.generator (.shape (.unfitEnumValue token primitive) (.str path))) ↔
            ∀ f, ¬ TokenEscapes token primitive f)) ∧
    (∀ t v, (∀ f, defaultInitializer t v = .error f ↔ DefaultEscapes t v f) ∧
      ((∃ e?, defaultInitializer t v = .ok e?) ↔ ∀ f, ¬ DefaultEscapes t v f)) ∧
    ∀ c, ((∃ found, warnings c = .ok found) ↔ ∀ f, ¬ ∃ t ∈ c.topLevel, ClassEscapes t f) ∧
      ∀ before after files found metadata,
        (generator config).generate before = .ok (.generated files found metadata) →
          (∃ f, ∃ t ∈ c.topLevel, ClassEscapes t f) →
            ∃ f, (∃ t ∈ c.topLevel, ClassEscapes t f) ∧
              (generator config).generate (before ++ c :: after) = .error (.fault f) := by
  refine ⟨fun token primitive path => ?_, fun t v => ?_, fun c => ?_⟩
  · refine ⟨fun f => parseEnumValue_eq_fault, ?_⟩
    rcases parseEnumValue_cases token primitive path with ⟨g, escapes, failed⟩ | ⟨contained, outcome⟩
    · exact iff_of_false (by simp [failed]) fun contained => contained g escapes
    · exact iff_of_true outcome contained
  · exact ⟨fun f => defaultInitializer_eq_error, (defaultInitializer_failsWhen t v).ok_iff⟩
  · have run := warnings_failsWhen c
    refine ⟨run.ok_iff, fun before after files found metadata h ⟨f, escapes⟩ => ?_⟩
    obtain ⟨g, failed⟩ := run.fails f escapes
    exact ⟨g, run.only g failed, generate_of_escape h failed⟩

/-- The schema of a class with one property. -/
def sizeSchema (size : Value) : Value :=
  .map [(.str "type", .str "object"), (.str "properties", .map [(.str "size", size)])]

/-- A number beyond the range of its type, after a class without any. -/
theorem contained_iff_disks :
    ∃ plain c files found metadata,
      (generator {}).resolver.compileSchema (.map [(.str "type", .str "object")]) "Plain" (.str "io") = .ok plain ∧
      (generator {}).resolver.compileSchema
        (sizeSchema (.map [(.str "type", .str "number"), (.str "default", .int (10 ^ 400))])) "Disk" (.str "io") =
          .ok c ∧
      (generator {}).generate [plain] = .ok (.generated files found metadata) ∧
      (∃ f, ∃ t ∈ c.topLevel, ClassEscapes t f) ∧
      ∃ f, (generator {}).generate [plain, c] = .error (.fault f) := by
  have huge : (Value.int (10 ^ 400)).Huge := ⟨10 ^ 400, rfl, by decide +kernel⟩
  have escapes : ∃ c, (generator {}).resolver.compileSchema
      (sizeSchema (.map [(.str "type", .str "number"), (.str "default", .int (10 ^ 400))])) "Disk" (.str "io") =
        .ok c ∧ ∃ t ∈ c.topLevel, ClassEscapes t .outOfRange :=
    ⟨_, rfl, _, .head _, _, .head _, _, rfl, .overflow ⟨Or.inr rfl, huge⟩⟩
  obtain ⟨c, hc, escapes⟩ := escapes
  obtain ⟨plain, hp, files, found, metadata, written⟩ : ∃ plain,
      (generator {}).resolver.compileSchema (.map [(.str "type", .str "object")]) "Plain" (.str "io") = .ok plain ∧
        ∃ files found metadata, (generator {}).generate [plain] = .ok (.generated files found metadata) :=
    ⟨_, rfl, _, _, _, rfl⟩
  obtain ⟨f, -, stopped⟩ :=
    ((contained_iff {}).2.2 c).2 [plain] [] files found metadata written ⟨_, escapes⟩
  exact ⟨plain, c, files, found, metadata, hp, hc, written, ⟨_, escapes⟩, f, stopped⟩

theorem long_power {k : Nat} (h : Text.maxDigits ≤ k) : Text.isShort (10 ^ k) = false := by
  refine Bool.eq_false_iff.2 fun short => ?_
  rw [Text.isShort_iff, Int.natAbs_pow, show Int.natAbs 10 = 10 from rfl, Nat.pow_lt_pow_iff_right (by decide)] at short
  exact absurd short (not_lt.2 h)

/-- An integer of 401 digits as a constant, an infinity as a default, and the generation of a class with the latter; an
integer of 5001 digits as a text, and as a default of an enum. -/
theorem conversions_escape :
    parseEnumValue (.int (10 ^ 400)) .double "" = .error (.fault .outOfRange) ∧
    defaultInitializer (.primitive { name := "java.lang.Integer", primitive := .int32 }) (.float (.infinite false)) =
      .error .outOfRange ∧
    (∃ c, (generator {}).resolver.compileSchema
        (sizeSchema (.map [(.str "type", .str "integer"), (.str "format", .str "int32"),
          (.str "default", .float (.infinite false))])) "Disk" (.str "io") = .ok c ∧
      (generator {}).generate [c] = .error (.fault .outOfRange)) ∧
    parseEnumValue (.int (10 ^ 5000)) .string "" = .error (.fault .malformedNumber) ∧
    ∃ type, (generator {}).resolver.resolveEnum (.enum {} .string [.str "low"]) "Level" ["io", "disk"] (some "io.Disk")
        "io.Disk.level" = .ok ⟨.enum type, [.enum type]⟩ ∧
      defaultInitializer (.enum type) (.int (10 ^ 5000)) = .error .malformedNumber := by
  have long : Text.isShort (10 ^ 5000) = false := long_power (by decide)
  refine ⟨parseEnumValue_eq_fault.2 (.overflow ⟨Or.inr rfl, 10 ^ 400, rfl, by decide +kernel⟩), rfl, ⟨_, rfl, rfl⟩,
    parseEnumValue_eq_fault.2 (.unwritten ⟨long, Or.inl rfl⟩), _, rfl, defaultInitializer_eq_error.2 ?_⟩
  exact @DefaultEscapes.unwritten _ _ [] [] _ rfl rfl nofun rfl (Or.inl long)

end Java

end ResourceCompiler
