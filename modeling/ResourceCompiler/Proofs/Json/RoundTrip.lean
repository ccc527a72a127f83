import ResourceCompiler.Proofs.Entries
import ResourceCompiler.Proofs.Json.Number
import ResourceCompiler.Proofs.Json.Text

/-!
# Values read back

What JSON has (`isJson`) reads back as it was written (`read_write`): a value followed by anything that
continues no number (`Reads`), by cases of scalars, and by induction for the elements and entries of
containers, where a layout puts only spaces and separators between them. All of it can be written but
for integers of too many digits (`exists_write`).
-/

namespace ResourceCompiler.Json

open Text

variable {layout : Layout} {level : Nat} {c : Char} {rest : List Char}

/-! ### Scalars -/

/-- A magnitude starts with a digit. -/
theorem head?_of_readMagnitude {negative : Bool} {cs : List Char} {found : Value × List Char}
    (h : readMagnitude negative cs = .ok found) : ∃ c ∈ cs.head?, c.isDigit = true := by
  cases cs with
  | nil => cases h
  | cons c cs =>
    refine ⟨c, rfl, ?_⟩
    by_contra other
    have none : readWhole? (c :: cs) = none := by
      unfold readWhole?
      split
      · next starts =>
        cases starts
        exact absurd rfl other
      · rw [List.takeWhile_cons_of_neg other]
        rfl
    rw [readMagnitude, none] at h
    cases h

/-- A number starts with a digit or with a sign and a digit. -/
theorem head?_of_readNumber {cs : List Char} {found : Value × List Char} (h : readNumber cs = .ok found) :
    ∃ c rest, c.isDigit = true ∧ (cs = c :: rest ∨ cs = '-' :: c :: rest) := by
  unfold readNumber at h
  split at h
  · obtain ⟨c, hc, digit⟩ := head?_of_readMagnitude h
    obtain ⟨rest, rfl⟩ := List.head?_eq_some_iff.1 hc
    exact ⟨c, rest, digit, Or.inr rfl⟩
  · obtain ⟨c, hc, digit⟩ := head?_of_readMagnitude h
    obtain ⟨rest, rfl⟩ := List.head?_eq_some_iff.1 hc
    exact ⟨c, rest, digit, Or.inl rfl⟩

theorem ne_of_isDigit {d : Char} (h : c.isDigit = true) (hd : d.isDigit = false) : c ≠ d := by
  rintro rfl
  rw [h] at hd
  cases hd

theorem readWord?_number {cs : List Char} {found : Value × List Char} (h : readNumber cs = .ok found) :
    readWord? cs = none := by
  obtain ⟨c, rest, digit, starts⟩ := head?_of_readNumber h
  have other (d : Char) (hd : d.isDigit = false) : d ≠ c := (ne_of_isDigit digit hd).symm
  rcases starts with rfl | rfl
  · simp [readWord?, words, other 'n' rfl, other 't' rfl, other 'f' rfl, other 'N' rfl, other 'I' rfl,
      other '-' rfl]
  · simp [readWord?, words, other 'I' rfl]

theorem readValue_number {cs : List Char} {found : Value × List Char} (n : Nat) (h : readNumber cs = .ok found) :
    readValue (n + 1) cs = .ok found := by
  obtain ⟨c, rest, digit, starts⟩ := head?_of_readNumber h
  have other (d : Char) (hd : d.isDigit = false) (minus : d ≠ '-') (rest : List Char)
      (hc : cs = d :: rest) : False := by
    rcases starts with rfl | rfl
    · exact ne_of_isDigit digit hd (List.cons.inj hc).1
    · exact minus (List.cons.inj hc).1.symm
  rw [readValue, readWord?_number h]
  · exact h
  · exact other '"' rfl (by decide)
  · exact other '[' rfl (by decide)
  · exact other '\x7b' rfl (by decide)

/-- A written scalar reads back as itself. -/
theorem readValue_scalar {s : Scalar} {cs : List Char} {n : Nat}
    (h : scalarChars layout s = .ok cs) (hf : cs.length ≤ n) (hr : Stops rest) :
    readValue (n + 1) (cs ++ rest) = .ok (.scalar s, rest) := by
  cases s with
  | null =>
    cases h
    rfl
  | bool b =>
    cases h
    cases b <;> rfl
  | int i =>
    rw [scalarChars] at h
    split at h
    · next short =>
      cases h
      exact readValue_number n (readNumber_intChars (of_decide_eq_true short) hr)
    · cases h
  | float x =>
    cases h
    cases x with
    | nan => rfl
    | infinite negative => cases negative <;> rfl
    | finite negative m p fits => exact readValue_number n (readNumber_chars hr)
  | str s =>
    cases h
    rw [quoteChars, List.cons_append, readValue, List.append_assoc, List.singleton_append, readText?_quoted]
    · dsimp only
      rw [String.ofList_toList]
    · have := length_le_quoted layout.ascii s.toList
      rw [quoteChars, List.length_cons, List.length_append] at hf
      omega
  | date d => cases h

/-! ### Lists and mappings -/

def isText : Scalar → Bool
  | .str _ => true
  | _ => false

def isDate : Scalar → Bool
  | .date _ => true
  | _ => false

/-- Whether a value is one that JSON has: keys of mappings are texts, each once, and nothing is a date. -/
def isJson (v : Value) : Bool :=
  v.every (fun s => !isDate s) fun keys => keys.all isText && decide keys.Nodup

/-- Whether no integer has more digits than may be read. -/
def isShort (v : Value) : Bool :=
  v.every (fun s => match s with
    | .int n => decide ((Nat.toDigits 10 n.natAbs).length ≤ maxDigits)
    | _ => true) fun _ => true

theorem isJson_list {xs : List Value} : isJson (.list xs) = true ↔ ∀ x ∈ xs, isJson x = true :=
  Value.every_list

theorem isJson_map {es : Entries} : isJson (.map es) = true ↔
    ((∀ e ∈ es, ∃ name, e.1 = .str name) ∧ (es.map Prod.fst).Nodup) ∧ ∀ e ∈ es, isJson e.2 = true := by
  have text {s : Scalar} : isText s = true ↔ ∃ name, s = .str name := by
    cases s <;> simp [isText]
  unfold isJson
  simp [Value.every_map, text]

theorem isShort_list {xs : List Value} : isShort (.list xs) = true ↔ ∀ x ∈ xs, isShort x = true :=
  Value.every_list

theorem isShort_map {es : Entries} : isShort (.map es) = true ↔ ∀ e ∈ es, isShort e.2 = true := by
  unfold isShort
  simp [Value.every_map]

/-- What is read starts with no space and closes no list. -/
theorem readValue_starts {fuel : Nat} {cs : List Char} {found : Value × List Char}
    (h : readValue fuel cs = .ok found) : ∃ c tail, cs = c :: tail ∧ isSpace c = false ∧ c ≠ ']' := by
  cases fuel with
  | zero =>
    rw [readValue] at h
    cases h
  | succ n =>
    cases cs with
    | nil => cases h
    | cons c tail =>
      refine ⟨c, tail, rfl, ?_, ?_⟩
      · by_contra space
        rw [Bool.not_eq_false, isSpace] at space
        simp only [Bool.or_eq_true, decide_eq_true_eq] at space
        rcases space with ((rfl | rfl) | rfl) | rfl <;> cases h
      · rintro rfl
        cases h

theorem readElements_starts {fuel : Nat} {cs : List Char} {found : List Value × List Char}
    (h : readElements fuel cs = .ok found) : ∃ c tail, cs = c :: tail ∧ isSpace c = false ∧ c ≠ ']' := by
  cases fuel with
  | zero =>
    rw [readElements] at h
    cases h
  | succ n =>
    rw [readElements, bind_eq_ok] at h
    obtain ⟨_, hv, -⟩ := h
    exact readValue_starts hv

theorem skipSpace_cons (hc : isSpace c = false) : skipSpace (c :: rest) = c :: rest :=
  List.dropWhile_cons_of_neg (by simp [hc])

theorem skipSpace_append {gap cs : List Char} (hg : ∀ c ∈ gap, isSpace c = true)
    (hc : ∀ c ∈ cs.head?, isSpace c = false) : skipSpace (gap ++ cs) = cs := by
  unfold skipSpace
  rw [List.dropWhile_append_of_pos hg]
  cases cs with
  | nil => rfl
  | cons c cs => rw [List.dropWhile_cons_of_neg (by simp [hc c rfl])]

theorem isSpace_line {n : Nat} : ∀ c ∈ '\n' :: List.replicate n ' ', isSpace c = true := by
  intro c hc
  rcases List.mem_cons.1 hc with rfl | hc
  · rfl
  · rw [List.eq_of_mem_replicate hc]
    rfl

theorem isSpace_opening : ∀ c ∈ layout.opening level, isSpace c = true := by
  unfold Layout.opening
  split
  · simp
  · exact isSpace_line

theorem isSpace_closing : ∀ c ∈ layout.closing level, isSpace c = true := by
  unfold Layout.closing
  split
  · simp
  · exact isSpace_line

theorem separator_eq (layout : Layout) (level : Nat) :
    ∃ gap, layout.separator level = ',' :: gap ∧ ∀ c ∈ gap, isSpace c = true := by
  unfold Layout.separator
  split
  · exact ⟨[' '], rfl, by simp [isSpace]⟩
  · exact ⟨_, rfl, isSpace_opening⟩

theorem stops_cons {d : Char} (hd : d.isDigit = false ∧ d ≠ '.' ∧ d ≠ 'e' ∧ d ≠ 'E') : Stops (d :: rest) := by
  intro c hc
  cases hc
  exact hd

theorem stops_closing {d : Char} (hd : d.isDigit = false ∧ d ≠ '.' ∧ d ≠ 'e' ∧ d ≠ 'E') :
    Stops (layout.closing level ++ d :: rest) := by
  unfold Layout.closing
  split
  · exact stops_cons hd
  · exact stops_cons (by decide)

/-- A value reads back at every place it can be written at. -/
def Reads (layout : Layout) (v : Value) : Prop :=
  ∀ {level : Nat} {cs rest : List Char} {n : Nat}, writeChars layout level v = .ok cs → cs.length ≤ n →
    Stops rest → readValue (n + 1) (cs ++ rest) = .ok (v, rest)

theorem readElements_written (rest : List Char) {xs : List Value} (nonempty : xs ≠ [])
    (reads : ∀ x ∈ xs, Reads layout x) {body : List Char} {n : Nat}
    (h : writeElements layout level xs = .ok body) (hf : body.length + 1 ≤ n) :
    readElements (n + 1) (body ++ (layout.closing level ++ ']' :: rest)) = .ok (xs, rest) := by
  induction xs generalizing body n with
  | nil => exact absurd rfl nonempty
  | cons x xs ih =>
    rw [List.forall_mem_cons] at reads
    rw [writeElements] at h
    simp only [bind_eq_ok, pure_eq_ok] at h
    obtain ⟨first, hx, others, hxs, rfl⟩ := h
    obtain ⟨k, rfl⟩ := Nat.exists_eq_add_one_of_ne_zero (Nat.ne_of_gt (Nat.lt_of_lt_of_le (Nat.succ_pos _) hf))
    simp only [List.length_append] at hf
    rw [readElements]
    cases xs with
    | nil =>
      cases hxs
      simp only [List.isEmpty_nil, if_true, List.append_nil]
      have closed : skipSpace (layout.closing level ++ ']' :: rest) = ']' :: rest :=
        skipSpace_append isSpace_closing (by simp [isSpace])
      rw [reads.1 hx (by omega) (stops_closing (by decide))]
      simp [closed, bind, Except.bind, pure, Except.pure]
    | cons y ys =>
      obtain ⟨gap, separator, spaces⟩ := separator_eq layout level
      simp only [List.isEmpty_cons, Bool.false_eq_true, if_false, separator, List.append_assoc, List.cons_append,
        List.length_cons] at hf ⊢
      have more := ih (List.cons_ne_nil _ _) reads.2 hxs (n := k) (by omega)
      obtain ⟨c, tail, starts, proper, -⟩ := readElements_starts more
      have next : skipSpace (gap ++ (others ++ (layout.closing level ++ ']' :: rest))) =
          others ++ (layout.closing level ++ ']' :: rest) := skipSpace_append spaces (by simp [starts, proper])
      rw [reads.1 hx (by omega) (stops_cons (by decide))]
      simp [skipSpace_cons, isSpace, next, more, bind, Except.bind, pure, Except.pure]

theorem readEntries_starts {fuel : Nat} {cs : List Char} {found : Entries × List Char}
    (h : readEntries fuel cs = .ok found) : ∃ tail, cs = '"' :: tail := by
  unfold readEntries at h
  split at h
  · exact ⟨_, rfl⟩
  · cases h

theorem readEntries_written (rest : List Char) {es : Entries} (nonempty : es ≠ [])
    (texts : ∀ e ∈ es, ∃ name, e.1 = .str name) (reads : ∀ e ∈ es, Reads layout e.2) {body : List Char}
    {n : Nat} (h : writeEntries layout level es = .ok body) (hf : body.length + 1 ≤ n) :
    readEntries (n + 1) (body ++ (layout.closing level ++ '\x7d' :: rest)) = .ok (es, rest) := by
  induction es generalizing body n with
  | nil => exact absurd rfl nonempty
  | cons e es ih =>
    obtain ⟨key, v⟩ := e
    rw [List.forall_mem_cons] at reads texts
    obtain ⟨⟨name, rfl⟩, texts⟩ := texts
    rw [writeEntries] at h
    simp only [bind_eq_ok, pure_eq_ok] at h
    obtain ⟨quoted, hname, first, hv, others, hes, rfl⟩ := h
    cases hname
    obtain ⟨k, rfl⟩ := Nat.exists_eq_add_one_of_ne_zero (Nat.ne_of_gt (Nat.lt_of_lt_of_le (Nat.succ_pos _) hf))
    simp only [quoteChars, List.length_append, List.length_cons, List.length_nil] at hf
    have short := length_le_quoted layout.ascii name.toList
    simp only [quoteChars, List.cons_append, List.append_assoc, List.nil_append]
    have value (after : List Char) (hr : Stops after) :
        readValue (k + 1) (skipSpace (' ' :: (first ++ after))) = .ok (v, after) := by
      have read := reads.1 hv (n := k) (by omega) hr
      obtain ⟨c, tail, starts, proper, -⟩ := readValue_starts read
      rw [← List.singleton_append, skipSpace_append (by simp [isSpace]) (by simp [starts, proper]), read]
    rw [readEntries, readText?_quoted (by omega)]
    cases es with
    | nil =>
      cases hes
      have closed : skipSpace (layout.closing level ++ '\x7d' :: rest) = '\x7d' :: rest :=
        skipSpace_append isSpace_closing (by simp [isSpace])
      have stops : Stops (layout.closing level ++ '\x7d' :: rest) := stops_closing (by decide)
      simp [skipSpace_cons, isSpace, value _ stops, closed, bind, Except.bind, pure, Except.pure]
    | cons e es =>
      obtain ⟨gap, separator, spaces⟩ := separator_eq layout level
      simp only [List.isEmpty_cons, Bool.false_eq_true, if_false, separator, List.cons_append,
        List.length_cons] at hf ⊢
      have more := ih (List.cons_ne_nil _ _) texts reads.2 hes (n := k) (by omega)
      obtain ⟨tail, starts⟩ := readEntries_starts more
      have next : skipSpace (gap ++ (others ++ (layout.closing level ++ '\x7d' :: rest))) =
          others ++ (layout.closing level ++ '\x7d' :: rest) :=
        skipSpace_append spaces (by simp [starts, isSpace])
      have stops : Stops (',' :: (gap ++ (others ++ (layout.closing level ++ '\x7d' :: rest)))) :=
        stops_cons (by decide)
      simp [skipSpace_cons, isSpace, value _ stops, next, more, bind, Except.bind, pure, Except.pure]

theorem reads_list {xs : List Value} (reads : ∀ x ∈ xs, Reads layout x) : Reads layout (.list xs) := by
  intro level cs rest n h hf hr
  cases xs with
  | nil =>
    cases h
    rfl
  | cons x xs =>
    rw [writeChars, bind_eq_ok] at h
    obtain ⟨body, hb, h⟩ := h
    cases h
    simp only [List.length_cons, List.length_append] at hf
    obtain ⟨k, rfl⟩ := Nat.exists_eq_add_one_of_ne_zero (n := n) (by omega)
    have read := readElements_written rest (List.cons_ne_nil _ _) reads hb (n := k) (by omega)
    obtain ⟨c, tail, starts, proper, other⟩ := readElements_starts read
    have first : skipSpace (layout.opening level ++ (body ++ (layout.closing level ++ ']' :: rest))) =
        body ++ (layout.closing level ++ ']' :: rest) :=
      skipSpace_append isSpace_opening (by simp [starts, proper])
    simp only [List.cons_append, List.append_assoc, List.nil_append]
    rw [readValue, first]
    split
    · next closes =>
      rw [starts] at closes
      exact absurd (List.cons.inj closes).1 other
    · rw [read]
      rfl

theorem reads_map {es : Entries} (texts : ∀ e ∈ es, ∃ name, e.1 = .str name)
    (distinct : (es.map Prod.fst).Nodup) (reads : ∀ e ∈ es, Reads layout e.2) : Reads layout (.map es) := by
  intro level cs rest n h hf hr
  cases es with
  | nil =>
    cases h
    rfl
  | cons e es =>
    rw [writeChars, bind_eq_ok] at h
    obtain ⟨body, hb, h⟩ := h
    cases h
    simp only [List.length_cons, List.length_append] at hf
    obtain ⟨k, rfl⟩ := Nat.exists_eq_add_one_of_ne_zero (n := n) (by omega)
    have read := readEntries_written rest (List.cons_ne_nil _ _) texts reads hb (n := k) (by omega)
    obtain ⟨tail, starts⟩ := readEntries_starts read
    have first : skipSpace (layout.opening level ++ (body ++ (layout.closing level ++ '\x7d' :: rest))) =
        body ++ (layout.closing level ++ '\x7d' :: rest) :=
      skipSpace_append isSpace_opening (by simp [starts, isSpace])
    simp only [List.cons_append, List.append_assoc, List.nil_append]
    rw [readValue, first]
    split
    · next closes =>
      rw [starts] at closes
      cases closes
    · rw [read]
      simp [Entries.merge_nil texts distinct, bind, Except.bind, pure, Except.pure]

/-- A written value reads back as itself. -/
theorem reads_of_isJson {v : Value} (json : isJson v = true) : Reads layout v := by
  induction v with
  | scalar _ => exact fun h hf hr => readValue_scalar h hf hr
  | list xs ih => exact reads_list fun x hx => ih x hx (isJson_list.1 json x hx)
  | map es ih =>
    obtain ⟨⟨texts, distinct⟩, values⟩ := isJson_map.1 json
    exact reads_map texts distinct fun e he => ih e he (values e he)

theorem write_eq_ok {v : Value} {text : String} :
    write layout v = .ok text ↔ ∃ cs, writeChars layout 0 v = .ok cs ∧ String.ofList cs = text := by
  unfold write
  cases writeChars layout 0 v <;> simp [Except.map]

/-- What is written as JSON text reads back. -/
theorem read_write {v : Value} {text : String} (json : isJson v = true) (h : write layout v = .ok text) :
    read text = .ok v := by
  obtain ⟨cs, hcs, rfl⟩ := write_eq_ok.1 h
  have whole : readValue (cs.length + 1) (cs ++ []) = .ok (v, []) :=
    reads_of_isJson json hcs le_rfl fun c hc => by cases hc
  rw [List.append_nil] at whole
  obtain ⟨c, tail, starts, proper, -⟩ := readValue_starts whole
  have first : skipSpace cs = cs := by rw [starts, skipSpace_cons proper]
  rw [Json.read, String.toList_ofList, readChars, first, whole]
  rfl

/-! ### What can be written -/

theorem exists_writeElements (layout : Layout) (level : Nat) {xs : List Value}
    (h : ∀ x ∈ xs, ∀ level, (∃ cs, writeChars layout level x = .ok cs) ↔ isShort x = true) :
    (∃ body, writeElements layout level xs = .ok body) ↔ ∀ x ∈ xs, isShort x = true := by
  induction xs with
  | nil => exact ⟨fun _ => by simp, fun _ => ⟨_, rfl⟩⟩
  | cons x xs ih =>
    rw [List.forall_mem_cons] at h
    rw [List.forall_mem_cons, ← ih h.2, ← h.1 (level + 1)]
    simp only [writeElements, bind_eq_ok, pure_eq_ok]
    constructor
    · rintro ⟨_, first, hx, others, hxs, rfl⟩
      exact ⟨⟨first, hx⟩, ⟨others, hxs⟩⟩
    · rintro ⟨⟨first, hx⟩, ⟨others, hxs⟩⟩
      exact ⟨_, first, hx, others, hxs, rfl⟩

theorem exists_writeEntries (layout : Layout) (level : Nat) {es : Entries}
    (texts : ∀ e ∈ es, ∃ name, e.1 = .str name)
    (h : ∀ e ∈ es, ∀ level, (∃ cs, writeChars layout level e.2 = .ok cs) ↔ isShort e.2 = true) :
    (∃ body, writeEntries layout level es = .ok body) ↔ ∀ e ∈ es, isShort e.2 = true := by
  induction es with
  | nil => exact ⟨fun _ => by simp, fun _ => ⟨_, rfl⟩⟩
  | cons e es ih =>
    obtain ⟨key, v⟩ := e
    rw [List.forall_mem_cons] at h texts
    obtain ⟨⟨name, rfl⟩, texts⟩ := texts
    rw [List.forall_mem_cons, ← ih texts h.2, ← h.1 (level + 1)]
    simp only [writeEntries, bind_eq_ok, pure_eq_ok]
    constructor
    · rintro ⟨_, quoted, -, first, hv, others, hes, rfl⟩
      exact ⟨⟨first, hv⟩, ⟨others, hes⟩⟩
    · rintro ⟨⟨first, hv⟩, ⟨others, hes⟩⟩
      exact ⟨_, _, rfl, first, hv, others, hes, rfl⟩

/-- All that JSON has can be written, but for integers that are too long. -/
theorem exists_writeChars {v : Value} (json : isJson v = true) (level : Nat) :
    (∃ cs, writeChars layout level v = .ok cs) ↔ isShort v = true := by
  induction v generalizing level with
  | scalar s =>
    cases s with
    | int n =>
      rw [writeChars, scalarChars]
      show _ ↔ Text.isShort n = true
      split <;> simp_all
    | date d => cases json
    | null => exact ⟨fun _ => rfl, fun _ => ⟨_, rfl⟩⟩
    | bool b => exact ⟨fun _ => rfl, fun _ => ⟨_, rfl⟩⟩
    | float x => exact ⟨fun _ => rfl, fun _ => ⟨_, rfl⟩⟩
    | str s => exact ⟨fun _ => rfl, fun _ => ⟨_, rfl⟩⟩
  | list xs ih =>
    have elements := exists_writeElements layout level fun x hx =>
      ih x hx (isJson_list.1 json x hx)
    rw [isShort_list, ← elements]
    cases xs with
    | nil => exact ⟨fun _ => ⟨_, rfl⟩, fun _ => ⟨_, rfl⟩⟩
    | cons x xs =>
      simp only [writeChars, bind_eq_ok, pure_eq_ok]
      exact ⟨fun ⟨_, body, h, _⟩ => ⟨body, h⟩, fun ⟨body, h⟩ => ⟨_, body, h, rfl⟩⟩
  | map es ih =>
    obtain ⟨⟨texts, -⟩, values⟩ := isJson_map.1 json
    have entries := exists_writeEntries layout level texts fun e he =>
      ih e he (values e he)
    rw [isShort_map, ← entries]
    cases es with
    | nil => exact ⟨fun _ => ⟨_, rfl⟩, fun _ => ⟨_, rfl⟩⟩
    | cons e es =>
      simp only [writeChars, bind_eq_ok, pure_eq_ok]
      exact ⟨fun ⟨_, body, h, _⟩ => ⟨body, h⟩, fun ⟨body, h⟩ => ⟨_, body, h, rfl⟩⟩

theorem exists_write (layout : Layout) {v : Value} (json : isJson v = true) :
    (∃ text, write layout v = .ok text) ↔ isShort v = true := by
  rw [← exists_writeChars json 0]
  simp only [write_eq_ok]
  exact ⟨fun ⟨_, cs, h, _⟩ => ⟨cs, h⟩, fun ⟨cs, h⟩ => ⟨_, cs, h, rfl⟩⟩

end ResourceCompiler.Json
