import StateActions.Json.Reader

namespace StateActions.Json

section Strings

variable {a b c d e f g h letter : Char} {n : Nat}

theorem stringRest_simple (simple : simpleEscape? letter = some e) (done rest : List Char) :
    stringRest (some done) ('\\' :: letter :: rest) = stringRest (some (e :: done)) rest := by
  have other : letter ≠ 'u' := by
    rintro rfl
    cases simple
  rw [stringRest]
  · rw [simple]
    rfl
  · simp [other]
  · simp [other]

theorem stringRest_no_unit (wrong : unit? a b c d = none) (done rest : List Char) :
    stringRest (some done) ('\\' :: 'u' :: a :: b :: c :: d :: rest) = none := by
  by_cases more : ∃ e f g h left, rest = '\\' :: 'u' :: e :: f :: g :: h :: left
  · obtain ⟨e, f, g, h, left, rfl⟩ := more
    rw [stringRest, wrong]
  · rw [stringRest, wrong]
    intro e f g h left same
    exact more ⟨e, f, g, h, left, same⟩

-- Another unit after this one is looked at already, but only to see whether the two are a pair.
theorem stringRest_unit (unit : unit? a b c d = some n) (low : n < 0xD800)
    (done rest : List Char) :
    stringRest (some done) ('\\' :: 'u' :: a :: b :: c :: d :: rest) =
      stringRest (some (Char.ofNat n :: done)) rest := by
  have single : isHighSurrogate n = false ∧ isLowSurrogate n = false := by
    simp [isHighSurrogate, isLowSurrogate]
    omega
  by_cases more : ∃ e f g h left, rest = '\\' :: 'u' :: e :: f :: g :: h :: left
  · obtain ⟨e, f, g, h, left, rfl⟩ := more
    rw [stringRest, unit]
    cases next : unit? e f g h with
    | some second => simp [single.1, single.2]
    | none => exact (stringRest_no_unit next _ _).symm
  · rw [stringRest, unit]
    · simp [single.1, single.2]
    · intro e f g h left same
      exact more ⟨e, f, g, h, left, same⟩

theorem stringRest_plain (quote : c ≠ '\x22') (slash : c ≠ '\\') (visible : ¬c.toNat < 0x20)
    (done rest : List Char) :
    stringRest (some done) (c :: rest) = stringRest (some (c :: done)) rest := by
  rw [stringRest]
  · simp [slash, visible]
  all_goals simp [quote, slash]

theorem hexPadded_unit (control : n < 0x20) : ∃ a b c d,
    (Text.hexPadded 4 n).toList = [a, b, c, d] ∧ unit? a b c d = some n := by
  have every : ∀ n : Fin 0x20,
      (Text.hexPadded 4 n).toList = ['0', '0', Nat.digitChar (n / 16), Nat.digitChar (n % 16)] ∧
        unit? '0' '0' (Nat.digitChar (n / 16)) (Nat.digitChar (n % 16)) = some n.val := by
    decide +kernel
  exact ⟨_, _, _, _, every ⟨n, control⟩⟩

-- What may stand between the quotes of a string for each of its characters.
inductive Escapes : List Char → List Char → Prop
  | nil : Escapes [] []
  | plain {c : Char} {text written : List Char} (quote : c ≠ '\x22') (slash : c ≠ '\\')
      (visible : ¬c.toNat < 0x20) (more : Escapes text written) : Escapes (c :: text) (c :: written)
  | simple {c letter : Char} {text written : List Char} (named : simpleEscape? letter = some c)
      (more : Escapes text written) : Escapes (c :: text) ('\\' :: letter :: written)
  | unit {a b c d : Char} {n : Nat} {text written : List Char} (unit : unit? a b c d = some n)
      (low : n < 0xD800) (more : Escapes text written) :
      Escapes (Char.ofNat n :: text) ('\\' :: 'u' :: a :: b :: c :: d :: written)

theorem stringRest_escapes {text written : List Char} (escapes : Escapes text written)
    (done rest : List Char) :
    stringRest (some done) (written ++ '\x22' :: rest) =
      some (some (done.reverse ++ text), rest) := by
  induction escapes generalizing done with
  | nil =>
    rw [List.nil_append, stringRest, List.append_nil]
    rfl
  | plain quote slash visible more ih =>
    rw [List.cons_append, stringRest_plain quote slash visible, ih, List.reverse_cons,
      List.append_assoc]
    rfl
  | simple named more ih =>
    rw [List.cons_append, List.cons_append, stringRest_simple named, ih, List.reverse_cons,
      List.append_assoc]
    rfl
  | unit unit low more ih =>
    simp only [List.cons_append]
    rw [stringRest_unit unit low, ih, List.reverse_cons, List.append_assoc]
    rfl

theorem escapes_escape {text written : List Char} (c : Char) (more : Escapes text written) :
    Escapes (c :: text) ((escape c).toList ++ written) := by
  unfold escape
  split
  · next same => subst same; exact .simple rfl more
  split
  · next same => subst same; exact .simple rfl more
  split
  · next same => subst same; exact .simple rfl more
  split
  · next same => subst same; exact .simple rfl more
  split
  · next same => subst same; exact .simple rfl more
  split
  · next same => subst same; exact .simple rfl more
  split
  · next same => subst same; exact .simple rfl more
  split
  · next control =>
    obtain ⟨a, b, d, e, digits, unit⟩ := hexPadded_unit control
    have escaped := Escapes.unit unit (by omega) more
    rw [String.toList_append, digits]
    rwa [Char.ofNat_toNat] at escaped
  · next quote slash _ _ _ _ _ visible =>
    rw [String.toList_push]
    exact .plain quote slash visible more

theorem escapes_flatMap (text : List Char) :
    Escapes text (text.flatMap fun c => (escape c).toList) := by
  induction text with
  | nil => exact .nil
  | cons c more ih => exact escapes_escape c ih

theorem toList_quoted (text : String) : (quoted text).toList =
    '\x22' :: (text.toList.flatMap (fun c => (escape c).toList) ++ ['\x22']) := by
  have folded : ∀ (chars : List Char) (out : String),
      (chars.foldl (fun out c => out ++ escape c) out).toList =
        out.toList ++ chars.flatMap fun c => (escape c).toList := by
    intro chars
    induction chars with
    | nil => simp
    | cons c more ih =>
      intro out
      rw [List.foldl_cons, ih, String.toList_append, List.flatMap_cons, List.append_assoc]
  rw [quoted, String.toList_append, String.foldl_eq_foldl_toList, folded]
  rfl

def Quotes (text written : String) : Prop :=
  ∃ inner, Escapes text.toList inner ∧ written.toList = '\x22' :: (inner ++ ['\x22'])

theorem quotes_quoted (text : String) : Quotes text (quoted text) :=
  ⟨_, escapes_flatMap text.toList, toList_quoted text⟩

end Strings

section Values

mutual

-- The texts of a value that hold no blanks between its parts. Numbers are left out.
inductive Spells : Json → String → Prop
  | null : Spells .null "null"
  | bool (value : Bool) : Spells (.bool value) (toString value)
  | string {text written : String} (quotes : Quotes text written) : Spells (.string text) written
  | array {items : List Json} {parts : List String} (each : SpellsItems items parts) :
      Spells (.array items) ("[" ++ ",".intercalate parts ++ "]")
  | object {fields : List (String × Json)} {parts : List String}
      (each : SpellsFields fields parts) :
      Spells (.object fields) ("\x7b" ++ ",".intercalate parts ++ "\x7d")

inductive SpellsItems : List Json → List String → Prop
  | nil : SpellsItems [] []
  | cons {item : Json} {part : String} {items : List Json} {parts : List String}
      (first : Spells item part) (more : SpellsItems items parts) :
      SpellsItems (item :: items) (part :: parts)

inductive SpellsFields : List (String × Json) → List String → Prop
  | nil : SpellsFields [] []
  | cons {key name part : String} {item : Json} {fields : List (String × Json)}
      {parts : List String} (quotes : Quotes key name) (first : Spells item part)
      (more : SpellsFields fields parts) :
      SpellsFields ((key, item) :: fields) ((name ++ ":" ++ part) :: parts)

end

-- The first character of a value tells it from the end of a list, and is no blank.
theorem Spells.begins {j : Json} {text : String} (spells : j.Spells text) :
    ∃ c more, text.toList = c :: more ∧ isSpace c = false ∧ c ≠ ']' := by
  cases spells with
  | null => exact ⟨_, _, rfl, rfl, by decide⟩
  | bool value =>
    cases value with
    | true => exact ⟨_, _, rfl, rfl, by decide⟩
    | false => exact ⟨_, _, rfl, rfl, by decide⟩
  | string quotes =>
    obtain ⟨_, _, written⟩ := quotes
    exact ⟨_, _, written, rfl, by decide⟩
  | array each => exact ⟨'[', _, by simp; rfl, rfl, by decide⟩
  | object each => exact ⟨'\x7b', _, by simp; rfl, rfl, by decide⟩

theorem skipSpace_cons {c : Char} (space : isSpace c = false) (rest : List Char) :
    skipSpace (c :: rest) = c :: rest :=
  List.dropWhile_cons_of_neg (by simp [space])

def inner (parts : List String) : List Char := (",".intercalate parts).toList

theorem inner_singleton (part : String) : inner [part] = part.toList := by
  rw [inner, String.intercalate_singleton]

theorem inner_cons (part next : String) (parts : List String) :
    inner (part :: next :: parts) = part.toList ++ ',' :: inner (next :: parts) := by
  rw [inner, String.intercalate_cons_cons, String.toList_append, String.toList_append,
    List.append_assoc]
  rfl

theorem inner_begins {part : String} {c : Char} {more : List Char}
    (begins : part.toList = c :: more) (parts : List String) :
    ∃ more, inner (part :: parts) = c :: more := by
  cases parts with
  | nil => exact ⟨more, by rw [inner_singleton, begins]⟩
  | cons next parts => exact ⟨_, by rw [inner_cons, begins]; rfl⟩

theorem toList_array (parts : List String) (rest : List Char) :
    ("[" ++ ",".intercalate parts ++ "]").toList ++ rest = '[' :: (inner parts ++ ']' :: rest) := by
  simp [inner]

theorem toList_object (parts : List String) (rest : List Char) :
    ("\x7b" ++ ",".intercalate parts ++ "\x7d").toList ++ rest =
      '\x7b' :: (inner parts ++ '\x7d' :: rest) := by
  simp [inner]

section Fields

variable {key name : String}

theorem field_begins (part : String) (quotes : Quotes key name) :
    ∃ more, (name ++ ":" ++ part).toList = '\x22' :: more := by
  obtain ⟨_, _, written⟩ := quotes
  exact ⟨_, by rw [String.toList_append, String.toList_append, written]; rfl⟩

theorem length_part_lt (name part : String) :
    part.toList.length < (name ++ ":" ++ part).toList.length := by
  simp only [String.toList_append, List.length_append]
  have colon : ":".toList.length = 1 := rfl
  omega

theorem fields?_field {part : String} {item : Json} {steps : Nat} {rest : List Char}
    (quotes : Quotes key name)
    (read : value? steps (part.toList ++ rest) = some (item, rest)) :
    fields? (steps + 1) ((name ++ ":" ++ part).toList ++ rest) =
      match skipSpace rest with
      | '\x7d' :: rest => some (some [(key, item)], rest)
      | ',' :: rest =>
        (fields? steps rest).map fun (fields, rest) => (fields.map ((key, item) :: ·), rest)
      | _ => none := by
  obtain ⟨inner, escapes, written⟩ := quotes
  have parted : (name ++ ":" ++ part).toList ++ rest =
      '\x22' :: (inner ++ '\x22' :: ':' :: (part.toList ++ rest)) := by
    simp [written]
  rw [parted, fields?, skipSpace_cons rfl]
  simp only [stringRest_escapes escapes, skipSpace_cons (c := ':') rfl, read, List.reverse_nil,
    List.nil_append, Option.map_some, String.ofList_toList]
  rfl

end Fields

-- The induction follows the spelling. Two steps for each character are more than its brackets,
-- items and fields take.
mutual

theorem value?_spells : ∀ {j : Json} {text : String}, j.Spells text → ∀ (steps : Nat)
    (rest : List Char), 2 * text.toList.length < steps →
    value? steps (text.toList ++ rest) = some (j, rest)
  | _, _, .null, steps, rest, enough | _, _, .bool true, steps, rest, enough
  | _, _, .bool false, steps, rest, enough => by
    obtain ⟨steps, rfl⟩ : ∃ n, steps = n + 1 := ⟨steps - 1, by omega⟩
    rfl
  | _, _, .string quotes, steps, rest, enough => by
    obtain ⟨steps, rfl⟩ : ∃ n, steps = n + 1 := ⟨steps - 1, by omega⟩
    obtain ⟨inner, escapes, written⟩ := quotes
    rw [written, List.cons_append, List.append_assoc, value?, skipSpace_cons rfl]
    simp [stringRest_escapes escapes]
  | _, _, .array .nil, steps, rest, enough | _, _, .object .nil, steps, rest, enough => by
    obtain ⟨steps, rfl⟩ : ∃ n, steps = n + 1 := ⟨steps - 1, by omega⟩
    rfl
  | _, _, .array (@SpellsItems.cons _ part _ parts one more), steps, rest, enough => by
    obtain ⟨steps, rfl⟩ : ∃ n, steps = n + 1 := ⟨steps - 1, by omega⟩
    have length := congrArg List.length (toList_array (part :: parts) [])
    obtain ⟨c, _, begins, space, other⟩ := one.begins
    obtain ⟨left, first⟩ := inner_begins begins parts
    have read := items?_spells (.cons one more) (by simp) steps rest (by
      rw [List.append_nil, List.length_cons, List.length_append] at length
      omega)
    rw [toList_array, value?, skipSpace_cons rfl]
    simp only
    rw [first, List.cons_append, skipSpace_cons space] at *
    simp [other, read]
  | _, _, .object (@SpellsFields.cons _ name part _ _ parts quotes one more), steps, rest,
      enough => by
    obtain ⟨steps, rfl⟩ : ∃ n, steps = n + 1 := ⟨steps - 1, by omega⟩
    have length := congrArg List.length (toList_object ((name ++ ":" ++ part) :: parts) [])
    obtain ⟨_, begins⟩ := field_begins part quotes
    obtain ⟨left, first⟩ := inner_begins begins parts
    have read := fields?_spells (.cons quotes one more) (by simp) steps rest (by
      rw [List.append_nil, List.length_cons, List.length_append] at length
      omega)
    rw [toList_object, value?, skipSpace_cons rfl]
    simp only
    rw [first, List.cons_append, skipSpace_cons rfl] at *
    simp [read]

theorem items?_spells : ∀ {items : List Json} {parts : List String}, SpellsItems items parts →
    parts ≠ [] → ∀ (steps : Nat) (rest : List Char), 2 * (inner parts).length + 1 < steps →
    items? steps (inner parts ++ ']' :: rest) = some (items, rest)
  | _, _, .nil, filled, _, _, _ => absurd rfl filled
  | _, _, .cons one .nil, _, steps, rest, enough => by
    obtain ⟨steps, rfl⟩ : ∃ n, steps = n + 1 := ⟨steps - 1, by omega⟩
    rw [inner_singleton] at *
    rw [items?, value?_spells one steps _ (by omega)]
    rfl
  | _, _, .cons one (.cons next more), _, steps, rest, enough => by
    obtain ⟨steps, rfl⟩ : ∃ n, steps = n + 1 := ⟨steps - 1, by omega⟩
    rw [inner_cons] at *
    rw [List.length_append, List.length_cons] at enough
    rw [List.append_assoc, items?, value?_spells one steps _ (by omega)]
    rw [List.cons_append]
    simp only
    rw [skipSpace_cons rfl]
    simp only
    rw [items?_spells (.cons next more) (by simp) steps rest (by omega)]
    rfl

theorem fields?_spells : ∀ {fields : List (String × Json)} {parts : List String},
    SpellsFields fields parts → parts ≠ [] → ∀ (steps : Nat) (rest : List Char),
    2 * (inner parts).length + 1 < steps →
    fields? steps (inner parts ++ '\x7d' :: rest) = some (some fields, rest)
  | _, _, .nil, filled, _, _, _ => absurd rfl filled
  | _, _, @SpellsFields.cons _ name part _ _ _ quotes one .nil, _, steps, rest, enough => by
    obtain ⟨steps, rfl⟩ : ∃ n, steps = n + 1 := ⟨steps - 1, by omega⟩
    have shorter := length_part_lt name part
    rw [inner_singleton] at *
    rw [fields?_field quotes (value?_spells one steps _ (by omega))]
    rfl
  | _, _, @SpellsFields.cons _ name part _ _ _ quotes one (.cons quotesNext next more), _, steps,
      rest, enough => by
    obtain ⟨steps, rfl⟩ : ∃ n, steps = n + 1 := ⟨steps - 1, by omega⟩
    have shorter := length_part_lt name part
    rw [inner_cons] at *
    rw [List.length_append, List.length_cons] at enough
    rw [List.append_assoc, fields?_field quotes (value?_spells one steps _ (by omega)),
      List.cons_append, skipSpace_cons rfl]
    simp only
    rw [fields?_spells (.cons quotesNext next more) (by simp) steps rest (by omega)]
    rfl

end

theorem Spells.ofText? {j : Json} {text : String} (spells : j.Spells text) :
    ofText? text = some j := by
  have read := value?_spells spells (2 * text.toList.length + 2) [] (by omega)
  rw [List.append_nil] at read
  simp [Json.ofText?, read, skipSpace]

mutual

def Worded : Json → Prop
  | .number _ | .skipped => False
  | .array items => WordedItems items
  | .object fields => WordedFields fields
  | _ => True

def WordedItems : List Json → Prop
  | [] => True
  | item :: rest => item.Worded ∧ WordedItems rest

def WordedFields : List (String × Json) → Prop
  | [] => True
  | (_, item) :: rest => item.Worded ∧ WordedFields rest

end

mutual

theorem Spells.worded : ∀ {j : Json} {text : String}, j.Spells text → j.Worded
  | _, _, .null | _, _, .bool _ | _, _, .string _ => trivial
  | _, _, .array each => each.worded
  | _, _, .object each => each.worded

theorem SpellsItems.worded : ∀ {items : List Json} {parts : List String},
    SpellsItems items parts → WordedItems items
  | _, _, .nil => trivial
  | _, _, .cons first more => ⟨first.worded, more.worded⟩

theorem SpellsFields.worded : ∀ {fields : List (String × Json)} {parts : List String},
    SpellsFields fields parts → WordedFields fields
  | _, _, .nil => trivial
  | _, _, .cons _ first more => ⟨first.worded, more.worded⟩

end

end Values

section Nesting

mutual

def nesting : Json → Nat
  | .array items => 1 + nestingItems items
  | .object fields => 1 + nestingFields fields
  | _ => 0

def nestingItems : List Json → Nat
  | [] => 0
  | item :: rest => max item.nesting (nestingItems rest)

def nestingFields : List (String × Json) → Nat
  | [] => 0
  | (_, item) :: rest => max item.nesting (nestingFields rest)

end

mutual

theorem readable_of_nesting : ∀ {j : Json} {levels : Nat}, j.Worded → j.nesting ≤ levels →
    j.readable levels = true
  | .array items, levels, worded, nested => by
    have below : 1 + nestingItems items ≤ levels := nested
    have inside : readableItems (levels - 1) items = true :=
      readableItems_of_nesting worded (by omega)
    simp only [readable, inside, Bool.and_true, decide_eq_true_eq]
    omega
  | .object fields, levels, worded, nested => by
    have below : 1 + nestingFields fields ≤ levels := nested
    have inside : readableFields (levels - 1) fields = true :=
      readableFields_of_nesting worded (by omega)
    simp only [readable, inside, Bool.and_true, decide_eq_true_eq]
    omega
  | .null, _, _, _ | .bool _, _, _, _ | .string _, _, _, _ => rfl

theorem readableItems_of_nesting : ∀ {items : List Json} {levels : Nat}, WordedItems items →
    nestingItems items ≤ levels → readableItems levels items = true
  | [], _, _, _ => rfl
  | item :: rest, levels, worded, nested => by
    have below : max item.nesting (nestingItems rest) ≤ levels := nested
    rw [readableItems, readable_of_nesting worded.1 (by omega),
      readableItems_of_nesting worded.2 (by omega)]
    rfl

theorem readableFields_of_nesting : ∀ {fields : List (String × Json)} {levels : Nat},
    WordedFields fields → nestingFields fields ≤ levels → readableFields levels fields = true
  | [], _, _, _ => rfl
  | (_, item) :: rest, levels, worded, nested => by
    have below : max item.nesting (nestingFields rest) ≤ levels := nested
    rw [readableFields, readable_of_nesting worded.1 (by omega),
      readableFields_of_nesting worded.2 (by omega)]
    rfl

end

end Nesting

end StateActions.Json
