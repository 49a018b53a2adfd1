import StateActions.Action.Json
import StateActions.Proofs.Json.Library
import StateActions.Proofs.Token.Spelling

namespace StateActions

theorem Numeral.ofDecimal?_toString (n : Nat) : ofDecimal? (toString n) = some n := by
  have digits : ∀ c ∈ Nat.toDigits 10 n, c.isDigit = true :=
    fun c => Nat.isDigit_of_mem_toDigits (by omega) (by omega)
  have value := value_toDigits n
  rw [ofDecimal?, toList_toString]
  cases all : Nat.toDigits 10 n with
  | nil => exact absurd all Nat.toDigits_ne_nil
  | cons first rest =>
    rw [all] at digits value
    rw [List.forall_mem_cons] at digits
    have sign : first ≠ '+' := by
      rintro rfl
      exact absurd digits.1 (by decide)
    have every : (first.isDigit && rest.all fun c => c.isDigit || c == '_') = true := by
      rw [digits.1, Bool.true_and, List.all_eq_true]
      intro c member
      rw [digits.2 c member, Bool.true_or]
    have kept : rest.filter (· ≠ '_') = rest := by
      rw [List.filter_eq_self]
      intro c member
      refine decide_eq_true ?_
      rintro rfl
      exact absurd (digits.2 _ member) (by decide)
    split
    · next same => simp [sign] at same
    · next same =>
      obtain ⟨rfl, rfl⟩ : first = _ ∧ rest = _ := by simpa [sign] using same
      rw [if_pos every, kept, value]

open Json

section Documents

theorem Json.wordedItems_strings (texts : List String) : WordedItems (texts.map .string) := by
  induction texts with
  | nil => trivial
  | cons _ _ ih => exact ⟨trivial, ih⟩

theorem Variable.toJson_worded (v : Variable) : v.toJson.Worded :=
  ⟨trivial, wordedItems_strings v.path, trivial⟩

theorem Arithmetic.toJson_worded (tree : Arithmetic) : tree.toJson.Worded := by
  induction tree with
  | number value => exact ⟨trivial, trivial, trivial⟩
  | «variable» v => exact ⟨trivial, v.toJson_worded, trivial⟩
  | negate operand ih => exact ⟨trivial, ih, trivial⟩
  | binary operator left right ihl ihr => exact ⟨trivial, trivial, ihl, ihr, trivial⟩

mutual

theorem Expression.toJson_worded : ∀ e : Expression, e.toJson.Worded
  | .variable v => ⟨trivial, v.toJson_worded, trivial⟩
  | .number _ | .string _ | .boolean _ => ⟨trivial, trivial, trivial⟩
  | .call _ arguments => ⟨trivial, ⟨trivial, documents_worded arguments, trivial⟩, trivial⟩
  | .readAttribute _ _ => ⟨trivial, ⟨trivial, trivial, trivial⟩, trivial⟩
  | .arithmetic tree => ⟨trivial, tree.toJson_worded, trivial⟩

theorem Expression.documents_worded : ∀ es : List Expression, WordedItems (documents library es)
  | [] => trivial
  | e :: es => ⟨toJson_worded e, documents_worded es⟩

end

theorem Action.toJson_worded : ∀ a : Action, a.toJson.Worded
  | .assignment _ value => ⟨trivial, trivial, value.toJson_worded, trivial⟩
  | .writeAttribute _ _ item => ⟨trivial, trivial, trivial, item.toJson_worded, trivial⟩

end Documents

section Readers

variable {l : Library} {holds : l.Source → Json → Prop}

section Lists

variable {R : l.Source → Json → Prop} {xs : List l.Source} {a b c : Json}

theorem Json.forall₂_one (each : List.Forall₂ R xs [a]) : ∃ x, xs = [x] ∧ R x a := by
  obtain _ | ⟨first, _ | _⟩ := each
  exact ⟨_, rfl, first⟩

theorem Json.forall₂_two (each : List.Forall₂ R xs [a, b]) :
    ∃ x y, xs = [x, y] ∧ R x a ∧ R y b := by
  obtain _ | ⟨first, more⟩ := each
  obtain ⟨y, rfl, second⟩ := forall₂_one more
  exact ⟨_, y, rfl, first, second⟩

theorem Json.forall₂_three (each : List.Forall₂ R xs [a, b, c]) :
    ∃ x y z, xs = [x, y, z] ∧ R x a ∧ R y b ∧ R z c := by
  obtain _ | ⟨first, more⟩ := each
  obtain ⟨y, z, rfl, second, third⟩ := forall₂_two more
  exact ⟨_, y, z, rfl, first, second, third⟩

end Lists

variable (documented : l.Documented holds)
include documented

theorem Variable.document_eq (v : Variable) : v.document l = v.toJson := documented.record_eq _

theorem Arithmetic.document_eq (tree : Arithmetic) : tree.document l = tree.toJson := by
  induction tree with
  | number value => exact documented.internal_eq _ _ _
  | «variable» v =>
    rw [document, documented.internal_eq, v.document_eq documented]
    rfl
  | negate operand ih =>
    rw [document, documented.internal_eq, ih]
    rfl
  | binary operator left right ihl ihr =>
    rw [document, documented.internal_eq, documented.unit_eq, ihl, ihr]
    rfl

omit documented in
mutual

theorem Expression.document_eq (documented : l.Documented holds) :
    ∀ e : Expression, e.document l = e.toJson
  | .variable v => by
    rw [document, documented.adjacent_eq, v.document_eq documented]
    rfl
  | .number _ | .string _ | .boolean _ => documented.adjacent_eq _ _ _ _
  | .call name arguments => by
    rw [document, documented.adjacent_eq, documented.record_eq, documents_eq documented arguments]
    rfl
  | .readAttribute _ _ => by
    rw [document, documented.adjacent_eq, documented.record_eq]
    rfl
  | .arithmetic tree => by
    rw [document, documented.adjacent_eq, tree.document_eq documented]
    rfl

theorem Expression.documents_eq (documented : l.Documented holds) :
    ∀ es : List Expression, documents l es = documents library es
  | [] => rfl
  | e :: es => by
    rw [documents, document_eq documented e, documents_eq documented es]
    rfl

end

theorem Action.document_eq : ∀ a : Action, a.document l = a.toJson
  | .assignment _ value => by
    rw [document, documented.internal_eq, value.document_eq documented]
    rfl
  | .writeAttribute _ _ item => by
    rw [document, documented.internal_eq, item.document_eq documented]
    rfl

theorem Json.Library.number?_holds {x : l.Source} {n : Nat} (held : holds x (.ofNumber n)) :
    l.number? x = some n := by
  rw [number?, documented.string? held, Option.bind_some, Numeral.ofDecimal?_toString]

theorem Json.Library.mapM_string?_holds {xs : List l.Source} {texts : List String}
    (each : List.Forall₂ holds xs (texts.map .string)) : xs.mapM l.string? = some texts := by
  induction texts generalizing xs with
  | nil =>
    cases each
    rfl
  | cons text more ih =>
    obtain _ | ⟨first, each⟩ := each
    rw [List.mapM_cons, documented.string? first, ih each]
    rfl

theorem Variable.ofSource?_holds {x : l.Source} {v : Variable} (held : holds x v.toJson) :
    ofSource? l x = some v := by
  obtain ⟨xs, record, each⟩ := documented.record? (by simp) held
  obtain ⟨name, path, rfl, named, listed⟩ := forall₂_two each
  obtain ⟨ys, sequence, each⟩ := documented.sequence? listed
  have record : l.record? ["name", "path"] x = some [name, path] := record
  rw [ofSource?, record]
  simp only [Option.bind_eq_bind, Option.bind_some, documented.string? named, sequence,
    Library.mapM_string?_holds documented each]
  rfl

-- A node takes one level, and its operands are read with what is left.
theorem Arithmetic.ofSource?_within {x : l.Source} {levels : Nat} {tree : Arithmetic}
    (within : Within holds levels x tree.toJson) : ofSource? l levels x = some tree := by
  have single : (variants.map Prod.fst).Nodup := by decide
  induction tree generalizing x levels with
  | number value =>
    obtain ⟨n, xs, rfl, node, each⟩ :=
      documented.internal?_within single (by simp [variants]) (by simp) within
    obtain ⟨y, rfl, inner⟩ := forall₂_one each
    rw [ofSource?, node]
    change ((l.number? y).bind fun n => some (number n)) = _
    rw [Library.number?_holds documented inner.1, Option.bind_some]
  | «variable» v =>
    obtain ⟨n, xs, rfl, node, each⟩ :=
      documented.internal?_within single (by simp [variants]) (by simp) within
    obtain ⟨y, rfl, inner⟩ := forall₂_one each
    rw [ofSource?, node]
    change ((Variable.ofSource? l y).bind fun v => some (Arithmetic.variable v)) = _
    rw [Variable.ofSource?_holds documented inner.1, Option.bind_some]
  | negate operand ih =>
    obtain ⟨n, xs, rfl, node, each⟩ :=
      documented.internal?_within single (by simp [variants]) (by simp) within
    obtain ⟨y, rfl, inner⟩ := forall₂_one each
    rw [ofSource?, node]
    change ((ofSource? l n y).bind fun t => some (negate t)) = _
    rw [ih inner, Option.bind_some]
  | binary operator left right ihl ihr =>
    obtain ⟨n, xs, rfl, node, each⟩ :=
      documented.internal?_within single (by simp [variants]) (by simp) within
    obtain ⟨y, u, w, rfl, named, first, second⟩ := forall₂_three each
    have known : operator.name ∈ Operator.all.map (·.name) := by cases operator <;> decide
    rw [ofSource?, node]
    change ((l.unit? (Operator.all.map (·.name)) y).bind fun name =>
      (Operator.ofName? name).bind fun operator =>
        (ofSource? l n u).bind fun left =>
          (ofSource? l n w).bind fun right => some (binary operator left right)) = _
    rw [documented.unit? known named.1, ihl first, ihr second]
    simp only [Option.bind_some, Operator.ofName?_name]

-- The induction is on the expression, and over the arguments of a call.
omit documented in
mutual

theorem Expression.ofSource?_within (documented : l.Documented holds) : ∀ {e : Expression}
    {x : l.Source} {levels : Nat}, Within holds levels x e.toJson → ofSource? l levels x = some e
  | .variable v, x, levels, within => by
    obtain ⟨n, y, rfl, tagged, inner⟩ :=
      documented.adjacent?_within variants (by simp [variants]) (by decide) within
    rw [ofSource?, tagged]
    change ((Variable.ofSource? l y).bind fun v => some (Expression.variable v)) = _
    rw [Variable.ofSource?_holds documented inner.1, Option.bind_some]
  | .number value, x, levels, within => by
    obtain ⟨n, y, rfl, tagged, inner⟩ :=
      documented.adjacent?_within variants (by simp [variants]) (by decide) within
    rw [ofSource?, tagged]
    change ((l.number? y).bind fun n => some (Expression.number n)) = _
    rw [Library.number?_holds documented inner.1, Option.bind_some]
  | .string text, x, levels, within => by
    obtain ⟨n, y, rfl, tagged, inner⟩ :=
      documented.adjacent?_within variants (by simp [variants]) (by decide) within
    rw [ofSource?, tagged]
    change ((l.string? y).bind fun text => some (Expression.string text)) = _
    rw [documented.string? inner.1, Option.bind_some]
  | .boolean value, x, levels, within => by
    obtain ⟨n, y, rfl, tagged, inner⟩ :=
      documented.adjacent?_within variants (by simp [variants]) (by decide) within
    rw [ofSource?, tagged]
    change ((l.bool? y).bind fun value => some (Expression.boolean value)) = _
    rw [documented.bool? inner.1, Option.bind_some]
  | .call name arguments, x, levels, within => by
    obtain ⟨n, y, rfl, tagged, inner⟩ :=
      documented.adjacent?_within variants (by simp [variants]) (by decide) within
    obtain ⟨xs, fields, each⟩ := documented.fields?_within (by simp) inner
    obtain ⟨u, w, rfl, named, listed⟩ := forall₂_two each
    obtain ⟨ys, sequence, each⟩ := documented.sequence?_within listed
    have fields : l.fields? ["name", "args"] y = some [u, w] := fields
    rw [ofSource?, tagged]
    change ((l.fields? ["name", "args"] y).bind _) = _
    rw [fields, Option.bind_some]
    change ((l.string? u).bind fun name => (l.sequence? w).bind fun arguments =>
      (arguments.mapM (ofSource? l n)).bind fun es => some (Expression.call name es)) = _
    rw [documented.string? named.1, sequence, Option.bind_some, Option.bind_some,
      mapM_ofSource?_within documented each, Option.bind_some]
  | .readAttribute typeName channel, x, levels, within => by
    obtain ⟨n, y, rfl, tagged, inner⟩ :=
      documented.adjacent?_within variants (by simp [variants]) (by decide) within
    obtain ⟨xs, fields, each⟩ := documented.fields? (by simp) inner.1
    obtain ⟨u, w, rfl, first, second⟩ := forall₂_two each
    have fields : l.fields? ["type_name", "channel"] y = some [u, w] := fields
    rw [ofSource?, tagged]
    change ((l.fields? ["type_name", "channel"] y).bind _) = _
    rw [fields, Option.bind_some]
    change ((l.string? u).bind fun typeName => (l.string? w).bind fun channel =>
      some (Expression.readAttribute typeName channel)) = _
    rw [documented.string? first, documented.string? second, Option.bind_some, Option.bind_some]
  | .arithmetic tree, x, levels, within => by
    obtain ⟨n, y, rfl, tagged, inner⟩ :=
      documented.adjacent?_within variants (by simp [variants]) (by decide) within
    rw [ofSource?, tagged]
    change ((Arithmetic.ofSource? l n y).bind fun t => some (Expression.arithmetic t)) = _
    rw [Arithmetic.ofSource?_within documented inner, Option.bind_some]

theorem Expression.mapM_ofSource?_within (documented : l.Documented holds) :
    ∀ {es : List Expression} {xs : List l.Source} {levels : Nat},
      List.Forall₂ (Within holds levels) xs (documents library es) →
      xs.mapM (ofSource? l levels) = some es
  | [], _, _, .nil => rfl
  | e :: es, _, levels, .cons first each => by
    rw [List.mapM_cons, ofSource?_within documented first, mapM_ofSource?_within documented each]
    rfl

end

theorem Action.ofSource?_within {x : l.Source} {levels : Nat} {a : Action}
    (within : Within holds levels x a.toJson) : ofSource? l levels x = some a := by
  have single : (variants.map Prod.fst).Nodup := by decide
  cases a with
  | assignment target value =>
    obtain ⟨n, xs, rfl, node, each⟩ :=
      documented.internal?_within single (by simp [variants]) (by simp) within
    obtain ⟨u, w, rfl, named, inner⟩ := forall₂_two each
    rw [ofSource?, node]
    change ((l.string? u).bind fun target => (Expression.ofSource? l (n + 1) w).bind fun value =>
      some (assignment target value)) = _
    rw [documented.string? named.1, Expression.ofSource?_within documented inner.succ,
      Option.bind_some, Option.bind_some]
  | writeAttribute typeName channel item =>
    obtain ⟨n, xs, rfl, node, each⟩ :=
      documented.internal?_within single (by simp [variants]) (by simp) within
    obtain ⟨u, w, y, rfl, first, second, inner⟩ := forall₂_three each
    rw [ofSource?, node]
    change ((l.string? u).bind fun typeName => (l.string? w).bind fun channel =>
      (Expression.ofSource? l (n + 1) y).bind fun item =>
        some (writeAttribute typeName channel item)) = _
    rw [documented.string? first.1, documented.string? second.1,
      Expression.ofSource?_within documented inner.succ]
    simp only [Option.bind_some]

end Readers

-- Whatever nests within the limit is read from its printed text as it was.
theorem Json.Library.read_print {l : Library} {holds : l.Source → Json → Prop}
    (documented : l.Documented holds) :
    (∀ a : Action, (a.document l).nesting ≤ nestingLimit →
      l.actionOf? (l.print (a.document l)) = some a) ∧
    (∀ e : Expression, (e.document l).nesting ≤ nestingLimit →
      l.expressionOf? (l.print (e.document l)) = some e) ∧
    (∀ t : Arithmetic, (t.document l).nesting ≤ nestingLimit →
      l.arithmeticOf? (l.print (t.document l)) = some t) ∧
    (∀ v : Variable, (v.document l).nesting ≤ nestingLimit →
      l.variableOf? (l.print (v.document l)) = some v) := by
  refine ⟨?_, ?_, ?_, ?_⟩
  · intro a nested
    rw [a.document_eq documented] at nested ⊢
    obtain ⟨x, source, within⟩ := documented.source?_print a.toJson_worded nested
    rw [actionOf?, source, Option.bind_some, Action.ofSource?_within documented within]
  · intro e nested
    rw [e.document_eq documented] at nested ⊢
    obtain ⟨x, source, within⟩ := documented.source?_print e.toJson_worded nested
    rw [expressionOf?, source, Option.bind_some, Expression.ofSource?_within documented within]
  · intro t nested
    rw [t.document_eq documented] at nested ⊢
    obtain ⟨x, source, within⟩ := documented.source?_print t.toJson_worded nested
    rw [arithmeticOf?, source, Option.bind_some, Arithmetic.ofSource?_within documented within]
  · intro v nested
    rw [v.document_eq documented] at nested ⊢
    obtain ⟨x, source, within⟩ := documented.source?_print v.toJson_worded nested
    rw [variableOf?, source, Option.bind_some, Variable.ofSource?_holds documented within.1]

theorem Json.Library.read_print_call :
    let call := Expression.call "F"
      [.string "\"é\\\n\x01😀", .number 10000000000000000000000000000000000000007,
        .arithmetic (.negate (.binary .divide (.variable ⟨"a", ["b"]⟩) (.number 7)))]
    library.Documented Place.Holds ∧
      (Action.assignment "x" call).toJson.nesting ≤ nestingLimit ∧
      library.actionOf? (Action.assignment "x" call).toJson.compact =
        some (.assignment "x" call) ∧
      library.expressionOf? call.toJson.compact = some call :=
  ⟨library_documented, by decide, (read_print library_documented).1 _ (by decide),
    (read_print library_documented).2.1 _ (by decide)⟩

end StateActions
