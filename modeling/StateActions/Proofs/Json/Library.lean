import Mathlib.Data.List.Forall2
import StateActions.Json.Library
import StateActions.Proofs.Json.Reading

namespace StateActions.Json

section Laws

-- What is relied on. In which sense a source holds a value is the library's own.
structure Library.Documented (l : Library) (holds : l.Source → Json → Prop) : Prop where
  -- Records and tagged values are objects, a variant without fields is its name.
  record_eq : ∀ fields, l.record fields = .object fields
  internal_eq : ∀ tag variant fields,
    l.internal tag variant fields = .object ((tag, .string variant) :: fields)
  adjacent_eq : ∀ tag content variant value,
    l.adjacent tag content variant value = .object [(tag, .string variant), (content, value)]
  unit_eq : ∀ variant, l.unit variant = .string variant
  -- The text of a value is put together from the texts of its parts.
  print_null : l.print .null = "null"
  print_bool : ∀ value, l.print (.bool value) = toString value
  print_string : ∀ text, l.print (.string text) = quoted text
  print_array : ∀ items,
    l.print (.array items) = "[" ++ ",".intercalate (items.map l.print) ++ "]"
  print_object : ∀ fields, l.print (.object fields) =
    "\x7b" ++ ",".intercalate (fields.map fun f => quoted f.1 ++ ":" ++ l.print f.2) ++ "\x7d"
  -- A text is read as the value that it spells, unless brackets nest too deeply.
  source? : ∀ {value text}, value.Spells text → value.nesting ≤ nestingLimit →
    ∃ x, l.source? text = some x ∧ holds x value
  -- What is written of a type is read as of that type, part by part.
  string? : ∀ {x text}, holds x (.string text) → l.string? x = some text
  bool? : ∀ {x value}, holds x (.bool value) → l.bool? x = some value
  sequence? : ∀ {x items}, holds x (.array items) →
    ∃ xs, l.sequence? x = some xs ∧ List.Forall₂ holds xs items
  record? : ∀ {x fields}, (fields.map Prod.fst).Nodup → holds x (.object fields) →
    ∃ xs, l.record? (fields.map Prod.fst) x = some xs ∧
      List.Forall₂ holds xs (fields.map Prod.snd)
  fields? : ∀ {x fields}, (fields.map Prod.fst).Nodup → holds x (.object fields) →
    ∃ xs, l.fields? (fields.map Prod.fst) x = some xs ∧
      List.Forall₂ holds xs (fields.map Prod.snd)
  internal? : ∀ variants {x tag variant fields}, (variants.map Prod.fst).Nodup →
    (variant, fields.map Prod.fst) ∈ variants → (tag :: fields.map Prod.fst).Nodup →
    holds x (.object ((tag, .string variant) :: fields)) →
    ∃ xs, l.internal? tag variants x = some (variant, xs) ∧
      List.Forall₂ holds xs (fields.map Prod.snd)
  adjacent? : ∀ variants {x tag content variant value}, variant ∈ variants → tag ≠ content →
    holds x (.object [(tag, .string variant), (content, value)]) →
    ∃ y, l.adjacent? tag content variants x = some (variant, y) ∧ holds y value
  unit? : ∀ {x variants variant}, variant ∈ variants → holds x (.string variant) →
    l.unit? variants x = some variant

theorem wordedItems_snd {fields : List (String × Json)} :
    WordedItems (fields.map Prod.snd) ↔ WordedFields fields := by
  induction fields with
  | nil => exact Iff.rfl
  | cons field more ih => exact and_congr_right fun _ => ih

theorem nestingItems_snd {fields : List (String × Json)} :
    nestingItems (fields.map Prod.snd) = nestingFields fields := by
  induction fields with
  | nil => rfl
  | cons field more ih => rw [List.map_cons, nestingItems, nestingFields, ih]

-- A source of a value whose brackets nest at most so many levels deep.
def Within {l : Library} (holds : l.Source → Json → Prop) (levels : Nat) (x : l.Source)
    (value : Json) : Prop :=
  holds x value ∧ value.nesting ≤ levels

theorem Within.succ {l : Library} {holds : l.Source → Json → Prop} {levels : Nat} {x : l.Source}
    {value : Json} (within : Within holds levels x value) : Within holds (levels + 1) x value :=
  ⟨within.1, Nat.le_succ_of_le within.2⟩

theorem forall₂_within {l : Library} {holds : l.Source → Json → Prop} {xs : List l.Source}
    {items : List Json} {levels : Nat} (each : List.Forall₂ holds xs items)
    (nested : nestingItems items ≤ levels) : List.Forall₂ (Within holds levels) xs items := by
  induction each with
  | nil => exact .nil
  | @cons x item _ more first _ ih =>
    have below : max item.nesting (nestingItems more) ≤ levels := nested
    exact .cons ⟨first, by omega⟩ (ih (by omega))

namespace Library.Documented

variable {l : Library} {holds : l.Source → Json → Prop}

mutual

theorem spells_print (documented : l.Documented holds) :
    ∀ {value : Json}, value.Worded → value.Spells (l.print value)
  | .number _, worded | .skipped, worded => worded.elim
  | .null, _ => documented.print_null ▸ .null
  | .bool value, _ => documented.print_bool value ▸ .bool value
  | .string text, _ => documented.print_string text ▸ .string (quotes_quoted text)
  | .array items, worded => documented.print_array items ▸ .array (documented.spellsItems worded)
  | .object fields, worded =>
    documented.print_object fields ▸ .object (documented.spellsFields worded)

theorem spellsItems (documented : l.Documented holds) :
    ∀ {items : List Json}, WordedItems items → SpellsItems items (items.map l.print)
  | [], _ => .nil
  | _ :: _, worded => .cons (documented.spells_print worded.1) (documented.spellsItems worded.2)

theorem spellsFields (documented : l.Documented holds) :
    ∀ {fields : List (String × Json)}, WordedFields fields →
      SpellsFields fields (fields.map fun f => quoted f.1 ++ ":" ++ l.print f.2)
  | [], _ => .nil
  | (key, _) :: _, worded =>
    .cons (quotes_quoted key) (documented.spells_print worded.1) (documented.spellsFields worded.2)

end

section Within

variable (documented : l.Documented holds) {x : l.Source} {levels : Nat}
include documented

theorem source?_print {value : Json} (worded : value.Worded)
    (nested : value.nesting ≤ nestingLimit) :
    ∃ x, l.source? (l.print value) = some x ∧ Within holds nestingLimit x value := by
  obtain ⟨x, source, held⟩ := documented.source? (documented.spells_print worded) nested
  exact ⟨x, source, held, nested⟩

theorem sequence?_within {items : List Json} (within : Within holds levels x (.array items)) :
    ∃ xs, l.sequence? x = some xs ∧ List.Forall₂ (Within holds levels) xs items := by
  obtain ⟨held, nested⟩ := within
  have below : 1 + nestingItems items ≤ levels := nested
  obtain ⟨xs, read, each⟩ := documented.sequence? held
  exact ⟨xs, read, forall₂_within each (by omega)⟩

theorem fields?_within {fields : List (String × Json)} (distinct : (fields.map Prod.fst).Nodup)
    (within : Within holds levels x (.object fields)) :
    ∃ xs, l.fields? (fields.map Prod.fst) x = some xs ∧
      List.Forall₂ (Within holds levels) xs (fields.map Prod.snd) := by
  obtain ⟨held, nested⟩ := within
  have below : 1 + nestingFields fields ≤ levels := nested
  obtain ⟨xs, read, each⟩ := documented.fields? distinct held
  exact ⟨xs, read, forall₂_within each (by rw [nestingItems_snd]; omega)⟩

-- The object of a variant takes one level, and its fields have what is left.
theorem internal?_within {tag variant : String} {variants : List (String × List String)}
    {fields : List (String × Json)} (single : (variants.map Prod.fst).Nodup)
    (known : (variant, fields.map Prod.fst) ∈ variants)
    (distinct : (tag :: fields.map Prod.fst).Nodup)
    (within : Within holds levels x (.object ((tag, .string variant) :: fields))) :
    ∃ n xs, levels = n + 1 ∧ l.internal? tag variants x = some (variant, xs) ∧
      List.Forall₂ (Within holds n) xs (fields.map Prod.snd) := by
  obtain ⟨held, nested⟩ := within
  have below : 1 + max 0 (nestingFields fields) ≤ levels := nested
  obtain ⟨n, rfl⟩ : ∃ n, levels = n + 1 := ⟨levels - 1, by omega⟩
  obtain ⟨xs, read, each⟩ := documented.internal? variants single known distinct held
  exact ⟨n, xs, rfl, read, forall₂_within each (by rw [nestingItems_snd]; omega)⟩

theorem adjacent?_within (variants : List String) {tag content variant : String} {value : Json}
    (known : variant ∈ variants) (other : tag ≠ content)
    (within : Within holds levels x (.object [(tag, .string variant), (content, value)])) :
    ∃ n y, levels = n + 1 ∧ l.adjacent? tag content variants x = some (variant, y) ∧
      Within holds n y value := by
  obtain ⟨held, nested⟩ := within
  have below : 1 + max 0 (max value.nesting 0) ≤ levels := nested
  obtain ⟨n, rfl⟩ : ∃ n, levels = n + 1 := ⟨levels - 1, by omega⟩
  obtain ⟨y, read, inside⟩ := documented.adjacent? variants known other held
  exact ⟨n, y, rfl, read, inside, by omega⟩

end Within

end Library.Documented

end Laws

section Fields

variable {fields : List (String × Json)} {key : String} {value : Json}

theorem filter_absent (absent : key ∉ fields.map Prod.fst) : fields.filter (·.1 == key) = [] := by
  rw [List.filter_eq_nil_iff]
  intro field member same
  rw [beq_iff_eq] at same
  exact absent (same ▸ List.mem_map_of_mem member)

theorem field?_of_mem (distinct : (fields.map Prod.fst).Nodup) (member : (key, value) ∈ fields) :
    field? key fields = some value := by
  have one : fields.filter (·.1 == key) = [(key, value)] := by
    induction fields with
    | nil => cases member
    | cons field more ih =>
      rw [List.map_cons, List.nodup_cons] at distinct
      rcases List.mem_cons.mp member with rfl | later
      · rw [List.filter_cons_of_pos (by simp), filter_absent distinct.1]
      · have other : field.1 ≠ key := by
          rintro rfl
          exact distinct.1 (List.mem_map.mpr ⟨_, later, rfl⟩)
        rw [List.filter_cons_of_neg (by simpa using other), ih distinct.2 later]
  rw [field?, one]

theorem mapM_field? (distinct : (fields.map Prod.fst).Nodup) :
    (fields.map Prod.fst).mapM (field? · fields) = some (fields.map Prod.snd) := by
  have each : ∀ part : List (String × Json), part ⊆ fields →
      (part.map Prod.fst).mapM (field? · fields) = some (part.map Prod.snd) := by
    intro part inside
    induction part with
    | nil => rfl
    | cons field more ih =>
      rw [List.cons_subset] at inside
      rw [List.map_cons, List.mapM_cons, field?_of_mem distinct inside.1, ih inside.2]
      rfl
  exact each fields (List.Subset.refl _)

theorem lookup_of_mem {variants : List (String × List String)} {variant : String}
    {names : List String} (distinct : (variants.map Prod.fst).Nodup)
    (known : (variant, names) ∈ variants) : variants.lookup variant = some names := by
  induction variants with
  | nil => cases known
  | cons first more ih =>
    rw [List.map_cons, List.nodup_cons] at distinct
    rcases List.mem_cons.mp known with rfl | later
    · exact List.lookup_cons_self
    · have other : (variant == first.1) = false := by
        rw [beq_eq_false_iff_ne]
        rintro rfl
        exact distinct.1 (List.mem_map.mpr ⟨_, later, rfl⟩)
      rw [List.lookup_cons, other, ih distinct.2 later]

end Fields

namespace Place

-- What lies at a place and can be read with the levels that are left there.
structure Holds (x : Place) (value : Json) : Prop where
  same : x.value = value
  worded : value.Worded
  nested : value.nesting ≤ x.levels

variable {x : Place} {items : List Json} {fields : List (String × Json)}

theorem forall₂_inside (worded : WordedItems items) (nested : nestingItems items ≤ x.levels - 1) :
    List.Forall₂ Holds (items.map x.inside) items := by
  induction items with
  | nil => exact .nil
  | cons item more ih =>
    have below : max item.nesting (nestingItems more) ≤ x.levels - 1 := nested
    exact .cons ⟨rfl, worded.1, Nat.le_trans (Nat.le_max_left _ _) below⟩
      (ih worded.2 (Nat.le_trans (Nat.le_max_right _ _) below))

theorem source?_holds {value : Json} {text : String} (spells : value.Spells text)
    (nested : value.nesting ≤ nestingLimit) :
    ∃ x, library.source? text = some x ∧ Holds x value := by
  refine ⟨⟨value, nestingLimit, false⟩, ?_, rfl, spells.worded, nested⟩
  change (ofText? text).map _ = _
  rw [spells.ofText?]
  rfl

theorem string?_holds {text : String} (holds : x.Holds (.string text)) :
    x.string? = some text := by
  rw [string?, holds.same]

theorem bool?_holds {value : Bool} (holds : x.Holds (.bool value)) : x.bool? = some value := by
  rw [bool?, holds.same]

theorem sequence?_holds (holds : x.Holds (.array items)) :
    ∃ xs, x.sequence? = some xs ∧ List.Forall₂ Holds xs items := by
  obtain ⟨value, levels, gathered⟩ := x
  obtain ⟨rfl, worded, nested⟩ := holds
  have below : 1 + nestingItems items ≤ levels := nested
  obtain ⟨levels, rfl⟩ : ∃ n, levels = n + 1 := ⟨levels - 1, by omega⟩
  exact ⟨_, rfl, forall₂_inside worded (by simp only; omega)⟩

theorem fields?_holds (distinct : (fields.map Prod.fst).Nodup) (holds : x.Holds (.object fields)) :
    ∃ xs, x.fields? (fields.map Prod.fst) = some xs ∧
      List.Forall₂ Holds xs (fields.map Prod.snd) := by
  obtain ⟨value, levels, gathered⟩ := x
  obtain ⟨rfl, worded, nested⟩ := holds
  have below : 1 + nestingFields fields ≤ levels := nested
  obtain ⟨levels, rfl⟩ : ∃ n, levels = n + 1 := ⟨levels - 1, by omega⟩
  have read : fields? (fields.map Prod.fst) ⟨.object fields, levels + 1, gathered⟩ =
      ((fields.map Prod.fst).mapM (field? · fields)).map
        (·.map (inside ⟨.object fields, levels + 1, gathered⟩)) := rfl
  rw [mapM_field? distinct, Option.map_some] at read
  refine ⟨_, read, forall₂_inside (wordedItems_snd.mpr worded) ?_⟩
  rw [nestingItems_snd]
  simp only
  omega

theorem record?_holds (distinct : (fields.map Prod.fst).Nodup) (holds : x.Holds (.object fields)) :
    ∃ xs, x.record? (fields.map Prod.fst) = some xs ∧
      List.Forall₂ Holds xs (fields.map Prod.snd) := by
  rw [record?, holds.same]
  exact fields?_holds distinct holds

theorem variant?_string {variants : List String} {variant : String}
    (value : x.value = .string variant) (known : variant ∈ variants) :
    x.variant? variants = some variant := by
  rw [variant?, value]
  exact if_pos (List.contains_iff_mem.mpr known)

theorem unit?_string {variants : List String} {variant : String}
    (value : x.value = .string variant) (known : variant ∈ variants) :
    x.unit? variants = some variant := by
  rw [unit?, value]
  exact if_pos (List.contains_iff_mem.mpr known)

theorem tagAndRest?_tagged {tag : String} {kind : Json}
    (distinct : (tag :: fields.map Prod.fst).Nodup) :
    tagAndRest? tag (.object ((tag, kind) :: fields)) = some (kind, .object fields) := by
  have found : field? tag ((tag, kind) :: fields) = some kind :=
    field?_of_mem distinct List.mem_cons_self
  have rest : ((tag, kind) :: fields).filter (·.1 != tag) = fields := by
    rw [List.filter_cons_of_neg (by simp), List.filter_eq_self]
    intro field member
    rw [bne_iff_ne]
    rintro same
    exact (List.nodup_cons.mp distinct).1 (same ▸ List.mem_map_of_mem member)
  rw [tagAndRest?, found, rest, Option.map_some]

theorem internal?_holds {tag variant : String} {variants : List (String × List String)}
    (single : (variants.map Prod.fst).Nodup) (known : (variant, fields.map Prod.fst) ∈ variants)
    (distinct : (tag :: fields.map Prod.fst).Nodup)
    (holds : x.Holds (.object ((tag, .string variant) :: fields))) :
    ∃ xs, x.internal? tag variants = some (variant, xs) ∧
      List.Forall₂ Holds xs (fields.map Prod.snd) := by
  obtain ⟨value, levels, gathered⟩ := x
  obtain ⟨rfl, worded, nested⟩ := holds
  have rest : Holds ⟨.object fields, levels, true⟩ (.object fields) := by
    refine ⟨rfl, worded.2, ?_⟩
    have below : 1 + max 0 (nestingFields fields) ≤ levels := nested
    have within : 1 + nestingFields fields ≤ levels := by omega
    exact within
  obtain ⟨xs, read, each⟩ := record?_holds (List.nodup_cons.mp distinct).2 rest
  refine ⟨xs, ?_, each⟩
  have named : (inside ⟨.object ((tag, .string variant) :: fields), levels, gathered⟩
      (.string variant)).variant? (variants.map (·.1)) = some variant :=
    variant?_string rfl (List.mem_map_of_mem known)
  rw [internal?, readable_of_nesting worded nested, if_neg (by decide),
    tagAndRest?_tagged distinct]
  simp only [Option.bind_eq_bind, Option.bind_some, named, lookup_of_mem single known, read]
  rfl

theorem adjacent?_holds {tag content variant : String} {variants : List String} {value : Json}
    (known : variant ∈ variants) (other : tag ≠ content)
    (holds : x.Holds (.object [(tag, .string variant), (content, value)])) :
    ∃ y, x.adjacent? tag content variants = some (variant, y) ∧ y.Holds value := by
  obtain ⟨_, levels, gathered⟩ := x
  obtain ⟨rfl, worded, nested⟩ := holds
  have below : 1 + max 0 (max value.nesting 0) ≤ levels := nested
  obtain ⟨levels, rfl⟩ : ∃ n, levels = n + 1 := ⟨levels - 1, by omega⟩
  have distinct : ([(tag, Json.string variant), (content, value)].map Prod.fst).Nodup := by
    simpa using other
  have kind := field?_of_mem distinct List.mem_cons_self
  have held := field?_of_mem distinct (List.mem_cons_of_mem _ List.mem_cons_self)
  refine ⟨⟨value, levels, gathered⟩, ?_, rfl, worded.2.1, by simp only; omega⟩
  simp only [adjacent?, kind, held]
  simp [readable, unit?_string, known, inside]

end Place

theorem compactItems_eq (items : List Json) : compactItems items = items.map compact := by
  induction items with
  | nil => rfl
  | cons item more ih => rw [compactItems, List.map_cons, ih]

theorem compactFields_eq (fields : List (String × Json)) :
    compactFields fields = fields.map fun f => quoted f.1 ++ ":" ++ f.2.compact := by
  induction fields with
  | nil => rfl
  | cons field more ih => rw [compactFields, List.map_cons, ih]

theorem library_documented : Library.Documented library Place.Holds where
  record_eq _ := rfl
  internal_eq _ _ _ := rfl
  adjacent_eq _ _ _ _ := rfl
  unit_eq _ := rfl
  print_null := rfl
  print_bool _ := rfl
  print_string _ := rfl
  print_array items := by
    change compact (.array items) = _
    rw [compact, compactItems_eq]
    rfl
  print_object fields := by
    change compact (.object fields) = _
    rw [compact, compactFields_eq]
    rfl
  source? := Place.source?_holds
  string? := Place.string?_holds
  bool? := Place.bool?_holds
  sequence? := Place.sequence?_holds
  record? := Place.record?_holds
  fields? := Place.fields?_holds
  internal? _ _ _ _ _ := Place.internal?_holds
  adjacent? _ _ _ _ _ _ := Place.adjacent?_holds
  unit? known holds := Place.unit?_string holds.same known

end StateActions.Json
