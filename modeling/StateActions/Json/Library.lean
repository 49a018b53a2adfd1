import StateActions.Json.Reader

namespace StateActions.Json

-- What writes and reads values of declared types as JSON. A value is read from a source: some place
-- in a text, or a part of it that was kept to be read later.
structure Library where
  record (fields : List (String × Json)) : Json
  internal (tag variant : String) (fields : List (String × Json)) : Json
  adjacent (tag content variant : String) (value : Json) : Json
  unit (variant : String) : Json
  print (value : Json) : String
  Source : Type
  source? (text : String) : Option Source
  string? (x : Source) : Option String
  bool? (x : Source) : Option Bool
  sequence? (x : Source) : Option (List Source)
  record? (names : List String) (x : Source) : Option (List Source)
  fields? (names : List String) (x : Source) : Option (List Source)
  internal? (tag : String) (variants : List (String × List String)) (x : Source) :
    Option (String × List Source)
  adjacent? (tag content : String) (variants : List String) (x : Source) :
    Option (String × Source)
  unit? (variants : List String) (x : Source) : Option String

-- A value whose brackets may nest so many levels deep. Once it was gathered before it is looked at,
-- some shorthands are taken that are not taken otherwise.
structure Place where
  value : Json
  levels : Nat
  gathered : Bool

namespace Place

def inside (x : Place) (value : Json) : Place := ⟨value, x.levels - 1, x.gathered⟩

def string? (x : Place) : Option String :=
  match x.value with
  | .string text => some text
  | _ => none

def bool? (x : Place) : Option Bool :=
  match x.value with
  | .bool value => some value
  | _ => none

def sequence? (x : Place) : Option (List Place) :=
  match x.levels, x.value with
  | _ + 1, .array items => some (items.map x.inside)
  | _, _ => none

def fields? (names : List String) (x : Place) : Option (List Place) :=
  match x.levels, x.value with
  | _ + 1, .object fields => (names.mapM (field? · fields)).map (·.map x.inside)
  | _, _ => none

-- A record may also be written as the list of its fields.
def record? (names : List String) (x : Place) : Option (List Place) :=
  match x.value with
  | .array items => if items.length = names.length then x.sequence? else none
  | _ => x.fields? names

-- A variant is named, or in a gathered value told by its index.
def variant? (variants : List String) (x : Place) : Option String :=
  match x.value with
  | .string name => if variants.contains name then some name else none
  | .number text =>
    if x.gathered && text.toList.all Char.isDigit then variants[Numeral.value 10 text.toList]?
    else none
  | _ => none

-- The name may also be the only key of an object that holds nothing.
def unit? (variants : List String) (x : Place) : Option String :=
  match x.value with
  | .string name => if variants.contains name then some name else none
  | .object [(name, held)] =>
    let empty := match held with
      | .null => true
      | .object [] => x.gathered
      | _ => false
    if empty && variants.contains name then some name else none
  | _ => none

def tagAndRest? (tag : String) : Json → Option (Json × Json)
  | .object fields =>
    (field? tag fields).map fun kind => (kind, .object (fields.filter (·.1 != tag)))
  | .array (kind :: rest) => some (kind, .array rest)
  | _ => none

-- A value with its tag among its fields is gathered, and has to be readable throughout.
def internal? (tag : String) (variants : List (String × List String)) (x : Place) :
    Option (String × List Place) := do
  if !x.value.readable x.levels then none
  else
    let (kind, rest) ← tagAndRest? tag x.value
    let name ← (x.inside kind).variant? (variants.map (·.1))
    let names ← variants.lookup name
    return (name, ← record? names ⟨rest, x.levels, true⟩)

def adjacent? (tag content : String) (variants : List String) (x : Place) :
    Option (String × Place) :=
  match x.levels, x.value with
  | levels + 1, .object fields => do
    let kind ← field? tag fields
    let value ← field? content fields
    let name ← if kind.readable levels then (x.inside kind).unit? variants else none
    let first := fields.find? fun field => field.1 == tag || field.1 == content
    if x.gathered || first.any (·.1 == tag) then some (name, x.inside value)
    else if value.readable levels then some (name, ⟨value, levels, true⟩)
    else none
  | _ + 1, .array [kind, value] =>
    ((x.inside kind).variant? variants).map (·, x.inside value)
  | _, _ => none

end Place

def library : Library where
  record := .object
  internal tag variant fields := .object ((tag, .string variant) :: fields)
  adjacent tag content variant value := .object [(tag, .string variant), (content, value)]
  unit := .string
  print := compact
  Source := Place
  source? text := (ofText? text).map fun value => ⟨value, nestingLimit, false⟩
  string? := Place.string?
  bool? := Place.bool?
  sequence? := Place.sequence?
  record? := Place.record?
  fields? := Place.fields?
  internal? := Place.internal?
  adjacent? := Place.adjacent?
  unit? := Place.unit?

end StateActions.Json
