namespace StateActions

-- A table is `implied` if it was only named on the way to something below it, and `dotted` if a
-- dotted key made it. Moments and numbers with a point are kept apart but not valued. The tables of
-- `tables` came from headers in double brackets; `before` holds the earlier ones, the first one
-- last.
inductive Toml
  | text (value : String)
  | integer (value : Int)
  | float
  | bool (value : Bool)
  | moment
  | array (items : List Toml)
  | inline (fields : List (String × Toml))
  | table (implied dotted : Bool) (fields : List (String × Toml))
  | tables (last : List (String × Toml)) (before : List (List (String × Toml)))
deriving Repr, Inhabited

namespace Toml

abbrev Fields := List (String × Toml)

def get? (key : String) (fields : Fields) : Option Toml := (fields.find? (·.1 == key)).map (·.2)

def put (key : String) (value : Toml) : Fields → Fields
  | [] => [(key, value)]
  | (k, v) :: rest => if k == key then (key, value) :: rest else (k, v) :: put key value rest

def define? (key : String) (value : Toml) (fields : Fields) : Option Fields :=
  match get? key fields with
  | none => some (fields ++ [(key, value)])
  | some _ => none

-- Changes the fields of the table at the end of a path of headers. Missing tables are implied; of
-- several tables under one name the last is meant.
def below? (change : Fields → Option Fields) : List String → Fields → Option Fields
  | [], fields => change fields
  | key :: path, fields => do
    match get? key fields with
    | none => return put key (.table true false (← below? change path [])) fields
    | some (.table implied dotted inner) =>
      return put key (.table implied dotted (← below? change path inner)) fields
    | some (.tables last before) =>
      return put key (.tables (← below? change path last) before) fields
    | some _ => none

def open? (key : String) (fields : Fields) : Option Fields :=
  match get? key fields with
  | none => some (put key (.table false false []) fields)
  | some (.table true false inner) => some (put key (.table false false inner) fields)
  | some _ => none

def append? (key : String) (fields : Fields) : Option Fields :=
  match get? key fields with
  | none => some (put key (.tables [] []) fields)
  | some (.tables last before) => some (put key (.tables [] (last :: before)) fields)
  | some _ => none

-- Sets a dotted key. It may pass through any table that no header opened and through the last of
-- several tables under one name; the table that takes the value has to come from dotted keys.
def assign? (value : Toml) : List String → Fields → Option Fields
  | [], _ => none
  | [key], fields => define? key value fields
  | key :: next :: path, fields => do
    match get? key fields with
    | none => return put key (.table true true (← assign? value (next :: path) [])) fields
    | some (.table true dotted inner) =>
      if dotted || !path.isEmpty then
        return put key (.table true dotted (← assign? value (next :: path) inner)) fields
      else none
    | some (.tables last before) =>
      if path.isEmpty then none
      else return put key (.tables (← assign? value (next :: path) last) before) fields
    | some _ => none

end Toml

end StateActions
