import StateActions.Token.Numeral

namespace StateActions.Command

inductive Format
  | canonical
  | json
  | tree
deriving DecidableEq, Repr, Inhabited

structure Options where
  actions : List String := []
  file : Option String := none
  config : Option String := none
  format : Format := .canonical
  threads : Option Nat := none
  failFast : Bool := false
  quiet : Bool := false
  showHelp : Bool := false
  showVersion : Bool := false
  formatCount : Nat := 0
deriving DecidableEq, Repr, Inhabited

inductive UsageError
  | missingValue (option : String)
  | invalidNumber (option value : String)
  | unknownOption (option : String)
  | conflictingFormats
  | nothingToDo
deriving DecidableEq, Repr, Inhabited

def UsageError.message : UsageError → String
  | .missingValue option => option ++ " requires a value"
  | .invalidNumber option value => "invalid value '" ++ value ++ "' for " ++ option
  | .unknownOption option => "unknown option '" ++ option ++ "'"
  | .conflictingFormats => "--json and --tree cannot be combined"
  | .nothingToDo => "no action or --file given"

namespace Options

def threads? (text : String) : Option Nat :=
  (Numeral.ofWord? text).bind fun n => if n > 0 then some n else none

-- Reads arguments from left to right. After `--` all the rest are actions.
def scan (o : Options) : List String → Except UsageError Options
  | [] => .ok o
  | arg :: rest =>
    if arg = "--help" ∨ arg = "-h" then scan { o with showHelp := true } rest
    else if arg = "--version" ∨ arg = "-V" then scan { o with showVersion := true } rest
    else if arg = "--json" then
      scan { o with format := .json, formatCount := o.formatCount + 1 } rest
    else if arg = "--tree" then
      scan { o with format := .tree, formatCount := o.formatCount + 1 } rest
    else if arg = "--fail-fast" then scan { o with failFast := true } rest
    else if arg = "--quiet" ∨ arg = "-q" then scan { o with quiet := true } rest
    else if arg = "--" then .ok { o with actions := o.actions ++ rest }
    else if arg = "--file" ∨ arg = "--config" ∨ arg = "--threads" then
      match rest with
      | [] => .error (.missingValue arg)
      | value :: rest =>
        if arg = "--file" then scan { o with file := some value } rest
        else if arg = "--config" then scan { o with config := some value } rest
        else match threads? value with
          | some n => scan { o with threads := some n } rest
          | none => .error (.invalidNumber arg value)
    else if arg.startsWith "-" then .error (.unknownOption arg)
    else scan { o with actions := o.actions ++ [arg] } rest

def check (o : Options) : Except UsageError Options :=
  if o.showHelp || o.showVersion then .ok o
  else if o.formatCount > 1 then .error .conflictingFormats
  else if o.actions.isEmpty && o.file.isNone then .error .nothingToDo
  else .ok o

def parse (args : List String) : Except UsageError Options :=
  match scan {} args with
  | .ok o => o.check
  | .error e => .error e

end Options

end StateActions.Command
