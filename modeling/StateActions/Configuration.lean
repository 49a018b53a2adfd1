import StateActions.ActionFile.Host
import StateActions.Preferences
import StateActions.Text.Basic
import StateActions.Toml.Reader

namespace StateActions

abbrev Environment := String → Option String

namespace Environment

def read {α : Type} (env : Environment) (name : String) (parse : String → Option α) (default : α) :
    α :=
  ((env name).bind fun value => parse (String.ofList (Text.trim value.toList))).getD default

def bool? : String → Option Bool
  | "true" => some true
  | "false" => some false
  | _ => none

def flag (env : Environment) (name : String) (default : Bool) : Bool := env.read name bool? default

def number (env : Environment) (name : String) (default : Nat) : Nat :=
  env.read name Numeral.ofWord? default

def lexical (env : Environment) : Preferences.Lexical :=
  { detailedMetrics := env.flag "ACTION_LEXICAL_DETAILED_METRICS" true
    tokenStatistics := env.flag "ACTION_LEXICAL_LOG_TOKEN_STATS" false }

def parser (env : Environment) : Preferences.Parser :=
  { maxDepth := env.number "ACTION_PARSER_MAX_DEPTH" Limits.parseDepth
    parseEvents := env.flag "ACTION_PARSER_LOG_EVENTS" true
    sourceSnippet := env.flag "ACTION_PARSER_SOURCE_SNIPPET" true }

def batch (env : Environment) : Preferences.Batch :=
  { maxThreads := env.number "ACTION_BATCH_THREADS" 1
    failFast := env.flag "ACTION_BATCH_FAIL_FAST" false
    progress := env.flag "ACTION_BATCH_PROGRESS" false }

def logging (env : Environment) : Preferences.Logging :=
  { structured := env.flag "ACTION_LOGGING_USE_STRUCTURED" false
    console := env.flag "ACTION_LOGGING_ENABLE_CONSOLE" false
    minLevel := env.read "ACTION_LOGGING_MIN_LEVEL" Log.Level.ofText? .info
    sourceContext := env.flag "ACTION_LOGGING_INCLUDE_SOURCE_CONTEXT" true }

def preferences (env : Environment) : Preferences :=
  ⟨env.lexical, env.parser, env.batch, env.logging⟩

end Environment

inductive ConfigError
  | unreadable (path message : String)
  | malformed (path : String)
deriving DecidableEq, Repr, Inhabited

def ConfigError.message : ConfigError → String
  | .unreadable path message => "Failed to read configuration file " ++ path ++ ": " ++ message
  | .malformed path => "Invalid configuration in " ++ path ++ ": TOML parse error"

namespace Configuration

-- What a part of a document holds for a field: by name, or by place for a part written as a list. A
-- moment is a part in which no field is set.
def fieldOf? (part : Toml) (name : String) (place : Nat) : Option (Option Toml) :=
  match part with
  | .table _ _ fields | .inline fields => some (Toml.get? name fields)
  | .array items => some items[place]?
  | .tables last before => some ((last :: before).reverse[place]?.map .inline)
  | .moment => some none
  | _ => none

def field? {α : Type} (part : Toml) (name : String) (place : Nat) (parse : Toml → Option α)
    (default : α) : Option α := do
  match ← fieldOf? part name place with
  | none => some default
  | some value => parse value

def bool? : Toml → Option Bool
  | .bool value => some value
  | _ => none

def nat? : Toml → Option Nat
  | .integer value => if value ≥ 0 then some value.toNat else none
  | _ => none

def level? : Toml → Option Log.Level
  | .text value => Log.Level.ofText? value
  | _ => none

def lexical? (d : Preferences.Lexical) (t : Toml) : Option Preferences.Lexical := do
  return ⟨← field? t "collect_detailed_metrics" 0 bool? d.detailedMetrics,
    ← field? t "log_token_statistics" 1 bool? d.tokenStatistics⟩

def parser? (d : Preferences.Parser) (t : Toml) : Option Preferences.Parser := do
  return ⟨← field? t "max_parse_depth" 0 nat? d.maxDepth,
    ← field? t "log_parse_events" 1 bool? d.parseEvents,
    ← field? t "include_source_snippet" 2 bool? d.sourceSnippet⟩

def batch? (d : Preferences.Batch) (t : Toml) : Option Preferences.Batch := do
  return ⟨← field? t "max_threads" 0 nat? d.maxThreads,
    ← field? t "fail_fast" 1 bool? d.failFast,
    ← field? t "progress_reporting" 2 bool? d.progress⟩

def logging? (d : Preferences.Logging) (t : Toml) : Option Preferences.Logging := do
  return ⟨← field? t "use_structured_logging" 0 bool? d.structured,
    ← field? t "enable_console_logging" 1 bool? d.console,
    ← field? t "min_log_level" 2 level? d.minLevel,
    ← field? t "include_source_context" 3 bool? d.sourceContext⟩

def ofDocument? (defaults : Preferences) (document : String) : Option Preferences := do
  let root := Toml.inline (← Toml.ofText? document)
  return ⟨← field? root "lexical" 0 (lexical? defaults.lexical) defaults.lexical,
    ← field? root "parser" 1 (parser? defaults.parser) defaults.parser,
    ← field? root "batch" 2 (batch? defaults.batch) defaults.batch,
    ← field? root "logging" 3 (logging? defaults.logging) defaults.logging⟩

def ofText (env : Environment) (document path : String) : Except ConfigError Preferences :=
  match ofDocument? env.preferences document with
  | some preferences => .ok preferences
  | none => .error (.malformed path)

def load (env : Environment) (host : Host) (path : String) : Except ConfigError Preferences :=
  match host.readText path with
  | .error message => .error (.unreadable path message)
  | .ok document => ofText env document path

end Configuration

end StateActions
