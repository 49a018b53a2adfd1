import StateActions.ActionFile.Basic
import StateActions.Grammar.Error
import StateActions.Token.Lexer

namespace StateActions

open Log (Code Entry Event)

structure Readiness where
  result : Except String Unit
  events : List Event

namespace Readiness

def missing? (part : String) (codes : List Code) : Option String :=
  (codes.find? (!·.isRegistered)).map fun c =>
    part ++ " error code " ++ c.name ++ " not found in metadata registry"

def ofCodes (part : String) (codes : List Code) (limits : List Event) : Readiness :=
  match missing? part codes with
  | some complaint => ⟨.error complaint, []⟩
  | none => ⟨.ok (), limits⟩

def tokenLimits : Event :=
  (Event.debug "Lexical limits initialized").withContext
    [("max_action_length", toString Limits.actionLength),
      ("max_string_size", toString Limits.stringSize),
      ("max_identifier_length", toString Limits.identifierLength),
      ("max_number_digits", toString Limits.numberDigits),
      ("max_token_count", toString Limits.tokenCount)]

def fileLimits : Event :=
  (Event.debug "File processor compile-time configuration loaded").withContext
    [("max_file_size", toString Limits.fileSize),
      ("max_actions_per_file", toString Limits.actionsPerFile)]

def tokens : Readiness := ofCodes "Lexical" (Log.lexicalEntries.map (·.code)) [tokenLimits]

def grammar : Readiness := ofCodes "Syntax" (Log.syntaxEntries.map (·.code)) []

def files : Readiness := ofCodes "File processor" (Log.fileEntries.map (·.code)) [fileLimits]

def all : List Readiness := [tokens, grammar, files]

theorem missing?_eq_none_iff (part : String) (codes : List Code) :
    missing? part codes = none ↔ ∀ c ∈ codes, c.isRegistered = true := by
  simp [missing?]

end Readiness

end StateActions
