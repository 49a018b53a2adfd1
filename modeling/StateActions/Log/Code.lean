namespace StateActions.Log

inductive Severity
  | critical
  | high
  | medium
  | low
deriving DecidableEq, Repr, Inhabited

def Severity.name : Severity → String
  | .critical => "Critical"
  | .high => "High"
  | .medium => "Medium"
  | .low => "Low"

structure Code where
  name : String
deriving DecidableEq, Repr, Inhabited

namespace Code

def internalError : Code := ⟨"ERR001"⟩
def startFailure : Code := ⟨"ERR002"⟩
def configurationError : Code := ⟨"ERR003"⟩

def fileNotFound : Code := ⟨"E005"⟩
def fileTooLarge : Code := ⟨"E007"⟩
def emptyFile : Code := ⟨"E008"⟩
def permissionDenied : Code := ⟨"E009"⟩
def invalidEncoding : Code := ⟨"E010"⟩
def ioError : Code := ⟨"E011"⟩
def tooManyActions : Code := ⟨"E012"⟩

def invalidCharacter : Code := ⟨"E020"⟩
def unterminatedString : Code := ⟨"E021"⟩
def invalidNumber : Code := ⟨"E022"⟩
def invalidBasedLiteral : Code := ⟨"E023"⟩
def identifierTooLong : Code := ⟨"E024"⟩
def stringTooLarge : Code := ⟨"E025"⟩
def numberTooLong : Code := ⟨"E026"⟩
def tooManyTokens : Code := ⟨"E027"⟩
def actionTooLong : Code := ⟨"E028"⟩

def lexicalMismatch : Code := ⟨"E040"⟩
def trailingInput : Code := ⟨"E041"⟩
def structuralMismatch : Code := ⟨"E042"⟩
def nestingTooDeep : Code := ⟨"E043"⟩

def workerFailure : Code := ⟨"E060"⟩
def validationFailed : Code := ⟨"E061"⟩

def loggingReady : Code := ⟨"I001"⟩
def fileRead : Code := ⟨"I006"⟩
def tokenized : Code := ⟨"I010"⟩
def actionParsed : Code := ⟨"I020"⟩
def validationCompleted : Code := ⟨"I030"⟩

def warning : Code := ⟨"W000"⟩
def info : Code := ⟨"I000"⟩
def debug : Code := ⟨"D000"⟩

end Code

-- What follows from an error: the run stops, the action fails, or nothing is lost.
inductive Disposition
  | halting
  | reported
  | recoverable
deriving DecidableEq, Repr, Inhabited

structure Entry where
  code : Code
  category : String
  severity : Severity
  disposition : Disposition
  description : String
  advice : String
deriving DecidableEq, Repr, Inhabited

namespace Entry

def isRecoverable (e : Entry) : Bool := e.disposition == .recoverable

def requiresHalt (e : Entry) : Bool := e.disposition == .halting

end Entry

def systemEntries : List Entry :=
  [⟨.internalError, "System", .critical, .halting, "Critical internal system error",
      "File a bug report with the failing input"⟩,
    ⟨.startFailure, "System", .critical, .halting, "System initialization failure",
      "Check logging configuration and error code registry"⟩,
    ⟨.configurationError, "System", .high, .halting, "Invalid runtime configuration",
      "Fix the runtime configuration file or ACTION_* environment variables"⟩]

def fileEntries : List Entry :=
  [⟨.fileNotFound, "FileProcessing", .high, .halting, "Action file not found",
      "Verify the file path exists"⟩,
    ⟨.fileTooLarge, "FileProcessing", .high, .halting, "Action file exceeds size limit",
      "Split the action list into smaller files"⟩,
    ⟨.emptyFile, "FileProcessing", .low, .recoverable, "Action file contains no actions",
      "Add at least one action line"⟩,
    ⟨.permissionDenied, "FileProcessing", .high, .halting,
      "Permission denied reading action file", "Check file permissions"⟩,
    ⟨.invalidEncoding, "FileProcessing", .high, .halting, "Action file is not valid UTF-8",
      "Re-encode the file as UTF-8"⟩,
    ⟨.ioError, "FileProcessing", .high, .halting, "I/O error reading action file",
      "Check disk and file system health"⟩,
    ⟨.tooManyActions, "FileProcessing", .high, .halting,
      "Action file exceeds maximum action count", "Split the action list into smaller files"⟩]

def lexicalEntries : List Entry :=
  [⟨.invalidCharacter, "Lexical", .high, .reported, "Character does not start any token",
      "Remove or quote the offending character"⟩,
    ⟨.unterminatedString, "Lexical", .high, .reported,
      "String literal is missing its closing quote", "Add the matching closing quote"⟩,
    ⟨.invalidNumber, "Lexical", .high, .reported, "Malformed number literal",
      "Separate the number from following letters"⟩,
    ⟨.invalidBasedLiteral, "Lexical", .high, .reported, "Malformed based literal",
      "Use base#digits# with a base in 2..16 and digits valid for that base"⟩,
    ⟨.identifierTooLong, "Lexical", .medium, .reported, "Identifier exceeds maximum length",
      "Shorten the identifier"⟩,
    ⟨.stringTooLarge, "Lexical", .medium, .reported, "String literal exceeds maximum size",
      "Shorten the string literal"⟩,
    ⟨.numberTooLong, "Lexical", .medium, .reported, "Number literal has too many digits",
      "Shorten the number literal"⟩,
    ⟨.tooManyTokens, "Lexical", .medium, .reported, "Action produces too many tokens",
      "Simplify the action"⟩,
    ⟨.actionTooLong, "Lexical", .medium, .reported, "Action text exceeds maximum length",
      "Shorten the action"⟩]

def syntaxEntries : List Entry :=
  [⟨.lexicalMismatch, "Syntax", .high, .reported,
      "No grammar alternative matches at this position",
      "Check the action against the assignment and attribute forms"⟩,
    ⟨.trailingInput, "Syntax", .high, .reported, "Action parsed but input remains",
      "Remove the trailing text or join it with an operator"⟩,
    ⟨.structuralMismatch, "Syntax", .high, .reported, "Construct opened but not completed",
      "Close the parenthesis, quote or attribute form"⟩,
    ⟨.nestingTooDeep, "Syntax", .high, .reported, "Nesting depth limit exceeded",
      "Reduce call or parenthesis nesting"⟩]

def batchEntries : List Entry :=
  [⟨.workerFailure, "Batch", .critical, .halting, "Worker thread failed during validation",
      "Retry with --threads 1 and report the failure"⟩,
    ⟨.validationFailed, "Batch", .medium, .recoverable, "Action failed validation",
      "See the accompanying parse error"⟩]

def registry : List Entry :=
  systemEntries ++ fileEntries ++ lexicalEntries ++ syntaxEntries ++ batchEntries

namespace Code

def entry? (c : Code) : Option Entry := registry.find? (·.code == c)

def isRegistered (c : Code) : Bool := c.entry?.isSome

def severity (c : Code) : Severity := (c.entry?.map (·.severity)).getD .medium

def category (c : Code) : String := (c.entry?.map (·.category)).getD "Unknown"

def description (c : Code) : String := (c.entry?.map (·.description)).getD "Unknown error"

def advice (c : Code) : String := (c.entry?.map (·.advice)).getD "No specific action available"

def isRecoverable (c : Code) : Bool := (c.entry?.map (·.isRecoverable)).getD true

def requiresHalt (c : Code) : Bool := (c.entry?.map (·.requiresHalt)).getD false

end Code

def errorCodes : List Code := registry.map (·.code)

theorem errorCodes_registered : ∀ c ∈ errorCodes, c.isRegistered = true := by decide

end StateActions.Log
