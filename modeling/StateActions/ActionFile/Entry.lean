import StateActions.Limits
import StateActions.Log.Code
import StateActions.Text.Basic

namespace StateActions

structure Entry where
  line : Nat
  text : String
deriving DecidableEq, Repr, Inhabited

inductive FileError
  | notFound (path : String)
  | notRegular (path : String)
  | tooLarge (size maximum : Nat)
  | empty (path : String)
  | permissionDenied (path : String)
  | invalidEncoding (path : String) (offset : Nat)
  | unreadable (path message : String)
  | tooManyActions (count maximum : Nat)
deriving DecidableEq, Repr, Inhabited

namespace FileError

def message : FileError → String
  | .notFound path => "File not found: " ++ path
  | .notRegular path => "Not a regular file: " ++ path
  | .tooLarge size maximum => s!"File too large: {size} bytes (max: {maximum})"
  | .empty path => "File is empty: " ++ path
  | .permissionDenied path => "Permission denied: " ++ path
  | .invalidEncoding path offset =>
    "Invalid UTF-8 encoding in file " ++ path ++ s!" at byte {offset}"
  | .unreadable path message => "I/O error reading " ++ path ++ ": " ++ message
  | .tooManyActions count maximum => s!"Too many actions: {count} (max: {maximum})"

def code : FileError → Log.Code
  | .notFound _ => .fileNotFound
  | .notRegular _ | .unreadable .. => .ioError
  | .tooLarge .. => .fileTooLarge
  | .empty _ => .emptyFile
  | .permissionDenied _ => .permissionDenied
  | .invalidEncoding .. => .invalidEncoding
  | .tooManyActions .. => .tooManyActions

end FileError

namespace Entry

def ofLine? (number : Nat) (line : List Char) : Option Entry :=
  match Text.trim line with
  | [] => none
  | '#' :: _ => none
  | text => some ⟨number, String.ofList text⟩

def addLine (entries : Array Entry) (line : List Char × Nat) : Except FileError (Array Entry) :=
  match ofLine? line.2 line.1 with
  | none => .ok entries
  | some entry =>
    if entries.size ≥ Limits.actionsPerFile then
      .error (.tooManyActions (entries.size + 1) Limits.actionsPerFile)
    else .ok (entries.push entry)

def extract (source : String) : Except FileError (List Entry) :=
  (((Text.lines source.toList).zipIdx 1).foldlM addLine #[]).map Array.toList

end Entry

end StateActions
