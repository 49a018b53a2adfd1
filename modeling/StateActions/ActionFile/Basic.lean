import StateActions.ActionFile.Entry
import StateActions.ActionFile.Host
import StateActions.Log.Event
import StateActions.Number.Binary64

namespace StateActions

structure ActionFile where
  path : String
  size : Nat
  lineCount : Nat
  entries : List Entry
deriving DecidableEq, Repr, Inhabited

namespace ActionFile

open Log (Event)

-- Divides by 1024 until the number is small or the units are used up.
def scaleSize (x : Binary64) (unit : String) : List String → String
  | [] => x.fixed 2 ++ " " ++ unit
  | larger :: rest =>
    if x.below 1024 then x.fixed 2 ++ " " ++ unit
    else scaleSize (x.div (.ofNat 1024)) larger rest

def humanSize (size : Nat) : String :=
  if size < 1024 then s!"{size} B"
  else scaleSize ((Binary64.ofNat size).div (.ofNat 1024)) "KB" ["MB", "GB"]

def ofPathProblem (path : String) : PathProblem → FileError
  | .notFound => .notFound path
  | .permissionDenied => .permissionDenied path
  | problem => .unreadable path problem.message

-- The length of the text is told with the file. The size is the one that the system reports.
def ofContent (path : String) (size : Nat) (content : ByteArray) :
    Except FileError (Nat × ActionFile) :=
  match Text.decodeUtf8 content with
  | .error offset => .error (.invalidEncoding path offset)
  | .ok source =>
    match Entry.extract source with
    | .error e => .error e
    | .ok entries =>
      .ok (source.utf8ByteSize, ⟨path, size, (Text.lines source.toList).length, entries⟩)

def read (host : Host) (path : String) : Except FileError (Nat × ActionFile) :=
  match host path with
  | .error problem => .error (ofPathProblem path problem)
  | .ok .directory => .error (.notRegular path)
  | .ok (.file length content) =>
    if length > Limits.fileSize then .error (.tooLarge length Limits.fileSize)
    else if length = 0 then .error (.empty path)
    else match content with
      | .error problem => .error (ofPathProblem path problem)
      | .ok bytes => ofContent path length bytes

def milliseconds (nanoseconds : Nat) : String :=
  ((Binary64.ofNanoseconds nanoseconds).mul (.ofNat 1000)).fixed 2

def startEvent (path : String) : Event :=
  (Event.debug "Starting file processing").withContext [("file", path)]

def errorEvent (path : String) (e : FileError) : Event :=
  (Event.error e.code e.message).withContext [("file", path)]

def successEvent (detailed : Bool) (nanoseconds length : Nat) (f : ActionFile) : Event :=
  if detailed then
    (Event.success .fileRead "Action file processed with performance metrics").withContext
      [("file", f.path), ("size_human", humanSize f.size), ("bytes", toString length),
        ("lines", toString f.lineCount), ("actions", toString f.entries.length),
        ("duration_ms", milliseconds nanoseconds)]
  else
    (Event.success .fileRead "Action file processed").withContext
      [("file", f.path), ("actions", toString f.entries.length)]

def events (path : String) (detailed : Bool) (nanoseconds : Nat) :
    Except FileError (Nat × ActionFile) → List Event
  | .ok (length, f) => [startEvent path, successEvent detailed nanoseconds length f]
  | .error e => [startEvent path, errorEvent path e]

end ActionFile

end StateActions
