import Std.Time.DateTime.Timestamp
import StateActions.Command.Basic

namespace StateActions.Program

def variableNames : List String :=
  ["ACTION_LEXICAL_DETAILED_METRICS", "ACTION_LEXICAL_LOG_TOKEN_STATS", "ACTION_PARSER_MAX_DEPTH",
    "ACTION_PARSER_LOG_EVENTS", "ACTION_PARSER_SOURCE_SNIPPET", "ACTION_BATCH_THREADS",
    "ACTION_BATCH_FAIL_FAST", "ACTION_BATCH_PROGRESS", "ACTION_LOGGING_USE_STRUCTURED",
    "ACTION_LOGGING_ENABLE_CONSOLE", "ACTION_LOGGING_MIN_LEVEL",
    "ACTION_LOGGING_INCLUDE_SOURCE_CONTEXT"]

def environment : IO Environment := do
  let values ← variableNames.mapM fun name => return (name, ← IO.getEnv name)
  return fun name => (values.find? (·.1 == name)).bind (·.2)

-- The system's number of a problem, which some calls give with its sign turned.
def systemCode (code : UInt32) : UInt32 := if code ≥ 0x80000000 then 0 - code else code

def ofIoError : IO.Error → PathProblem
  | .noFileOrDirectory .. => .notFound
  | .permissionDenied .. => .permissionDenied
  | .inappropriateType _ code details | .resourceExhausted _ code details
  | .invalidArgument _ code details | .otherError code details =>
    let code := systemCode code
    if code = 20 then .notADirectory
    else if code = 36 then .nameTooLong
    else .other s!"{details} (os error {code})"
  | problem => .other (toString problem)

def content (path : String) : IO (Except PathProblem ByteArray) := do
  try return .ok (← IO.FS.readBinFile path) catch problem => return .error (ofIoError problem)

def open? (path : String) : IO (Except PathProblem FileNode) := do
  if path = "" then return .error .notFound
  if path.contains '\x00' then return .error .nulByte
  try
    let metadata ← ((← IO.currentDir) / path).metadata
    if metadata.type != .file then return .ok .directory
    return .ok (.file metadata.byteSize.toNat (← content path))
  catch problem => return .error (ofIoError problem)

def hostOf (paths : List String) : IO Host := do
  let nodes ← paths.mapM fun path => return (path, ← open? path)
  return fun path => ((nodes.find? (·.1 == path)).map (·.2)).getD (.error .notFound)

def now : IO Timestamp := do
  let moment := (← Std.Time.Timestamp.now).val
  return ⟨moment.second.val, moment.nano.val.toNat⟩

def write (outcome : Command.Outcome) : IO UInt32 := do
  for line in outcome.output do
    match line.channel with
    | .out => IO.println line.line
    | .err => IO.eprintln line.line
  return outcome.status.toUInt32

def run (args : List String) : IO UInt32 := do
  let env ← environment
  let paths := match Command.Options.parse args with
    | .ok o => o.config.toList ++ o.file.toList
    | .error _ => []
  let opened ← IO.monoNanosNow
  let host ← hostOf paths
  match Command.plan env host args with
  | .done outcome => write outcome
  | .run o p =>
    let started ← now
    let begun ← IO.monoNanosNow
    let work ← IO.lazyPure fun _ => Command.work host o p
    let done ← IO.monoNanosNow
    write (Command.tell Command.prettyJson
      { now := started, started, reading := begun - opened, validating := done - begun } o work)

end StateActions.Program

def main (args : List String) : IO UInt32 := StateActions.Program.run args
