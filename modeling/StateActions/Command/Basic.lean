import StateActions.Action.Json
import StateActions.Action.Outline
import StateActions.Command.Options
import StateActions.Configuration
import StateActions.Log.Render
import StateActions.Validation.Basic

namespace StateActions.Command

open Log (Output Event Note)

def version : String := "0.1.0"

def helpLines : List String :=
  ["action_parser v" ++ version,
    "Parse state-machine action expressions",
    "",
    "USAGE:",
    "    action_parser [OPTIONS] <ACTION>...       # Parse each action",
    "    action_parser [OPTIONS] --file <PATH>     # Validate an action file",
    "",
    "OPTIONS:",
    "    --file <PATH>       Validate one action per line (blank and '#' lines skipped)",
    "    --config <PATH>     Load runtime preferences from a TOML file",
    "    --json              Print parsed actions as JSON",
    "    --tree              Print parsed actions as a debug tree",
    "    --threads N         Worker threads for --file (default: 1)",
    "    --fail-fast         Stop --file validation at the first failure",
    "    --quiet             Print failures only",
    "    --help              Show this help message",
    "    --version           Show version",
    "",
    "EXIT STATUS:",
    "    0 every action parsed, 1 a parse failure, 2 usage or I/O error",
    "",
    "EXAMPLES:",
    "    action_parser \"x := f (a, 16#0304#)\"",
    "    action_parser --json \"Chan'Write (c, v)\"",
    "    action_parser --file model.actions --threads 4 --fail-fast"]

structure Clock where
  now : Timestamp := ⟨0, 0⟩
  started : Timestamp := ⟨0, 0⟩
  reading : Nat := 0
  validating : Nat := 0
deriving DecidableEq, Repr, Inhabited

structure Outcome where
  status : Nat
  output : List Output
deriving DecidableEq, Repr, Inhabited

-- The status of a process that a panic ends.
def panicStatus : Nat := 101

def out (line : String) : Output := ⟨.out, line⟩

def err (line : String) : Output := ⟨.err, line⟩

abbrev JsonWriter := Action → Except String String

def prettyJson : JsonWriter := fun a => .ok (a.toJson.pretty "")

def render (json : JsonWriter) (format : Format) (a : Action) : Except String String :=
  match format with
  | .canonical => .ok a.print
  | .json => json a
  | .tree => .ok (a.outline.indented "")

structure FileWork where
  path : String
  file : Except FileError (Nat × ActionFile)
  batch : Preferences.Batch
  run : Option Validation.Run

structure Work where
  preferences : Preferences
  actions : List (String × Parsed)
  file : Option FileWork

def grammarOf (p : Preferences) : Grammar := { parser := p.parser, lexical := p.lexical }

def batchOf (o : Options) (p : Preferences.Batch) : Preferences.Batch :=
  { maxThreads := o.threads.getD p.maxThreads
    failFast := p.failFast || o.failFast
    progress := p.progress && !o.quiet }

def FileWork.ofFile (g : Grammar) (batch : Preferences.Batch) (path : String)
    (file : Except FileError (Nat × ActionFile)) : FileWork :=
  { path, file, batch
    run := match file with
      | .ok (_, f) => some (Validation.run g batch path f.entries)
      | .error _ => none }

def work (host : Host) (o : Options) (p : Preferences) : Work :=
  let g := grammarOf p
  { preferences := p
    actions := o.actions.map fun text => (text, g.parse text)
    file := o.file.map fun path =>
      .ofFile g (batchOf o p.batch) path (ActionFile.read host path) }

structure Telling where
  clock : Clock
  session : Log.Session
  lines : List Output := []
  status : Nat := 0

namespace Telling

def flush (t : Telling) : Telling :=
  let written := t.session.delivered.filterMap
    (·.output? t.session.preferences t.clock.now)
  { t with session := { t.session with delivered := [] }, lines := written ++ t.lines }

def notes (t : Telling) (notes : List Note) : Telling :=
  { t with session := t.session.noteAll notes }.flush

def events (t : Telling) (events : List Event) : Telling :=
  t.notes (events.map fun event => { event })

def print (t : Telling) (lines : List Output) : Telling :=
  { t with lines := lines.reverse ++ t.lines }

def raise (t : Telling) (status : Nat) : Telling := { t with status := max t.status status }

def action (json : JsonWriter) (format : Format) (t : Telling) (parsed : String × Parsed) :
    Telling :=
  let t := t.events parsed.2.events
  match parsed.2.result with
  | .ok a =>
    match render json format a with
    | .ok text => t.print [out text]
    | .error problem => (t.print [err ("error: failed to serialize action: " ++ problem)]).raise 2
  | .error e => (t.print [err (e.report parsed.1)]).raise 1

def results (t : Telling) (path : String) (r : Results) : Telling :=
  let warnings := t.session.collector.summary.warnings
  t.print (
    [out path, out ("  " ++ r.summary t.clock.validating),
      out ("  Started: " ++ t.clock.started.plainText)] ++
    if warnings > 0 then [out s!"  Warnings logged: {warnings}"] else [])

-- The failures of a file: the first in full, the others by a line each.
def failures (t : Telling) (path : String) (r : Results) : Telling :=
  match r.failures with
  | [] => t
  | first :: rest =>
    (t.print (err (first.report path) ::
      rest.map fun f => err (path ++ s!":{f.line}: " ++ f.error.message))).raise 1

def file (quiet : Bool) (t : Telling) (w : FileWork) : Telling :=
  let t := t.events (ActionFile.events w.path (!quiet) t.clock.reading w.file)
  match w.file, w.run with
  | .error e, _ => (t.print [err ("error: " ++ e.message)]).raise 2
  | .ok _, none => t
  | .ok (_, f), some run =>
    let t := t.notes (Validation.notes w.batch w.path f.entries run t.clock.validating)
    match run.outcome with
    | .error (.worker e) => (t.print [err ("error: " ++ e.message)]).raise 2
    | .error .panic => t.raise panicStatus
    | .ok r =>
      let t := if quiet then t else t.results w.path r
      t.failures w.path r

def outcome (t : Telling) : Outcome := ⟨t.status, t.lines.reverse⟩

end Telling

-- A run that could not begin. Nothing is set up to log it, so it is written as it is.
def refused (code : Log.Code) (message : String) : Outcome :=
  match ({} : Log.Session).safeError code message with
  | (some line, _) => ⟨2, [err line]⟩
  | (none, _) => ⟨2, []⟩

def tell (json : JsonWriter) (clock : Clock) (o : Options) (w : Work) : Outcome :=
  let logging := w.preferences.logging
  match ({ preferences := logging } : Log.Session).start logging.minLevel with
  | .error problem => refused .startFailure problem
  | .ok session =>
    let begun : Telling := Telling.flush { clock, session }
    let spoken := w.actions.foldl (Telling.action json o.format) begun
    (match w.file with
      | some file => spoken.file o.quiet file
      | none => spoken).outcome

inductive Plan
  | done (outcome : Outcome)
  | run (options : Options) (preferences : Preferences)

def preferencesFor (env : Environment) (host : Host) (o : Options) : Except String Preferences :=
  let loaded := match o.config with
    | some path => (Configuration.load env host path).mapError ConfigError.message
    | none => .ok env.preferences
  match loaded with
  | .error message => .error message
  | .ok p =>
    match p.logging.problem? with
    | some problem => .error problem
    | none => .ok p

def plan (env : Environment) (host : Host) (args : List String) : Plan :=
  match Options.parse args with
  | .error e =>
    .done ⟨2, [err ("error: " ++ e.message), err "Try 'action_parser --help' for usage."]⟩
  | .ok o =>
    if o.showHelp then .done ⟨0, helpLines.map out⟩
    else if o.showVersion then .done ⟨0, [out ("action_parser " ++ version)]⟩
    else match preferencesFor env host o with
      | .error message => .done (refused .configurationError message)
      | .ok p => .run o p

def run (env : Environment) (host : Host) (json : JsonWriter) (clock : Clock)
    (args : List String) : Outcome :=
  match plan env host args with
  | .done outcome => outcome
  | .run o p => tell json clock o (work host o p)

end StateActions.Command
