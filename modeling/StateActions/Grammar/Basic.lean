import StateActions.Grammar.Production
import StateActions.Text.Outline
import StateActions.Token.Lexer

namespace StateActions

structure Grammar where
  arithmetic : ArithmeticRule := PrecedenceClimbing.rule
  parser : Preferences.Parser := {}
  lexical : Preferences.Lexical := {}

-- The outcome of one parse. After a breakdown of the arithmetic rule there is no answer and
-- `result` means nothing.
structure Parsed where
  result : Except ParseError Action
  events : List Log.Event
  crashed : Bool := false

namespace Grammar

open Log (Event)

def contextEvent (entered : String × Nat) : Event :=
  (Event.debug "Entering parsing context").withContext
    [("context", entered.1), ("depth", toString entered.2)]

def parsedEvent (action : Action) (length : Nat) : Event :=
  (Event.debug "Action parsed").withContext
    [("kind", action.kind), ("length", toString length)]

def errorEvent (e : ParseError) (context source : String) : Event :=
  ((Event.error e.code e.message).withSpan e.span).withContext
    [("context", context), ("source", source)]

def outcomeEvents (g : Grammar) (text : String) (outcome : Except ParseError Action)
    (c : Cursor) : List Event :=
  if c.crashed then []
  else match outcome with
    | .ok action =>
      if g.parser.parseEvents then [parsedEvent action text.utf8ByteSize] else []
    | .error e => [errorEvent e c.context (if g.parser.sourceSnippet then text else "")]

def parseTokens (g : Grammar) (tokens : List PlacedToken) : Except ParseError Action × Cursor :=
  (Parser.completeAction g.arithmetic).runAt (.start (.ofTokens tokens) g.parser.depth)

def parse (g : Grammar) (text : String) : Parsed :=
  let cut := Tokenization.ofText g.lexical text
  match cut.tokens with
  | .error e => ⟨.error (.ofLexError e), cut.events, false⟩
  | .ok tokens =>
    let (outcome, c) := g.parseTokens tokens
    ⟨outcome, cut.events ++ c.entered.reverse.map contextEvent ++ g.outcomeEvents text outcome c,
      c.crashed⟩

def allParsedEvent (count : Nat) : Event :=
  (Event.success .actionParsed "All actions parsed").withContext [("count", toString count)]

def parseAll (g : Grammar) (texts : List String) :
    Except (Nat × ParseError) (List Action) × List Event :=
  go 0 [] [] texts
where
  go (index : Nat) (actions : List Action) (events : List Event) :
      List String → Except (Nat × ParseError) (List Action) × List Event
    | [] => (.ok actions.reverse, events ++ [allParsedEvent actions.length])
    | text :: rest =>
      let parsed := g.parse text
      match parsed.result with
      | .ok action => go (index + 1) (action :: actions) (events ++ parsed.events) rest
      | .error e => (.error (index, e), events ++ parsed.events)

def outline (g : Grammar) : Outline :=
  .record "ActionGrammar"
    [("arithmetic", .quoted g.arithmetic.name),
      ("parser_preferences", .record "ParserPreferences"
        [("max_parse_depth", .nat g.parser.maxDepth),
          ("log_parse_events", .bool g.parser.parseEvents),
          ("include_source_snippet", .bool g.parser.sourceSnippet)])]

end Grammar

def parse (text : String) : Except ParseError Action := (({} : Grammar).parse text).result

end StateActions
