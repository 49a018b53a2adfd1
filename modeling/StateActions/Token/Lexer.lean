import StateActions.Log.Event
import StateActions.Preferences
import StateActions.Text.Basic
import StateActions.Token.Basic
import StateActions.Token.Error
import StateActions.Token.Metrics
import StateActions.Token.Numeral

namespace StateActions

structure PlacedToken where
  token : Token
  span : Span
deriving DecidableEq, Repr, Inhabited

structure Lexeme where
  token : Token
  text : List Char
  rest : List Char
  measure : Measure := .plain

namespace Lexer

open Text

def isNameStart (c : Char) : Bool := c.isAlpha

def isNameChar (c : Char) : Bool := c.isAlphanum || c == '_'

def nextSpan (start : Position) : List Char → Span
  | [] => .point start
  | c :: _ => ⟨start, start.advance c⟩

def describeNext : List Char → String
  | [] => "end of input"
  | c :: _ => "'" ++ ("".push c) ++ "'"

def word (start : Position) (c : Char) (rest : List Char) : Except LexError Lexeme :=
  let text := c :: rest.takeWhile isNameChar
  if text.length > Limits.identifierLength then
    .error (.identifierTooLong text.length ⟨start, start.advanceList text⟩)
  else
    .ok { token := .ofWord (String.ofList text), text, rest := rest.dropWhile isNameChar }

-- A string literal runs to the next quote of its own kind. Its size is checked before its end.
def quoted (start : Position) (quote : Quote) (rest : List Char) : Except LexError Lexeme :=
  let content := rest.takeWhile (· != quote.char)
  let size := byteLength content
  let reached := start.advanceList (quote.char :: content)
  if size > Limits.stringSize then .error (.stringTooLarge size ⟨start, reached⟩)
  else match rest.dropWhile (· != quote.char) with
    | [] => .error (.unterminatedString quote.char start.offset (.point reached))
    | close :: left =>
      .ok { token := .string (String.ofList content) quote
            text := quote.char :: (content ++ [close])
            rest := left
            measure := .content size }

-- A numeral may not run into a name: letters glued to it make one malformed text.
def delimited (start : Position) (l : Lexeme) : Except LexError Lexeme :=
  match l.rest.takeWhile isNameChar with
  | [] => .ok l
  | glued =>
    let text := l.text ++ glued
    .error (.invalidNumber (String.ofList text) ⟨start, start.advanceList text⟩)

def basedDigits (start : Position) (digits rest : List Char) : Except LexError Lexeme :=
  let base := Numeral.value 10 digits
  if !Numeral.isBase base then
    .error (.invalidBasedLiteral "base between 2 and 16" ("base " ++ String.ofList digits)
      ⟨start, start.advanceList digits⟩)
  else
    let body := rest.takeWhile (Numeral.isDigitIn base)
    let reached := start.advanceList (digits ++ '#' :: body)
    let digitExpected := s!"digit valid in base {base}"
    match rest.dropWhile (Numeral.isDigitIn base) with
    | [] =>
      .error (.invalidBasedLiteral (if body.isEmpty then digitExpected else "closing '#'")
        (describeNext []) (nextSpan reached []))
    | c :: left =>
      if c ≠ '#' ∨ body.isEmpty then
        .error (.invalidBasedLiteral digitExpected (describeNext (c :: left))
          (nextSpan reached (c :: left)))
      else if body.length > Limits.numberDigits then
        .error (.numberTooLong body.length ⟨start, reached⟩)
      else
        delimited start
          { token := .number (Numeral.value base body)
            text := digits ++ '#' :: (body ++ [c])
            rest := left
            measure := .numeral digits.length true }

def numeral (start : Position) (c : Char) (rest : List Char) : Except LexError Lexeme :=
  let digits := c :: rest.takeWhile Char.isDigit
  if digits.length > Limits.numberDigits then
    .error (.numberTooLong digits.length ⟨start, start.advanceList digits⟩)
  else match rest.dropWhile Char.isDigit with
    | '#' :: left => basedDigits start digits left
    | left =>
      delimited start
        { token := .number (Numeral.value 10 digits)
          text := digits
          rest := left
          measure := .numeral digits.length false }

-- The token that starts with `c` at `start`. A single quote right after a name is a tick.
def lexeme (afterName : Bool) (start : Position) (c : Char) (rest : List Char) :
    Except LexError Lexeme :=
  if c = ' ' then .ok { token := .space, text := [c], rest }
  else if c = '\t' then .ok { token := .tab, text := [c], rest }
  else if c = '\n' then .ok { token := .newline, text := [c], rest }
  else if c = '\r' then
    match rest with
    | '\n' :: left => .ok { token := .newline, text := [c, '\n'], rest := left }
    | _ => .ok { token := .newline, text := [c], rest }
  else if c = ':' then
    match rest with
    | '=' :: left => .ok { token := .assign, text := [c, '='], rest := left }
    | _ => .error (.invalidCharacter c "':='" ⟨start, start.advance c⟩)
  else if c = '\x27' then
    if afterName then .ok { token := .tick, text := [c], rest } else quoted start .single rest
  else if c = '\x22' then quoted start .double rest
  else if c.isDigit then numeral start c rest
  else if isNameStart c then word start c rest
  else match Token.ofSymbol? c with
    | some token => .ok { token, text := [c], rest }
    | none => .error (.invalidCharacter c "a token" ⟨start, start.advance c⟩)

theorem delimited_ok {start : Position} {l m : Lexeme} (ok : delimited start l = .ok m) :
    m = l := by
  unfold delimited at ok
  split at ok
  · exact (Except.ok.inj ok).symm
  · cases ok

theorem word_splits {start : Position} {c : Char} {rest : List Char} {l : Lexeme}
    (ok : word start c rest = .ok l) : ∃ more, l.text = c :: more ∧ more ++ l.rest = rest := by
  unfold word at ok
  simp only at ok
  split at ok
  · cases ok
  · cases ok
    exact ⟨_, rfl, List.takeWhile_append_dropWhile⟩

theorem quoted_splits {start : Position} {q : Quote} {rest : List Char} {l : Lexeme}
    (ok : quoted start q rest = .ok l) :
    ∃ more, l.text = q.char :: more ∧ more ++ l.rest = rest := by
  unfold quoted at ok
  simp only at ok
  split at ok
  · cases ok
  · split at ok
    · cases ok
    · next close left found =>
      cases ok
      have whole := List.takeWhile_append_dropWhile (l := rest) (p := (· != q.char))
      rw [found] at whole
      exact ⟨_, rfl, by simpa using whole⟩

theorem basedDigits_splits {start : Position} {digits rest : List Char} {l : Lexeme}
    (ok : basedDigits start digits rest = .ok l) :
    ∃ more, l.text = digits ++ '#' :: more ∧ more ++ l.rest = rest := by
  unfold basedDigits at ok
  simp only at ok
  split at ok
  · cases ok
  · split at ok
    · cases ok
    · next c left found =>
      split at ok
      · cases ok
      · split at ok
        · cases ok
        · have same := delimited_ok ok
          subst same
          have whole := List.takeWhile_append_dropWhile (l := rest)
            (p := Numeral.isDigitIn (Numeral.value 10 digits))
          rw [found] at whole
          exact ⟨_, rfl, by simpa using whole⟩

theorem numeral_splits {start : Position} {c : Char} {rest : List Char} {l : Lexeme}
    (ok : numeral start c rest = .ok l) : ∃ more, l.text = c :: more ∧ more ++ l.rest = rest := by
  unfold numeral at ok
  simp only at ok
  have whole := List.takeWhile_append_dropWhile (l := rest) (p := Char.isDigit)
  split at ok
  · cases ok
  · split at ok
    · next left found =>
      obtain ⟨more, text, left_eq⟩ := basedDigits_splits ok
      refine ⟨rest.takeWhile Char.isDigit ++ '#' :: more, text, ?_⟩
      rw [List.append_assoc, List.cons_append, left_eq, ← found]
      exact whole
    · have same := delimited_ok ok
      subst same
      exact ⟨_, rfl, whole⟩

theorem lexeme_splits {afterName : Bool} {start : Position} {c : Char} {rest : List Char}
    {l : Lexeme} (ok : lexeme afterName start c rest = .ok l) :
    ∃ more, l.text = c :: more ∧ more ++ l.rest = rest := by
  unfold lexeme at ok
  split at ok
  · cases ok; exact ⟨[], rfl, rfl⟩
  split at ok
  · cases ok; exact ⟨[], rfl, rfl⟩
  split at ok
  · cases ok; exact ⟨[], rfl, rfl⟩
  split at ok
  · split at ok <;> cases ok
    · exact ⟨['\n'], rfl, rfl⟩
    · exact ⟨[], rfl, rfl⟩
  split at ok
  · split at ok <;> cases ok
    exact ⟨['='], rfl, rfl⟩
  split at ok
  · next quote =>
    split at ok
    · cases ok; exact ⟨[], rfl, rfl⟩
    · subst quote; exact quoted_splits ok
  split at ok
  · next quote => subst quote; exact quoted_splits ok
  split at ok
  · exact numeral_splits ok
  split at ok
  · exact word_splits ok
  split at ok <;> cases ok
  exact ⟨[], rfl, rfl⟩

theorem lexeme_rest_lt {afterName : Bool} {start : Position} {c : Char} {rest : List Char}
    {l : Lexeme} (ok : lexeme afterName start c rest = .ok l) :
    l.rest.length < (c :: rest).length := by
  obtain ⟨more, -, whole⟩ := lexeme_splits ok
  rw [← whole, List.length_cons, List.length_append]
  omega

structure Scan where
  tokens : Except LexError (List PlacedToken)
  metrics : Metrics

-- Cuts the rest of a text that begins at `start`. The tokens found so far are `done`, the last one
-- first. The number of tokens is checked before each further one.
def scan (detailed : Bool) (start : Position) (done : List PlacedToken) (metrics : Metrics)
    (input : List Char) : Scan :=
  match input with
  | [] => ⟨.ok (⟨.eof, .point start⟩ :: done).reverse, metrics⟩
  | c :: rest =>
    if metrics.total ≥ Limits.tokenCount then
      ⟨.error (.tooManyTokens metrics.total ⟨start, start.advance c⟩), metrics⟩
    else
      match _found : lexeme (done.head?.any (·.token.isIdentifier)) start c rest with
      | .error e => ⟨.error e, metrics⟩
      | .ok l =>
        let stop := start.advanceList l.text
        scan detailed stop (⟨l.token, ⟨start, stop⟩⟩ :: done)
          (metrics.record detailed l.token l.measure) l.rest
termination_by input.length
decreasing_by exact lexeme_rest_lt _found

def run (detailed : Bool) (source : String) : Scan :=
  if source.utf8ByteSize > Limits.actionLength then
    ⟨.error (.actionTooLong source.utf8ByteSize (.point .start)), {}⟩
  else scan detailed .start [] {} source.toList

end Lexer

structure Tokenization where
  tokens : Except LexError (List PlacedToken)
  metrics : Metrics
  events : List Log.Event

namespace Tokenization

open Log (Event)

def startEvent (length : Nat) : Event :=
  (Event.debug "Starting lexical analysis").withContext
    [("length", toString length), ("max_tokens_allowed", toString Limits.tokenCount)]

def statisticsEvent (m : Metrics) : Event :=
  (Event.success .tokenized "Lexical analysis completed").withContext
    [("token_count", toString m.total), ("identifiers", toString m.identifiers),
      ("literals", toString m.literals), ("operators", toString m.operators),
      ("based_literals", toString m.basedLiterals),
      ("max_string_length", toString m.maxStringLength)]

def errorEvent (e : LexError) (m : Metrics) : Event :=
  ((Event.error e.code e.message).withSpan e.span).withContext
    [("tokens_processed", toString m.total)]

-- Cuts `source` into tokens. The start is logged unless the text is too long to be looked at.
def ofText (preferences : Preferences.Lexical) (source : String) : Tokenization :=
  let scan := Lexer.run preferences.detailedMetrics source
  let started :=
    if source.utf8ByteSize > Limits.actionLength then [] else [startEvent source.utf8ByteSize]
  let finished := match scan.tokens with
    | .ok _ => if preferences.tokenStatistics then [statisticsEvent scan.metrics] else []
    | .error e => [errorEvent e scan.metrics]
  ⟨scan.tokens, scan.metrics, started ++ finished⟩

end Tokenization

structure Analyzer where
  preferences : Preferences.Lexical := {}
  metrics : Metrics := {}

namespace Analyzer

def tokenize (a : Analyzer) (source : String) : Tokenization × Analyzer :=
  let found := Tokenization.ofText a.preferences source
  (found, { a with metrics := found.metrics })

end Analyzer

end StateActions
