import StateActions.Action.Basic
import StateActions.Action.Json
import StateActions.Action.Outline
import StateActions.Action.Printer
import StateActions.ActionFile.Basic
import StateActions.ActionFile.Entry
import StateActions.ActionFile.Host
import StateActions.Command.Basic
import StateActions.Command.Options
import StateActions.Configuration
import StateActions.Grammar.Arithmetic
import StateActions.Grammar.Basic
import StateActions.Grammar.Cursor
import StateActions.Grammar.Error
import StateActions.Grammar.Production
import StateActions.Json.Basic
import StateActions.Json.Library
import StateActions.Json.Reader
import StateActions.Limits
import StateActions.Log.Buffer
import StateActions.Log.Code
import StateActions.Log.Collector
import StateActions.Log.Event
import StateActions.Log.Render
import StateActions.Log.Session
import StateActions.Main
import StateActions.Number.Binary64
import StateActions.Number.Decimal
import StateActions.Number.Timestamp
import StateActions.Preferences
import StateActions.Readiness
import StateActions.Source.LineTable
import StateActions.Source.Position
import StateActions.Text.Basic
import StateActions.Text.Outline
import StateActions.Text.Printable
import StateActions.Token.Basic
import StateActions.Token.Error
import StateActions.Token.Lexer
import StateActions.Token.Metrics
import StateActions.Token.Numeral
import StateActions.Token.Stream
import StateActions.Toml.Basic
import StateActions.Toml.Reader
import StateActions.Toml.Scalar
import StateActions.Validation.Basic
import StateActions.Validation.Results
import StateActions.Proofs.Parser.Run
import StateActions.Proofs.Parser.Soundness
import StateActions.Proofs.Parser.Completeness
import StateActions.Proofs.Parser.Acceptance
import StateActions.Proofs.Token.Spelling
import StateActions.Proofs.Action.WellFormed
import StateActions.Proofs.Parse
import StateActions.Proofs.Action.Printing
import StateActions.Proofs.Action.RoundTrip
import StateActions.Proofs.Parser.Foresight
import StateActions.Proofs.Parser.Failure
import StateActions.Proofs.Token.LexicalGrammar
import StateActions.Proofs.Token.Places
import StateActions.Proofs.Parser.FirstError
import StateActions.Proofs.Validation.Agreement
import StateActions.Proofs.Parser.Interface
import StateActions.Proofs.Parser.Checkpoint
import StateActions.Proofs.Action.Json
import StateActions.Proofs.Log.Reports
import StateActions.Proofs.ActionFile.Reading
import StateActions.Proofs.Command.Status
import StateActions.Proofs.Log.Collector
import StateActions.Proofs.Log.Session
import StateActions.Proofs.Validation.Interleaving
import StateActions.Proofs.Parser.DepthLimit
import StateActions.Proofs.LimitError
import StateActions.Proofs.Parser.LongestPrefix
import StateActions.Proofs.Action.FewestTokens
import StateActions.Proofs.Log.Context
import StateActions.Proofs.Source.LineTable
import StateActions.Proofs.Token.Tiling
import StateActions.Proofs.Source.Spans
import StateActions.Proofs.Log.Outcome
import StateActions.Proofs.Source.Excerpt
import StateActions.Proofs.Action.Numerals
import StateActions.Proofs.Parser.Relocation
import StateActions.Proofs.Blanks
import StateActions.Proofs.Token.Rendering
import StateActions.Proofs.ActionFile.Extraction
import StateActions.Proofs.Log.Conservation
import StateActions.Proofs.Validation.Locations
import StateActions.Proofs.Log.Program
import StateActions.Proofs.Token.Stream
import StateActions.Proofs.Token.Metrics
