import StateActions.Proofs.Action.RoundTrip
import StateActions.Proofs.Parser.DepthLimit

namespace StateActions

def LimitKind.maximum (depth : Nat) : LimitKind → Nat
  | .actionLength => Limits.actionLength
  | .identifierLength => Limits.identifierLength
  | .stringSize => Limits.stringSize
  | .numberDigits => Limits.numberDigits
  | .tokenCount => Limits.tokenCount
  | .nestingDepth => depth

-- The value an error tells is too much for its limit. The tokens that are told do not include the
-- one that is too many.
def LexError.Measured : LexError → Prop
  | .actionTooLong length _ => Limits.actionLength < length
  | .identifierTooLong length _ => Limits.identifierLength < length
  | .stringTooLarge size _ => Limits.stringSize < size
  | .numberTooLong digits _ => Limits.numberDigits < digits
  | .tooManyTokens count _ => count = Limits.tokenCount
  | _ => True

namespace Lexer

variable {afterName detailed : Bool} {start : Position} {c : Char} {rest : List Char} {e : LexError}

theorem word_measured (failed : word start c rest = .error e) : e.Measured := by
  unfold word at failed
  simp only at failed
  split at failed
  · next long =>
    cases failed
    exact long
  · cases failed

theorem quoted_measured {quote : Quote} (failed : quoted start quote rest = .error e) :
    e.Measured := by
  unfold quoted at failed
  simp only at failed
  split at failed
  · next large =>
    cases failed
    exact large
  · split at failed
    · cases failed
      trivial
    · cases failed

theorem delimited_measured {l : Lexeme} (failed : delimited start l = .error e) : e.Measured := by
  unfold delimited at failed
  split at failed
  · cases failed
  · cases failed
    trivial

theorem basedDigits_measured {digits : List Char}
    (failed : basedDigits start digits rest = .error e) : e.Measured := by
  unfold basedDigits at failed
  simp only at failed
  split at failed
  · cases failed
    trivial
  · split at failed
    · cases failed
      trivial
    · split at failed
      · cases failed
        trivial
      · split at failed
        · next long =>
          cases failed
          exact long
        · exact delimited_measured failed

theorem numeral_measured (failed : numeral start c rest = .error e) : e.Measured := by
  unfold numeral at failed
  simp only at failed
  split at failed
  · next long =>
    cases failed
    exact long
  · split at failed
    · exact basedDigits_measured failed
    · exact delimited_measured failed

theorem lexeme_measured (failed : lexeme afterName start c rest = .error e) : e.Measured := by
  rcases lexeme_error failed with ⟨expected, rfl⟩ | ⟨quote, -, begun⟩ | begun | begun
  · trivial
  · exact quoted_measured begun
  · exact numeral_measured begun
  · exact word_measured begun

section Scan

variable {done : List PlacedToken} {metrics : Metrics} {input : List Char}

-- No more tokens than allowed are ever counted, so where the count is checked it is the limit.
theorem scan_measured (few : metrics.total ≤ Limits.tokenCount)
    (failed : (scan detailed start done metrics input).tokens = .error e) : e.Measured := by
  fun_induction scan detailed start done metrics input with
  | case1 => cases failed
  | case2 start done metrics c rest full =>
    cases failed
    exact Nat.le_antisymm few full
  | case3 start done metrics c rest below e' found =>
    cases failed
    exact lexeme_measured found
  | case4 start done metrics c rest below l found stop ih =>
    refine ih ?_ failed
    rw [Metrics.record_total]
    omega

theorem run_measured {source : String} (failed : (run detailed source).tokens = .error e) :
    e.Measured := by
  unfold run at failed
  split at failed
  · next long =>
    cases failed
    exact long
  · exact scan_measured (Nat.zero_le _) failed

theorem scan_spelled_full {previous : Token} {tokens : List Token}
    (readable : Token.Readable previous tokens) (formed : ∀ t ∈ tokens, t.WellFormed)
    (fits : ∀ t ∈ tokens, t.DigitsFit)
    (last : done.head?.any (·.token.isIdentifier) = previous.isIdentifier)
    (few : metrics.total ≤ Limits.tokenCount)
    (many : Limits.tokenCount < metrics.total + tokens.length) :
    ∃ span, (scan detailed start done metrics (spell tokens)).tokens =
      .error (.tooManyTokens Limits.tokenCount span) := by
  induction tokens generalizing previous start done metrics with
  | nil => exact absurd few (Nat.not_le.mpr many)
  | cons t tokens ih =>
    obtain ⟨c, more, spelled⟩ := spelling_cons (formed t List.mem_cons_self)
    obtain ⟨measure, ok⟩ := lexeme_readable readable formed spelled last
      (fits t List.mem_cons_self) start
    rw [spell_cons, spelled, List.cons_append]
    rcases Nat.eq_or_lt_of_le few with full | room
    · rw [scan, if_pos full.ge, full]
      exact ⟨_, rfl⟩
    · rw [scan_cons room ok]
      rw [List.length_cons] at many
      exact ih (List.isChain_cons_cons.mp readable).2
        (fun u later => formed u (List.mem_cons_of_mem _ later))
        (fun u later => fits u (List.mem_cons_of_mem _ later)) rfl
        (by rw [Metrics.record_total]; omega) (by rw [Metrics.record_total]; omega)

theorem run_spelled_full {source : String} {tokens : List Token}
    (text : source.toList = spell tokens) (readable : Token.Readable .space tokens)
    (formed : ∀ t ∈ tokens, t.WellFormed) (fits : ∀ t ∈ tokens, t.DigitsFit)
    (many : Limits.tokenCount < tokens.length)
    (short : source.utf8ByteSize ≤ Limits.actionLength) :
    ∃ span, (run detailed source).tokens = .error (.tooManyTokens Limits.tokenCount span) := by
  rw [run, if_neg (Nat.not_lt.mpr short), text]
  exact scan_spelled_full readable formed fits rfl (Nat.zero_le _) (by simpa using many)

end Scan

end Lexer

namespace Grammar

variable {g : Grammar} {text : String} {limit : LimitKind} {actual maximum : Nat} {span : Span}

theorem limit_of_lexError {e : LexError} {depth : Nat} (measured : e.Measured)
    (same : ParseError.ofLexError e = .limitExceeded limit actual maximum span) :
    maximum = limit.maximum depth ∧ (limit ≠ .tokenCount → maximum < actual) ∧
      (limit = .tokenCount → actual = maximum) := by
  cases e with
  | tooManyTokens count place =>
    cases same
    exact ⟨rfl, fun other => absurd rfl other, fun _ => measured⟩
  | actionTooLong | identifierTooLong | stringTooLarge | numberTooLong =>
    cases same
    exact ⟨rfl, fun _ => measured, fun same => by cases same⟩
  | invalidCharacter | unterminatedString | invalidNumber | invalidBasedLiteral => cases same

-- An error about a limit tells the limit in force for the maximum, and a value above it; but an
-- error about the number of tokens tells the maximum itself for the value.
theorem limit_reported (climbing : g.arithmetic = PrecedenceClimbing.rule)
    (failed : (g.parse text).result = .error (.limitExceeded limit actual maximum span)) :
    maximum = limit.maximum g.parser.depth ∧ (limit ≠ .tokenCount → maximum < actual) ∧
      (limit = .tokenCount → actual = maximum) := by
  cases cut : (Tokenization.ofText g.lexical text).tokens with
  | error e =>
    rw [parse_of_lexError cut] at failed
    exact limit_of_lexError (Lexer.run_measured cut) (Except.error.inj failed)
  | ok tokens =>
    rw [parse_of_tokens cut, parseTokens] at failed
    obtain ⟨-, rfl, rfl, exceeds⟩ := limit_of_composed (composed_of_climbing climbing)
      (Prod.ext failed rfl)
    exact ⟨depth_parserDepth g, fun _ => exceeds, fun same => by cases same⟩

section LineEnds

variable {a : Action} {n : Nat}

def padded (a : Action) (n : Nat) : String := a.print ++ String.ofList (List.replicate n '\n')

theorem toList_padded (a : Action) (n : Nat) :
    (padded a n).toList = spell (a.printed ++ List.replicate n .newline) := by
  have ends : spell (List.replicate n .newline) = List.replicate n '\n' := by
    induction n with
    | zero => rfl
    | succ n ih =>
      rw [List.replicate_succ, List.replicate_succ, spell_cons, ih]
      rfl
  rw [padded, String.toList_append, toList_print, String.toList_ofList, spell_append, ends]

theorem readable_padded (a : Action) (n : Nat) :
    Token.Readable .space (a.printed ++ List.replicate n .newline) := by
  have ends : Token.Readable .space (List.replicate n .newline) := by
    induction n with
    | zero => exact List.isChain_singleton _
    | succ n ih => exact (Token.readable_mark_cons rfl).mpr ih
  cases n with
  | zero => simpa using readable_printed a
  | succ n =>
    refine (Token.readable_append_mark rfl).mpr ⟨readable_printed a, ?_⟩
    exact (Token.readable_mark_cons rfl).mp ends

theorem result_padded (formed : a.WellFormed) (decimals : DecimalsFit a.numbers)
    (short : (padded a n).utf8ByteSize ≤ Limits.actionLength)
    (many : Limits.tokenCount < a.printed.length + n) :
    ∃ span, (g.parse (padded a n)).result =
      .error (.limitExceeded .tokenCount Limits.tokenCount Limits.tokenCount span) := by
  have inside : ∀ t ∈ a.printed ++ List.replicate n Token.newline, t.WellFormed ∧ t.DigitsFit := by
    intro t member
    rcases List.mem_append.mp member with printed | ends
    · have digits := digitsFit_iff.mpr (numbers_printed a ▸ decimals)
      exact ⟨wellFormed_printed formed t printed, digits t printed⟩
    · rw [List.eq_of_mem_replicate ends]
      exact ⟨trivial, trivial⟩
  have counted : Limits.tokenCount < (a.printed ++ List.replicate n Token.newline).length := by
    rwa [List.length_append, List.length_replicate]
  obtain ⟨span, cut⟩ := Lexer.run_spelled_full (toList_padded a n) (readable_padded a n)
    (fun t member => (inside t member).1) (fun t member => (inside t member).2) counted short
  refine ⟨span, ?_⟩
  rw [parse_of_lexError cut]
  rfl

end LineEnds

theorem limit_reported_line_ends :
    (∃ actual maximum span,
      (({} : Grammar).parse ("x := 1" ++ String.ofList (List.replicate 16380 '\n'))).result =
        .error (.limitExceeded .tokenCount actual maximum span) ∧ actual = maximum) ∧
      ∃ actual maximum span,
        (({ parser := { maxDepth := 1 } } : Grammar).parse "x := -(y").result =
          .error (.limitExceeded .nestingDepth actual maximum span) ∧ maximum < actual := by
  constructor
  · have text : "x := 1" ++ String.ofList (List.replicate 16380 '\n') =
        padded (.assignment "x" (.number 1)) 16380 := by
      rw [padded]
      congr 1
    have short : (padded (.assignment "x" (.number 1)) 16380).utf8ByteSize ≤
        Limits.actionLength := by
      rw [← text, String.utf8ByteSize_append, utf8ByteSize_ofList (List.replicate 16380 '\n'),
        Text.byteLength_replicate rfl]
      decide
    obtain ⟨span, failed⟩ := result_padded (g := {}) (by decide) (by decide) short (by decide)
    rw [← text] at failed
    exact ⟨_, _, span, failed, (limit_reported rfl failed).2.2 rfl⟩
  · have failed : (({ parser := { maxDepth := 1 } } : Grammar).parse "x := -(y").result =
        .error (.limitExceeded .nestingDepth 2 1 ⟨⟨7, 1, 8⟩, ⟨8, 1, 9⟩⟩) := by decide +kernel
    exact ⟨2, 1, _, failed, (limit_reported rfl failed).2.1 (by decide)⟩

end Grammar

end StateActions
