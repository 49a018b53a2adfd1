import StateActions.Proofs.Log.Context
import StateActions.Proofs.Parser.FirstError
import StateActions.Proofs.Token.Tiling

namespace StateActions

open StateActions.Parser Text

structure Text.LongestWithin (bytes : Nat) (text head : String) : Prop where
  begins : head.toList <+: text.toList
  fits : head.utf8ByteSize ≤ bytes
  longest : ∀ other : String, other.toList <+: text.toList → other.utf8ByteSize ≤ bytes →
    other.toList <+: head.toList

-- A place between two characters of a text or at an end of it, which the table of lines finds, with
-- overflow checks too.
structure Position.LiesIn (source : String) (p : Position) : Prop where
  boundary : ∃ head : String, head.toList <+: source.toList ∧ head.utf8ByteSize = p.offset
  found : (LineTable.ofText source).positionAt p.offset = p
  checked : (LineTable.ofText source).positionAt? p.offset = some p

structure Span.LiesIn (source : String) (span : Span) : Prop where
  start : span.start.LiesIn source
  stop : span.stop.LiesIn source
  ordered : span.stop.before span.start = false

section Places

variable {source : String} {head : List Char}

theorem Text.longestWithin_takeBytes (bytes : Nat) (source : String) :
    LongestWithin bytes source (String.ofList (takeBytes bytes source.toList)) := by
  refine ⟨?_, ?_, fun other begins fits => ?_⟩
  · rw [String.toList_ofList]
    exact takeBytes_isPrefix bytes source.toList
  · rw [utf8ByteSize_ofList]
    exact byteLength_takeBytes_le bytes source.toList
  · rw [String.toList_ofList]
    rw [← String.ofList_toList (s := other), utf8ByteSize_ofList] at fits
    exact isPrefix_takeBytes begins fits

theorem Position.liesIn_advanceList (begins : head <+: source.toList)
    (short : byteLength head + 1 < 4294967296) :
    (Position.start.advanceList head).LiesIn source := by
  have offset : (Position.start.advanceList head).offset = byteLength head := by
    rw [offset_advanceList]
    exact Nat.zero_add _
  obtain ⟨tail, whole⟩ := begins
  have cut : takeBytes (byteLength head) source.toList = head := by
    rw [← whole, takeBytes_byteLength]
  refine ⟨⟨String.ofList head, ?_, ?_⟩, ?_, ?_⟩
  · rw [String.toList_ofList]
    exact ⟨tail, whole⟩
  · rw [utf8ByteSize_ofList, offset]
  · rw [LineTable.ofText, LineTable.positionAt_eq, offset, cut]
  · rw [LineTable.ofText, LineTable.positionAt?_eq (by rw [offset, cut]; omega), offset, cut,
      advanceList?_eq_some short]

theorem Position.not_before_advanceList (p : Position) (text : List Char) :
    (p.advanceList text).before p = false := by
  by_cases empty : text = []
  · subst empty
    simp [before]
  · have further := p.offset_advanceList_lt empty
    have less : ¬ (p.advanceList text).offset < p.offset := by omega
    have other : ¬ (p.advanceList text).offset = p.offset := by omega
    rw [before, decide_eq_false less, beq_eq_false_iff_ne.mpr other]
    rfl

theorem Span.Covers.stop_le {span : Span} {text piece : List Char}
    (covers : span.Covers .start text piece) : span.stop.offset ≤ byteLength text := by
  obtain ⟨before, after, rfl, rfl⟩ := covers
  rw [Position.offset_advanceList, ← List.append_assoc, byteLength_append _ after]
  show 0 + _ ≤ _
  omega

theorem Span.Covers.liesIn {span : Span} {piece : List Char}
    (covers : span.Covers .start source.toList piece)
    (near : span.stop.offset ≤ Limits.actionLength) : span.LiesIn source := by
  obtain ⟨before, after, whole, rfl⟩ := covers
  have stop : byteLength (before ++ piece) ≤ 65536 := by
    rw [Position.offset_advanceList] at near
    exact (Nat.zero_add _).symm.trans_le near
  have start : byteLength before ≤ 65536 := by
    rw [byteLength_append] at stop
    omega
  refine ⟨Position.liesIn_advanceList ⟨piece ++ after, whole.symm⟩ (by omega),
    Position.liesIn_advanceList ⟨after, ?_⟩ (by omega), ?_⟩
  · rw [whole, List.append_assoc]
  · rw [Position.advanceList_append]
    exact Position.not_before_advanceList _ _

end Places

-- The error has the span of some part of a text that begins at `origin`.
def LexError.OnText (origin : Position) (text : List Char) (e : LexError) : Prop :=
  ∃ piece, e.span.Covers origin text piece

namespace Lexer

variable {afterName detailed : Bool} {start : Position} {c : Char} {rest : List Char} {e : LexError}

theorem nextSpan_covers (start : Position) (text : List Char) :
    ∃ piece, (nextSpan start text).Covers start text piece := by
  cases text with
  | nil => exact ⟨[], Span.covers_point start []⟩
  | cons c rest => exact ⟨[c], Span.covers_start start [c] rest⟩

theorem word_onText (failed : word start c rest = .error e) : e.OnText start (c :: rest) := by
  unfold word at failed
  simp only at failed
  split at failed
  · cases failed
    have covers := Span.covers_start start (c :: rest.takeWhile isNameChar)
      (rest.dropWhile isNameChar)
    rw [List.cons_append, List.takeWhile_append_dropWhile] at covers
    exact ⟨_, covers⟩
  · cases failed

theorem quoted_onText {quote : Quote} (failed : quoted start quote rest = .error e) :
    e.OnText start (quote.char :: rest) := by
  have whole : (quote.char :: rest.takeWhile (· != quote.char)) ++
      rest.dropWhile (· != quote.char) = quote.char :: rest :=
    congrArg (quote.char :: ·) List.takeWhile_append_dropWhile
  rw [← whole]
  unfold quoted at failed
  simp only at failed
  split at failed
  · cases failed
    exact ⟨_, Span.covers_start _ _ _⟩
  · split at failed
    · cases failed
      exact ⟨_, (Span.covers_point _ _).after⟩
    · cases failed

theorem delimited_onText {l : Lexeme} (failed : delimited start l = .error e) :
    e.OnText start (l.text ++ l.rest) := by
  have whole : (l.text ++ l.rest.takeWhile isNameChar) ++ l.rest.dropWhile isNameChar =
      l.text ++ l.rest := by
    rw [List.append_assoc, List.takeWhile_append_dropWhile]
  rw [← whole]
  unfold delimited at failed
  split at failed
  · cases failed
  · cases failed
    exact ⟨_, Span.covers_start _ _ _⟩

theorem basedDigits_onText {digits : List Char}
    (failed : basedDigits start digits rest = .error e) :
    e.OnText start (digits ++ '#' :: rest) := by
  unfold basedDigits at failed
  simp only at failed
  split at failed
  · cases failed
    exact ⟨_, Span.covers_start _ _ _⟩
  -- What stands after the valid digits is where a literal goes wrong that has not ended.
  · have whole : (digits ++ '#' :: rest.takeWhile (Numeral.isDigitIn (Numeral.value 10 digits))) ++
        rest.dropWhile (Numeral.isDigitIn (Numeral.value 10 digits)) = digits ++ '#' :: rest := by
      rw [List.append_assoc, List.cons_append, List.takeWhile_append_dropWhile]
    rw [← whole]
    split at failed
    · next found =>
      cases failed
      obtain ⟨piece, covers⟩ := nextSpan_covers (start.advanceList _) []
      rw [found]
      exact ⟨piece, covers.after⟩
    · next c left found =>
      rw [found]
      split at failed
      · cases failed
        obtain ⟨piece, covers⟩ := nextSpan_covers (start.advanceList _) (c :: left)
        exact ⟨piece, covers.after⟩
      · split at failed
        · cases failed
          exact ⟨_, Span.covers_start _ _ _⟩
        · simpa using delimited_onText failed

theorem numeral_onText (failed : numeral start c rest = .error e) :
    e.OnText start (c :: rest) := by
  have whole : (c :: rest.takeWhile Char.isDigit) ++ rest.dropWhile Char.isDigit = c :: rest :=
    congrArg (c :: ·) List.takeWhile_append_dropWhile
  rw [← whole]
  unfold numeral at failed
  simp only at failed
  split at failed
  · cases failed
    exact ⟨_, Span.covers_start _ _ _⟩
  · split at failed
    · next left found =>
      rw [found]
      exact basedDigits_onText failed
    · exact delimited_onText failed

theorem lexeme_onText (failed : lexeme afterName start c rest = .error e) :
    e.OnText start (c :: rest) := by
  rcases lexeme_error failed with ⟨expected, rfl⟩ | ⟨quote, rfl, begun⟩ | begun | begun
  · exact ⟨[c], Span.covers_start start [c] rest⟩
  · exact quoted_onText begun
  · exact numeral_onText begun
  · exact word_onText begun

section Scan

variable {done : List PlacedToken} {metrics : Metrics} {input : List Char} {source : String}

theorem scan_onText (failed : (scan detailed start done metrics input).tokens = .error e) :
    e.OnText start input := by
  fun_induction scan detailed start done metrics input with
  | case1 => cases failed
  | case2 start done metrics c rest full =>
    cases failed
    exact ⟨[c], Span.covers_start start [c] rest⟩
  | case3 start done metrics c rest below e' found =>
    cases failed
    exact lexeme_onText found
  | case4 start done metrics c rest below l found stop ih =>
    obtain ⟨piece, covers⟩ := ih failed
    obtain ⟨more, text, whole⟩ := lexeme_splits found
    have shifted := covers.after
    rw [text, List.cons_append, whole] at shifted
    exact ⟨piece, shifted⟩

theorem run_onText (failed : (run detailed source).tokens = .error e) :
    e.OnText .start source.toList ∧ e.span.stop.offset ≤ Limits.actionLength := by
  unfold run at failed
  split at failed
  · cases failed
    exact ⟨⟨[], Span.covers_point .start _⟩, Nat.zero_le _⟩
  · next short =>
    obtain ⟨piece, covers⟩ := scan_onText failed
    rw [← source.ofList_toList, utf8ByteSize_ofList] at short
    exact ⟨⟨piece, covers⟩, covers.stop_le.trans (Nat.le_of_not_lt short)⟩

end Scan

end Lexer

namespace Tokenization

variable {preferences : Preferences.Lexical} {source : String} {tokens : List PlacedToken}

theorem covers_of_mem (cut : (ofText preferences source).tokens = .ok tokens) {t : PlacedToken}
    (member : t ∈ tokens) :
    (∃ piece, t.span.Covers .start source.toList piece) ∧
      t.span.stop.offset ≤ Limits.actionLength := by
  obtain ⟨pieces, -, covers⟩ := Lexer.run_covers cut
  obtain ⟨index, rfl⟩ := List.get_of_mem member
  have here := (covers.get index.isLt (covers.length_eq ▸ index.isLt)).1
  have short := (Lexer.run_splits cut).1
  rw [← source.ofList_toList, utf8ByteSize_ofList] at short
  exact ⟨⟨_, here⟩, here.stop_le.trans short⟩

end Tokenization

namespace Grammar

variable {g : Grammar} {source : String} {tokens : List PlacedToken} {e : ParseError}

theorem mem_of_mem_all {detailed : Bool} (cut : (Lexer.run detailed source).tokens = .ok tokens)
    {depth : Nat} {t : PlacedToken}
    (member : t ∈ (Cursor.start (.ofTokens tokens) depth).stream.all) : t ∈ tokens := by
  obtain ⟨body, stop, rfl, -⟩ := Lexer.run_wellFormed cut
  have ahead : t ∈ (Cursor.start (.ofTokens (body ++ [⟨.eof, stop⟩])) depth).stream.ahead := member
  rw [ahead_start] at ahead
  exact (List.mem_filter.mp ahead).1

theorem span_parseTokens (climbing : g.arithmetic = PrecedenceClimbing.rule)
    (cut : (Lexer.run g.lexical.detailedMetrics source).tokens = .ok tokens)
    (failed : (g.parseTokens tokens).1 = .error e) : ∃ t ∈ tokens, e.span = t.span := by
  cases limited : e.isLimit with
  | false =>
    rw [parseTokens, climbing] at failed
    obtain ⟨k, t, here, span, -⟩ := stops_in_text cut failed limited
    exact ⟨t, (List.mem_filter.mp (List.mem_of_getElem? here)).1, span⟩
  | true =>
    cases e with
    | limitExceeded limit actual maximum span =>
      obtain ⟨d, breaks⟩ := exists_breaks (composed_of_climbing climbing) (Prod.ext failed rfl)
      obtain ⟨before, mark, all, eof⟩ := Cursor.all_start tokens g.parser.depth
      have within := Cursor.visited_of_kept (Cursor.stable_within ⟨before, mark, all, eof⟩).kept
        breaks.visits (Cursor.within_runAll tokens g.parser.depth [])
      obtain ⟨t, later, ahead⟩ := List.exists_cons_of_ne_nil within.unread
      refine ⟨t, ?_, ?_⟩
      · have read : t ∈ d.stream.all := by
          rw [Stream.all, ahead]
          exact List.mem_append_right _ List.mem_cons_self
        rw [within.all] at read
        exact mem_of_mem_all cut read
      · rw [breaks.eq_tooDeep]
        show d.stream.currentSpan = t.span
        rw [Stream.currentSpan, Stream.current?, ahead]
        rfl
    | _ => cases limited

theorem exists_covers (climbing : g.arithmetic = PrecedenceClimbing.rule)
    (failed : (g.parse source).result = .error e) :
    (∃ piece, e.span.Covers .start source.toList piece) ∧
      e.span.stop.offset ≤ Limits.actionLength := by
  cases cut : (Tokenization.ofText g.lexical source).tokens with
  | error e' =>
    rw [parse_of_lexError cut] at failed
    cases failed
    rw [ParseError.span_ofLexError]
    exact Lexer.run_onText cut
  | ok tokens =>
    rw [parse_of_tokens cut] at failed
    obtain ⟨t, member, span⟩ := span_parseTokens climbing cut failed
    rw [span]
    exact Tokenization.covers_of_mem cut member

-- The table of lines finds for every offset the place that the whole characters before it lead to.
-- With overflow checks the two ways fail alike, on a text whose last line or column is out of
-- range. The spans of the tokens of a text and of the errors about it lie in the text.
theorem spans_liesIn (climbing : g.arithmetic = PrecedenceClimbing.rule) (source : String) :
    (∀ offset, ∃ head, Text.LongestWithin offset source head ∧
        (LineTable.ofText source).positionAt offset = Position.start.advanceText head ∧
        (source.utf8ByteSize < UInt32.size →
          (LineTable.ofText source).positionAt? offset = Position.start.advanceText? head)) ∧
      (∀ tokens, (Tokenization.ofText g.lexical source).tokens = .ok tokens →
        ∀ t ∈ tokens, t.span.LiesIn source) ∧
      (∀ e, (Tokenization.ofText g.lexical source).tokens = .error e → e.span.LiesIn source) ∧
      ∀ e, (g.parse source).result = .error e → e.span.LiesIn source := by
  refine ⟨fun offset => ⟨_, Text.longestWithin_takeBytes offset source, ?_, fun short => ?_⟩,
    fun tokens cut t member => ?_, fun e failed => ?_, fun e failed => ?_⟩
  · rw [Position.advanceText, String.toList_ofList]
    exact LineTable.positionAt_eq source.toList offset
  · rw [← source.ofList_toList, utf8ByteSize_ofList] at short
    rw [Position.advanceText?, String.toList_ofList]
    exact LineTable.positionAt?_eq ((byteLength_takeBytes_le_self ..).trans_lt short)
  · obtain ⟨⟨piece, covers⟩, near⟩ := Tokenization.covers_of_mem cut member
    exact covers.liesIn near
  · obtain ⟨⟨piece, covers⟩, near⟩ := Lexer.run_onText failed
    exact covers.liesIn near
  · obtain ⟨⟨piece, covers⟩, near⟩ := exists_covers climbing failed
    exact covers.liesIn near

theorem spans_liesIn_second_line :
    ∃ e, (({} : Grammar).parse "x:='é'\r\n +").result = .error e ∧
      e.span = ⟨⟨10, 2, 2⟩, ⟨11, 2, 3⟩⟩ ∧ e.span.LiesIn "x:='é'\r\n +" := by
  have failed : (({} : Grammar).parse "x:='é'\r\n +").result =
      .error (.trailingInput "'+'" ⟨⟨10, 2, 2⟩, ⟨11, 2, 3⟩⟩) := by decide +kernel
  obtain ⟨-, -, -, errors⟩ := spans_liesIn (g := {}) rfl "x:='é'\r\n +"
  exact ⟨_, failed, rfl, errors _ failed⟩

end Grammar

end StateActions
