import StateActions.Proofs.Source.Spans

namespace StateActions

namespace Text

variable {before after : List Char} {p : Char → Bool}

theorem lastLine_of_notMem (none : '\n' ∉ before) : lastLine before = before :=
  List.rtakeWhile_eq_self_iff.mpr (Lexer.bne_of_notMem none)

theorem firstLine_append (none : '\n' ∉ before) :
    firstLine (before ++ after) = before ++ firstLine after :=
  List.takeWhile_append_of_pos (Lexer.bne_of_notMem none)

theorem firstLine_feed (none : '\n' ∉ before) : firstLine (before ++ '\n' :: after) = before := by
  rw [firstLine_append none]
  simp [firstLine]

theorem lastLine_feed (none : '\n' ∉ after) : lastLine (before ++ '\n' :: after) = after := by
  have stops : (after.reverse ++ '\n' :: before.reverse).takeWhile (· != '\n') = after.reverse :=
    takeWhile_run (Lexer.bne_of_notMem fun member => none (List.mem_reverse.mp member))
      (by rintro d ⟨⟩; rfl)
  simp [lastLine, List.rtakeWhile, stops]

theorem exists_last_feed (feed : '\n' ∈ before) :
    ∃ head tail, before = head ++ '\n' :: tail ∧ '\n' ∉ tail := by
  obtain ⟨tail, head, reversed, none⟩ := List.eq_append_cons_of_mem (List.mem_reverse.mpr feed)
  refine ⟨head.reverse, tail.reverse, ?_, fun member => none (List.mem_reverse.mp member)⟩
  rw [← List.reverse_reverse before, reversed]
  simp

theorem lastLine_append (none : '\n' ∉ after) :
    lastLine (before ++ after) = lastLine before ++ after := by
  by_cases feed : '\n' ∈ before
  · obtain ⟨head, tail, rfl, other⟩ := exists_last_feed feed
    rw [List.append_assoc, List.cons_append, lastLine_feed other, lastLine_feed]
    exact List.not_mem_append other none
  · rw [lastLine_of_notMem feed, lastLine_of_notMem (List.not_mem_append feed none)]

theorem length_pieces (text : List Char) : (pieces text).length = text.count '\n' + 1 := by
  induction text with
  | nil => rfl
  | cons c rest ih =>
    rw [pieces, List.splitOn_cons_eq_if_modifyHead, List.count_cons]
    split
    · next feed =>
      rw [List.length_cons, ← pieces, ih]
    · next other =>
      rw [List.length_modifyHead, ← pieces, ih, Nat.add_zero]

theorem pieces_head? (text : List Char) : (pieces text).head? = some (firstLine text) := by
  by_cases feed : '\n' ∈ text
  · obtain ⟨line, rest, rfl, none⟩ := List.eq_append_cons_of_mem feed
    rw [pieces, List.splitOn_append_cons_self_of_not_mem none, firstLine_feed none]
    rfl
  · rw [pieces, List.splitOn_eq_singleton feed]
    rw [firstLine, List.takeWhile_eq_self_iff.mpr (Lexer.bne_of_notMem feed)]
    rfl

theorem notMem_of_mem_pieces {text piece : List Char} (member : piece ∈ pieces text) :
    '\n' ∉ piece := by
  induction text generalizing piece with
  | nil =>
    obtain rfl := List.mem_singleton.mp member
    exact List.not_mem_nil
  | cons c rest ih =>
    rw [pieces, List.splitOn_cons_eq_if_modifyHead, ← pieces] at member
    split at member
    · rcases List.mem_cons.mp member with rfl | later
      · exact List.not_mem_nil
      · exact ih later
    · next other =>
      cases shape : pieces rest with
      | nil => exact absurd shape (List.splitOn_ne_nil _ _)
      | cons first others =>
        rw [shape] at member ih
        rcases List.mem_cons.mp member with rfl | later
        · have inside := ih List.mem_cons_self
          have differs : '\n' ≠ c := by
            rintro rfl
            exact other rfl
          exact List.not_mem_cons_of_ne_of_not_mem differs inside
        · exact ih (List.mem_cons_of_mem _ later)

-- The piece that a place stands in goes from the line feed before the place to the one after it.
theorem pieces_getElem? (before after : List Char) :
    (pieces (before ++ after))[before.count '\n']? = some (lastLine before ++ firstLine after) := by
  by_cases feed : '\n' ∈ before
  · obtain ⟨head, tail, rfl, none⟩ := exists_last_feed feed
    have index : (head ++ '\n' :: tail).count '\n' = (pieces head).length := by
      rw [length_pieces, List.count_append, List.count_cons_self, List.count_eq_zero.mpr none]
    have split :
        pieces (head ++ '\n' :: tail ++ after) = pieces head ++ pieces (tail ++ after) := by
      rw [List.append_assoc, List.cons_append]
      exact List.splitOn_append_cons_self head (tail ++ after)
    rw [split, index, List.getElem?_append_right (Nat.le_refl _), Nat.sub_self,
      ← List.head?_eq_getElem?, pieces_head?, firstLine_append none, lastLine_feed none]
  · rw [List.count_eq_zero.mpr feed, ← List.head?_eq_getElem?, pieces_head?, firstLine_append feed,
      lastLine_of_notMem feed]

theorem rdropWhile_append (left right : List Char) :
    (left ++ right).rdropWhile p =
      if right.all p = true then left.rdropWhile p else left ++ right.rdropWhile p := by
  unfold List.rdropWhile
  rw [List.reverse_append, List.dropWhile_append]
  by_cases all : right.all p = true
  · have none : right.reverse.dropWhile p = [] := by
      rw [List.dropWhile_eq_nil_iff]
      simpa using all
    simp [none, all]
  · have some : right.reverse.dropWhile p ≠ [] := by
      rw [Ne, List.dropWhile_eq_nil_iff]
      simpa using all
    rw [if_neg (by simpa using some), if_neg all]
    simp

theorem length_rdropWhile_append (left right : List Char) :
    ((left ++ right).rdropWhile p).length - left.length = (right.rdropWhile p).length := by
  rw [rdropWhile_append]
  split
  · next all =>
    have none : right.rdropWhile p = [] :=
      List.rdropWhile_eq_nil_iff.mpr (List.all_eq_true.mp all)
    have shorter := (List.rdropWhile_prefix p left).length_le
    rw [none, List.length_nil]
    omega
  · rw [List.length_append, Nat.add_sub_cancel_left]

end Text

open Text

-- The characters of a piece of text that stand on the line it begins on. If it goes on to a later
-- line, the end of this line is not among them.
def Text.onFirstLine (piece : List Char) : List Char :=
  if '\n' ∈ piece then (firstLine piece).rdropWhile (· == '\r') else piece

-- The line that the span begins on, without the carriage returns at its end, and a caret for every
-- character of the span on it, or one if there are none.
def Span.Underlines (span : Span) (source : String) (line : List Char) (carets : Nat) : Prop :=
  ∃ before piece after, source.toList = before ++ (piece ++ after) ∧
    byteLength before = span.start.offset ∧ byteLength (before ++ piece) = span.stop.offset ∧
    span.start.line.toNat = before.count '\n' + 1 ∧
    span.start.column.toNat = (lastLine before).length + 1 ∧
    line = (lastLine before ++ firstLine (piece ++ after)).rdropWhile (· == '\r') ∧
    carets = max 1 (onFirstLine piece).length

def ParseError.marked (e : ParseError) (line : List Char) (carets : Nat) : String :=
  let number := toString e.span.start.line
  let margin := "".pushn ' ' number.length
  "error: " ++ e.message ++
    "\n  --> " ++ number ++ ":" ++ toString e.span.start.column ++ "\n" ++
    margin ++ " |\n" ++
    number ++ " | " ++ String.ofList line ++ "\n" ++
    margin ++ " | " ++ "".pushn ' ' (e.span.start.column.toNat - 1) ++ "".pushn '^' carets ++
    "\n  = help: " ++ e.code.advice

theorem Position.text_eq (p : Position) :
    p.text = toString p.line ++ ":" ++ toString p.column := rfl

section Excerpts

variable {source : String} {before piece after : List Char} {span : Span}

theorem LineTable.feeds_stop (offset : Nat) (text : List Char) :
    ((feeds offset text [])[0]?).elim (offset + byteLength text) (· - 1) =
      offset + byteLength (firstLine text) := by
  induction text generalizing offset with
  | nil => rfl
  | cons c rest ih =>
    rw [feeds, feeds_found]
    by_cases feed : c = '\n'
    · subst feed
      rfl
    · have line : firstLine (c :: rest) = c :: firstLine rest :=
        List.takeWhile_cons_of_pos (by simpa using feed)
      rw [if_neg feed, List.reverse_nil, List.nil_append, line, byteLength_cons, byteLength_cons,
        ← Nat.add_assoc, ← Nat.add_assoc]
      exact ih (offset + c.utf8Size)

theorem LineTable.lineText?_eq (before after : List Char) :
    (ofList (before ++ after)).lineText? (before.count '\n' + 1) =
      some ((lastLine before ++ firstLine after).rdropWhile (· == '\r')) := by
  have next : (ofList (before ++ after)).starts[before.count '\n' + 1]? =
      (feeds (byteLength before) after [])[0]? := by
    rw [starts_append, List.getElem?_append_right (by rw [length_starts]), length_starts,
      Nat.sub_self]
  have rest : before ++ after = (before ++ firstLine after) ++ after.dropWhile (· != '\n') := by
    rw [List.append_assoc, firstLine, List.takeWhile_append_dropWhile]
  have cut : dropBytes (lastStart before) (takeBytes (byteLength before +
      byteLength (firstLine after)) (before ++ after)) = lastLine before ++ firstLine after := by
    rw [rest, ← byteLength_append, takeBytes_byteLength,
      dropBytes_append_of_le (lastStart_le before), dropBytes_lastStart]
  unfold lineText?
  simp only [starts_getElem?, next, Option.map_some]
  rw [show (ofList (before ++ after)).source = before ++ after from rfl, byteLength_append,
    feeds_stop, cut]
  rfl

theorem Text.exists_split_count {text : List Char} {index : Nat}
    (within : index ≤ text.count '\n') :
    ∃ before after, text = before ++ after ∧ before.count '\n' = index := by
  induction text generalizing index with
  | nil => exact ⟨[], [], rfl, (Nat.le_zero.mp within).symm⟩
  | cons c rest ih =>
    cases index with
    | zero => exact ⟨[], c :: rest, rfl, rfl⟩
    | succ index =>
      by_cases feed : c = '\n'
      · subst feed
        rw [List.count_cons_self] at within
        obtain ⟨before, after, rfl, rfl⟩ := ih (Nat.le_of_succ_le_succ within)
        exact ⟨'\n' :: before, after, rfl, List.count_cons_self⟩
      · rw [List.count_cons_of_ne feed] at within
        obtain ⟨before, after, rfl, count⟩ := ih within
        exact ⟨c :: before, after, rfl, by rw [List.count_cons_of_ne feed, count]⟩

-- The lines that the starts cut out are the pieces between the line feeds.
theorem LineTable.lineText?_pieces (text : List Char) (index : Nat) :
    (ofList text).lineText? (index + 1) =
      ((pieces text)[index]?).map (·.rdropWhile (· == '\r')) := by
  by_cases within : index ≤ text.count '\n'
  · obtain ⟨before, after, rfl, rfl⟩ := exists_split_count within
    rw [lineText?_eq, pieces_getElem?]
    rfl
  · have start : (ofList text).starts[index]? = none :=
      List.getElem?_eq_none (by rw [length_starts]; omega)
    have piece : (pieces text)[index]? = none :=
      List.getElem?_eq_none (by rw [length_pieces]; omega)
    rw [lineText?, start, piece]
    rfl

theorem LineTable.notMem_of_lineText? {number : Nat} {line : List Char}
    (here : (ofText source).lineText? number = some line) : '\n' ∉ line := by
  cases number with
  | zero => cases here
  | succ index =>
    rw [ofText, lineText?_pieces] at here
    obtain ⟨piece, there, rfl⟩ := Option.map_eq_some_iff.mp here
    intro feed
    have kept := List.rdropWhile_prefix (· == '\r') piece
    exact notMem_of_mem_pieces (List.mem_of_getElem? there) (kept.mem feed)

theorem Position.counts_advanceList {text : List Char} (short : byteLength text + 1 < 4294967296) :
    (start.advanceList text).line.toNat = text.count '\n' + 1 ∧
      (start.advanceList text).column.toNat = (lastLine text).length + 1 := by
  have counts := counts_le text
  rw [advanceList_start, ofCounts]
  simp only [UInt32.toNat_add, UInt32.toNat_ofNat', UInt32.toNat_one]
  omega

theorem LineTable.caretCount_eq {before piece : List Char}
    (short : byteLength (before ++ piece) + 1 < 4294967296) (after : List Char) :
    caretCount ⟨Position.start.advanceList before, Position.start.advanceList (before ++ piece)⟩
        ((lastLine before ++ firstLine (piece ++ after)).rdropWhile (· == '\r')) =
      max 1 (onFirstLine piece).length := by
  have head : byteLength before + 1 < 4294967296 := by
    rw [byteLength_append] at short
    omega
  obtain ⟨startLine, startColumn⟩ := Position.counts_advanceList head
  obtain ⟨stopLine, stopColumn⟩ := Position.counts_advanceList short
  rw [List.count_append] at stopLine
  simp only [caretCount, ← UInt32.toNat_inj, startLine, startColumn, stopLine, stopColumn,
    onFirstLine, Nat.add_sub_cancel]
  by_cases feed : '\n' ∈ piece
  · have further : 0 < piece.count '\n' := List.count_pos_iff.mpr feed
    obtain ⟨line, rest, rfl, none⟩ := List.eq_append_cons_of_mem feed
    rw [if_neg (by omega), if_pos feed, List.append_assoc, List.cons_append, firstLine_feed none,
      firstLine_feed none, length_rdropWhile_append]
  · rw [List.count_eq_zero.mpr feed, if_pos rfl, if_neg feed, lastLine_append feed,
      List.length_append]
    congr 1
    omega

theorem Span.Covers.underlines (covers : span.Covers .start source.toList piece)
    (near : span.stop.offset ≤ Limits.actionLength) :
    ∃ line carets, span.Underlines source line carets ∧
      (LineTable.ofText source).lineText? span.start.line.toNat = some line ∧
      LineTable.caretCount span line = carets := by
  obtain ⟨before, after, whole, rfl⟩ := covers
  have short : byteLength (before ++ piece) ≤ 65536 := by
    rw [Position.offset_advanceList] at near
    exact (Nat.zero_add _).symm.trans_le near
  have head : byteLength before ≤ 65536 := by
    rw [byteLength_append] at short
    omega
  have fits : byteLength before + 1 < 4294967296 := by omega
  obtain ⟨line, column⟩ := Position.counts_advanceList fits
  refine ⟨_, _, ⟨before, piece, after, whole, ?_, ?_, line, column, rfl, rfl⟩, ?_,
    LineTable.caretCount_eq (by omega) after⟩
  · simp [Position.start]
  · simp [Position.start]
  · rw [line, LineTable.ofText, whole, LineTable.lineText?_eq]

theorem Text.rdropWhile_carets (body : String) {count : Nat} (positive : 1 ≤ count) :
    String.ofList ((body ++ "".pushn '^' count ++ "\n").toList.rdropWhile isBlank) =
      body ++ "".pushn '^' count := by
  obtain ⟨others, rfl⟩ := Nat.exists_eq_add_of_le' positive
  have last : (body ++ "".pushn '^' (others + 1)).toList =
      (body ++ "".pushn '^' others).toList ++ ['^'] := by
    rw [show "".pushn '^' (others + 1) = ("".pushn '^' others).push '^' from rfl]
    simp
  have feed : (body ++ "".pushn '^' (others + 1) ++ "\n").toList =
      (body ++ "".pushn '^' (others + 1)).toList ++ ['\n'] := String.toList_append
  rw [feed, List.rdropWhile_concat_pos _ _ _ rfl, last, List.rdropWhile_concat_neg _ _ _ (by decide),
    ← last, String.ofList_toList]

end Excerpts

namespace Grammar

variable {g : Grammar} {source : String} {e : ParseError}

-- The report of an error names the line and the column of the error, shows this line, and has the
-- carets under the characters of the error and the advice right after them.
theorem report_underlines (climbing : g.arithmetic = PrecedenceClimbing.rule)
    (failed : (g.parse source).result = .error e) :
    ∃ line carets, e.span.Underlines source line carets ∧
      e.report source = e.marked line carets := by
  obtain ⟨⟨piece, covers⟩, near⟩ := exists_covers climbing failed
  have lies := covers.liesIn near
  obtain ⟨line, carets, underlines, shown, count⟩ := covers.underlines near
  refine ⟨line, carets, underlines, ?_⟩
  have ordered : max e.span.stop.offset e.span.start.offset = e.span.stop.offset := by
    have after := lies.ordered
    simp only [Position.before, Bool.or_eq_false_iff, decide_eq_false_iff_not] at after
    omega
  have positive : 1 ≤ carets := by
    rw [← count]
    exact Nat.le_max_left ..
  unfold ParseError.report
  simp only [lies.start.found, ordered, lies.stop.found, LineTable.excerpt, shown, count]
  rw [← List.rdropWhile, Text.rdropWhile_carets _ positive]
  unfold ParseError.marked
  simp only [Position.text_eq, String.append_assoc]

theorem report_underlines_two_lines :
    ∃ e line carets, (({} : Grammar).parse "x := 1 'a\r\nb'").result = .error e ∧
      e.span = ⟨⟨7, 1, 8⟩, ⟨13, 2, 3⟩⟩ ∧ e.span.Underlines "x := 1 'a\r\nb'" line carets ∧
      e.report "x := 1 'a\r\nb'" = e.marked line carets := by
  have failed : (({} : Grammar).parse "x := 1 'a\r\nb'").result =
      .error (.trailingInput "string 'a\r\nb'" ⟨⟨7, 1, 8⟩, ⟨13, 2, 3⟩⟩) := by decide +kernel
  obtain ⟨line, carets, underlines, report⟩ := report_underlines rfl failed
  exact ⟨_, line, carets, failed, rfl, underlines, report⟩

end Grammar

end StateActions
