import StateActions.Proofs.Parser.Checkpoint

namespace StateActions

namespace Position

variable {p q r : Position}

theorem before_self (p : Position) : p.before p = false := by simp [before]

theorem before_trans (first : q.before p = false) (second : r.before q = false) :
    r.before p = false := by
  simp only [before, UInt32.lt_iff_toNat_lt, Bool.or_eq_false_iff, Bool.and_eq_false_imp,
    decide_eq_false_iff_not, beq_iff_eq, ← UInt32.toNat_inj] at *
  omega

theorem earlier_eq (order : q.before p = false) : p.earlier q = p := by simp [earlier, order]

theorem later_eq (order : q.before p = false) : p.later q = q := by simp [later, order]

end Position

namespace Stream

section Calls

inductive Call
  | advance
  | consumeIf (test : Token → Bool)
  | advanceIfMatches (expected : Token)
  | save
  | restore (position : Nat)

inductive Reply
  | token (found : Option PlacedToken)
  | matched (expected : Token) (found : Bool)
  | saved (position : Nat)
  | restored

def call (s : Stream) : Call → Reply × Stream
  | .advance => (.token s.current?, s.advance)
  | .consumeIf test => (.token (s.consumeIf test).1, (s.consumeIf test).2)
  | .advanceIfMatches expected =>
    (.matched expected (s.consumeIf (· == expected)).1.isSome, (s.consumeIf (· == expected)).2)
  | .save => (.saved s.position, s)
  | .restore position => (.restored, s.moveTo position)

def run (s : Stream) : List Call → List Reply × Stream
  | [] => ([], s)
  | c :: rest => ((s.call c).1 :: ((s.call c).2.run rest).1, ((s.call c).2.run rest).2)

def Call.restores : Call → Bool
  | .restore _ => true
  | _ => false

def Call.wants : Call → Token → Bool
  | .advance, _ => true
  | .consumeIf test, t => test t
  | .advanceIfMatches expected, t => t == expected
  | .save, _ | .restore _, _ => false

-- Whether the reply tells that a token was passed. The end mark is shown and not passed.
def Reply.consumes : Reply → Bool
  | .token found => found.any (!·.token.isEof)
  | .matched _ found => found
  | .saved _ | .restored => false

def Reply.Shows (r : Reply) (t : PlacedToken) : Prop :=
  match r with
  | .token found => found = some t
  | .matched expected found => found = true ∧ expected = t.token
  | .saved _ | .restored => False

variable {s : Stream} {c : Call} {t : PlacedToken} {rest : List PlacedToken}

def pass (s : Stream) (t : PlacedToken) (rest : List PlacedToken) : Stream :=
  { s with passed := t :: s.passed, ahead := rest }

theorem advance_eof (ahead : s.ahead = t :: rest) (eof : t.token = .eof) : s.advance = s := by
  simp [advance, ahead, eof, Token.isEof]

theorem advance_inner (ahead : s.ahead = t :: rest) (inner : t.token ≠ .eof) :
    s.advance = s.pass t rest := by
  simp [advance, ahead, inner, Token.isEof, pass]

theorem consumeIf_eof (ahead : s.ahead = t :: rest) (eof : t.token = .eof) (test : Token → Bool) :
    s.consumeIf test = (none, s) := by
  simp [consumeIf, atEnd, current, current?, ahead, eof, Token.isEof]

theorem consumeIf_inner (ahead : s.ahead = t :: rest) (inner : t.token ≠ .eof)
    (test : Token → Bool) :
    s.consumeIf test = if test t.token then (some t, s.pass t rest) else (none, s) := by
  simp [consumeIf, atEnd, current, current?, ahead, inner, Token.isEof, advance_inner ahead inner]

-- A call that does not go back passes the token ahead if it wants it and this is not the end mark.
-- Otherwise nothing changes.
theorem call_consumes (ahead : s.ahead = t :: rest) (inner : t.token ≠ .eof)
    (wants : c.wants t.token = true) :
    (s.call c).1.consumes = true ∧ (s.call c).1.Shows t ∧ (s.call c).2 = s.pass t rest := by
  cases c with
  | advance =>
    simp [call, current?, ahead, Reply.consumes, Reply.Shows, Token.isEof, inner,
      advance_inner ahead inner]
  | consumeIf test =>
    have wants : test t.token = true := wants
    simp [call, consumeIf_inner ahead inner, wants, Reply.consumes, Reply.Shows, Token.isEof, inner]
  | advanceIfMatches expected =>
    obtain rfl : t.token = expected := by simpa [Call.wants] using wants
    simp [call, consumeIf_inner ahead inner, Reply.consumes, Reply.Shows]
  | save => cases wants
  | restore => cases wants

theorem call_refuses (ahead : s.ahead = t :: rest)
    (idle : c.wants t.token = false ∨ t.token = .eof) (stays : c.restores = false) :
    (s.call c).1.consumes = false ∧ (s.call c).2 = s := by
  by_cases eof : t.token = .eof
  · cases c with
    | advance =>
      simp [call, current?, ahead, Reply.consumes, Token.isEof, eof, advance_eof ahead eof]
    | consumeIf => simp [call, consumeIf_eof ahead eof, Reply.consumes]
    | advanceIfMatches => simp [call, consumeIf_eof ahead eof, Reply.consumes]
    | save => exact ⟨rfl, rfl⟩
    | restore => cases stays
  · have idle : c.wants t.token = false := idle.resolve_right eof
    cases c with
    | advance => cases idle
    | consumeIf test =>
      have idle : test t.token = false := idle
      simp [call, consumeIf_inner ahead eof, idle, Reply.consumes]
    | advanceIfMatches expected =>
      have idle : (t.token == expected) = false := idle
      simp [call, consumeIf_inner ahead eof, idle, Reply.consumes]
    | save => exact ⟨rfl, rfl⟩
    | restore => cases stays

end Calls

section Reach

structure Reads (tokens : List PlacedToken) (s : Stream) : Prop where
  all : s.all = tokens
  closed : ∃ before mark, tokens = before ++ [mark] ∧ mark.token = .eof
  unread : s.ahead ≠ []

variable {tokens : List PlacedToken} {s : Stream} {t : PlacedToken} {rest : List PlacedToken}

theorem Reads.size_eq (reads : Reads tokens s) : s.size = tokens.length := by
  have length := congrArg List.length reads.all
  simpa [Stream.all, size] using length

theorem Reads.position_lt (reads : Reads tokens s) : s.position < s.size := by
  have some := List.length_pos_iff.mpr reads.unread
  unfold position size
  omega

theorem Reads.ahead_eq (reads : Reads tokens s) : s.ahead = tokens.drop s.position := by
  have place : s.position = s.passed.reverse.length := List.length_reverse.symm
  have all := reads.all
  rw [← all, Stream.all, place, List.drop_left]

theorem Reads.current_eq (reads : Reads tokens s) : s.current? = tokens[s.position]? := by
  rw [current?, reads.ahead_eq, List.head?_drop]

theorem Reads.pass (reads : Reads tokens s) (ahead : s.ahead = t :: rest)
    (inner : t.token ≠ .eof) : Reads tokens (s.pass t rest) := by
  refine ⟨?_, reads.closed, ?_⟩
  · have all := reads.all
    simpa [Stream.all, Stream.pass, ahead] using all
  · -- The end mark is the last token and this one is not, so another one follows.
    rintro rfl
    obtain ⟨before, mark, closed, eof⟩ := reads.closed
    have last : s.passed.reverse ++ [t] = before ++ [mark] := by
      rw [← closed, ← reads.all, Stream.all, ahead]
    obtain ⟨-, same⟩ := List.append_inj' last rfl
    rw [List.singleton_inj.mp same] at inner
    exact inner eof

theorem Reads.moveTo (reads : Reads tokens s) (n : Nat) : Reads tokens (s.moveTo n) :=
  ⟨(all_moveTo s n).trans reads.all, reads.closed, Cursor.ahead_moveTo_ne_nil n reads.unread⟩

theorem Reads.position_moveTo (reads : Reads tokens s) (n : Nat) :
    (s.moveTo n).position = min n (tokens.length - 1) := by
  simp only [Stream.moveTo, reads.all, position, List.length_reverse, List.length_take]
  omega

theorem Reads.call_cases (reads : Reads tokens s) {c : Call} (stays : c.restores = false) :
    (∃ t rest, s.ahead = t :: rest ∧ t.token ≠ .eof ∧ c.wants t.token = true ∧
      (s.call c).1.consumes = true ∧ (s.call c).1.Shows t ∧ (s.call c).2 = s.pass t rest) ∨
    ((c.wants s.current = false ∨ s.current = .eof) ∧
      (s.call c).1.consumes = false ∧ (s.call c).2 = s) := by
  obtain ⟨t, rest, ahead⟩ := List.exists_cons_of_ne_nil reads.unread
  have current : s.current = t.token := by simp [current, current?, ahead]
  by_cases idle : c.wants t.token = false ∨ t.token = .eof
  · right
    rw [current]
    exact ⟨idle, call_refuses ahead idle stays⟩
  · left
    rw [not_or, Bool.not_eq_false] at idle
    exact ⟨t, rest, ahead, idle.2, idle.1, call_consumes ahead idle.2 idle.1⟩

theorem Reads.call (reads : Reads tokens s) (c : Call) : Reads tokens (s.call c).2 := by
  by_cases stays : c.restores = false
  · rcases reads.call_cases stays with ⟨t, rest, ahead, inner, -, -, -, passes⟩ | ⟨-, -, same⟩
    · rw [passes]
      exact reads.pass ahead inner
    · rw [same]
      exact reads
  · cases c with
    | restore n => exact reads.moveTo n
    | _ => exact absurd rfl stays

theorem Reads.run (reads : Reads tokens s) (calls : List Call) : Reads tokens (s.run calls).2 := by
  induction calls generalizing s with
  | nil => exact reads
  | cons c rest ih => exact ih (reads.call c)

theorem reads_ofTokens (tokens : List PlacedToken) :
    Reads ((closed tokens).filter (·.token.isSignificant)) (ofTokens tokens) := by
  obtain ⟨before, mark, closed, eof⟩ := Cursor.all_start tokens 0
  refine ⟨rfl, ⟨before, mark, closed, eof⟩, ?_⟩
  intro none
  have all : (ofTokens tokens).ahead = before ++ [mark] := closed
  rw [none] at all
  exact absurd all.symm (by simp)

structure Passes (s : Stream) (taken : List PlacedToken) (replies : List Reply) (after : Stream) :
    Prop where
  passed : after.passed = taken.reverse ++ s.passed
  ahead : s.ahead = taken ++ after.ahead
  shown : List.Forall₂ Reply.Shows (replies.filter (·.consumes)) taken
  inner : ∀ t ∈ taken, t.token ≠ .eof

theorem Passes.after_consumed {replies : List Reply} {taken : List PlacedToken} {after : Stream}
    {r : Reply} (ahead : s.ahead = t :: rest) (inner : t.token ≠ .eof) (consumes : r.consumes = true)
    (tells : r.Shows t) (later : (s.pass t rest).Passes taken replies after) :
    s.Passes (t :: taken) (r :: replies) after := by
  obtain ⟨passed, others, shown, all⟩ := later
  constructor
  · simpa [pass] using passed
  · have others : rest = taken ++ after.ahead := others
    rw [ahead, others, List.cons_append]
  · rw [List.filter_cons, if_pos consumes]
    exact .cons tells shown
  · exact List.forall_mem_cons.mpr ⟨inner, all⟩

theorem Passes.after_refused {replies : List Reply} {taken : List PlacedToken} {after : Stream}
    {r : Reply} (refuses : r.consumes = false) (later : s.Passes taken replies after) :
    s.Passes taken (r :: replies) after := by
  refine ⟨later.passed, later.ahead, ?_, later.inner⟩
  rw [List.filter_cons, if_neg (by rw [refuses]; exact Bool.false_ne_true)]
  exact later.shown

theorem Reads.passes_run (reads : Reads tokens s) {calls : List Call}
    (stay : ∀ c ∈ calls, c.restores = false) :
    ∃ taken, s.Passes taken (s.run calls).1 (s.run calls).2 := by
  induction calls generalizing s with
  | nil => exact ⟨[], rfl, rfl, .nil, List.forall_mem_nil _⟩
  | cons c calls ih =>
    obtain ⟨stays, stay⟩ := List.forall_mem_cons.mp stay
    obtain ⟨taken, later⟩ := ih (reads.call c) stay
    rcases reads.call_cases stays with
      ⟨t, rest, ahead, inner, -, consumes, shown, passes⟩ | ⟨-, refuses, same⟩
    · rw [passes] at later
      refine ⟨t :: taken, ?_⟩
      rw [Stream.run, passes]
      exact .after_consumed ahead inner consumes shown later
    · rw [same] at later
      refine ⟨taken, ?_⟩
      rw [Stream.run, same]
      exact .after_refused refuses later

theorem Reads.taken_eq (reads : Reads tokens s) {taken : List PlacedToken} {replies : List Reply}
    {after : Stream} (passes : s.Passes taken replies after) :
    s.position ≤ after.position ∧
      taken = (tokens.drop s.position).take (after.position - s.position) := by
  have moved : after.position = taken.length + s.position := by
    simp [position, passes.passed]
  refine ⟨by omega, ?_⟩
  rw [← reads.ahead_eq, passes.ahead, moved, Nat.add_sub_cancel, List.take_left]

end Reach

section Spans

-- The spans of the tokens lie side by side, blanks included, and none of them ends before it
-- starts.
structure Contiguous (tokens : List PlacedToken) : Prop where
  adjacent : tokens.IsChain fun t u => t.span.stop = u.span.start
  ordered : ∀ t ∈ tokens, t.span.stop.before t.span.start = false

variable {tokens : List PlacedToken} {s : Stream}

theorem Contiguous.closed (contiguous : Contiguous tokens) : Contiguous (closed tokens) := by
  obtain ⟨adjacent, ordered⟩ := contiguous
  unfold Stream.closed
  split
  · exact ⟨.singleton _, List.forall_mem_singleton.mpr (Position.before_self _)⟩
  · next last found =>
    split
    · exact ⟨adjacent, ordered⟩
    · refine ⟨List.isChain_append.mpr ⟨adjacent, .singleton _, ?_⟩, ?_⟩
      · intro t ended u first
        obtain rfl := Option.some.inj (ended.symm.trans found)
        obtain rfl := Option.some.inj first
        rfl
      · refine List.forall_mem_append.mpr ⟨ordered, ?_⟩
        exact List.forall_mem_singleton.mpr (Position.before_self _)

theorem Contiguous.pairwise (contiguous : Contiguous tokens) :
    tokens.Pairwise fun t u => u.span.start.before t.span.stop = false := by
  obtain ⟨adjacent, ordered⟩ := contiguous
  induction tokens with
  | nil => exact .nil
  | cons t rest ih =>
    obtain ⟨first, chain⟩ := List.isChain_cons.mp adjacent
    obtain ⟨-, later⟩ := List.forall_mem_cons.mp ordered
    have behind := ih chain later
    refine List.pairwise_cons.mpr ⟨?_, behind⟩
    cases rest with
    | nil => exact List.forall_mem_nil _
    | cons u rest =>
      have touch : t.span.stop = u.span.start := first u rfl
      obtain ⟨order, -⟩ := List.forall_mem_cons.mp later
      rw [touch]
      refine List.forall_mem_cons.mpr ⟨Position.before_self _, ?_⟩
      intro v member
      exact Position.before_trans order ((List.pairwise_cons.mp behind).1 v member)

theorem merge_self (span : Span) : span.merge span = span := by
  rw [Span.merge, Position.earlier_eq (Position.before_self _),
    Position.later_eq (Position.before_self _)]

theorem merge_eq {t u : PlacedToken} (first : t.span.stop.before t.span.start = false)
    (order : u.span.start.before t.span.stop = false)
    (second : u.span.stop.before u.span.start = false) :
    t.span.merge u.span = ⟨t.span.start, u.span.stop⟩ := by
  rw [Span.merge, Position.earlier_eq (Position.before_trans first order),
    Position.later_eq (Position.before_trans order second)]

theorem Reads.previous_eq (reads : Reads tokens s) {p : Nat} (place : s.position = p + 1) :
    ∃ last, tokens[p]? = some last ∧ s.previousSpan = last.span := by
  cases passed : s.passed with
  | nil =>
    rw [position, passed] at place
    cases place
  | cons last before =>
    refine ⟨last, ?_, by simp [previousSpan, passed]⟩
    have length : before.length = p := by simpa [position, passed] using place
    have all := reads.all
    rw [← all, Stream.all, passed, List.reverse_cons, List.append_assoc, ← length,
      ← List.length_reverse, List.getElem?_append_right (Nat.le_refl _), Nat.sub_self]
    rfl

theorem Reads.spanFrom_eq (reads : Reads tokens s) {whole : List PlacedToken}
    (contiguous : Contiguous whole) (sub : tokens.Sublist whole) {p : Nat}
    (moved : p < s.position) :
    ∃ first last, tokens[p]? = some first ∧ tokens[s.position - 1]? = some last ∧
      s.spanFrom p = ⟨first.span.start, last.span.stop⟩ := by
  have ordered : ∀ t ∈ tokens, t.span.stop.before t.span.start = false :=
    fun t member => contiguous.ordered t (sub.subset member)
  have pairwise := contiguous.pairwise.sublist sub
  have bound : p < tokens.length := by
    have := reads.position_lt
    rw [reads.size_eq] at this
    omega
  obtain ⟨last, found, previous⟩ := reads.previous_eq (p := s.position - 1) (by omega)
  have start : tokens[p]? = some tokens[p] := List.getElem?_eq_getElem bound
  refine ⟨tokens[p], last, start, found, ?_⟩
  have span : s.spanFrom p = tokens[p].span.merge last.span := by
    rw [spanFrom, if_pos moved, reads.all, start, previous]
    rfl
  rw [span]
  obtain ⟨inside, rfl⟩ := List.getElem?_eq_some_iff.mp found
  by_cases same : p = s.position - 1
  · subst same
    exact merge_self _
  · have order := List.pairwise_iff_getElem.mp pairwise p (s.position - 1) bound inside (by omega)
    exact merge_eq (ordered _ (List.getElem_mem bound)) order (ordered _ (List.getElem_mem inside))

end Spans

section Runs

variable {tokens : List PlacedToken} {s : Stream}

theorem Reads.consumes_iff (reads : Reads tokens s) {c : Call} (stays : c.restores = false) :
    ((s.call c).1.consumes = true ↔ c.wants s.current = true ∧ s.current ≠ .eof) ∧
      (s.call c).2.position =
        if (s.call c).1.consumes then s.position + 1 else s.position := by
  rcases reads.call_cases stays with
    ⟨t, rest, ahead, inner, wants, consumes, -, passes⟩ | ⟨idle, refuses, same⟩
  · have current : s.current = t.token := by simp [current, current?, ahead]
    rw [current, consumes, passes]
    exact ⟨⟨fun _ => ⟨wants, inner⟩, fun _ => rfl⟩, rfl⟩
  · rw [refuses, same]
    refine ⟨⟨fun consumes => absurd consumes Bool.false_ne_true, ?_⟩, rfl⟩
    rintro ⟨wants, inner⟩
    rcases idle with idle | eof
    · exact absurd wants (by simp [idle])
    · exact absurd eof inner

theorem getLast?_take_drop {p q : Nat} (moved : p < q) (bound : q ≤ tokens.length) :
    ((tokens.drop p).take (q - p)).getLast? = tokens[q - 1]? := by
  have length : ((tokens.drop p).take (q - p)).length = q - p := by
    rw [List.length_take, List.length_drop]
    omega
  rw [List.getLast?_eq_getElem?, length, List.getElem?_take_of_lt (by omega), List.getElem?_drop]
  congr 1
  omega

-- A cursor stands at a token of its input whatever has been asked of it. A call that does not go
-- back passes this token if it wants it, unless it is the end mark, and otherwise leaves the cursor
-- where it is. After going back to any place, which may be past the end, the tokens that are passed
-- are those of the input from there on, none left out. The span from there on begins where the
-- first of them does and ends with the last one.
theorem run_in_order (tokens : List PlacedToken) (calls : List Call) :
    let significant := (closed tokens).filter (·.token.isSignificant)
    let s := ((ofTokens tokens).run calls).2
    (s.size = significant.length ∧ s.position < s.size ∧
        s.current? = significant[s.position]?) ∧
      (∀ c : Call, c.restores = false →
        ((s.call c).1.consumes = true ↔ c.wants s.current = true ∧ s.current ≠ .eof) ∧
        (s.call c).2.position = if (s.call c).1.consumes then s.position + 1 else s.position) ∧
      ∀ (n : Nat) (further : List Call), (∀ c ∈ further, c.restores = false) →
        let p := min n (significant.length - 1)
        let back := (s.call (.restore n)).2
        let r := back.run further
        let taken := (significant.drop p).take (r.2.position - p)
        back.position = p ∧ p ≤ r.2.position ∧
        List.Forall₂ Reply.Shows (r.1.filter (·.consumes)) taken ∧
        (∀ t ∈ taken, t.token ≠ .eof) ∧
        (Contiguous tokens → p < r.2.position →
          ∃ first last, significant[p]? = some first ∧ taken.getLast? = some last ∧
            r.2.spanFrom p = ⟨first.span.start, last.span.stop⟩) := by
  intro significant s
  have reads : Reads significant s := (reads_ofTokens tokens).run calls
  refine ⟨⟨reads.size_eq, reads.position_lt, reads.current_eq⟩,
    fun c stays => reads.consumes_iff stays, ?_⟩
  intro n further stay p back
  have returned : Reads significant back := reads.moveTo n
  have place : back.position = p := reads.position_moveTo n
  obtain ⟨taken, passes⟩ := returned.passes_run stay
  obtain ⟨onward, same⟩ := returned.taken_eq passes
  rw [place] at onward same
  obtain ⟨-, -, shown, inner⟩ := passes
  rw [same] at shown inner
  refine ⟨place, onward, shown, inner, ?_⟩
  intro contiguous moved
  have after := returned.run further
  have bound := after.position_lt
  rw [after.size_eq] at bound
  have sub : significant.Sublist (closed tokens) := List.filter_sublist
  obtain ⟨first, last, start, stop, span⟩ := after.spanFrom_eq contiguous.closed sub moved
  exact ⟨first, last, start, (getLast?_take_drop moved bound.le).trans stop, span⟩

theorem run_in_order_past_end :
    let name : PlacedToken := ⟨.identifier "x", ⟨⟨0, 1, 1⟩, ⟨1, 1, 2⟩⟩⟩
    let sign : PlacedToken := ⟨.assign, ⟨⟨2, 1, 3⟩, ⟨4, 1, 5⟩⟩⟩
    let tokens := [name, ⟨.space, ⟨⟨1, 1, 2⟩, ⟨2, 1, 3⟩⟩⟩, sign]
    let s := ((ofTokens tokens).run [.restore 7]).2
    let r := (s.call (.restore 0)).2.run
      [.consumeIf Token.isIdentifier, .advanceIfMatches .comma, .advance]
    s.position = 2 ∧ (s.call .advance).2.position = 2 ∧ r.2.position = 2 ∧
      List.Forall₂ Reply.Shows (r.1.filter (·.consumes)) [name, sign] ∧
      r.2.spanFrom 0 = ⟨⟨0, 1, 1⟩, ⟨4, 1, 5⟩⟩ := by
  intro name sign tokens s r
  have stay : ∀ c ∈ [Call.consumeIf Token.isIdentifier, .advanceIfMatches .comma, .advance],
      c.restores = false := by simp [Call.restores]
  obtain ⟨-, single, back⟩ := run_in_order tokens [.restore 7]
  obtain ⟨-, -, shown, -, span⟩ := back 0 _ stay
  have moved : r.2.position = 2 := by decide +kernel
  have seen : (closed tokens).filter (·.token.isSignificant) =
      [name, sign, ⟨.eof, .point ⟨4, 1, 5⟩⟩] := by decide +kernel
  obtain ⟨first, last, start, stop, span⟩ := span ⟨by decide, by decide⟩ (by rw [moved]; decide)
  rw [moved, seen] at shown stop
  rw [seen] at start
  obtain rfl : name = first := Option.some.inj start
  obtain rfl : sign = last := Option.some.inj stop
  exact ⟨rfl, (single .advance rfl).2, moved, shown, span⟩

end Runs

end Stream

end StateActions
