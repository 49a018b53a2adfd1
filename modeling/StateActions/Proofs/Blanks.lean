import StateActions.Proofs.Parser.Relocation
import StateActions.Proofs.Token.Tiling

namespace StateActions

def IsBlank (c : Char) : Prop := c = ' ' ∨ c = '\t' ∨ c = '\r' ∨ c = '\n'

namespace Form

open Lexer

variable {afterName : Bool} {f : Form} {c : Char} {text rest : List Char} {forms : List Form}

def seen (forms : List Form) : List Token := (forms.map (·.token)).filter Token.isSignificant

theorem seen_append (left right : List Form) : seen (left ++ right) = seen left ++ seen right := by
  simp [seen]

theorem seen_cons (f : Form) (forms : List Form) : seen (f :: forms) = seen [f] ++ seen forms :=
  seen_append [f] forms

theorem seen_layOut (start : Position) (forms : List Form) :
    (significant (layOut start forms)).map (·.token) = seen forms ++ [.eof] := by
  obtain ⟨found, stop, laid, same⟩ := layOut_closed start forms
  rw [laid, seen, ← same, significant, List.filter_append, List.map_append, List.filter_map]
  rfl

-- Another one than a tick may also be read where no name stands before it.
theorem Formed.anywhere (formed : f.Formed afterName) (other : f ≠ .tick) : f.Formed false := by
  cases f with
  | tick => exact absurd rfl other
  | string content quote => exact ⟨formed.1, fun _ => rfl⟩
  | fixed | boolean | name | decimal | based => exact formed

theorem Formed.blank (formed : f.Formed afterName) {more : List Char} (text : f.text = c :: more)
    (blank : IsBlank c) :
    (∃ token, f = .fixed (c :: more) token) ∧ seen [f] = [] ∧ f.token.isIdentifier = false := by
  have notDigit {digits : List Char} (all : ∀ d ∈ digits, d.isDigit = true)
      (member : c ∈ digits) : False := by
    have digit := all c member
    rcases blank with rfl | rfl | rfl | rfl <;> cases digit
  have notWord (word : isWord f.text = true) : False := by
    rw [text, isWord, Bool.and_eq_true] at word
    rcases blank with rfl | rfl | rfl | rfl <;> cases word.1
  cases f with
  | fixed entry token =>
    obtain rfl : entry = c :: more := text
    have all : ∀ entry ∈ table, ∀ d ∈ entry.1.head?, d = ' ' ∨ d = '\t' ∨ d = '\r' ∨ d = '\n' →
        entry.2.isSignificant = false ∧ entry.2.isIdentifier = false := by
      simp [table, Token.isSignificant, Token.isWhitespace, Token.tokenClass, Token.isIdentifier]
    obtain ⟨unseen, other⟩ := all _ formed c rfl blank
    exact ⟨⟨token, rfl⟩, by simp [seen, Form.token, unseen], other⟩
  | tick =>
    obtain ⟨rfl, -⟩ := List.cons.inj text
    rcases blank with same | same | same | same <;> cases same
  | string content quote =>
    obtain ⟨rfl, -⟩ := List.cons.inj text
    cases quote <;> rcases blank with same | same | same | same <;> cases same
  | boolean value => exact (notWord (by cases value <;> rfl)).elim
  | name entry => exact (notWord formed.1).elim
  | decimal digits =>
    obtain rfl : digits = c :: more := text
    exact (notDigit formed.2 List.mem_cons_self).elim
  | based base digits =>
    obtain ⟨first, others, rfl⟩ := List.exists_cons_of_ne_nil formed.1.1
    obtain ⟨rfl, -⟩ := List.cons.inj text
    exact (notDigit formed.1.2 List.mem_cons_self).elim

theorem endsWord_blank (blank : IsBlank c) : EndsWord (c :: text) := by
  rintro d ⟨⟩
  rcases blank with rfl | rfl | rfl | rfl <;> decide

theorem stops_blank (lone : f.text ≠ ['\r']) (blank : IsBlank c) : f.Stops (c :: text) := by
  cases f with
  | fixed entry token => exact fun same => absurd same lone
  | boolean | name | decimal => exact endsWord_blank blank
  | based base digits => exact fun d next => (endsWord_blank blank d next).1
  | tick | string => trivial

theorem Stops.same_head (stops : f.Stops rest) (same : text.head? = rest.head?) : f.Stops text := by
  cases f with
  | fixed entry token => exact fun carriage => by rw [same]; exact stops carriage
  | boolean | name | decimal =>
    unfold Stops EndsWord
    rw [same]
    exact stops
  | based base digits =>
    unfold Stops
    rw [same]
    exact stops
  | tick | string => trivial

namespace Splits

theorem parts (splits : Splits afterName text (f :: forms)) :
    ∃ rest, text = f.text ++ rest ∧ f.Formed afterName ∧ f.Fits ∧ f.Stops rest ∧
      Splits f.token.isIdentifier rest forms := by
  cases splits with
  | cons first others =>
    exact ⟨_, rfl, first.formed, first.fits, stops_of_cuts first (unmarked_of_splits others),
      others⟩

theorem length_le (splits : Splits afterName text forms) : forms.length ≤ text.length := by
  induction splits with
  | nil => exact Nat.le_refl 0
  | cons first _ ih =>
    have filled := List.length_pos_iff.mpr first.formed.text_ne_nil
    rw [List.length_cons, List.length_append]
    omega

theorem anywhere (splits : Splits afterName text forms) (untied : ∀ f ∈ forms.head?, f ≠ .tick) :
    Splits false text forms := by
  cases forms with
  | nil =>
    cases splits
    exact .nil false
  | cons f forms =>
    obtain ⟨rest, rfl, formed, fits, stops, others⟩ := splits.parts
    exact splits_cons (formed.anywhere (untied f rfl)) fits stops others

theorem feed (splits : Splits afterName ('\n' :: rest) forms) :
    ∃ later, Splits false rest later ∧ seen later = seen forms := by
  cases forms with
  | nil => cases splits.text_eq
  | cons f forms =>
    obtain ⟨left, whole, formed, -, -, later⟩ := splits.parts
    obtain ⟨d, more, text, -⟩ := formed.head
    rw [text] at whole
    obtain ⟨rfl, rfl⟩ := List.cons.inj whole
    obtain ⟨⟨token, rfl⟩, unseen, other⟩ := formed.blank text (.inr (.inr (.inr rfl)))
    obtain rfl : more = [] := by
      rcases table_length formed with single | pair | pair
      · simpa using single
      · cases (List.cons.inj pair).1
      · cases (List.cons.inj pair).1
    rw [other] at later
    refine ⟨forms, later, ?_⟩
    rw [seen_cons (.fixed ['\n'] token), unseen, List.nil_append]

-- One more blank before a text is read anywhere. A carriage return and a line feed after it are
-- read as one line end.
theorem blank (splits : Splits false text forms) (blank : IsBlank c) :
    ∃ others, (∀ afterName, Splits afterName (c :: text) others) ∧ seen others = seen forms := by
  by_cases merged : c = '\r' ∧ ∃ rest, text = '\n' :: rest
  · obtain ⟨rfl, rest, rfl⟩ := merged
    obtain ⟨later, after, same⟩ := splits.feed
    refine ⟨.fixed ['\r', '\n'] .newline :: later, fun afterName => ?_, same⟩
    exact splits_fixed ['\r', '\n'] (by simp [table]) (absurd · (by decide)) after
  · have single : ∃ token, ([c], token) ∈ table ∧ token.isIdentifier = false ∧
        token.isSignificant = false := by
      rcases blank with rfl | rfl | rfl | rfl
      · exact ⟨.space, by simp [table], rfl, rfl⟩
      · exact ⟨.tab, by simp [table], rfl, rfl⟩
      · exact ⟨.newline, by simp [table], rfl, rfl⟩
      · exact ⟨.newline, by simp [table], rfl, rfl⟩
    obtain ⟨token, listed, other, unseen⟩ := single
    refine ⟨.fixed [c] token :: forms, fun afterName => ?_, ?_⟩
    · refine splits_fixed [c] listed ?_ (by rwa [other])
      rintro carriage d next rfl
      obtain ⟨rest, rfl⟩ := List.head?_eq_some_iff.mp next
      exact merged ⟨(List.cons.inj carriage).1, rest, rfl⟩
    · rw [seen_cons]
      simp [seen, Form.token, unseen]

theorem blanks {blanks : List Char} (splits : Splits false text forms)
    (blank : ∀ c ∈ blanks, IsBlank c) :
    ∃ others, Splits false (blanks ++ text) others ∧ seen others = seen forms := by
  induction blanks with
  | nil => exact ⟨forms, splits, rfl⟩
  | cons c more ih =>
    obtain ⟨first, rest⟩ := List.forall_mem_cons.mp blank
    obtain ⟨between, later, same⟩ := ih rest
    obtain ⟨others, whole, same'⟩ := later.blank first
    exact ⟨others, whole false, same'.trans same⟩

-- Blanks between two forms leave those before them and those after them as they are, or go together
-- with a line end.
theorem insert {blanks left right : List Char} {before after : List Form}
    (splits : Splits afterName (left ++ right) (before ++ after))
    (whole : left = before.flatMap Form.text) (untied : ∀ f ∈ after.head?, f ≠ .tick)
    (blank : ∀ c ∈ blanks, IsBlank c) :
    ∃ forms, Splits afterName (left ++ (blanks ++ right)) forms ∧
      seen forms = seen (before ++ after) := by
  rcases blanks with _ | ⟨c, more⟩
  · exact ⟨before ++ after, splits, rfl⟩
  obtain ⟨isBlank, others⟩ := List.forall_mem_cons.mp blank
  induction before generalizing afterName left with
  | nil =>
    subst whole
    obtain ⟨between, later, same⟩ := (splits.anywhere untied).blanks others
    obtain ⟨forms, first, same'⟩ := later.blank isBlank
    exact ⟨forms, first afterName, same'.trans same⟩
  | cons f before ih =>
    rw [List.flatMap_cons] at whole
    subst whole
    obtain ⟨rest, text, formed, fits, stops, later⟩ := splits.parts
    rw [List.append_assoc] at text
    obtain rfl := List.append_cancel_left text
    obtain ⟨forms, inserted, same⟩ := ih later rfl
    rw [List.append_assoc, show f :: before ++ after = f :: (before ++ after) from rfl, seen_cons,
      ← same]
    by_cases carriage : f.text = ['\r']
    · obtain ⟨-, unseen, other⟩ := formed.blank carriage (.inr (.inr (.inl rfl)))
      rw [other] at inserted
      obtain ⟨forms', joined, same'⟩ := inserted.blank (c := '\r') (.inr (.inr (.inl rfl)))
      rw [carriage, unseen]
      exact ⟨forms', joined afterName, same'⟩
    · refine ⟨f :: forms, splits_cons formed fits ?_ inserted, seen_cons f forms⟩
      cases text : before.flatMap Form.text with
      | nil => exact stops_blank carriage isBlank
      | cons d tail =>
        refine stops.same_head ?_
        rw [text]
        rfl

end Splits

theorem layOut_parts {start : Position} {t : PlacedToken} (member : t ∈ layOut start forms) :
    ∃ before after, forms = before ++ after ∧
      t.span.start = start.advanceList (before.flatMap Form.text) ∧
      ∀ f ∈ after.head?, f.token = t.token := by
  induction forms generalizing start with
  | nil =>
    obtain rfl := List.mem_singleton.mp member
    exact ⟨[], [], rfl, rfl, fun f first => nomatch first⟩
  | cons f forms ih =>
    rcases List.mem_cons.mp member with rfl | later
    · refine ⟨[], f :: forms, rfl, rfl, ?_⟩
      rintro g ⟨⟩
      rfl
    · obtain ⟨before, after, rfl, place, first⟩ := ih later
      refine ⟨f :: before, after, rfl, ?_, first⟩
      rw [place, List.flatMap_cons, Position.advanceList_append]

end Form

section Texts

variable {left blanks right : String} {tokens : List PlacedToken} {t : PlacedToken}

-- Blanks may be put in wherever a token other than a tick begins, which may be the end mark, as
-- long as the limits of a text are kept.
theorem Lexer.run_insert {detailed : Bool}
    (cut : (run detailed (left ++ right)).tokens = .ok tokens) (member : t ∈ tokens)
    (starts : t.span.start.offset = left.utf8ByteSize) (untied : t.token ≠ .tick)
    (blank : ∀ c ∈ blanks.toList, IsBlank c)
    (short : (left ++ blanks ++ right).utf8ByteSize ≤ Limits.actionLength)
    (few : ∀ forms, Form.Splits false (left ++ blanks ++ right).toList forms →
      forms.length ≤ Limits.tokenCount) :
    ∃ others, (run detailed (left ++ blanks ++ right)).tokens = .ok others ∧
      (significant tokens).map (·.token) = (significant others).map (·.token) := by
  obtain ⟨-, forms, splits, -, rfl⟩ := run_splits cut
  obtain ⟨before, after, rfl, place, first⟩ := Form.layOut_parts member
  rw [String.toList_append] at splits
  have whole : left.toList = before.flatMap Form.text := by
    have size := utf8ByteSize_ofList left.toList
    rw [String.ofList_toList] at size
    rw [place, Position.offset_advanceList, size] at starts
    have bytes : Text.byteLength (before.flatMap Form.text) = Text.byteLength left.toList := by
      simpa [Position.start] using starts
    have text := splits.text_eq
    rw [List.flatMap_append] at text
    rw [← Text.takeBytes_byteLength left.toList right.toList, text, ← bytes,
      Text.takeBytes_byteLength]
  have other : ∀ f ∈ after.head?, f ≠ .tick := by
    rintro f next rfl
    exact untied (first .tick next).symm
  obtain ⟨forms, inserted, same⟩ := splits.insert whole other blank
  rw [← List.append_assoc, ← String.toList_append, ← String.toList_append] at inserted
  refine ⟨_, (run_exact detailed _ _).mpr ⟨short, forms, inserted, few forms inserted, rfl⟩, ?_⟩
  rw [Form.seen_layOut, Form.seen_layOut, same]

-- Then the grammar sees the same tokens, and the text is read as the same action, or has the same
-- error at the token of the same number.
theorem Grammar.parse_insert {g : Grammar} (climbing : g.arithmetic = PrecedenceClimbing.rule)
    (cut : (Lexer.run g.lexical.detailedMetrics (left ++ right)).tokens = .ok tokens)
    (member : t ∈ tokens) (starts : t.span.start.offset = left.utf8ByteSize)
    (untied : t.token ≠ .tick) (blank : ∀ c ∈ blanks.toList, IsBlank c)
    (short : (left ++ blanks ++ right).utf8ByteSize ≤ Limits.actionLength)
    (few : ∀ forms, Form.Splits false (left ++ blanks ++ right).toList forms →
      forms.length ≤ Limits.tokenCount) :
    ∃ others, (Lexer.run g.lexical.detailedMetrics (left ++ blanks ++ right)).tokens = .ok others ∧
      (significant tokens).map (·.token) = (significant others).map (·.token) ∧
      SameEnd (SamePlace tokens others) (g.parse (left ++ right)).result
        (g.parse (left ++ blanks ++ right)).result := by
  obtain ⟨others, cut', same⟩ := Lexer.run_insert cut member starts untied blank short few
  exact ⟨others, cut', same, result_sameEnd climbing cut cut' same⟩

theorem Grammar.parse_insert_line_end :
    ∃ tokens others, (Lexer.run ({} : Grammar).lexical.detailedMetrics ("x:=1\r" ++ "+")).tokens =
        .ok tokens ∧
      (Lexer.run ({} : Grammar).lexical.detailedMetrics ("x:=1\r" ++ "\n " ++ "+")).tokens =
        .ok others ∧
      (({} : Grammar).parse ("x:=1\r" ++ "+")).result =
        .error (.structuralMismatch "operand" "end of input" ⟨⟨6, 1, 7⟩, ⟨6, 1, 7⟩⟩) ∧
      SameEnd (SamePlace tokens others) (({} : Grammar).parse ("x:=1\r" ++ "+")).result
        (({} : Grammar).parse ("x:=1\r" ++ "\n " ++ "+")).result := by
  have cut : (Lexer.run ({} : Grammar).lexical.detailedMetrics ("x:=1\r" ++ "+")).tokens =
      .ok (Form.layOut .start [.name ['x'], .fixed [':', '='] .assign, .decimal ['1'],
        .fixed ['\r'] .newline, .fixed ['+'] .plus]) := by decide +kernel
  have failed : (({} : Grammar).parse ("x:=1\r" ++ "+")).result =
      .error (.structuralMismatch "operand" "end of input" ⟨⟨6, 1, 7⟩, ⟨6, 1, 7⟩⟩) := by
    decide +kernel
  have blank : ∀ c ∈ "\n ".toList, IsBlank c := by simp [IsBlank]
  obtain ⟨others, cut', -, alike⟩ := parse_insert (t := ⟨.plus, ⟨⟨5, 1, 6⟩, ⟨6, 1, 7⟩⟩⟩) rfl cut
    (by decide) (by decide) (by decide) blank (by decide)
    fun forms splits => splits.length_le.trans (by decide)
  exact ⟨_, others, cut, cut', failed, alike⟩

end Texts

end StateActions
