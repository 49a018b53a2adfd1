import StateActions.Proofs.Source.LineTable
import StateActions.Proofs.Token.Places
import StateActions.Token.Lexer

namespace StateActions

-- The characters from one byte offset up to another. There is no such part of the text if the
-- offsets are in the wrong order or one of them is inside a character or past the end.
def Text.slice? (text : List Char) (start stop : Nat) : Option (List Char) :=
  let head := takeBytes start text
  let piece := takeBytes (stop - start) (dropBytes start text)
  if byteLength head = start ∧ start + byteLength piece = stop then some piece else none

theorem Text.slice?_eq_some_iff {text piece : List Char} {start stop : Nat} :
    slice? text start stop = some piece ↔
      ∃ before after, text = before ++ (piece ++ after) ∧ byteLength before = start ∧
        start + byteLength piece = stop := by
  constructor
  · intro cut
    unfold slice? at cut
    simp only at cut
    split at cut
    · next bounds =>
      cases cut
      refine ⟨takeBytes start text, dropBytes (stop - start) (dropBytes start text), ?_, bounds⟩
      rw [takeBytes_append_dropBytes, takeBytes_append_dropBytes]
    · cases cut
  · rintro ⟨before, after, rfl, rfl, rfl⟩
    simp [slice?]

namespace Span

def slice? (span : Span) (text : List Char) : Option (List Char) :=
  Text.slice? text span.start.offset span.stop.offset

-- The span lies on a text that begins at `origin`, with `piece` between its ends, and going on
-- through the text leads to both of them.
def Covers (origin : Position) (text : List Char) (span : Span) (piece : List Char) : Prop :=
  ∃ before after, text = before ++ (piece ++ after) ∧
    span = ⟨origin.advanceList before, origin.advanceList (before ++ piece)⟩

variable {origin : Position} {text piece : List Char} {span : Span}

theorem covers_start (origin : Position) (piece after : List Char) :
    Covers origin (piece ++ after) ⟨origin, origin.advanceList piece⟩ piece :=
  ⟨[], after, rfl, rfl⟩

theorem covers_point (origin : Position) (text : List Char) :
    Covers origin text (.point origin) [] := covers_start origin [] text

theorem Covers.after {head : List Char}
    (covers : Covers (origin.advanceList head) text span piece) :
    Covers origin (head ++ text) span piece := by
  obtain ⟨before, after, rfl, rfl⟩ := covers
  refine ⟨head ++ before, after, (List.append_assoc ..).symm, ?_⟩
  simp only [Position.advanceList_append]

theorem Covers.slice?_eq (covers : Covers .start text span piece) :
    span.slice? text = some piece := by
  obtain ⟨before, after, rfl, rfl⟩ := covers
  refine Text.slice?_eq_some_iff.mpr ⟨before, after, rfl, ?_, ?_⟩
  · simp [Position.start]
  · simp

end Span

inductive Numeral.Writes : List Char → Nat → Prop
  | decimal {digits : List Char} (filled : digits ≠ []) (all : ∀ d ∈ digits, d.isDigit = true) :
      Writes digits (value 10 digits)
  | based {base digits : List Char} (filled : base ≠ []) (all : ∀ d ∈ base, d.isDigit = true)
      (low : 2 ≤ value 10 base) (high : value 10 base ≤ 16) (body : digits ≠ [])
      (valid : ∀ d ∈ digits, isDigitIn (value 10 base) d = true) :
      Writes (base ++ '#' :: (digits ++ ['#'])) (value (value 10 base) digits)

def Token.Spells (text : List Char) : Token → Prop
  | .number value => Numeral.Writes text value
  | .newline => text = ['\n'] ∨ text = ['\r'] ∨ text = ['\r', '\n']
  | t => text = t.spelling.toList

namespace Form

variable {afterName : Bool} {f : Form} {forms : List Form}

theorem Formed.spells (formed : f.Formed afterName) : f.token.Spells f.text := by
  cases f with
  | fixed text token =>
    have all : ∀ entry ∈ table, entry.2.Spells entry.1 := by
      simp [table, Token.Spells, Token.spelling]
    exact all _ formed
  | tick => rfl
  | string content quote =>
    show _ = (("".push quote.char ++ String.ofList content).push quote.char).toList
    simp [text]
  | boolean value => cases value <;> rfl
  | name text => exact String.toList_ofList.symm
  | decimal digits => exact .decimal formed.1 formed.2
  | based base digits =>
    obtain ⟨⟨filled, all⟩, ⟨low, high⟩, body, valid⟩ := formed
    exact .based filled all low high body valid

theorem Splits.text_eq {text : List Char} (splits : Splits afterName text forms) :
    text = forms.flatMap Form.text := by
  induction splits with
  | nil => rfl
  | cons _ _ ih => rw [List.flatMap_cons, ← ih]

theorem layOut_first (start : Position) (forms : List Form) :
    ∀ t ∈ (layOut start forms).head?, t.span.start = start := by
  cases forms with
  | nil =>
    rintro t ⟨⟩
    rfl
  | cons f forms =>
    rintro t ⟨⟩
    rfl

theorem layOut_adjacent (start : Position) (forms : List Form) :
    (layOut start forms).IsChain fun t u => t.span.stop = u.span.start := by
  induction forms generalizing start with
  | nil => exact .singleton _
  | cons f forms ih =>
    refine List.isChain_cons.mpr ⟨fun t next => ?_, ih _⟩
    exact (layOut_first _ forms t next).symm

-- Only the end mark takes nothing of the text, and it stands where the forms before it lead to.
theorem layOut_ended (start : Position) (filled : ∀ f ∈ forms, f.text ≠ []) :
    ∃ body, layOut start forms =
        body ++ [⟨.eof, .point (start.advanceList (forms.flatMap Form.text))⟩] ∧
      ∀ t ∈ body, t.span.isEmpty = false := by
  induction forms generalizing start with
  | nil => exact ⟨[], rfl, List.forall_mem_nil _⟩
  | cons f forms ih =>
    obtain ⟨first, others⟩ := List.forall_mem_cons.mp filled
    obtain ⟨body, laid, inner⟩ := ih (start.advanceList f.text) others
    refine ⟨⟨f.token, ⟨start, start.advanceList f.text⟩⟩ :: body, ?_, ?_⟩
    · rw [layOut, laid, List.flatMap_cons, Position.advanceList_append, List.cons_append]
    · refine List.forall_mem_cons.mpr ⟨?_, inner⟩
      exact beq_eq_false_iff_ne.mpr (Nat.ne_of_lt (start.offset_advanceList_lt first))

theorem layOut_covers (start : Position) (spelled : ∀ f ∈ forms, f.token.Spells f.text) :
    List.Forall₂
      (fun t piece => t.span.Covers start (forms.flatMap Form.text) piece ∧ t.token.Spells piece)
      (layOut start forms) (forms.map Form.text ++ [[]]) := by
  induction forms generalizing start with
  | nil => exact .cons ⟨Span.covers_point start [], rfl⟩ .nil
  | cons f forms ih =>
    obtain ⟨first, others⟩ := List.forall_mem_cons.mp spelled
    refine .cons ⟨Span.covers_start start f.text _, first⟩ ?_
    exact (ih _ others).imp fun t piece later => ⟨later.1.after, later.2⟩

end Form

structure Tiles (source : String) (tokens : List PlacedToken) : Prop where
  first : ∀ t ∈ tokens.head?, t.span.start = .start
  adjacent : tokens.IsChain fun t u => t.span.stop = u.span.start
  ended : ∃ body stop, tokens = body ++ [⟨.eof, .point stop⟩] ∧
    stop.offset = source.utf8ByteSize ∧ ∀ t ∈ body, t.token ≠ .eof ∧ t.span.isEmpty = false
  spelled : ∃ pieces, pieces.flatten = source.toList ∧
    List.Forall₂ (fun t piece => t.span.slice? source.toList = some piece ∧ t.token.Spells piece)
      tokens pieces

namespace Lexer

variable {detailed : Bool} {source : String} {tokens : List PlacedToken}

theorem run_ended (ok : (run detailed source).tokens = .ok tokens) :
    ∃ body stop, tokens = body ++ [⟨.eof, .point stop⟩] ∧ stop.offset = source.utf8ByteSize ∧
      ∀ t ∈ body, t.token ≠ .eof ∧ t.span.isEmpty = false := by
  obtain ⟨found, mark, closed, formed⟩ := run_wellFormed ok
  obtain ⟨-, forms, splits, -, laid⟩ := run_splits ok
  obtain ⟨body, ended, filled⟩ := Form.layOut_ended .start splits.text_ne_nil
  rw [← splits.text_eq] at ended
  have both := closed.symm.trans (laid.trans ended)
  obtain ⟨rfl, -⟩ := List.append_inj' both rfl
  refine ⟨found, _, laid.trans ended, ?_, fun t member => ?_⟩
  · have size := utf8ByteSize_ofList source.toList
    rw [String.ofList_toList] at size
    rw [Position.offset_advanceList, size]
    exact Nat.zero_add _
  · exact ⟨(formed t member).ne_eof, filled t member⟩

theorem run_covers (ok : (run detailed source).tokens = .ok tokens) :
    ∃ pieces, pieces.flatten = source.toList ∧
      List.Forall₂ (fun t piece => t.span.Covers .start source.toList piece ∧ t.token.Spells piece)
        tokens pieces := by
  obtain ⟨-, forms, splits, -, rfl⟩ := run_splits ok
  have spelled : ∀ f ∈ forms, f.token.Spells f.text := by
    intro f member
    obtain ⟨afterName, formed, -⟩ := splits.formed f member
    exact formed.spells
  have covers := Form.layOut_covers .start spelled
  rw [← splits.text_eq] at covers
  refine ⟨_, ?_, covers⟩
  rw [List.flatten_append, List.flatten_singleton, List.append_nil, splits.text_eq]
  rfl

end Lexer

namespace Tokenization

-- The tokens of a text tile it: no character is left out or taken twice, and each token is what the
-- characters that it takes say.
theorem ofText_tiles (preferences : Preferences.Lexical) (source : String)
    {tokens : List PlacedToken} (ok : (ofText preferences source).tokens = .ok tokens) :
    Tiles source tokens := by
  obtain ⟨-, forms, -, -, laid⟩ := Lexer.run_splits ok
  obtain ⟨pieces, whole, covers⟩ := Lexer.run_covers ok
  refine ⟨?_, ?_, Lexer.run_ended ok, pieces, whole, ?_⟩
  · rw [laid]
    exact Form.layOut_first .start forms
  · rw [laid]
    exact Form.layOut_adjacent .start forms
  · exact covers.imp fun t piece covered => ⟨covered.1.slice?_eq, covered.2⟩

theorem ofText_tiles_bytes :
    ∃ tokens, (ofText {} "x:='é'\r\n2#11#").tokens = .ok tokens ∧
      tokens.map (·.span.start) =
        [⟨0, 1, 1⟩, ⟨1, 1, 2⟩, ⟨3, 1, 4⟩, ⟨7, 1, 7⟩, ⟨9, 2, 1⟩, ⟨14, 2, 6⟩] ∧
      Tiles "x:='é'\r\n2#11#" tokens := by
  have cut : (ofText {} "x:='é'\r\n2#11#").tokens = .ok (Form.layOut .start
      [.name ['x'], .fixed [':', '='] .assign, .string ['é'] .single,
        .fixed ['\r', '\n'] .newline, .based ['2'] ['1', '1']]) := by decide +kernel
  exact ⟨_, cut, by decide, ofText_tiles {} _ cut⟩

end Tokenization

end StateActions
