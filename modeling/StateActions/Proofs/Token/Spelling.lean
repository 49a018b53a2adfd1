import StateActions.Proofs.Token.WellFormed
import Mathlib.Data.List.Chain

namespace StateActions

namespace Token

def isWordy : Token → Bool
  | .identifier _ | .boolean _ | .number _ => true
  | _ => false

def isSingleQuoted : Token → Bool
  | .string _ .single => true
  | _ => false

structure Adjacent (first second : Token) : Prop where
  words : first.isWordy = true → second.isWordy = false
  tick : second = .tick → first.isIdentifier = true
  quote : second.isSingleQuoted = true → first.isIdentifier = false

abbrev Readable (previous : Token) (tokens : List Token) : Prop :=
  List.IsChain Adjacent (previous :: tokens)

def DigitsFit : Token → Prop
  | .number value => (toString value).length ≤ Limits.numberDigits
  | _ => True

end Token

def spell (tokens : List Token) : List Char := tokens.flatMap (·.spelling.toList)

@[simp] theorem spell_nil : spell [] = [] := rfl

@[simp] theorem spell_cons (t : Token) (tokens : List Token) :
    spell (t :: tokens) = t.spelling.toList ++ spell tokens := rfl

@[simp] theorem spell_append (left right : List Token) :
    spell (left ++ right) = spell left ++ spell right := List.flatMap_append

theorem takeWhile_run {p : Char → Bool} {run rest : List Char} (all : ∀ c ∈ run, p c = true)
    (ends : ∀ c ∈ rest.head?, p c = false) : (run ++ rest).takeWhile p = run := by
  rw [List.takeWhile_append_of_pos all]
  cases rest with
  | nil => simp
  | cons c more => simp [ends c rfl]

theorem dropWhile_run {p : Char → Bool} {run rest : List Char} (all : ∀ c ∈ run, p c = true)
    (ends : ∀ c ∈ rest.head?, p c = false) : (run ++ rest).dropWhile p = rest := by
  rw [List.dropWhile_append_of_pos all]
  cases rest with
  | nil => rfl
  | cons c more => simp [ends c rfl]

theorem takeWhile_none {p : Char → Bool} {rest : List Char} (ends : ∀ c ∈ rest.head?, p c = false) :
    rest.takeWhile p = [] := takeWhile_run (List.forall_mem_nil _) ends

namespace Numeral

theorem digit?_of_isDigit {c : Char} (digit : c.isDigit = true) :
    digit? c = some (c.toNat - 48) := by
  have bounds : 48 ≤ c.toNat ∧ c.toNat ≤ 57 := Char.isDigit_iff_toNat.mp digit
  unfold digit?
  simp only [if_pos bounds]

theorem value_toDigits (n : Nat) : value 10 (Nat.toDigits 10 n) = n := by
  have digits : ∀ c ∈ Nat.toDigits 10 n, c.isDigit = true :=
    fun c => Nat.isDigit_of_mem_toDigits (by omega) (by omega)
  calc
    value 10 (Nat.toDigits 10 n) = Nat.ofDigitChars 10 (Nat.toDigits 10 n) 0 := by
      rw [Nat.ofDigitChars_eq_foldl, value]
      refine List.foldl_ext _ _ 0 fun sum c member => ?_
      rw [digit?_of_isDigit (digits c member), Nat.mul_comm]
      rfl
    _ = n := Nat.ofDigitChars_ten_toDigits

end Numeral

theorem toList_toString (n : Nat) : (toString n).toList = Nat.toDigits 10 n := by
  rw [Nat.toString_eq_ofList_toDigits, String.toList_ofList]

namespace Lexer

variable {afterName : Bool} {start : Position} {c : Char} {more rest : List Char}

def EndsWord (rest : List Char) : Prop := ∀ c ∈ rest.head?, isNameChar c = false ∧ c ≠ '#'

theorem isNameChar_of_isDigit {c : Char} (digit : c.isDigit = true) : isNameChar c = true := by
  simp [isNameChar, Char.isAlphanum, digit]

theorem not_isDigit_of_isAlpha {c : Char} (alpha : c.isAlpha = true) : c.isDigit = false := by
  rw [Bool.eq_false_iff, ne_eq, Char.isDigit_iff_toNat]
  have letters : 65 ≤ c.toNat ∧ c.toNat ≤ 90 ∨ 97 ≤ c.toNat ∧ c.toNat ≤ 122 := by
    rcases Bool.or_eq_true_iff.mp alpha with upper | lower
    · have within : c.val ≥ 'A'.val ∧ c.val ≤ 'Z'.val := of_decide_eq_true upper
      exact .inl ⟨UInt32.le_iff_toNat_le.mp within.1, UInt32.le_iff_toNat_le.mp within.2⟩
    · obtain ⟨low, high⟩ := Bool.and_eq_true_iff.mp lower
      exact .inr ⟨UInt32.le_iff_toNat_le.mp (of_decide_eq_true low),
        UInt32.le_iff_toNat_le.mp (of_decide_eq_true high)⟩
  show ¬(48 ≤ c.toNat ∧ c.toNat ≤ 57)
  omega

theorem lexeme_word (alpha : c.isAlpha = true) :
    lexeme afterName start c rest = word start c rest := by
  have other : ∀ d : Char, d.isAlpha = false → c ≠ d := by
    rintro d notAlpha rfl
    rw [alpha] at notAlpha
    cases notAlpha
  have digit := not_isDigit_of_isAlpha alpha
  simp [lexeme, other ' ' rfl, other '\t' rfl, other '\n' rfl, other '\r' rfl, other ':' rfl,
    other '\x27' rfl, other '\x22' rfl, digit, isNameStart, alpha]

theorem lexeme_numeral (digit : c.isDigit = true) :
    lexeme afterName start c rest = numeral start c rest := by
  have other : ∀ d : Char, d.isDigit = false → c ≠ d := by
    rintro d notDigit rfl
    rw [digit] at notDigit
    cases notDigit
  simp [lexeme, other ' ' rfl, other '\t' rfl, other '\n' rfl, other '\r' rfl, other ':' rfl,
    other '\x27' rfl, other '\x22' rfl, digit]

theorem EndsWord.not_isNameChar (ends : EndsWord rest) :
    ∀ d ∈ rest.head?, isNameChar d = false := fun d next => (ends d next).1

theorem word_run (others : ∀ d ∈ more, isNameChar d = true)
    (stops : ∀ d ∈ rest.head?, isNameChar d = false)
    (short : (c :: more).length ≤ Limits.identifierLength) :
    word start c (more ++ rest) =
      .ok { token := .ofWord (String.ofList (c :: more)), text := c :: more, rest } := by
  unfold word
  simp only [takeWhile_run others stops, dropWhile_run others stops, if_neg (Nat.not_lt.mpr short)]

theorem EndsWord.not_isDigit (ends : EndsWord rest) : ∀ d ∈ rest.head?, d.isDigit = false := by
  intro d next
  by_contra digit
  have named := isNameChar_of_isDigit (by simpa using digit)
  rw [(ends d next).1] at named
  cases named

theorem numeral_run (others : ∀ d ∈ more, d.isDigit = true)
    (ends : EndsWord rest) (short : (c :: more).length ≤ Limits.numberDigits) :
    numeral start c (more ++ rest) =
      .ok { token := .number (Numeral.value 10 (c :: more)), text := c :: more, rest
            measure := .numeral (c :: more).length false } := by
  have stops := ends.not_isDigit
  have glued : rest.takeWhile isNameChar = [] := takeWhile_none fun d next => (ends d next).1
  unfold numeral
  simp only [takeWhile_run others stops, dropWhile_run others stops, if_neg (Nat.not_lt.mpr short)]
  split
  · next left => exact absurd rfl (ends '#' rfl).2
  · unfold delimited
    simp only [glued]

theorem numeral_based (others : ∀ d ∈ more, d.isDigit = true)
    (short : (c :: more).length ≤ Limits.numberDigits) :
    numeral start c (more ++ '#' :: rest) = basedDigits start (c :: more) rest := by
  have stops : ∀ d ∈ ('#' :: rest).head?, d.isDigit = false := by
    rintro d ⟨⟩
    rfl
  unfold numeral
  simp only [takeWhile_run others stops, dropWhile_run others stops, if_neg (Nat.not_lt.mpr short)]

theorem basedDigits_run {digits body : List Char}
    (base : Numeral.isBase (Numeral.value 10 digits) = true)
    (all : ∀ d ∈ body, Numeral.isDigitIn (Numeral.value 10 digits) d = true)
    (filled : body ≠ []) (short : body.length ≤ Limits.numberDigits)
    (ends : ∀ d ∈ rest.head?, isNameChar d = false) :
    basedDigits start digits (body ++ '#' :: rest) =
      .ok { token := .number (Numeral.value (Numeral.value 10 digits) body)
            text := digits ++ '#' :: (body ++ ['#']), rest
            measure := .numeral digits.length true } := by
  have stops : ∀ d ∈ ('#' :: rest).head?,
      Numeral.isDigitIn (Numeral.value 10 digits) d = false := by
    rintro d ⟨⟩
    rfl
  unfold basedDigits
  simp only [base, takeWhile_run all stops, dropWhile_run all stops, if_neg (Nat.not_lt.mpr short)]
  simp [filled, delimited, takeWhile_none ends]

theorem numeral_tooLong (others : ∀ d ∈ more, d.isDigit = true)
    (long : Limits.numberDigits < (c :: more).length) :
    ∃ e, numeral start c (more ++ rest) = .error e := by
  have longer : Limits.numberDigits < (c :: (more ++ rest).takeWhile Char.isDigit).length := by
    rw [List.takeWhile_append_of_pos others, List.length_cons, List.length_append]
    rw [List.length_cons] at long
    omega
  unfold numeral
  simp only [if_pos longer]
  exact ⟨_, rfl⟩

theorem bne_of_notMem {text : List Char} (absent : c ∉ text) : ∀ d ∈ text, (d != c) = true := by
  intro d member
  rw [bne_iff_ne]
  rintro rfl
  exact absent member

theorem quoted_run {quote : Quote} {content : List Char} (inner : quote.char ∉ content)
    (short : Text.byteLength content ≤ Limits.stringSize) :
    quoted start quote (content ++ quote.char :: rest) =
      .ok { token := .string (String.ofList content) quote
            text := quote.char :: (content ++ [quote.char]), rest
            measure := .content (Text.byteLength content) } := by
  have run := bne_of_notMem inner
  have ends : ∀ d ∈ (quote.char :: rest).head?, (d != quote.char) = false := by
    rintro d ⟨⟩
    simp
  unfold quoted
  simp only [takeWhile_run run ends, dropWhile_run run ends, if_neg (Nat.not_lt.mpr short)]

-- One token that is written out and then followed by something else is cut off whole.
theorem lexeme_spelling {t : Token} (spelled : t.spelling.toList = c :: more)
    (formed : t.WellFormed) (fits : t.DigitsFit)
    (ends : t.isWordy = true → EndsWord rest) (tick : t = .tick → afterName = true)
    (quote : t.isSingleQuoted = true → afterName = false) :
    ∃ measure, lexeme afterName start c (more ++ rest) = .ok ⟨t, c :: more, rest, measure⟩ := by
  cases t with
  | identifier name =>
    obtain ⟨word, short, notTrue, notFalse⟩ := formed
    have whole : String.ofList (c :: more) = name := by
      rw [← spelled]; exact String.ofList_toList
    simp only [Token.spelling] at spelled
    rw [spelled, isWord, Bool.and_eq_true, List.all_eq_true] at word
    rw [← String.length_toList, spelled] at short
    refine ⟨.plain, ?_⟩
    rw [lexeme_word word.1, word_run word.2 (ends rfl).not_isNameChar short, whole, Token.ofWord,
      if_neg notTrue, if_neg notFalse]
  | boolean value =>
    refine ⟨.plain, ?_⟩
    cases value with
    | false =>
      obtain ⟨rfl, rfl⟩ := List.cons.inj (show ['F', 'a', 'l', 's', 'e'] = c :: more from spelled)
      rw [lexeme_word rfl, word_run (List.all_eq_true.mp rfl) (ends rfl).not_isNameChar (by decide)]
      rfl
    | true =>
      obtain ⟨rfl, rfl⟩ := List.cons.inj (show ['T', 'r', 'u', 'e'] = c :: more from spelled)
      rw [lexeme_word rfl, word_run (List.all_eq_true.mp rfl) (ends rfl).not_isNameChar (by decide)]
      rfl
  | number value =>
    simp only [Token.spelling, toList_toString] at spelled
    have digits : ∀ d ∈ c :: more, d.isDigit = true := by
      rw [← spelled]
      exact fun d => Nat.isDigit_of_mem_toDigits (by omega) (by omega)
    have short : (c :: more).length ≤ Limits.numberDigits := by
      rw [← spelled, ← toList_toString, String.length_toList]
      exact fits
    refine ⟨.numeral (c :: more).length false, ?_⟩
    rw [lexeme_numeral (digits c List.mem_cons_self),
      numeral_run (fun d member => digits d (List.mem_cons_of_mem _ member)) (ends rfl) short,
      ← spelled, Numeral.value_toDigits]
  | string content style =>
    obtain ⟨inner, short⟩ := formed
    have shape : style.char :: (content.toList ++ [style.char]) = c :: more := by
      rw [← spelled, Token.spelling]
      simp
    obtain ⟨rfl, rfl⟩ := List.cons.inj shape
    have size := utf8ByteSize_ofList content.toList
    rw [String.ofList_toList] at size
    rw [size] at short
    refine ⟨.content (Text.byteLength content.toList), ?_⟩
    have opened : lexeme afterName start style.char (content.toList ++ [style.char] ++ rest) =
        quoted start style (content.toList ++ style.char :: rest) := by
      rw [List.append_assoc, List.singleton_append]
      cases style with
      | single => rw [quote rfl]; rfl
      | double => rfl
    rw [opened, quoted_run inner short, String.ofList_toList]
  | eof => exact formed.elim
  | tick =>
    obtain ⟨rfl, rfl⟩ := List.cons.inj (show ['\x27'] = c :: more from spelled)
    rw [tick rfl]
    exact ⟨.plain, rfl⟩
  | assign =>
    obtain ⟨rfl, rfl⟩ := List.cons.inj (show [':', '='] = c :: more from spelled)
    exact ⟨.plain, rfl⟩
  | leftParen | rightParen | comma | dot | plus | minus | star | slash | space | tab | newline =>
    obtain ⟨rfl, rfl⟩ := List.cons.inj spelled
    exact ⟨.plain, rfl⟩

theorem lexeme_tooLong {value : Nat} (spelled : (Token.number value).spelling.toList = c :: more)
    (long : ¬ (Token.number value).DigitsFit) :
    ∃ e, lexeme afterName start c (more ++ rest) = .error e := by
  simp only [Token.spelling, toList_toString] at spelled
  have digits : ∀ d ∈ c :: more, d.isDigit = true := by
    rw [← spelled]
    exact fun d => Nat.isDigit_of_mem_toDigits (by omega) (by omega)
  rw [lexeme_numeral (digits c List.mem_cons_self)]
  refine numeral_tooLong (fun d member => digits d (List.mem_cons_of_mem _ member)) ?_
  rw [← spelled, ← toList_toString, String.length_toList]
  exact Nat.lt_of_not_le long

theorem spelling_cons {t : Token} (formed : t.WellFormed) :
    ∃ c more, t.spelling.toList = c :: more := by
  refine List.exists_cons_of_ne_nil fun empty => ?_
  cases t with
  | identifier name =>
    have word := formed.1
    rw [show name.toList = [] from empty] at word
    cases word
  | boolean value => cases value <;> cases empty
  | number value => exact Nat.toDigits_ne_nil ((toList_toString value).symm.trans empty)
  | string content style => simp [Token.spelling] at empty
  | eof => exact formed.elim
  | _ => cases empty

theorem endsWord_spelling {t u : Token} (adjacent : Token.Adjacent t u) (wordy : t.isWordy = true)
    (formed : u.WellFormed) (rest : List Char) : EndsWord (u.spelling.toList ++ rest) := by
  have other := adjacent.words wordy
  cases u with
  | identifier name => cases other
  | boolean value => cases other
  | number value => cases other
  | string content style =>
    have head : ((Token.string content style).spelling.toList ++ rest).head? =
        some style.char := by simp [Token.spelling]
    intro d next
    rw [head] at next
    cases next
    cases style <;> decide
  | eof => exact formed.elim
  | _ => rintro d ⟨⟩; decide

theorem lexeme_readable {previous t : Token} {tokens : List Token}
    (readable : Token.Readable previous (t :: tokens)) (formed : ∀ u ∈ t :: tokens, u.WellFormed)
    (spelled : t.spelling.toList = c :: more) (last : afterName = previous.isIdentifier)
    (fits : t.DigitsFit) (start : Position) :
    ∃ measure, lexeme afterName start c (more ++ spell tokens) =
      .ok ⟨t, c :: more, spell tokens, measure⟩ := by
  obtain ⟨adjacent, rest⟩ := List.isChain_cons_cons.mp readable
  have ends : t.isWordy = true → EndsWord (spell tokens) := by
    intro wordy
    cases tokens with
    | nil => rintro d ⟨⟩
    | cons u tail =>
      exact endsWord_spelling (List.isChain_cons_cons.mp rest).1 wordy
        (formed u (List.mem_cons_of_mem _ List.mem_cons_self)) _
  exact lexeme_spelling spelled (formed t List.mem_cons_self) fits ends
    (fun same => last.trans (adjacent.tick same)) (fun single => last.trans (adjacent.quote single))

section Scan

variable {detailed : Bool} {done : List PlacedToken} {metrics : Metrics} {l : Lexeme}

theorem scan_cons (few : metrics.total < Limits.tokenCount)
    (ok : lexeme (done.head?.any (·.token.isIdentifier)) start c rest = .ok l) :
    scan detailed start done metrics (c :: rest) =
      scan detailed (start.advanceList l.text)
        (⟨l.token, ⟨start, start.advanceList l.text⟩⟩ :: done)
        (metrics.record detailed l.token l.measure) l.rest := by
  rw [scan, if_neg (Nat.not_le.mpr few)]
  split
  · next e failed => rw [ok] at failed; cases failed
  · next found taken => rw [ok] at taken; cases taken; rfl

theorem scan_error {e : LexError}
    (failed : lexeme (done.head?.any (·.token.isIdentifier)) start c rest = .error e) :
    ∃ e, (scan detailed start done metrics (c :: rest)).tokens = .error e := by
  rw [scan]
  split
  · exact ⟨_, rfl⟩
  · split
    · exact ⟨_, rfl⟩
    · next found taken => rw [failed] at taken; cases taken

theorem scan_full (full : Limits.tokenCount ≤ metrics.total) :
    ∃ e, (scan detailed start done metrics (c :: rest)).tokens = .error e := by
  rw [scan, if_pos full]
  exact ⟨_, rfl⟩

def Finds (scan : Scan) (done : List PlacedToken) (tokens : List Token) : Prop :=
  ∃ found stop, scan.tokens = .ok (done.reverse ++ found ++ [⟨.eof, stop⟩]) ∧
    found.map (·.token) = tokens

theorem finds_nil : Finds (scan detailed start done metrics []) done [] := by
  refine ⟨[], .point start, ?_, rfl⟩
  rw [scan]
  simp

theorem finds_cons {tokens : List Token} (few : metrics.total < Limits.tokenCount)
    (ok : lexeme (done.head?.any (·.token.isIdentifier)) start c rest = .ok l)
    (others : Finds (scan detailed (start.advanceList l.text)
      (⟨l.token, ⟨start, start.advanceList l.text⟩⟩ :: done)
      (metrics.record detailed l.token l.measure) l.rest)
      (⟨l.token, ⟨start, start.advanceList l.text⟩⟩ :: done) tokens) :
    Finds (scan detailed start done metrics (c :: rest)) done (l.token :: tokens) := by
  obtain ⟨found, stop, scanned, same⟩ := others
  refine ⟨⟨l.token, ⟨start, start.advanceList l.text⟩⟩ :: found, stop, ?_, by simp [same]⟩
  rw [scan_cons few ok, scanned]
  simp

-- Written tokens are found again one by one. What is asked of the first token is asked of the rest
-- after it, with this token as the one before.
theorem scan_spelled {previous : Token} {tokens : List Token}
    (readable : Token.Readable previous tokens) (formed : ∀ t ∈ tokens, t.WellFormed)
    (fits : ∀ t ∈ tokens, t.DigitsFit)
    (last : done.head?.any (·.token.isIdentifier) = previous.isIdentifier)
    (few : metrics.total + tokens.length ≤ Limits.tokenCount) :
    Finds (scan detailed start done metrics (spell tokens)) done tokens := by
  induction tokens generalizing previous start done metrics with
  | nil => exact finds_nil
  | cons t tokens ih =>
    obtain ⟨c, more, spelled⟩ := spelling_cons (formed t List.mem_cons_self)
    obtain ⟨measure, ok⟩ := lexeme_readable readable formed spelled last
      (fits t List.mem_cons_self) start
    rw [List.length_cons] at few
    have fewer : (metrics.record detailed t measure).total + tokens.length ≤ Limits.tokenCount := by
      rw [Metrics.record_total]
      omega
    rw [spell_cons, spelled, List.cons_append]
    exact finds_cons (by omega) ok (ih (List.isChain_cons_cons.mp readable).2
      (fun u later => formed u (List.mem_cons_of_mem _ later))
      (fun u later => fits u (List.mem_cons_of_mem _ later)) rfl fewer)

-- The limits are not only enough: a scan of written tokens that got through has kept them.
theorem scan_spelled_limits {previous : Token} {tokens : List Token} {placed : List PlacedToken}
    (readable : Token.Readable previous tokens) (formed : ∀ t ∈ tokens, t.WellFormed)
    (last : done.head?.any (·.token.isIdentifier) = previous.isIdentifier)
    (few : metrics.total ≤ Limits.tokenCount)
    (ok : (scan detailed start done metrics (spell tokens)).tokens = .ok placed) :
    metrics.total + tokens.length ≤ Limits.tokenCount ∧ ∀ t ∈ tokens, t.DigitsFit := by
  induction tokens generalizing previous start done metrics with
  | nil => exact ⟨few, by simp⟩
  | cons t tokens ih =>
    obtain ⟨c, more, spelled⟩ := spelling_cons (formed t List.mem_cons_self)
    rw [spell_cons, spelled, List.cons_append] at ok
    have room : metrics.total < Limits.tokenCount := by
      refine Nat.lt_of_not_le fun full => ?_
      obtain ⟨e, failed⟩ := scan_full full
      rw [failed] at ok
      cases ok
    have fits : t.DigitsFit := by
      by_contra long
      cases t with
      | number value =>
        obtain ⟨e, failed⟩ := lexeme_tooLong spelled long
        obtain ⟨e, failed⟩ := scan_error failed
        rw [failed] at ok
        cases ok
      | _ => exact long trivial
    obtain ⟨measure, taken⟩ := lexeme_readable readable formed spelled last fits start
    rw [scan_cons room taken] at ok
    have fewer : (metrics.record detailed t measure).total ≤ Limits.tokenCount := by
      rw [Metrics.record_total]
      omega
    obtain ⟨count, rest⟩ := ih (List.isChain_cons_cons.mp readable).2
      (fun u later => formed u (List.mem_cons_of_mem _ later)) rfl fewer ok
    rw [Metrics.record_total] at count
    refine ⟨by rw [List.length_cons]; omega, ?_⟩
    intro u member
    rcases List.mem_cons.mp member with rfl | later
    · exact fits
    · exact rest u later

end Scan

theorem run_spelled {detailed : Bool} {source : String} {tokens : List Token}
    (text : source.toList = spell tokens) (readable : Token.Readable .space tokens)
    (formed : ∀ t ∈ tokens, t.WellFormed) (fits : ∀ t ∈ tokens, t.DigitsFit)
    (few : tokens.length ≤ Limits.tokenCount)
    (short : source.utf8ByteSize ≤ Limits.actionLength) :
    Finds (run detailed source) [] tokens := by
  rw [run, if_neg (Nat.not_lt.mpr short), text]
  exact scan_spelled readable formed fits rfl (by simpa using few)

theorem run_spelled_limits {detailed : Bool} {source : String} {tokens : List Token}
    {placed : List PlacedToken} (text : source.toList = spell tokens)
    (readable : Token.Readable .space tokens) (formed : ∀ t ∈ tokens, t.WellFormed)
    (ok : (run detailed source).tokens = .ok placed) :
    source.utf8ByteSize ≤ Limits.actionLength ∧ tokens.length ≤ Limits.tokenCount ∧
      ∀ t ∈ tokens, t.DigitsFit := by
  unfold run at ok
  split at ok
  · cases ok
  · next short =>
    rw [text] at ok
    obtain ⟨count, digits⟩ := scan_spelled_limits readable formed rfl (Nat.zero_le _) ok
    exact ⟨Nat.le_of_not_lt short, by simpa using count, digits⟩

end Lexer

end StateActions
