import StateActions.Proofs.Token.Spelling

namespace StateActions

inductive Form
  | fixed (text : List Char) (token : Token)
  | tick
  | string (content : List Char) (quote : Quote)
  | boolean (value : Bool)
  | name (text : List Char)
  | decimal (digits : List Char)
  | based (base digits : List Char)
deriving DecidableEq, Repr

namespace Form

def table : List (List Char × Token) :=
  [([' '], .space), (['\t'], .tab), (['\n'], .newline), (['\r'], .newline),
    (['\r', '\n'], .newline), ([':', '='], .assign), (['('], .leftParen), ([')'], .rightParen),
    ([','], .comma), (['.'], .dot), (['+'], .plus), (['-'], .minus), (['*'], .star),
    (['/'], .slash)]

def text : Form → List Char
  | .fixed text _ => text
  | .tick => ['\x27']
  | .string content quote => quote.char :: (content ++ [quote.char])
  | .boolean true => ['T', 'r', 'u', 'e']
  | .boolean false => ['F', 'a', 'l', 's', 'e']
  | .name text => text
  | .decimal digits => digits
  | .based base digits => base ++ '#' :: (digits ++ ['#'])

def token : Form → Token
  | .fixed _ token => token
  | .tick => .tick
  | .string content quote => .string (String.ofList content) quote
  | .boolean value => .boolean value
  | .name text => .identifier (String.ofList text)
  | .decimal digits => .number (Numeral.value 10 digits)
  | .based base digits => .number (Numeral.value (Numeral.value 10 base) digits)

def measure : Form → Measure
  | .string content _ => .content (Text.byteLength content)
  | .decimal digits => .numeral digits.length false
  | .based base _ => .numeral base.length true
  | _ => .plain

-- The forms of the grammar, limits apart. Only the single quote depends on what stands before it:
-- it is a tick right after a name and opens a string anywhere else.
def Formed (afterName : Bool) : Form → Prop
  | .fixed text token => (text, token) ∈ table
  | .tick => afterName = true
  | .string content quote => quote.char ∉ content ∧ (quote = .single → afterName = false)
  | .boolean _ => True
  | .name text => isWord text = true ∧ text ≠ "True".toList ∧ text ≠ "False".toList
  | .decimal digits => digits ≠ [] ∧ ∀ d ∈ digits, d.isDigit = true
  | .based base digits =>
    (base ≠ [] ∧ ∀ d ∈ base, d.isDigit = true) ∧
      (2 ≤ Numeral.value 10 base ∧ Numeral.value 10 base ≤ 16) ∧
      digits ≠ [] ∧ ∀ d ∈ digits, Numeral.isDigitIn (Numeral.value 10 base) d = true

def Fits : Form → Prop
  | .string content _ => (String.ofList content).utf8ByteSize ≤ Limits.stringSize
  | .name text => text.length ≤ Limits.identifierLength
  | .decimal digits => digits.length ≤ Limits.numberDigits
  | .based base digits =>
    base.length ≤ Limits.numberDigits ∧ digits.length ≤ Limits.numberDigits
  | _ => True

-- A numeral does not run into a letter, a digit or an underscore.
def Ends (rest : List Char) : Form → Prop
  | .decimal _ | .based .. => ∀ c ∈ rest.head?, (c.isAlphanum || c == '_') = false
  | _ => True

-- What comes after the form does not go on with it: a word or a numeral ends, and a carriage return
-- is a whole line end.
def Stops (rest : List Char) : Form → Prop
  | .fixed text _ => text = ['\r'] → ∀ c ∈ rest.head?, c ≠ '\n'
  | .boolean _ | .name _ | .decimal _ => Lexer.EndsWord rest
  | .based .. => ∀ c ∈ rest.head?, Lexer.isNameChar c = false
  | .tick | .string .. => True

-- The form is what a text that goes on with `rest` is cut at: no other form takes more of the text.
structure Cuts (afterName : Bool) (f : Form) (rest : List Char) : Prop where
  formed : f.Formed afterName
  longest : ∀ g : Form, g.Formed afterName → g.text <+: f.text ++ rest →
    g.text.length ≤ f.text.length
  fits : f.Fits
  ends : f.Ends rest

inductive Splits : Bool → List Char → List Form → Prop
  | nil (afterName : Bool) : Splits afterName [] []
  | cons {afterName : Bool} {f : Form} {rest : List Char} {forms : List Form}
      (first : f.Cuts afterName rest) (others : Splits f.token.isIdentifier rest forms) :
      Splits afterName (f.text ++ rest) (f :: forms)

def layOut (start : Position) : List Form → List PlacedToken
  | [] => [⟨.eof, .point start⟩]
  | f :: forms =>
    ⟨f.token, ⟨start, start.advanceList f.text⟩⟩ :: layOut (start.advanceList f.text) forms

variable {afterName : Bool} {f g : Form} {c : Char} {rest : List Char}

theorem table_length {text : List Char} {token : Token} (listed : (text, token) ∈ table) :
    text.length = 1 ∨ text = ['\r', '\n'] ∨ text = [':', '='] := by
  have all : ∀ entry ∈ table,
      entry.1.length = 1 ∨ entry.1 = ['\r', '\n'] ∨ entry.1 = [':', '='] := by decide
  exact all _ listed

theorem table_head {text : List Char} {token : Token} (listed : (text, token) ∈ table) :
    ∃ c more, text = c :: more ∧ c ≠ '#' := by
  have all : ∀ entry ∈ table, ∃ c more, entry.1 = c :: more ∧ c ≠ '#' := by
    simp [table]
  exact all _ listed

theorem Formed.head (formed : f.Formed afterName) : ∃ c more, f.text = c :: more ∧ c ≠ '#' := by
  have digit : ∀ digits : List Char, digits ≠ [] → (∀ d ∈ digits, d.isDigit = true) →
      ∃ c more, digits = c :: more ∧ c ≠ '#' := by
    intro digits filled all
    obtain ⟨c, more, rfl⟩ := List.exists_cons_of_ne_nil filled
    refine ⟨c, more, rfl, ?_⟩
    rintro rfl
    cases all '#' List.mem_cons_self
  cases f with
  | fixed text token => exact table_head formed
  | tick => exact ⟨_, _, rfl, by decide⟩
  | string content quote => exact ⟨_, _, rfl, by cases quote <;> decide⟩
  | boolean value => cases value <;> exact ⟨_, _, rfl, by decide⟩
  | name text =>
    cases text with
    | nil => cases formed.1
    | cons c more =>
      refine ⟨c, more, rfl, ?_⟩
      rintro rfl
      cases formed.1
  | decimal digits => exact digit digits formed.1 formed.2
  | based base digits =>
    obtain ⟨c, more, rfl, other⟩ := digit base formed.1.1 formed.1.2
    exact ⟨c, _, rfl, other⟩

theorem Formed.text_ne_nil (formed : f.Formed afterName) : f.text ≠ [] := by
  obtain ⟨c, more, text, -⟩ := formed.head
  rw [text]
  exact List.cons_ne_nil c more

theorem ofList_ne {text : List Char} {word : String} (other : text ≠ word.toList) :
    String.ofList text ≠ word := by
  rintro rfl
  exact other String.toList_ofList.symm

theorem ofWord_name {text : List Char} (notTrue : text ≠ "True".toList)
    (notFalse : text ≠ "False".toList) :
    Token.ofWord (String.ofList text) = .identifier (String.ofList text) := by
  rw [Token.ofWord, if_neg (ofList_ne notTrue), if_neg (ofList_ne notFalse)]

theorem Formed.wellFormed (formed : f.Formed afterName) (fits : f.Fits) : f.token.WellFormed := by
  cases f with
  | fixed text token =>
    have all : ∀ entry ∈ table, entry.2.WellFormed := by simp [table, Token.WellFormed]
    exact all _ formed
  | string content quote => exact ⟨by rw [String.toList_ofList]; exact formed.1, fits⟩
  | name text =>
    obtain ⟨word, notTrue, notFalse⟩ := formed
    exact ⟨by rwa [String.toList_ofList], by rwa [String.length_ofList],
      ofList_ne notTrue, ofList_ne notFalse⟩
  | tick | boolean | decimal | based => trivial

theorem formed_of_isWord {text : List Char} (word : isWord text = true) :
    ∃ f : Form, f.Formed afterName ∧ f.text = text ∧
      f.token = .ofWord (String.ofList text) ∧
      (text.length ≤ Limits.identifierLength → f.Fits) ∧ ∀ rest, f.Ends rest := by
  by_cases isTrue : text = "True".toList
  · exact ⟨.boolean true, trivial, isTrue.symm, by subst isTrue; rfl, fun _ => trivial,
      fun _ => trivial⟩
  by_cases isFalse : text = "False".toList
  · exact ⟨.boolean false, trivial, isFalse.symm, by subst isFalse; rfl, fun _ => trivial,
      fun _ => trivial⟩
  exact ⟨.name text, ⟨word, isTrue, isFalse⟩, rfl, (ofWord_name isTrue isFalse).symm, id,
    fun _ => trivial⟩

theorem Splits.formed {text : List Char} {forms : List Form}
    (splits : Splits afterName text forms) :
    ∀ f ∈ forms, ∃ afterName, f.Formed afterName ∧ f.Fits := by
  induction splits with
  | nil => exact List.forall_mem_nil _
  | cons first _ ih => exact List.forall_mem_cons.mpr ⟨⟨_, first.formed, first.fits⟩, ih⟩

theorem layOut_closed (start : Position) (forms : List Form) :
    ∃ found stop, layOut start forms = found ++ [⟨.eof, stop⟩] ∧
      found.map (·.token) = forms.map (·.token) := by
  induction forms generalizing start with
  | nil => exact ⟨[], .point start, rfl, rfl⟩
  | cons f forms ih =>
    obtain ⟨found, stop, laid, same⟩ := ih (start.advanceList f.text)
    refine ⟨⟨f.token, ⟨start, start.advanceList f.text⟩⟩ :: found, stop, ?_, ?_⟩
    · rw [layOut, laid, List.cons_append]
    · rw [List.map_cons, List.map_cons, same]

end Form

theorem run_le {p : Char → Bool} {run rest run' rest' : List Char} (all : ∀ c ∈ run, p c = true)
    (all' : ∀ c ∈ run', p c = true) (ends' : ∀ c ∈ rest'.head?, p c = false)
    (same : run ++ rest = run' ++ rest') : run.length ≤ run'.length := by
  rw [← takeWhile_run all' ends', ← same, List.takeWhile_append_of_pos all, List.length_append]
  exact Nat.le_add_right _ _

theorem run_eq {p : Char → Bool} {run rest run' rest' : List Char} (all : ∀ c ∈ run, p c = true)
    (ends : ∀ c ∈ rest.head?, p c = false) (all' : ∀ c ∈ run', p c = true)
    (ends' : ∀ c ∈ rest'.head?, p c = false) (same : run ++ rest = run' ++ rest') :
    run = run' ∧ rest = rest' := by
  have first := takeWhile_run all ends
  rw [same, takeWhile_run all' ends'] at first
  subst first
  exact ⟨rfl, List.append_cancel_left same⟩

theorem all_takeWhile (p : Char → Bool) (text : List Char) :
    ∀ c ∈ text.takeWhile p, p c = true := List.all_eq_true.mp List.all_takeWhile

theorem head_dropWhile (p : Char → Bool) (text : List Char) :
    ∀ c ∈ (text.dropWhile p).head?, p c = false := by
  intro c head
  have stops := List.head?_dropWhile_not p text
  rw [Option.mem_def.mp head] at stops
  simpa using stops

namespace Lexer

open Form

variable {afterName : Bool} {start : Position} {c : Char} {rest : List Char} {l : Lexeme} {f : Form}

theorem lexeme_quoted {quote : Quote} (opens : quote = .single → afterName = false) :
    lexeme afterName start quote.char rest = quoted start quote rest := by
  cases quote with
  | single => rw [opens rfl]; rfl
  | double => rfl

section Outcomes

theorem word_ok (ok : word start c rest = .ok l) :
    l = { token := .ofWord (String.ofList (c :: rest.takeWhile isNameChar)),
          text := c :: rest.takeWhile isNameChar, rest := rest.dropWhile isNameChar } ∧
      (c :: rest.takeWhile isNameChar).length ≤ Limits.identifierLength := by
  unfold word at ok
  simp only at ok
  split at ok
  · cases ok
  · next short =>
    cases ok
    exact ⟨rfl, Nat.le_of_not_lt short⟩

theorem quoted_ok {quote : Quote} (ok : quoted start quote rest = .ok l) :
    ∃ content, rest = content ++ quote.char :: l.rest ∧ quote.char ∉ content ∧
      Text.byteLength content ≤ Limits.stringSize ∧
      l.token = .string (String.ofList content) quote ∧
      l.text = quote.char :: (content ++ [quote.char]) := by
  have whole := List.takeWhile_append_dropWhile (l := rest) (p := (· != quote.char))
  have stops := head_dropWhile (· != quote.char) rest
  have inner : quote.char ∉ rest.takeWhile (· != quote.char) := by
    intro member
    simpa using all_takeWhile _ _ _ member
  unfold quoted at ok
  simp only at ok
  split at ok
  · cases ok
  · next short =>
    split at ok
    · cases ok
    · next close left found =>
      cases ok
      rw [found] at whole stops
      obtain rfl : close = quote.char := by simpa using stops close rfl
      exact ⟨_, whole.symm, inner, Nat.le_of_not_lt short, rfl, rfl⟩

theorem delimited_rest {m : Lexeme} (ok : delimited start m = .ok l) :
    ∀ d ∈ m.rest.head?, isNameChar d = false := by
  unfold delimited at ok
  split at ok
  · next none =>
    intro d next
    by_contra named
    cases left : m.rest with
    | nil => rw [left] at next; cases next
    | cons head tail =>
      rw [left] at next none
      cases next
      rw [List.takeWhile_cons_of_pos (by simpa using named)] at none
      cases none
  · cases ok

theorem basedDigits_ok {base : List Char} (ok : basedDigits start base rest = .ok l) :
    ∃ digits, rest = digits ++ '#' :: l.rest ∧
      Numeral.isBase (Numeral.value 10 base) = true ∧ digits ≠ [] ∧
      (∀ d ∈ digits, Numeral.isDigitIn (Numeral.value 10 base) d = true) ∧
      digits.length ≤ Limits.numberDigits ∧ (∀ d ∈ l.rest.head?, isNameChar d = false) ∧
      l.token = .number (Numeral.value (Numeral.value 10 base) digits) ∧
      l.text = base ++ '#' :: (digits ++ ['#']) := by
  have whole := List.takeWhile_append_dropWhile (l := rest)
    (p := Numeral.isDigitIn (Numeral.value 10 base))
  unfold basedDigits at ok
  simp only at ok
  split at ok
  · cases ok
  next allowed =>
  split at ok
  · cases ok
  next close left found =>
  split at ok
  · cases ok
  next closed =>
  split at ok
  · cases ok
  next short =>
  have ends := delimited_rest ok
  obtain rfl := delimited_ok ok
  rw [found] at whole
  obtain ⟨rfl, filled⟩ : close = '#' ∧ _ := by simpa using closed
  exact ⟨_, whole.symm, by simpa using allowed, by simpa using filled, all_takeWhile _ _,
    Nat.le_of_not_lt short, ends, rfl, rfl⟩

theorem numeral_ok (ok : numeral start c rest = .ok l) :
    ∃ more, (∀ d ∈ more, d.isDigit = true) ∧ (c :: more).length ≤ Limits.numberDigits ∧
      ((rest = more ++ l.rest ∧ EndsWord l.rest ∧
          l.token = .number (Numeral.value 10 (c :: more)) ∧ l.text = c :: more) ∨
        ∃ left, rest = more ++ '#' :: left ∧ basedDigits start (c :: more) left = .ok l) := by
  have whole := List.takeWhile_append_dropWhile (l := rest) (p := Char.isDigit)
  unfold numeral at ok
  simp only at ok
  split at ok
  · cases ok
  next short =>
  refine ⟨rest.takeWhile Char.isDigit, all_takeWhile _ _, Nat.le_of_not_lt short, ?_⟩
  split at ok
  · next left found =>
    rw [found] at whole
    exact .inr ⟨left, whole.symm, ok⟩
  · next left unmarked =>
    have ends := delimited_rest ok
    obtain rfl := delimited_ok ok
    refine .inl ⟨whole.symm, fun d next => ⟨ends d next, ?_⟩, rfl, rfl⟩
    rintro rfl
    obtain ⟨tail, same⟩ := List.head?_eq_some_iff.mp next
    exact unmarked tail same

theorem lexeme_error {e : LexError} (failed : lexeme afterName start c rest = .error e) :
    (∃ expected, e = .invalidCharacter c expected ⟨start, start.advance c⟩) ∨
      (∃ quote : Quote, quote.char = c ∧ quoted start quote rest = .error e) ∨
      numeral start c rest = .error e ∨ word start c rest = .error e := by
  unfold lexeme at failed
  by_cases space : c = ' '
  · rw [if_pos space] at failed
    cases failed
  rw [if_neg space] at failed
  by_cases tab : c = '\t'
  · rw [if_pos tab] at failed
    cases failed
  rw [if_neg tab] at failed
  by_cases lineFeed : c = '\n'
  · rw [if_pos lineFeed] at failed
    cases failed
  rw [if_neg lineFeed] at failed
  by_cases carriageReturn : c = '\r'
  · rw [if_pos carriageReturn] at failed
    split at failed <;> cases failed
  rw [if_neg carriageReturn] at failed
  by_cases colon : c = ':'
  · rw [if_pos colon] at failed
    split at failed <;> cases failed
    exact .inl ⟨_, rfl⟩
  rw [if_neg colon] at failed
  split_ifs at failed with single _ double
  · exact .inr (.inl ⟨.single, single.symm, failed⟩)
  · exact .inr (.inl ⟨.double, double.symm, failed⟩)
  · exact .inr (.inr (.inl failed))
  · exact .inr (.inr (.inr failed))
  · split at failed <;> cases failed
    exact .inl ⟨_, rfl⟩

end Outcomes

section Longest

theorem isWord_cons {more : List Char} (word : isWord (c :: more) = true) :
    c.isAlpha = true ∧ ∀ d ∈ more, isNameChar d = true := by
  rw [isWord, Bool.and_eq_true, List.all_eq_true] at word
  exact word

theorem word_longest {text left : List Char} (word : isWord text = true)
    (whole : text ++ left = c :: rest) (ok : lexeme afterName start c rest = .ok l) :
    text.length ≤ l.text.length := by
  cases text with
  | nil => cases word
  | cons first more =>
    obtain ⟨rfl, tail⟩ := List.cons.inj (show first :: (more ++ left) = c :: rest from whole)
    obtain ⟨alpha, others⟩ := isWord_cons word
    rw [lexeme_word alpha] at ok
    obtain ⟨rfl, -⟩ := word_ok ok
    have split := tail.trans (List.takeWhile_append_dropWhile (p := isNameChar)).symm
    exact Nat.succ_le_succ (run_le others (all_takeWhile _ _) (head_dropWhile _ _) split)

theorem numeral_longest {digits left : List Char} (filled : digits ≠ [])
    (all : ∀ d ∈ digits, d.isDigit = true) (whole : digits ++ left = c :: rest)
    (ok : lexeme afterName start c rest = .ok l) : digits.length ≤ l.text.length := by
  obtain ⟨first, others, rfl⟩ := List.exists_cons_of_ne_nil filled
  obtain ⟨rfl, tail⟩ := List.cons.inj (show first :: (others ++ left) = c :: rest from whole)
  rw [lexeme_numeral (all first List.mem_cons_self)] at ok
  have inner : ∀ d ∈ others, d.isDigit = true := fun d member => all d (.tail _ member)
  obtain ⟨more, run, -, ⟨same, ends, -, text⟩ | ⟨after, same, based⟩⟩ := numeral_ok ok
  · rw [text]
    exact Nat.succ_le_succ (run_le inner run ends.not_isDigit (tail.trans same))
  · obtain ⟨body, -, -, -, -, -, -, -, text⟩ := basedDigits_ok based
    have within := run_le inner run (by rintro d ⟨⟩; rfl) (tail.trans same)
    rw [text, List.length_append, List.length_cons, List.length_cons]
    omega

theorem based_longest {base digits left : List Char} (formed : (based base digits).Formed afterName)
    (whole : base ++ '#' :: (digits ++ '#' :: left) = c :: rest)
    (ok : lexeme afterName start c rest = .ok l) :
    (based base digits).text.length ≤ l.text.length := by
  obtain ⟨⟨filled, all⟩, -, -, valid⟩ := formed
  obtain ⟨first, others, rfl⟩ := List.exists_cons_of_ne_nil filled
  obtain ⟨rfl, tail⟩ := List.cons.inj
    (show first :: (others ++ '#' :: (digits ++ '#' :: left)) = c :: rest from whole)
  rw [lexeme_numeral (all first List.mem_cons_self)] at ok
  have inner : ∀ d ∈ others, d.isDigit = true := fun d member => all d (.tail _ member)
  have mark : ∀ after : List Char, ∀ d ∈ ('#' :: after).head?, d.isDigit = false := by
    rintro after d ⟨⟩
    rfl
  obtain ⟨more, run, -, ⟨same, ends, -, -⟩ | ⟨after, same, based⟩⟩ := numeral_ok ok
  · obtain ⟨-, marked⟩ := run_eq inner (mark _) run ends.not_isDigit (tail.trans same)
    exact absurd rfl (ends '#' (by rw [← marked]; rfl)).2
  · obtain ⟨rfl, marked⟩ := run_eq inner (mark _) run (mark _) (tail.trans same)
    obtain ⟨body, split, -, -, inside, -, -, -, text⟩ := basedDigits_ok based
    rw [← (List.cons.inj marked).2] at split
    obtain ⟨rfl, -⟩ := run_eq valid (by rintro d ⟨⟩; rfl) inside (by rintro d ⟨⟩; rfl) split
    rw [text]
    exact Nat.le_refl _

-- No form takes more of a text than the lexeme that is read there.
theorem lexeme_longest (ok : lexeme afterName start c rest = .ok l)
    (formed : f.Formed afterName) (here : f.text <+: c :: rest) :
    f.text.length ≤ l.text.length := by
  have one : 1 ≤ l.text.length := by
    obtain ⟨more, text, -⟩ := lexeme_splits ok
    rw [text]
    exact Nat.le_add_left 1 _
  obtain ⟨left, whole⟩ := here
  cases f with
  | fixed text token =>
    rcases table_length formed with single | rfl | rfl
    · exact single.trans_le one
    · obtain ⟨rfl, rfl⟩ := List.cons.inj whole
      cases ok
      exact Nat.le_refl 2
    · obtain ⟨rfl, rfl⟩ := List.cons.inj whole
      cases ok
      exact Nat.le_refl 2
  | tick => exact one
  | string content quote =>
    obtain ⟨inner, opens⟩ := formed
    obtain ⟨rfl, tail⟩ := List.cons.inj
      (show quote.char :: (content ++ [quote.char] ++ left) = c :: rest from whole)
    rw [lexeme_quoted opens] at ok
    obtain ⟨body, split, outer, -, -, text⟩ := quoted_ok ok
    rw [split, List.append_assoc, List.singleton_append] at tail
    have ends : ∀ after : List Char, ∀ d ∈ (quote.char :: after).head?,
        (d != quote.char) = false := by
      rintro after d ⟨⟩
      exact bne_self_eq_false _
    obtain ⟨rfl, -⟩ := run_eq (bne_of_notMem inner) (ends _) (bne_of_notMem outer) (ends _) tail
    rw [text]
    exact Nat.le_refl _
  | boolean value => exact word_longest (by cases value <;> rfl) whole ok
  | name text => exact word_longest formed.1 whole ok
  | decimal digits => exact numeral_longest formed.1 formed.2 whole ok
  | based base digits => exact based_longest formed (by simpa [Form.text] using whole) ok

end Longest

section Forms

structure Written (afterName : Bool) (f : Form) (l : Lexeme) : Prop where
  formed : f.Formed afterName
  fits : f.Fits
  ends : f.Ends l.rest
  text : f.text = l.text
  token : f.token = l.token

theorem written_fixed (listed : (l.text, l.token) ∈ table) : ∃ f, Written afterName f l :=
  ⟨.fixed l.text l.token, listed, trivial, trivial, rfl, rfl⟩

theorem written_word (alpha : c.isAlpha = true) (ok : word start c rest = .ok l) :
    ∃ f, Written afterName f l := by
  obtain ⟨rfl, short⟩ := word_ok ok
  have isWord : isWord (c :: rest.takeWhile isNameChar) = true :=
    Bool.and_eq_true_iff.mpr ⟨alpha, List.all_takeWhile⟩
  obtain ⟨f, formed, text, token, fits, ends⟩ := formed_of_isWord isWord
  exact ⟨f, formed, fits short, ends _, text, token⟩

theorem written_quoted (quote : Quote) (opens : quote = .single → afterName = false)
    (ok : quoted start quote rest = .ok l) : ∃ f, Written afterName f l := by
  obtain ⟨content, -, inner, short, token, text⟩ := quoted_ok ok
  refine ⟨.string content quote, ⟨inner, opens⟩, ?_, trivial, text.symm, token.symm⟩
  exact (utf8ByteSize_ofList content).trans_le short

theorem written_numeral (digit : c.isDigit = true) (ok : numeral start c rest = .ok l) :
    ∃ f, Written afterName f l := by
  obtain ⟨more, run, short, ⟨-, ends, token, text⟩ | ⟨left, -, based⟩⟩ := numeral_ok ok
  all_goals
    have all : ∀ d ∈ c :: more, d.isDigit = true := List.forall_mem_cons.mpr ⟨digit, run⟩
    have filled := List.cons_ne_nil c more
  · exact ⟨.decimal (c :: more), ⟨filled, all⟩, short, fun d next => (ends d next).1, text.symm,
      token.symm⟩
  · obtain ⟨digits, -, base, body, valid, bodyShort, ends, token, text⟩ := basedDigits_ok based
    have bounds : 2 ≤ Numeral.value 10 (c :: more) ∧ Numeral.value 10 (c :: more) ≤ 16 := by
      simpa [Numeral.isBase] using base
    exact ⟨.based (c :: more) digits, ⟨⟨filled, all⟩, bounds, body, valid⟩, ⟨short, bodyShort⟩,
      ends, text.symm, token.symm⟩

theorem written_lexeme (ok : lexeme afterName start c rest = .ok l) :
    ∃ f, Written afterName f l := by
  unfold lexeme at ok
  split at ok
  · next blank => subst blank; cases ok; exact written_fixed (by simp [table])
  split at ok
  · next blank => subst blank; cases ok; exact written_fixed (by simp [table])
  split at ok
  · next lineFeed => subst lineFeed; cases ok; exact written_fixed (by simp [table])
  split at ok
  · next carriageReturn =>
    subst carriageReturn
    split at ok <;> cases ok <;> exact written_fixed (by simp [table])
  split at ok
  · next colon =>
    subst colon
    split at ok <;> cases ok
    exact written_fixed (by simp [table])
  split at ok
  · next quote =>
    split at ok
    · next named => subst quote; cases ok; exact ⟨.tick, named, trivial, trivial, rfl, rfl⟩
    · next unnamed => exact written_quoted .single (fun _ => by simpa using unnamed) ok
  split at ok
  · exact written_quoted .double (fun single => nomatch single) ok
  split at ok
  · next digit => exact written_numeral digit ok
  split at ok
  · next alpha => exact written_word alpha ok
  split at ok
  · next token symbol =>
    cases ok
    unfold Token.ofSymbol? at symbol
    split at symbol <;> cases symbol <;> exact written_fixed (by simp [table])
  · cases ok

-- The lexeme that is read at a place is where the grammar cuts the text.
theorem lexeme_cuts (ok : lexeme afterName start c rest = .ok l) :
    ∃ f : Form, f.Cuts afterName l.rest ∧ f.text = l.text ∧ f.token = l.token := by
  obtain ⟨f, written⟩ := written_lexeme ok
  obtain ⟨more, text, whole⟩ := lexeme_splits ok
  refine ⟨f, ⟨written.formed, ?_, written.fits, written.ends⟩, written.text, written.token⟩
  intro g formed here
  rw [written.text, text, List.cons_append, whole] at here
  rw [written.text]
  exact lexeme_longest ok formed here

theorem not_isNameChar_of_cuts (cuts : f.Cuts afterName rest) (word : isWord f.text = true) :
    ∀ d ∈ rest.head?, isNameChar d = false := by
  intro d next
  by_contra inside
  have named : isNameChar d = true := by simpa using inside
  obtain ⟨tail, rfl⟩ := List.head?_eq_some_iff.mp next
  have longer : isWord (f.text ++ [d]) = true := by
    cases text : f.text with
    | nil => rw [text] at word; cases word
    | cons first more =>
      rw [text, isWord, Bool.and_eq_true] at word
      rw [List.cons_append, isWord, word.1, List.all_append, word.2, Bool.true_and, Bool.true_and]
      exact List.all_eq_true.mpr (List.forall_mem_singleton.mpr named)
  obtain ⟨g, formed, text, -⟩ := formed_of_isWord longer
  have within := cuts.longest g formed (by rw [text]; simp)
  rw [text, List.length_append] at within
  exact Nat.not_succ_le_self _ within

theorem endsWord_of_cuts (cuts : f.Cuts afterName rest) (word : isWord f.text = true)
    (unmarked : ∀ d ∈ rest.head?, d ≠ '#') : EndsWord rest :=
  fun d next => ⟨not_isNameChar_of_cuts cuts word d next, unmarked d next⟩

theorem lexeme_carriageReturn (lone : ∀ d ∈ rest.head?, d ≠ '\n') :
    lexeme afterName start '\r' rest = .ok { token := .newline, text := ['\r'], rest } := by
  unfold lexeme
  rw [if_neg (by decide), if_neg (by decide), if_neg (by decide), if_pos rfl]
  split
  · exact absurd rfl (lone '\n' rfl)
  · rfl

theorem lexeme_fixed {more : List Char} {token : Token} (listed : (c :: more, token) ∈ table)
    (lone : c = '\r' → more = [] → ∀ d ∈ rest.head?, d ≠ '\n') :
    lexeme afterName start c (more ++ rest) = .ok { token, text := c :: more, rest } := by
  simp only [table, List.mem_cons, Prod.mk.injEq, List.cons.injEq, List.not_mem_nil, or_false]
    at listed
  rcases listed with ⟨⟨rfl, rfl⟩, rfl⟩ | ⟨⟨rfl, rfl⟩, rfl⟩ | ⟨⟨rfl, rfl⟩, rfl⟩ |
    ⟨⟨rfl, rfl⟩, rfl⟩ | ⟨⟨rfl, rfl⟩, rfl⟩ | ⟨⟨rfl, rfl⟩, rfl⟩ | ⟨⟨rfl, rfl⟩, rfl⟩ |
    ⟨⟨rfl, rfl⟩, rfl⟩ | ⟨⟨rfl, rfl⟩, rfl⟩ | ⟨⟨rfl, rfl⟩, rfl⟩ | ⟨⟨rfl, rfl⟩, rfl⟩ |
    ⟨⟨rfl, rfl⟩, rfl⟩ | ⟨⟨rfl, rfl⟩, rfl⟩ | ⟨⟨rfl, rfl⟩, rfl⟩
  case inr.inr.inr.inl => exact lexeme_carriageReturn (lone rfl rfl)
  all_goals rfl

theorem lexeme_of_word (stops : ∀ d ∈ rest.head?, isNameChar d = false) {more : List Char}
    (text : f.text = c :: more) (word : isWord f.text = true)
    (short : f.text.length ≤ Limits.identifierLength)
    (token : f.token = .ofWord (String.ofList f.text)) :
    lexeme afterName start c (more ++ rest) = .ok ⟨f.token, f.text, rest, .plain⟩ := by
  rw [text] at word short token
  obtain ⟨alpha, others⟩ := isWord_cons word
  rw [lexeme_word alpha, word_run others stops short, token, text]

-- A form is read whole if what comes after it does not go on with it.
theorem lexeme_of_stops (formed : f.Formed afterName) (fits : f.Fits) (stops : f.Stops rest)
    {more : List Char} (text : f.text = c :: more) :
    lexeme afterName start c (more ++ rest) = .ok ⟨f.token, f.text, rest, f.measure⟩ := by
  cases f with
  | fixed entry token =>
    obtain rfl : entry = c :: more := text
    refine lexeme_fixed formed ?_
    rintro rfl rfl
    exact stops rfl
  | tick =>
    obtain ⟨rfl, rfl⟩ := List.cons.inj text
    obtain rfl := formed
    rfl
  | string content quote =>
    obtain ⟨rfl, rfl⟩ := List.cons.inj text
    obtain ⟨inner, opens⟩ := formed
    have short := (utf8ByteSize_ofList content).symm.trans_le fits
    rw [lexeme_quoted opens, List.append_assoc, List.singleton_append, quoted_run inner short]
    rfl
  | boolean value =>
    cases value <;> exact lexeme_of_word stops.not_isNameChar text rfl (by decide) rfl
  | name entry =>
    obtain ⟨isWord, notTrue, notFalse⟩ := formed
    exact lexeme_of_word stops.not_isNameChar text isWord fits (ofWord_name notTrue notFalse).symm
  | decimal digits =>
    obtain rfl : digits = c :: more := text
    obtain ⟨digit, others⟩ := List.forall_mem_cons.mp formed.2
    rw [lexeme_numeral digit, numeral_run others stops fits]
    rfl
  | based base digits =>
    obtain ⟨⟨filled, all⟩, bounds, body, valid⟩ := formed
    obtain ⟨first, others, rfl⟩ := List.exists_cons_of_ne_nil filled
    obtain ⟨rfl, rfl⟩ := List.cons.inj
      (show first :: (others ++ '#' :: (digits ++ ['#'])) = c :: more from text)
    obtain ⟨digit, run⟩ := List.forall_mem_cons.mp all
    have base : Numeral.isBase (Numeral.value 10 (first :: others)) = true := by
      simpa [Numeral.isBase] using bounds
    rw [lexeme_numeral digit, List.append_assoc, List.cons_append, List.append_assoc,
      List.singleton_append, numeral_based run fits.1,
      basedDigits_run base valid body fits.2 stops]
    rfl

theorem stops_of_cuts_fixed {entry : List Char} {token : Token}
    (cuts : (Form.fixed entry token).Cuts afterName rest) : (Form.fixed entry token).Stops rest := by
  rintro rfl d next rfl
  obtain ⟨tail, rfl⟩ := List.head?_eq_some_iff.mp next
  have within := cuts.longest (.fixed ['\r', '\n'] .newline) (by simp [Formed, table]) ⟨tail, rfl⟩
  exact Nat.not_succ_le_self 1 within

-- A form that a text is cut at does not go on after it. A mark after it would be taken for that of
-- a base, but no text that can be cut begins with one.
theorem stops_of_cuts (cuts : f.Cuts afterName rest) (unmarked : ∀ d ∈ rest.head?, d ≠ '#') :
    f.Stops rest := by
  cases f with
  | fixed entry token => exact stops_of_cuts_fixed cuts
  | tick | string => trivial
  | boolean value => exact endsWord_of_cuts cuts (by cases value <;> rfl) unmarked
  | name entry => exact endsWord_of_cuts cuts cuts.formed.1 unmarked
  | decimal digits => exact fun d next => ⟨cuts.ends d next, unmarked d next⟩
  | based base digits => exact cuts.ends

theorem lexeme_of_cuts (cuts : f.Cuts afterName rest)
    (unmarked : ∀ digits, f = .decimal digits → ∀ d ∈ rest.head?, d ≠ '#')
    {more : List Char} (text : f.text = c :: more) :
    lexeme afterName start c (more ++ rest) = .ok ⟨f.token, f.text, rest, f.measure⟩ := by
  cases f with
  | fixed entry token =>
    exact lexeme_of_stops cuts.formed cuts.fits (stops_of_cuts_fixed cuts) text
  | tick => exact lexeme_of_stops cuts.formed cuts.fits trivial text
  | string => exact lexeme_of_stops cuts.formed cuts.fits trivial text
  | boolean value =>
    have stops := not_isNameChar_of_cuts cuts (by cases value <;> rfl)
    cases value <;> exact lexeme_of_word stops text rfl (by decide) rfl
  | name entry =>
    obtain ⟨isWord, notTrue, notFalse⟩ := cuts.formed
    exact lexeme_of_word (not_isNameChar_of_cuts cuts isWord) text isWord cuts.fits
      (ofWord_name notTrue notFalse).symm
  | decimal digits =>
    have stops : Lexer.EndsWord rest :=
      fun d next => ⟨cuts.ends d next, unmarked digits rfl d next⟩
    exact lexeme_of_stops cuts.formed cuts.fits stops text
  | based base digits => exact lexeme_of_stops cuts.formed cuts.fits cuts.ends text

-- The lexer reads the form whole, and no form takes more than the lexer does.
theorem cuts_of_stops (formed : f.Formed afterName) (fits : f.Fits) (stops : f.Stops rest) :
    f.Cuts afterName rest := by
  obtain ⟨c, more, text, -⟩ := formed.head
  have ok : lexeme afterName .start c (more ++ rest) =
      .ok ⟨f.token, f.text, rest, f.measure⟩ := lexeme_of_stops formed fits stops text
  refine ⟨formed, fun g other here => ?_, fits, ?_⟩
  · rw [text, List.cons_append] at here
    exact lexeme_longest ok other here
  · cases f with
    | decimal digits => exact fun d next => (stops d next).1
    | based base digits => exact stops
    | fixed | tick | string | boolean | name => trivial

theorem splits_cons {forms : List Form} (formed : f.Formed afterName) (fits : f.Fits)
    (stops : f.Stops rest) (others : Splits f.token.isIdentifier rest forms) :
    Splits afterName (f.text ++ rest) (f :: forms) :=
  .cons (cuts_of_stops formed fits stops) others

theorem splits_fixed (entry : List Char) {token : Token} {forms : List Form}
    (listed : (entry, token) ∈ table) (lone : entry = ['\r'] → ∀ d ∈ rest.head?, d ≠ '\n')
    (others : Splits token.isIdentifier rest forms) :
    Splits afterName (entry ++ rest) (.fixed entry token :: forms) :=
  splits_cons (f := .fixed entry token) listed trivial lone others

end Forms

section Scan

variable {detailed : Bool} {done placed : List PlacedToken} {metrics : Metrics}
  {input : List Char} {forms : List Form}

theorem scan_splits (few : metrics.total ≤ Limits.tokenCount)
    (ok : (scan detailed start done metrics input).tokens = .ok placed) :
    ∃ forms, Splits (done.head?.any (·.token.isIdentifier)) input forms ∧
      metrics.total + forms.length ≤ Limits.tokenCount ∧
      placed = done.reverse ++ layOut start forms := by
  fun_induction scan detailed start done metrics input with
  | case1 start done metrics =>
    cases ok
    exact ⟨[], .nil _, few, List.reverse_cons⟩
  | case2 => cases ok
  | case3 => cases ok
  | case4 start done metrics c rest below l found stop ih =>
    have counted : (metrics.record detailed l.token l.measure).total ≤ Limits.tokenCount := by
      rw [Metrics.record_total]
      omega
    obtain ⟨forms, others, count, rfl⟩ := ih counted ok
    obtain ⟨f, cuts, text, token⟩ := lexeme_cuts found
    obtain ⟨more, first, whole⟩ := lexeme_splits found
    rw [Metrics.record_total] at count
    refine ⟨f :: forms, ?_, by rw [List.length_cons]; omega, ?_⟩
    · have splits := Splits.cons cuts (by rw [token]; exact others)
      rwa [text, first, List.cons_append, whole] at splits
    · rw [layOut, text, token]
      simp [stop]

theorem unmarked_of_splits (splits : Splits afterName input forms) :
    ∀ d ∈ input.head?, d ≠ '#' := by
  cases splits with
  | nil => rintro d ⟨⟩
  | cons first others =>
    obtain ⟨c, more, text, other⟩ := first.formed.head
    rw [text]
    rintro d ⟨⟩
    exact other

theorem scan_of_splits (splits : Splits afterName input forms)
    (last : done.head?.any (·.token.isIdentifier) = afterName)
    (few : metrics.total + forms.length ≤ Limits.tokenCount) :
    (scan detailed start done metrics input).tokens = .ok (done.reverse ++ layOut start forms) := by
  induction splits generalizing start done metrics with
  | nil =>
    rw [scan, layOut, List.reverse_cons]
  | @cons afterName f rest forms first others ih =>
    obtain ⟨c, more, text, -⟩ := first.formed.head
    have unmarked := unmarked_of_splits others
    rw [List.length_cons] at few
    rw [text, List.cons_append, scan_cons (by omega)
      (by rw [last]; exact lexeme_of_cuts first (fun _ _ => unmarked) text)]
    rw [ih rfl (by rw [Metrics.record_total]; omega), layOut]
    simp

theorem run_splits {source : String} (ok : (run detailed source).tokens = .ok placed) :
    source.utf8ByteSize ≤ Limits.actionLength ∧
      ∃ forms, Splits false source.toList forms ∧ forms.length ≤ Limits.tokenCount ∧
        placed = layOut .start forms := by
  unfold run at ok
  split at ok
  · cases ok
  · next short =>
    obtain ⟨forms, splits, count, laid⟩ := scan_splits (Nat.zero_le _) ok
    exact ⟨Nat.le_of_not_lt short, forms, splits, by simpa using count, laid⟩

theorem run_wellFormed {source : String} (ok : (run detailed source).tokens = .ok placed) :
    ∃ found stop, placed = found ++ [⟨.eof, stop⟩] ∧ ∀ t ∈ found, t.token.WellFormed := by
  obtain ⟨-, forms, splits, -, rfl⟩ := run_splits ok
  obtain ⟨found, stop, laid, same⟩ := layOut_closed .start forms
  refine ⟨found, stop, laid, fun t member => ?_⟩
  obtain ⟨f, inside, token⟩ := List.mem_map.mp (same ▸ List.mem_map_of_mem member)
  obtain ⟨afterName, formed, fits⟩ := splits.formed f inside
  rw [← token]
  exact formed.wellFormed fits

-- The lexer accepts a text exactly when it is short enough and is cut by the longest match into a
-- bounded number of lexemes, and then it gives the token of each with its place, and the end mark.
theorem run_exact (detailed : Bool) (source : String) (placed : List PlacedToken) :
    (run detailed source).tokens = .ok placed ↔
      source.utf8ByteSize ≤ Limits.actionLength ∧
        ∃ forms, Splits false source.toList forms ∧ forms.length ≤ Limits.tokenCount ∧
          placed = layOut .start forms := by
  constructor
  · exact run_splits
  · rintro ⟨short, forms, splits, count, rfl⟩
    rw [run, if_neg (Nat.not_lt.mpr short)]
    exact scan_of_splits splits rfl (by simpa using count)

end Scan

end Lexer

end StateActions
