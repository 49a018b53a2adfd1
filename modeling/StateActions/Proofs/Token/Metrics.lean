import StateActions.Proofs.Token.LexicalGrammar
import StateActions.Token.Lexer

namespace StateActions

namespace Form

variable {afterName : Bool} {f : Form} {forms : List Form} {c : Char} {rest more : List Char}

-- A complete lexeme with `rest` after it. A run of digits with a mark after it is not complete: it
-- is the base of a numeral that goes on.
structure Whole (afterName : Bool) (f : Form) (rest : List Char) : Prop where
  cuts : f.Cuts afterName rest
  unmarked : ∀ digits, f = .decimal digits → ∀ c ∈ rest.head?, c ≠ '#'

inductive Begins : Bool → List Char → List Form → Prop
  | nil (afterName : Bool) (text : List Char) : Begins afterName text []
  | cons {afterName : Bool} {f : Form} {rest : List Char} {forms : List Form}
      (first : f.Whole afterName rest) (others : Begins f.token.isIdentifier rest forms) :
      Begins afterName (f.text ++ rest) (f :: forms)

theorem Begins.others (begins : Begins afterName (f.text ++ rest) (f :: forms)) :
    Begins f.token.isIdentifier rest forms := by
  generalize whole : f.text ++ rest = text at begins
  cases begins with
  | cons first others =>
    rw [List.append_cancel_left whole]
    exact others

theorem Begins.formed {text : List Char} (begins : Begins afterName text forms) :
    ∀ f ∈ forms, f.token.tokenClass ≠ .special := by
  induction begins with
  | nil => exact List.forall_mem_nil _
  | cons first _ ih =>
    refine List.forall_mem_cons.mpr ⟨?_, ih⟩
    have formed := first.cuts.formed.wellFormed first.cuts.fits
    intro special
    cases token : Form.token _ with
    | eof =>
      rw [token] at formed
      exact formed
    | _ =>
      rw [token] at special
      cases special

theorem Whole.lexeme_eq (whole : f.Whole afterName rest) (text : f.text = c :: more)
    (start : Position) :
    Lexer.lexeme afterName start c (more ++ rest) = .ok ⟨f.token, f.text, rest, f.measure⟩ :=
  Lexer.lexeme_of_cuts whole.cuts whole.unmarked text

-- The largest size there is. Forms that have no size are passed over, and none at all give zero.
def largest (size? : Form → Option Nat) (forms : List Form) : Nat :=
  (forms.filterMap size?).foldr max 0

theorem largest_cons (size? : Form → Option Nat) (f : Form) (forms : List Form) :
    largest size? (f :: forms) = max ((size? f).getD 0) (largest size? forms) := by
  unfold largest
  rw [List.filterMap_cons]
  cases size? f <;> simp

theorem le_largest {size? : Form → Option Nat} {forms : List Form} (member : f ∈ forms) :
    (size? f).getD 0 ≤ largest size? forms := by
  induction forms with
  | nil => cases member
  | cons g forms ih =>
    rw [largest_cons]
    rcases List.mem_cons.mp member with rfl | later
    · exact Nat.le_max_left _ _
    · exact (ih later).trans (Nat.le_max_right _ _)

theorem largest_le {size? : Form → Option Nat} {forms : List Form} {n : Nat}
    (bound : ∀ g ∈ forms, (size? g).getD 0 ≤ n) : largest size? forms ≤ n := by
  induction forms with
  | nil => exact Nat.zero_le n
  | cons g forms ih =>
    obtain ⟨here, later⟩ := List.forall_mem_cons.mp bound
    rw [largest_cons]
    exact Nat.max_le.mpr ⟨here, ih later⟩

theorem largest_single {size? : Form → Option Nat} {forms : List Form} (member : f ∈ forms)
    (single : ∀ g ∈ forms, g = f ∨ size? g = none) : largest size? forms = (size? f).getD 0 := by
  refine Nat.le_antisymm (largest_le fun g other => ?_) (le_largest member)
  rcases single g other with rfl | unsized
  · exact Nat.le_refl _
  · rw [unsized]
    exact Nat.zero_le _

theorem largest_congr {size? size'? : Form → Option Nat} {forms : List Form}
    (same : ∀ f ∈ forms, size? f = size'? f) : largest size? forms = largest size'? forms := by
  unfold largest
  rw [List.filterMap_congr same]

end Form

namespace Lexer

open Form

variable {afterName : Bool} {start : Position} {c : Char} {rest : List Char} {l : Lexeme} {f : Form}

theorem unmarked_of_lexeme {digits : List Char} (ok : lexeme afterName start c rest = .ok l)
    (all : ∀ d ∈ digits, d.isDigit = true) (text : digits = l.text) :
    ∀ d ∈ l.rest.head?, d ≠ '#' := by
  obtain ⟨more, first, -⟩ := lexeme_splits ok
  have digit : c.isDigit = true := all c (by rw [text, first]; exact List.mem_cons_self)
  rw [lexeme_numeral digit] at ok
  obtain ⟨others, -, -, ⟨-, ends, -, -⟩ | ⟨left, -, based⟩⟩ := numeral_ok ok
  · exact fun d next => (ends d next).2
  · obtain ⟨body, -, -, -, -, -, -, -, marked⟩ := basedDigits_ok based
    have mark := all '#' (by rw [text, marked]; simp)
    exact absurd mark (by decide)

theorem lexeme_whole (ok : lexeme afterName start c rest = .ok l) :
    ∃ f : Form, f.Whole afterName l.rest ∧ f.text = l.text ∧ f.token = l.token ∧
      f.measure = l.measure := by
  obtain ⟨f, cuts, text, token⟩ := lexeme_cuts ok
  have whole : f.Whole afterName l.rest := by
    refine ⟨cuts, ?_⟩
    rintro digits rfl
    exact unmarked_of_lexeme ok cuts.formed.2 text
  obtain ⟨more, first, split⟩ := lexeme_splits ok
  have again := whole.lexeme_eq (text.trans first) start
  rw [split, ok] at again
  have measure := congrArg Lexeme.measure (Except.ok.inj again)
  exact ⟨f, whole, text, token, measure.symm⟩

theorem not_begins_of_error {e : LexError} (failed : lexeme afterName start c rest = .error e)
    (f : Form) : ¬Begins afterName (c :: rest) [f] := by
  intro begins
  generalize whole : c :: rest = text at begins
  cases begins with
  | @cons _ _ left _ first others =>
    obtain ⟨d, more, text, -⟩ := first.cuts.formed.head
    rw [text, List.cons_append] at whole
    obtain ⟨rfl, rfl⟩ := List.cons.inj whole
    rw [first.lexeme_eq text start] at failed
    cases failed

end Lexer

namespace Metrics

variable {detailed : Bool} {m : Metrics} {forms : List Form}

def recordAll (detailed : Bool) (m : Metrics) (forms : List Form) : Metrics :=
  forms.foldl (fun m f => m.record detailed f.token f.measure) m

theorem recordAll_count (count : Metrics → Nat) {p : Form → Bool}
    (step : ∀ (m : Metrics) (f : Form),
      count (m.record detailed f.token f.measure) = count m + (p f).toNat) :
    count (m.recordAll detailed forms) = count m + forms.countP p := by
  induction forms generalizing m with
  | nil => rfl
  | cons f forms ih =>
    have later := ih (m := m.record detailed f.token f.measure)
    rw [recordAll, List.foldl_cons, ← recordAll, later, step, List.countP_cons]
    cases p f with
    | true => simp only [Bool.toNat_true, if_true]; omega
    | false => simp

theorem recordAll_largest (largest : Metrics → Nat) {size? : Form → Option Nat}
    (step : ∀ (m : Metrics) (f : Form),
      largest (m.record detailed f.token f.measure) = max (largest m) ((size? f).getD 0)) :
    largest (m.recordAll detailed forms) =
      max (largest m) (Form.largest size? forms) := by
  induction forms generalizing m with
  | nil => simp [recordAll, Form.largest]
  | cons f forms ih =>
    have later := ih (m := m.record detailed f.token f.measure)
    rw [recordAll, List.foldl_cons, ← recordAll, later, step, Form.largest_cons, max_assoc]

def ofClass (m : Metrics) : TokenClass → Nat
  | .identifier => m.identifiers
  | .literal => m.literals
  | .operator => m.operators
  | .punctuation => m.punctuation
  | .whitespace => m.whitespace
  | .special => 0

def classified (m : Metrics) : Nat :=
  m.identifiers + m.literals + m.operators + m.punctuation + m.whitespace

theorem ofClass_recordMeasure (m : Metrics) (measure : Measure) (c : TokenClass) :
    (m.recordMeasure measure).ofClass c = m.ofClass c := by
  cases measure <;> cases c <;> rfl

theorem ofClass_recordClass (m : Metrics) (token : Token) {c : TokenClass}
    (counted : c ≠ .special) :
    (m.recordClass token).ofClass c = m.ofClass c + (token.tokenClass == c).toNat := by
  cases c with
  | special => exact absurd rfl counted
  | _ => cases token <;> rfl

theorem ofClass_record (m : Metrics) (token : Token) (measure : Measure) {c : TokenClass}
    (counted : c ≠ .special) :
    (m.record true token measure).ofClass c = m.ofClass c + (token.tokenClass == c).toNat := by
  have same : ({ m.recordMeasure measure with total := (m.recordMeasure measure).total + 1 } :
      Metrics).ofClass c = m.ofClass c := by
    rw [← ofClass_recordMeasure m measure c]
    cases c <;> rfl
  rw [record, if_pos rfl, ofClass_recordClass _ token counted, same]

theorem one_class (c : TokenClass) :
    (c == .identifier).toNat + (c == .literal).toNat + (c == .operator).toNat +
      (c == .punctuation).toNat + (c == .whitespace).toNat = (c != .special).toNat := by
  cases c <;> rfl

theorem classified_record (m : Metrics) (token : Token) (measure : Measure) :
    (m.record true token measure).classified =
      m.classified + (token.tokenClass != .special).toNat := by
  have single {c : TokenClass} (counted : c ≠ .special) := ofClass_record m token measure counted
  have identifiers := single (c := .identifier) (by decide)
  have literals := single (c := .literal) (by decide)
  have operators := single (c := .operator) (by decide)
  have punctuation := single (c := .punctuation) (by decide)
  have whitespace := single (c := .whitespace) (by decide)
  simp only [ofClass] at identifiers literals operators punctuation whitespace
  unfold classified
  rw [identifiers, literals, operators, punctuation, whitespace]
  have once := one_class token.tokenClass
  omega

theorem measured_record (m : Metrics) (token : Token) (measure : Measure) :
    (m.record detailed token measure).basedLiterals = (m.recordMeasure measure).basedLiterals ∧
    (m.record detailed token measure).maxStringLength =
      (m.recordMeasure measure).maxStringLength ∧
    (m.record detailed token measure).maxNumberDigits =
      (m.recordMeasure measure).maxNumberDigits := by
  unfold record
  cases detailed with
  | false => exact ⟨rfl, rfl, rfl⟩
  | true => cases token <;> exact ⟨rfl, rfl, rfl⟩

end Metrics

namespace Form

def isBased : Form → Bool
  | .based .. => true
  | _ => false

def contentSize? : Form → Option Nat
  | .string content _ => some (String.ofList content).utf8ByteSize
  | _ => none

-- How many digits a numeral begins with. With a base they are the digits of the base.
def leadingDigits? : Form → Option Nat
  | .decimal digits => some digits.length
  | .based base _ => some base.length
  | _ => none

-- How many digits the value of a numeral is made of. With a base they stand between the marks.
def valueDigits? : Form → Option Nat
  | .decimal digits => some digits.length
  | .based _ digits => some digits.length
  | _ => none

theorem valueDigits?_le {f : Form} (fits : f.Fits) {n : Nat} (size : n ∈ f.valueDigits?) :
    n ≤ Limits.numberDigits := by
  cases f with
  | decimal digits =>
    cases size
    exact fits
  | based base digits =>
    cases size
    exact fits.2
  | _ => cases size

theorem leadingDigits?_eq {f : Form}
    (level : ∀ base digits, f = .based base digits → base.length = digits.length) :
    f.leadingDigits? = f.valueDigits? := by
  cases f with
  | based base digits => exact congrArg some (level base digits rfl)
  | _ => rfl

theorem leadingDigits?_eq_none {f : Form} (other : f.valueDigits? = none) :
    f.leadingDigits? = none := by
  cases f with
  | based => cases other
  | _ => exact other

end Form

namespace Metrics

variable {detailed : Bool} {m : Metrics} {forms : List Form}

theorem total_recordAll : (m.recordAll detailed forms).total = m.total + forms.length := by
  rw [recordAll_count total (p := fun _ => true) fun m f => record_total .., List.countP_true]

theorem ofClass_recordAll {c : TokenClass} (counted : c ≠ .special) :
    (m.recordAll true forms).ofClass c =
      m.ofClass c + forms.countP (·.token.tokenClass == c) :=
  recordAll_count (·.ofClass c) fun m f => ofClass_record m f.token f.measure counted

theorem classified_recordAll (counted : ∀ f ∈ forms, f.token.tokenClass ≠ .special) :
    (m.recordAll true forms).classified = m.classified + forms.length := by
  rw [recordAll_count classified fun m f => classified_record m f.token f.measure]
  congr 1
  rw [List.countP_eq_length]
  intro f member
  simpa using counted f member

theorem basedLiterals_recordAll :
    (m.recordAll detailed forms).basedLiterals = m.basedLiterals + forms.countP (·.isBased) := by
  refine recordAll_count basedLiterals fun m f => ?_
  rw [(measured_record m f.token f.measure).1]
  cases f <;> rfl

theorem maxStringLength_recordAll :
    (m.recordAll detailed forms).maxStringLength =
      max m.maxStringLength (Form.largest Form.contentSize? forms) := by
  refine recordAll_largest maxStringLength fun m f => ?_
  rw [(measured_record m f.token f.measure).2.1]
  cases f with
  | string content quote =>
    exact congrArg (max m.maxStringLength) (utf8ByteSize_ofList content).symm
  | _ => exact (Nat.max_zero _).symm

theorem maxNumberDigits_recordAll :
    (m.recordAll detailed forms).maxNumberDigits =
      max m.maxNumberDigits (Form.largest Form.leadingDigits? forms) := by
  refine recordAll_largest maxNumberDigits fun m f => ?_
  rw [(measured_record m f.token f.measure).2.2]
  cases f with
  | decimal => rfl
  | based => rfl
  | _ => exact (Nat.max_zero _).symm

end Metrics

namespace Lexer

open Form

-- A scan counts complete lexemes and nothing else. It goes on to the end of the text, to a place
-- where no complete lexeme begins, or to the allowed number of them.
theorem scan_records (detailed : Bool) (start : Position) (done : List PlacedToken)
    (metrics : Metrics) (input : List Char) (few : metrics.total ≤ Limits.tokenCount) :
    ∃ forms, Begins (done.head?.any (·.token.isIdentifier)) input forms ∧
      metrics.total + forms.length ≤ Limits.tokenCount ∧
      (scan detailed start done metrics input).metrics = metrics.recordAll detailed forms ∧
      (∀ placed, (scan detailed start done metrics input).tokens = .ok placed →
        Splits (done.head?.any (·.token.isIdentifier)) input forms ∧
          placed = done.reverse ++ layOut start forms) ∧
      ∀ e, (scan detailed start done metrics input).tokens = .error e →
        metrics.total + forms.length < Limits.tokenCount →
          ∀ f, ¬Begins (done.head?.any (·.token.isIdentifier)) input (forms ++ [f]) := by
  fun_induction scan detailed start done metrics input with
  | case1 start done metrics =>
    refine ⟨[], .nil _ _, few, rfl, ?_, by rintro _ ⟨⟩⟩
    rintro placed ⟨⟩
    exact ⟨.nil _, List.reverse_cons⟩
  | case2 start done metrics c rest full =>
    refine ⟨[], .nil _ _, few, rfl, by rintro _ ⟨⟩, ?_⟩
    intro e _ below
    exact absurd below (Nat.not_lt.mpr full)
  | case3 start done metrics c rest below e failed =>
    exact ⟨[], .nil _ _, few, rfl, by rintro _ ⟨⟩, fun _ _ _ => not_begins_of_error failed⟩
  | case4 start done metrics c rest below l found stop ih =>
    have counted : (metrics.record detailed l.token l.measure).total ≤ Limits.tokenCount := by
      rw [Metrics.record_total]
      omega
    obtain ⟨forms, others, count, recorded, through, stuck⟩ := ih counted
    obtain ⟨f, whole, text, token, measure⟩ := lexeme_whole found
    obtain ⟨more, first, split⟩ := lexeme_splits found
    have cut : c :: rest = f.text ++ l.rest := by rw [text, first, List.cons_append, split]
    have last : f.token.isIdentifier =
        (⟨l.token, ⟨start, stop⟩⟩ :: done).head?.any (·.token.isIdentifier) := by
      rw [token]
      rfl
    rw [← last] at others through stuck
    rw [Metrics.record_total] at count stuck
    rw [cut]
    refine ⟨f :: forms, .cons whole others, by rw [List.length_cons]; omega, ?_, ?_, ?_⟩
    · rw [recorded, Metrics.recordAll, Metrics.recordAll, List.foldl_cons, token, measure]
    · intro placed ok
      obtain ⟨splits, rfl⟩ := through placed ok
      refine ⟨.cons whole.cuts splits, ?_⟩
      rw [layOut, text, token]
      simp [stop]
    · intro e failed room g begins
      rw [List.length_cons] at room
      exact stuck e failed (by omega) g begins.others

-- What is counted in a text: all its lexemes if it is cut to its end, and otherwise those before
-- the one that cannot be read or is one too many. A text that is too long is not looked at.
structure Counted (source : String) (tokens : Except LexError (List PlacedToken))
    (forms : List Form) : Prop where
  begins : Begins false source.toList forms
  through : ∀ placed, tokens = .ok placed →
    Splits false source.toList forms ∧ placed = layOut .start forms
  stuck : ∀ e, tokens = .error e →
    if source.utf8ByteSize ≤ Limits.actionLength then
      forms.length = Limits.tokenCount ∨
        forms.length < Limits.tokenCount ∧ ∀ f, ¬Begins false source.toList (forms ++ [f])
    else forms = []

theorem run_records (detailed : Bool) (source : String) :
    ∃ forms, Counted source (run detailed source).tokens forms ∧
      (run detailed source).metrics = Metrics.recordAll detailed {} forms := by
  unfold run
  split
  · next long =>
    refine ⟨[], ⟨.nil _ _, by rintro _ ⟨⟩, ?_⟩, rfl⟩
    intro e _
    rw [if_neg (Nat.not_le.mpr long)]
  · next short =>
    obtain ⟨forms, begins, count, recorded, through, stuck⟩ :=
      scan_records detailed .start [] {} source.toList (Nat.zero_le _)
    rw [Nat.zero_add] at count stuck
    refine ⟨forms, ⟨begins, through, ?_⟩, recorded⟩
    intro e failed
    rw [if_pos (Nat.le_of_not_lt short)]
    by_cases room : forms.length < Limits.tokenCount
    · exact .inr ⟨room, stuck e failed room⟩
    · exact .inl (Nat.le_antisymm count (Nat.le_of_not_lt room))

-- A numeral with a base is measured by the digits of its base and not by those its value is made
-- of, though these are limited too. A text is measured by its values if in each numeral the two are
-- equally long, and with a single numeral only then.
theorem run_maxNumberDigits {detailed : Bool} {source : String} {tokens : List PlacedToken}
    (cut : (run detailed source).tokens = .ok tokens) :
    ∃ forms, Splits false source.toList forms ∧ tokens = layOut .start forms ∧
      (∀ f ∈ forms, ∀ n ∈ f.valueDigits?, n ≤ Limits.numberDigits) ∧
      (run detailed source).metrics.maxNumberDigits = largest leadingDigits? forms ∧
      ((∀ base digits, .based base digits ∈ forms → base.length = digits.length) →
        (run detailed source).metrics.maxNumberDigits = largest valueDigits? forms) ∧
      ∀ base digits, .based base digits ∈ forms →
        (∀ f ∈ forms, f = .based base digits ∨ f.valueDigits? = none) →
          ((run detailed source).metrics.maxNumberDigits = largest valueDigits? forms ↔
            base.length = digits.length) := by
  obtain ⟨forms, counted, recorded⟩ := run_records detailed source
  obtain ⟨splits, laid⟩ := counted.through tokens cut
  have measured : (run detailed source).metrics.maxNumberDigits = largest leadingDigits? forms := by
    rw [recorded, Metrics.maxNumberDigits_recordAll]
    exact Nat.zero_max _
  refine ⟨forms, splits, laid, ?_, measured, ?_, ?_⟩
  · intro f member n size
    obtain ⟨afterName, -, fits⟩ := splits.formed f member
    exact valueDigits?_le fits size
  · intro level
    rw [measured]
    refine largest_congr fun f member => leadingDigits?_eq ?_
    rintro base digits rfl
    exact level base digits member
  · intro base digits member single
    have alone : ∀ f ∈ forms, f = .based base digits ∨ f.leadingDigits? = none :=
      fun f other => (single f other).imp_right leadingDigits?_eq_none
    rw [measured, largest_single member alone, largest_single member single]
    exact Iff.rfl

theorem run_maxNumberDigits_hexadecimal :
    let scan := run true "16#FFFF#"
    let numeral := Form.based ['1', '6'] ['F', 'F', 'F', 'F']
    scan.tokens = .ok (layOut .start [numeral]) ∧ scan.metrics.maxNumberDigits = 2 ∧
      largest valueDigits? [numeral] = 4 ∧
      ∃ forms, Splits false "16#FFFF#".toList forms ∧ layOut .start [numeral] = layOut .start forms ∧
        scan.metrics.maxNumberDigits = largest leadingDigits? forms := by
  have found : (run true "16#FFFF#").metrics.maxNumberDigits = 2 := by decide +kernel
  have cut : (run true "16#FFFF#").tokens =
      .ok (layOut .start [.based ['1', '6'] ['F', 'F', 'F', 'F']]) := by decide +kernel
  obtain ⟨forms, splits, laid, -, measured, -⟩ := run_maxNumberDigits cut
  exact ⟨cut, found, rfl, forms, splits, laid, measured⟩

end Lexer

namespace Analyzer

def after (a : Analyzer) (texts : List String) : Analyzer :=
  texts.foldl (fun a source => (a.tokenize source).2) a

theorem after_preferences (a : Analyzer) (texts : List String) :
    (a.after texts).preferences = a.preferences := by
  induction texts generalizing a with
  | nil => rfl
  | cons source texts ih => exact ih (a.tokenize source).2

-- The counts after a text are those of its complete lexemes, each in its class. What was cut before
-- has no part in them.
theorem metrics_exact (a : Analyzer) (detailed : a.preferences.detailedMetrics = true)
    (earlier : List String) (source : String) :
    let found := (a.after earlier).tokenize source
    let m := found.2.metrics
    m = (a.tokenize source).2.metrics ∧
    ∃ forms, Lexer.Counted source found.1.tokens forms ∧
      m.total = forms.length ∧
      m.identifiers = forms.countP (·.token.tokenClass == .identifier) ∧
      m.literals = forms.countP (·.token.tokenClass == .literal) ∧
      m.operators = forms.countP (·.token.tokenClass == .operator) ∧
      m.punctuation = forms.countP (·.token.tokenClass == .punctuation) ∧
      m.whitespace = forms.countP (·.token.tokenClass == .whitespace) ∧
      m.identifiers + m.literals + m.operators + m.punctuation + m.whitespace = m.total ∧
      m.basedLiterals = forms.countP (·.isBased) ∧
      m.maxStringLength = Form.largest Form.contentSize? forms := by
  intro found m
  have same : found.1 = Tokenization.ofText a.preferences source :=
    congrArg (Tokenization.ofText · source) (a.after_preferences earlier)
  have counts : m = (Lexer.run true source).metrics := by
    rw [← detailed]
    exact congrArg Tokenization.metrics same
  have tokens : found.1.tokens = (Lexer.run true source).tokens := by
    rw [← detailed]
    exact congrArg Tokenization.tokens same
  obtain ⟨forms, counted, recorded⟩ := Lexer.run_records true source
  rw [← counts] at recorded
  rw [← tokens] at counted
  have inClass {c : TokenClass} (other : c ≠ .special) :
      m.ofClass c = Metrics.ofClass {} c + forms.countP (·.token.tokenClass == c) := by
    rw [recorded]
    exact Metrics.ofClass_recordAll other
  have all : m.classified = m.total := by
    rw [recorded, Metrics.classified_recordAll counted.begins.formed, Metrics.total_recordAll]
    rfl
  refine ⟨congrArg Tokenization.metrics same, forms, counted, ?_, ?_, ?_, ?_, ?_, ?_, all, ?_, ?_⟩
  · rw [recorded, Metrics.total_recordAll, Nat.zero_add]
  · exact (inClass (c := .identifier) (by decide)).trans (Nat.zero_add _)
  · exact (inClass (c := .literal) (by decide)).trans (Nat.zero_add _)
  · exact (inClass (c := .operator) (by decide)).trans (Nat.zero_add _)
  · exact (inClass (c := .punctuation) (by decide)).trans (Nat.zero_add _)
  · exact (inClass (c := .whitespace) (by decide)).trans (Nat.zero_add _)
  · rw [recorded, Metrics.basedLiterals_recordAll, Nat.zero_add]
  · rw [recorded, Metrics.maxStringLength_recordAll, Nat.zero_max]

theorem metrics_exact_unreadable :
    let a : Analyzer := {}
    let found := (a.after ["16#FF#"]).tokenize "f('é',2#1# $"
    found.1.tokens =
      .error (.invalidCharacter '$' "a token" ⟨⟨12, 1, 12⟩, ⟨13, 1, 13⟩⟩) ∧
    found.2.metrics =
      { total := 6, identifiers := 1, literals := 2, punctuation := 2, whitespace := 1,
        basedLiterals := 1, maxStringLength := 2, maxNumberDigits := 1 } ∧
    ∃ forms, Lexer.Counted "f('é',2#1# $" found.1.tokens forms ∧
      found.2.metrics.total = forms.length := by
  have unread : (Lexer.run true "f('é',2#1# $").tokens =
      .error (.invalidCharacter '$' "a token" ⟨⟨12, 1, 12⟩, ⟨13, 1, 13⟩⟩) := by decide +kernel
  have counts : (Lexer.run true "f('é',2#1# $").metrics =
      { total := 6, identifiers := 1, literals := 2, punctuation := 2, whitespace := 1,
        basedLiterals := 1, maxStringLength := 2, maxNumberDigits := 1 } := by decide +kernel
  obtain ⟨-, forms, counted, total, -⟩ := metrics_exact {} rfl ["16#FF#"] "f('é',2#1# $"
  exact ⟨unread, counts, forms, counted, total⟩

end Analyzer

end StateActions
