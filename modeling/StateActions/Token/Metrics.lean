import StateActions.Token.Basic

namespace StateActions

-- What a token's text adds to the counts beyond its class: the bytes of a string, or the length of
-- a numeral's first run of digits and whether a base was given.
inductive Measure
  | plain
  | content (bytes : Nat)
  | numeral (digits : Nat) (based : Bool)
deriving DecidableEq, Repr, Inhabited

structure Metrics where
  total : Nat := 0
  identifiers : Nat := 0
  literals : Nat := 0
  operators : Nat := 0
  punctuation : Nat := 0
  whitespace : Nat := 0
  basedLiterals : Nat := 0
  maxStringLength : Nat := 0
  maxNumberDigits : Nat := 0
deriving DecidableEq, Repr, Inhabited

namespace Metrics

-- Counts a token among those of its sort. What is of no other sort is punctuation.
def recordClass (m : Metrics) : Token → Metrics
  | .identifier _ => { m with identifiers := m.identifiers + 1 }
  | .boolean _ | .number _ | .string .. => { m with literals := m.literals + 1 }
  | .plus | .minus | .star | .slash => { m with operators := m.operators + 1 }
  | .space | .tab | .newline => { m with whitespace := m.whitespace + 1 }
  | .eof => m
  | _ => { m with punctuation := m.punctuation + 1 }

def recordMeasure (m : Metrics) : Measure → Metrics
  | .plain => m
  | .content bytes => { m with maxStringLength := max m.maxStringLength bytes }
  | .numeral digits based =>
    { m with
      maxNumberDigits := max m.maxNumberDigits digits
      basedLiterals := if based then m.basedLiterals + 1 else m.basedLiterals }

def record (detailed : Bool) (m : Metrics) (token : Token) (measure : Measure) : Metrics :=
  let m := m.recordMeasure measure
  let m := { m with total := m.total + 1 }
  if detailed then m.recordClass token else m

@[simp] theorem record_total (detailed : Bool) (m : Metrics) (token : Token) (measure : Measure) :
    (m.record detailed token measure).total = m.total + 1 := by
  have class_total : ∀ (m : Metrics) (t : Token), (m.recordClass t).total = m.total := by
    intro m t; cases t <;> rfl
  have measure_total : (m.recordMeasure measure).total = m.total := by cases measure <;> rfl
  unfold record
  cases detailed <;> simp [class_total, measure_total]

end Metrics

end StateActions
