import Mathlib.Data.List.DropRight
import Mathlib.Data.List.GetD
import Mathlib.Data.List.Induction
import StateActions.Source.LineTable

namespace StateActions

namespace Text

variable {bytes : Nat} {head tail text : List Char}

@[simp] theorem byteLength_append (left right : List Char) :
    byteLength (left ++ right) = byteLength left + byteLength right := by
  induction left with
  | nil => simp
  | cons c rest ih => simp [ih, Nat.add_assoc]

theorem byteLength_singleton (c : Char) : byteLength [c] = c.utf8Size := Nat.zero_add _

@[simp] theorem takeBytes_zero (text : List Char) : takeBytes 0 text = [] := by
  cases text with
  | nil => rfl
  | cons c rest =>
    have positive := c.utf8Size_pos
    rw [takeBytes_cons, if_neg (by omega)]

theorem takeBytes_append_of_le (within : bytes ≤ byteLength head) :
    takeBytes bytes (head ++ tail) = takeBytes bytes head := by
  induction head generalizing bytes with
  | nil =>
    obtain rfl : bytes = 0 := Nat.le_zero.mp within
    rw [takeBytes_zero, takeBytes_zero]
  | cons c rest ih =>
    rw [byteLength_cons] at within
    rw [List.cons_append, takeBytes_cons, takeBytes_cons, ih (by omega)]

theorem dropBytes_append_of_le (within : bytes ≤ byteLength head) :
    dropBytes bytes (head ++ tail) = dropBytes bytes head ++ tail := by
  have whole := takeBytes_append_dropBytes bytes (head ++ tail)
  rw [takeBytes_append_of_le within] at whole
  refine List.append_cancel_left (whole.trans ?_)
  rw [← List.append_assoc, takeBytes_append_dropBytes]

@[simp] theorem takeBytes_byteLength (head tail : List Char) :
    takeBytes (byteLength head) (head ++ tail) = head := by
  induction head with
  | nil => exact takeBytes_zero tail
  | cons c rest ih =>
    rw [List.cons_append, byteLength_cons, takeBytes_cons, if_pos (Nat.le_add_right _ _),
      Nat.add_sub_cancel_left, ih]

@[simp] theorem dropBytes_byteLength (head tail : List Char) :
    dropBytes (byteLength head) (head ++ tail) = tail := by
  have whole := takeBytes_append_dropBytes (byteLength head) (head ++ tail)
  rw [takeBytes_byteLength] at whole
  exact List.append_cancel_left whole

theorem byteLength_takeBytes_le_self (bytes : Nat) (text : List Char) :
    byteLength (takeBytes bytes text) ≤ byteLength text := by
  have whole := congrArg byteLength (takeBytes_append_dropBytes bytes text)
  rw [byteLength_append] at whole
  omega

theorem takeBytes_isPrefix (bytes : Nat) (text : List Char) : takeBytes bytes text <+: text :=
  ⟨_, takeBytes_append_dropBytes bytes text⟩

theorem isPrefix_takeBytes (begins : head <+: text) (fits : byteLength head ≤ bytes) :
    head <+: takeBytes bytes text := by
  induction head generalizing bytes text with
  | nil => exact List.nil_prefix
  | cons c rest ih =>
    obtain ⟨tail, rfl⟩ := begins
    rw [byteLength_cons] at fits
    rw [List.cons_append, takeBytes_cons, if_pos (by omega), List.prefix_cons_inj]
    exact ih ⟨tail, rfl⟩ (by omega)

theorem length_le_byteLength (text : List Char) : text.length ≤ byteLength text := by
  induction text with
  | nil => exact Nat.le_refl 0
  | cons c rest ih =>
    have positive := c.utf8Size_pos
    rw [List.length_cons, byteLength_cons]
    omega

def lastLine (text : List Char) : List Char := text.rtakeWhile (· != '\n')

def firstLine (text : List Char) : List Char := text.takeWhile (· != '\n')

@[simp] theorem lastLine_concat_feed (text : List Char) : lastLine (text ++ ['\n']) = [] := by
  rw [lastLine, List.rtakeWhile_concat]
  rfl

theorem lastLine_concat {c : Char} (other : c ≠ '\n') (text : List Char) :
    lastLine (text ++ [c]) = lastLine text ++ [c] := by
  rw [lastLine, List.rtakeWhile_concat, if_pos (by simpa using other)]
  rfl

end Text

namespace Position

open Text

variable {p : Position} {c : Char} {text : List Char} {offset lines characters : Nat}

@[simp] theorem offset_advanceList (p : Position) (text : List Char) :
    (p.advanceList text).offset = p.offset + byteLength text := by
  induction text generalizing p with
  | nil => rfl
  | cons c rest ih =>
    have step : (p.advance c).offset = p.offset + c.utf8Size := by
      unfold advance
      split
      · next feed =>
        subst feed
        rfl
      · rfl
    rw [advanceList_cons, ih, step, byteLength_cons, Nat.add_assoc]

theorem advance_feed :
    (ofCounts offset lines characters).advance '\n' = ofCounts (offset + 1) (lines + 1) 0 := by
  rw [ofCounts, ofCounts, UInt32.ofNat_add]
  rfl

theorem advance_of_ne (other : c ≠ '\n') :
    (ofCounts offset lines characters).advance c =
      ofCounts (offset + c.utf8Size) lines (characters + 1) := by
  rw [ofCounts, ofCounts, UInt32.ofNat_add, advance, if_neg other]
  rfl

theorem advanceList_start (text : List Char) :
    start.advanceList text =
      ofCounts (byteLength text) (text.count '\n') (lastLine text).length := by
  induction text using List.reverseRecOn with
  | nil => rfl
  | append_singleton head c ih =>
    rw [advanceList_append, ih, byteLength_append, List.count_append]
    by_cases feed : c = '\n'
    · subst feed
      rw [lastLine_concat_feed, List.count_singleton_self]
      exact advance_feed
    · rw [lastLine_concat feed, List.count_singleton, if_neg (by simpa using feed),
        List.length_append, byteLength_singleton]
      exact advance_of_ne feed

theorem successor?_ofNat {n : Nat} (fits : n + 1 < 4294967296) :
    successor? (.ofNat n) = some (.ofNat n + 1) := by
  have exact : (UInt32.ofNat n).toNat = n := by
    rw [UInt32.toNat_ofNat']
    omega
  rw [successor?, exact, if_pos fits]

theorem ofCounts?_eq_some (fits : lines + 1 < 4294967296) (fits' : characters + 1 < 4294967296) :
    ofCounts? offset lines characters = some (ofCounts offset lines characters) := by
  rw [ofCounts?, successor?_ofNat fits, successor?_ofNat fits']
  rfl

theorem advance?_feed :
    (ofCounts offset lines characters).advance? '\n' =
      ofCounts? (offset + 1) (lines + 1) 0 := by
  rw [ofCounts, ofCounts?, UInt32.ofNat_add]
  show (successor? (.ofNat lines + 1)).map _ = (successor? (.ofNat lines + 1)).bind _
  cases successor? (.ofNat lines + 1) <;> rfl

theorem advance?_of_ne (fits : lines + 1 < 4294967296) (other : c ≠ '\n') :
    (ofCounts offset lines characters).advance? c =
      ofCounts? (offset + c.utf8Size) lines (characters + 1) := by
  rw [ofCounts, ofCounts?, UInt32.ofNat_add, successor?_ofNat fits, advance?, if_neg other]
  show (successor? (.ofNat characters + 1)).map _ = (successor? (.ofNat characters + 1)).bind _
  cases successor? (.ofNat characters + 1) <;> rfl

theorem advanceList?_concat (p : Position) (text : List Char) (c : Char) :
    p.advanceList? (text ++ [c]) = (p.advanceList? text).bind (·.advance? c) := by
  rw [advanceList?, List.foldlM_append]
  exact Option.bind_congr fun q _ => by
    rw [List.foldlM_cons]
    exact bind_pure _

theorem counts_le (text : List Char) :
    text.count '\n' ≤ byteLength text ∧ (lastLine text).length ≤ byteLength text := by
  have all := length_le_byteLength text
  have feeds := List.count_le_length (a := '\n') (l := text)
  have last : (lastLine text).length ≤ text.length := (List.rtakeWhile_suffix _ text).length_le
  omega

-- Only the last character can take a number too far: before it there are too few of them.
theorem advanceList?_start (fits : byteLength text < 4294967296) :
    start.advanceList? text =
      ofCounts? (byteLength text) (text.count '\n') (lastLine text).length := by
  induction text using List.reverseRecOn with
  | nil => rfl
  | append_singleton head c ih =>
    have positive := c.utf8Size_pos
    have counts := counts_le head
    rw [byteLength_append, byteLength_cons, byteLength_nil] at fits
    rw [advanceList?_concat, ih (by omega), ofCounts?_eq_some (by omega) (by omega),
      Option.bind_some, byteLength_append, List.count_append]
    by_cases feed : c = '\n'
    · subst feed
      rw [lastLine_concat_feed, List.count_singleton_self]
      exact advance?_feed
    · rw [lastLine_concat feed, List.count_singleton, if_neg (by simpa using feed),
        List.length_append, byteLength_singleton]
      have few : head.count '\n' + 1 < 4294967296 := by omega
      exact advance?_of_ne few feed

theorem advanceList?_eq_some (fits : byteLength text + 1 < 4294967296) :
    start.advanceList? text = some (start.advanceList text) := by
  have counts := counts_le text
  rw [advanceList?_start (by omega), ofCounts?_eq_some (by omega) (by omega), advanceList_start]

end Position

namespace LineTable

open Text

variable {offset : Nat} {head tail : List Char}

theorem feeds_found (offset : Nat) (text : List Char) (found : List Nat) :
    feeds offset text found = found.reverse ++ feeds offset text [] := by
  induction text generalizing offset found with
  | nil => simp [feeds]
  | cons c rest ih =>
    simp only [feeds]
    split
    · rw [ih _ [_], ih _ (_ :: found)]
      simp
    · exact ih _ found

theorem feeds_append (offset : Nat) (head tail : List Char) :
    feeds offset (head ++ tail) [] =
      feeds offset head [] ++ feeds (offset + byteLength head) tail [] := by
  induction head generalizing offset with
  | nil => rfl
  | cons c rest ih =>
    simp only [List.cons_append, feeds, byteLength_cons]
    rw [feeds_found, feeds_found _ rest, ih, List.append_assoc, Nat.add_assoc]

theorem feeds_bounds {start : Nat} (member : start ∈ feeds offset tail []) :
    offset < start ∧ start ≤ offset + byteLength tail := by
  induction tail generalizing offset with
  | nil => cases member
  | cons c rest ih =>
    have positive := c.utf8Size_pos
    rw [feeds, feeds_found] at member
    rw [byteLength_cons]
    rcases List.mem_append.mp member with here | later
    · split at here
      · obtain rfl := List.mem_singleton.mp here
        omega
      · cases here
    · have bounds := ih later
      omega

theorem starts_append (head tail : List Char) :
    (ofList (head ++ tail)).starts = (ofList head).starts ++ feeds (byteLength head) tail [] := by
  rw [ofList, ofList, feeds_append, Nat.zero_add]
  rfl

theorem starts_le {start : Nat} (member : start ∈ (ofList head).starts) :
    start ≤ byteLength head := by
  rcases List.mem_cons.mp member with rfl | later
  · exact Nat.zero_le _
  · have bounds := feeds_bounds later
    omega

-- The lines that have started by the end of a beginning are the lines of that beginning.
theorem takeWhile_starts (head tail : List Char) :
    (ofList (head ++ tail)).starts.takeWhile (· ≤ byteLength head) = (ofList head).starts := by
  rw [starts_append, List.takeWhile_append_of_pos]
  · cases later : feeds (byteLength head) tail [] with
    | nil => simp
    | cons first rest =>
      have bounds := feeds_bounds (later ▸ List.mem_cons_self : first ∈ _)
      rw [List.takeWhile_cons_of_neg (by simpa using bounds.1), List.append_nil]
  · intro start member
    exact decide_eq_true (starts_le member)

theorem starts_ne_nil (text : List Char) : (ofList text).starts ≠ [] := List.cons_ne_nil _ _

def lastStart (text : List Char) : Nat := (ofList text).starts.getLast (starts_ne_nil text)

theorem lastStart_le (text : List Char) : lastStart text ≤ byteLength text :=
  starts_le (List.getLast_mem _)

theorem starts_snoc (head : List Char) (c : Char) :
    (ofList (head ++ [c])).starts =
      (ofList head).starts ++ if c = '\n' then [byteLength (head ++ [c])] else [] := by
  rw [starts_append]
  simp only [feeds, byteLength_append, byteLength_cons, byteLength_nil, Nat.add_zero]
  split <;> rfl

theorem length_starts (text : List Char) :
    (ofList text).starts.length = text.count '\n' + 1 := by
  induction text using List.reverseRecOn with
  | nil => rfl
  | append_singleton head c ih =>
    rw [starts_snoc, List.length_append, ih, List.count_append, List.count_singleton]
    by_cases feed : c = '\n'
    · simp [feed]
    · simp [feed]

theorem dropBytes_lastStart (text : List Char) :
    dropBytes (lastStart text) text = lastLine text := by
  induction text using List.reverseRecOn with
  | nil => rfl
  | append_singleton head c ih =>
    have starts := starts_snoc head c
    by_cases feed : c = '\n'
    · subst feed
      have last : lastStart (head ++ ['\n']) = byteLength (head ++ ['\n']) := by
        unfold lastStart
        simp only [starts]
        exact List.getLast_concat
      have none := dropBytes_byteLength (head ++ ['\n']) []
      rw [List.append_nil] at none
      rw [last, none, lastLine_concat_feed]
    · rw [if_neg feed, List.append_nil] at starts
      have last : lastStart (head ++ [c]) = lastStart head := by
        unfold lastStart
        simp only [starts]
      rw [last, dropBytes_append_of_le (lastStart_le head), ih, lastLine_concat feed]

theorem starts_getElem? (head tail : List Char) :
    (ofList (head ++ tail)).starts[head.count '\n']? = some (lastStart head) := by
  rw [starts_append, List.getElem?_append_left (by rw [length_starts]; omega), lastStart,
    List.getLast_eq_getElem]
  simp [length_starts]

theorem located_eq (source : List Char) (offset : Nat) :
    (ofList source).located offset =
      (byteLength (takeBytes offset source), (takeBytes offset source).count '\n',
        (lastLine (takeBytes offset source)).length) := by
  obtain ⟨tail, whole⟩ := takeBytes_isPrefix offset source
  have reached := takeWhile_starts (takeBytes offset source) tail
  have here := starts_getElem? (takeBytes offset source) tail
  rw [whole] at reached here
  unfold located
  simp only [show (ofList source).source = source from rfl, reached, length_starts,
    Nat.add_sub_cancel, List.getD_eq_getElem?_getD, here, Option.getD_some, dropBytes_lastStart]

-- The place of an offset in the table is where the whole characters before it lead to.
theorem positionAt_eq (source : List Char) (offset : Nat) :
    (ofList source).positionAt offset = Position.start.advanceList (takeBytes offset source) := by
  rw [positionAt, located_eq, Position.advanceList_start]

theorem positionAt?_eq {source : List Char} {offset : Nat}
    (fits : byteLength (takeBytes offset source) < 4294967296) :
    (ofList source).positionAt? offset =
      Position.start.advanceList? (takeBytes offset source) := by
  rw [positionAt?, located_eq, Position.advanceList?_start fits]

end LineTable

end StateActions
