namespace StateActions.Text

-- The characters with the Unicode property White_Space.
def isBlank (c : Char) : Bool :=
  let n := c.toNat
  (9 ≤ n && n ≤ 13) || n == 0x20 || n == 0x85 || n == 0xA0 || n == 0x1680 ||
    (0x2000 ≤ n && n ≤ 0x200A) || n == 0x2028 || n == 0x2029 || n == 0x202F || n == 0x205F ||
    n == 0x3000

def trim (text : List Char) : List Char :=
  ((text.dropWhile isBlank).reverse.dropWhile isBlank).reverse

def dropReturn (line : List Char) : List Char :=
  if line.getLast? = some '\r' then line.dropLast else line

def pieces (text : List Char) : List (List Char) := text.splitOn '\n'

def lines (text : List Char) : List (List Char) :=
  match (pieces text).reverse with
  | [] => []
  | last :: ended =>
    let complete := ended.reverse.map dropReturn
    if last.isEmpty then complete else complete ++ [last]

def byteLength (text : List Char) : Nat := text.foldl (fun n c => n + c.utf8Size) 0

-- How many whole characters fit into `bytes`, on top of `seen`.
def charsWithin (seen bytes : Nat) : List Char → Nat
  | [] => seen
  | c :: rest =>
    if c.utf8Size ≤ bytes then charsWithin (seen + 1) (bytes - c.utf8Size) rest else seen

def takeBytes (bytes : Nat) (text : List Char) : List Char := text.take (charsWithin 0 bytes text)

def dropBytes (bytes : Nat) (text : List Char) : List Char := text.drop (charsWithin 0 bytes text)

theorem foldl_utf8Size (start : Nat) (text : List Char) :
    text.foldl (fun n c => n + c.utf8Size) start = start + byteLength text := by
  induction text generalizing start with
  | nil => rfl
  | cons c rest ih =>
    have head := ih (start + c.utf8Size)
    have whole := ih (0 + c.utf8Size)
    simp only [byteLength, List.foldl_cons] at head whole ⊢
    omega

@[simp] theorem byteLength_nil : byteLength [] = 0 := rfl

@[simp] theorem byteLength_cons (c : Char) (rest : List Char) :
    byteLength (c :: rest) = c.utf8Size + byteLength rest := by
  have whole := foldl_utf8Size (0 + c.utf8Size) rest
  have same : byteLength (c :: rest) =
      rest.foldl (fun n c => n + c.utf8Size) (0 + c.utf8Size) := rfl
  omega

theorem charsWithin_add (seen bytes : Nat) (text : List Char) :
    charsWithin seen bytes text = seen + charsWithin 0 bytes text := by
  induction text generalizing seen bytes with
  | nil => rfl
  | cons c rest ih =>
    simp only [charsWithin]
    split
    · rw [ih (seen + 1), ih (0 + 1)]; omega
    · rfl

theorem takeBytes_cons (bytes : Nat) (c : Char) (rest : List Char) :
    takeBytes bytes (c :: rest) =
      if c.utf8Size ≤ bytes then c :: takeBytes (bytes - c.utf8Size) rest else [] := by
  unfold takeBytes
  simp only [charsWithin]
  split
  · rw [charsWithin_add, Nat.add_comm, Nat.zero_add, List.take_succ_cons]
  · rfl

theorem byteLength_takeBytes_le (bytes : Nat) (text : List Char) :
    byteLength (takeBytes bytes text) ≤ bytes := by
  induction text generalizing bytes with
  | nil => exact Nat.zero_le _
  | cons c rest ih =>
    rw [takeBytes_cons]
    split
    · have left := ih (bytes - c.utf8Size)
      rw [byteLength_cons]
      omega
    · exact Nat.zero_le _

theorem takeBytes_append_dropBytes (bytes : Nat) (text : List Char) :
    takeBytes bytes text ++ dropBytes bytes text = text := List.take_append_drop ..

def clip (bytes : Nat) (text : String) : String :=
  if text.utf8ByteSize ≤ bytes then text else String.ofList (takeBytes bytes text.toList)

def hex (n : Nat) : String := String.ofList (Nat.toDigits 16 n)

def hexPadded (width n : Nat) : String :=
  let digits := hex n
  "".pushn '0' (width - digits.length) ++ digits

def isBetween (low high : UInt8) (byte : Option UInt8) : Bool :=
  byte.any fun b => low ≤ b && b ≤ high

def isContinuation (byte : Option UInt8) : Bool := isBetween 0x80 0xBF byte

-- How many bytes follow the first one of the character that starts at `i`, if one does. Overlong
-- forms, surrogates and numbers beyond the last character are no characters.
def followers? (bytes : ByteArray) (i : Nat) : Option Nat :=
  let first := bytes[i]?
  let second := bytes[i + 1]?
  let third := bytes[i + 2]?
  let fourth := bytes[i + 3]?
  if isBetween 0x00 0x7F first then some 0
  else if isBetween 0xC2 0xDF first && isContinuation second then some 1
  else if ((isBetween 0xE0 0xE0 first && isBetween 0xA0 0xBF second) ||
      (isBetween 0xED 0xED first && isBetween 0x80 0x9F second) ||
      ((isBetween 0xE1 0xEC first || isBetween 0xEE 0xEF first) && isContinuation second)) &&
      isContinuation third then some 2
  else if ((isBetween 0xF0 0xF0 first && isBetween 0x90 0xBF second) ||
      (isBetween 0xF4 0xF4 first && isBetween 0x80 0x8F second) ||
      (isBetween 0xF1 0xF3 first && isContinuation second)) &&
      isContinuation third && isContinuation fourth then some 3
  else none

def validUpTo (bytes : ByteArray) (i : Nat) : Nat :=
  if i < bytes.size then
    match followers? bytes i with
    | some more => validUpTo bytes (i + 1 + more)
    | none => i
  else i
termination_by bytes.size - i

def decodeUtf8 (bytes : ByteArray) : Except Nat String :=
  match String.fromUTF8? bytes with
  | some text => .ok text
  | none => .error (validUpTo bytes 0)

end StateActions.Text
