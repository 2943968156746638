/-! White space, and the lines of a text. -/
namespace SchemaForge
namespace Text

/-- White space: the Unicode property together with the separators U+001C to U+001F. -/
def isBlank (c : Char) : Bool :=
  let n := c.toNat
  (9 ≤ n && n ≤ 13) || (28 ≤ n && n ≤ 32) || n == 0x85 || n == 0xA0 || n == 0x1680 ||
  (0x2000 ≤ n && n ≤ 0x200A) || n == 0x2028 || n == 0x2029 || n == 0x202F || n == 0x205F ||
  n == 0x3000

theorem isBlank_of_isWhitespace {c : Char} (h : c.isWhitespace) : isBlank c := by
  simp only [Char.isWhitespace, Bool.or_eq_true, decide_eq_true_eq] at h
  rcases h with ((rfl | rfl) | rfl) | rfl <;> decide

def stripChars (cs : List Char) : List Char :=
  ((cs.dropWhile isBlank).reverse.dropWhile isBlank).reverse

/-- The text without the white space at its two ends. -/
def strip (s : String) : String := String.ofList (stripChars s.toList)

/-- Splits at every character in `ends`, keeping the empty pieces. -/
def splitChars (ends : Char → Bool) : List Char → List (List Char)
  | [] => [[]]
  | c :: rest =>
    match ends c, splitChars ends rest with
    | true, pieces => [] :: pieces
    | false, piece :: pieces => (c :: piece) :: pieces
    | false, [] => [[c]]

def splitOn (ends : Char → Bool) (s : String) : List String :=
  (splitChars ends s.toList).map String.ofList

/-- A carriage return counts as a line feed, and so does one together with the line feed after it. -/
def lineFeeds : List Char → List Char
  | [] => []
  | '\r' :: '\n' :: rest => '\n' :: lineFeeds rest
  | '\r' :: rest => '\n' :: lineFeeds rest
  | c :: rest => c :: lineFeeds rest

/-- Drops the empty piece behind a last line end. -/
def dropLastEmpty (pieces : List (List Char)) : List (List Char) :=
  if pieces.getLast? = some [] then pieces.dropLast else pieces

/-- The lines of a file, each without the white space around it. A last line needs no line end. -/
def fileLines (s : String) : List String :=
  (dropLastEmpty (splitChars (· == '\n') (lineFeeds s.toList))).map fun cs =>
    String.ofList (stripChars cs)

/-- Line ends inside a text, beyond the line feed also the other vertical separators. -/
def isLineEnd (c : Char) : Bool :=
  let n := c.toNat
  (10 ≤ n && n ≤ 13) || (28 ≤ n && n ≤ 30) || n == 0x85 || n == 0x2028 || n == 0x2029

def lines (s : String) : List String :=
  (dropLastEmpty (splitChars isLineEnd (lineFeeds s.toList))).map String.ofList

end Text
end SchemaForge
