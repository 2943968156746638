import SchemaForge.Text.Case
import SchemaForge.Fault

/-! Names and the words inside them. -/
namespace SchemaForge
namespace Text

def startsWith (head s : String) : Bool := head.toList.isPrefixOf s.toList

def endsWith (tail s : String) : Bool := tail.toList.isSuffixOf s.toList

def holdsChars (part : List Char) : List Char → Bool
  | [] => part.isEmpty
  | c :: rest => part.isPrefixOf (c :: rest) || holdsChars part rest

/-- Whether `part` stands somewhere inside `s`. -/
def holds (part s : String) : Bool := holdsChars part.toList s.toList

/-- Splits wherever `part` stands, from left to right; `skip` characters of it are still to be passed
over. -/
def splitCharsAt (part : List Char) (skip : Nat) : List Char → List (List Char)
  | [] => [[]]
  | c :: rest =>
    if skip > 0 then splitCharsAt part (skip - 1) rest
    else if part.isPrefixOf (c :: rest) then [] :: splitCharsAt part (part.length - 1) rest
    else match splitCharsAt part 0 rest with
      | piece :: pieces => (c :: piece) :: pieces
      | [] => [[c]]

/-- The pieces of `s` between the places where `part` stands. -/
def splitAt (part s : String) : List String :=
  (splitCharsAt part.toList 0 s.toList).map String.ofList

def dropStart (n : Nat) (s : String) : String := String.ofList (s.toList.drop n)

def dropEnd (n : Nat) (s : String) : String :=
  String.ofList (s.toList.take (s.toList.length - n))

def joinWith (between : String) (parts : List String) : String := between.intercalate parts

def underscoreCapitals : List Char → List Char
  | [] => []
  | c :: rest => if isCapital c then '_' :: c :: underscoreCapitals rest
    else c :: underscoreCapitals rest

/-- Writes an underscore before every capital after the first character. -/
def snakeCase (s : String) : String :=
  match s.toList with
  | [] => ""
  | c :: rest => String.ofList (c :: underscoreCapitals rest)

/-- The name of an enumerator. -/
def enumName (s : String) : String := upper (snakeCase s)

def spaceCapitals : List Char → List Char
  | [] => []
  | c :: rest => if isCapital c then ' ' :: lowerForm c ++ spaceCapitals rest
    else c :: spaceCapitals rest

/-- A name read as a phrase: `signerPublicKey` is `Signer public key`. -/
def phrase (name : String) : Checked String :=
  match name.toList with
  | [] => .error .outOfRange
  | c :: rest => .ok (String.ofList (upperForm c ++ spaceCapitals rest))

/-- An underscore goes in front of a capital with small letters behind it, unless the capital opens
the text or a line; the word that follows is then passed over as a whole. -/
def breakWords : List Char → List Char
  | c :: d :: rest =>
    if c ≠ '\n' ∧ d.isUpper ∧ (rest.head?.any Char.isLower) then
      c :: '_' :: d :: (rest.takeWhile Char.isLower ++ breakWords (rest.dropWhile Char.isLower))
    else c :: breakWords (d :: rest)
  | cs => cs
termination_by cs => cs.length
decreasing_by
  · have := (List.dropWhile_sublist Char.isLower (l := rest)).length_le
    simp only [List.length_cons]; omega
  · simp

/-- An underscore goes between a small letter or digit and a capital. -/
def breakCapitals : List Char → List Char
  | c :: d :: rest =>
    if (c.isLower || c.isDigit) && d.isUpper then c :: '_' :: d :: breakCapitals rest
    else c :: breakCapitals (d :: rest)
  | cs => cs
termination_by cs => cs.length

/-- A name in small letters with underscores between its words. -/
def camelToSnake (s : String) : String :=
  String.ofList (lowerChars (breakCapitals (breakWords s.toList)))

/-- The words of a name: each starts at an ASCII capital, and what stands before the first is left
out. -/
def capitalWords (s : String) : List String :=
  go [] (s.toList.dropWhile fun c => !c.isUpper)
where
  /-- Collects one word, in reverse order, until the next capital. -/
  go (word : List Char) : List Char → List String
    | [] => if word = [] then [] else [String.ofList word.reverse]
    | c :: rest =>
      if c.isUpper && word ≠ [] then String.ofList word.reverse :: go [c] rest
      else go (c :: word) rest

/-- The name of one of many things. -/
def singular (s : String) : String :=
  if endsWith "ies" s then dropEnd 3 s ++ "y"
  else if endsWith "es" s then dropEnd 2 s
  else if endsWith "s" s then dropEnd 1 s
  else s

end Text
end SchemaForge
