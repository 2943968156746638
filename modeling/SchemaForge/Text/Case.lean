import SchemaForge.Text.CaseTable

/-! Changing the case of text. A letter may turn into several (`ß` in upper case is `SS`), and the
lower case of a capital sigma depends on its neighbours. -/
namespace SchemaForge
namespace Text

def longForm (table : List (Nat × List Nat)) (c : Char) : Option (List Char) :=
  (table.lookup c.toNat).map fun codes => codes.map Char.ofNat

def upperForm (c : Char) : List Char :=
  if c.toNat < 128 then [c.toUpper]
  else (longForm longUpper c).getD [shiftIn upperRuns c]

def lowerForm (c : Char) : List Char :=
  if c.toNat < 128 then [c.toLower]
  else (longForm longLower c).getD [shiftIn lowerRuns c]

/-- The form of a letter at the head of a capitalised word. -/
def titleForm (c : Char) : List Char :=
  if c.toNat < 128 then [c.toUpper]
  else (longForm titleForms c).getD (upperForm c)

def isCapital (c : Char) : Bool :=
  if c.toNat < 128 then c.isUpper else inRuns capitalRuns c

/-- Whether there are capitals in a text and no other letters with a case. -/
def isUpper (s : String) : Bool :=
  s.toList.any isCapital && s.toList.all fun c => isCapital c || !inRuns casedRuns c

theorem upperForm_ascii {c : Char} (h : c.toNat < 128) : upperForm c = [c.toUpper] := if_pos h

theorem lowerForm_ascii {c : Char} (h : c.toNat < 128) : lowerForm c = [c.toLower] := if_pos h

theorem isCapital_ascii {c : Char} (h : c.toNat < 128) : isCapital c = c.isUpper := if_pos h

def nextIsCased (cs : List Char) : Bool :=
  match cs.dropWhile (inRuns ignorableRuns) with
  | c :: _ => inRuns casedRuns c
  | [] => false

/-- A capital sigma becomes the final form after a cased letter, unless one follows as well. -/
def lowerSigma (before after : List Char) : Char :=
  if nextIsCased before && !nextIsCased after then 'ς' else 'σ'

/-- Lower case of `rest`, read after the characters `before`, which stand in reverse order. -/
def lowerAfter (before : List Char) : List Char → List Char
  | [] => []
  | c :: rest =>
    (if c = 'Σ' then [lowerSigma before rest] else lowerForm c) ++ lowerAfter (c :: before) rest

def lowerChars (cs : List Char) : List Char := lowerAfter [] cs

theorem lowerAfter_ascii (before : List Char) {cs : List Char} (h : ∀ c ∈ cs, c.toNat < 128) :
    lowerAfter before cs = cs.map Char.toLower := by
  induction cs generalizing before with
  | nil => rfl
  | cons c rest ih =>
    have hc : c.toNat < 128 := h c (by simp)
    have hs : c ≠ 'Σ' := by rintro rfl; revert hc; decide
    simp [lowerAfter, hs, lowerForm_ascii hc, ih (c :: before) fun d hd => h d (by simp [hd])]

def upper (s : String) : String := String.ofList (s.toList.flatMap upperForm)

def lower (s : String) : String := String.ofList (lowerChars s.toList)

/-- The first letter in title case and the others in lower case. -/
def capitalize (s : String) : String :=
  match s.toList with
  | [] => ""
  | c :: rest => String.ofList (titleForm c ++ lowerAfter [c] rest)

/-- The first letter in upper case, the others as they are. -/
def upperFirst (s : String) : String :=
  match s.toList with
  | [] => ""
  | c :: rest => String.ofList (upperForm c ++ rest)

/-- The first letter in lower case, the others as they are. -/
def lowerFirst (s : String) : String :=
  match s.toList with
  | [] => ""
  | c :: rest => String.ofList (lowerForm c ++ rest)

end Text
end SchemaForge
