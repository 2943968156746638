import SchemaForge.Text.Quoted

/-! The values that stand in schemas and hints. Nothing fixes their form: where a text is expected
there may be a number, a list or nothing. -/
namespace SchemaForge

inductive Value where
  | null
  | bool (b : Bool)
  | int (n : Int)
  | text (s : String)
  | list (items : List Value)
  /-- Named values, each name once. -/
  | table (entries : List (String × Value))
  deriving Inhabited

instance : Coe String Value := ⟨Value.text⟩

namespace Value

mutual
/-- The spelling of a value inside another one, where a text has quotes. -/
def quoted : Value → String
  | null => "None"
  | bool true => "True"
  | bool false => "False"
  | int n => toString n
  | text s => Text.quoted s
  | list items => "[" ++ ", ".intercalate (quotedItems items) ++ "]"
  | table entries => "\x7b" ++ ", ".intercalate (quotedEntries entries) ++ "\x7d"

def quotedItems : List Value → List String
  | [] => []
  | v :: rest => v.quoted :: quotedItems rest

def quotedEntries : List (String × Value) → List String
  | [] => []
  | (key, v) :: rest => (Text.quoted key ++ ": " ++ v.quoted) :: quotedEntries rest
end

/-- The spelling of a value inside generated text. -/
def spell : Value → String
  | text s => s
  | v => v.quoted

/-- The value as a number; a truth value counts as zero or one. -/
def number? : Value → Option Int
  | int n => some n
  | bool b => some (if b then 1 else 0)
  | _ => none

def text? : Value → Option String
  | text s => some s
  | _ => none

def isText (v : Value) : Bool := v.text?.isSome

mutual
/-- Whether two values count as the same. Truth values are the same as the numbers zero and one, and
the order of the entries of a table means nothing. -/
def same : Value → Value → Bool
  | null, null => true
  | text a, text b => a == b
  | list xs, list ys => sameItems xs ys
  | table xs, table ys => xs.length == ys.length && sameEntries xs ys
  | a, b => match a.number?, b.number? with
    | some m, some n => m == n
    | _, _ => false

def sameItems : List Value → List Value → Bool
  | [], [] => true
  | x :: xs, y :: ys => same x y && sameItems xs ys
  | _, _ => false

/-- Whether the second table has the same value under every key of the first. -/
def sameEntries : List (String × Value) → List (String × Value) → Bool
  | [], _ => true
  | (key, v) :: rest, ys =>
    (match ys.lookup key with
      | some w => same v w
      | none => false) && sameEntries rest ys
end

instance : BEq Value := ⟨same⟩

/-- Null, zero, false, and the empty text, list and table. -/
def isEmpty : Value → Bool
  | null | bool false | int 0 => true
  | text s => s.isEmpty
  | list items => items.isEmpty
  | table entries => entries.isEmpty
  | _ => false

/-- Whether a value can be the key of an entry. -/
def isKey : Value → Bool
  | list _ | table _ => false
  | _ => true

def isByte (v : Value) : Bool := v == "byte"

def isEnum (v : Value) : Bool := v == "enum"

def isStruct (v : Value) : Bool := v == "struct"

@[simp] theorem text?_text (s : String) : (text s).text? = some s := rfl
@[simp] theorem number?_int (n : Int) : (int n).number? = some n := rfl
@[simp] theorem isText_text (s : String) : (text s).isText = true := rfl
@[simp] theorem isText_int (n : Int) : (int n).isText = false := rfl
@[simp] theorem spell_text (s : String) : (text s).spell = s := rfl
@[simp] theorem text_beq_text (a b : String) : (text a == text b) = (a == b) := by
  simp [BEq.beq, same]
@[simp] theorem int_beq_int (m n : Int) : (int m == int n) = (m == n) := by
  simp [BEq.beq, same]

end Value
end SchemaForge
