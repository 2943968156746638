import SchemaForge.Record
import SchemaForge.Text.Words

/-! The parts of a value: the entries of a table, the items of a list, the characters of a text. A
value without such parts refuses the question. -/
namespace SchemaForge
namespace Value

def characters (s : String) : List Value := s.toList.map fun c => text (String.singleton c)

/-- What can be gone through: items, characters, or the keys of a table. -/
def items : Value → Checked (List Value)
  | list items => pure items
  | text s => pure (characters s)
  | table entries => pure (entries.map fun e => text e.1)
  | _ => throw .mismatch

/-- The entry of a table under a key that is looked up. -/
def entryIn (entries : List (String × Value)) (key : Value) : Checked (Option Value) := do
  return (← key.asKey).text?.bind fun k => entries.lookup k

/-- Whether one value holds another: a table as a key, a list as an item, a text as a part. -/
def holds : Value → Value → Checked Bool
  | table entries, key => return (← entryIn entries key).isSome
  | list items, item => pure (items.contains item)
  | text s, text part => pure (Text.holds part s)
  | _, _ => throw .mismatch

def has (v : Value) (key : String) : Checked Bool := v.holds (text key)

/-- The value at a position; a negative one counts from the end. -/
def atPosition (values : List Value) (position : Value) : Checked Value := do
  let n ← position.compared
  let fromStart := if n < 0 then n + values.length else n
  if fromStart < 0 then throw .outOfRange
  match values[fromStart.toNat]? with
  | some v => pure v
  | none => throw .outOfRange

/-- The part of a value under a key or at a position. -/
def part : Value → Value → Checked Value
  | table entries, key => do Checked.require key (← entryIn entries key)
  | list items, position => atPosition items position
  | text s, position => atPosition (characters s) position
  | _, _ => throw .mismatch

/-- The greatest number that counts or finds something. -/
def greatestCount : Nat := 9223372036854775807

/-- The greatest length for which there is room. -/
def greatestLength : Nat := 1 <<< 32

/-- A character in as many groups of a width as a number says, in none if it is negative. -/
def copies (count : Value) (c : Char) (width : Nat) : Checked String := do
  let n ← count.compared
  if greatestCount < n || n < -greatestCount - 1 then throw .tooGreat
  let length := width * n.toNat
  if greatestCount < length then throw .tooGreat
  if greatestLength < length then throw .noRoom
  return "".pushn c length

def first (v : Value) : Checked Value := v.part (int 0)

def need : Value → String → Checked Value
  | table entries, key => Record.need ⟨entries⟩ key
  | _, _ => throw .mismatch

/-- The entry of a table, if it has one. Only tables can be asked in this way. -/
def find : Value → Value → Checked (Option Value)
  | table entries, key => entryIn entries key
  | _, _ => throw .unsupported

/-- Whether a value stands under a key. -/
def is (v : Value) (key : String) (value : Value) : Checked Bool := do
  if ← v.has key then return (← v.need key) == value else return false

/-- Gives an entry of a table a new value. -/
def put (v : Value) (key : String) (value : Value) : Value :=
  match v with
  | table entries => table (Record.setIn key value entries)
  | v => v

/-- Changes the value under a key that a table has. -/
def modifyEntry (v : Value) (key : String) (change : Value → Value) : Value :=
  match v with
  | table entries => table (entries.map fun (k, v) => if k = key then (k, change v) else (k, v))
  | v => v

/-- Changes the item at a position of a list. -/
def modifyItem (v : Value) (index : Nat) (change : Value → Value) : Value :=
  match v with
  | list items => list (items.modify index change)
  | v => v

theorem has_record (r : Record) (key : String) : r.value.has key = .ok (r.has key) := rfl

@[simp] theorem need_record (r : Record) (key : String) : r.value.need key = r.need key := rfl

theorem is_record (r : Record) (key : String) (value : Value) :
    r.value.is key value = .ok (r.is key value) := by
  simp only [is, has_record, need_record, Record.has, Record.need, Record.is]
  cases r.get? key <;> rfl

end Value
end SchemaForge
