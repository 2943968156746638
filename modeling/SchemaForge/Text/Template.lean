import SchemaForge.Text.Digit
import SchemaForge.Value.Part

/-! Text with named slots in braces. A doubled brace stands for itself. Behind its name a slot can ask
for a part of the value: under a key or at a position in square brackets, or by name after a dot. -/
namespace SchemaForge
namespace Text

/-- A slot as it is written: the text up to its colon, the text behind it, and what follows the slot. -/
structure Slot where
  name : List Char
  spec : List Char
  rest : List Char

/-- Reads the text behind the colon of a slot, in which braces are nested `depth` deep. -/
def readSpec : Nat → List Char → Option (List Char × List Char)
  | _, [] => none
  | 0, '}' :: rest => some ([], rest)
  | depth + 1, '}' :: rest => (readSpec depth rest).map fun r => ('}' :: r.1, r.2)
  | depth, '{' :: rest => (readSpec (depth + 1) rest).map fun r => ('{' :: r.1, r.2)
  | depth, c :: rest => (readSpec depth rest).map fun r => (c :: r.1, r.2)

/-- Reads a slot from behind its opening brace. Between square brackets every character counts as a
part of the name. -/
def readSlot (inBrackets : Bool) : List Char → Option Slot
  | [] => none
  | c :: rest =>
    if inBrackets then
      (readSlot (c ≠ ']') rest).map fun s => { s with name := c :: s.name }
    else match c with
      | '}' => some ⟨[], [], rest⟩
      | ':' => (readSpec 0 rest).map fun r => ⟨[], r.1, r.2⟩
      | '{' => none
      | '!' => none
      | _ => (readSlot (c = '[') rest).map fun s => { s with name := c :: s.name }

theorem readSpec_length {depth : Nat} {cs : List Char} {r : List Char × List Char}
    (h : readSpec depth cs = some r) : r.2.length < cs.length := by
  fun_induction readSpec depth cs generalizing r with
  | case1 => simp at h
  | case2 rest => simp only [Option.some.injEq] at h; subst h; simp
  | case3 _ _ ih | case4 _ _ ih | case5 _ _ _ _ _ _ ih =>
    obtain ⟨q, hq, rfl⟩ := Option.map_eq_some_iff.1 h
    have := ih hq
    simp only [List.length_cons]; omega

theorem readSlot_length {b : Bool} {cs : List Char} {s : Slot} (h : readSlot b cs = some s) :
    s.rest.length < cs.length := by
  fun_induction readSlot b cs generalizing s with
  | case1 => simp at h
  | case2 c rest ih =>
    obtain ⟨q, hq, rfl⟩ := Option.map_eq_some_iff.1 h
    have := ih hq
    simp only [List.length_cons]; omega
  | case3 => simp only [Option.some.injEq] at h; subst h; simp
  | case4 =>
    obtain ⟨q, hq, rfl⟩ := Option.map_eq_some_iff.1 h
    have := readSpec_length hq
    simp only [List.length_cons]; omega
  | case5 => simp at h
  | case6 => simp at h
  | case7 _ _ _ _ _ _ _ _ ih =>
    obtain ⟨q, hq, rfl⟩ := Option.map_eq_some_iff.1 h
    have := ih hq
    simp only [List.length_cons]; omega

/-- Reads digits in whatever script as a number, after those that make `n`. -/
def readDigits (n : Nat) : List Char → Checked (Option Nat)
  | [] => pure (some n)
  | c :: rest =>
    match digit? c with
    | none => pure none
    | some d =>
      if Value.greatestCount < 10 * n + d then throw .malformed else readDigits (10 * n + d) rest

/-- The position that a text stands for, if it is one. -/
def readPosition (cs : List Char) : Checked (Option Nat) :=
  if cs = [] then pure none else readDigits 0 cs

/-- What a slot leads to: a value, or the sort of a value. -/
inductive Found where
  | value (v : Value)
  | sort (name : String)

namespace Found

def spell : Found → String
  | value v => v.spell
  | sort name => "<class '" ++ name ++ "'>"

/-- The sort of what was found; sorts are of a sort themselves. -/
def sortName : Found → String
  | value .null => "NoneType"
  | value (.bool _) => "bool"
  | value (.int _) => "int"
  | value (.text _) => "str"
  | value (.list _) => "list"
  | value (.table _) => "dict"
  | sort _ => "type"

end Found

/-- A part that is known by its name. Everything has a sort, and beyond that only numbers and sorts
have such parts. -/
def namedPart (found : Found) (name : String) : Checked Found :=
  match found, name with
  | found, "__class__" => pure (.sort found.sortName)
  | .sort name, "__name__" | .sort name, "__qualname__" => pure (.value name)
  | .sort _, "__module__" => pure (.value "builtins")
  | .sort _, _ => throw .unsupported
  | .value v, name =>
    match v.number?, name with
    | some n, "real" | some n, "numerator" => pure (.value (.int n))
    | some _, "imag" => pure (.value (.int 0))
    | some _, "denominator" => pure (.value (.int 1))
    | _, _ => throw .unsupported

/-- A part of a value by the text between square brackets. -/
def bracketPart (found : Found) (key : List Char) : Checked Found := do
  let position ← readPosition key
  if key = [] then throw .malformed
  let .value v := found | throw .mismatch
  match position with
  | some n => return .value (← v.part (.int n))
  | none => return .value (← v.part (String.ofList key))

/-- Goes to a part, and to the part of that, as a text says. -/
def partOf (v : Found) (path : List Char) : Checked Found :=
  match path with
  | [] => pure v
  | '.' :: rest => do
    let name := rest.takeWhile fun c => c ≠ '.' ∧ c ≠ '['
    if name = [] then throw .malformed
    partOf (← namedPart v (String.ofList name)) (rest.drop name.length)
  | '[' :: rest => do
    let key := rest.takeWhile (· ≠ ']')
    if rest.length ≤ key.length then throw .malformed
    partOf (← bracketPart v key) (rest.drop (key.length + 1))
  | _ => throw .malformed
termination_by path.length
decreasing_by all_goals simp only [List.length_drop, List.length_cons]; omega

/-- The fault of a slot that asks for a format. -/
def Found.formatFault : Found → Fault
  | value (.text _) | value (.int _) | value (.bool _) => .malformed
  | _ => .mismatch

/-- The value of a slot. A slot without a name or with a number asks for a position, of which there
is none; nothing takes a format. -/
def slotValue (values : String → Option Value) (slot : Slot) : Checked String := do
  let key := slot.name.takeWhile fun c => c ≠ '.' ∧ c ≠ '['
  if (← readPosition key).isSome || key = [] then throw .outOfRange
  let value ← Checked.require (String.ofList key) (values (String.ofList key))
  let found ← partOf (.value value) (slot.name.drop key.length)
  if slot.spec = [] then return found.spell else throw found.formatFault

/-- A stretch of a text with slots; `broken` is a brace without its partner. -/
inductive Piece where
  | char (c : Char)
  | slot (s : Slot)
  | broken

def pieces (cs : List Char) : List Piece :=
  match cs with
  | [] => []
  | '{' :: '{' :: rest => .char '{' :: pieces rest
  | '}' :: '}' :: rest => .char '}' :: pieces rest
  | '{' :: rest =>
    match _h : readSlot false rest with
    | some s => .slot s :: pieces s.rest
    | none => [.broken]
  | '}' :: _ => [.broken]
  | c :: rest => .char c :: pieces rest
termination_by cs.length
decreasing_by
  all_goals simp only [List.length_cons]
  case _ => omega
  case _ => omega
  case _ => have := readSlot_length _h; omega
  case _ => omega

def Piece.value (values : String → Option Value) : Piece → Checked String
  | char c => pure (String.singleton c)
  | slot s => slotValue values s
  | broken => throw .malformed

/-- Puts the values into the slots of a text. The first piece that has no value decides the fault. -/
def fill (values : String → Option Value) (s : String) : Checked String :=
  return String.join (← (pieces s.toList).mapM (Piece.value values))

end Text
end SchemaForge
