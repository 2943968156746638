import SchemaForge.Source.Line
import SchemaForge.Target

/-! Types that stand for a numbered kind of entity, and the code that tells them apart. -/
namespace SchemaForge

/-- A type whose layout fixes the number of its entity type. -/
structure Entity where
  name : String
  type : Value
  version : Value

namespace Entity

/-- The value of the first attribute with a name, or zero. -/
def valueOf (name : String) (attributes : List Value) : Checked Value := do
  let named ← attributes.filterM fun v => return (← v.find "name").any (· == .text name)
  match named with
  | v :: _ => return (← v.find "value").getD (.int 0)
  | [] => return .int 0

def ofType? (name : String) (declared : Value) : Checked (Option Entity) := do
  let attributes ← match ← declared.find "layout" with
    | some layout => layout.items
    | none => pure []
  let type ← valueOf "entityType" attributes
  let version ← valueOf "version" attributes
  return if 0 < (← type.compared) then some { name, type, version } else none

/-- For every type in turn the entity it stands for, if a test admits its name. -/
def select (admits : String → Bool) (s : Schema) : Checked (List (Option Entity)) :=
  s.types.mapM fun (name, declared) => do
    return (← ofType? name declared).filter fun e => admits e.name

/-- The types by name. -/
def sorted (s : Schema) : Schema := ⟨s.types.mergeSort fun a b => a.1 ≤ b.1⟩

def isEmbedded (name : String) : Bool := Text.startsWith "Embedded" name

def isAggregate (name : String) : Bool := Text.holds "Aggregate" name

def isBlock (name : String) : Bool := Text.holds "Block" name

/-- Transactions that stand on their own. -/
def isTopLevel (name : String) : Bool := !isBlock name && !isEmbedded name

/-- Transactions that an aggregate can hold. -/
def isInner (name : String) : Bool := !isAggregate name && !isBlock name && isEmbedded name

def builder (e : Entity) : String := e.name ++ "Builder"

/-- The entity type in hexadecimal digits. -/
def hexType (e : Entity) : String :=
  "0x" ++ String.ofList (Nat.toDigits 16 (e.type.number?.getD 0).toNat)

def shiftFirst (steps : Nat) : List String → List String
  | [] => []
  | line :: rest => ("".pushn ' ' (4 * steps) ++ line) :: rest

/-- The code for some types, with one step of indentation for every type in front of the next line. -/
def stepped (steps : Nat) (tail : List String) : List (Option (List String)) → List String
  | [] => shiftFirst steps tail
  | none :: rest => stepped (steps + 1) tail rest
  | some code :: rest => shiftFirst (steps + 1) code ++ stepped 0 tail rest

end Entity
end SchemaForge
