import SchemaForge.Model.Class

/-! The model of an enumeration's class. -/
namespace SchemaForge

structure Enumerator where
  name : String
  value : Value
  comment : String

structure EnumModel where
  name : String
  size : Value
  numberType : String
  className : String
  enumerators : List Enumerator
  comments : String
  isFlags : Bool

namespace EnumModel

/-- Adds an enumerator. One of the same name gives way to it and leaves it its place. -/
def put (e : Enumerator) : List Enumerator → List Enumerator
  | [] => [e]
  | old :: rest => if old.name = e.name then e :: rest else old :: put e rest

def ofValue (v : Value) : Checked Enumerator := do
  let name ← v.need "name"
  let value ← v.need "value"
  let comment ← v.description
  return { name := ← name.enumName, value, comment }

/-- The enumerator that a constant adds to its type. -/
def ofConstant (type owner : String) (v : Value) : Checked (Option Enumerator) := do
  if !(← v.find "disposition").any (· == .text "const") then return none
  if !(← v.find "type").any (· == .text type) then return none
  let comment ← Text.phrase owner
  let value ← v.need "value"
  return some { name := Text.enumName owner, value, comment }

/-- The enumerators that the constants of a structure add to the type of the constants. -/
def ofStruct (type owner : String) (d : Value) : Checked (List Enumerator) := do
  if !(← d.has "layout") then return []
  (← d.layout).filterMapM (ofConstant type owner)

def build (t : Target) (s : Schema) (name : String) : Checked EnumModel := do
  let decl ← s.need name
  let className ← s.className name decl
  let size ← decl.need "size"
  let numberType ← t.numberType size
  let declared ← (← decl.values).mapM ofValue
  let comments ← decl.description
  let added ← s.types.mapM fun (owner, d) => ofStruct name owner d
  return { name, size, numberType, className, comments
           enumerators := (declared ++ added.flatten).foldl (fun es e => put e es) []
           isFlags := Text.endsWith "Flags" name }

end EnumModel
end SchemaForge
