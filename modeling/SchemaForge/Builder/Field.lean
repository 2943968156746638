import SchemaForge.Builder.Hint
import SchemaForge.Target

/-! The fields of a C++ transaction builder: those in the layout of the transaction's body. -/
namespace SchemaForge

inductive FieldKind where
  | simple
  | buffer
  | vector
  | unknown
  deriving DecidableEq, Repr

namespace FieldKind

def labels : List (FieldKind × String) :=
  [(simple, "SIMPLE"), (buffer, "BUFFER"), (vector, "VECTOR"), (unknown, "UNKNOWN")]

def label (k : FieldKind) : String := (labels.lookup k).getD "UNKNOWN"

def ofLabel? (s : String) : Option FieldKind := (labels.find? (·.2 == s)).map (·.1)

def spell (k : FieldKind) : String := "FieldKind." ++ k.label

end FieldKind

/-- Whether the type is a number of at most eight bytes. -/
def isMachineNumber (type size : Value) : Checked Bool :=
  if type.isByte then return (← size.compared) ≤ 8 else pure false

/-- Whether an attribute of the type and size is itself a number. -/
def isPlainNumber (type size : Value) : Checked Bool :=
  if size.isText then pure false
  else do if 0 < (← size.compared) then isMachineNumber type size else return false

/-- Whether an attribute of the type that gives a size is itself a number. -/
def isSizedNumber (type : Value) : Option Value → Checked Bool
  | none | some (.text _) => pure false
  | some size => isMachineNumber type size

/-- The C++ type of a number with so many bytes. -/
def machineType (size signedness : Value) : Checked String := do
  let type ← Target.sized [(1, "int8_t"), (2, "int16_t"), (4, "int32_t"), (8, "int64_t")] size
  return if signedness == "signed" then type else "u" ++ type

/-- The C++ type of a count with so many bytes. Eight are known by their name only. -/
def countType (size : Value) : Checked String :=
  if size == .text "8" then pure "uint64_t"
  else Target.sized [(1, "uint8_t"), (2, "uint16_t"), (4, "uint32_t")] size

/-- The kind of a field, by its size. -/
def Value.fieldKind (v : Value) : Checked FieldKind := do
  if !(← v.has "size") then return .simple
  match ← v.need "size" with
  | .text size =>
    return if Text.endsWith "Size" size then .buffer
      else if Text.endsWith "Count" size then .vector else .unknown
  | size =>
    if ← isMachineNumber (← v.need "type") size then return .simple
    throw .unsupported

/-- Whether a field of this name holds the size or the count of another one. -/
def isCounter (name : String) : Bool := Text.endsWith "Size" name || Text.endsWith "Count" name

/-- Whether the builder has the field: counters and padding are left out. -/
def isBuilt (name : String) : Bool := !isCounter name && !Text.holds "_Reserved" name

/-- A builder: the transaction, the schema that defines it, and the hints for it. -/
structure Builder where
  schema : Schema
  transaction : String
  hints : Hints

namespace Builder

def ofTransaction (s : Schema) (name : String) : Checked Builder := do
  return { schema := s, transaction := name, hints := ← Hints.ofTransaction name }

def stem (b : Builder) : String := Text.dropEnd "Transaction".length b.transaction

def name (b : Builder) : String := b.stem ++ "Builder"

def bodyName (b : Builder) : String := b.transaction ++ "Body"

/-- The name of the transaction in small words. -/
def writtenName (b : Builder) : String :=
  Text.joinWith " " ((Text.capitalWords b.stem).map Text.lower)

def article (b : Builder) : String :=
  if ["a", "e", "i", "o", "u"].any (Text.startsWith · b.writtenName) then "an" else "a"

/-- The values for the slots in the lines of the builder's code. -/
def slots (b : Builder) : List (String × Value) :=
  [("TRANSACTION_NAME", b.transaction), ("BUILDER_NAME", b.name), ("COMMENT_NAME", b.writtenName),
    ("COMMENT_NAME_A_OR_AN", b.article)]

/-- All fields of the transaction's body. -/
def fields (b : Builder) : Checked (List Value) := do (← b.schema.need b.bodyName).layout

def findNamed (name : Value) : List Value → Checked Value
  | [] => throw .notFound
  | v :: rest => do if (← v.need "name") == name then return v else findNamed name rest

/-- The first field of the body with a name. -/
def field (b : Builder) (name : Value) : Checked Value := do findNamed name (← b.fields)

def anyKind (test : FieldKind → Bool) : List Value → Checked Bool
  | [] => pure false
  | v :: rest => do if test (← v.fieldKind) then return true else anyKind test rest

/-- Whether the kind of some field passes a test. -/
def someKind (b : Builder) (test : FieldKind → Bool) : Checked Bool := do anyKind test (← b.fields)

/-- Whether some field is of the kind. -/
def hasKind (b : Builder) (k : FieldKind) : Checked Bool := b.someKind (· == k)

/-- Whether some field is of another kind. -/
def hasOtherKind (b : Builder) (k : FieldKind) : Checked Bool := b.someKind (· != k)

/-- A type with its namespace. -/
def qualified (b : Builder) (type : Value) : Checked String := do
  let space ← (← b.hints.entry "namespaces" type).joined
  return (if space.isEmpty then "" else space ++ "::") ++ (← type.joined)

/-- The type of a parameter. Numbers and enumerators are passed by value. -/
def paramType (b : Builder) (type size signedness : Value) : Checked String := do
  if ← isPlainNumber type size then return ← machineType size signedness
  let declared ← b.schema.need type
  let name ← b.qualified type
  let sort ← declared.need "type"
  if sort.isByte then
    if ← isMachineNumber sort (← declared.need "size") then return name
  return if sort.isEnum then name else s!"const {name}&"

/-- A method that sets a field: the verb, and the type and the name of its parameter. -/
structure Setter where
  verb : String
  type : String
  param : Value

/-- The name of a method. -/
def methodName (verb : String) (param : Value) : Checked String := do
  return verb ++ (← param.upperFirst).spell

/-- The name of a method with its parameter. -/
def signature (verb type : String) (param : Value) : Checked String := do
  return s!"{← methodName verb param}({type} {param.spell})"

def valueType (b : Builder) (v : Value) : Checked String := do
  let type ← v.need "type"
  b.paramType type ((← v.find "size").getD (.int 0)) ((← v.find "signedness").getD "")

def setter (b : Builder) (k : FieldKind) (v : Value) : Checked Setter :=
  match k with
  | .simple => return { verb := "set", type := ← b.valueType v, param := ← v.need "name" }
  | .buffer => do
    if !(← v.need "type").isByte then throw .contradiction
    return { verb := "set", type := "const RawBuffer&", param := ← v.need "name" }
  | .vector => do
    let type ← b.valueType v
    return { verb := "add", type, param := .text (Text.singular (← (← v.need "name").asText)) }
  | .unknown => throw (.missing k.spell)

/-- The type of a field, or of each of its elements. -/
def heldType (b : Builder) (v : Value) : Checked String := do
  let type ← v.need "type"
  let size ← v.find "size"
  if ← isSizedNumber type size then
    let signedness ← v.need "signedness"
    b.qualified (.text (← machineType (size.getD .null) signedness))
  else b.qualified type

/-- The type of the member that holds a field. -/
def memberType (b : Builder) (v : Value) : Checked String := do
  let kind ← v.fieldKind
  let type ← b.heldType v
  match kind with
  | .simple => return type
  | .buffer => return "std::vector<uint8_t>"
  | .vector => return s!"std::vector<{type}>"
  | .unknown => throw (.missing kind.spell)

/-- The name of a field in the transaction itself. -/
def memberName (b : Builder) (name : Value) : Checked Value := do
  let name ← name.upperFirst
  let hinted ← b.hints.entry "rewrites" name
  return if hinted.isEmpty then name else hinted

end Builder
end SchemaForge
