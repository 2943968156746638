import SchemaForge.Model.Class
import SchemaForge.Source.Line

/-! The code that belongs to the single attributes of a class. -/
namespace SchemaForge
namespace Source

/-- The code for one attribute, with its condition if it has one. -/
structure Part where
  entry : Entry
  guard : Option String
  code : String

/-- The code for an attribute, under its condition if it has one. -/
def partOf (condition code : Entry → Checked String) (e : Entry) : Checked Part := do
  let guard ← (if e.isConditional then some <$> condition e else pure none)
  return { entry := e, guard, code := ← code e }

/-- The code for each attribute in turn. -/
def parts (condition code : Entry → Checked String) (entries : List Entry) : Checked (List Part) :=
  entries.mapM (partOf condition code)

/-- Lines for a part, with the guarded code in the block of a test. -/
def Part.inBraces (before : Entry → List String) (test : String → String)
    (after : Entry → List String) (p : Part) : List String :=
  match p.guard with
  | none => p.code :: after p.entry
  | some condition => before p.entry ++ block (test condition) (p.code :: after p.entry)

/-- The condition of an attribute: how its discriminator is written, then the enumerator. -/
def conditionOf (t : Target) (s : Schema) (left : Value → Checked String) (tail : String)
    (e : Entry) : Checked String := do
  let r := s.attributeAt e.site
  let op ← r.need "condition_operation"
  let left ← left (← r.need "condition")
  let some site := e.conditionSite | throw .mismatch
  let discriminator := s.attributeAt site
  let type ← discriminator.need "type"
  let className ← s.className type discriminator
  let value ← (← r.need "condition_value").enumName
  return Text.strip (t.condition op left (className ++ "." ++ value ++ tail))

/-- The conditions of the attributes that stand before their discriminators, each with its size once,
by name and then by the digits of the size. -/
def conditionReads (s : Schema) (entries : List Entry) : Checked (List (Value × Value)) := do
  let reads ← (entries.filter fun e => e.readBefore && e.isConditional).mapM fun e => do
    return (← (← (s.attributeAt e.site).need "condition").asKey, ← e.size.asKey)
  return reads.eraseDups.mergeSort fun a b =>
    a.1.spell < b.1.spell || a.1.spell == b.1.spell && a.2.spell ≤ b.2.spell

/-- The bytes to which the elements of an array attribute are padded. -/
def alignmentOf (s : Schema) (e : Entry) : Nat :=
  let isEmbedded := fun site => (s.attributeAt site).is "type" "EmbeddedTransaction"
  padding (isEmbedded e.site || e.parent.any isEmbedded)

/-- The array that a size field counts. -/
def counted (s : Schema) (e : Entry) : Checked Record :=
  match e.parent with
  | some site => pure (s.attributeAt site)
  | none => throw .mismatch

end Source

namespace ClassModel

/-- The reading code of the own attributes, those that stand before their discriminators last. -/
def readingParts (condition load : Entry → Checked String) (m : ClassModel) :
    Checked (List Source.Part) := do
  let first ← Source.parts condition load (m.own.filter (!·.readBefore))
  return first ++ (← Source.parts condition load (m.own.filter (·.readBefore)))

/-- What a caller of a constructor has to give. -/
def isArgument (e : Entry) : Bool := !e.isAggregate && !e.isReserved && e.name != "size"

def isFixed (e : Entry) : Bool := e.conditionValue != .null

/-- The parameters of the constructor. -/
def constructorParams (m : ClassModel) : List Entry :=
  m.parameters.filter fun e => !isFixed e && isArgument e

/-- What the constructor hands on to the base class. -/
def superArguments (m : ClassModel) : List Entry :=
  m.parameters.filter fun e => e.isSuper && isArgument e

/-- What the constructor hands on to the class of an inlined structure. -/
def aggregateArguments (m : ClassModel) (a : Entry) : List Entry :=
  m.parameters.filter fun e => e.aggregateName == some a.name && !e.isReserved &&
    e.kind != .sizeField && !isFixed e && !e.isAggregate

/-- The parameters of a factory that makes one of the choices. -/
def factoryParams (choice : List Entry) : List Entry :=
  choice.filter fun e => !isFixed e && e.isProvided && !e.isReserved && !e.isAggregate

/-- What a factory hands on to the constructor; `absent` stands for what the choice leaves out. -/
def factoryArguments (absent : String) (choice : List Entry) : List String :=
  (choice.filter isArgument).map fun e => if isFixed e || e.isProvided then e.name else absent

def fixedEntries (choice : List Entry) : List Entry := choice.filter isFixed

/-- The values that a factory fixes, as a part of its name. -/
def factorySuffix (choice : List Entry) : Checked String := do
  return String.join (← (fixedEntries choice).mapM fun e => do (← e.conditionValue.upperFirst).joined)

end ClassModel
end SchemaForge
