import SchemaForge.Attribute

/-! The languages for which classes are made: how they name types, files and conditions. -/
namespace SchemaForge

inductive Target where
  | java
  | typescript
  | python
  deriving DecidableEq, Repr

namespace Target

def extension : Target → String
  | java => ".java"
  | typescript => ".ts"
  | python => ".py"

/-- The directory in which the shapes of a language's files are kept. -/
def shapePath : Target → String
  | java => "../java/templates/"
  | typescript => "../typescript/templates/"
  | python => "../python/templates/"

def shapeFile (base shape : String) : String := base ++ shape ++ ".mako"

/-- Files that every run writes after the files of the schema's types. -/
def supportFiles : Target → List String
  | java => ["BitMaskable", "GeneratorUtils", "TransactionBuilderHelper",
      "EmbeddedTransactionBuilderHelper", "Serializer"]
  | typescript => ["GeneratorUtils", "TransactionHelper", "EmbeddedTransactionHelper", "Serializer",
      "index"]
  | python => ["GeneratorUtils", "EmbeddedTransactionBuilderFactory", "TransactionBuilderFactory"]

/-- Whether a structure is a transaction or the body of one. -/
def isTransactional (name : String) : Bool :=
  Text.endsWith "Transaction" name || Text.endsWith "TransactionBody" name

/-- The shape of a structure's class. -/
def classShape (t : Target) (name : String) : String :=
  if t == python && isTransactional name then "TransactionClass" else "Class"

/-- The file with the shape of a structure's class, below whatever stands for a directory. -/
def classShapeFile (t : Target) (base name : Value) : Checked String := do
  let name ← if t == python then name.asText else pure ""
  return shapeFile (← base.joined) (t.classShape name)

/-- The value for a size in a table, or the fault that names the size. -/
def sized (table : List (Int × String)) (size : Value) : Checked String := do
  let size ← size.asKey
  Checked.require size (size.number?.bind fun n => table.lookup n)

/-- The type of a number with so many bytes. -/
def numberType : Target → Value → Checked String
  | java, size => sized [(1, "byte"), (2, "short"), (4, "int"), (8, "long")] size
  | typescript, size => pure (if size.number? = some 8 then "number[]" else "number")
  | python, _ => pure "int"

def bytesType : Target → String
  | java => "ByteBuffer"
  | typescript => "Uint8Array"
  | python => "bytes"

def listType : Target → String → String
  | java, type => "List<" ++ type ++ ">"
  | typescript, type => type ++ "[]"
  | python, type => "List[" ++ type ++ "]"

def flagsType : Target → String → String
  | java, type => "EnumSet<" ++ type ++ ">"
  | typescript, type => type ++ "[]"
  | python, type => "List[" ++ type ++ "]"

/-- The type of the variable for an attribute. -/
def typeOf (t : Target) (s : Schema) (v : Value) (kind : Kind) : Checked String := do
  let type ← v.need "type"
  match kind with
  | .simple | .sizeField => t.numberType (← s.sizeOf v)
  | .buffer => return t.bytesType
  | _ =>
    let name ← if type.isByte then pure "byte" else s.className type v
    if kind.isArray then return t.listType name
    return if kind = .flags then t.flagsType name else name

/-- The comparison that activates a conditional attribute. -/
def condition : Target → Value → String → String → String
  | java, op, left, right =>
    if op == "has" then left ++ ".contains(" ++ right ++ ")" else left ++ " == " ++ right
  | typescript, op, left, right =>
    if op == "has" then left ++ ".indexOf(" ++ right ++ ") > -1" else left ++ " === " ++ right
  | python, op, left, right =>
    if op == "has" then right ++ " in " ++ left else left ++ " == " ++ right

/-- The class that reads values of a class: embedded transactions are told apart by a helper. -/
def loaderOf : Target → String → String
  | java, name => if name == "EmbeddedTransactionBuilder" then "EmbeddedTransactionBuilderHelper" else name
  | typescript, name => if name == "EmbeddedTransactionBuilder" then "EmbeddedTransactionHelper" else name
  | python, name => name

/-- The name of the body structure of a transaction. -/
def bodyName (name : String) : String :=
  let body := if Text.startsWith "Embedded" name then Text.dropStart 8 name else name
  if Text.startsWith "Aggregate" name && Text.endsWith "Transaction" name then
    "AggregateTransactionBody"
  else body ++ "Body"

def include1 {α : Type} [BEq α] (imports : List α) (name : α) : List α :=
  if imports.contains name then imports else imports ++ [name]

/-- The class names inside a type: what stands between square brackets. -/
def namesIn (type : String) : List String :=
  (Text.splitOn (fun c => c == '[' || c == ']') type).filter (!·.isEmpty)

def startsCapital (name : String) : Bool := name.toList.head?.any Text.isCapital

def scriptImports (own : String) (base : Option String) (imports : List String) (name : String) :
    List String :=
  if name == "List" || name == "Uint8Array" then imports else
  let imports := if Text.holds "TransactionHeaderBuilder" name && some name == base then
      include1 imports name else imports
  if Text.holds "EmbeddedTransactionBuilder" name then
    include1 (include1 imports "EmbeddedTransactionHelper") name
  else if name != own && startsCapital name then include1 imports name
  else imports

def fromImport (file name : String) : String := "from " ++ file ++ " import " ++ name

def moduleImports (own : String) (base : Option String) (imports : List String) (name : String) :
    List String :=
  if name == "List" then include1 imports (fromImport "typing" name)
  else if Text.holds "TransactionHeaderBuilder" name then
    if some name == base then include1 imports (fromImport ("." ++ name) name) else imports
  else if name != own && startsCapital name then include1 imports (fromImport ("." ++ name) name)
  else imports

/-- What a class has to import beyond the types of its attributes. -/
def moduleExtras (own : String) : List String :=
  let transactional := Text.endsWith "TransactionBuilder" own ||
    Text.endsWith "TransactionBodyBuilder" own
  (if transactional || own == "CosignatureBuilder" then [fromImport "binascii" "hexlify"] else []) ++
  (if transactional then ["import re"] else []) ++
  (if own == "AggregateTransactionBodyBuilder" then
    [fromImport ".EmbeddedTransactionBuilderFactory" "EmbeddedTransactionBuilderFactory"] else [])

/-- Adds the imports that an attribute of a type needs in the class `own` with the class `base`
below it. -/
def addImports (t : Target) (imports : List String) (type own : String) (base : Option String) :
    List String :=
  match t with
  | java => if type == own then imports else include1 imports type
  | typescript => (namesIn type).foldl (scriptImports own base) imports
  | python =>
    (moduleExtras own).foldl include1 ((namesIn type).foldl (moduleImports own base) imports)

/-- The same for whatever stands in the place of the names. -/
def addImportsOf (t : Target) (imports : List Value) (type own base : Value) :
    Checked (List Value) := do
  if t == java then
    if type == own then return imports else return include1 imports (← type.asKey)
  let type ← type.joined
  if t == python then
    let _ ← own.asText
  let added := t.addImports [] type (own.text?.getD "") base.text?
  return added.foldl (fun imports name => include1 imports (.text name)) imports

end Target
end SchemaForge
