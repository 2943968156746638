import SchemaForge.Source.Part

/-! The Python class of a structure, and what the classes of transactions have in common with it. -/
namespace SchemaForge
namespace PythonClass
open Source ClassModel

/-- The statements for one attribute inside a method. -/
def statements (lines : List String) : String := Text.strip (Text.joinWith "\n        " lines)

/-- Lines for a part inside a method. The statements under a condition all stand at one depth. -/
def inMethod (before : Entry → List String) (p : Part) : List String :=
  match p.guard with
  | none => ["        " ++ p.code]
  | some condition => (before p.entry).map ("        " ++ ·) ++ [s!"        if {condition}:"] ++
      (Text.lines p.code).map fun line => "            " ++ Text.strip line

def importLines (m : ClassModel) : List String :=
  let (own, foreign) := (m.imports.mergeSort (· ≤ ·)).partition (Text.startsWith "from .")
  foreign ++ ["from .GeneratorUtils import GeneratorUtils"] ++ own

def classLine (m : ClassModel) : String :=
  match m.baseClass with
  | some base => s!"class {m.className}({base}):"
  | none => s!"class {m.className}:"

def attributeDoc (name : String) (e : Entry) : String := s!"{name}: {Text.upperFirst e.comment}."

/-- What a method does, what it takes and what it gives. -/
def methodDoc (does : String) (arguments : List String) (gives : String) : List String :=
  ["\"\"\"" ++ does] ++
    (if arguments.isEmpty then [] else "Args:" :: indent arguments) ++
    (if gives.isEmpty then [] else ["Returns:", "    " ++ gives]) ++ ["\"\"\""]

def isStored (e : Entry) : Bool :=
  e.kind != .sizeField && !e.isReserved && e.name != "size"

/-- The attributes that the class itself stores. -/
def stored (m : ClassModel) : List Entry := m.own.filter isStored

def concat (bytes : String) : String :=
  s!"bytes_ = GeneratorUtils.concat_typed_arrays(bytes_, {bytes})"

def toBuffer (value : String) (e : Entry) : String :=
  s!"GeneratorUtils.uint_to_buffer({value}, {e.size.spell})"

/-- The statement that passes over bytes. -/
def advance (size : String) : String := s!"bytes_ = bytes_[{size}:]"

def fromBuffer (e : Entry) : String :=
  s!"GeneratorUtils.buffer_to_uint(GeneratorUtils.get_bytes(bytes_, {e.size.spell}))"

/-- The values by which conditions are decided that stand before their discriminators. -/
def upFront (s : Schema) (m : ClassModel) : Checked (List String) := do
  return (← conditionReads s m.own).flatMap fun (name, size) =>
    [s!"{name.spell}Condition = bytes_[0:{size.spell}]", advance size.spell]

/-- The condition of an attribute, of the object itself or of a variable. -/
def condition (s : Schema) (object : String) : Entry → Checked String :=
  conditionOf .python s (fun c => do return object ++ (← c.joined)) ""

def load (s : Schema) (m : ClassModel) (e : Entry) : Checked String := do
  let size := e.size.spell
  let item := s!"{e.className}.load_from_binary"
  let discriminator := ((s.attributeAt e.site).get? "condition").getD .null
  return statements <| match e.kind with
    | .simple => [s!"{e.name} = {fromBuffer e}  # kind:SIMPLE", advance size]
    | .buffer => [s!"{e.name} = GeneratorUtils.get_bytes(bytes_, {size})  # kind:BUFFER", advance size]
    | .sizeField => [s!"{e.name} = {fromBuffer e}  # kind:SIZE_FIELD", advance size]
    | .array => [s!"{e.name}: {e.varType} = []  # kind:ARRAY", s!"for _ in range({size}):",
        s!"    item = {item}(bytes_)", s!"    {e.name}.append(item)",
        "    " ++ advance "item.get_size()"]
    | .custom =>
      if e.readBefore then [s!"{e.name} = {item}({discriminator.spell}Condition)  # kind:CUSTOM3"]
      else
        let mark := if e.baseType.isEnum then "CUSTOM2" else "CUSTOM1"
        [s!"{e.name} = {item}(bytes_)  # kind:{mark}", advance s!"{e.name}.get_size()"]
    | .fillArray => [s!"{e.name}: List[{e.className}] = []",
        s!"bytes_ = GeneratorUtils.load_from_binary({e.className}, {e.name}, bytes_, len(bytes_))"]
    | .flags => [s!"{e.name} = {e.className}.bytesToFlags(bytes_, {size})  # kind:FLAGS", advance size]
    | .varArray => [s!"transactions: List[{e.className}] = []",
        s!"bytes_ = {m.className}._load_embedded_transactions(transactions, bytes_, {size})"]
    | .unknown => ["FIX ME!"]

/-- The name under which the class of an attribute's type holds its value. -/
def valueName (s : Schema) (e : Entry) : Checked String := do
  (← (← (s.attributeAt e.site).need "type").lowerFirst).joined

def size (e : Entry) : Checked String :=
  return statements <| match e.kind with
    | .simple | .sizeField | .flags => [s!"size += {e.size.spell}  # {e.name}"]
    | .buffer => [s!"size += len(self.{e.name})"]
    | .varArray => [s!"for _ in self.{e.name}:", "    size += self._get_size_aligned(_)"]
    | .array | .fillArray => [s!"for _ in self.{e.name}:", "    size += _.get_size()"]
    | .custom | .unknown => [s!"size += self.{e.name}.get_size()"]

def ignored (name : String) (e : Entry) : String :=
  s!"# Ignored serialization: {name} {e.kind.spell}"

def getterName (name : String) : String := "get_" ++ Text.camelToSnake name

def serialize (s : Schema) (m : ClassModel) (e : Entry) : Checked String := do
  let getter := s!"self.{getterName e.name}()"
  let lines ← match e.kind with
    | .simple => pure <|
        if e.isReserved then [concat (toBuffer "0" e)]
        else if m.name == "Receipt" && e.name == "size" then [ignored e.name e]
        else [concat (toBuffer getter e) ++ "  # kind:SIMPLE"]
    | .buffer => pure [concat s!"self.{e.name}" ++ "  # kind:BUFFER"]
    | .sizeField => do
      let array ← (← (← counted s e).need "name").joined
      pure [concat (toBuffer s!"len(self.{getterName array}())" e) ++ "  # kind:SIZE_FIELD"]
    | .array | .fillArray => pure [s!"for _ in self.{e.name}: # kind:ARRAY|FILL_ARRAY",
        "    " ++ concat "_.serialize()"]
    | .varArray => pure [s!"for _ in self.{e.name}: # kind:VAR_ARRAY",
        "    " ++ concat "self._serialize_aligned(_)"]
    | .custom => pure [concat s!"self.{e.name}.serialize()" ++ "  # kind:CUSTOM"]
    | .flags =>
      pure [concat (toBuffer s!"{e.className}.flagsToInt({getter})" e) ++ "  # kind:FLAGS"]
    | .unknown => pure [ignored e.name e]
  return statements lines

def loadParts (s : Schema) (m : ClassModel) : Checked (List Part) :=
  m.readingParts (condition s "") (load s m)

def sizeParts (s : Schema) (m : ClassModel) : Checked (List Part) :=
  parts (condition s "self.") size m.own

def serializeParts (s : Schema) (m : ClassModel) : Checked (List Part) :=
  parts (condition s "self.") (serialize s m) m.own

/-- The attributes that the constructor sets. -/
def assigned (m : ClassModel) : List Entry :=
  m.parameters.filter fun e => !e.isInline && !e.isSuper && !e.isReserved && e.name != "size"

def constructor (m : ClassModel) : List String :=
  let params := m.constructorParams
  let signature := commas (params.map fun e => s!"{e.name}: {e.varType}")
  let documented := (params.filter (·.kind != .sizeField)).map fun e => attributeDoc e.name e
  let supers := commas ((params.filter (·.isSuper)).map (·.name))
  let assign := fun (e : Entry) =>
    if e.isAggregate then
      s!"self.{e.name} = {e.varType}({commas ((m.aggregateArguments e).map (·.name))})"
    else s!"self.{e.name} = {e.name}"
  (if (assigned m).isEmpty then ["# pylint: disable=useless-super-delegation"] else []) ++
    [s!"def __init__(self, {signature}):"] ++
    indent (["\"\"\"Constructor.", "Args:"] ++ indent documented ++ ["\"\"\""] ++
      (if m.base.isSome then [s!"super().__init__({supers})"] else []) ++ (assigned m).map assign)

/-- Some values are also written as tuples. -/
def tuples (s : Schema) (m : ClassModel) : Checked (List String) := do
  let hasTuples := ["Cosignature", "UnresolvedMosaic"].contains m.name
  if !hasTuples || (assigned m).length ≤ 1 then return []
  let values := (assigned m).mapIdx fun i e =>
    match e.kind with
    | .simple => s!"t[{i}]"
    | .flags => s!"{e.className}.intToFlags(t[{i}])"
    | _ => s!"{e.varType}(t[{i}])"
  let members ← (assigned m).mapM fun e => do
    match e.kind with
    | .simple => return s!"self.{e.name}"
    | .flags => return s!"self.{e.name}.flagsToInt()"
    | _ => return s!"self.{e.name}.{← valueName s e}"
  return ["@staticmethod", "def from_tuple(t):", s!"    return {m.className}({commas values})", "",
    "def as_tuple(self):", s!"    return ({commas members})"]

/-- The head of the method that reads an object from bytes. -/
def loadHead (m : ClassModel) : List String :=
  ["@classmethod", s!"def load_from_binary(cls, payload: bytes) -> {m.className}:"] ++
    indent (methodDoc s!"Creates an instance of {m.className} from binary payload."
      ["payload: Byte payload to use to serialize the object."] s!"Instance of {m.className}." ++
      ["bytes_ = bytes(payload)"])

def fromBinary (s : Schema) (m : ClassModel) : Checked (List String) := do
  let first :: _ := m.constructors | throw .outOfRange
  let arguments := (first.filter isArgument).map fun e =>
    if m.base.isNone then e.name
    else if e.isSuper then s!"superObject.{e.name}"
    else match e.aggregateName with
      | some aggregate => s!"{aggregate}.{e.name}"
      | none => e.name
  let reads ← upFront s m
  let loads ← loadParts s m
  let super := match m.baseClass with
    | some base => [s!"superObject = {base}.load_from_binary(bytes_)", advance "superObject.get_size()"]
    | none => []
  return indent (loadHead m ++ indent (super ++ reads)) ++ [""] ++
    loads.flatMap (inMethod fun e => [s!"{e.name} = None"]) ++
    [s!"        return {m.className}({commas arguments})"]

def getter (s : Schema) (e : Entry) : Checked (List String) := do
  let check ← if e.isConditional && !e.isInline then do
      let test ← condition s "self." e
      let r := s.attributeAt e.site
      let discriminator ← r.need "condition"
      let value ← (← r.need "condition_value").enumName
      pure [s!"if not {test}:",
        s!"    raise Exception('{discriminator.spell} is not set to {value}.')"]
    else pure []
  let result := match e.isInline, e.aggregateName with
    | true, some aggregate => s!"{aggregate}.{getterName e.name}()"
    | _, _ => e.name
  return [s!"def {getterName e.name}(self) -> {e.varType}:"] ++
    indent (methodDoc s!"Gets {e.comment}." [] s!"{Text.upperFirst e.comment}." ++ check ++
      [s!"return self.{result}"])

/-- The attributes with a getter. -/
def shown (m : ClassModel) : List Entry :=
  m.entries.filter fun e => !e.isSuper && !e.isAggregate && isStored e

def sizeHead (m : ClassModel) : List String :=
  let start := if m.base.isSome then "super().get_size()" else "0"
  ["def get_size(self) -> int:"] ++
    indent (methodDoc "Gets the size of the object." [] "Size in bytes." ++ [s!"size = {start}"])

def serializeHead (m : ClassModel) : List String :=
  ["def serialize(self) -> bytes:"] ++
    indent (methodDoc "Serializes self to bytes." [] "Serialized bytes." ++ ["bytes_ = bytes()"] ++
      if m.base.isSome then [concat "super().serialize()"] else [])

def printHead : List String :=
  ["def __str__(self):"] ++ indent (methodDoc "Returns nice representation." [] "Printable string")

/-- Some values have a text of their own. -/
def printed (m : ClassModel) : List String :=
  match m.name with
  | "UnresolvedMosaic" => [""] ++ printHead ++
      ["    return '(0x\x7b:x\x7d, \x7b\x7d)'" ++
        ".format(self.mosaicId.unresolvedMosaicId, self.amount.amount)"]
  | "Cosignature" => [""] ++ printHead ++ indent ["result = '('",
      "result += '\x7b\x7d, '.format(self.version)",
      "result += '\x7b\x7d, '.format(hexlify(self.signerPublicKey.key).decode('utf-8'))",
      "result += '\x7b\x7d'.format(hexlify(self.signature.signature).decode('utf-8'))",
      "result += ')'", "return result"]
  | _ => []

/-- The text of the class. -/
def source (s : Schema) (m : ClassModel) : Checked String := do
  let tuples ← tuples s m
  let fromBinary ← fromBinary s m
  let getters ← (shown m).mapM (getter s)
  let sizes ← sizeParts s m
  let serialized ← serializeParts s m
  return openText <|
    ["from __future__ import annotations"] ++ importLines m ++ ["", classLine m] ++
    indent (["\"\"\"" ++ Text.upperFirst m.comments ++ ".", "", "Attributes:"] ++
      indent ((stored m).map fun e => attributeDoc e.name e) ++ ["\"\"\"", ""] ++
      constructor m ++ [""] ++ tuples ++ [""]) ++
    fromBinary ++ [""] ++
    indent (getters.flatMap (· ++ [""]) ++ sizeHead m) ++
    sizes.flatMap (inMethod fun _ => []) ++ ["        return size", ""] ++
    indent (serializeHead m) ++ serialized.flatMap (inMethod fun _ => []) ++
    ["        return bytes_"] ++ indent (printed m) ++ ["    # end of class"]

end PythonClass
end SchemaForge
