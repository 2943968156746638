import SchemaForge.Source.Part
import SchemaForge.Target.Width

/-! The TypeScript class of a structure. -/
namespace SchemaForge
namespace TypeScriptClass
open Source ClassModel

def condition (s : Schema) : Entry → Checked String :=
  conditionOf .typescript s (fun c => pure c.spell) ""

def loader (e : Entry) : String := Target.loaderOf .typescript e.className

/-- The width in bytes with which the elements of an array of enumerators are read and measured. -/
def enumeratorWidth : Nat := 2

def isEnumArray (e : Entry) : Bool := e.kind == .array && e.baseType.isEnum

/-- The sum of the sizes of an array's elements, each with its padding. -/
def paddedSum (array : String) (padding : Nat) : String :=
  s!"{array}.reduce((sum, c) => sum + GeneratorUtils.getSizeWithPadding(c.getSize(), {padding}), 0)"

/-- Takes bytes off the front of what is left to read. -/
def advance (size : String) : String := s!"byteArray.splice(0, {size});"

/-- The expression that reads a number from what is left. -/
def readNumber (size : Value) : Checked String := Width.scriptRead size "byteArray"

/-- The line that reads an attribute, and the line that passes over its bytes. -/
def readLines (s : Schema) (e : Entry) : Checked (List String) := do
  let assign := if e.isReserved then "" else if e.isConditional then s!"{e.name} = "
    else s!"const {e.name}: {e.varType} = "
  let size := e.size.spell
  let bytes := "Uint8Array.from(byteArray)"
  let load := s!"{loader e}.loadFromBinary"
  let padding := alignmentOf s e
  let remaining := fun (limit : String) =>
    [s!"{assign}GeneratorUtils.loadFromBinaryRemaining({load}, {bytes}, {limit}, {padding});",
      advance (paddedSum e.name padding)]
  match e.kind with
  | .simple | .sizeField =>
    return [s!"{assign}{← readNumber e.size};", advance size]
  | .buffer => return [s!"{assign}GeneratorUtils.getBytes({bytes}, {size});", advance size]
  | .array =>
    if e.baseType.isEnum then
      return [s!"{assign}GeneratorUtils.loadFromBinaryEnums({bytes}, {size}, {enumeratorWidth});",
        advance s!"{e.name}.reduce((sum) => sum + {enumeratorWidth}, 0)"]
    return [s!"{assign}GeneratorUtils.loadFromBinary({load}, {bytes}, {size});",
      advance s!"{e.name}.reduce((sum, c) => sum + c.getSize(), 0)"]
  | .custom =>
    if e.readBefore then
      let name ← (s.attributeAt e.site).need "condition"
      return [s!"{assign}new {e.className}({name.spell}Condition);"]
    if e.baseType.isEnum then
      return [s!"{assign}{← readNumber e.size};", advance size]
    return [s!"{assign}{load}({bytes});", advance s!"{e.name}.getSize()"]
  | .fillArray => return remaining "byteArray.length"
  | .flags =>
    let number ← readNumber e.size
    return [s!"{assign}GeneratorUtils.toFlags({e.className}, {number});", advance size]
  | .varArray => return remaining "payloadSize"
  | .unknown => return ["FIX ME!"]

/-- Reads an attribute from the array of bytes. -/
def load (s : Schema) (e : Entry) : Checked String := do
  return Text.strip (Text.joinWith "\n        " (← readLines s e))

/-- The attribute of this object; a conditional one is known to be there. -/
def held (e : Entry) : String := if e.isConditional then s!"this.{e.name}!" else s!"this.{e.name}"

/-- Adds the size of an attribute. -/
def size (s : Schema) (e : Entry) : Checked String :=
  let sum := paddedSum (held e) (alignmentOf s e)
  return Text.strip <| match e.kind with
    | .simple | .sizeField => s!"size += {e.size.spell}; // {e.name}"
    | .buffer => s!"size += {held e}.length;  // {e.name}"
    | .array =>
      if e.baseType.isEnum then s!"size += {held e}.reduce((sum) => sum + {enumeratorWidth}, 0);"
      else s!"size += {sum};  // {e.name}"
    | .varArray | .fillArray => s!"size += {sum};  // {e.name}"
    | .flags => s!"size += {e.size.spell};  // {e.name}"
    | .custom =>
      if e.baseType.isEnum then s!"size += {e.size.spell}; // {e.name}"
      else s!"size += {held e}.getSize();  // {e.name}"
    | .unknown => s!"size += {held e}.getSize();  // {e.name}"

def getterName (name : String) : String := "get" ++ Text.upperFirst name

/-- Counts the elements, or the bytes, of the array to which a size field belongs. -/
def countLines (s : Schema) (e : Entry) : Checked (List String) := do
  let array ← counted s e
  let bytes := s!"const {e.name}Bytes = "
  if array.isVar then
    let name ← array.need "name"
    let sum := paddedSum s!"this.{name.spell}" (alignmentOf s e)
    return [s!"const {e.name} = {sum};", s!"{bytes}{← Width.scriptWrite e.size}({e.name});"]
  let write ← Width.scriptWrite e.size
  let name ← array.need "name"
  return [s!"{bytes}{write}(this.{name.spell}.length);"]

def writeLines (s : Schema) (m : ClassModel) (e : Entry) : Checked (List String) := do
  let bytes := s!"const {e.name}Bytes = "
  let padding := alignmentOf s e
  let ignored :=
    [s!"{bytes}Uint8Array.from([]); // Ignored serialization: {e.name} {e.kind.spell}"]
  let number := fun (value : String) => do return [s!"{bytes}{← Width.scriptWrite e.size}({value});"]
  match e.kind with
  | .simple =>
    if e.isReserved then number "0"
    else if m.name == "Receipt" && e.name == "size" then return ignored
    else number s!"this.{getterName e.name}()"
  | .buffer => return [s!"{bytes}{held e};"]
  | .sizeField => countLines s e
  | .array =>
    let write := if e.baseType.isEnum then "writeListEnum" else "writeList"
    return [s!"{bytes}GeneratorUtils.{write}({held e}, {padding});"]
  | .varArray | .fillArray => return [s!"{bytes}GeneratorUtils.writeList({held e}, {padding});"]
  | .custom =>
    if e.baseType.isEnum then number (held e) else return [s!"{bytes}{held e}.serialize();"]
  | .flags => number s!"GeneratorUtils.fromFlags({e.className}, {held e})"
  | .unknown => return ignored

/-- Writes an attribute to an array of bytes. -/
def serialize (s : Schema) (m : ClassModel) (e : Entry) : Checked String := do
  return Text.strip (Text.joinWith "\n            " (← writeLines s m e))

def importLine (name : String) : String :=
  "import " ++ openBrace ++ " " ++ name ++ " " ++ closeBrace ++ " from './" ++ name ++ "';"

def fields (m : ClassModel) : List String :=
  (m.own.filter fun e => e.kind != .sizeField && !e.isReserved && e.name != "size").flatMap fun e =>
    let mark := if e.isConditional then "?:" else ":"
    [s!"/** {Text.upperFirst e.comment}. **/", s!"readonly {e.name}{mark} {e.varType};", ""]

/-- The values by which conditions are decided that stand before their discriminators. Those of the
base class are among them. -/
def upFront (s : Schema) (m : ClassModel) : Checked (List String) := do
  let reads ← conditionReads s (m.entries.filter (!·.isInline))
  let lines ← reads.mapM fun (name, size) => do
    let read ← readNumber size
    return [s!"const {name.spell}Condition = {read};", s!"byteArray.splice(0,  {size.spell});"]
  return lines.flatten

def loadParts (s : Schema) (m : ClassModel) : Checked (List Part) :=
  m.readingParts (condition s) (load s)

def sizeParts (s : Schema) (m : ClassModel) : Checked (List Part) :=
  parts (condition s) (size s) m.own

def serializeParts (s : Schema) (m : ClassModel) : Checked (List Part) :=
  parts (condition s) (serialize s m) m.own

def test (condition : String) : String := s!"if ({condition})"

def thisTest (condition : String) : String := s!"if (this.{condition})"

def paramDoc (e : Entry) : String := s!"@param {e.name} {Text.upperFirst e.comment}."

def constructor (s : Schema) (m : ClassModel) : Checked (List String) := do
  let params := m.constructorParams
  let signature := commas (params.map fun e =>
    let optional := if e.isConditional then " | undefined" else ""
    s!"{e.name}: {e.varType}{optional}")
  let checks ← parts (condition s)
    (fun e => pure s!"GeneratorUtils.notNull({e.name}, \"{e.name} is null or undefined\");")
    (params.filter fun e => !e.isSuper && !e.isInline)
  let fields := m.parameters.filter fun e =>
    !e.isInline && !e.isSuper && !e.isReserved && e.name != "size"
  let assign := fun (e : Entry) =>
    if e.isAggregate then
      let arguments := commas ((m.aggregateArguments e).map (·.name))
      s!"this.{e.name} = new {e.varType}({arguments});"
    else s!"this.{e.name} = {e.name};"
  let super := if m.base.isSome then
    [s!"super({commas (m.superArguments.map (·.name))});"] else []
  return ["/**", "* Constructor.", "*"] ++ params.map (fun e => "* " ++ paramDoc e) ++ ["*/"] ++
    block s!"public constructor({signature})"
      (super ++ checks.flatMap (Part.inBraces (fun _ => []) test (fun _ => [])) ++ fields.map assign)

def fromBinary (s : Schema) (m : ClassModel) : Checked (List String) := do
  let reads ← upFront s m
  let loads ← loadParts s m
  let arguments := (m.parameters.filter isArgument).map fun e =>
    if e.isSuper then s!"superObject.{e.name}"
    else match e.isInline, e.aggregateName with
      | true, some aggregate => s!"{aggregate}.{e.name}"
      | _, _ => e.name
  let super := match m.baseClass with
    | some base => [s!"const superObject = {base}.loadFromBinary(payload);",
        advance "superObject.getSize()"]
    | none => []
  let declare := fun (e : Entry) => [s!"let {e.name} : {e.varType} | undefined = undefined;"]
  return block s!"public static loadFromBinary(payload: Uint8Array): {m.className}"
    (["const byteArray = Array.from(payload);"] ++ super ++ reads ++
      loads.flatMap (Part.inBraces declare test (fun _ => [])) ++
      [s!"return new {m.className}({commas arguments});"])

/-- A factory for one choice of discriminators. -/
def factory (s : Schema) (m : ClassModel) (choice : List Entry) : Checked (List String) := do
  let params := factoryParams choice
  let suffix ← factorySuffix choice
  let fixed ← (fixedEntries choice).mapM fun e => do
    let r := s.attributeAt e.site
    let type ← s.className (← r.need "type") r
    return s!"const {e.name} = {type}.{← e.conditionValue.enumName};"
  let signature := commas (params.map fun e => s!"{e.name}: {e.varType}")
  let arguments := commas (factoryArguments "undefined" choice)
  let documented := params.filter isArgument
  return doc ([s!"Creates an instance of {m.className}.", ""] ++ documented.map paramDoc ++
      [s!"@return Instance of {m.className}."]) ++
    block s!"public static create{m.className}{suffix}({signature}): {m.className}"
      (fixed ++ [s!"return new {m.className}({arguments});"])

def getter (s : Schema) (e : Entry) : Checked (List String) := do
  let check ← if e.isConditional && !e.isInline then do
      let test ← condition s e
      let r := s.attributeAt e.site
      let discriminator ← r.need "condition"
      let value ← (← r.need "condition_value").enumName
      pure (block s!"if (!(this.{test} && this.{e.name}))"
        [s!"throw new Error(\"{discriminator.spell} is not set to {value}.\");"])
    else pure []
  let result := match e.isInline, e.aggregateName with
    | true, some aggregate => s!"{aggregate}.{getterName e.name}()"
    | _, _ => e.name
  return doc [s!"Gets {e.comment}.", "", s!"@return {Text.upperFirst e.comment}."] ++
    block s!"public {getterName e.name}(): {e.varType} " (check ++ [s!"return this.{result};"])

/-- The attributes with a getter. -/
def shown (m : ClassModel) : List Entry :=
  m.entries.filter fun e => !e.isSuper && !e.isReserved && !e.isAggregate && e.kind != .sizeField &&
    e.name != "size"

def sizeMethod (s : Schema) (m : ClassModel) : Checked (List String) := do
  let parts ← sizeParts s m
  let start := if m.base.isSome then "super.getSize()" else "0"
  return doc ["Gets the size of the object.", "", "@return Size in bytes."] ++
    block "public getSize(): number" ([s!"let size = {start};"] ++
      parts.flatMap (Part.inBraces (fun _ => []) thisTest (fun _ => [])) ++ ["return size;"])

def bodyDoc : List String := doc ["Gets the body builder of the object.", "", "@return Body builder."]

def bodyGetter (m : ClassModel) : List String :=
  if m.base == some "Transaction" || m.base == some "EmbeddedTransaction" then
    bodyDoc ++ block s!"public getBody(): {m.bodyName}Builder "
      [s!"return this.{Text.lowerFirst m.bodyName};"]
  else []

def emptyBodyGetter (m : ClassModel) : List String :=
  if m.name == "Transaction" || m.name == "EmbeddedTransaction" then
    bodyDoc ++ block "public getBody(): undefined | Serializer" ["return undefined;"]
  else []

def append (bytes : String) : String :=
  s!"newArray = GeneratorUtils.concatTypedArrays(newArray, {bytes});"

def serializeMethod (s : Schema) (m : ClassModel) : Checked (List String) := do
  let parts ← serializeParts s m
  let super := if m.base.isSome then
    ["const superBytes = super.serialize();", append "superBytes"] else []
  let after := fun (e : Entry) => [append s!"{e.name}Bytes"]
  return doc ["Serializes an object to bytes.", "", "@return Serialized bytes."] ++
    block "public serialize(): Uint8Array" (["let newArray = Uint8Array.from([]);"] ++ super ++
      parts.flatMap (Part.inBraces (fun _ => []) thisTest after) ++ ["return newArray;"])

/-- The text of the class. -/
def source (s : Schema) (m : ClassModel) : Checked String := do
  let constructor ← constructor s m
  let fromBinary ← fromBinary s m
  let factories ← m.constructors.mapM (factory s m)
  let getters ← (shown m).mapM (getter s)
  let size ← sizeMethod s m
  let serialize ← serializeMethod s m
  let heritage := match m.baseClass with
    | some base => s!" extends {base}"
    | none => ""
  let imports := ["Serializer", "GeneratorUtils"] ++ m.imports.mergeSort (· ≤ ·)
  return text <|
    imports.map importLine ++ ["", "/**", s!"* {Text.upperFirst m.comments}", "**/",
      s!"export class {m.className}{heritage} implements Serializer " ++ openBrace, ""] ++
    indent (fields m) ++ ["    "] ++ indent constructor ++ ["", ""] ++
    indent (doc ["Load from binary array - Creates an object from payload.", "",
      "@param payload Byte payload to use to serialize the object."]) ++ ["    "] ++
    indent fromBinary ++ [""] ++ factories.flatMap (fun f => "    " :: indent f) ++ [""] ++
    getters.flatMap (fun g => indent g ++ [""]) ++ [""] ++ indent size ++ [""] ++
    indent (bodyGetter m) ++ [""] ++ indent (emptyBodyGetter m) ++ [""] ++ indent serialize ++
    [closeBrace]

end TypeScriptClass
end SchemaForge
