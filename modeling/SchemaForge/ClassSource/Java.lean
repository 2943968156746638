import SchemaForge.Source.Part
import SchemaForge.Target.Width

/-! The Java class of a structure. -/
namespace SchemaForge
namespace JavaClass
open Source ClassModel

def condition (s : Schema) : Entry → Checked String :=
  conditionOf .java s (fun c => pure c.spell) ""

def loader (e : Entry) : String := Target.loaderOf .java e.className

/-- Reads an attribute from the stream. -/
def load (s : Schema) (e : Entry) : Checked String := do
  let this := s!"this.{e.name} = "
  let code ← match e.kind with
    | .simple => pure s!"{this}{← Width.javaLoad e.size};"
    | .buffer => pure s!"{this}GeneratorUtils.readByteBuffer(stream, {e.size.spell});"
    | .sizeField => pure s!"final {e.varType} {e.name} = {← Width.javaLoad e.size};"
    | .array => pure (s!"{this}GeneratorUtils.loadFromBinaryArray({loader e}::loadFromBinary, " ++
        s!"stream, {e.size.spell}, 0);")
    | .custom =>
      if e.isConditional && e.readBefore then
        let name ← (s.attributeAt e.site).need "condition"
        pure s!"{this}new {loader e}({name.spell}Condition);"
      else pure s!"{this}{loader e}.loadFromBinary(stream);"
    | .fillArray => pure (s!"{this}GeneratorUtils.loadFromBinaryArrayRemaining(" ++
        s!"{loader e}::loadFromBinary, stream, 0);")
    | .flags => pure s!"{this}GeneratorUtils.toSet({e.className}.class, {← Width.javaLoad e.size});"
    | .varArray => pure (s!"{this}GeneratorUtils.loadFromBinaryArrayRemaining(" ++
        s!"{loader e}::loadFromBinary, stream, payloadSize, {alignmentOf s e});")
    | .unknown => pure "FIX ME!"
  return Text.strip code

/-- Adds the size of an attribute. -/
def size (s : Schema) (e : Entry) : Checked String :=
  let sum := fun (padding : Nat) => s!"size +=  GeneratorUtils.getSumSize(this.{e.name}, {padding});"
  return Text.strip <| match e.kind with
    | .simple | .sizeField => s!"size += {e.size.spell}; // {e.name}"
    | .buffer => s!"size += this.{e.name}.array().length;"
    | .array | .fillArray => sum 0
    | .varArray => sum (alignmentOf s e)
    | .flags => s!"size += {e.className}.values()[0].getSize();"
    | .custom | .unknown => s!"size += this.{e.name}.getSize();"

/-- Writes a number to the stream. -/
def writeNumber (size : Value) (value : Checked String) : Checked String := do
  let method ← Width.javaWrite size
  let reverse ← Width.javaReverse size
  return s!"dataOutputStream.{method}({reverse (← value)});"

def getterName (name : String) : String := "get" ++ Text.upperFirst name

/-- The getter of the array that a size field counts. -/
def countedGetter (s : Schema) (e : Entry) : Checked String := do
  let name ← (← (← counted s e).need "name").upperFirst
  return "this.get" ++ (← name.joined) ++ "()"

def writeCount (s : Schema) (e : Entry) : Checked String := do
  let array ← counted s e
  writeNumber e.size do
    let getter ← countedGetter s e
    if array.isVar then
      return s!"({e.varType}) GeneratorUtils.getSumSize({getter}, {alignmentOf s e})"
    return s!"({e.varType}) GeneratorUtils.getSize({getter})"

/-- Writes an attribute to the stream. -/
def serialize (s : Schema) (m : ClassModel) (e : Entry) : Checked String := do
  let list := fun (padding : Nat) =>
    s!"GeneratorUtils.writeList(dataOutputStream, this.{e.name}, {padding});"
  let ignored := s!"// Ignored serialization: {e.name} {e.kind.spell}"
  let code ← match e.kind with
    | .simple =>
      if m.name == "Receipt" && e.name == "size" then pure ignored
      else writeNumber e.size (pure s!"({e.varType}) this.{getterName e.name}()")
    | .buffer =>
      pure s!"dataOutputStream.write(this.{e.name}.array(), 0, this.{e.name}.array().length);"
    | .sizeField => writeCount s e
    | .array | .fillArray => pure (list 0)
    | .varArray => pure (list (alignmentOf s e))
    | .custom => pure s!"GeneratorUtils.writeEntity(dataOutputStream, this.{e.name});"
    | .flags => writeNumber e.size do
        return s!"({← Target.numberType .java e.size}) GeneratorUtils.toLong(" ++
          s!"{e.className}.class, this.{e.name})"
    | .unknown => pure ignored
  return Text.strip code

def thisTest (condition : String) : String := s!"if (this.{condition})"

def guarded (p : Part) : List String := p.inBraces (fun _ => []) thisTest (fun _ => [])

def fields (m : ClassModel) : List String :=
  (m.own.filter (·.kind != .sizeField)).flatMap fun e =>
    let final := if e.isFinal then "final " else ""
    [s!"/** {Text.upperFirst e.comment}. **/", s!"private {final}{e.varType} {e.name};", ""]

/-- The values by which conditions are decided that stand before their discriminators. -/
def upFront (s : Schema) (m : ClassModel) : Checked (List String) := do
  (← conditionReads s m.own).mapM fun (name, size) => do
    let type ← Target.numberType .java size
    return s!"final {type} {name.spell}Condition = {← Width.javaLoad size};"

def loadParts (s : Schema) (m : ClassModel) : Checked (List Part) :=
  m.readingParts (condition s) (load s)

def sizeParts (s : Schema) (m : ClassModel) : Checked (List Part) :=
  parts (condition s) (size s) m.own

def serializeParts (s : Schema) (m : ClassModel) : Checked (List Part) :=
  parts (condition s) (serialize s m) m.own

def streamConstructor (s : Schema) (m : ClassModel) : Checked (List String) := do
  let reads ← upFront s m
  let loads ← loadParts s m
  let whenBase := fun line => if m.base.isSome then [line] else []
  return doc ["Constructor - Creates an object from stream.", "",
      "@param stream Byte stream to use to serialize the object."] ++
    block s!"protected {m.className}(DataInputStream stream)" (whenBase "super(stream);" ++
      chain [
        ("try", reads ++ loads.flatMap guarded),
        ("catch (Exception e)", ["throw GeneratorUtils.getExceptionToPropagate(e);"])])

def fromStream (m : ClassModel) : List String :=
  doc [s!"Creates an instance of {m.className} from a stream.", "",
      "@param stream Byte stream to use to serialize the object.",
      s!"@return Instance of {m.className}."] ++
    block s!"public static {m.className} loadFromBinary(DataInputStream stream)"
      [s!"return new {m.className}(stream);"]

def signature (es : List Entry) : String := commas (es.map fun e => s!"{e.varType} {e.name}")

def paramDoc (e : Entry) : String := s!"@param {e.name} {Text.upperFirst e.comment}."

def constructor (s : Schema) (m : ClassModel) : Checked (List String) := do
  let params := m.constructorParams
  let checks ← parts (condition s)
    (fun e => pure s!"GeneratorUtils.notNull({e.name}, \"{e.name} is null\");") params
  let check := Part.inBraces (fun _ => []) (fun c => s!"if ({c})") (fun _ => [])
  let fields := m.parameters.filter fun e => !e.isInline && !e.isSuper && e.name != "size"
  let assign := fun (e : Entry) =>
    if e.isAggregate then
      let arguments := commas ((m.aggregateArguments e).map (·.name))
      s!"this.{e.name} = new {e.varType}({arguments});"
    else
      let value := if e.isReserved then "0" else e.name
      s!"this.{e.name} = {value};"
  let super := if m.base.isSome then
    [s!"super({commas (m.superArguments.map (·.name))});"] else []
  return ["/**", "* Constructor.", "*"] ++ params.map (fun e => "* " ++ paramDoc e) ++ ["*/"] ++
    block s!"protected {m.className}({signature params})"
      (super ++ checks.flatMap check ++ fields.map assign)

/-- A factory for one choice of discriminators. -/
def factory (s : Schema) (m : ClassModel) (choice : List Entry) : Checked (List String) := do
  let params := factoryParams choice
  let suffix ← factorySuffix choice
  let fixed ← (fixedEntries choice).mapM fun e => do
    let r := s.attributeAt e.site
    let type ← s.className (← r.need "type") r
    return s!"{type} {e.name} = {type}.{← e.conditionValue.enumName};"
  let documented := params.filter isArgument
  let arguments := commas (factoryArguments "null" choice)
  return doc ([s!"Creates an instance of {m.className}.", ""] ++ documented.map paramDoc ++
      [s!"@return Instance of {m.className}."]) ++
    block s!"public static {m.className} create{suffix}({signature params})"
      (fixed ++ [s!"return new {m.className}({arguments});"])

def getter (s : Schema) (e : Entry) : Checked (List String) := do
  let access := if e.isReserved then "private" else "public"
  let name := if e.name == "size" then "getStreamSize" else getterName e.name
  let check ← if e.isConditional && !e.isInline then do
      let test ← condition s e
      let r := s.attributeAt e.site
      let discriminator ← r.need "condition"
      let value ← (← r.need "condition_value").enumName
      pure (block s!"if (!(this.{test}))"
        ["throw new java.lang.IllegalStateException(\"" ++
          s!"{discriminator.spell} is not set to {value}.\");"])
    else pure []
  let result := match e.isInline, e.aggregateName with
    | true, some aggregate => s!"{aggregate}.{getterName e.name}()"
    | _, _ => e.name
  return doc [s!"Gets {e.comment}.", "", s!"@return {Text.upperFirst e.comment}."] ++
    block s!"{access} {e.varType} {name}()" (check ++ [s!"return this.{result};"])

/-- The attributes with a getter. -/
def shown (m : ClassModel) : List Entry :=
  m.entries.filter fun e => !e.isSuper && !e.isAggregate && e.kind != .sizeField &&
    (!e.isReserved || !e.isInline)

def sizeMethod (s : Schema) (m : ClassModel) : Checked (List String) := do
  let parts ← sizeParts s m
  let start := if m.base.isSome then "super.getSize()" else "0"
  return doc ["Gets the size of the object.", "", "@return Size in bytes."] ++
    block "public int getSize()"
      ([s!"int size = {start};"] ++ parts.flatMap guarded ++ ["return size;"])

def bodyDoc : List String := doc ["Gets the body builder of the object.", "", "@return Body builder."]

def bodyGetter (m : ClassModel) : List String :=
  if m.base == some "Transaction" || m.base == some "EmbeddedTransaction" then
    bodyDoc ++ ["@Override"] ++ block s!"public {m.bodyName}Builder getBody()"
      [s!"return this.{Text.lowerFirst m.bodyName};"]
  else []

def emptyBodyGetter (m : ClassModel) : List String :=
  if m.name == "Transaction" || m.name == "EmbeddedTransaction" then
    bodyDoc ++ block "public Serializer getBody()" ["return null;"]
  else []

def serializeMethod (s : Schema) (m : ClassModel) : Checked (List String) := do
  let parts ← serializeParts s m
  let super := if m.base.isSome then ["final byte[] superBytes = super.serialize();",
    "dataOutputStream.write(superBytes, 0, superBytes.length);"] else []
  return doc ["Serializes an object to bytes.", "", "@return Serialized bytes."] ++
    block "public byte[] serialize()"
      (blockWith "return GeneratorUtils.serialize((dataOutputStream) ->" ");"
        (super ++ parts.flatMap guarded))

/-- The text of the class. -/
def source (s : Schema) (m : ClassModel) : Checked String := do
  let streamConstructor ← streamConstructor s m
  let constructor ← constructor s m
  let factories ← m.constructors.mapM (factory s m)
  let getters ← (shown m).mapM (getter s)
  let size ← sizeMethod s m
  let serialize ← serializeMethod s m
  let heritage := match m.baseClass with
    | some base => s!" extends {base}"
    | none => ""
  return text <|
    ["import java.io.DataInputStream;", "import java.nio.ByteBuffer;", "import java.util.EnumSet;",
      "import java.util.List;", "", "/**", s!"* {Text.upperFirst m.comments}", "**/",
      s!"public class {m.className}{heritage} implements Serializer " ++ openBrace, ""] ++
    indent (fields m) ++ indent streamConstructor ++ [""] ++ indent (fromStream m) ++ ["    "] ++
    indent constructor ++ factories.flatMap (fun f => "    " :: indent f) ++ [""] ++
    getters.flatMap (fun g => indent g ++ [""]) ++ [""] ++ indent size ++ [""] ++
    indent (bodyGetter m) ++ [""] ++ indent (emptyBodyGetter m) ++ [""] ++ indent serialize ++
    [closeBrace]

end JavaClass
end SchemaForge
