import SchemaForge.ClassSource.Python

/-! The Python classes of transactions and of their bodies. A transaction keeps what is its own in a
body, and structures that it holds as tuples. -/
namespace SchemaForge
namespace PythonTransaction
open Source ClassModel PythonClass

def isBody (m : ClassModel) : Bool := Text.endsWith "TransactionBody" m.name

def holdsBody (e : Entry) : Bool := Text.endsWith "TransactionBody" e.name

def isAggregateBody (m : ClassModel) : Bool := Text.holds "AggregateTransactionBody" m.className

def snakeName (e : Entry) : String := Text.camelToSnake e.name

def condition (s : Schema) (object : String) : Entry → Checked String :=
  conditionOf .python s (fun c => do return object ++ Text.camelToSnake (← c.joined)) ".value"

/-- A size that is the name of another attribute, as the variable for it. -/
def countVariable (e : Entry) : Checked String := do return Text.camelToSnake (← e.size.joined)

/-- A value of a class, from the tuple or the plain value that stands for it. -/
def restored (e : Entry) (value : String) : String :=
  if e.baseType.isStruct then s!"{e.className}.from_tuple({value})" else s!"{e.className}({value})"

/-- What the type of an attribute is called in the table of hints. -/
def hint (e : Entry) : Option String :=
  let named := fun type => some s!"'{snakeName e}' : '{type}',"
  match e.kind with
  | .custom => named (if e.baseType.isEnum then s!"enum:{e.varType}" else e.varType)
  | .array => named (if e.baseType.isEnum then s!"array[enum:{e.className}]" else "array")
  | .varArray | .fillArray => named "array"
  | .flags => some s!"'{snakeName e}': '{e.className}',"
  | _ => none

def hints (m : ClassModel) : List String :=
  if isBody m then [] else
  let hinted := m.entries.filter fun e =>
    isStored e && !holdsBody e && e.varType != "TransactionBuilder"
  ["type_hints = " ++ openBrace] ++ indent (hinted.filterMap hint) ++ [closeBrace, ""]

/-- The value with which the attribute of a body starts. -/
def initial (s : Schema) (e : Entry) : Checked String := do
  let object : Checked String := do return s!"{e.varType}().{← valueName s e}"
  match e.kind with
  | .array | .varArray | .fillArray | .flags => return "[]"
  | .buffer => return "bytes()"
  | .custom =>
    if e.baseType.isByte then
      if 8 < (← e.size.compared) then return s!"bytes({e.size.spell})"
    if e.baseType.isEnum then return s!"{e.varType}(0).value"
    if e.baseType.isStruct then return s!"None # {e.varType}"
    if e.varType != "int" then object else return s!"{e.varType}()"
  | _ => if e.varType != "int" then object else return s!"{e.varType}()"

def bodyConstructor (s : Schema) (m : ClassModel) : Checked (List String) := do
  let fields ← (stored m).mapM fun e => do return s!"self.{snakeName e} = {← initial s e}"
  return ["def __init__(self):"] ++ indent ("\"\"\" Constructor.\"\"\"" :: fields) ++ [""]

/-- What is documented of a constructor's arguments. -/
def argumentDoc (names : List String) : List String :=
  let about := [("signer_public_key", "Entity signer's public key."), ("version", "Entity version."),
    ("network", "Entity network."), ("type", "Entity type.")]
  names.map fun name => s!"    {name}: " ++ (about.lookup name).getD ""

def assignments (names : List String) : List String := names.map fun name => s!"self.{name} = {name}"

def entityFields : List String := ["signer_public_key", "version", "network", "type"]

def transactionConstructor (m : ClassModel) : Checked (List String) := do
  let some signature := m.entries.find? (·.name == "signature") | throw .notFound
  return ["def __init__(self, signer_public_key, version, network, type):"] ++
    indent (["\"\"\"Constructor.", "Args:"] ++ argumentDoc entityFields ++ ["\"\"\"",
        s!"self.signature = bytes({signature.size.spell})"] ++ assignments entityFields ++
      ["", "self.fee = 0", "self.deadline = 0", "", ""])

def embeddedConstructor : List String :=
  ["def __init__(self, signer_public_key, version, network: NetworkTypeDto, type):"] ++
    indent (["\"\"\"Constructor.", "Args:"] ++ argumentDoc entityFields ++ ["", "\"\"\""] ++
      assignments entityFields ++ ["", ""])

/-- The digits of a number in hexadecimal form. -/
def hexDigits : Value → Checked String
  | .text _ => throw .malformed
  | v => do
    let n ← v.compared
    let digits := String.ofList (Nat.toDigits 16 n.natAbs)
    return if n < 0 then "-" ++ digits else digits

def constant (c : Constant) : Checked String := do
  let name ← c.name.enumName
  if c.baseType.isEnum then return s!"{name} = 0x{← hexDigits c.value}"
  return s!"{name} = {c.value.spell}"

def concreteConstructor (m : ClassModel) : Checked (List String) := do
  let constants ← m.constants.mapM constant
  let some body := m.entries.find? holdsBody | throw .notFound
  return constants ++ ["", "def __init__(self, signer_public_key, network: NetworkTypeDto):"] ++
    indent (["\"\"\"Constructor.", "Args:"] ++ argumentDoc ["signer_public_key", "network"] ++
      ["\"\"\"", "super().__init__(signer_public_key, self.VERSION, network, self.ENTITY_TYPE)", "",
        s!"self.body = {body.className}()", ""])

def constructor (s : Schema) (m : ClassModel) : Checked (List String) :=
  if isBody m then bodyConstructor s m
  else match m.name with
    | "Transaction" => transactionConstructor m
    | "EmbeddedTransaction" => pure embeddedConstructor
    | _ => concreteConstructor m

/-- An aggregate reads the transactions that it holds one after the other. -/
def embeddedReader (m : ClassModel) : List String :=
  if !isAggregateBody m then [] else
  ["@staticmethod",
    "def _load_embedded_transactions(transactions, payload: bytes, payload_size: int):",
    "    remaining_byte_sizes = payload_size",
    "    while remaining_byte_sizes > 0:",
    "        item = EmbeddedTransactionBuilderFactory.create_from_payload(payload)",
    "        transactions.append(item)",
    "        item_size = item.get_size() + " ++
      "GeneratorUtils.get_transaction_padding_size(item.get_size(), 8)",
    "        remaining_byte_sizes -= item_size",
    "        payload = payload[item_size:]",
    "    return payload", ""]

def load (s : Schema) (m : ClassModel) (e : Entry) : Checked String := do
  let name := snakeName e
  let size := e.size.spell
  let item := s!"{e.className}.load_from_binary"
  let lines ← match e.kind with
    | .simple => pure [s!"{name} = {fromBuffer e}  # kind:SIMPLE", advance size]
    | .buffer => do
      let count ← countVariable e
      pure [s!"{name} = GeneratorUtils.get_bytes(bytes_, {count})  # kind:BUFFER", advance count]
    | .sizeField => pure [s!"{name} = {fromBuffer e}  # kind:SIZE_FIELD", advance size]
    | .array => do
      let count ← countVariable e
      let value ← if e.baseType.isStruct then pure "item.as_tuple()"
        else if e.baseType.isEnum then pure "item"
        else do pure s!"item.{← valueName s e}"
      pure [s!"{name} = []  # kind:ARRAY", s!"for _ in range({count}):",
        s!"    item = {item}(bytes_)", s!"    {name}.append({value})",
        "    " ++ advance "item.get_size()"]
    | .custom => do
      let whole := fun (mark member : String) =>
        [s!"{name}_ = {item}(bytes_)  # kind:{mark}", s!"{name} = {name}_.{member}",
          advance s!"{name}_.get_size()"]
      if e.readBefore then
        let discriminator := ((s.attributeAt e.site).get? "condition").getD .null
        pure [s!"{name} = {item}({discriminator.spell}Condition).{← valueName s e}  # kind:CUSTOM3"]
      else if e.baseType.isEnum then pure (whole "CUSTOM2" "value")
      else if e.baseType.isByte then pure (whole "CUSTOM1_byte" (← valueName s e))
      else if e.isAggregate then
        pure [s!"body = {item}(bytes_)  # kind:CUSTOM1_nonbyte", advance "body.get_size()"]
      else pure [s!"{name} = {item}(bytes_)  # kind:CUSTOM1_nonbyte",
        advance s!"{name}.get_size()", s!"{name} = {name}.as_tuple()"]
    | .fillArray => pure [s!"{name}_ = []",
        s!"bytes_ = GeneratorUtils.load_from_binary({e.className}, {name}_, bytes_, len(bytes_))",
        s!"{name} = list(map(lambda e: e.as_tuple(), {name}_))"]
    | .flags => pure [s!"{name} = {e.className}.bytesToFlags(bytes_, {size})  # kind:FLAGS",
        advance size]
    | .varArray => do
      let count ← countVariable e
      pure ["transactions = []",
        s!"bytes_ = {m.className}._load_embedded_transactions(transactions, bytes_, {count})"]
    | .unknown => pure ["FIX ME!"]
  return statements lines

def size (e : Entry) : Checked String :=
  let name := snakeName e
  let held := restored e s!"self.{name}"
  return statements <| match e.kind with
    | .simple | .sizeField | .flags => [s!"size += {e.size.spell}  # {name}"]
    | .buffer => [s!"size += len(self.{name})"]
    | .varArray => [s!"for _ in self.{name}:", "    size += self._get_size_aligned(_)"]
    | .array | .fillArray =>
      let value := restored e "_"
      [s!"for _ in self.{name}:", s!"    size += {value}.get_size()"]
    | .custom | .unknown =>
      if holdsBody e then ["size += self.body.get_size()"]
      else [s!"size += {held}.get_size()"]

/-- Sets `size_value` to the count, or to the number of bytes, of the array that a size field
belongs to. -/
def countLines (s : Schema) (m : ClassModel) (e : Entry) : Checked (List String) := do
  let name ← (← counted s e).need "name"
  if isAggregateBody m && e.name == "payloadSize" then
    return ["# calculate payload size", "size_value = 0", s!"for _ in self.{name.spell}:",
      "    size_value += self._get_size_aligned(_)"]
  return [s!"size_value = len(self.{Text.camelToSnake (← name.joined)})"]

def serialize (s : Schema) (m : ClassModel) (e : Entry) : Checked String := do
  let name := snakeName e
  let object := s!"self.{name}"
  let lines ← match e.kind with
    | .simple => pure <|
        if e.isReserved then [concat (toBuffer "0" e)]
        else
          let value := if e.name == "size" then "self.get_size()" else object
          [concat (toBuffer value e) ++ "  # serial_kind:SIMPLE"]
    | .buffer => pure [concat object ++ "  # kind:BUFFER"]
    | .sizeField => do
      pure ((← countLines s m e) ++ [concat (toBuffer "size_value" e) ++ "  # kind:SIZE_FIELD"])
    | .array | .fillArray => pure [s!"for _ in {object}: # kind:ARRAY|FILL_ARRAY",
        "    " ++ concat (restored e "_" ++ ".serialize()")]
    | .varArray => pure [s!"for _ in {object}: # kind:VAR_ARRAY",
        "    " ++ concat "self._serialize_aligned(_)"]
    | .custom =>
      let value := if holdsBody e then "self.body" else restored e object
      pure [concat (value ++ ".serialize()") ++ "  # kind:CUSTOM"]
    | .flags =>
      pure [concat (toBuffer s!"{e.className}.flagsToInt({object})" e) ++ "  # kind:FLAGS"]
    | .unknown => pure [ignored name e]
  return statements lines

/-- A line of the printed form: a label of at least 24 columns, then the values. -/
def printLine (format : String) (values : List String) : String :=
  "result += '" ++ format ++ "\\n'.format(" ++ commas values ++ ")"

def labelled : String := "\x7b:24s\x7d : "

def hexOf (bytes : String) : String := s!"to_hex_string({bytes})"

def print (s : Schema) (m : ClassModel) (e : Entry) : Checked String := do
  let object := s!"self.{snakeName e}"
  let label := if Text.holds "Reserved" e.name then "'<reserved>'" else s!"'{snakeName e}'"
  let line := fun bytes => printLine (labelled ++ "\x7b\x7d") [label, hexOf bytes]
  let lines ← match e.kind with
    | .simple =>
      let value := if e.isReserved then "0" else if e.name == "size" then "self.get_size()" else object
      pure [line (toBuffer value e)]
    | .buffer => pure [line object]
    | .sizeField => do pure ((← countLines s m e) ++ [line (toBuffer "size_value" e)])
    | .array | .fillArray => pure [printLine (labelled ++ "[") [label],
        s!"for _ in {object}: # kind:ARRAY|FILL_ARRAY",
        "    " ++ printLine "  \x7b\x7d" [restored e "_" ++ ".__str__()"],
        "result += ']\\n'"]
    | .varArray => pure [s!"for subtransaction in {object}: # kind:VAR_ARRAY",
        "    result += ''.join(map(lambda e: '  ' + e + '\\n', " ++
          "subtransaction.__str__().split('\\n')))",
        "    size = subtransaction.get_size()",
        "    paddingSize = GeneratorUtils.get_transaction_padding_size(size, 8)",
        "    " ++ printLine ("  " ++ labelled ++ "\x7b\x7d (len: \x7b\x7d)")
          ["'<padding>'", hexOf "bytes(paddingSize)", "paddingSize"]]
    | .custom => pure <| if holdsBody e then ["result += self.body.__str__()"]
        else [line (restored e object ++ ".serialize()")]
    | .flags =>
      let flags := toBuffer s!"{e.className}.flagsToInt({object})" e
      pure [s!"_serializedFlags = {flags}",
        printLine (labelled ++ "\x7b\x7d \x7b\x7d") [label, hexOf "_serializedFlags", object]]
    | .unknown => pure [ignored e.name e]
  return statements lines

def loadParts (s : Schema) (m : ClassModel) : Checked (List Part) :=
  m.readingParts (condition s "") (load s m)

def sizeParts (s : Schema) (m : ClassModel) : Checked (List Part) :=
  parts (condition s "self.") size m.own

def serializeParts (s : Schema) (m : ClassModel) : Checked (List Part) :=
  parts (condition s "self.") (serialize s m) m.own

def printParts (s : Schema) (m : ClassModel) : Checked (List Part) :=
  parts (condition s "self.") (print s m) m.own

def assertSame (constant field what : String) : String :=
  s!"assert cls.{constant} == superObject.{field}, 'Invalid entity {what} (" ++
    openBrace ++ closeBrace ++ s!")'.format(superObject.{field})"

/-- Makes the object from the variables that were read. -/
def result (m : ClassModel) : Checked (List String) := do
  let comment := "# create object and call"
  match m.name with
  | "EmbeddedTransaction" => return [comment,
      "result = EmbeddedTransactionBuilder(signer_public_key, version, network, type)",
      "return result"]
  | "Transaction" => return [comment,
      "result = TransactionBuilder(signer_public_key, version, network, type)",
      "result.signature = signature", "result.fee = fee", "result.deadline = deadline",
      "return result"]
  | _ =>
    let start ← if isBody m then pure [s!"result = {m.className}()"] else do
      let some base := m.base | throw .unsupported
      pure ([s!"result = {m.className}(superObject.signer_public_key, superObject.network)"] ++
        if Text.endsWith "EmbeddedTransaction" base then
          ["# nothing needed to copy into EmbeddedTransaction"]
        else ["signature", "fee", "deadline"].map fun f => s!"result.{f} = superObject.{f}")
    let fields := (stored m).map fun e =>
      if holdsBody e then "result.body = body" else s!"result.{snakeName e} = {snakeName e}"
    return [comment] ++ start ++ fields ++ ["return result"]

def fromBinary (s : Schema) (m : ClassModel) : Checked (List String) := do
  let reads ← upFront s m
  let loads ← loadParts s m
  let result ← result m
  let super := match m.baseClass with
    | some base => [s!"superObject = {base}.load_from_binary(bytes_)",
        assertSame "VERSION" "version" "version", assertSame "ENTITY_TYPE" "type" "type",
        advance "superObject.get_size()"]
    | none => []
  return indent (loadHead m ++ indent (super ++ reads)) ++ [""] ++
    loads.flatMap (inMethod fun e => [s!"{snakeName e} = None"]) ++ [""] ++
    indent (indent result) ++ [""]

/-- What the body holds is reached through the transaction. -/
def property (e : Entry) : List String :=
  let name := snakeName e
  ["@property", s!"def {name}(self):", s!"    return self.body.{name}", ""] ++
    if e.kind.isArray then [] else
      [s!"@{name}.setter", s!"def {name}(self, {name}): # MARKER1 {e.kind.spell}",
        s!"    self.body.{name} = {name}", ""]

def properties (m : ClassModel) : List String :=
  (m.entries.filter fun e => e.isInline && isStored e).flatMap property

/-- The transactions inside an aggregate are padded to multiples of eight bytes. -/
def aligned (m : ClassModel) : List String :=
  if !isAggregateBody m then [] else
  let doc := methodDoc "Serializes an embeded transaction with correct padding." []
    "Serialized embedded transaction."
  ["@classmethod",
    "def _serialize_aligned(cls, transaction: EmbeddedTransactionBuilder) -> bytes:"] ++
  indent (doc ++ ["bytes_ = transaction.serialize()",
    "padding = bytes(GeneratorUtils.get_transaction_padding_size(len(bytes_), 8))",
    "return GeneratorUtils.concat_typed_arrays(bytes_, padding)", ""]) ++
  ["@classmethod", "def _get_size_aligned(cls, transaction: EmbeddedTransactionBuilder) -> int:"] ++
  indent (doc ++ ["size = transaction.get_size()",
    "paddingSize = GeneratorUtils.get_transaction_padding_size(size, 8)",
    "return size + paddingSize"])

/-- The text of the class. -/
def source (s : Schema) (m : ClassModel) : Checked String := do
  let constructor ← constructor s m
  let fromBinary ← fromBinary s m
  let sizes ← sizeParts s m
  let serialized ← serializeParts s m
  let printed ← printParts s m
  let documented := (stored m).map fun e =>
    attributeDoc (if holdsBody e then "body" else snakeName e) e
  return openText <|
    ["from __future__ import annotations", "", "# pylint: disable=unused-import", ""] ++
    importLines m ++
    ["", "def to_hex_string(bin):", "    return hexlify(bin).decode('utf-8')", "", classLine m] ++
    indent (["\"\"\"" ++ Text.upperFirst m.comments ++ ".", "", "Attributes:"] ++
      indent documented ++ ["\"\"\""] ++ hints m ++ constructor ++ embeddedReader m) ++
    fromBinary ++ indent (properties m ++ aligned m ++ sizeHead m) ++
    sizes.flatMap (inMethod fun _ => []) ++ ["        return size", ""] ++
    indent (serializeHead m) ++ serialized.flatMap (inMethod fun _ => []) ++
    ["        return bytes_", ""] ++
    indent (printHead ++ indent (["result = ''"] ++
      if m.base.isSome then ["result += super().__str__()"] else [])) ++
    printed.flatMap (inMethod fun _ => []) ++ ["        return result"]

end PythonTransaction
end SchemaForge
