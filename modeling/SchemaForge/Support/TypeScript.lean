import SchemaForge.Support.Java
import SchemaForge.Support.TypeScriptUtilities

/-! The TypeScript files that accompany the classes of a schema. -/
namespace SchemaForge
namespace TypeScriptSupport
open Source

def serializer : String :=
  JavaSupport.interfaceText "Objects of this interface knows how to serialize a catbuffer object."
    "export interface Serializer"
    [("Serializes an object to bytes.", "Serialized bytes.", "serialize(): Uint8Array;"),
      ("Gets the size of the object.", "Size in bytes.", "getSize(): number;")]

def importFrom (quote name : String) : String :=
  "import " ++ openBrace ++ " " ++ name ++ " " ++ closeBrace ++ s!" from {quote}./{name}{quote};"

/-- A class that reads the header of a transaction and then the transaction that it announces. -/
def helper (base kind quote : String) (admits : String → Bool) (dispatch : Entity → List String)
    (s : Schema) : Checked String := do
  let entities ← Entity.select admits s
  let imports := (entities.filterMap id).map fun e => importFrom "'" e.builder
  let code := entities.map (·.map dispatch)
  return text <|
    [importFrom quote (base ++ "Builder")] ++ imports ++
    ["", "/** Helper class for embedded transaction serialization */",
      s!"export class {base}Helper " ++ openBrace, "",
      s!"     /** Deserialize an {kind} builder from binary */",
      s!"    public static loadFromBinary(payload: Uint8Array): {base}Builder " ++ openBrace, "",
      s!"        const header = {base}Builder.loadFromBinary(payload);"] ++
    Entity.stepped 0 ["", "        return header;"] code ++
    ["    " ++ closeBrace, "", closeBrace]

def transactionHelper : Schema → Checked String :=
  helper "Transaction" "transaction" "\"" Entity.isTopLevel fun e =>
    indent (indent (block
      s!"if (header.type === {e.type.spell} && header.version === {e.version.spell})"
      [s!"return  {e.builder}.loadFromBinary(payload);"]))

def embeddedHelper : Schema → Checked String :=
  helper "EmbeddedTransaction" "embedded transaction" "'" Entity.isInner fun e =>
    "" :: indent (indent (block
      s!"if (header.type === {e.type.spell} && header.version == {e.version.spell})"
      [s!"return {e.builder}.loadFromBinary(payload);"]))

/-- A file that exports every class. -/
def index (s : Schema) : Checked String := do
  let classes ← s.types.mapM fun (name, declared) => do
    let className ← s.className name declared
    return if isHidden name then none else some s!"export * from './{className}';"
  return text (classes.filterMap id ++ ["export * from './TransactionHelper'",
    "export * from './EmbeddedTransactionHelper'", "export * from './GeneratorUtils'",
    "export * from './Serializer'"])

end TypeScriptSupport
end SchemaForge
