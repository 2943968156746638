import SchemaForge.Support.Java
import SchemaForge.Support.Python
import SchemaForge.Support.TypeScript

/-! The files that accompany the classes of a schema, by name. -/
namespace SchemaForge
namespace Support

/-- The shapes of single types need a model and make no file by themselves. -/
def typeShapes (t : Target) : List String :=
  ["Class", "Enum", "Type"] ++ if t == .python then ["TransactionClass"] else []

/-- The text of a file that comes with the classes. -/
def source (t : Target) (s : Schema) (name : String) : Checked String :=
  match t, name with
  | .java, "BitMaskable" => pure JavaSupport.bitMaskable
  | .java, "GeneratorUtils" => pure JavaUtilities.source
  | .java, "TransactionBuilderHelper" => JavaSupport.transactionHelper s
  | .java, "EmbeddedTransactionBuilderHelper" => JavaSupport.embeddedHelper s
  | .java, "Serializer" => pure JavaSupport.serializer
  | .typescript, "GeneratorUtils" => pure TypeScriptUtilities.source
  | .typescript, "TransactionHelper" => TypeScriptSupport.transactionHelper s
  | .typescript, "EmbeddedTransactionHelper" => TypeScriptSupport.embeddedHelper s
  | .typescript, "Serializer" => pure TypeScriptSupport.serializer
  | .typescript, "index" => TypeScriptSupport.index s
  | .python, "GeneratorUtils" => pure PythonSupport.utilities
  | .python, "EmbeddedTransactionBuilderFactory" => PythonSupport.embeddedFactory s
  | .python, "TransactionBuilderFactory" => PythonSupport.transactionFactory s
  | .python, "setup" => pure PythonSupport.setup
  | t, name => if (typeShapes t).contains name then throw .unsupported else throw .noFile

end Support
end SchemaForge
