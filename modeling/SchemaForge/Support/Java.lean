import SchemaForge.Support.Entity
import SchemaForge.Support.JavaUtilities

/-! The Java files that accompany the classes of a schema. -/
namespace SchemaForge
namespace JavaSupport
open Source

/-- An interface in whose lines a tab stands for each step of indentation. -/
def interfaceText (comment head : String) (methods : List (String × String × String)) : String :=
  let method := fun (gets, returns, line) =>
    "" :: (doc [gets, "", "@return " ++ returns] ++ [line]).map ("\t" ++ ·)
  text ([s!"/** {comment} */", head ++ " " ++ openBrace] ++ methods.flatMap method ++ [closeBrace])

def serializer : String :=
  interfaceText "Objects of this interface knows how to serialize a catbuffer object."
    "public interface Serializer"
    [("Serializes an object to bytes.", "Serialized bytes.", "byte[] serialize();"),
      ("Gets the size of the object.", "Size in bytes.", "int getSize();")]

def bitMaskable : String :=
  interfaceText "Interface for the flags-based Enum." "public interface BitMaskable"
    [("Gets the value of the enum.", "Value of the enum.", "long getValueAsLong();")]

/-- The test for one entity, with the builder of its body. -/
def dispatch (body : Entity → String) (e : Entity) : List String :=
  let body := body e
  block (s!"if (headerBuilder.getType().getValue() == {e.type.spell} && " ++
      s!"headerBuilder.getVersion() == {e.version.spell})")
    [s!"{body} bodyBuilder = {body}.loadFromBinary(stream);",
      "SequenceInputStream concatenate = new SequenceInputStream(",
      "new ByteArrayInputStream(headerBuilder.serialize()),",
      "new ByteArrayInputStream(bodyBuilder.serialize()));",
      s!"return {e.builder}.loadFromBinary(new DataInputStream(concatenate));"]

/-- A class that reads the header of a transaction and then the transaction that it announces. -/
def helper (base about : String) (admits : String → Bool) (body : Entity → String) (s : Schema) :
    Checked String := do
  let entities ← Entity.select admits s
  let code := entities.map (·.map fun e => indent (indent (dispatch body e)))
  return text <|
    ["import java.io.DataInputStream;", "import java.io.SequenceInputStream;",
      "import java.io.ByteArrayInputStream;", "",
      "/** Factory in charge of creating the right transaction builder from the streamed data. */",
      s!"public class {base}Helper " ++ openBrace, ""] ++
    indent (["/**", s!"* It creates the {about} from the stream data.", "*",
      "* @param stream the stream", s!"* @return the {base} subclass", "*/",
      s!"public static {base} loadFromBinary(final DataInputStream stream) " ++ openBrace, "",
      s!"    {base} headerBuilder = {base}.loadFromBinary(stream);"]) ++
    Entity.stepped 0 ["        return headerBuilder;"] code ++
    ["    " ++ closeBrace, "", closeBrace]

def transactionHelper : Schema → Checked String :=
  helper "TransactionBuilder" "right transaction builder" Entity.isTopLevel fun e =>
    if Entity.isAggregate e.name then "AggregateTransactionBodyBuilder" else e.name ++ "BodyBuilder"

def embeddedHelper : Schema → Checked String :=
  helper "EmbeddedTransactionBuilder" "rigth embbeded transaction builder" Entity.isInner fun e =>
    Text.dropStart 8 e.name ++ "BodyBuilder"

end JavaSupport
end SchemaForge
