import SchemaForge.Model.Atom
import SchemaForge.Source.Line
import SchemaForge.Target.Width

/-! The classes of types that are one number or one sequence of bytes. -/
namespace SchemaForge
namespace AtomSource
open Source

def java (m : AtomModel) : Checked String := do
  let load ← if m.kind = .buffer then
      pure s!"GeneratorUtils.readByteBuffer(stream, {m.size.spell})"
    else Width.javaLoad m.size
  let write ← if m.kind = .buffer then
      pure s!"write(this.{m.field}.array(), 0, this.{m.field}.array().length)"
    else do
      let method ← Width.javaWrite m.size
      let reverse ← Width.javaReverse m.size
      let value := reverse s!"this.get{m.name}()"
      pure s!"{method}({value})"
  let members :=
    [s!"/** {m.comments}. */", s!"private final {m.type} {m.field};", ""] ++
    doc ["Constructor.", "", s!"@param {m.field} {m.comments}."] ++
    block s!"public {m.className}(final {m.type} {m.field})" [s!"this.{m.field} = {m.field};"] ++
    [""] ++
    doc ["Constructor - Creates an object from stream.", "",
      "@param stream Byte stream to use to serialize."] ++
    block s!"public {m.className}(final DataInputStream stream)"
      (chain [
        ("try", [s!"this.{m.field} = {load};"]),
        ("catch(Exception e)", ["throw GeneratorUtils.getExceptionToPropagate(e);"])]) ++ [""] ++
    doc [s!"Gets {m.comments}.", "", s!"@return {m.comments}."] ++
    block s!"public {m.type} get{m.name}()" [s!"return this.{m.field};"] ++ [""] ++
    doc ["Gets the size of the object.", "", "@return Size in bytes."] ++
    block "public int getSize()" [s!"return {m.size.spell};"] ++ [""] ++
    doc [s!"Creates an instance of {m.className} from a stream.", "",
      "@param stream Byte stream to use to serialize the object.",
      s!"@return Instance of {m.className}."] ++
    block s!"public static {m.className} loadFromBinary(final DataInputStream stream)"
      [s!"return new {m.className}(stream);"] ++ [""] ++
    doc ["Serializes an object to bytes.", "", "@return Serialized bytes."] ++
    block "public byte[] serialize()"
      (blockWith "return GeneratorUtils.serialize(dataOutputStream ->" ");"
        [s!"dataOutputStream.{write};"])
  return text <|
    ["import java.io.DataInputStream;", "import java.nio.ByteBuffer;", "", s!"/** {m.comments}. */"] ++
    block s!"public final class {m.className} implements Serializer" members

def importLine (name file : String) : String :=
  "import " ++ openBrace ++ " " ++ name ++ " " ++ closeBrace ++ " from './" ++ file ++ "';"

def typescript (m : AtomModel) : Checked String := do
  let read ← Width.scriptRead m.size "payload"
  let write ← Width.scriptWrite m.size
  let members :=
    [s!"/** {m.comments}. */", s!"readonly {m.field}: {m.type};", ""] ++
    doc ["Constructor.", "", s!"@param {m.field} {m.comments}."] ++
    block s!"constructor({m.field}: {m.type})" [s!"this.{m.field} = {m.field};"] ++ [""] ++
    doc [s!"Creates an instance of {m.className} from binary payload.", "",
      "@param payload Byte payload to use to serialize the object.",
      s!"@return Instance of {m.className}."] ++
    block s!"public static loadFromBinary(payload: Uint8Array): {m.className}"
      [s!"const {m.field} = {read};", s!"return new {m.className}({m.field});"] ++ [""] ++
    doc [s!"Gets {m.comments}.", "", s!"@return {m.comments}."] ++
    block s!"public get{m.name}(): {m.type} " [s!"return this.{m.field};"] ++ [""] ++
    doc ["Gets the size of the object.", "", "@return Size in bytes."] ++
    block "public getSize(): number" [s!"return {m.size.spell};"] ++ [""] ++
    doc ["Serializes an object to bytes.", "", "@return Serialized bytes."] ++
    block "public serialize(): Uint8Array" [s!"return {write}(this.get{m.name}());"]
  return text <|
    [importLine "Serializer" "Serializer", importLine "GeneratorUtils" "GeneratorUtils", "",
      s!"/** {m.comments}. */"] ++
    block s!"export class {m.className} implements Serializer" members

def python (m : AtomModel) : String :=
  let isBytes := m.kind = .buffer
  let isAddress := m.name == "UnresolvedAddress"
  let size := m.size.spell
  let getter := "get_" ++ Text.camelToSnake m.name
  let default := if isBytes then s!"bytes({size})" else "0"
  let bytes := s!"GeneratorUtils.get_bytes(bytes_, {size})"
  let number := s!"GeneratorUtils.uint_to_buffer(self.{getter}(), {size})"
  let hex := fun value => s!"hexlify({value}).decode('utf-8')"
  let self := s!"self.{m.field}"
  let shown :=
    if !isBytes then s!"result = {hex number}"
    else if isAddress then
      "result = '\x7b\x7d (\x7b\x7d)'.format(" ++ hex self ++
        s!", b32encode({self}).decode('utf-8')[:-1])"
    else s!"result = {hex self} # {m.name}"
  openText <|
    ["from __future__ import annotations", "from binascii import hexlify"] ++
    (if isAddress then ["from base64 import b32encode"] else []) ++
    ["from .GeneratorUtils import GeneratorUtils", "", s!"class {m.className}:"] ++
    indent (
      [s!"\"\"\"{m.comments}.", "", "Attributes:", s!"    {m.field}: {m.comments}.", "\"\"\"",
        s!"def __init__(self, {m.field}: {m.type} = {default}):",
        "    \"\"\"Constructor.", "", "    Args:", s!"        {m.field}: {m.comments}.",
        "    \"\"\""] ++
      (if isBytes then [s!"    assert len({m.field}) == {size}, " ++
        "'required argument bytes(\x7b\x7d)'.format(" ++ s!"{size})"] else []) ++
      [s!"    self.{m.field} = {m.field}", "",
        "@classmethod",
        s!"def load_from_binary(cls, payload: bytes) -> {m.className}:",
        s!"    \"\"\"Creates an instance of {m.className} from binary payload.", "",
        "    Args:",
        "        payload: Byte payload to use to serialize the object.",
        "    Returns:",
        s!"        Instance of {m.className}.",
        "    \"\"\"",
        "    bytes_ = bytes(payload)",
        if isBytes then s!"    {m.field} = {bytes}"
          else s!"    {m.field} = GeneratorUtils.buffer_to_uint({bytes})",
        s!"    return {m.className}({m.field})", "",
        "@classmethod",
        "def get_size(cls) -> int:",
        "    \"\"\"Gets the size of the object.",
        "    Returns:",
        "        Size in bytes.",
        "    \"\"\"",
        s!"    return {size}", "",
        s!"def {getter}(self) -> {m.type}:",
        s!"    \"\"\"Gets {m.comments}.", "",
        "    Returns:",
        s!"        {m.comments}.",
        "    \"\"\"",
        s!"    return {self}", "",
        "def serialize(self) -> bytes:",
        "    \"\"\"Serializes self to bytes.", "",
        "    Returns:",
        "        Serialized bytes.",
        "    \"\"\"",
        "    bytes_ = bytes()",
        "    bytes_ = GeneratorUtils.concat_typed_arrays(bytes_, " ++
          (if isBytes then self else number) ++ ")",
        "    return bytes_", "",
        "def __str__(self):",
        "    " ++ shown,
        "    return result"])

/-- The text of the class. -/
def source : Target → AtomModel → Checked String
  | .java, m => java m
  | .typescript, m => typescript m
  | .python, m => pure (python m)

end AtomSource
end SchemaForge
