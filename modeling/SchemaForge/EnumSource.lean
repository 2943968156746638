import SchemaForge.Model.Enum
import SchemaForge.Source.Line
import SchemaForge.Target.Width

/-! The classes of enumerations. -/
namespace SchemaForge
namespace EnumSource
open Source

/-- The values of an enumeration, each ended by a comma and the last by a semicolon. -/
def javaValues (type : String) : List Enumerator → List String
  | [] => []
  | e :: rest =>
    let stop := if rest.isEmpty then ";" else ","
    [s!"/** {e.comment}. */", s!"{e.name}(({type}) {e.value.spell}){stop}", ""] ++
      javaValues type rest

def java (m : EnumModel) : Checked String := do
  let flagsGetter ← if m.isFlags then do
      let unsigned ← Width.javaUnsigned m.size
      pure (doc ["Gets the value of the enum.", "", "@return Value of the enum."] ++
        block "public long getValueAsLong()" ["return " ++ unsigned "this.value" ++ ";"] ++ [""])
    else pure []
  let load ← Width.javaLoad m.size
  let write ← Width.javaWrite m.size
  let reverse ← Width.javaReverse m.size
  let interfaces := if m.isFlags then "BitMaskable, Serializer" else "Serializer"
  let sizeDoc := doc ["Gets the size of the object.", "", "@return Size in bytes."]
  let find := block s!"for ({m.className} current : {m.className}.values())"
    (block "if (value == current.value)" ["return current;"])
  let members := javaValues m.numberType m.enumerators ++ [""] ++
    ["/** Enum value. */", s!"private final {m.numberType} value;", ""] ++
    doc ["Constructor.", "", "@param value Enum value."] ++
    (" " ++ s!"{m.className}(final {m.numberType} value) " ++ openBrace) ::
      indent ["this.value = value;"] ++ [closeBrace, ""] ++
    doc ["Gets enum value.", "", "@param value Raw value of the enum.", "@return Enum value."] ++
    block s!"public static {m.className} rawValueOf(final {m.numberType} value)" (find ++
      ["throw new IllegalArgumentException(value + " ++
        s!"\" was not a backing value for {m.className}.\");"]) ++ [""] ++
    sizeDoc ++ block "public int getSize()" [s!"return {m.size.spell};"] ++ [""] ++
    doc ["Gets the value of the enum.", "", "@return Value of the enum."] ++
    block s!"public {m.numberType} getValue()" ["return this.value;"] ++
    flagsGetter ++
    doc [s!"Creates an instance of {m.className} from a stream.", "",
      "@param stream Byte stream to use to serialize the object.",
      s!"@return Instance of {m.className}."] ++
    block s!"public static {m.className} loadFromBinary(final DataInputStream stream)"
      (chain [
        ("try", [s!"final {m.numberType} streamValue = {load};", "return rawValueOf(streamValue);"]),
        ("catch(Exception e)", ["throw GeneratorUtils.getExceptionToPropagate(e);"])]) ++ [""] ++
    doc ["Serializes an object to bytes.", "", "@return Serialized bytes."] ++
    block "public byte[] serialize()"
      (blockWith "return GeneratorUtils.serialize(dataOutputStream ->" ");"
        [s!"dataOutputStream.{write}(" ++ reverse "this.value" ++ ");"])
  return text <|
    ["import java.io.DataInputStream;", "", "/**", s!"* {Text.upperFirst m.comments}", "**/",
      s!"public enum {m.className} implements {interfaces} " ++ openBrace, ""] ++
    indent members ++ [closeBrace]

def typescript (m : EnumModel) : String :=
  text <| ["", "/**", s!"* {Text.upperFirst m.comments}", "**/",
      s!"export enum {m.className}  " ++ openBrace, ""] ++
    m.enumerators.flatMap (fun e =>
      indent [s!"/** {e.comment}. */", s!"{e.name} = {e.value.spell},", ""]) ++ [closeBrace]

def python (m : EnumModel) : String :=
  let base := if m.isFlags then "Flag" else "Enum"
  let size := m.size.spell
  let bits := "\"\"\"Converts a bit representation to a list of " ++ s!"{m.className}."
  let flags := if m.isFlags then [
      "@classmethod",
      s!"def bytesToFlags(cls, bitMaskValue: bytes, size: int) -> List[{m.className}]:",
      "    " ++ bits,
      "    Args:",
      "        bitMaskValue Bitmask bytes value.",
      "    Returns:",
      s!"        List of {m.className} flags representing the int value.",
      "    \"\"\"",
      "    return cls.intToFlags(GeneratorUtils.buffer_to_uint(" ++
        "GeneratorUtils.get_bytes(bitMaskValue, size)))",
      "",
      "@classmethod",
      s!"def intToFlags(cls, bitMaskValue: int) -> List[{m.className}]:",
      "    " ++ bits,
      "    Args:",
      "        bitMaskValue Bitmask int value.",
      "    Returns:",
      s!"        List of {m.className} flags representing the int value.",
      "    \"\"\"",
      "    results = []",
      s!"    for flag in {m.className}:",
      "        if 0 != flag.value & bitMaskValue:",
      "            results.append(flag)",
      "    return results",
      "",
      "@classmethod",
      s!"def flagsToInt(cls, flags: List[{m.className}]) -> int:",
      "    " ++ s!"\"\"\"Converts a list of {m.className} to a bit representation.",
      "    Args:",
      s!"        List of {m.className} flags representing the int value.",
      "    Returns:",
      "        int value of the list of flags",
      "    \"\"\"",
      "    result = 0",
      s!"    for flag in {m.className}:",
      "        if flag in flags:",
      "            result += flag.value",
      "    return result",
      ""] else []
  openText <|
    ["from __future__ import annotations", s!"from enum import {base}"] ++
    (if m.isFlags then ["from typing import List"] else []) ++
    ["from .GeneratorUtils import GeneratorUtils", "", "", s!"class {m.className}({base}):"] ++
    indent (
      ["\"\"\"" ++ Text.upperFirst m.comments, "", "Attributes:"] ++
      indent (m.enumerators.map fun e => s!"{e.name}: {e.comment}.") ++ ["\"\"\"", ""] ++
      m.enumerators.map (fun e => s!"{e.name} = {e.value.spell}") ++
      ["",
        "@classmethod",
        s!"def load_from_binary(cls, payload: bytes) -> {m.className}:",
        "    " ++ s!"\"\"\"Creates an instance of {m.className} from binary payload.",
        "    Args:",
        "        payload: Byte payload to use to serialize the object.",
        "    Returns:",
        s!"        Instance of {m.className}.",
        "    \"\"\"",
        "    value: int = GeneratorUtils.buffer_to_uint(" ++
          s!"GeneratorUtils.get_bytes(bytes(payload), {size}))",
        s!"    return {m.className}(value)",
        "",
        "@classmethod",
        "def get_size(cls) -> int:",
        "    \"\"\"Gets the size of the object.",
        "    Returns:",
        "        Size in bytes.",
        "    \"\"\"",
        s!"    return {size}",
        ""] ++ flags ++
      ["def serialize(self) -> bytes:",
        "    \"\"\"Serializes self to bytes.",
        "    Returns:",
        "        Serialized bytes.",
        "    \"\"\"",
        "    bytes_ = bytes()",
        "    bytes_ = GeneratorUtils.concat_typed_arrays(bytes_, " ++
          s!"GeneratorUtils.uint_to_buffer(self.value, {size}))",
        "    return bytes_"])

/-- The text of the class. -/
def source : Target → EnumModel → Checked String
  | .java, m => java m
  | .typescript, m => pure (typescript m)
  | .python, m => pure (python m)

end EnumSource
end SchemaForge
