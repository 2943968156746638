import SchemaForge.Support.Entity

/-! The Python files that accompany the classes of a schema. -/
namespace SchemaForge
namespace PythonSupport
open Source

def utilities : String :=
  openText <|
    ["from __future__ import annotations", "from typing import List, TypeVar", "",
      "T = TypeVar('T')", "", "class GeneratorUtils:"] ++
    indent (
      ["\"\"\"Generator utility class\"\"\"", "",
        "@staticmethod",
        "def buffer_to_uint(buffer: bytes) -> int:",
        "    return int.from_bytes(buffer, byteorder='little', signed=True)", "",
        "@staticmethod",
        "def uint_to_buffer(uint: int, buffer_size: int) -> bytes:",
        "    return uint.to_bytes(buffer_size, byteorder='little', signed=True)", "",
        "@staticmethod",
        "def concat_typed_arrays(array1, array2):",
        "    return array1 + array2", "",
        "@staticmethod",
        "def get_transaction_padding_size(size: int, alignment: int) -> int:",
        "    if size % alignment == 0:",
        "        return 0",
        "    return alignment - (size % alignment)", "",
        "@staticmethod",
        "def get_bytes(binary: bytes, size: int) -> bytes:",
        "    if size > len(binary):",
        "        raise Exception('size should not exceed \x7b0\x7d. The value of size was: \x7b1\x7d'" ++
          ".format(len(binary), size))",
        "    return binary[0:size]", "",
        "# pylint: disable=bad-staticmethod-argument",
        "# cls argument is not GeneratorUtils",
        "@staticmethod",
        "def load_from_binary(cls: T, items: List[cls], payload: bytes, payloadSize: int):",
        "    remainingByteSizes = payloadSize",
        "    while remainingByteSizes > 0:",
        "        item = cls.load_from_binary(payload)",
        "        items.append(item)",
        "        itemSize = item.get_size()",
        "        remainingByteSizes -= itemSize",
        "        payload = payload[itemSize:]",
        "    return payload"])

/-- What the two factories differ in. -/
structure FactoryShape where
  kind : String
  base : String
  admits : String → Bool
  /-- The name under which a caller asks for a transaction. -/
  shortName : String → String
  /-- Empty lines before the class and before its second method. -/
  gap : List String

/-- A class that makes the builder of a transaction from its bytes or from its name. -/
def factory (shape : FactoryShape) (s : Schema) : Checked String := do
  let imported := (← Entity.select shape.admits (Entity.sorted s)).filterMap id
  let entities := (← Entity.select shape.admits s).filterMap id
  let { kind, base, .. } := shape
  return openText <|
    ["# pylint: disable=R0911,R0912", "", s!"# Imports for creating {kind} builders",
      s!"from .{base} import {base}"] ++
    imported.map (fun e => s!"from .{e.builder} import {e.builder}") ++ [""] ++ shape.gap ++
    [s!"class {base}Factory:"] ++
    indent (
      [s!"\"\"\"Factory in charge of creating the specific {kind} builder from the binary payload.",
        "\"\"\"", "",
        "@classmethod",
        s!"def create_from_payload(cls, payload) -> {base}:",
        "    \"\"\"",
        s!"    It creates the specific {kind} builder from the payload bytes.",
        "    Args:",
        "        payload: bytes",
        "    Returns:",
        s!"        the {base} subclass",
        "    \"\"\"",
        s!"    headerBuilder = {base}.load_from_binary(payload)",
        "    entityType = headerBuilder.type",
        "    entityTypeVersion = headerBuilder.version"] ++
      entities.flatMap (fun e =>
        [s!"    if entityType == {e.hexType} and entityTypeVersion == {e.version.spell}:",
          s!"        return {e.builder}.load_from_binary(payload)"]) ++
      ["    return headerBuilder", ""] ++ shape.gap ++
      ["@classmethod",
        s!"def create_by_name(cls, transaction_name, signer_public_key, network) -> {base}:",
        "    \"\"\"",
        s!"    It creates the specific {kind} builder given name, network and signer.",
        "    Args:",
        "        transaction_name: transaction name",
        "        signer_public_key: signer",
        "        network: network",
        "    Returns:",
        s!"        the {base} subclass",
        "    \"\"\"",
        "    mapping = " ++ openBrace] ++
      entities.map (fun e =>
        s!"        '{Text.lowerFirst (shape.shortName e.name)}': {e.builder},") ++
      ["    " ++ closeBrace,
        "    if transaction_name not in mapping:",
        "        raise ValueError('transaction named \x7b\x7d is not supported'" ++
          ".format(transaction_name))", "",
        "    return mapping[transaction_name](signer_public_key, network)"])

def transactionFactory : Schema → Checked String := factory
  { kind := "transaction", base := "TransactionBuilder", admits := Entity.isTopLevel, gap := [""]
    shortName := Text.dropEnd 11 }

def embeddedFactory : Schema → Checked String := factory
  { kind := "embedded transaction", base := "EmbeddedTransactionBuilder", admits := Entity.isInner
    gap := [], shortName := fun name => Text.dropStart 8 (Text.dropEnd 11 name) }

/-- The installation script of the package. -/
def setup : String :=
  text ["from setuptools import setup, find_packages  # noqa: H301", "",
    "with open('README.md', 'r') as readme_file:",
    "    README = readme_file.read()", "",
    "NAME = '#artifactName'", "VERSION = '#artifactVersion'", "", "REQUIRES = []", "",
    "setup(",
    "    name=NAME,",
    "    version=VERSION,",
    "    description='Symbol Catbuffer Builders',",
    "    author='NEM Group',",
    "    author_email='dev@nem.software',",
    "    url='https://github.com/nemtech/catbuffer-generators',",
    "    keywords=['catbuffer-generators', 'catbuffer', 'builders', 'Symbol Catbuffer Builders'],",
    "    install_requires=REQUIRES,",
    "    package_dir=\x7b'': 'src'\x7d,",
    "    packages=find_packages('src'),",
    "    include_package_data=True,",
    "    license='Apache 2.0',",
    "    long_description=README,",
    "    long_description_content_type='text/markdown',",
    "    classifiers=[",
    "        'Programming Language :: Python :: 3.7',",
    "    ]",
    ")"]

end PythonSupport
end SchemaForge
