import SchemaForge.Source.Line

/-! The TypeScript class of functions that the other classes share. -/
namespace SchemaForge
namespace TypeScriptUtilities
open Source

/-- Numbers as arrays of bytes. -/
def numbersToBytes : List String :=
  [""] ++
  doc ["Convert a UInt8Array input into an array of 2 numbers.",
      "Numbers in the returned array are cast to UInt32.",
      "@param \x7bUint8Array\x7d input A uint8 array.",
      "@returns \x7bnumber[]\x7d The uint64 representation of the input."] ++
  block "public static bufferToUint64(input: Uint8Array): number[]"
    ["const view = new DataView(input.slice(0, 8).reverse().buffer);",
      "return [view.getUint32(4), view.getUint32(0)];"] ++
  [""] ++
  doc ["Read 4 bytes as a uint32 value from buffer bytes starting at given index.",
      "@param \x7bUint8Array\x7d bytes A uint8 array.", "@param \x7bnumber\x7d index Index.",
      "@returns \x7bnumber\x7d 32bits integer."] ++
  block "public static readUint32At(bytes: Uint8Array, index: number): number"
    ["return (bytes[index] + (bytes[index + 1] << 8) + (bytes[index + 2] << 16) + (bytes[index + 3] << 24)) >>> 0;"] ++
  [""] ++
  doc ["Convert uint value into buffer", "@param \x7bnumber\x7d uintValue A uint8 array.",
      "@param \x7bnumber\x7d bufferSize Buffer size.", "@returns \x7bUint8Array\x7d"] ++
  block "public static uintToBuffer(uintValue: number, bufferSize: number): Uint8Array" (
    ["const buffer = new ArrayBuffer(bufferSize);", "const dataView = new DataView(buffer);"] ++
    chain [
      ("try",
        chain [
          ("if (1 === bufferSize)", ["dataView.setUint8(0, uintValue);"]),
          ("else if (2 === bufferSize)", ["dataView.setUint16(0, uintValue, true);"]),
          ("else if (4 === bufferSize)", ["dataView.setUint32(0, uintValue, true);"]),
          ("else", ["throw new Error('Unexpected bufferSize ' + bufferSize);"])] ++
        ["return new Uint8Array(buffer);"]),
      ("catch (e)",
        ["throw new Error(`Converting uint value ` + uintValue + ` into buffer with error: ` + e);"])]) ++
  doc ["Convert uint value into buffer", "@param \x7bnumber\x7d uintValue A uint8 array.",
      "@returns \x7bUint8Array\x7d"] ++
  block "public static uint8ToBuffer(uintValue: number): Uint8Array"
    ["return GeneratorUtils.uintToBuffer(uintValue, 1);"] ++
  [""] ++
  doc ["Convert uint value into buffer", "@param \x7bnumber\x7d uintValue A uint8 array.",
      "@returns \x7bUint8Array\x7d"] ++
  block "public static uint16ToBuffer(uintValue: number): Uint8Array"
    ["return GeneratorUtils.uintToBuffer(uintValue, 2);"] ++
  [""] ++
  doc ["Convert uint value into buffer", "@param \x7bnumber\x7d uintValue A uint8 array.",
      "@returns \x7bUint8Array\x7d"] ++
  block "public static uint32ToBuffer(uintValue: number): Uint8Array"
    ["return GeneratorUtils.uintToBuffer(uintValue, 4);"] ++
  [""]

/-- Tests of arguments. -/
def checks : List String :=
  doc ["It validates that a value is not undefined or null", "@param value the value",
      "@param message the message in the exception if the value is null or undefined."] ++
  block "public static notNull(value: any, message: string): void" (
    block "if (value === undefined || value === null)" ["throw new Error(message);"]) ++
  [""]

/-- Arrays of bytes as numbers, and numbers of eight bytes. -/
def bytesToNumbers : List String :=
  doc ["Convert uint8 array buffer into number", "@param \x7bUint8Array\x7d buffer A uint8 array.",
      "@returns \x7bnumber\x7d"] ++
  block "public static bufferToUint(buffer: Uint8Array, size: number): number" (
    ["const dataView = new DataView(buffer.buffer);"] ++
    chain [
      ("try",
        chain [
          ("if (1 === size)", ["return dataView.getUint8(0);"]),
          ("else if (2 === size)", ["return dataView.getUint16(0, true);"]),
          ("else if (4 === size)", ["return dataView.getUint32(0, true);"])] ++
        ["throw new Error('Unexpected size ' + size);"]),
      ("catch (e)", ["throw new Error(`Converting buffer into number with error:` + e);"])]) ++
  [""] ++
  doc ["Convert uint8 array buffer into number", "@param \x7bUint8Array\x7d buffer A uint8 array.",
      "@returns \x7bnumber\x7d"] ++
  block "public static bufferToUint8(buffer: Uint8Array): number"
    ["return GeneratorUtils.bufferToUint(buffer, 1);"] ++
  [""] ++
  doc ["Convert uint8 array buffer into number", "@param \x7bUint8Array\x7d buffer A uint8 array.",
      "@returns \x7bnumber\x7d"] ++
  block "public static bufferToUint16(buffer: Uint8Array): number"
    ["return GeneratorUtils.bufferToUint(buffer, 2);"] ++
  [""] ++
  doc ["Convert uint8 array buffer into number", "@param \x7bUint8Array\x7d buffer A uint8 array.",
      "@returns \x7bnumber\x7d"] ++
  block "public static bufferToUint32(buffer: Uint8Array): number"
    ["return GeneratorUtils.bufferToUint(buffer, 4);"] ++
  [""] ++
  doc ["Convert unit64 into buffer", "@param \x7bnumber\x7d uintValue Uint64 (number[]).",
      "@returns \x7bUint8Array\x7d"] ++
  block "public static uint64ToBuffer(uintValue: number[] | number): Uint8Array"
    ["const uint32Array = new Uint32Array(GeneratorUtils.fromUint(uintValue));",
      "return new Uint8Array(uint32Array.buffer);"] ++
  [""] ++
  doc ["Concatenate two arrays", "@param \x7bUint8Array\x7d array1 A Uint8Array.",
      "@param \x7bUint8Array\x7d array2 A Uint8Array.", "@returns \x7bUint8Array\x7d"] ++
  block "public static concatTypedArrays(array1: Uint8Array, array2: Uint8Array): Uint8Array"
    ["const newArray = new Uint8Array(array1.length + array2.length);", "newArray.set(array1);",
      "newArray.set(array2, array1.length);", "return newArray;"]

/-- Single bytes and the fronts of arrays. -/
def bytes : List String :=
  ["", "/** Converts an unsigned byte to a signed byte with the same binary representation.",
    " * @param \x7bnumber\x7d input An unsigned byte.",
    " * @returns \x7bnumber\x7d A signed byte with the same binary representation as the input.",
    " *", " */"] ++
  blockWith "public static uint8ToInt8 = (input: number): number =>" ";" (
    block "if (0xff < input)" ["throw Error(`input '` + input + `' is out of range`);"] ++
    ["return (input << 24) >> 24;"]) ++
  ["", "/** Get bytes by given sub array size.",
    " * @param \x7bUint8Array\x7d binary Binary bytes array.",
    " * @param \x7bnumber\x7d size Subarray size.", " * @returns \x7bUint8Array\x7d", " *", " */"] ++
  block "public static getBytes(binary: Uint8Array, size: number): Uint8Array" (
    block "if (size > binary.length)" ["throw new RangeError();"] ++
    ["const bytes = binary.slice(0, size);", "return bytes;"])

/-- Padding between the elements of arrays. -/
def padding : List String :=
  [""] ++
  doc ["Gets the padding size that rounds up \\a size to the next multiple of \\a alignment.",
      "@param size Inner element size", "@param alignment Next multiple alignment"] ++
  block "public static getPaddingSize(size: number, alignment: number): number" (
    block "if (alignment === 0)" ["return 0;"] ++
    ["return 0 === size % alignment ? 0 : alignment - (size % alignment);"]) ++
  [""] ++
  doc ["Adds the padding to the reported size according to the alignment", "@param size the size",
      "@param alignment the alignment"] ++
  block "public static getSizeWithPadding(size: number, alignment: number): number"
    ["return size + GeneratorUtils.getPaddingSize(size, alignment);"] ++
  [""]

/-- Numbers of eight bytes as two halves. -/
def halves : List String :=
  doc ["Tries to compact a uint64 into a simple numeric.",
      "@param \x7bmodule:coders/uint64~uint64\x7d uint64 A uint64 value.",
      "@returns \x7bnumber|module:coders/uint64~uint64\x7d",
      "A numeric if the uint64 is no greater than Number.MAX_SAFE_INTEGER or the original uint64 value otherwise."] ++
  block "public static compact(uint64: number[] | number): number" (
    chain [
      ("if (Array.isArray(uint64))",
        ["const low = uint64[0];", "const high = uint64[1];",
          "// don't compact if the value is >= 2^53"] ++
        block "if (0x00200000 <= high)" ["throw new Error('Cannot compact number: ' + uint64);"] ++
        ["// multiply because javascript bit operations operate on 32bit values",
          "return high * 0x100000000 + low;"]),
      ("else", ["return uint64;"])]) ++
  [""] ++
  doc ["Converts a numeric unsigned integer into a uint64.",
      "@param \x7bnumber\x7d number The unsigned integer.",
      "@returns \x7bmodule:coders/uint64~uint64\x7d The uint64 representation of the input."] ++
  block "public static fromUint(number: number | number[]): number[]" (
    block "if (Array.isArray(number))" ["return number;"] ++
    ["return [(number & 0xffffffff) >>> 0, (number / 0x100000000) >>> 0];"]) ++
  [""]

/-- Reading and writing of arrays. -/
def arrays : List String :=
  doc ["It loads a static list of entities from the payload",
      "@param loadFromBinary the factory function", "@param payload the payload",
      "@param count the amount of entities"] ++
  ["public static loadFromBinary<T extends Serializer>(",
    "    loadFromBinary: (payload: Uint8Array) => T,", "    payload: Uint8Array,",
    "    count: number | number[],"] ++
  block "): T[]" (
    ["const byteArray = Array.from(payload);", "const values: T[] = [];"] ++
    block "for (let i = 0; i < GeneratorUtils.compact(count); i++)"
      ["const item = loadFromBinary(Uint8Array.from(byteArray));",
        "const itemSize = item.getSize();", "values.push(item);",
        "byteArray.splice(0, itemSize);"] ++
    ["return values;"]) ++
  [""] ++
  doc ["Loads a list of numbers from the array based on the count and number size.",
      "@param payload the payload", "@param count the count", "@param itemSize the number size."] ++
  block "public static loadFromBinaryEnums(payload: Uint8Array, count: number | number[], itemSize: number): number[]" (
    ["const byteArray = Array.from(payload);", "const values: number[] = [];"] ++
    block "for (let i = 0; i < GeneratorUtils.compact(count); i++)"
      ["values.push(GeneratorUtils.bufferToUint(payload, 2));", "byteArray.splice(0, itemSize);"] ++
    ["return values;"]) ++
  [""] ++
  doc ["It loads a static list of entities from the payload",
      "@param loadFromBinary the factory function", "@param payload the payload",
      "@param payloadSize the amount of bytes to process.", "@param alignment for the padding"] ++
  ["public static loadFromBinaryRemaining<T extends Serializer>(",
    "    loadFromBinary: (payload: Uint8Array) => T,", "    payload: Uint8Array,",
    "    payloadSize: number,", "    alignment: number,"] ++
  block "): T[]" (
    ["const byteArray = Array.from(payload);", "let remainingByteSizes: number = payloadSize;",
      "const transactions: T[] = [];"] ++
    block "while (remainingByteSizes > 0)"
      ["const item = loadFromBinary(Uint8Array.from(byteArray));", "transactions.push(item);",
        "let size = item.getSize();",
        "const itemSize = size + GeneratorUtils.getPaddingSize(item.getSize(), alignment);",
        "remainingByteSizes -= itemSize;", "byteArray.splice(0, itemSize);"] ++
    ["return transactions;"]) ++
  [""] ++
  doc ["It converts a list of buffers into an Uint8Array",
      "@param elements the buffers to serialize",
      "@param alignment add padding to each element according to the alignment.",
      "@return the serialized buffer"] ++
  block "public static writeList(elements: Serializer[], alignment: number): Uint8Array" (
    blockWith "return elements.reduce((newArray, item) =>" ", Uint8Array.from([]));"
      ["const byte = item.serialize();",
        "const padding = new Uint8Array(GeneratorUtils.getPaddingSize(byte.length, alignment));",
        "return GeneratorUtils.concatTypedArrays(newArray, GeneratorUtils.concatTypedArrays(byte, padding));"]) ++
  [""] ++
  doc ["It serializes a list of number to a Uint8Array", "@param elements", "@param alignment"] ++
  block "public static writeListEnum(elements: number[], alignment: number): Uint8Array" (
    blockWith "return elements.reduce((newArray, item) =>" ", Uint8Array.from([]));"
      ["const byte = GeneratorUtils.uint16ToBuffer(item);",
        "const padding = new Uint8Array(GeneratorUtils.getPaddingSize(byte.length, alignment));",
        "return GeneratorUtils.concatTypedArrays(newArray, GeneratorUtils.concatTypedArrays(byte, padding));"]) ++
  [""]

/-- Sets of flags. -/
def flags : List String :=
  doc ["It generates a list of flags from an aggregated value", "",
      "@param enumClass the enum class holding all the possible values",
      "@param bitMaskValue the aggregate value", "@param the flags"] ++
  block "public static toFlags(enumClass: any, bitMaskValue: number): number[]"
    ["const values: number[] = Object.keys(enumClass)", "    .map((key) => enumClass[key])",
      "    .filter((k) => parseInt(k) >= 0)", "    .map((k) => parseInt(k));",
      "return values.filter((value) => (value & bitMaskValue) !== 0);"] ++
  [""] ++
  doc ["It converts a list of flag into an aggregated number",
      "@param enumClass the enum class to know the valid numbers", "@param flags the flags"] ++
  block "public static fromFlags(enumClass: any, flags: number[]): number"
    ["const values: number[] = Object.keys(enumClass)", "    .map((key) => enumClass[key])",
      "    .filter((k) => parseInt(k) >= 0)", "    .map((k) => parseInt(k));",
      "return flags.filter((f) => values.indexOf(f) > -1).reduce((a, b) => a + b, 0);"]

/-- The text of the class. -/
def source : String :=
  text <|
    ["import \x7b Serializer \x7d from './Serializer';", ""] ++
    doc ["Generator utility class."] ++
    block "export class GeneratorUtils" (
      numbersToBytes ++ checks ++ bytesToNumbers ++ bytes ++ padding ++ halves ++ arrays ++ flags)

end TypeScriptUtilities
end SchemaForge
