import SchemaForge.Target

/-! How numbers of a width in bytes are read and written in the generated code. A width that is a name
or more than eight means a sequence of bytes. -/
namespace SchemaForge
namespace Width

def isWide (size : Value) : Checked Bool :=
  if size.isText then pure true else return (← size.compared) > 8

/-- The method that reads a number from a Java stream. -/
def javaRead (size : Value) : Checked String := do
  if ← isWide size then return "readFully"
  Target.sized [(1, "readByte"), (2, "readShort"), (4, "readInt"), (8, "readLong")] size

/-- The method that writes a number to a Java stream. -/
def javaWrite (size : Value) : Checked String := do
  if ← isWide size then return "write"
  Target.sized
    [(0, "write"), (1, "writeByte"), (2, "writeShort"), (4, "writeInt"), (8, "writeLong")] size

/-- The Java call that turns the byte order of a number around; one byte has only one order. -/
def javaReverse (size : Value) : Checked (String → String) := do
  if ← isWide size then return id
  if size.number? = some 1 then return id
  let class' ← Target.sized [(2, "Short"), (4, "Integer"), (8, "Long")] size
  return fun value => class' ++ ".reverseBytes(" ++ value ++ ")"

/-- The Java call that reads a short number as unsigned. -/
def javaUnsigned (size : Value) : Checked (String → String) := do
  let method ← Target.sized
    [(1, "GeneratorUtils.toUnsignedInt"), (2, "GeneratorUtils.toUnsignedInt")] size
  return fun value => method ++ "(" ++ value ++ ")"

/-- A number read from a Java stream in the order of its bytes. -/
def javaLoad (size : Value) : Checked String := do
  let reverse ← javaReverse size
  return reverse ("stream." ++ (← javaRead size) ++ "()")

/-- The TypeScript expression that reads a number from an array of bytes. -/
def scriptRead (size : Value) (array : String) : Checked String := do
  let bytes := "Uint8Array.from(" ++ array ++ ")"
  let slice := "GeneratorUtils.getBytes(" ++ bytes ++ ", " ++ size.spell ++ ")"
  if ← isWide size then return slice
  match size.number? with
  | some 8 => return "GeneratorUtils.bufferToUint64(" ++ bytes ++ ")"
  | some 4 => return "GeneratorUtils.bufferToUint32(" ++ bytes ++ ")"
  | some 2 => return "GeneratorUtils.bufferToUint16(" ++ bytes ++ ")"
  | some 1 => return "GeneratorUtils.bufferToUint8(" ++ bytes ++ ")"
  | _ => return slice

/-- The TypeScript function that writes a number; none for other widths. -/
def scriptWrite (size : Value) : Checked String := do
  if ← isWide size then return ""
  match size.number? with
  | some 8 => return "GeneratorUtils.uint64ToBuffer"
  | some 4 => return "GeneratorUtils.uint32ToBuffer"
  | some 2 => return "GeneratorUtils.uint16ToBuffer"
  | some 1 => return "GeneratorUtils.uint8ToBuffer"
  | _ => return ""

end Width
end SchemaForge
