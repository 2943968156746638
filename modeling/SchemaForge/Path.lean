import SchemaForge.Fault
import SchemaForge.Text.Blank

/-! Paths: names of directories and files with slashes between them. -/
namespace SchemaForge
namespace Path

/-- The greatest number of bytes in a name. -/
def longestName : Nat := 255

/-- The names on a path. No path holds a zero byte. -/
def pieces (path : String) : Checked (List String) :=
  if path.toList.contains '\x00' then throw .malformed
  else pure (Text.splitOn (· == '/') path)

/-- Pieces that lead from a directory to itself. -/
def isIdle (piece : String) : Bool := piece.isEmpty || piece == "."

/-- One step along a path from a directory; two dots lead to the directory above. -/
def step (directory : List String) (piece : String) : Checked (List String) :=
  if isIdle piece then pure directory
  else if piece == ".." then pure directory.dropLast
  else if longestName < piece.utf8ByteSize then throw .longName
  else pure (directory ++ [piece])

/-- The place to which a path leads from a directory through known directories. -/
def follow (isDirectory : List String → Bool) (directory : List String) :
    List String → Checked (List String)
  | [] => pure directory
  | piece :: rest => do
    let place ← step directory piece
    if rest.isEmpty then return place
    if isDirectory place then follow isDirectory place rest else throw .noFile

end Path
end SchemaForge
