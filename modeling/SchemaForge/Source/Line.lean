import SchemaForge.Text.Words

/-! Lines of generated source code. -/
namespace SchemaForge
namespace Source

def openBrace : String := "\x7b"

def closeBrace : String := "\x7d"

def commas (parts : List String) : String := Text.joinWith ", " parts

/-- Moves lines to the right by one step. Empty lines stay empty. -/
def indent (lines : List String) : List String :=
  lines.map fun line => if line.isEmpty then line else "    " ++ line

/-- A head that opens a brace, the indented lines, and what closes the brace. -/
def blockWith (head close : String) (lines : List String) : List String :=
  (head ++ " " ++ openBrace) :: indent lines ++ [closeBrace ++ close]

def block (head : String) (lines : List String) : List String := blockWith head "" lines

/-- Blocks of which each one starts where the one before it ends. -/
def chain : List (String × List String) → List String
  | [] => []
  | (head, lines) :: rest => (head ++ " " ++ openBrace) :: indent lines ++ next rest
where
  next : List (String × List String) → List String
    | [] => [closeBrace]
    | (head, lines) :: rest =>
      (closeBrace ++ " " ++ head ++ " " ++ openBrace) :: indent lines ++ next rest

/-- A comment for the reader of the generated code. -/
def doc (lines : List String) : List String :=
  "/**" :: lines.map (fun line => if line.isEmpty then " *" else " * " ++ line) ++ [" */"]

/-- The text of lines that each have a line end. -/
def text (lines : List String) : String := String.join (lines.map (· ++ "\n"))

/-- The text of lines of which the last has no line end. -/
def openText (lines : List String) : String := Text.joinWith "\n" lines

end Source
end SchemaForge
