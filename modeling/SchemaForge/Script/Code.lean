import SchemaForge.Value.Part

/-! Lines of script code, built from nested blocks, functions and classes. What is given as a line or
as a name need not be a text; this shows only when the code is asked for. -/
namespace SchemaForge
namespace Script

def openBrace : String := "\x7b"

def closeBrace : String := "\x7d"

/-- Moves lines to the right by so many steps, by none if the number is negative. -/
def indentBy (count : Value) (lines : List Value) : Checked (List Value) :=
  lines.mapM fun line => do
    return .text ((← count.copies ' ' 4) ++ (← line.joined))

def indent (lines : List Value) : Checked (List Value) := indentBy (.int 1) lines

/-- A head that opens a brace, the indented lines, and the closing brace. -/
def braced (head : String) (lines : List Value) : Checked (List Value) := do
  return .text (head ++ openBrace) :: (← indent lines) ++ [.text closeBrace]

inductive BlockKind where
  | plain
  | when
  | otherwise
  | otherwiseWhen
  | loop
  deriving DecidableEq, Repr

structure Block where
  kind : BlockKind := .plain
  rule : Value := ""
  iterator : Value := .null
  lines : List Value := []

def Block.code (b : Block) : Checked (List Value) :=
  let rule := b.rule.spell
  match b.kind with
  | .plain => pure b.lines
  | .when => braced ("if (" ++ rule ++ ") ") b.lines
  | .otherwiseWhen => braced ("else if (" ++ rule ++ ") ") b.lines
  | .otherwise => braced "else " b.lines
  | .loop => do
    let i := b.iterator.spell
    let loop ← braced ("for (" ++ i ++ " = 0; " ++ i ++ " " ++ rule ++ "; " ++ i ++ "++) ") b.lines
    return .text ("const " ++ i) :: loop

inductive FunctionKind where
  | method
  | arrow
  | constructor
  | static
  deriving DecidableEq, Repr

structure Function where
  kind : FunctionKind := .method
  name : Value := .null
  params : Value := .list []
  lines : List Value := []

def Function.head (f : Function) : Checked String := do
  let params := Text.joinWith ", " (← (← f.params.items).mapM (·.joined))
  let name := f.name.spell
  return match f.kind with
    | .arrow => name ++ " = (" ++ params ++ ") => "
    | .static => "static " ++ name ++ "(" ++ params ++ ") "
    | .constructor => "constructor(" ++ params ++ ") "
    | .method => name ++ "(" ++ params ++ ") "

def Function.code (f : Function) : Checked (List Value) := do braced (← f.head) f.lines

/-- A constructor that gives each attribute its first value. -/
def Function.ofValues (values : List (Value × Value)) (params : Value) : Function :=
  { kind := .constructor, params,
    lines := values.map fun (name, value) => .text ("this." ++ name.spell ++ " = " ++ value.spell) }

def getterName (field : String) : String := "get" ++ Text.capitalize field

def setterName (field : String) : String := "set" ++ Text.capitalize field

def Function.getter (field : String) : Function :=
  { name := getterName field, lines := [.text ("return this." ++ field)] }

def Function.setter (field : String) : Function :=
  { name := setterName field, params := .list [.text field],
    lines := [.text ("this." ++ field ++ " = " ++ field)] }

def className (name : Value) : String := name.spell ++ "Buffer"

/-- A class around the code of its members. -/
def classCode (name : Value) (members : List (List Value)) : Checked (List Value) :=
  braced ("class " ++ className name ++ " ") members.flatten

end Script
end SchemaForge
