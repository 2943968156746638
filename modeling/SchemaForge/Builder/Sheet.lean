import SchemaForge.Builder.Field
import SchemaForge.Text.Template

/-! The sheet on which the code of a C++ builder is written line by line. -/
namespace SchemaForge

structure Sheet where
  code : List String := []
  /-- How far lines are moved to the right; only a number makes sense. -/
  indent : Value := .int 0

/-- Steps that write on a sheet. What was written before a fault stays. -/
abbrev Writing := ExceptT Fault (StateM Sheet)

namespace Builder

/-- The values for slots that a table gives. Something empty in its place gives none. -/
def extraSlots : Value → Checked (List (String × Value))
  | .table entries => pure entries
  | v => if v.isEmpty then pure [] else throw .mismatch

/-- The code of one line. An empty line is not indented, and the slots of any other one are filled, from
additional values before the builder's own. -/
def lineCode (b : Builder) (values indent : Value) (line : String) : Checked String := do
  if line.isEmpty then return ""
  let extra ← extraSlots values
  let tabs ← indent.copies '\t' 1
  let filled ← Text.fill (fun name => (extra ++ b.slots).lookup name) line
  return tabs ++ filled

def writeLine (b : Builder) (values : Value) (line : String) : Writing Unit := do
  let line ← b.lineCode values (← get).indent line
  modify fun sheet => { sheet with code := sheet.code ++ [line] }

/-- Writes all lines of a text with additional values for its slots. -/
def writeWith (b : Builder) (values : Value) (text : String) : Writing Unit :=
  (Text.splitOn (· == '\n') text).forM (b.writeLine values)

def write (b : Builder) (text : String) : Writing Unit := b.writeWith .null text

def writeAll (b : Builder) (lines : List String) : Writing Unit := lines.forM b.write

def shift (steps : Int) : Writing Unit := do
  let indent ← (← get).indent.compared
  modify fun sheet => { sheet with indent := .int (indent + steps) }

/-- Writes further to the right, and then again where it was before. -/
def deeper (steps : Nat) (writing : Writing Unit) : Writing Unit := do
  shift steps
  writing
  shift (-steps)

def setIndent (indent : Value) : Writing Unit := modify fun sheet => { sheet with indent }

/-- Does something for every field that the builder has. -/
def forFields (b : Builder) (step : Value → Writing Unit) : Writing Unit := do
  (← b.fields).forM fun v => do
    if isBuilt (← (← v.need "name").asText) then step v

/-- Does something for every field that has a setter: one whose value is given by a hint has none. -/
def forSetters (b : Builder) (step : FieldKind → Value → Setter → String → Writing Unit) :
    Writing Unit :=
  b.forFields fun v => do
    if (← b.hints.entry "setters" (← v.need "name")).isEmpty then
      let kind ← v.fieldKind
      let setter ← b.setter kind v
      step kind v setter (← signature setter.verb setter.type setter.param)

/-- The parts in which header and implementation differ. -/
structure Sections where
  includes : Writing Unit
  classHeader : Writing Unit
  setters : Writing Unit
  builds : Writing Unit
  members : Writing Unit
  footer : Writing Unit

/-- Writes the whole code, inside the namespace of the builders. -/
def Sections.writeAll (b : Builder) (parts : Sections) : Writing Unit := do
  parts.includes
  b.writeAll ["namespace catapult \x7b\x7b namespace builders \x7b\x7b", ""]
  setIndent (.int 1)
  parts.classHeader
  parts.setters
  parts.builds
  parts.members
  parts.footer
  setIndent (.int 0)
  b.write "\x7d\x7d\x7d\x7d"

end Builder
end SchemaForge
