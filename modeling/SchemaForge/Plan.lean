import SchemaForge.AtomSource
import SchemaForge.ClassSource.Java
import SchemaForge.ClassSource.PythonTransaction
import SchemaForge.ClassSource.TypeScript
import SchemaForge.EnumSource
import SchemaForge.Notice
import SchemaForge.Support

/-! The files of a target language: what is planned for a schema, and how a plan becomes a file. -/
namespace SchemaForge

structure SourceFile where
  name : String
  code : List String
  deriving DecidableEq, Repr

/-- The length of a file in which a line end follows every piece of code. -/
def SourceFile.chars (f : SourceFile) : Nat := f.code.foldl (fun n piece => n + piece.length + 1) 0

/-- The text of a structure's class. -/
def ClassModel.source : Target → Schema → ClassModel → Checked String
  | .java => JavaClass.source
  | .typescript => TypeScriptClass.source
  | .python => fun s m =>
    if Target.isTransactional m.name then PythonTransaction.source s m else PythonClass.source s m

/-- A file that is still to be written. -/
inductive Plan where
  | atom (m : AtomModel)
  | enum (m : EnumModel)
  | struct (m : ClassModel)
  | support (name : String)

/-- Steps that make models one after the other, each in the schema that the last one left. -/
abbrev Planning := ExceptT Fault (StateM Schema)

namespace Plan

/-- Makes one model. The schema keeps what was written into it even if the model fails. -/
def model {α : Type} (steps : Drafting α) : Planning α := do
  let (result, draft) := steps.run.run { schema := ← get }
  set draft.schema
  result

def ofAtom (t : Target) (name : String) : Planning Plan := atom <$> model (AtomModel.build t name)

def ofEnum (t : Target) (name : String) : Planning Plan := do
  return enum (← EnumModel.build t (← get) name)

def ofStruct (t : Target) (name : String) : Planning Plan :=
  struct <$> model (ClassModel.build t name)

/-- The sorts of files. -/
inductive FileSort where
  | atom
  | enum
  | struct
  | support

/-- The file of a sort that is asked for by name. -/
def named (t : Target) (sort : FileSort) (name : Value) : Planning Plan := do
  match sort, name with
  | .support, name => return support (← name.joined)
  | .atom, .text name => ofAtom t name
  | .enum, .text name => ofEnum t name
  | .struct, .text name => ofStruct t name
  | _, name =>
    let _ ← (← get).need name
    throw .mismatch

/-- The file for a type, if it gets one. -/
def ofType? (t : Target) (name : String) : Planning (Option Plan) := do
  let sort ← (← (← get).need name).need "type"
  if sort.isByte then some <$> ofAtom t name
  else if sort.isEnum then some <$> ofEnum t name
  else if sort.isStruct && !isHidden name then some <$> ofStruct t name
  else return none

/-- All files for a schema: those of its types in order, and then the ones that accompany them. -/
def all (t : Target) : Planning (List Plan) := do
  let plans ← (← get).names.mapM (ofType? t)
  return plans.filterMap id ++ t.supportFiles.map support

def fileName (t : Target) : Plan → String
  | atom m => m.className ++ t.extension
  | enum m => m.className ++ t.extension
  | struct m => m.className ++ t.extension
  | support name => name ++ t.extension

/-- The text after the opening lines. -/
def body (t : Target) (s : Schema) : Plan → Checked String
  | atom m => AtomSource.source t m
  | enum m => EnumSource.source t m
  | struct m => m.source t s
  | support name => Support.source t s name

/-- Writes a file with so many copies of its text. -/
def writeCopies (copies : Nat) (t : Target) (notice : Notice) (s : Schema) (p : Plan) :
    Checked SourceFile := do
  let opening ← t.opening notice
  let body ← p.body t s
  return { name := p.fileName t, code := opening ++ List.replicate copies body }

def write : Target → Notice → Schema → Plan → Checked SourceFile := writeCopies 1

end Plan
end SchemaForge
