import SchemaForge.Builder.Header
import SchemaForge.Builder.Implementation
import SchemaForge.Plan

/-! Runs that give the files for a schema one after the other. -/
namespace SchemaForge

/-- How far a run over the classes of a target language has come. -/
inductive ClassRun where
  /-- Never started. -/
  | idle
  /-- Started, with nothing planned yet. -/
  | started
  | pending (plans : List Plan)
  /-- All files are written, or a fault ended the run. -/
  | done

namespace ClassRun

/-- While a run is under way, a search without a result is a fault like any other. -/
def interrupt : Fault → Fault
  | .notFound => .interrupted
  | fault => fault

/-- The next file of a list of plans. -/
def nextOf (t : Target) (notice : Notice) (s : Schema) : List Plan → Checked SourceFile × ClassRun
  | [] => (.error .notFound, done)
  | p :: rest =>
    match p.write t notice s with
    | .ok file => (.ok file, pending rest)
    | .error fault => (.error (interrupt fault), done)

/-- The next file, with the run and the schema after it. The first file waits until all are planned. -/
def next (t : Target) (notice : Notice) (s : Schema) :
    ClassRun → Checked SourceFile × ClassRun × Schema
  | idle => (.error .mismatch, idle, s)
  | done => (.error .notFound, done, s)
  | pending plans =>
    let (result, run) := nextOf t notice s plans
    (result, run, s)
  | started =>
    match (Plan.all t).run.run s with
    | (.ok plans, s) =>
      let (result, run) := nextOf t notice s plans
      (result, run, s)
    | (.error fault, s) => (.error (interrupt fault), done, s)

/-- Writes planned files until there are none or a fault comes up. -/
def writeAll (t : Target) (notice : Notice) (s : Schema) : List Plan → List SourceFile × Option Fault
  | [] => ([], none)
  | p :: rest =>
    match p.write t notice s with
    | .ok file =>
      let (files, fault) := writeAll t notice s rest
      (file :: files, fault)
    | .error fault => ([], some (interrupt fault))

/-- All files of a new run, and the fault that ended it if there was one. -/
def drain (t : Target) (notice : Notice) (s : Schema) : List SourceFile × Option Fault × Schema :=
  match (Plan.all t).run.run s with
  | (.ok plans, s) =>
    let (files, fault) := writeAll t notice s plans
    (files, fault, s)
  | (.error fault, s) => ([], some (interrupt fault), s)

end ClassRun

namespace Builder

/-- Whether builders are made for a type. -/
def isEligible (name : String) : Bool :=
  Text.endsWith "Transaction" name &&
    !(["Aggregate", "Embedded", "Transaction"].any (Text.startsWith · name))

/-- A builder with a sheet that holds the notice. -/
def start (s : Schema) (notice : Notice) (name : String) : Checked (Builder × Sheet) := do
  let b ← ofTransaction s name
  return (b, { code := ← notice.lines })

/-- The file that comes from writing for a transaction. -/
def fileOf (writing : Builder → Writing Unit) (extension : String) (s : Schema) (notice : Notice)
    (name : String) : Checked SourceFile := do
  let (b, sheet) ← start s notice name
  let (result, sheet) := (writing b).run.run sheet
  result
  return { name := b.name ++ extension, code := sheet.code }

def headerFile : Schema → Notice → String → Checked SourceFile := fileOf header ".h"

def codeFile : Schema → Notice → String → Checked SourceFile := fileOf implementation ".cpp"

end Builder

/-- How far a run over the C++ builders has come. -/
structure BuilderRun where
  /-- The names that are still to be looked at, once the run has started. -/
  remaining : Option (List String) := none
  /-- The transaction whose header is written and whose implementation is not. -/
  awaiting : Option String := none
  deriving DecidableEq, Repr

namespace BuilderRun

def start (s : Schema) : BuilderRun := { remaining := some s.names }

/-- Uses up the names until the first one with builders, and that one too. While an implementation is
due there is no such name, and none is used up. -/
def advance (r : BuilderRun) : Checked (Option String) × BuilderRun :=
  match r.awaiting, r.remaining with
  | some _, _ => (.ok none, r)
  | none, none => (.error .mismatch, r)
  | none, some names =>
    match names.dropWhile (!Builder.isEligible ·) with
    | [] => (.error .notFound, { r with remaining := some [] })
    | name :: rest => (.ok (some name), { r with remaining := some rest })

/-- The next file, with the run after it. A header that fails is passed over, an implementation that
fails stays due. -/
def next (notice : Notice) (s : Schema) (r : BuilderRun) : Checked SourceFile × BuilderRun :=
  match r.awaiting with
  | some name =>
    match Builder.codeFile s notice name with
    | .ok file => (.ok file, { r with awaiting := none })
    | .error fault => (.error fault, r)
  | none =>
    match r.advance with
    | (.error fault, r) => (.error fault, r)
    | (.ok none, r) => (.error .notFound, r)
    | (.ok (some name), r) =>
      match Builder.headerFile s notice name with
      | .ok file => (.ok file, { r with awaiting := some name })
      | .error fault => (.error fault, r)

/-- A search without a result ends a run without a fault. -/
def fault? : Fault → Option Fault
  | .notFound => none
  | fault => some fault

def drainNames (notice : Notice) (s : Schema) :
    List String → List SourceFile × Option Fault × BuilderRun
  | [] => ([], none, { remaining := some [] })
  | name :: rest =>
    if !Builder.isEligible name then drainNames notice s rest else
    match Builder.headerFile s notice name with
    | .error fault => ([], fault? fault, { remaining := some rest })
    | .ok header =>
      match Builder.codeFile s notice name with
      | .error fault => ([header], fault? fault, { remaining := some rest, awaiting := some name })
      | .ok code =>
        let (files, fault, run) := drainNames notice s rest
        (header :: code :: files, fault, run)

/-- All files of a new run up to the first fault. -/
def drain (notice : Notice) (s : Schema) : List SourceFile × Option Fault × BuilderRun :=
  drainNames notice s s.names

end BuilderRun

/-- What a run makes: the classes of a language, or the builders. -/
inductive Product where
  | classes (t : Target)
  | builders
  deriving DecidableEq, Repr

namespace Product

/-- All products by name, each with what makes it. -/
def catalogue : List (Product × String × String) :=
  [(builders, "cpp_builder", "BuilderGenerator"), (classes .java, "java", "JavaFileGenerator"),
    (classes .typescript, "typescript", "TypescriptFileGenerator"),
    (classes .python, "python", "PythonFileGenerator")]

def ofName (name : Value) : Checked Product := do
  let name ← name.asKey
  Checked.require name ((catalogue.find? fun (_, known, _) => name == known).map (·.1))

end Product

inductive Run where
  | classes (t : Target) (progress : ClassRun)
  | builders (progress : BuilderRun)

namespace Run

def idle : Product → Run
  | .classes t => classes t .idle
  | .builders => builders {}

/-- Starts a run from the beginning. -/
def start (s : Schema) : Run → Run
  | classes t _ => classes t .started
  | builders _ => builders (.start s)

def next (notice : Notice) (s : Schema) : Run → Checked SourceFile × Run × Schema
  | classes t progress =>
    let (result, progress, s) := progress.next t notice s
    (result, classes t progress, s)
  | builders progress =>
    let (result, progress) := progress.next notice s
    (result, builders progress, s)

def advance : Run → Checked (Option String) × Run
  | classes t progress => (.error .unsupported, classes t progress)
  | builders progress =>
    let (result, progress) := progress.advance
    (result, builders progress)

/-- Starts a run and takes all its files. -/
def drain (notice : Notice) (s : Schema) : Run → List SourceFile × Option Fault × Run × Schema
  | classes t _ =>
    let (files, fault, s) := ClassRun.drain t notice s
    (files, fault, classes t .done, s)
  | builders _ =>
    let (files, fault, progress) := BuilderRun.drain notice s
    (files, fault, builders progress, s)

end Run
end SchemaForge
