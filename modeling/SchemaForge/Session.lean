import SchemaForge.Run

/-! Runs that share one schema. -/
namespace SchemaForge

structure Session where
  schema : Schema
  notice : Notice
  runs : List (Value × Run) := []

namespace Session

inductive Step where
  /-- Makes a run for a product and keeps it under a name. -/
  | new (id product : Value)
  | start (id : Value)
  | next (id : Value)
  | drain (id : Value)
  /-- Asks for the name of the next builder without making it. -/
  | advance (id : Value)
  /-- Asks for the declaration of a type as it is now. -/
  | show (type : Value)

inductive Answer where
  | done
  | file (f : SourceFile)
  | files (fs : List SourceFile)
  | name (name : Option String)
  | type (declared : Value)

def put (id : Value) (run : Run) : List (Value × Run) → List (Value × Run)
  | [] => [(id, run)]
  | (i, r) :: rest => if i == id then (i, run) :: rest else (i, r) :: put id run rest

def keep (session : Session) (id : Value) (run : Run) (s : Schema) : Session :=
  { session with runs := put id run session.runs, schema := s }

/-- Does something with a run that is known by its name. -/
def withRun (session : Session) (id : Value) (act : Run → Checked Answer × Run × Schema) :
    Checked Answer × Session :=
  match id.asKey, session.runs.lookup id with
  | .error fault, _ => (.error fault, session)
  | .ok id, none => (.error (.missing id), session)
  | .ok id, some run =>
    let (answer, run, s) := act run
    (answer, session.keep id run s)

def step (session : Session) : Step → Checked Answer × Session
  | .new id product =>
    match Product.ofName product, id.asKey with
    | .ok product, .ok id => (.ok .done, session.keep id (.idle product) session.schema)
    | .error fault, _ | _, .error fault => (.error fault, session)
  | .start id => session.withRun id fun run => (.ok .done, run.start session.schema, session.schema)
  | .next id => session.withRun id fun run =>
    let (file, run, s) := run.next session.notice session.schema
    (file.map .file, run, s)
  | .drain id => session.withRun id fun run =>
    match run.drain session.notice session.schema with
    | (files, none, run, s) => (.ok (.files files), run, s)
    | (_, some fault, run, s) => (.error fault, run, s)
  | .advance id => session.withRun id fun run =>
    let (name, run) := run.advance
    (name.map .name, run, session.schema)
  | .show type => ((session.schema.need type).map .type, session)

/-- The answers to steps that follow one another. -/
def run (session : Session) : List Step → List (Checked Answer)
  | [] => []
  | step :: rest =>
    let (answer, session) := session.step step
    answer :: session.run rest

end Session
end SchemaForge
