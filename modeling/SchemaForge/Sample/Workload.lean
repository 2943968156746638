import SchemaForge.Run
import SchemaForge.Sample.Types
import SchemaForge.Script.Code

/-! Workloads that run the library on the sample schema, each with a report on what it did. -/
namespace SchemaForge
namespace Sample

open Value (list text)

def texts (xs : List String) : Value := list (xs.map text)

def count (n : Nat) : Value := .int n

def targets : List Target := [.java, .typescript, .python]

/-- Makes header and implementation of a builder. -/
def builderRow (writing : Builder → Writing Unit) (name : String) : Checked Value := do
  let (b, sheet) ← Builder.start builderSchema (.text notice) name
  let (result, sheet) := (writing b).run.run sheet
  result
  return list [text b.name, text b.writtenName, text b.bodyName, count sheet.code.length]

/-- Makes the builders of the sample so many times, and then once more in one run. -/
def builders (rounds : Nat) : Checked Value := do
  let names := builderSchema.names.filter Builder.isEligible
  let files ← names.mapM fun name => do
    return [← builderRow Builder.header name, ← builderRow Builder.implementation name]
  let words := ["hashes", "entries", "cats", "mosaic"].map fun w => text (Text.singular w)
  let kind ← (Value.table [("size", "other")]).fieldKind
  let round := files.flatten ++ words ++
    [text (Text.upperFirst ""), text (Text.lowerFirst ""), text kind.label]
  let (run, _) := BuilderRun.drain (.text notice) builderSchema
  return list ((List.replicate rounds round).flatten ++ [count run.length])

/-- The first entry in the description of a planned file, by name. -/
def firstFact : Plan → String × String
  | .atom _ => ("AttributeKind", "<enum 'AttributeKind'>")
  | .struct _ => ("all_constructor_params", "[...]")
  | .enum _ | .support _ => ("class_output", "[]")

def planRow (t : Target) (p : Plan) : Value :=
  let (key, value) := firstFact p
  list [text (p.fileName t), text (String.ofList ((key ++ " = '" ++ value ++ "'\n").toList.take 20))]

/-- Plans the files of one language. -/
def planFiles (t : Target) : Planning (List Value) := do
  let opening ← t.opening (.text notice)
  let plans ← Plan.all t
  return [list [text t.shapePath, text t.extension, texts t.supportFiles], count opening.length,
    list (plans.map (planRow t))]

/-- How many further types of each sort the schema has whose files are written. -/
def writtenExtras : Nat := 4

def written (t : Target) (s : Schema) : Planning (List Value) := do
  let (files, fault, _) := ClassRun.drain t (.text notice) s
  match fault with
  | some fault => throw fault
  | none => return files.map fun f => list [text f.name, count f.code.length]

/-- Plans the files of all languages for one schema, and writes those of another. -/
def files (n : Nat) : Checked Value := do
  let (planned, _) := (targets.mapM planFiles).run.run (schema n)
  let s := schema writtenExtras
  let (done, _) := (do
    return (← written .java s) ++ (← written .typescript s) ++
      (← written .python (plainSchema writtenExtras)) : Planning (List Value)).run.run s
  return list ((← planned).flatten ++ [list (← done)])

def modelRow (t : Target) (name : String) : Planning (Option Value) := do
  return (← Plan.ofType? t name).map fun p => match p with
    | .atom m => texts [m.kind.label, m.type]
    | .enum m => list [text m.className, count m.enumerators.length]
    | .struct m => list [text m.className, count m.entries.length, count m.constants.length,
        text "", text (m.className ++ ".x")]
    | .support name => text name

/-- Makes the models of all types for every language. -/
def models (n : Nat) : Checked Value := do
  let steps : Planning (List (List (Option Value))) := do
    (← get).names.mapM fun name => targets.mapM fun t => modelRow t name
  let (rows, _) := steps.run.run (schema n)
  return list ((← rows).flatten.filterMap id)

/-- What is known of an attribute among its siblings. -/
def attributeRow (s : Schema) (v : Value) : Checked Value := do
  let kind ← v.kind siblings
  let types ← targets.mapM fun t => t.typeOf s v kind
  let comment ← v.description
  let size ← s.sizeOf v
  let name ← (← v.need "type").lowerFirst
  return list (targets.map (fun _ => text kind.label) ++ types.map text ++
    [text comment, size, .bool (← v.isReserved), .bool (← v.isInline), .bool (← v.isConst),
      .bool (← v.isSorted), .bool (← v.isConditional), name])

/-- The forms of a name. -/
def nameRow (name : String) : Checked Value := do
  let phrase ← if name.isEmpty then pure "" else Text.phrase name
  return list (targets.map (fun _ => text (Target.bodyName name)) ++
    [text (Text.camelToSnake name), text (Text.snakeCase name), text (Text.upperFirst name),
      text (Text.lowerFirst name), text (Text.enumName name), text phrase, .bool !(isHidden name)])

/-- How a number of a width is read and written. -/
def widthRow (size : Value) : Checked Value := do
  return texts [← Width.javaRead size, ← Width.javaWrite size,
    (← Width.javaReverse size) "\x7b0\x7d", ← Width.scriptRead size "v", ← Width.scriptWrite size]

def conditionRow (op : String) : Value :=
  texts (targets.map fun t => t.condition op "\x7b0\x7d" "\x7b1\x7d")

/-- Names and classifies so many attributes, the sample ones over and over. -/
def naming (n : Nat) : Checked Value := do
  let s := schema 0
  let cycled := (List.range n).filterMap fun i => attributes[i % attributes.length]?
  let rows ← cycled.mapM (attributeRow s)
  let names ← ["TransferTransaction", "EmbeddedTransferTransaction", "AggregateCompleteTransaction",
    "Cosignature", "AggregateTransactionBody", "", "fooBarBaz"].mapM nameRow
  let sizes : List Value := [.int 1, .int 2, .int 4, .int 8, .int 16, "x"]
  let widths ← sizes.mapM widthRow
  let unsigned ← [1, 2].mapM fun n => do return (← Width.javaUnsigned (.int n)) "\x7b0\x7d"
  let edges := list [texts (Target.java.addImports [] "Own" "Own" none),
    text (← Width.scriptRead (.int 0) "v"), text (← Width.scriptWrite (.int 0)),
    text (Target.shapeFile "p/" (Target.python.classShape "Mosaic")),
    text (Target.shapeFile "p/" (Target.python.classShape "TransferTransaction"))]
  let loaders := ["EmbeddedTransactionBuilder", "Other"].map fun name =>
    texts ([Target.java, .typescript].map fun t => t.loaderOf name)
  return list (rows ++ [list (names ++ widths ++ [texts ((← Width.javaWrite (.int 0)) :: unsigned),
    conditionRow "has", conditionRow "equals"] ++ loaders ++ [edges])])

/-- The fields of the sample script class. -/
def scriptFields : List String := ["x", "y", "z", "u", "v", "w", "p", "q", "r", "s", "t", "k"]

/-- A script class with a constructor, accessors and one method with nested blocks. -/
def scriptClass (name : String) : Checked (List Value) := do
  let blocks : List Script.Block :=
    [{ kind := .when, rule := "this.x", lines := ["return this.x"] },
      { kind := .otherwise, lines := ["this.y = 1"] },
      { kind := .loop, rule := "< this.y", iterator := "i", lines := ["this.z += i"] },
      { lines := ["this.u = this.v", "return this.z"] }]
  let method : Script.Function := { name := "run", lines := (← blocks.mapM (·.code)).flatten }
  let accessors := scriptFields.flatMap fun f => [Script.Function.getter f, Script.Function.setter f]
  let constructor :=
    Script.Function.ofValues (scriptFields.map fun f => (.text f, .int 0)) (.list ["x", "y"])
  Script.classCode name (← ([constructor] ++ accessors ++ [method]).mapM (·.code))

/-- Makes so many script classes. -/
def scripts (n : Nat) : Checked Value := do
  return list (← (List.range n).mapM fun i => do
    let lines := count (← scriptClass s!"Thing{i}").length
    return list [text (Script.className s!"Thing{i}"), text (Script.getterName "x"),
      text (Script.setterName "x"), lines, lines])

/-- A workload with its one parameter, which has a usual value. -/
structure Workload where
  name : String
  parameter : String
  usual : Int
  work : Nat → Checked Value

def workloads : List Workload :=
  [⟨"bench_cpp_builder", "n_rounds", 60, builders⟩,
    ⟨"bench_file_generators", "n_extra_types", 60, files⟩,
    ⟨"bench_mako_class_analysis", "n_extra_types", 60, models⟩,
    ⟨"bench_helpers", "n_attrs", 60, naming⟩,
    ⟨"bench_javascript_builder", "n_classes", 60, scripts⟩]

/-- The value of the parameter in a table of arguments, in which nothing else may stand. A negative
number counts as zero. -/
def Workload.argument (w : Workload) : Value → Checked Nat
  | .table [] => pure w.usual.toNat
  | .table [(key, v)] => do if key = w.parameter then return (← v.compared).toNat else throw .mismatch
  | _ => throw .mismatch

/-- The report of the last of so many times that a workload is done. -/
def report (name arguments times : Value) : Checked Value := do
  let some w := workloads.find? fun w => name == w.name | throw .unsupported
  let n ← w.argument arguments
  if (← times.compared) ≤ 0 then throw .outOfRange
  w.work n

end Sample
end SchemaForge
