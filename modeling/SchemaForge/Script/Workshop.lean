import SchemaForge.Script.Code

/-! A workshop holds blocks, functions and classes under names and lets them grow step by step. A
class keeps hold of the functions added to it, so it shows what happens to them later, also after
their names have passed to something else. -/
namespace SchemaForge
namespace Script

inductive Member where
  | made (f : Function)
  | shared (place : Nat)

inductive Item where
  | block (b : Block)
  | function (f : Function)
  | class (name : Value) (members : List Member)

structure Workshop where
  items : List Item := []
  places : List (Value × Nat) := []

/-- What a step does; kinds of blocks and functions are given by their spelling. -/
inductive Step where
  | block (id : Value)
  | function (id : Value) (kind : Option Value)
  | class (id name : Value)
  | wrap (id kind rule iterator : Value)
  | addLines (id lines : Value)
  | addBlock (id block : Value)
  | setName (id name : Value)
  | setParams (id params : Value)
  | addConstructor (id values params : Value)
  | addGetterSetter (id field : Value)
  | addFunction (id function : Value)
  | get (id : Value)
  | indent (lines count : Value)

def BlockKind.spellings : List (String × BlockKind) :=
  [("NONE", .plain), ("IF", .when), ("ELSE", .otherwise), ("ELIF", .otherwiseWhen), ("FOR", .loop)]

def FunctionKind.spellings : List (String × FunctionKind) :=
  [("FUNCTION", .method), ("ARROW_FUNCTION", .arrow), ("CONSTRUCTOR", .constructor),
    ("STATIC", .static)]

def kindNamed {α : Type} (spellings : List (String × α)) (name : Value) : Checked α := do
  let name ← name.asKey
  Checked.require name (name.text?.bind fun n => spellings.lookup n)

/-- The pairs of names and values in a list. -/
def pairsIn : Value → Checked (List (Value × Value))
  | .table entries => pure (entries.map fun (name, value) => (.text name, value))
  | v => do
    (← v.items).mapM fun pair => do
      match ← pair.items with
      | [name, value] => return (← name.asKey, value)
      | _ => throw .malformed

/-- Later pairs overwrite the value of an earlier pair with the same name, in its place. -/
def assignAll (pairs : List (Value × Value)) : List (Value × Value) :=
  pairs.foldl (fun values (name, value) =>
    if values.any (·.1 == name) then values.map fun p => if p.1 == name then (p.1, value) else p
    else values ++ [(name, value)]) []

namespace Workshop

/-- The code of the item at a place. The bound is reached only if a class holds itself. -/
def codeAt (w : Workshop) : Nat → Nat → Checked (List Value)
  | 0, _ => throw .endless
  | bound + 1, place =>
    match w.items[place]? with
    | none => throw .unsupported
    | some (.block b) => b.code
    | some (.function f) => f.code
    | some (.class name members) => do
      let codes ← members.mapM fun
        | .made f => f.code
        | .shared p => w.codeAt bound p
      classCode name codes

def code (w : Workshop) (place : Nat) : Checked (List Value) :=
  w.codeAt (w.items.length + 1) place

def place (w : Workshop) (id : Value) : Checked Nat := do
  let id ← id.asKey
  Checked.require id (w.places.lookup id)

def add (w : Workshop) (id : Value) (item : Item) : Checked Workshop := do
  let id ← id.asKey
  return { items := w.items ++ [item],
           places := (id, w.items.length) :: w.places.filter fun p => !(p.1 == id) }

/-- Changes the item of a name, if the change is one that items of its sort offer. -/
def update (w : Workshop) (id : Value) (change : Item → Checked Item) : Checked Workshop := do
  let place ← w.place id
  match w.items[place]? with
  | none => throw .unsupported
  | some item => return { w with items := w.items.set place (← change item) }

def appendLines (lines : Checked (List Value)) : Item → Checked Item
  | .block b => do return .block { b with lines := b.lines ++ (← lines) }
  | .function f => do return .function { f with lines := f.lines ++ (← lines) }
  | .class _ _ => throw .unsupported

def changeBlock (change : Block → Checked Block) : Item → Checked Item
  | .block b => return .block (← change b)
  | _ => throw .unsupported

def changeFunction (change : Function → Function) : Item → Checked Item
  | .function f => pure (.function (change f))
  | _ => throw .unsupported

def addMembers (members : Checked (List Member)) : Item → Checked Item
  | .class name old => do return .class name (old ++ (← members))
  | _ => throw .unsupported

/-- The change that a step makes to the item of its name. -/
def changeOf (w : Workshop) : Step → Option (Value × (Item → Checked Item))
  | .wrap id kind rule iterator => some (id, changeBlock fun b => do
      return { b with kind := ← kindNamed BlockKind.spellings kind, rule, iterator })
  | .addLines id lines => some (id, appendLines lines.items)
  | .addBlock id block => some (id, appendLines do w.code (← w.place block))
  | .setName id name => some (id, changeFunction ({ · with name }))
  | .setParams id params => some (id, changeFunction ({ · with params }))
  | .addConstructor id values params => some (id, addMembers do
      return [.made (.ofValues (assignAll (← pairsIn values)) params)])
  | .addGetterSetter id field => some (id, addMembers do
      let field ← field.asText
      return [.made (.getter field), .made (.setter field)])
  | .addFunction id function => some (id, addMembers do return [.shared (← w.place function)])
  | _ => none

/-- The answer to a step, if it has one, and the workshop after it. -/
def perform (w : Workshop) (s : Step) : Checked (Option (List Value) × Workshop) := do
  match s with
  | .block id => return (none, ← w.add id (.block {}))
  | .function id kind =>
    let kind ← match kind with
      | some name => kindNamed FunctionKind.spellings name
      | none => pure .method
    return (none, ← w.add id (.function { kind }))
  | .class id name => return (none, ← w.add id (.class name []))
  | .get id => return (some (← w.code (← w.place id)), w)
  | .indent lines count => return (some (← indentBy count (← lines.items)), w)
  | s =>
    match w.changeOf s with
    | some (id, change) => return (none, ← w.update id change)
    | none => return (none, w)

/-- Performs a step; a step that fails changes nothing. -/
def step (w : Workshop) (s : Step) : Checked (Option (List Value)) × Workshop :=
  match w.perform s with
  | .ok (answer, w') => (.ok answer, w')
  | .error fault => (.error fault, w)

def run (w : Workshop) : List Step → List (Checked (Option (List Value)))
  | [] => []
  | s :: steps => let (answer, w') := w.step s; answer :: w'.run steps

end Workshop
end Script
end SchemaForge
