import SchemaForge.Target

/-! The model of a structure's class: the attributes of the structure and of everything that it
inlines, in order, with what the class has to know about each. Making a model writes the derived names
of the structures and attributes that it passes back into the schema, where every later model sees
them. -/
namespace SchemaForge

/-- What an attribute brings into every class that has it. -/
structure Member where
  site : Site
  kind : Kind
  name : String
  comment : String
  baseType : Value
  varType : String
  isFinal : Bool
  className : String
  size : Value
  isConditional : Bool
  isReserved : Bool
  isAggregate : Bool

/-- An attribute as a member of a class. -/
structure Entry extends Member where
  isSuper : Bool
  aggregateName : Option String
  aggregateClass : Value
  isInline : Bool
  parent : Option Site
  conditionSite : Option Site
  /-- The value of a discriminator that a constructor fixes. -/
  conditionValue : Value := .null
  /-- Whether a constructor takes the attribute as an argument. -/
  isProvided : Bool := true
  /-- Whether the attribute stands before the discriminator on which it depends. -/
  readBefore : Bool

/-- An attribute with a fixed value. -/
structure Constant where
  site : Site
  kind : Kind
  name : Value
  value : Value
  size : Value
  varType : String
  type : Value
  baseType : Value

/-- The inline attribute through which other attributes are reached. -/
structure Aggregate where
  name : String
  type : String

structure ClassModel where
  name : String
  className : String
  base : Option String
  baseClass : Option String
  comments : String
  bodyName : String
  entries : List Entry
  constants : List Constant
  imports : List String
  parameters : List Entry
  /-- The parameters of each constructor, with the discriminators that it fixes. -/
  constructors : List (List Entry)

/-- What changes while a model is made. The lines reported so far stand in reverse order. -/
structure Draft where
  schema : Schema
  report : List String := []
  entries : List Entry := []
  constants : List Constant := []
  imports : List String := []

/-- Notes at an attribute the structure in which it stands, when the class of the structure `name` takes
it from another one. -/
def Schema.noteOwner (s : Schema) (name : String) (site : Site) : Schema :=
  if site.owner = name || isHidden site.owner then s
  else s.setEntry site "aggregate_class" site.owner

/-- Steps that make a model. What a step has written stays written when a later step fails. -/
abbrev Drafting := ExceptT Fault (StateM Draft)

namespace Drafting

def schema : Drafting Schema := return (← get).schema

def writeFact (name key : String) (value : Value) : Drafting Unit :=
  modify fun d => { d with schema := d.schema.setFact name key value }

def writeEntry (site : Site) (key : String) (value : Value) : Drafting Unit :=
  modify fun d => { d with schema := d.schema.setEntry site key value }

def tell (line : String) : Drafting Unit := modify fun d => { d with report := line :: d.report }

def declaration (name : String) : Drafting Value := do (← schema).need name

/-- The attributes of a structure as they are now. -/
def layout (name : String) : Drafting (List Value) := do (← declaration name).layout

/-- The record of an attribute as it is now. -/
def attributeAt (site : Site) : Drafting Record := do (← schema).recordAt site

end Drafting

namespace ClassModel

/-- The class under construction, as far as its attributes depend on it. -/
structure Frame where
  target : Target
  name : String
  className : String
  base : Option String
  baseClass : Option String

def tabs (unit : String) (depth : Nat) : String := String.join (List.replicate depth unit)

/-- An attribute apart from the class in which it stands. -/
def memberOf (t : Target) (s : Schema) (site : Site) : Checked Member := do
  let r ← s.recordAt site
  let kind ← r.value.kind (.list (← (← s.need site.owner).layout))
  let comment ← r.value.description
  let name ← (← r.need "name").joined
  let size ← s.sizeOf r
  let varType ← t.typeOf s r kind
  let type := (r.get? "type").getD .null
  let baseType ← s.sortOf type
  let className ← s.className type r
  let isReserved ← r.value.isReserved
  return {
    site, kind, name, comment, baseType, varType, className, size, isReserved
    isFinal := name != "size" && !r.isConditional
    isConditional := r.isConditional
    isAggregate := r.isInline }

/-- Whether an attribute reached through `aggregate` belongs to the base class. -/
def isInherited (base : Option String) (r : Record) (aggregate : Option Aggregate) : Bool :=
  match base with
  | none => false
  | some b =>
    if r.isInline then (r.get? "type").getD .null == b else aggregate.any (·.type == b)

/-- Where the discriminator stands on which an attribute of a structure depends. -/
def discriminatorOf (s : Schema) (name : String) (r : Record) : Checked (Option Site) :=
  match r.get? "condition" with
  | some c => s.findSite name "name" c
  | none => pure none

/-- An attribute as a member of the class, when the members in front of it are known. -/
def entryOf (f : Frame) (s : Schema) (before : List Entry) (site : Site)
    (aggregate : Option Aggregate) : Checked Entry := do
  let member ← memberOf f.target s site
  let r ← s.recordAt site
  let isSuper := isInherited f.base r aggregate
  let conditionSite ← discriminatorOf s f.name r
  let parent ← s.findSite f.name "size" member.name
  return {
    toMember := member
    isSuper, parent, conditionSite
    aggregateName := aggregate.map (·.name)
    aggregateClass := (r.get? "aggregate_class").getD .null
    isInline := !isSuper && aggregate.isSome
    readBefore := (r.get? "condition").any fun c => before.all fun e => c != .text e.name }

def addEntry (f : Frame) (site : Site) (aggregate : Option Aggregate) : Drafting Unit := do
  let d ← get
  let e ← entryOf f d.schema d.entries site aggregate
  set { d with
    entries := d.entries ++ [e]
    imports := f.target.addImports d.imports e.varType f.className f.baseClass }

/-- An attribute with a fixed value as a constant of the class. -/
def constantOf (t : Target) (s : Schema) (site : Site) : Checked Constant := do
  let r ← s.recordAt site
  let kind ← r.value.kind (.list (← (← s.need site.owner).layout))
  let name ← r.need "name"
  let value ← r.need "value"
  let size ← s.sizeOf r
  let varType ← t.typeOf s r kind
  let type := (r.get? "type").getD .null
  let baseType ← s.sortOf type
  return { site, kind, name, value, size, varType, type, baseType }

def addConstant (f : Frame) (site : Site) : Drafting Unit := do
  let c ← constantOf f.target (← Drafting.schema) site
  Drafting.tell "\x7b...\x7d"
  modify fun d => { d with constants := d.constants ++ [c] }

/-- Reports an attribute and adds it to the class. -/
def visit (f : Frame) (site : Site) (aggregate : Option Aggregate) (depth : Nat) : Drafting Unit := do
  let name ← (← (← Drafting.attributeAt site).need "name").joined
  Drafting.tell (tabs "\t " (depth + 1) ++ " " ++ name)
  addEntry f site aggregate

/-- Takes an inline attribute into the class, under the name of its structure. Only structures that get
a class make a member. The answer is the structure. -/
def takeInline (f : Frame) (r : Record) (site : Site) (aggregate : Option Aggregate) (depth : Nat) :
    Drafting String := do
  let type ← r.need "type"
  let name ← type.lowerFirst
  Drafting.writeEntry site "name" name
  (if isHidden type then pure () else visit f site aggregate depth)
  type.joined

/-- Takes an attribute with contents of its own into the class. -/
def takePlain (f : Frame) (r : Record) (site : Site) (aggregate : Option Aggregate) (depth : Nat) :
    Drafting Unit :=
  if r.isConst then addConstant f site
  else if r.isVar || r.isFill || !r.has "disposition" then visit f site aggregate depth
  else pure ()

/-- Takes one attribute into the class. The answer is the structure that the attribute inlines. -/
def meet (f : Frame) (site : Site) (aggregate : Option Aggregate) (depth : Nat) :
    Drafting (Option String) := do
  modify fun d => { d with schema := d.schema.noteOwner f.name site }
  let r ← Drafting.attributeAt site
  if r.isInline then some <$> takeInline f r site aggregate depth
  else (fun _ => none) <$> takePlain f r site aggregate depth

/-- Contents of an inlined structure that gets a class belong to the outermost such attribute. -/
def outermost (aggregate : Option Aggregate) (type : String) : Option Aggregate :=
  if aggregate.isNone && !isHidden type then some ⟨Text.lowerFirst type, type⟩ else aggregate

/-- Visits the attributes of a structure in order, and inside each inline attribute the attributes of
its type. -/
def walk (f : Frame) (limit : Nat) (structName : String) (aggregate : Option Aggregate) (depth : Nat) :
    Drafting Unit := do
  match limit with
  | 0 => throw .endless
  | limit + 1 =>
    Drafting.tell (tabs "\t" depth ++ "- " ++ structName)
    let layout ← Drafting.layout structName
    (List.range layout.length).forM fun index => do
      match ← meet f ⟨structName, index⟩ aggregate depth with
      | none => pure ()
      | some inner => walk f limit inner (outermost aggregate inner) (depth + 1)

/-- The first inline attribute whose type gets a class makes the base class. -/
def findBase (s : Schema) : List Value → Checked (Option String × Option String)
  | [] => pure (none, none)
  | v :: rest => do
    if !(← v.isInline) then return ← findBase s rest
    let type ← v.need "type"
    if isHidden type then return ← findBase s rest
    let className ← s.className type (← s.need type)
    return (some type.spell, some className)

/-- A way to fix a discriminator: its name, and the value; `known` if some attribute asks for it. -/
structure Choice where
  discriminator : Value
  value : Value
  known : Bool
  deriving BEq

/-- The attributes that depend on a discriminator by equality, with the type of the discriminator. -/
def equalities (s : Schema) : List Entry → Checked (List (Entry × Value))
  | [] => pure []
  | e :: rest => do
    if !e.isConditional then return ← equalities s rest
    if (← (s.attributeAt e.site).need "condition_operation") == "has" then
      return ← equalities s rest
    let some site := e.conditionSite | throw .mismatch
    let type ← s.need (← (s.attributeAt site).need "type")
    return (e, type) :: (← equalities s rest)

def Choice.before (a b : Choice) : Bool :=
  let (a₁, b₁) := (a.discriminator.spell, b.discriminator.spell)
  a₁ < b₁ || a₁ == b₁ && a.value.spell ≤ b.value.spell

/-- An attribute with each name of a value in the enumeration of its discriminator. -/
def enumerated : Entry × Value → Checked (List (Entry × Value))
  | (e, type) => do return (← (← type.values).mapM (·.need "name")).map fun value => (e, value)

/-- The name of an attribute's discriminator, the value that the attribute asks for, and the value that
the discriminator may have. -/
def asked (s : Schema) : Entry × Value → Checked (Value × Value × Value)
  | (e, value) => do
    let some site := e.conditionSite | throw .mismatch
    return (← (s.attributeAt site).need "name",
      ← (s.attributeAt e.site).need "condition_value", value)

/-- Every discriminator that is compared for equality, with every value of its enumeration, by name
of the discriminator and then by name of the value. -/
def choices (s : Schema) (equalities : List (Entry × Value)) : Checked (List Choice) := do
  let enumerated ← equalities.mapM enumerated
  let asked ← enumerated.flatten.mapM (asked s)
  let wanted ← asked.mapM (·.2.1.asKey)
  let all ← asked.mapM fun (discriminator, _, value) => do
    let value ← value.asKey
    let discriminator ← discriminator.asKey
    return ({ discriminator, value, known := wanted.contains value } : Choice)
  return all.eraseDups.mergeSort Choice.before

/-- A parameter under a choice: the discriminator is fixed, and what depends on another of its values
is left out. -/
def choose (s : Schema) (c : Choice) (e : Entry) : Checked Entry := do
  if c.discriminator == e.name then return { e with conditionValue := c.value }
  let r := s.attributeAt e.site
  if !r.is "condition" c.discriminator then return e
  let asked ← r.need "condition_value"
  if asked == (if c.known then c.value else .null) then return e
  return { e with isProvided := false }

def isParameter (t : Target) (e : Entry) : Bool :=
  e.kind != .sizeField && (t == .python || e.name != "size")

/-- The name of the class of a structure, which must have a name itself. -/
def classNameOf (s : Schema) (name : String) : Checked String := do
  let className ← s.className name (← s.need name)
  if name.isEmpty then throw .outOfRange else return className

/-- What is known of a class before its attributes are, with its comment. -/
def frameOf (t : Target) (name className : String) (s : Schema) : Checked (Frame × String) := do
  let (base, baseClass) ← findBase s (← (← s.need name).layout)
  let comments ← (← s.need name).description
  return (⟨t, name, className, base, baseClass⟩, comments)

/-- The parameters of each constructor: one for every choice of the discriminators, if there are any. -/
def constructorsOf (s : Schema) (entries parameters : List Entry) :
    Checked (List (List Entry)) := do
  let equalities ← equalities s entries
  let choices ← choices s equalities
  if equalities.isEmpty then return [parameters]
  else choices.mapM fun c => parameters.mapM (choose s c)

/-- The model with all its attributes. -/
def finish (f : Frame) (comments : String) (d : Draft) : Checked ClassModel := do
  let parameters := d.entries.filter (isParameter f.target)
  let constructors ← constructorsOf d.schema d.entries parameters
  return { name := f.name, className := f.className, base := f.base, baseClass := f.baseClass
           comments, parameters, constructors
           bodyName := Target.bodyName f.name
           entries := d.entries, constants := d.constants, imports := d.imports }

/-- Makes the model of a structure. -/
def build (t : Target) (name : String) : Drafting ClassModel := do
  let className ← classNameOf (← Drafting.schema) name
  Drafting.writeFact name "name" (Text.lowerFirst name)
  let s ← Drafting.schema
  let (f, comments) ← frameOf t name className s
  walk f s.depthLimit name none 0
  finish f comments (← get)

/-- The attributes that the class itself holds. -/
def own (m : ClassModel) : List Entry := m.entries.filter fun e => !e.isSuper && !e.isInline

end ClassModel
end SchemaForge
