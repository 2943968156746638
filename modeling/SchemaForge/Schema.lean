import SchemaForge.Text.Blank
import SchemaForge.Value.Name

/-! Schemas: named types in the order of their declaration. A type is a record; that of a structure has
a layout, which lists attributes, and that of an enumeration a list of values. -/
namespace SchemaForge

structure Schema where
  types : List (String × Value) := []
  deriving Inhabited

/-- Where an attribute stands: the structure that declares it and its position in the layout. -/
structure Site where
  owner : String
  index : Nat
  deriving DecidableEq, Inhabited, Repr

namespace Value

/-- What the layout of a type lists. -/
def layout (type : Value) : Checked (List Value) := do (← type.need "layout").items

/-- What the values of an enumeration list. -/
def values (type : Value) : Checked (List Value) := do (← type.need "values").items

end Value

namespace Schema

def get? (s : Schema) (name : String) : Option Value := s.types.lookup name

/-- The type of a name, if there is one. -/
def find (s : Schema) (name : Value) : Checked (Option Value) := Value.entryIn s.types name

/-- The type of a name. -/
def need (s : Schema) (name : Value) : Checked Value := do Checked.require name (← s.find name)

def size (s : Schema) : Nat := s.types.length

def names (s : Schema) : List String := s.types.map (·.1)

def attributeAt? (s : Schema) (site : Site) : Option Record := do
  match (← (← s.get? site.owner).record?).get? "layout" with
  | some (.list layout) => (← layout[site.index]?).record?
  | _ => none

def attributeAt (s : Schema) (site : Site) : Record := (s.attributeAt? site).getD {}

def recordAt (s : Schema) (site : Site) : Checked Record :=
  match s.attributeAt? site with
  | some r => pure r
  | none => throw .mismatch

/-- Changes one type. -/
def update (s : Schema) (name : String) (change : Value → Value) : Schema :=
  ⟨s.types.map fun (n, type) => if n = name then (n, change type) else (n, type)⟩

/-- Gives an entry of a type a new value. -/
def setFact (s : Schema) (name key : String) (value : Value) : Schema :=
  s.update name (·.put key value)

/-- Gives an entry of an attribute a new value. -/
def setEntry (s : Schema) (site : Site) (key : String) (value : Value) : Schema :=
  s.update site.owner fun type =>
    type.modifyEntry "layout" fun layout => layout.modifyItem site.index (·.put key value)

theorem need_text (s : Schema) (name : String) :
    s.need name = Checked.require name (s.get? name) := rfl

end Schema

/-- The contents of a layout with the place of each attribute. -/
def sited (owner : String) (layout : List Value) : List (Site × Value) :=
  layout.mapIdx fun i v => (⟨owner, i⟩, v)

end SchemaForge
