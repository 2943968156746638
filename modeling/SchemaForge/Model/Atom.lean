import SchemaForge.Model.Class

/-! The model of the class of a type that is one number or one sequence of bytes. -/
namespace SchemaForge

structure AtomModel where
  name : String
  field : String
  size : Value
  className : String
  kind : Kind
  type : String
  comments : String

namespace AtomModel

/-- The model of a type that has its name already. -/
def ofDeclared (t : Target) (s : Schema) (name className : String) : Checked AtomModel := do
  let decl ← s.need name
  let size ← decl.need "size"
  let kind ← decl.kind .null
  let type ← t.typeOf s decl kind
  let comments ← decl.description
  return { name, size, className, kind, type, comments, field := Text.lowerFirst name }

def build (t : Target) (name : String) : Drafting AtomModel := do
  let className ← ClassModel.classNameOf (← Drafting.schema) name
  Drafting.writeFact name "name" (Text.lowerFirst name)
  ofDeclared t (← Drafting.schema) name className

end AtomModel
end SchemaForge
