import SchemaForge.Builder.Sheet

/-! The header file of a C++ transaction builder. -/
namespace SchemaForge
namespace Builder

def headerIncludes (b : Builder) : Writing Unit := do
  let plugin ← b.hints.plugin
  b.writeAll ["#pragma once", "#include \"TransactionBuilder.h\""]
  b.write ("#include \"plugins/txes/" ++ plugin.spell ++ "/src/model/\x7bTRANSACTION_NAME\x7d.h\"")
  if ← b.hasKind .vector then b.write "#include <vector>"
  b.write ""

def headerClass (b : Builder) : Writing Unit := do
  let named := "\x7bCOMMENT_NAME_A_OR_AN\x7d \x7bCOMMENT_NAME\x7d"
  b.writeAll ["/// Builder for " ++ named ++ " transaction.",
    "class \x7bBUILDER_NAME\x7d : public TransactionBuilder \x7b\x7b", "public:"]
  deeper 1 (b.writeAll ["using Transaction = model::\x7bTRANSACTION_NAME\x7d;",
    "using EmbeddedTransaction = model::Embedded\x7bTRANSACTION_NAME\x7d;", ""])
  b.write "public:"
  deeper 1 (b.writeAll ["/// Creates " ++ named ++ " builder for building " ++ named ++
      " transaction from \\a signer",
    "/// for the network specified by \\a networkIdentifier.",
    "\x7bBUILDER_NAME\x7d(model::NetworkIdentifier networkIdentifier, const Key& signer);", ""])

/-- The condition of a field, as a remark on its setter. -/
def bound (v : Value) : Checked String := do
  let condition ← v.need "condition"
  let value ← v.need "condition_value"
  return s!" and {condition.spell} to `{value.spell}`"

/-- The remark on the condition of a field, if it has one. -/
def remark (v : Value) : Checked String := do if ← v.isConditional then bound v else return ""

/-- The remarks in a comment stand behind note marks. -/
def notes (comment : String) : List String := Text.splitAt " \\note " comment

/-- The comment on a setter: what it does, and the remarks line by line. -/
def commentLines (kind : FieldKind) (param remark comment : String) : List String :=
  let first := (notes comment).headD ""
  ("/// " ++ match kind with
    | .simple => s!"Sets the {first} to \\a {param}{remark}."
    | .buffer => s!"Sets the {first} to \\a {param}."
    | _ => s!"Adds \\a {param} to {first}.") ::
  ((notes comment).drop 1).map fun note => s!"/// \\note {Text.upperFirst note}."

def setterComment (b : Builder) (kind : FieldKind) (v param : Value) : Writing Unit := do
  let remark ← remark v
  let comment ← (← v.need "comments").asText
  b.writeAll (commentLines kind param.spell remark comment)

/-- Declares a setter. -/
def headerSetter (b : Builder) (kind : FieldKind) (v : Value) (setter : Setter)
    (signature : String) : Writing Unit := do
  b.setterComment kind v setter.param
  b.write s!"void {signature};\n"

def headerSetters (b : Builder) : Writing Unit := do
  b.write "public:"
  deeper 1 (b.forSetters b.headerSetter)

def headerBuilds (b : Builder) : Writing Unit := do
  b.write "public:"
  deeper 1 (b.writeAll ["/// Gets the size of \x7bCOMMENT_NAME\x7d transaction.",
    "/// \\note This returns size of a normal transaction not embedded transaction.",
    "size_t size() const;", "",
    "/// Builds a new \x7bCOMMENT_NAME\x7d transaction.",
    "std::unique_ptr<Transaction> build() const;", "",
    "/// Builds a new embedded \x7bCOMMENT_NAME\x7d transaction.",
    "std::unique_ptr<EmbeddedTransaction> buildEmbedded() const;", ""])
  b.write "private:"
  deeper 1 (b.writeAll ["template<typename TTransaction>", "size_t sizeImpl() const;", "",
    "template<typename TTransaction>", "std::unique_ptr<TTransaction> buildImpl() const;", ""])

/-- Declares the member that holds a field. -/
def headerMember (b : Builder) (v : Value) : Writing Unit := do
  let type ← b.memberType v
  let name ← v.need "name"
  b.write s!"{type} m_{name.spell};"

def headerMembers (b : Builder) : Writing Unit := do
  b.write "private:"
  deeper 1 (b.forFields b.headerMember)

/-- Writes the header file. -/
def header (b : Builder) : Writing Unit := Sections.writeAll b
  { includes := b.headerIncludes
    classHeader := b.headerClass
    setters := b.headerSetters
    builds := b.headerBuilds
    members := b.headerMembers
    footer := b.write "\x7d\x7d;" }

end Builder
end SchemaForge
