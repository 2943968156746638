import SchemaForge.Builder.Sheet

/-! The implementation file of a C++ transaction builder. -/
namespace SchemaForge
namespace Builder

def codeIncludes (b : Builder) : Writing Unit := do
  b.write "#include \"\x7bBUILDER_NAME\x7d.h\""
  (← b.hints.items "includes").forM fun file => b.write s!"#include \"{file.spell}\""
  b.write ""

/-- Initialises the member that holds a field. -/
def codeMember (b : Builder) (v : Value) : Writing Unit := do
  let name ← v.need "name"
  b.write s!", m_{name.spell}()"

def codeConstructor (b : Builder) : Writing Unit := do
  b.write ("\x7bBUILDER_NAME\x7d::\x7bBUILDER_NAME\x7d(" ++
    "model::NetworkIdentifier networkIdentifier, const Key& signer)")
  deeper 2 do
    b.write ": TransactionBuilder(networkIdentifier, signer)"
    b.forFields b.codeMember
  b.writeAll ["\x7b\x7b\x7d\x7d", ""]

/-- The setter of a field that is known by its name. -/
def setterOf (b : Builder) (name : Value) : Checked (Value × Setter) := do
  let v ← b.field name
  return (v, ← b.setter (← v.fieldKind) v)

/-- Sets the discriminator on which a field depends. -/
def discriminatorLine (b : Builder) (name value : Value) : Checked String := do
  let (_, setter) ← b.setterOf name
  return s!"m_{setter.param.spell} = {setter.type}::{value.spell};"

/-- The test whether a discriminator has a value. -/
def conditionLine (b : Builder) (name value : Value) : Checked String := do
  let (v, setter) ← b.setterOf name
  let value ← value.upperFirst
  let name ← v.need "name"
  return s!"if ({setter.type}::{value.spell} == m_{name.spell})"

def simpleSetter (b : Builder) (v : Value) (param : String) : Writing Unit := do
  b.write s!"m_{param} = {param};"
  if ← v.isConditional then
    let name ← v.need "condition"
    let value ← (← v.need "condition_value").upperFirst
    b.write (← b.discriminatorLine name value)

def bufferSetter (b : Builder) (param : String) : Writing Unit :=
  b.write (Text.joinWith "\n" [s!"if (0 == {param}.Size)",
    s!"\tCATAPULT_THROW_INVALID_ARGUMENT(\"argument `{param}` cannot be empty\");", "",
    s!"if (!m_{param}.empty())",
    s!"\tCATAPULT_THROW_RUNTIME_ERROR(\"`{param}` field already set\");", "",
    s!"m_{param}.resize({param}.Size);",
    s!"m_{param}.assign({param}.pData, {param}.pData + {param}.Size);"])

def vectorSetter (b : Builder) (v : Value) (param : String) : Writing Unit := do
  let name ← v.need "name"
  match ← v.find "sort_key" with
  | none => b.write s!"m_{name.spell}.push_back({param});"
  | some key =>
    b.write (s!"InsertSorted(m_{name.spell}, {param}, [](const auto& lhs, const auto& rhs) " ++
      "\x7b\x7b")
    deeper 1 do
      let key ← key.upperFirst
      b.write s!"return lhs.{key.spell} < rhs.{key.spell};"
    b.write "\x7d\x7d);"

/-- The statements of a setter. -/
def setterBody (b : Builder) (kind : FieldKind) (v : Value) (param : String) : Writing Unit :=
  match kind with
  | .simple => b.simpleSetter v param
  | .buffer => b.bufferSetter param
  | _ => b.vectorSetter v param

/-- Defines a setter. -/
def codeSetter (b : Builder) (kind : FieldKind) (v : Value) (setter : Setter)
    (signature : String) : Writing Unit := do
  b.write ("void \x7bBUILDER_NAME\x7d::" ++ signature ++ " \x7b\x7b")
  deeper 1 (b.setterBody kind v setter.param.spell)
  b.write "\x7d\x7d\n"

def codeSetters (b : Builder) : Writing Unit := b.forSetters b.codeSetter

/-- The number of elements that a member holds. -/
def elementCount (name : Value) : String := s!"m_{name.spell}.size()"

/-- Adds the size of a member that varies. -/
def sizeLine (b : Builder) (v : Value) : Writing Unit := do
  let kind ← v.fieldKind
  let count := elementCount (← v.need "name")
  match kind with
  | .buffer => b.write s!"size += {count};"
  | .vector =>
    let type ← b.qualified (← v.need "type")
    b.write s!"size += {count} * sizeof({type});"
  | _ => pure ()

def codeSize (b : Builder) : Writing Unit := do
  b.writeAll ["template<typename TransactionType>",
    "size_t \x7bBUILDER_NAME\x7d::sizeImpl() const \x7b\x7b"]
  deeper 1 do
    b.writeAll ["// calculate transaction size", "auto size = sizeof(TransactionType);"]
    b.forFields b.sizeLine
    b.write "return size;"
  b.write "\x7d\x7d\n"

/-- For each counter the last builder field of varying size that it belongs to, as the expression for
its value. -/
def counts (b : Builder) : Checked (List (Value × String)) := do
  let found ← (← b.fields).filterMapM fun v => do
    let name ← v.need "name"
    if !isBuilt (← name.asText) then return none
    if (← v.fieldKind) == .simple then return none
    return some (← v.need "size", elementCount name)
  return found.reverse

/-- Sets a counter of the transaction. -/
def counterLine (counts : List (Value × String)) (member name v : Value) : Checked String := do
  let count ← Checked.require name (counts.lookup name)
  let type ← countType (← v.need "size")
  return s!"pTransaction->{member.spell} = utils::checked_cast<size_t, {type}>({count});"

/-- Sets a field of fixed size. -/
def assignLine (b : Builder) (member : Value) (name : String) : Writing Unit := do
  let hinted ← b.hints.entry "setters" (.text name)
  let value := if !hinted.isEmpty then hinted.spell
    else if Text.holds "_Reserved" name then "0" else s!"m_{name}"
  b.write s!"pTransaction->{member.spell} = {value};"

/-- Sets a field of fixed size, under its condition if it has one. -/
def fixedLines (b : Builder) (member : Value) (name : String) (v : Value) : Writing Unit := do
  match ← v.find "condition" with
  | none => b.assignLine member name
  | some discriminator =>
    let value ← v.need "condition_value"
    b.write (← b.conditionLine discriminator value)
    deeper 1 (b.assignLine member name)
    b.write ""

/-- Sets the fields in front of the first one of varying size. -/
def fixedFields (b : Builder) (counts : List (Value × String)) : List Value → Writing Unit
  | [] => pure ()
  | v :: rest => do
    let name ← v.need "name"
    let member ← b.memberName name
    let name ← name.asText
    if isCounter name then
      b.write (← counterLine counts member (.text name) v)
      b.fixedFields counts rest
    else if (← v.fieldKind) == .simple then
      b.fixedLines member name v
      b.fixedFields counts rest

/-- Copies a field of varying size. -/
def copyLine (b : Builder) (v : Value) : Writing Unit := do
  let kind ← v.fieldKind
  if kind != .simple then
    let name ← v.need "name"
    let member ← b.memberName name
    if kind != .unknown then
      b.write (s!"std::copy(m_{name.spell}.cbegin(), m_{name.spell}.cend(), " ++
        s!"pTransaction->{member.spell}Ptr());")

def codeBuild (b : Builder) (counts : List (Value × String)) : Writing Unit := do
  b.writeAll ["template<typename TransactionType>",
    "std::unique_ptr<TransactionType> \x7bBUILDER_NAME\x7d::buildImpl() const \x7b\x7b"]
  deeper 1 do
    b.writeAll ["// 1. allocate, zero (header), set model::Transaction fields",
      "auto pTransaction = createTransaction<TransactionType>(sizeImpl<TransactionType>());", "",
      "// 2. set fixed transaction fields"]
    b.fixedFields counts (← b.fields)
    b.write ""
    if ← b.hasOtherKind .simple then
      b.write "// 3. set transaction attachments"
      b.forFields b.copyLine
      if (← get).code.getLast? != some "" then b.write ""
    b.write "return pTransaction;"
  b.write "\x7d\x7d"

def codeBuilds (b : Builder) : Writing Unit := do
  let self := "\x7bBUILDER_NAME\x7d::"
  b.writeAll ["size_t " ++ self ++ "size() const \x7b\x7b", "\treturn sizeImpl<Transaction>();",
    "\x7d\x7d", "",
    "std::unique_ptr<" ++ self ++ "Transaction> " ++ self ++ "build() const \x7b\x7b",
    "\treturn buildImpl<Transaction>();", "\x7d\x7d", "",
    "std::unique_ptr<" ++ self ++ "EmbeddedTransaction> " ++ self ++ "buildEmbedded() const \x7b\x7b",
    "\treturn buildImpl<EmbeddedTransaction>();", "\x7d\x7d", ""]
  b.codeSize
  b.codeBuild (← b.counts)

/-- The members are declared in the header; here their types only have to make sense. -/
def codeMemberTypes (b : Builder) : Writing Unit := b.forFields fun v => discard (b.memberType v)

/-- Writes the implementation file. -/
def implementation (b : Builder) : Writing Unit := Sections.writeAll b
  { includes := b.codeIncludes
    classHeader := b.codeConstructor
    setters := b.codeSetters
    builds := b.codeBuilds
    members := b.codeMemberTypes
    footer := pure () }

end Builder
end SchemaForge
