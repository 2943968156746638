import SchemaForge.Schema

/-! What an attribute of a layout is: its disposition, its kind, its size and its description. -/
namespace SchemaForge

inductive Kind where
  | simple
  | buffer
  | array
  | custom
  | flags
  | sizeField
  | fillArray
  | varArray
  | unknown
  deriving DecidableEq, Repr

namespace Kind

def labels : List (Kind × String) :=
  [(simple, "SIMPLE"), (buffer, "BUFFER"), (array, "ARRAY"), (custom, "CUSTOM"), (flags, "FLAGS"),
    (sizeField, "SIZE_FIELD"), (fillArray, "FILL_ARRAY"), (varArray, "VAR_ARRAY"),
    (unknown, "UNKNOWN")]

def label (k : Kind) : String := (labels.lookup k).getD "UNKNOWN"

def ofLabel? (s : String) : Option Kind := (labels.find? (·.2 == s)).map (·.1)

def spell (k : Kind) : String := "AttributeKind." ++ k.label

def isArray (k : Kind) : Bool := k == array || k == varArray || k == fillArray

end Kind

namespace Record

def isInline (r : Record) : Bool := r.is "disposition" "inline"

def isConst (r : Record) : Bool := r.is "disposition" "const"

def isFill (r : Record) : Bool := r.is "disposition" "fill"

def isVar (r : Record) : Bool := r.is "disposition" "var"

def isConditional (r : Record) : Bool := r.has "condition"

end Record

namespace Value

def isInline (v : Value) : Checked Bool := v.is "disposition" "inline"

def isConst (v : Value) : Checked Bool := v.is "disposition" "const"

def isFill (v : Value) : Checked Bool := v.is "disposition" "fill"

def isVar (v : Value) : Checked Bool := v.is "disposition" "var"

def isSorted (v : Value) : Checked Bool := v.has "sort_key"

def isConditional (v : Value) : Checked Bool := v.has "condition"

theorem isInline_record (r : Record) : r.value.isInline = .ok r.isInline := is_record ..

theorem isVar_record (r : Record) : r.value.isVar = .ok r.isVar := is_record ..

theorem isFill_record (r : Record) : r.value.isFill = .ok r.isFill := is_record ..

theorem isConditional_record (r : Record) : r.value.isConditional = .ok r.isConditional := rfl

/-- Padding: a sized attribute whose name says so. -/
def isReserved (v : Value) : Checked Bool := do
  if !(← v.has "name") then return false
  if !(← (← v.need "name").has "_Reserved") then return false
  v.has "size"

/-- Whether exactly one of the attributes of a layout has this one as its size. -/
def countsOneOf (v : Value) : Value → Checked Bool
  | null => pure false
  | siblings => do
    let name ← v.need "name"
    let sized ← (← siblings.items).filterM (·.is "size" name)
    return sized.length == 1

/-- Whether a size in bytes makes the type a number. -/
def isNumber (type size : Value) : Checked Bool :=
  if size.isText || !type.isByte then pure false else return (← size.compared) ≤ 8

/-- The kind of an attribute in a layout. -/
def kind (v siblings : Value) : Checked Kind := do
  if ← v.isVar then return .varArray
  if ← v.isFill then return .fillArray
  if ← v.isInline then return .custom
  if ← v.countsOneOf siblings then return .sizeField
  let type ← v.need "type"
  if Text.endsWith "Flags" (← type.asText) then return .flags
  if type.isStruct || type.isEnum then return .custom
  if !(← v.has "size") then return .custom
  let size ← v.need "size"
  if size.isText then return if type.isByte then .buffer else .array
  if size.number?.isSome && !type.isByte then return .array
  return if ← isNumber type size then .simple else .buffer

/-- The description of an attribute, a value or a type: its comment, or else its name. -/
def description (v : Value) : Checked String := do
  let comment ← if ← v.has "comments" then do
      pure (Text.strip (← (← v.need "comments").asText))
    else pure ""
  if !comment.isEmpty then return comment
  if ← v.has "name" then (← v.need "name").phrase else return ""

end Value

namespace Schema

/-- The size of an attribute: its own, or else that of its type, or else one. -/
def sizeOf (s : Schema) (v : Value) : Checked Value := do
  if ← v.has "size" then return ← v.need "size"
  let type ← v.need "type"
  if type.isByte || type.isEnum then return ← v.need "size"
  let declared ← s.need type
  if ← declared.has "size" then declared.need "size" else return .int 1

/-- The sort of type behind a type name, or null. -/
def sortOf (s : Schema) (type : Value) : Checked Value := do
  match ← s.find type with
  | none | some .null => return .null
  | some declared => return (← declared.find "type").getD .null

/-- The name of the class made for a type, for use by a record of some sort. -/
def className (s : Schema) (type user : Value) : Checked String := do
  let sort ← user.need "type"
  let name ← type.joined
  if sort.isByte || sort.isEnum then return name ++ "Dto"
  match s.get? name with
  | none => return name ++ "Dto"
  | some declared =>
    return if (← declared.need "type").isStruct then name ++ "Builder" else name ++ "Dto"

/-- Whether an attribute has a value under a key. -/
def fits (key value : Value) (v : Value) : Checked Bool := do
  if ← v.holds key then return (← v.part key) == value else return false

/-- Looks for the first attribute with a value under a key. If asked, it looks with `inside` behind
each inline attribute that has not the value itself. -/
def seekWith {α : Type} (inside : Value → Checked (Option (α × Value))) (key value : Value)
    (deep : Bool) : List (α × Value) → Checked (Option (α × Value))
  | [] => pure none
  | (a, v) :: rest => do
    if ← fits key value v then return some (a, v)
    if !deep then return ← seekWith inside key value deep rest
    if !(← v.isInline) then return ← seekWith inside key value deep rest
    match ← inside v with
    | some hit => return some hit
    | none => seekWith inside key value deep rest

/-- Looks in what an attribute inlines. -/
def seekInside {α : Type} (s : Schema) (tag : Site → α) (key value : Value) :
    Nat → Value → Checked (Option (α × Value))
  | 0, _ => throw .endless
  | depth + 1, v => do
    let type ← v.need "type"
    let layout ← (← s.need type).layout
    seekWith (s.seekInside tag key value depth) key value true
      ((sited type.spell layout).map fun (site, v) => (tag site, v))

/-- Looks for the first attribute with a value under a key, in the given attributes and in those that
they inline. An inline attribute comes before the contents of its structure. -/
def seek {α : Type} (s : Schema) (tag : Site → α) (key value : Value) (depth : Nat) (deep : Bool)
    (attributes : List (α × Value)) : Checked (Option (α × Value)) :=
  seekWith (s.seekInside tag key value depth) key value deep attributes

/-- No chain of structures that inline one another is longer. -/
def depthLimit (s : Schema) : Nat := s.size + 1

/-- The first matching attribute of a structure and of what it inlines. -/
def findSite (s : Schema) (owner : String) (key value : Value) : Checked (Option Site) := do
  let layout ← (← s.need owner).layout
  return (← s.seek id key value s.depthLimit true (sited owner layout)).map (·.1)

/-- The first matching attribute among those given and, if asked, what they inline. -/
def findAttribute (s : Schema) (attributes key value : Value) (deep : Bool) :
    Checked (Option Value) := do
  let tagged := (← attributes.items).map fun v => ((), v)
  return (← s.seek (fun _ => ()) key value s.depthLimit deep tagged).map (·.2)

end Schema

/-- Structures that are only ever inlined and get no class of their own. -/
def hiddenNames : List String :=
  ["SizePrefixedEntity", "VerifiableEntity", "EntityBody", "EmbeddedTransactionHeader",
    "TransactionHeader"]

def isHidden (name : Value) : Bool := hiddenNames.any fun h => name == h

/-- Embedded transactions are padded to a multiple of eight bytes, everything else is packed. -/
def padding (isEmbedded : Bool) : Nat := if isEmbedded then 8 else 0

/-- The padding for what belongs to an attribute or to its parent. -/
def alignment (own parent : Value) : Checked Nat := do
  let isEmbedded : Value → Checked Bool
    | .null => pure false
    | v => v.is "type" "EmbeddedTransaction"
  let own ← isEmbedded own
  let parent ← isEmbedded parent
  return padding (own || parent)

end SchemaForge
