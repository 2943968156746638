import SchemaForge.Value

/-! The causes for which generation stops. -/
namespace SchemaForge

/-- Why a file or a model could not be made. -/
inductive Fault where
  /-- A record, table or schema has no such key. -/
  | missing (key : Value)
  /-- An operation met a value of a kind for which it has no meaning. -/
  | mismatch
  /-- An operation was asked of a value that does not offer it. -/
  | unsupported
  /-- A text, a list or a list of arguments has no such position. -/
  | outOfRange
  /-- A number is too great to count with. -/
  | tooGreat
  /-- There is no room for a text of such a length. -/
  | noRoom
  /-- A text does not have the form that its use requires. -/
  | malformed
  /-- A search that has to succeed found nothing. -/
  | notFound
  /-- A search that has to succeed found nothing while a run of files was under way. -/
  | interrupted
  /-- A file that is needed does not exist. -/
  | noFile
  /-- A directory stands where a file is needed. -/
  | isDirectory
  /-- A file stands where a directory is needed. -/
  | isFile
  /-- A path goes on behind a file. -/
  | belowFile
  /-- A name is too long for a file or a directory. -/
  | longName
  /-- A value differs from the only one that its place allows. -/
  | contradiction
  /-- An operation that each target language defines for itself. -/
  | undefined (what : String)
  /-- A structure inlines itself, directly or through others. -/
  | endless

abbrev Checked := Except Fault

/-- The value under a key, or the fault that names the key. -/
def Checked.require {α : Type} (key : Value) : Option α → Checked α
  | some a => .ok a
  | none => .error (.missing key)

namespace Value

/-- The value as a text that other text is joined to. -/
def joined : Value → Checked String
  | text s => .ok s
  | _ => .error .mismatch

/-- The value as a text that is asked for one of its parts. -/
def asText : Value → Checked String
  | text s => .ok s
  | _ => .error .unsupported

/-- The value as a number in a comparison. -/
def compared (v : Value) : Checked Int :=
  match v.number? with
  | some n => .ok n
  | none => .error .mismatch

/-- The value as the key under which something is looked up. -/
def asKey (v : Value) : Checked Value := if v.isKey then .ok v else .error .mismatch

@[simp] theorem joined_text (s : String) : (text s).joined = .ok s := rfl
@[simp] theorem asText_text (s : String) : (text s).asText = .ok s := rfl
@[simp] theorem compared_int (n : Int) : (int n).compared = .ok n := rfl
@[simp] theorem asKey_text (s : String) : (text s).asKey = .ok (text s) := rfl

end Value
end SchemaForge
