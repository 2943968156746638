import SchemaForge.Value.Part

/-! Names in other forms. A name that is empty in whatever way stays as it is, and a list is read as
the sequence of its texts. -/
namespace SchemaForge
namespace Value

/-- The texts of a list behind its first item, each changed. -/
def restOf (change : String → String) (items : List Value) : Checked String := do
  return String.join (← (items.drop 1).mapM fun v => change <$> v.asText)

/-- A change of the first letter of a name. -/
def changeFirst (change : String → String) (v : Value) : Checked Value := do
  if v.isEmpty then return v
  match v with
  | text s => return text (change s)
  | v =>
    let _ ← (← v.first).asText
    throw .mismatch

def lowerFirst : Value → Checked Value := changeFirst Text.lowerFirst

def upperFirst : Value → Checked Value := changeFirst Text.upperFirst

/-- A name with an underscore before every capital. -/
def snakeCase (v : Value) : Checked Value := do
  if v.isEmpty then return v
  match v with
  | text s => return text (Text.snakeCase s)
  | list items =>
    let first ← v.first
    let rest ← restOf (fun s => if Text.isUpper s then "_" ++ s else s) items
    return text ((← first.joined) ++ rest)
  | v => v.first

/-- The name of an enumerator. -/
def enumName (v : Value) : Checked String := do return Text.upper (← (← v.snakeCase).asText)

/-- A name read as a phrase. -/
def phrase (v : Value) : Checked String := do
  match v with
  | text s => Text.phrase s
  | list items =>
    let first ← (← v.first).asText
    let rest ← restOf (fun s => if Text.isUpper s then " " ++ Text.lower s else s) items
    return Text.upper first ++ rest
  | v => (← v.first).asText

/-- The texts of a sequence in lower case, with blanks between them. -/
def lowerWords (v : Value) : Checked String := do
  return Text.joinWith " " (← (← v.items).mapM fun word => Text.lower <$> word.asText)

theorem changeFirst_text {change : String → String} (h : change "" = "") (s : String) :
    changeFirst change (text s) = .ok (text (change s)) := by
  by_cases hs : s.isEmpty
  · obtain rfl : s = "" := by simpa using hs
    rw [h]
    rfl
  · simp [changeFirst, isEmpty, hs, pure, Except.pure]

@[simp] theorem lowerFirst_text (s : String) :
    (text s).lowerFirst = .ok (text (Text.lowerFirst s)) := changeFirst_text rfl s

@[simp] theorem upperFirst_text (s : String) :
    (text s).upperFirst = .ok (text (Text.upperFirst s)) := changeFirst_text rfl s

@[simp] theorem phrase_text (s : String) : (text s).phrase = Text.phrase s := rfl

end Value
end SchemaForge
