import SchemaForge.Fault

/-! Records: the entries of an attribute, of an enumerator or of a type. Any entry may be missing. -/
namespace SchemaForge

structure Record where
  entries : List (String × Value) := []
  deriving Inhabited

namespace Record

def get? (r : Record) (key : String) : Option Value := r.entries.lookup key

def has (r : Record) (key : String) : Bool := (r.get? key).isSome

def need (r : Record) (key : String) : Checked Value := Checked.require key (r.get? key)

def is (r : Record) (key : String) (value : Value) : Bool := (r.get? key).any (· == value)

def setIn (key : String) (value : Value) : List (String × Value) → List (String × Value)
  | [] => [(key, value)]
  | (k, v) :: rest => if k = key then (k, value) :: rest else (k, v) :: setIn key value rest

def set (r : Record) (key : String) (value : Value) : Record := ⟨setIn key value r.entries⟩

theorem lookup_setIn_self (key : String) (value : Value) (es : List (String × Value)) :
    (setIn key value es).lookup key = some value := by
  induction es with
  | nil => simp [setIn]
  | cons e es ih =>
    obtain ⟨k, v⟩ := e
    by_cases h : k = key
    · simp [setIn, h]
    · simp [setIn, h, List.lookup_cons, ih, show (key == k) = false by simpa using Ne.symm h]

theorem lookup_setIn_ne {key other : String} (value : Value) (h : other ≠ key)
    (es : List (String × Value)) : (setIn key value es).lookup other = es.lookup other := by
  induction es with
  | nil => simp [setIn, List.lookup_cons, show (other == key) = false by simpa using h]
  | cons e es ih =>
    obtain ⟨k, v⟩ := e
    by_cases hk : k = key
    · subst hk
      simp [setIn, List.lookup_cons, show (other == k) = false by simpa using h]
    · simp [setIn, hk, List.lookup_cons, ih]

@[simp] theorem get?_set_self (r : Record) (key : String) (value : Value) :
    (r.set key value).get? key = some value := lookup_setIn_self key value r.entries

theorem get?_set_ne (r : Record) {key other : String} (value : Value) (h : other ≠ key) :
    (r.set key value).get? other = r.get? other := lookup_setIn_ne value h r.entries

/-- The record as a value. -/
def value (r : Record) : Value := .table r.entries

end Record

instance : Coe Record Value := ⟨Record.value⟩

/-- The record that a value is. -/
def Value.record? : Value → Option Record
  | .table entries => some ⟨entries⟩
  | _ => none

@[simp] theorem Record.record?_value (r : Record) : r.value.record? = some r := rfl

end SchemaForge
