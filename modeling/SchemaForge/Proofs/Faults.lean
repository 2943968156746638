import SchemaForge.Proofs.Step
import SchemaForge.Model.Class

/-! What reading a value can fail at: a key that is missing, or a value of another kind than its reader
takes it for. It fails neither at a search that finds nothing nor at structures without an end. -/
namespace SchemaForge

/-- The faults of reading. -/
@[simp] def Fault.isReading : Fault → Bool
  | missing _ | mismatch | unsupported | outOfRange | tooGreat | noRoom | malformed => true
  | _ => false

namespace Checked
variable {α β : Type}

/-- Fails, if at all, as reading does. -/
def Reads (x : Checked α) : Prop := ∀ fault, x = .error fault → fault.isReading = true

@[simp] theorem reads_ok (a : α) : Reads (.ok a : Checked α) := by
  simp [Reads]

@[simp] theorem reads_error (fault : Fault) :
    Reads (.error fault : Checked α) ↔ fault.isReading = true := by
  simp [Reads]

@[simp] theorem reads_bind {x : Checked α} {f : α → Checked β} :
    Reads (x >>= f) ↔ Reads x ∧ ∀ a, x = .ok a → Reads (f a) := by
  cases x <;> simp [Reads]

@[simp] theorem reads_map {x : Checked α} {g : α → β} : Reads (g <$> x) ↔ Reads x := by
  cases x <;> simp [Reads, Functor.map, Except.map]

@[simp] theorem reads_ite {p : Prop} [Decidable p] {x y : Checked α} :
    Reads (if p then x else y) ↔ (p → Reads x) ∧ (¬p → Reads y) := by
  split <;> simp_all

@[simp] theorem reads_require (key : Value) (found : Option α) : Reads (require key found) := by
  cases found <;> simp [require]

theorem reads_mapM {f : α → Checked β} (h : ∀ a, Reads (f a)) (l : List α) : Reads (l.mapM f) := by
  induction l with
  | nil => simp
  | cons a l ih => simp [List.mapM_cons, h a, ih]

theorem reads_filterM {f : α → Checked Bool} (h : ∀ a, Reads (f a)) (l : List α) :
    Reads (l.filterM f) := by
  have hfilter : ∀ kept, Reads (l.filterAuxM f kept) := by
    induction l with
    | nil => simp [List.filterAuxM]
    | cons a l ih => simp [List.filterAuxM, h a, ih]
  simp [List.filterM, hfilter]

end Checked

open Checked

namespace Value

@[simp] theorem reads_joined (v : Value) : Reads v.joined := by
  cases v <;> simp [joined]

@[simp] theorem reads_asText (v : Value) : Reads v.asText := by
  cases v <;> simp [asText]

@[simp] theorem reads_compared (v : Value) : Reads v.compared := by
  unfold compared
  split <;> simp

@[simp] theorem reads_asKey (v : Value) : Reads v.asKey := by
  simp [asKey]

@[simp] theorem reads_items (v : Value) : Reads v.items := by
  cases v <;> simp [items]

@[simp] theorem reads_entryIn (entries : List (String × Value)) (key : Value) :
    Reads (entryIn entries key) := by
  simp [entryIn]

@[simp] theorem reads_holds (v part : Value) : Reads (v.holds part) := by
  unfold holds
  split <;> simp

@[simp] theorem reads_has (v : Value) (key : String) : Reads (v.has key) := reads_holds v key

@[simp] theorem reads_atPosition (values : List Value) (position : Value) :
    Reads (atPosition values position) := by
  simp only [atPosition, reads_bind, reads_compared, reads_ite, true_and]
  intro n _
  split <;> simp <;> split <;> simp

@[simp] theorem reads_part (v key : Value) : Reads (v.part key) := by
  cases v <;> simp [part]

@[simp] theorem reads_copies (v : Value) (c : Char) (width : Nat) : Reads (v.copies c width) := by
  simp [copies]

@[simp] theorem reads_need (v : Value) (key : String) : Reads (v.need key) := by
  cases v <;> simp [need, Record.need]

@[simp] theorem reads_find (v key : Value) : Reads (v.find key) := by
  cases v <;> simp [find]

@[simp] theorem reads_is (v : Value) (key : String) (value : Value) : Reads (v.is key value) := by
  simp [is]

@[simp] theorem reads_changeFirst (change : String → String) (v : Value) :
    Reads (v.changeFirst change) := by
  cases v <;> simp [changeFirst, first]

@[simp] theorem reads_layout (v : Value) : Reads v.layout := by
  simp [layout]

@[simp] theorem reads_countsOneOf (v siblings : Value) : Reads (v.countsOneOf siblings) := by
  have hfilter : ∀ name (l : List Value), Reads (l.filterM (·.is "size" name)) :=
    fun name => reads_filterM fun v => v.reads_is "size" name
  cases siblings <;> simp [countsOneOf, hfilter]

@[simp] theorem reads_isNumber (type size : Value) : Reads (isNumber type size) := by
  simp [isNumber]

@[simp] theorem reads_kind (v siblings : Value) : Reads (v.kind siblings) := by
  simp [kind, isVar, isFill, isInline]

@[simp] theorem reads_isReserved (v : Value) : Reads v.isReserved := by
  simp [isReserved]

@[simp] theorem reads_phrase (v : Value) : Reads v.phrase := by
  have hrest : ∀ change items, Reads (restOf change items) := by
    intro change items
    simp [restOf, reads_mapM]
  cases v with
  | text s =>
    rw [phrase_text, Text.phrase]
    split <;> simp
  | list items => simp [phrase, first, hrest]
  | _ => simp [phrase, first]

@[simp] theorem reads_description (v : Value) : Reads v.description := by
  simp [description]

end Value

namespace Schema
variable (s : Schema)

@[simp] theorem reads_find (name : Value) : Reads (s.find name) := Value.reads_entryIn s.types name

@[simp] theorem reads_need (name : Value) : Reads (s.need name) := by
  simp [need]

@[simp] theorem reads_recordAt (site : Site) : Reads (s.recordAt site) := by
  unfold recordAt
  split <;> simp

@[simp] theorem reads_sizeOf (v : Value) : Reads (s.sizeOf v) := by
  simp [sizeOf]

@[simp] theorem reads_sortOf (type : Value) : Reads (s.sortOf type) := by
  simp only [sortOf, reads_bind, reads_find, true_and]
  intro declared _
  split <;> simp

@[simp] theorem reads_className (type user : Value) : Reads (s.className type user) := by
  simp only [className, reads_bind, reads_ite, Value.reads_need, Value.reads_joined, true_and]
  intro sort _ name _
  refine ⟨by simp, fun _ => ?_⟩
  split <;> simp

@[simp] theorem reads_fits (key value v : Value) : Reads (fits key value v) := by
  simp [fits]

end Schema

namespace Target

@[simp] theorem reads_sized (table : List (Int × String)) (size : Value) : Reads (sized table size) := by
  simp [sized]

@[simp] theorem reads_typeOf (t : Target) (s : Schema) (v : Value) (kind : Kind) :
    Reads (t.typeOf s v kind) := by
  have hnumber : ∀ size, Reads (t.numberType size) := by
    intro size
    cases t <;> simp [numberType]
  simp only [typeOf, reads_bind, Value.reads_need, true_and]
  intro type _
  split <;> simp [hnumber]

end Target

namespace ClassModel

theorem reads_memberOf (t : Target) (s : Schema) (site : Site) : Reads (memberOf t s site) := by
  simp [memberOf, Record.need]

theorem reads_constantOf (t : Target) (s : Schema) (site : Site) : Reads (constantOf t s site) := by
  simp [constantOf, Record.need]

end ClassModel
end SchemaForge
