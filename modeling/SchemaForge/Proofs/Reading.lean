import Mathlib.Logic.Basic
import SchemaForge.Proofs.Settled
import SchemaForge.Target

/-! What is read from a schema while a model is made, and from the settled form of the schema. -/
namespace SchemaForge
open Checked

theorem filterAuxM_map {α : Type} (change : α → α) (p : α → Checked Bool)
    (h : ∀ a, p (change a) = p a) (l kept : List α) :
    (l.map change).filterAuxM p (kept.map change) = (l.filterAuxM p kept).map (·.map change) := by
  induction l generalizing kept with
  | nil => rfl
  | cons a l ih =>
    simp only [List.map_cons, List.filterAuxM, h]
    cases p a with
    | error fault => rfl
    | ok keep => cases keep with
      | false => exact ih kept
      | true => exact ih (a :: kept)

/-- A test that a change does not affect keeps the same items before the change as after it. -/
theorem filterM_map {α : Type} (change : α → α) (p : α → Checked Bool)
    (h : ∀ a, p (change a) = p a) (l : List α) :
    (l.map change).filterM p = (l.filterM p).map (·.map change) := by
  have haux := filterAuxM_map change p h l []
  simp only [List.map_nil] at haux
  simp only [List.filterM, haux]
  cases l.filterAuxM p [] with
  | error fault => rfl
  | ok kept => exact congrArg Except.ok List.map_reverse.symm

theorem Value.eq_of_record? {v : Value} {r : Record} (h : v.record? = some r) : v = r.value := by
  cases v with
  | table entries =>
    obtain rfl := Option.some.inj h
    rfl
  | _ => cases h

theorem Value.eq_text_of_joined {v : Value} {s : String} (h : v.joined = .ok s) : v = .text s := by
  cases v <;> simp_all [Value.joined]

theorem Value.eq_text_of_asText {v : Value} {s : String} (h : v.asText = .ok s) : v = .text s := by
  cases v with
  | text t => exact congrArg _ (Except.ok.inj h)
  | _ => cases h

theorem Value.eq_text_of_beq {v : Value} {s : String} (h : (v == .text s) = true) : v = .text s := by
  cases v <;> simp_all [BEq.beq, Value.same, Value.number?]

namespace Record

/-- An attribute has the name of its settled form. -/
def Named (r : Record) : Prop := r.settled.get? "name" = r.get? "name"

theorem named_of_plain {r : Record} (h : r.isInline = false) : r.Named :=
  get?_name_settled_of_plain h

theorem named_set_name {r : Record} {name : Value} (h : r.inlineName? = some name) :
    (r.set "name" name).Named := by
  unfold Named
  rw [settled_set_name h, get?_name_settled, h, get?_set_self]
  rfl

theorem has_settled (r : Record) {key : String} (ho : key ≠ "aggregate_class") (hn : key ≠ "name") :
    r.settled.has key = r.has key := by simp [has, get?_settled r ho hn]

theorem is_settled (r : Record) {key : String} (ho : key ≠ "aggregate_class") (hn : key ≠ "name")
    (v : Value) : r.settled.is key v = r.is key v := by simp [is, get?_settled r ho hn]

theorem need_settled (r : Record) {key : String} (ho : key ≠ "aggregate_class") (hn : key ≠ "name") :
    r.settled.need key = r.need key := by simp [need, get?_settled r ho hn]

@[simp] theorem isConst_settled (r : Record) : r.settled.isConst = r.isConst :=
  is_settled r (by simp) (by simp) _

@[simp] theorem isVar_settled (r : Record) : r.settled.isVar = r.isVar :=
  is_settled r (by simp) (by simp) _

@[simp] theorem isFill_settled (r : Record) : r.settled.isFill = r.isFill :=
  is_settled r (by simp) (by simp) _

@[simp] theorem isConditional_settled (r : Record) : r.settled.isConditional = r.isConditional :=
  has_settled r (by simp) (by simp)

end Record

namespace Value

theorem isInline_settledAttribute (v : Value) : v.settledAttribute.isInline = v.isInline :=
  is_settledAttribute (by simp) (by simp) v _

theorem isVar_settledAttribute (v : Value) : v.settledAttribute.isVar = v.isVar :=
  is_settledAttribute (by simp) (by simp) v _

theorem isFill_settledAttribute (v : Value) : v.settledAttribute.isFill = v.isFill :=
  is_settledAttribute (by simp) (by simp) v _

end Value

namespace Schema

theorem find_settled (s : Schema) (name : Value) :
    s.settled.find name = (s.find name).map (·.map Value.settledType) := by
  cases name with
  | text n => exact congrArg Except.ok (s.get?_settled n)
  | _ => rfl

theorem need_settled (s : Schema) (name : Value) :
    s.settled.need name = (s.need name).map Value.settledType := by
  unfold need
  rw [find_settled]
  cases s.find name with
  | error fault => rfl
  | ok found => cases found <;> rfl

/-- Settling a schema settles the attributes in its layouts. -/
theorem layout_settled (s : Schema) (name : Value) :
    (s.settled.need name >>= Value.layout) =
      (s.need name >>= Value.layout).map (·.map Value.settledAttribute) := by
  rw [need_settled]
  cases s.need name with
  | error fault => rfl
  | ok type => exact Value.layout_settledType type

theorem sizeOf_settled (s : Schema) (v : Value) : s.settled.sizeOf v = s.sizeOf v := by
  simp [sizeOf, need_settled, Value.has_settledType, Value.need_settledType]

theorem sizeOf_settledAttribute (s : Schema) (v : Value) :
    s.sizeOf v.settledAttribute = s.sizeOf v := by
  simp [sizeOf, Value.has_settledAttribute, Value.need_settledAttribute]

theorem className_settled (s : Schema) (type user : Value) :
    s.settled.className type user = s.className type user := by
  unfold className
  congr 1; funext sort; congr 1; funext name
  rw [get?_settled]
  cases s.get? name with
  | none => rfl
  | some declared => simp [Value.need_settledType]

theorem className_settledAttribute (s : Schema) (type user : Value) :
    s.className type user.settledAttribute = s.className type user := by
  simp [className, Value.need_settledAttribute]

/-- The size of an attribute, both read from the settled form. -/
theorem sizeOf_settledRecord (s : Schema) (r : Record) : s.settled.sizeOf r.settled = s.sizeOf r := by
  rw [sizeOf_settled, ← Value.settledAttribute_record, sizeOf_settledAttribute]

theorem className_settledRecord (s : Schema) (type : Value) (r : Record) :
    s.settled.className type r.settled = s.className type r := by
  rw [className_settled, ← Value.settledAttribute_record, className_settledAttribute]

theorem className_settledType (s : Schema) (type user : Value) :
    s.className type user.settledType = s.className type user := by
  simp [className, Value.need_settledType]

theorem sortOf_settled (s : Schema) (type : Value) : s.settled.sortOf type = s.sortOf type := by
  unfold sortOf
  rw [find_settled]
  cases s.find type with
  | error fault => rfl
  | ok found => cases found with
    | none => rfl
    | some declared =>
      cases declared with
      | table entries =>
        have h := Value.find_settledType (show "type" ≠ "layout" by simp)
          (show "type" ≠ "name" by simp) (.table entries)
        exact congrArg (fun found => found >>= fun sort => pure (sort.getD Value.null)) h
      | _ => rfl

theorem fits_settledAttribute {key : String} (ho : key ≠ "aggregate_class") (hn : key ≠ "name")
    (value v : Value) : fits key value v.settledAttribute = fits key value v := by
  have hholds := Value.has_settledAttribute ho hn v
  have hpart := Value.part_settledAttribute ho hn v
  simp only [Value.has] at hholds
  simp only [fits, hholds, hpart]

/-- Whether an attribute of the schema has a value under a key can be told from its settled form. -/
def FitsAlike (s : Schema) (key : String) (value : Value) : Prop :=
  ∀ name layout, (s.need name >>= Value.layout) = .ok layout →
    ∀ v ∈ layout, fits key value v.settledAttribute = fits key value v

theorem sited_map (owner : String) (layout : List Value) (change : Value → Value) :
    sited owner (layout.map change) = (sited owner layout).map fun p => (p.1, change p.2) := by
  apply List.ext_getElem?
  intro i
  simp only [sited, List.getElem?_mapIdx, List.getElem?_map, Option.map_map]
  rfl

theorem mem_sited {owner : String} {layout : List Value} {p : Site × Value}
    (h : p ∈ sited owner layout) : p.2 ∈ layout := by
  obtain ⟨i, hi, rfl⟩ := List.mem_mapIdx.1 h
  exact List.getElem_mem hi

/-- A search finds the same place among settled attributes, if it does so behind each of them. -/
theorem seekWith_settled {α : Type} {key : String} {value : Value}
    {inside inside' : Value → Checked (Option (α × Value))}
    (hinside : ∀ v, inside' v.settledAttribute =
      (inside v).map (·.map fun p => (p.1, p.2.settledAttribute)))
    (deep : Bool) (attributes : List (α × Value))
    (ha : ∀ p ∈ attributes, fits key value p.2.settledAttribute = fits key value p.2) :
    seekWith inside' key value deep (attributes.map fun p => (p.1, p.2.settledAttribute)) =
      (seekWith inside key value deep attributes).map
        (·.map fun p => (p.1, p.2.settledAttribute)) := by
  induction attributes with
  | nil => rfl
  | cons p rest ih =>
    obtain ⟨a, v⟩ := p
    have hv := ha (a, v) (by simp)
    have ih := ih fun q hq => ha q (by simp [hq])
    rw [List.map_cons, seekWith, seekWith]
    simp only [hv, ih, hinside, Value.isInline_settledAttribute]
    rcases fits key value v with fault | _ | _
    · rfl
    · cases deep with
      | false => simp
      | true =>
        rcases v.isInline with fault | _ | _
        · rfl
        · simp
        · rcases inside v with fault | _ | hit <;> simp [Except.map]
    · rfl

theorem seekInside_settled {α : Type} {s : Schema} {key : String} {value : Value}
    (h : s.FitsAlike key value) (tag : Site → α) (depth : Nat) (v : Value) :
    s.settled.seekInside tag key value depth v.settledAttribute =
      (s.seekInside tag key value depth v).map (·.map fun p => (p.1, p.2.settledAttribute)) := by
  induction depth generalizing v with
  | zero => rfl
  | succ depth ih =>
    rw [seekInside, seekInside, Value.need_settledAttribute (by simp) (by simp)]
    rcases v.need "type" with fault | type
    · rfl
    rw [ok_bind, ok_bind, ← bind_assoc, ← bind_assoc, layout_settled]
    cases hl : s.need type >>= Value.layout with
    | error fault => rfl
    | ok layout =>
      have hmem : ∀ p ∈ (sited type.spell layout).map fun p => (tag p.1, p.2),
          fits key value p.2.settledAttribute = fits key value p.2 := by
        intro p hp
        obtain ⟨q, hq, rfl⟩ := List.mem_map.1 hp
        exact h type layout hl q.2 (mem_sited hq)
      have hrec := seekWith_settled ih true _ hmem
      rw [List.map_map] at hrec
      simpa [sited_map, Function.comp_def, Except.map] using hrec

theorem findSite_eq (s : Schema) (owner : String) (key value : Value) :
    s.findSite owner key value = (s.need owner >>= Value.layout) >>= fun layout =>
      (s.seek id key value s.depthLimit true (sited owner layout)).map (·.map (·.1)) := by
  simp only [findSite, bind_assoc, Checked.map_eq_bind]

/-- The settled form of a schema has the same attribute in first place. -/
theorem findSite_settled {s : Schema} {key : String} {value : Value} (h : s.FitsAlike key value)
    (owner : String) : s.settled.findSite owner key value = s.findSite owner key value := by
  rw [findSite_eq, findSite_eq, layout_settled, depthLimit_settled]
  cases hl : s.need owner >>= Value.layout with
  | error fault => simp
  | ok layout =>
    have hseek := seekWith_settled (seekInside_settled h id s.depthLimit) true (sited owner layout)
      fun p hp => h owner layout hl p.2 (mem_sited hp)
    rw [map_ok, ok_bind, ok_bind, sited_map, seek, hseek, seek]
    generalize seekWith _ _ value true (sited owner layout) = found
    rcases found with fault | _ | hit <;> rfl

theorem fitsAlike {key : String} (ho : key ≠ "aggregate_class") (hn : key ≠ "name") (s : Schema)
    (value : Value) : s.FitsAlike key value :=
  fun _ _ _ v _ => fits_settledAttribute ho hn value v

end Schema

namespace Value

theorem countsOneOf_settled {r : Record} (h : r.Named) (items : List Value) :
    r.settled.value.countsOneOf (.list (items.map settledAttribute)) =
      r.value.countsOneOf (.list items) := by
  have hname : r.settled.value.need "name" = r.value.need "name" := by
    simp only [need_record, Record.need]
    rw [h]
  simp only [countsOneOf, hname, Value.items]
  congr 1
  funext name
  have hsize : ∀ v : Value, v.settledAttribute.is "size" name = v.is "size" name :=
    fun v => is_settledAttribute (by simp) (by simp) v name
  simp [filterM_map settledAttribute (fun v => v.is "size" name) hsize]

/-- The kind of an attribute can be told in the settled layout. -/
theorem kind_settled (r : Record) (items : List Value) :
    r.settled.value.kind (.list (items.map settledAttribute)) = r.value.kind (.list items) := by
  by_cases hi : r.isInline
  · have hi' : r.settled.isInline = true := by simpa using hi
    simp [kind, isVar_record, isFill_record, isInline_record, hi]
  · have hcounts := countsOneOf_settled (Record.named_of_plain (by simpa using hi)) items
    rw [← settledAttribute_record] at hcounts ⊢
    simp [kind, isVar_settledAttribute, isFill_settledAttribute, isInline_settledAttribute, hcounts,
      need_settledAttribute, has_settledAttribute]

/-- No attribute is of an unknown kind, and only one that counts one other attribute is a size field. -/
theorem kind_cases {v siblings : Value} {k : Kind} (h : v.kind siblings = .ok k) :
    k ≠ .unknown ∧ (k = .sizeField → v.countsOneOf siblings = .ok true) := by
  have hplain : ∀ {known : Kind}, Except.ok known = (.ok k : Checked Kind) → known ≠ .unknown →
      known ≠ .sizeField → k ≠ .unknown ∧ (k = .sizeField → v.countsOneOf siblings = .ok true) := by
    intro known hk hunknown hsize
    obtain rfl := Except.ok.inj hk
    exact ⟨hunknown, fun hfield => absurd hfield hsize⟩
  obtain ⟨isVar, -, h⟩ := bind_eq_ok.1 h
  rcases ite_eq_iff.1 h with ⟨-, h⟩ | ⟨-, h⟩
  · exact hplain h (by simp) (by simp)
  obtain ⟨isFill, -, h⟩ := bind_eq_ok.1 h
  rcases ite_eq_iff.1 h with ⟨-, h⟩ | ⟨-, h⟩
  · exact hplain h (by simp) (by simp)
  obtain ⟨isInline, -, h⟩ := bind_eq_ok.1 h
  rcases ite_eq_iff.1 h with ⟨-, h⟩ | ⟨-, h⟩
  · exact hplain h (by simp) (by simp)
  obtain ⟨counts, hcounts, h⟩ := bind_eq_ok.1 h
  rcases ite_eq_iff.1 h with ⟨htrue, h⟩ | ⟨-, h⟩
  · obtain rfl := Except.ok.inj h
    exact ⟨by simp, fun _ => by rw [hcounts, htrue]⟩
  obtain ⟨type, -, h⟩ := bind_eq_ok.1 h
  obtain ⟨name, -, h⟩ := bind_eq_ok.1 h
  rcases ite_eq_iff.1 h with ⟨-, h⟩ | ⟨-, h⟩
  · exact hplain h (by simp) (by simp)
  rcases ite_eq_iff.1 h with ⟨-, h⟩ | ⟨-, h⟩
  · exact hplain h (by simp) (by simp)
  obtain ⟨sized, -, h⟩ := bind_eq_ok.1 h
  rcases ite_eq_iff.1 h with ⟨-, h⟩ | ⟨-, h⟩
  · exact hplain h (by simp) (by simp)
  obtain ⟨size, -, h⟩ := bind_eq_ok.1 h
  rcases ite_eq_iff.1 h with ⟨-, h⟩ | ⟨-, h⟩
  · cases hb : type.isByte <;> exact hplain (hb ▸ h) (by simp) (by simp)
  rcases ite_eq_iff.1 h with ⟨-, h⟩ | ⟨-, h⟩
  · exact hplain h (by simp) (by simp)
  obtain ⟨isNumber, -, h⟩ := bind_eq_ok.1 h
  cases isNumber <;> exact hplain h (by simp) (by simp)

theorem has_name_settled {r : Record} (h : r.Named) :
    r.settled.value.has "name" = r.value.has "name" := by
  simp only [has_record, Record.has]
  rw [h]

theorem need_name_settled {r : Record} (h : r.Named) :
    r.settled.value.need "name" = r.value.need "name" := by
  simp only [need_record, Record.need]
  rw [h]

theorem description_settled {r : Record} (h : r.Named) :
    r.settled.value.description = r.value.description := by
  have hhas := has_name_settled h
  have hneed := need_name_settled h
  rw [← settledAttribute_record] at hhas hneed ⊢
  simp [description, has_settledAttribute, need_settledAttribute, hhas, hneed]

theorem isReserved_settled {r : Record} (h : r.Named) :
    r.settled.value.isReserved = r.value.isReserved := by
  have hhas := has_name_settled h
  have hneed := need_name_settled h
  rw [← settledAttribute_record] at hhas hneed ⊢
  simp [isReserved, has_settledAttribute, hhas, hneed]

end Value

theorem Target.typeOf_settled (t : Target) (s : Schema) (v : Value) (kind : Kind) :
    t.typeOf s.settled v.settledAttribute kind = t.typeOf s v kind := by
  simp [typeOf, Value.need_settledAttribute, Schema.sizeOf_settled, Schema.sizeOf_settledAttribute,
    Schema.className_settled, Schema.className_settledAttribute]

end SchemaForge
