import SchemaForge.Attribute
import SchemaForge.Proofs.Step

/-! The settled form of a schema. Models write names and owners into the schema that they are made
from; the settled form has all the names of attributes that any model can write, no names of types and
no owners, so that all states of one schema have it in common. -/
namespace SchemaForge

/-- A change of values that depends on their keys keeps the keys. -/
theorem lookup_map_values {α β : Type} (change : String → α → β) (key : String)
    (entries : List (String × α)) :
    (entries.map fun e => (e.1, change e.1 e.2)).lookup key =
      (entries.lookup key).map (change key) := by
  induction entries with
  | nil => rfl
  | cons e entries ih =>
    obtain ⟨k, v⟩ := e
    simp only [List.map_cons, List.lookup_cons, ih]
    by_cases h : key = k
    · simp [h]
    · simp [show (key == k) = false by simpa using h]

theorem lookup_filter_ne {key other : String} (h : key ≠ other) (entries : List (String × Value)) :
    (entries.filter (·.1 ≠ other)).lookup key = entries.lookup key := by
  induction entries with
  | nil => rfl
  | cons e entries ih =>
    obtain ⟨k, v⟩ := e
    by_cases hk : k = other
    · subst hk
      have hne : (key == k) = false := by simpa using h
      simpa [List.lookup_cons, hne] using ih
    · simp only [ne_eq, decide_not] at ih
      simp [hk, List.lookup_cons, ih]

namespace Record

theorem setIn_setIn (key : String) (v w : Value) (es : List (String × Value)) :
    setIn key v (setIn key w es) = setIn key v es := by
  induction es with
  | nil => simp [setIn]
  | cons e es ih =>
    obtain ⟨k, u⟩ := e
    by_cases h : k = key <;> simp [setIn, h, ih]

theorem filter_setIn_self (key : String) (v : Value) (es : List (String × Value)) :
    (setIn key v es).filter (·.1 ≠ key) = es.filter (·.1 ≠ key) := by
  induction es with
  | nil => simp [setIn]
  | cons e es ih =>
    obtain ⟨k, u⟩ := e
    simp only [ne_eq, decide_not] at ih
    by_cases h : k = key <;> simp [setIn, h, ih]

theorem filter_setIn_ne {key other : String} (h : key ≠ other) (v : Value)
    (es : List (String × Value)) :
    (setIn key v es).filter (·.1 ≠ other) = setIn key v (es.filter (·.1 ≠ other)) := by
  induction es with
  | nil => simp [setIn, h]
  | cons e es ih =>
    obtain ⟨k, u⟩ := e
    simp only [ne_eq, decide_not] at ih
    by_cases hk : k = key
    · subst hk
      simp [setIn, h]
    · by_cases ho : k = other
      · subst ho
        simp [setIn, hk, ih]
      · simp [setIn, hk, ho, ih]

/-- An attribute without the class that holds it. -/
def withoutOwner (r : Record) : Record := ⟨r.entries.filter (·.1 ≠ "aggregate_class")⟩

/-- The name that a model gives to an inline attribute. -/
def inlineName? (r : Record) : Option Value :=
  if r.isInline then (r.get? "type").bind fun type => type.lowerFirst.toOption else none

/-- An attribute with the name that a model gives it, and without the class that holds it. -/
def settled (r : Record) : Record :=
  match r.inlineName? with
  | some name => r.withoutOwner.set "name" name
  | none => r.withoutOwner

theorem get?_withoutOwner (r : Record) {key : String} (h : key ≠ "aggregate_class") :
    r.withoutOwner.get? key = r.get? key := lookup_filter_ne h r.entries

theorem get?_settled (r : Record) {key : String} (ho : key ≠ "aggregate_class")
    (hn : key ≠ "name") : r.settled.get? key = r.get? key := by
  unfold settled
  cases r.inlineName? with
  | none => exact r.get?_withoutOwner ho
  | some name => rw [get?_set_ne _ _ hn, r.get?_withoutOwner ho]

theorem get?_name_settled (r : Record) :
    r.settled.get? "name" = r.inlineName?.or (r.get? "name") := by
  unfold settled
  cases r.inlineName? with
  | none => exact r.get?_withoutOwner (by simp)
  | some name => simp

@[simp] theorem isInline_settled (r : Record) : r.settled.isInline = r.isInline := by
  simp [isInline, is, get?_settled]

@[simp] theorem inlineName?_settled (r : Record) : r.settled.inlineName? = r.inlineName? := by
  simp [inlineName?, get?_settled]

theorem inlineName?_eq_none {r : Record} (h : r.isInline = false) : r.inlineName? = none := by
  simp [inlineName?, h]

theorem get?_name_settled_of_plain {r : Record} (h : r.isInline = false) :
    r.settled.get? "name" = r.get? "name" := by
  simp [get?_name_settled, inlineName?_eq_none h]

theorem isInline_set {r : Record} {key : String} (h : key ≠ "disposition") (v : Value) :
    (r.set key v).isInline = r.isInline := by
  simp [isInline, is, get?_set_ne r v (Ne.symm h)]

theorem inlineName?_set {r : Record} {key : String} (hd : key ≠ "disposition") (ht : key ≠ "type")
    (v : Value) : (r.set key v).inlineName? = r.inlineName? := by
  simp [inlineName?, isInline_set hd, get?_set_ne r v (Ne.symm ht)]

theorem settled_set_owner (r : Record) (v : Value) :
    (r.set "aggregate_class" v).settled = r.settled := by
  have hw : (r.set "aggregate_class" v).withoutOwner = r.withoutOwner :=
    congrArg Record.mk (filter_setIn_self _ v r.entries)
  unfold settled
  rw [inlineName?_set (by simp) (by simp), hw]

theorem settled_set_name {r : Record} {name : Value} (h : r.inlineName? = some name) :
    (r.set "name" name).settled = r.settled := by
  have hw : (r.set "name" name).withoutOwner = r.withoutOwner.set "name" name :=
    congrArg Record.mk (filter_setIn_ne (by simp) name r.entries)
  unfold settled
  rw [inlineName?_set (by simp) (by simp), h, hw]
  exact congrArg Record.mk (setIn_setIn "name" name name _)

end Record

namespace Value

def settledAttribute : Value → Value
  | table entries => (Record.settled ⟨entries⟩).value
  | v => v

def settledLayout : Value → Value
  | list items => list (items.map settledAttribute)
  | v => v

/-- The entries of a type with another layout. -/
def withLayout (layout : Value) (entries : List (String × Value)) : List (String × Value) :=
  entries.map fun e => (e.1, if e.1 = "layout" then layout else e.2)

theorem withLayout_setIn {key : String} (h : key ≠ "layout") (layout v : Value)
    (entries : List (String × Value)) : withLayout layout (Record.setIn key v entries) =
      Record.setIn key v (withLayout layout entries) := by
  induction entries with
  | nil => simp [withLayout, Record.setIn, h]
  | cons e entries ih =>
    obtain ⟨k, w⟩ := e
    simp only [withLayout] at ih
    by_cases hk : k = key
    · simp [withLayout, Record.setIn, hk, h]
    · simp [withLayout, Record.setIn, hk, ih]

/-- A type without its name and with all its attributes settled. If a key stands more than once, only
the first counts. -/
def settledType : Value → Value
  | table entries =>
    let settled := withLayout (settledLayout ((entries.lookup "layout").getD null)) entries
    table (settled.filter (·.1 ≠ "name"))
  | v => v

theorem settledAttribute_record (r : Record) : settledAttribute r.value = r.settled.value := rfl

@[simp] theorem record?_settledAttribute (v : Value) :
    v.settledAttribute.record? = v.record?.map Record.settled := by cases v <;> rfl

section
variable {key : String} (ho : key ≠ "aggregate_class") (hn : key ≠ "name") (v : Value)
include ho hn

theorem has_settledAttribute : v.settledAttribute.has key = v.has key := by
  cases v with
  | table entries =>
    simp only [settledAttribute, has_record, Record.has, Record.get?_settled _ ho hn]
    rfl
  | _ => rfl

theorem need_settledAttribute : v.settledAttribute.need key = v.need key := by
  cases v with
  | table entries =>
    simp only [settledAttribute, need_record, Record.need, Record.get?_settled _ ho hn]
    rfl
  | _ => rfl

theorem part_settledAttribute : v.settledAttribute.part key = v.part key := by
  cases v with
  | table entries =>
    exact congrArg (Checked.require (text key)) (Record.get?_settled ⟨entries⟩ ho hn)
  | _ => rfl

theorem is_settledAttribute (value : Value) :
    v.settledAttribute.is key value = v.is key value := by
  simp only [is, has_settledAttribute ho hn, need_settledAttribute ho hn]

end

section
variable {key : String} (hl : key ≠ "layout") (hn : key ≠ "name") (v : Value)

theorem lookup_withLayout (entries : List (String × Value)) (layout : Value) :
    (withLayout layout entries).lookup key =
      if key = "layout" then (entries.lookup key).map fun _ => layout else entries.lookup key := by
  rw [withLayout, lookup_map_values fun k v => if k = "layout" then layout else v]
  split <;> simp

include hl hn

theorem lookup_settledType (entries settled : List (String × Value))
    (h : settledType (table entries) = table settled) :
    settled.lookup key = entries.lookup key := by
  simp only [settledType, table.injEq] at h
  subst h
  rw [lookup_filter_ne hn, lookup_withLayout, if_neg hl]

theorem has_settledType : v.settledType.has key = v.has key := by
  cases v with
  | table entries =>
    have h := lookup_settledType hl hn entries _ rfl
    exact congrArg (fun found => Except.ok (Option.isSome found)) h
  | _ => rfl

theorem need_settledType : v.settledType.need key = v.need key := by
  cases v with
  | table entries =>
    exact congrArg (Checked.require (text key)) (lookup_settledType hl hn entries _ rfl)
  | _ => rfl

theorem find_settledType : v.settledType.find key = v.find key := by
  cases v with
  | table entries => exact congrArg Except.ok (lookup_settledType hl hn entries _ rfl)
  | _ => rfl

end

theorem lookup_layout_settledType (entries settled : List (String × Value))
    (h : settledType (table entries) = table settled) :
    settled.lookup "layout" = (entries.lookup "layout").map settledLayout := by
  simp only [settledType, table.injEq] at h
  subst h
  rw [lookup_filter_ne (by simp), lookup_withLayout, if_pos rfl]
  cases entries.lookup "layout" <;> rfl

theorem items_settledLayout (v : Value) :
    v.settledLayout.items = v.items.map (·.map settledAttribute) := by
  cases v with
  | list items => rfl
  | text s => simp [settledLayout, items, characters, settledAttribute, Except.map]
  | table entries => simp [settledLayout, items, settledAttribute, Except.map]
  | _ => rfl

/-- The layout of a settled type lists the same attributes, settled. -/
theorem layout_settledType (v : Value) :
    v.settledType.layout = v.layout.map (·.map settledAttribute) := by
  cases v with
  | table entries =>
    have h := lookup_layout_settledType entries _ rfl
    have hneed : (settledType (table entries)).need "layout" =
        ((table entries).need "layout").map settledLayout := by
      change Checked.require "layout" (List.lookup "layout" _) =
        (Checked.require _ (entries.lookup "layout")).map _
      rw [h]
      cases entries.lookup "layout" <;> rfl
    unfold layout
    rw [hneed]
    cases (table entries).need "layout" with
    | error fault => rfl
    | ok layout => exact items_settledLayout layout
  | _ => rfl

/-- The attribute at a position of a type's layout. -/
def attribute? (type : Value) (index : Nat) : Option Record :=
  type.record?.bind fun r => match r.get? "layout" with
    | some (.list layout) => layout[index]?.bind record?
    | _ => none

theorem attribute?_settledType (v : Value) (index : Nat) :
    v.settledType.attribute? index = (v.attribute? index).map Record.settled := by
  cases v with
  | table entries =>
    have h := lookup_layout_settledType entries _ rfl
    simp only [attribute?, settledType, record?, Option.bind_some, Record.get?]
    rw [h]
    cases entries.lookup "layout" with
    | none => rfl
    | some layout =>
      cases layout with
      | list items =>
        simp only [Option.map_some, settledLayout, List.getElem?_map]
        cases items[index]? with
        | none => rfl
        | some v => simp
      | _ => rfl
  | _ => rfl

/-- A change of one item that its settled form does not show. -/
theorem settledLayout_modifyItem {v : Value} {index : Nat} {change : Value → Value}
    (h : ∀ items w, v = list items → items[index]? = some w →
      (change w).settledAttribute = w.settledAttribute) :
    (v.modifyItem index change).settledLayout = v.settledLayout := by
  cases v with
  | list items =>
    simp only [modifyItem, settledLayout, list.injEq]
    apply List.ext_getElem?
    intro i
    simp only [List.getElem?_map, List.getElem?_modify]
    split
    · rename_i hi
      subst hi
      cases hw : items[index]? with
      | none => rfl
      | some w => simp [h items w rfl hw]
    · simp
  | _ => rfl

theorem lookup_modifyEntry (key other : String) (change : Value → Value)
    (entries : List (String × Value)) :
    (entries.map fun (k, v) => if k = key then (k, change v) else (k, v)).lookup other =
      if other = key then (entries.lookup other).map change else entries.lookup other := by
  have h : (entries.map fun (k, v) => if k = key then (k, change v) else (k, v)) =
      entries.map fun e => (e.1, if e.1 = key then change e.2 else e.2) := by
    apply List.map_congr_left
    intro e _
    by_cases he : e.1 = key <;> simp [he]
  rw [h, lookup_map_values fun k v => if k = key then change v else v]
  by_cases ho : other = key <;> simp [ho]

/-- A change of the layout that its settled form does not show. -/
theorem settledType_modifyLayout {v : Value} {change : Value → Value}
    (h : ∀ r layout, v.record? = some r → r.get? "layout" = some layout →
      (change layout).settledLayout = layout.settledLayout) :
    (v.modifyEntry "layout" change).settledType = v.settledType := by
  cases v with
  | table entries =>
    have hl := lookup_modifyEntry "layout" "layout" change entries
    rw [if_pos rfl] at hl
    have hd : settledLayout (((entries.lookup "layout").map change).getD null) =
        settledLayout ((entries.lookup "layout").getD null) := by
      cases hg : entries.lookup "layout" with
      | none => rfl
      | some layout => simp [h ⟨entries⟩ layout rfl hg]
    have hw : ∀ layout, withLayout layout
        (entries.map fun (k, v) => if k = "layout" then (k, change v) else (k, v)) =
        withLayout layout entries := by
      intro layout
      simp only [withLayout, List.map_map]
      apply List.map_congr_left
      intro e _
      by_cases he : e.1 = "layout" <;> simp [he]
    simp only [modifyEntry, settledType, hl, hd, hw]
  | _ => rfl

theorem record?_put (v : Value) (key : String) (value : Value) :
    (v.put key value).record? = v.record?.map (·.set key value) := by
  cases v <;> rfl

theorem attribute?_put (v : Value) (index other : Nat) (key : String) (value : Value) :
    (v.modifyEntry "layout" fun layout =>
        layout.modifyItem index (·.put key value)).attribute? other =
      if other = index then (v.attribute? other).map (·.set key value) else v.attribute? other := by
  cases v with
  | table entries =>
    have h := lookup_modifyEntry "layout" "layout"
      (fun layout => layout.modifyItem index (·.put key value)) entries
    rw [if_pos rfl] at h
    simp only [attribute?, modifyEntry, record?, Option.bind_some, Record.get?, h]
    cases entries.lookup "layout" with
    | none => simp
    | some layout =>
      cases layout with
      | list items =>
        simp only [Option.map_some, modifyItem, List.getElem?_modify]
        by_cases hi : other = index
        · subst hi
          cases items[other]? <;> simp [record?_put]
        · simp [hi, Ne.symm hi]
      | _ => simp [modifyItem]
  | _ => simp [modifyEntry, attribute?, record?]

theorem settledType_put_name (v name : Value) : (v.put "name" name).settledType = v.settledType := by
  cases v with
  | table entries =>
    have hl := Record.lookup_setIn_ne name (show "layout" ≠ "name" by simp) entries
    simp only [put, settledType, hl, withLayout_setIn (show "name" ≠ "layout" by simp),
      Record.filter_setIn_self]
  | _ => rfl

end Value

namespace Schema

/-- The settled form of a schema. If a name stands more than once, only the first counts. -/
def settled (s : Schema) : Schema :=
  ⟨s.names.map fun name => (name, Value.settledType ((s.get? name).getD .null))⟩

@[simp] theorem names_settled (s : Schema) : s.settled.names = s.names := by
  simp [settled, names, Function.comp_def]

@[simp] theorem size_settled (s : Schema) : s.settled.size = s.size := by
  simp [settled, names, size]

@[simp] theorem depthLimit_settled (s : Schema) : s.settled.depthLimit = s.depthLimit := by
  simp [depthLimit]

theorem get?_settled (s : Schema) (name : String) :
    s.settled.get? name = (s.get? name).map (Value.settledType) := by
  have h := lookup_map_values
    (fun n (_ : Value) => Value.settledType ((s.get? n).getD .null)) name s.types
  have hs : s.settled.types = s.types.map fun e =>
      (e.1, Value.settledType ((s.get? e.1).getD .null)) := by
    simp [settled, names, Function.comp_def]
  rw [get?, hs, h]
  cases hg : s.types.lookup name with
  | none => simp [get?, hg]
  | some v => simp [get?, hg]

/-- Two schemas with the same names whose types have the same settled forms. -/
theorem settled_congr {s s' : Schema} (hn : s'.names = s.names)
    (h : ∀ name, (s'.get? name).map (Value.settledType) =
      (s.get? name).map (Value.settledType)) : s'.settled = s.settled := by
  unfold settled
  rw [hn]
  congr 1
  apply List.map_congr_left
  intro name _
  have hname := h name
  cases hs : s.get? name with
  | none =>
    rw [hs, Option.map_none, Option.map_eq_none_iff] at hname
    simp [hname]
  | some v =>
    rw [hs] at hname
    obtain ⟨v', hv', he⟩ := Option.map_eq_some_iff.1 hname
    simp [hv', he]

@[simp] theorem names_update (s : Schema) (name : String) (change : Value → Value) :
    (s.update name change).names = s.names := by
  simp only [update, names, List.map_map]
  apply List.map_congr_left
  intro e _
  by_cases h : e.1 = name <;> simp [h]

theorem get?_update (s : Schema) (name other : String) (change : Value → Value) :
    (s.update name change).get? other =
      if other = name then (s.get? other).map change else s.get? other := by
  have h := lookup_map_values (fun n v => if n = name then change v else v) other s.types
  have hu : (s.update name change).types =
      s.types.map fun e => (e.1, if e.1 = name then change e.2 else e.2) := by
    apply List.map_congr_left
    intro e _
    by_cases h : e.1 = name <;> simp [h]
  rw [get?, hu, h]
  by_cases ho : other = name <;> simp [ho, get?]

/-- A change of one type that its settled form does not show. -/
theorem settled_update {s : Schema} {name : String} {change : Value → Value}
    (h : ∀ v, s.get? name = some v → (change v).settledType = v.settledType) :
    (s.update name change).settled = s.settled := by
  apply settled_congr (names_update s name change)
  intro other
  rw [get?_update]
  split
  · rename_i ho
    subst ho
    cases hg : s.get? other with
    | none => rfl
    | some v => simp [h v hg]
  · rfl

theorem attributeAt?_eq (s : Schema) (site : Site) :
    s.attributeAt? site = (s.get? site.owner).bind (·.attribute? site.index) := by
  simp only [attributeAt?, Value.attribute?]
  cases s.get? site.owner with
  | none => rfl
  | some v => cases v <;> rfl

theorem attributeAt?_settled (s : Schema) (site : Site) :
    s.settled.attributeAt? site = (s.attributeAt? site).map Record.settled := by
  rw [attributeAt?_eq, attributeAt?_eq, get?_settled]
  cases s.get? site.owner with
  | none => rfl
  | some v => exact Value.attribute?_settledType v site.index

/-- A new entry of an attribute stands in that attribute only. -/
theorem attributeAt?_setEntry (s : Schema) (site other : Site) (key : String) (value : Value) :
    (s.setEntry site key value).attributeAt? other =
      if other = site then (s.attributeAt? other).map (·.set key value) else s.attributeAt? other := by
  obtain ⟨owner, index⟩ := site
  obtain ⟨owner', index'⟩ := other
  rw [attributeAt?_eq, attributeAt?_eq, setEntry, get?_update]
  simp only [Site.mk.injEq]
  by_cases ho : owner' = owner
  · cases s.get? owner' with
    | none => simp [ho]
    | some v => simp [ho, Value.attribute?_put, Option.bind_some]
  · simp [ho]

/-- An entry of an attribute that its settled form does not show. -/
theorem settled_setEntry {s : Schema} {site : Site} {key : String} {value : Value}
    (h : ∀ r, s.attributeAt? site = some r → (r.set key value).settled = r.settled) :
    (s.setEntry site key value).settled = s.settled := by
  apply settled_update
  intro v hv
  apply Value.settledType_modifyLayout
  intro type layout htype hlayout
  apply Value.settledLayout_modifyItem
  intro items w hitems hw
  cases w with
  | table entries =>
    have hr : s.attributeAt? site = some ⟨entries⟩ := by
      rw [attributeAt?_eq, hv, Option.bind_some, Value.attribute?, htype, Option.bind_some, hlayout,
        hitems]
      exact congrArg (·.bind Value.record?) hw
    exact congrArg Record.value (h ⟨entries⟩ hr)
  | _ => rfl

theorem settled_setOwner (s : Schema) (site : Site) (owner : Value) :
    (s.setEntry site "aggregate_class" owner).settled = s.settled :=
  settled_setEntry fun r _ => r.settled_set_owner owner

theorem settled_setName {s : Schema} {site : Site} {r : Record} {name : Value}
    (hr : s.attributeAt? site = some r) (hn : r.inlineName? = some name) :
    (s.setEntry site "name" name).settled = s.settled := by
  apply settled_setEntry
  intro r' hr'
  obtain rfl : r = r' := by simpa [hr] using hr'
  exact Record.settled_set_name hn

theorem settled_setFact (s : Schema) (name : String) (value : Value) :
    (s.setFact name "name" value).settled = s.settled :=
  settled_update fun v _ => v.settledType_put_name value

end Schema
end SchemaForge
