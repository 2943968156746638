import SchemaForge.Proofs.SoundPlans

/-! What the sources of a well formed schema have in common: the conditions of attributes, the factories,
and the entities that the support files tell apart. -/
namespace SchemaForge
open Checked

namespace Schema
variable {s₀ s : Schema}

theorem Complete.reached (h : s₀.Complete s) : s₀.Reached s := ⟨s₀.marks, fun _ hm => hm, h⟩

/-- When planning is complete, all inline attributes that a class meets have the names of their types. -/
theorem Complete.namedAt (h : s₀.Complete s) {name : String} (hname : name ∈ s₀.names)
    (hclass : s₀.isClass name = true) {site : Site} (hsite : site ∈ s₀.met s₀.depthLimit name) :
    s.NamedAt site := by
  have hnoted : s.note name site = s := by
    rw [note_eq, h]
    exact markAll_of_subset (mem_marks_of_met hname hclass hsite)
  rw [← hnoted]
  exact namedAt_noteName _ site

/-- When planning is complete, all attributes that a class meets have names. -/
theorem Complete.exists_name (h : s₀.Complete s) (h₀ : s₀.WellFormed) {name : String}
    (hname : name ∈ s₀.names) (hclass : s₀.isClass name = true) {site : Site}
    (hsite : site ∈ s₀.met s₀.depthLimit name) :
    ∃ r own, s.attributeAt? site = some r ∧ r.get? "name" = some (.text own) := by
  have hr := h.reached
  have hnamed := h.namedAt hname hclass hsite
  obtain ⟨r₀, hat₀⟩ := h₀.exists_attribute_of_met hsite
  obtain ⟨r, hat, -⟩ := exists_attribute_congr hr.settled hat₀
  have hsound := (hr.steady h₀).sound site r hat
  by_cases hi : r.isInline = true
  · obtain ⟨type, htype, -⟩ := hsound.typed
    refine ⟨r, Text.lowerFirst type, hat, ?_⟩
    rw [← show r.Named from hnamed r hat, Record.get?_name_settled]
    simp [Record.inlineName?, hi, htype, Except.toOption]
  · obtain ⟨own, hown, -⟩ := hsound.named (by simpa using hi)
    exact ⟨r, own, hat, hown⟩

end Schema

theorem Value.succeeds_asKey {size : Value} (h : size.isSize = true) : Succeeds size.asKey := by
  cases size <;> simp_all [isSize, isText, number?, text?, asKey, isKey]

namespace Source
variable {s₀ s : Schema} {name : String} {e : Entry}

/-- The code of attributes is complete if that of each one is, as far as conditions can be written. -/
theorem succeeds_parts {condition code : Entry → Checked String} {entries : List Entry}
    (h : ∀ e ∈ entries, e.isConditional = true → Succeeds (condition e)) :
    Succeeds (parts condition code entries) ↔ ∀ e ∈ entries, Succeeds (code e) := by
  have hpart : ∀ e ∈ entries, Succeeds (partOf condition code e) ↔ Succeeds (code e) := by
    intro e he
    by_cases hc : e.isConditional = true
    · obtain ⟨guard, hguard⟩ := h e he hc
      simp [partOf, hc, hguard]
    · simp [partOf, hc]
  rw [parts, succeeds_mapM]
  exact forall₂_congr hpart

section
variable (h₀ : s₀.WellFormed) (hr : s₀.Reached s) (h : ClassModel.Apt s₀ name e)
include h₀ hr h

theorem exists_type : ∃ type, (s.attributeAt e.site).need "type" = .ok (.text type) ∧
    Succeeds (s.className (.text type) (s.attributeAt e.site).value) := by
  obtain ⟨r, hat, hsound, -⟩ := h.exists_attribute h₀ hr
  obtain ⟨type, htype, -⟩ := hsound.typed
  refine ⟨type, ?_, ?_⟩
  · rw [Schema.attributeAt, hat, Option.getD_some, Record.need_of_get? htype]
  · rw [Schema.attributeAt, hat, Option.getD_some]
    exact (hr.steady h₀).succeeds_className type r (by simp [Record.has, htype])

/-- The condition of an attribute can be written. -/
theorem succeeds_conditionOf (hc : e.isConditional = true) (t : Target) (tail : String) :
    Succeeds (conditionOf t s (fun c => pure c.spell) tail e) := by
  obtain ⟨operation, c, value, hop, hcondition, hvalue⟩ := h.condition h₀ hr hc
  obtain ⟨d, own, type, decl, values, hd, -, htype, -⟩ := h.discriminator h₀ hr hc
  have hclass : Succeeds (s.className (.text type) (s.attributeAt d).value) := by
    refine (hr.steady h₀).succeeds_className type _ ?_
    simp [Record.has, Record.need_eq_ok.1 htype]
  simp [conditionOf, hop, hcondition, hd, htype, hclass, hvalue, Value.succeeds_enumName]

/-- What a getter needs to guard an attribute: the test, the discriminator, and the value for it. -/
theorem exists_guard (hc : e.isConditional = true) (t : Target) (tail : String) :
    ∃ test discriminator asked value, conditionOf t s (fun c => pure c.spell) tail e = .ok test ∧
      (s.attributeAt e.site).need "condition" = .ok discriminator ∧
      (s.attributeAt e.site).need "condition_value" = .ok asked ∧ asked.enumName = .ok value := by
  obtain ⟨test, htest⟩ := succeeds_conditionOf h₀ hr h hc t tail
  obtain ⟨-, c, asked, -, hcondition, hasked⟩ := h.condition h₀ hr hc
  obtain ⟨value, hvalue⟩ := Value.succeeds_enumName asked
  exact ⟨test, .text c, .text asked, value, htest, hcondition, hasked, hvalue⟩

end

theorem succeeds_conditionReads (h₀ : s₀.WellFormed) (hr : s₀.Reached s) {entries : List Entry}
    (h : ∀ e ∈ entries, ClassModel.Apt s₀ name e) : Succeeds (conditionReads s entries) := by
  simp only [conditionReads_eq, succeeds_bind, succeeds_mapM, pure_eq_ok, succeeds_ok, implies_true,
    and_true]
  intro e he
  obtain ⟨hmem, hearly⟩ := List.mem_filter.1 he
  obtain ⟨-, c, -, -, hcondition, -⟩ := (h e hmem).condition h₀ hr (Bool.and_eq_true_iff.1 hearly).2
  simp [conditionPair, hcondition, Value.succeeds_asKey (h e hmem).sized]

/-- A size field counts an attribute with a name. -/
theorem exists_counted (h₀ : s₀.WellFormed) (hs : s₀.Complete s) (hname : name ∈ s₀.names)
    (hclass : s₀.isClass name = true) (h : ClassModel.Apt s₀ name e) (hk : e.kind = .sizeField) :
    ∃ r own, counted s e = .ok r ∧ r.need "name" = .ok (.text own) := by
  obtain ⟨array, harray, hparent⟩ := h.counts hk
  obtain ⟨r, own, hat, hown⟩ := hs.exists_name h₀ hname hclass harray
  refine ⟨r, own, ?_, Record.need_of_get? hown⟩
  simp [counted, hparent, Schema.attributeAt, hat]

end Source

namespace ClassModel
variable {s₀ : Schema} {name : String} {choice : List Entry}

theorem succeeds_readingParts {condition load : Entry → Checked String} {m : ClassModel}
    (h : ∀ e ∈ m.own, e.isConditional = true → Succeeds (condition e)) :
    Succeeds (m.readingParts condition load) ↔ ∀ e ∈ m.own, Succeeds (load e) := by
  have hparts : ∀ p : Entry → Bool, Succeeds (Source.parts condition load (m.own.filter p)) ↔
      ∀ e ∈ m.own.filter p, Succeeds (load e) := fun p =>
    Source.succeeds_parts fun e he hc => h e (List.mem_filter.1 he).1 hc
  simp only [readingParts, succeeds_bind, hparts, pure_eq_ok, succeeds_ok, implies_true, and_true]
  constructor
  · rintro ⟨hfirst, hrest⟩ e he
    by_cases hearly : e.readBefore = true
    · obtain ⟨first, hfirst⟩ := (hparts _).2 hfirst
      exact hrest first hfirst e (List.mem_filter.2 ⟨he, hearly⟩)
    · exact hfirst e (List.mem_filter.2 ⟨he, by simpa using hearly⟩)
  · intro hall
    exact ⟨fun e he => hall e (List.mem_filter.1 he).1, fun _ _ e he => hall e (List.mem_filter.1 he).1⟩

/-- Fixed discriminators are fixed to names. -/
theorem text_of_isFixed {e : Entry} (h : Apt s₀ name e) (hf : isFixed e = true) :
    ∃ value, e.conditionValue = .text value := by
  refine h.fixed.resolve_left fun hnull => ?_
  have hno : (Value.null != Value.null) = false := rfl
  simp [isFixed, hnull, hno] at hf

theorem succeeds_factorySuffix (h : ∀ e ∈ choice, Apt s₀ name e) : Succeeds (factorySuffix choice) := by
  simp only [factorySuffix, succeeds_bind, succeeds_mapM, pure_eq_ok, succeeds_ok, implies_true,
    and_true]
  intro e he
  obtain ⟨hmem, hfixed⟩ := List.mem_filter.1 he
  obtain ⟨value, hvalue⟩ := text_of_isFixed (h e hmem) hfixed
  simp [hvalue]

/-- Fixed discriminators can be written with their classes. -/
theorem exists_fixed {s : Schema} (h₀ : s₀.WellFormed) (hr : s₀.Reached s) {e : Entry}
    (h : ∀ e ∈ choice, Apt s₀ name e) (he : e ∈ fixedEntries choice) :
    ∃ type className value, (s.attributeAt e.site).need "type" = .ok type ∧
      s.className type (s.attributeAt e.site).value = .ok className ∧
      e.conditionValue.enumName = .ok value := by
  obtain ⟨hmem, hfixed⟩ := List.mem_filter.1 he
  obtain ⟨type, htype, className, hclass⟩ := Source.exists_type h₀ hr (h e hmem)
  obtain ⟨fixed, hvalue⟩ := text_of_isFixed (h e hmem) hfixed
  obtain ⟨value, henum⟩ := Value.succeeds_enumName fixed
  exact ⟨.text type, className, value, htype, hclass, by rw [hvalue, henum]⟩

end ClassModel

namespace Schema
variable {s₀ s : Schema} {name : String}

theorem has_layout_congr (h : s.settled = s₀.settled) {d₀ d : Record}
    (hd₀ : s₀.get? name = some d₀.value) (hd : s.get? name = some d.value) :
    d.has "layout" = d₀.has "layout" := by
  have hs := s.get?_settled name
  rw [h, get?_settled, hd₀, hd] at hs
  have hsettled : d₀.value.settledType = d.value.settledType := by simpa using hs
  have hlookup := Value.lookup_layout_settledType d₀.entries _ rfl
  have hlookup' := Value.lookup_layout_settledType d.entries _ hsettled.symm
  rw [hlookup] at hlookup'
  have hsome := congrArg Option.isSome hlookup'
  simpa [Record.has, Record.get?] using hsome.symm

/-- The layout of a type that has one lists records. -/
theorem Reached.layout_of_has (h₀ : s₀.WellFormed) (hr : s₀.Reached s) {d : Record}
    (hd : s.get? name = some d.value) (hhas : d.has "layout" = true) :
    ∃ layout, (s.need name >>= Value.layout) = .ok layout ∧ ∀ v ∈ layout, ∃ r : Record, v = r.value := by
  have hnames : name ∈ s₀.names := by
    rw [← names_congr hr.settled]
    exact mem_names_of_get? hd
  obtain ⟨d₀, d', hd₀, -, hd', -⟩ := hr.exists_type h₀ hnames
  obtain rfl := type_unique hd hd'
  rw [has_layout_congr hr.settled hd₀ hd] at hhas
  obtain ⟨layout₀, hl₀⟩ := h₀.layout_of_has hd₀ hhas
  obtain ⟨layout, hl, -⟩ := exists_layout_congr hr.settled hl₀
  exact ⟨layout, hl, (hr.steady h₀).listed name layout hl⟩

end Schema

namespace Entity
variable {s₀ s : Schema}

/-- The value of an attribute by name, among attributes that are records. -/
theorem valueOf_eq {name : String} {attributes : List Value}
    (h : ∀ v ∈ attributes, ∃ r : Record, v = r.value) :
    ∃ value, valueOf name attributes = .ok value ∧ (value = .int 0 ∨ ∃ r : Record, r.value ∈ attributes ∧
      r.is "name" name = true ∧ r.get? "value" = some value) := by
  have hfind : ∀ v ∈ attributes, (do return (← v.find "name").any (· == .text name)) =
      (.ok (v.record?.any (·.is "name" name)) : Checked Bool) := by
    intro v hv
    obtain ⟨r, rfl⟩ := h v hv
    rfl
  obtain ⟨named, hnamed⟩ := succeeds_filterM fun v hv => ⟨_, hfind v hv⟩
  have hkept := Checked.filterM_eq_filter
    (fun v hv b hb => Except.ok.inj (hb.symm.trans (hfind v hv))) hnamed
  simp only [valueOf, hnamed, ok_bind]
  cases hn : named with
  | nil => exact ⟨.int 0, rfl, .inl rfl⟩
  | cons v rest =>
    have hmem : v ∈ attributes.filter fun v => v.record?.any (·.is "name" name) := by
      rw [← hkept, hn]
      exact List.mem_cons_self
    obtain ⟨hmem, hname⟩ := List.mem_filter.1 hmem
    obtain ⟨r, rfl⟩ := h v hmem
    simp only [Value.find_record, ok_bind]
    cases hvalue : r.get? "value" with
    | none => exact ⟨.int 0, rfl, .inl rfl⟩
    | some value => exact ⟨value, rfl, .inr ⟨r, hmem, hname, hvalue⟩⟩

/-- A value that is not zero stands at an attribute of the name. -/
theorem valueOf_eq_ok {name : String} {attributes : List Value} {value : Value}
    (h : valueOf name attributes = .ok value) : value = .int 0 ∨ ∃ r : Record, r.value ∈ attributes ∧
      r.is "name" name = true ∧ r.get? "value" = some value := by
  obtain ⟨named, hnamed, -⟩ := Checked.bind_eq_ok.1 h
  have hrecords : ∀ v ∈ attributes, ∃ r : Record, v = r.value := by
    intro v hv
    obtain ⟨found, hfound⟩ := succeeds_of_filterM hnamed v hv
    cases v with
    | table entries => exact ⟨⟨entries⟩, rfl⟩
    | _ => cases hfound
  obtain ⟨value', hvalue, hcases⟩ := @valueOf_eq name attributes hrecords
  obtain rfl := Except.ok.inj (h.symm.trans hvalue)
  exact hcases

section
variable (h₀ : s₀.WellFormed) (hr : s₀.Reached s)
include h₀ hr

/-- What tells entities apart is a number. -/
theorem number_of_entityType {site : Site} {r : Record} (hat : s.attributeAt? site = some r)
    (hname : r.is "name" "entityType" = true) {value : Value} (hvalue : r.get? "value" = some value) :
    ∃ n, value.number? = some n := by
  have hnames : "entityType" ∈ s₀.namesAt site := by
    refine hr.namesAt site ?_
    simp [Schema.namesAt, Schema.attributeAt, hat, Record.names, Record.get?_of_is hname]
  obtain ⟨r₀, hat₀, hsettled⟩ := Schema.exists_attribute_congr hr.settled.symm hat
  obtain ⟨d, -, hattribute⟩ := h₀.isAttribute_at hat₀
  simp only [Schema.isAttribute, Schema.hasValue, Bool.and_eq_true] at hattribute
  have hvalue₀ : r₀.get? "value" = some value := by
    rw [← Record.get?_settled r₀ (by simp) (by simp), hsettled,
      Record.get?_settled r (by simp) (by simp), hvalue]
  have hnumber := hattribute.1.2.2
  simp only [Schema.namesAt, Schema.attributeAt, hat₀, Option.getD_some] at hnames
  simpa [hnames, hvalue₀, Option.isSome_iff_exists] using hnumber

theorem succeeds_ofType? {name : String} {declared : Value} (hd : s.get? name = some declared) :
    Succeeds (ofType? name declared) := by
  obtain ⟨d, -, hd', -⟩ := (hr.steady h₀).known name declared hd
  obtain rfl := Option.some.inj (hd.symm.trans hd')
  -- What is left to do once the attributes are known.
  have hrest : ∀ attributes : List Value, (∀ v ∈ attributes, ∃ r : Record, v = r.value) →
      (∀ r : Record, r.value ∈ attributes → ∃ site, s.attributeAt? site = some r) →
      Succeeds (do
        let type ← valueOf "entityType" attributes
        let version ← valueOf "version" attributes
        return if 0 < (← type.compared) then some ({ name, type, version } : Entity) else none) := by
    intro attributes hrecords hsites
    obtain ⟨type, htype, hvalue⟩ := @valueOf_eq "entityType" attributes hrecords
    obtain ⟨version, hversion, -⟩ := @valueOf_eq "version" attributes hrecords
    have hnumber : ∃ n, type.number? = some n := by
      rcases hvalue with rfl | ⟨r, hmem, hname, hvalue⟩
      · exact ⟨0, rfl⟩
      · obtain ⟨site, hat⟩ := hsites r hmem
        exact number_of_entityType h₀ hr hat hname hvalue
    simp [htype, hversion, Value.succeeds_compared.2 hnumber]
  rw [ofType?, Value.find_record, ok_bind]
  cases hl : d.get? "layout" with
  | none => exact hrest [] (by simp) (by simp)
  | some layout =>
    obtain ⟨items, hitems, hrecords⟩ := hr.layout_of_has h₀ hd (by simp [Record.has, hl])
    have hlayout : layout.items = .ok items := by
      simpa [Schema.need_eq_ok.2 hd, Value.layout, Record.need_of_get? hl] using hitems
    simp only [hlayout, ok_bind]
    refine hrest items hrecords fun r hmem => ?_
    obtain ⟨index, hindex⟩ := List.mem_iff_getElem?.1 hmem
    exact ⟨_, Schema.attributeAt?_of_layout hitems hindex⟩

theorem succeeds_select (admits : String → Bool) : Succeeds (select admits s) := by
  have hdistinct : s.names.Nodup := by
    rw [Schema.names_congr hr.settled]
    exact h₀.distinct
  simp only [select, succeeds_mapM]
  rintro ⟨name, declared⟩ hp
  have hentity := succeeds_ofType? h₀ hr (Schema.get?_of_mem hdistinct hp)
  simp [hentity]

end
end Entity
end SchemaForge
