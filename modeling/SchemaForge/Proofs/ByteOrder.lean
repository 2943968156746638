import SchemaForge.Proofs.Padding

/-! The order of bytes. The methods of a class that read, measure and write deal with the same
attributes, and what is written for an object is read again in the same pieces. -/
namespace SchemaForge
open Source Checked

namespace Schema
variable {s : Schema}

theorem widthOf?_settled (s : Schema) (e : Entry) : s.settled.widthOf? e = s.widthOf? e := by
  have hdeclared : ∀ declared : Value, (declared.settledType.record?.bind fun r => r.get? "size") =
      declared.record?.bind fun r => r.get? "size" := by
    intro declared
    cases declared with
    | table entries => exact Value.lookup_settledType (by decide) (by decide) entries _ rfl
    | _ => rfl
  unfold widthOf?
  rw [attributeAt_settled, Record.get?_settled _ (by decide) (by decide)]
  congr 1
  funext type
  congr 1
  funext name
  rw [get?_settled]
  cases s.get? name with
  | none => rfl
  | some declared => exact hdeclared declared

/-- An attribute that leaves its size to its type has the size that the type declares, or else one. -/
theorem sizeOf_unsized {r : Record} {type : String} {size : Value} (h : s.sizeOf r.value = .ok size)
    (hsize : r.get? "size" = none) (htype : r.get? "type" = some (.text type)) :
    size = ((s.get? type).bind fun declared =>
      declared.record?.bind fun r => r.get? "size").getD (.int 1) := by
  have hhas : r.value.has "size" = .ok false := by
    change Except.ok (r.get? "size").isSome = _
    rw [hsize]
    rfl
  have hneed : r.value.need "type" = .ok (.text type) := by
    rw [Value.need_record, Record.need, htype]
    rfl
  simp only [sizeOf, hhas, hneed, ok_bind, Bool.false_eq_true, if_false] at h
  split at h
  · -- A plain number would need a size of its own.
    rw [Value.need_record, Record.need, hsize] at h
    cases h
  · obtain ⟨declared, hdeclared, h⟩ := bind_eq_ok.1 h
    obtain ⟨found, hfound, h⟩ := bind_eq_ok.1 h
    have hget : s.get? type = some declared := by
      rw [need_text] at hdeclared
      cases hg : s.get? type <;> simp_all [Checked.require]
    rw [hget, Option.bind_some]
    cases declared with
    | table entries =>
      obtain rfl : (entries.lookup "size").isSome = found := Except.ok.inj hfound
      cases hl : entries.lookup "size" with
      | none =>
        have hone : Value.int 1 = size := by simpa [hl] using h
        simp [Value.record?, Record.get?, hl, hone]
      | some declaredSize =>
        have hdeclaredSize : declaredSize = size := by
          simpa [hl, Value.need, Record.need, Record.get?, Checked.require] using h
        simp [Value.record?, Record.get?, hl, hdeclaredSize]
    | _ =>
      cases found with
      | true => simp [Value.need] at h
      | false => simpa [Value.record?] using h.symm

end Schema

namespace ClassModel

/-- What a model ensures of its entries. -/
structure Sound (t : Target) (e : Entry) : Prop where
  known : e.kind ≠ .unknown
  early : e.readBefore = true → e.isConditional = true
  number : t = .java → e.kind = .simple ∨ e.kind = .sizeField → JavaClass.IsNumber e

theorem sound_of_entryOf {f : Frame} {s : Schema} {before : List Entry} {site : Site}
    {aggregate : Option Aggregate} {e : Entry} (h : entryOf f s before site aggregate = .ok e) :
    Sound f.target e := by
  obtain ⟨member, hmember, h⟩ := bind_eq_ok.1 h
  obtain ⟨r, hr, h⟩ := bind_eq_ok.1 h
  obtain ⟨conditionSite, -, h⟩ := bind_eq_ok.1 h
  obtain ⟨parent, -, rfl⟩ := return_eq_ok.1 h
  obtain ⟨r', hx⟩ := memberFrom_of_memberOf hmember
  obtain rfl : r = r' := Except.ok.inj (hr.symm.trans hx.record)
  obtain ⟨layout, -, hkind⟩ := hx.kind
  refine ⟨(Value.kind_cases hkind).1, ?_, ?_⟩
  · intro hearly
    change member.isConditional = true
    rw [hx.isConditional, Record.isConditional, Record.has]
    cases hc : r.get? "condition" with
    | none => simp [hc] at hearly
    | some c => rfl
  · intro ht hk
    have htype := hx.varType
    obtain ⟨type, -, htype⟩ := bind_eq_ok.1 htype
    have hnumber : (do f.target.numberType (← s.sizeOf r)) = .ok member.varType := by
      rcases hk with hk | hk <;> simpa only [show member.kind = _ from hk] using htype
    rw [hx.size, ht] at hnumber
    exact ⟨member.varType, hnumber⟩

theorem sound_of_model {t : Target} {s : Schema} {name : String} {m : ClassModel}
    (hm : modelOf t s name = .ok m) : ∀ e ∈ m.entries, Sound t e := by
  obtain ⟨f, rfl, -, -, hdrawn, -, -⟩ := drawn_of_model hm
  exact forall_of_drawn (fun _ _ _ _ _ _ h => sound_of_entryOf h) hdrawn

/-- The early attributes that a class holds itself. -/
def early (m : ClassModel) : List Entry := m.own.filter (·.readBefore)

theorem own_eq_of_early_first {m : ClassModel} (h : m.early <+: m.own) :
    m.own = m.early ++ m.own.filter (!·.readBefore) := by
  obtain ⟨rest, hrest⟩ := h
  have hall : m.early.filter (·.readBefore) = m.early := by
    rw [early, List.filter_filter]
    simp
  have hnone : m.early.filter (!·.readBefore) = [] := by
    rw [early, List.filter_filter]
    simp
  have hsplit : m.early = m.early ++ rest.filter (·.readBefore) := by
    calc m.early = (m.early ++ rest).filter (·.readBefore) := by rw [hrest, early]
      _ = m.early ++ rest.filter (·.readBefore) := by rw [List.filter_append, hall]
  have hlate : rest.filter (·.readBefore) = [] := List.self_eq_append_right.1 hsplit
  have hrestLate : rest.filter (!·.readBefore) = rest := by
    rw [List.filter_eq_self]
    intro e he
    have hnot := List.filter_eq_nil_iff.1 hlate e he
    simpa using hnot
  rw [← hrest, List.filter_append, hnone, List.nil_append, hrestLate, hrest]

end ClassModel

/-- Whether there are no bytes. -/
def Extent.isNothing : Extent → Bool
  | .nothing => true
  | _ => false

/-- An extent as far as the schema tells it: an object of a byte type has the bytes that the type
declares. -/
def Extent.resolved (s : Schema) (e : Entry) : Extent → Extent
  | .object => if e.baseType.isByte then .fixed ((s.widthOf? e).getD (.int 1)) else .object
  | x => x

theorem Extent.isNothing_resolved (s : Schema) (e : Entry) (x : Extent) :
    (x.resolved s e).isNothing = x.isNothing := by
  cases x with
  | object => by_cases hb : e.baseType.isByte = true <;> simp [resolved, hb, isNothing]
  | _ => rfl

namespace Source

theorem entries_of_isPart {condition code : Entry → Checked String} {entries : List Entry}
    {ps : List Part} (h : List.Forall₂ (IsPart condition code) entries ps) :
    ps.map (·.entry) = entries := by
  induction h with
  | nil => rfl
  | cons hp _ ih => rw [List.map_cons, hp.entry, ih]

/-- The bytes that belong to some attributes, in their order. Attributes without bytes are left out. -/
def spans (extent : Entry → Extent) (entries : List Entry) : List (String × Extent) :=
  (entries.map fun e => (e.name, extent e)).filter (!·.2.isNothing)

theorem spans_append (extent : Entry → Extent) (entries entries' : List Entry) :
    spans extent (entries ++ entries') = spans extent entries ++ spans extent entries' := by
  unfold spans
  rw [List.map_append, List.filter_append]

theorem spans_eq_map {extent : Entry → Extent} {entries : List Entry}
    (h : ∀ e ∈ entries, (extent e).isNothing = false) :
    spans extent entries = entries.map fun e => (e.name, extent e) := by
  unfold spans
  rw [List.filter_eq_self]
  intro x hx
  obtain ⟨e, he, rfl⟩ := List.mem_map.1 hx
  simp [h e he]

theorem spans_eq_nil {extent : Entry → Extent} {entries : List Entry}
    (h : ∀ e ∈ entries, (extent e).isNothing = true) : spans extent entries = [] := by
  unfold spans
  rw [List.filter_eq_nil_iff]
  intro x hx
  obtain ⟨e, he, rfl⟩ := List.mem_map.1 hx
  simp [h e he]

end Source

namespace ClassForm

/-- Whether code reads an attribute from so many bytes. -/
def Reads : ClassForm → Entry → String → Extent → Prop
  | java => JavaClass.Reads
  | typescript => TypeScriptClass.Reads
  | python | transaction => PythonClass.Reads

/-- Whether code writes an attribute as so many bytes. -/
def Writes : ClassForm → Entry → String → Extent → Prop
  | java => JavaClass.Writes
  | typescript => TypeScriptClass.Writes
  | python | transaction => fun _ => PythonClass.Writes

/-- The bytes that are read for an attribute. -/
def taken : ClassForm → Schema → Entry → Extent
  | java => JavaClass.taken
  | typescript => TypeScriptClass.taken
  | python | transaction => fun _ => PythonClass.taken

/-- The bytes that are written for an attribute. -/
def put : ClassForm → Schema → Entry → Extent
  | java => JavaClass.put
  | typescript => TypeScriptClass.put
  | python | transaction => fun _ => PythonClass.put

/-- The attributes and bytes that are read for an object with some active attributes. The condition that
is read first counts as the early attribute that is active. -/
def consumed (f : ClassForm) (s : Schema) (m : ClassModel) (ms : Methods) (active : Entry → Bool) :
    List (String × Extent) :=
  ((m.early.filter active).map fun e => (e.name, .fixed e.size)) ++
    spans (fun e => (f.taken s e).resolved s e) ((ms.loads.map (·.entry)).filter active)

/-- The attributes and bytes that are written for an object with some active attributes. -/
def produced (f : ClassForm) (s : Schema) (ms : Methods) (active : Entry → Bool) :
    List (String × Extent) :=
  spans (fun e => (f.put s e).resolved s e) ((ms.writes.map (·.entry)).filter active)

variable {f : ClassForm} {s : Schema} {e : Entry}

theorem isNothing_put (hk : e.kind ≠ .unknown) : (f.put s e).isNothing = false := by
  cases f with
  | java => cases hkind : e.kind <;> simp_all [put, JavaClass.put, Extent.isNothing]
  | typescript =>
    by_cases he : e.baseType.isEnum = true <;> cases hkind : e.kind <;>
      simp_all [put, TypeScriptClass.put, Extent.isNothing]
  | python | transaction => cases hkind : e.kind <;> simp_all [put, PythonClass.put, Extent.isNothing]

theorem isNothing_taken (hk : e.kind ≠ .unknown) (hb : e.readBefore = false) :
    (f.taken s e).isNothing = false := by
  cases f with
  | java => cases hkind : e.kind <;> simp_all [taken, JavaClass.taken, Extent.isNothing]
  | typescript =>
    by_cases he : e.baseType.isEnum = true <;> cases hkind : e.kind <;>
      simp_all [taken, TypeScriptClass.taken, Extent.isNothing]
  | python | transaction =>
    cases hkind : e.kind <;> simp_all [taken, PythonClass.taken, Extent.isNothing]

/-- A late attribute is written as it is read, unless a TypeScript class pads the elements of an array
that it counts. -/
theorem taken_eq_put_iff (hk : e.kind ≠ .unknown) (hb : e.readBefore = false) :
    (f.taken s e).resolved s e = (f.put s e).resolved s e ↔
      (f = .typescript → e.kind = .array → alignmentOf s e = 0) := by
  cases f with
  | java =>
    simp only [taken, put, JavaClass.taken, JavaClass.put, hb, Bool.false_eq_true, if_false]
    simp
  | typescript =>
    cases hkind : e.kind with
    | array =>
      by_cases he : e.baseType.isEnum = true <;>
        simp [taken, put, TypeScriptClass.taken, TypeScriptClass.put, hkind, he, Extent.resolved,
          eq_comm]
    | unknown => exact absurd hkind hk
    | _ => simp [taken, put, TypeScriptClass.taken, TypeScriptClass.put, hkind, hb]
  | python | transaction =>
    simp only [taken, put, PythonClass.taken, PythonClass.put, hb, Bool.false_eq_true, if_false]
    simp

/-- An early attribute takes no bytes when its turn comes. -/
theorem isNothing_taken_early (hk : e.kind = .custom) (hb : e.readBefore = true) :
    (f.taken s e).isNothing = true := by
  cases f <;> simp [taken, JavaClass.taken, TypeScriptClass.taken, PythonClass.taken, hk, hb,
    Extent.isNothing]

/-- An object of a byte type is written with the bytes that its type declares. -/
theorem put_of_isByte (hk : e.kind = .custom) (hb : e.baseType.isByte = true) :
    (f.put s e).resolved s e = .fixed ((s.widthOf? e).getD (.int 1)) := by
  have he : e.baseType.isEnum = false := by
    rw [Value.isByte] at hb
    rw [Value.eq_text_of_beq hb]
    decide
  cases f <;> simp [put, JavaClass.put, TypeScriptClass.put, PythonClass.put, hk, hb, he,
    Extent.resolved]

/-- Whether the parts of the three methods are those of the own attributes: one for each, under its
condition if it has one, and in their order. Only in the method that reads, the early ones come last. -/
structure Covers (f : ClassForm) (s : Schema) (m : ClassModel) (ms : Methods) : Prop where
  loads : List.Forall₂ (IsPart (f.loadTest s) (f.load s m))
    (m.own.filter (!·.readBefore) ++ m.early) ms.loads
  sizes : List.Forall₂ (IsPart (f.heldTest s) (f.size s)) m.own ms.sizes
  writes : List.Forall₂ (IsPart (f.heldTest s) (f.write s m)) m.own ms.writes

theorem covers_of_methods {m : ClassModel} {ms : Methods} (h : f.methods s m = .ok ms) :
    f.Covers s m ms := by
  obtain ⟨-, hloads, hsizes, hwrites⟩ := methods_eq_ok.1 h
  exact ⟨isPart_of_readingParts hloads, isPart_of_parts hsizes, isPart_of_parts hwrites⟩

/-- Whether the parts read and write the bytes that belong to their attributes. -/
structure Spans (f : ClassForm) (s : Schema) (ms : Methods) : Prop where
  loads : ∀ p ∈ ms.loads, f.Reads p.entry p.code (f.taken s p.entry)
  writes : ∀ p ∈ ms.writes, f.Writes p.entry p.code (f.put s p.entry)

end ClassForm

namespace JavaClass
variable {s : Schema} {m : ClassModel} {e : Entry} {code : String}

theorem isNumber_of_flags (h : serialize s m e = .ok code) (hk : e.kind = .flags) : IsNumber e := by
  simp only [serialize, hk] at h
  obtain ⟨written, hwritten, -⟩ := bind_eq_ok.1 h
  obtain ⟨method, -, hwritten⟩ := bind_eq_ok.1 hwritten
  obtain ⟨reverse, -, hwritten⟩ := bind_eq_ok.1 hwritten
  obtain ⟨value, hvalue, -⟩ := bind_eq_ok.1 hwritten
  obtain ⟨type, htype, -⟩ := bind_eq_ok.1 hvalue
  exact ⟨type, htype⟩

theorem fits_of_sound (hsound : ClassModel.Sound .java e) (hname : m.name ≠ "Receipt")
    (h : serialize s m e = .ok code) : Fits m e where
  known := hsound.known
  number hk := by
    rcases hk with hk | hk | hk
    · exact hsound.number rfl (.inl hk)
    · exact hsound.number rfl (.inr hk)
    · exact isNumber_of_flags h hk
  early _ hb := hsound.early hb
  named _ := hname

end JavaClass

/-- Whether a TypeScript class writes an attribute as a number in any case. -/
def Entry.isCounted (e : Entry) : Bool :=
  e.kind = .sizeField || e.kind = .flags || e.kind = .simple && e.isReserved

namespace ClassModel
variable {t : Target} {s s₁ : Schema} {name : String} {m : ClassModel}

theorem reads_and_writes {e : Entry} (hsound : Sound t e) (hname : m.name ≠ "Receipt")
    (hnumber : t = .typescript → e.isCounted = true → TypeScriptClass.IsNumber e)
    {load write : String} (hload : (ClassForm.of t m).load s m e = .ok load)
    (hwrite : (ClassForm.of t m).write s m e = .ok write) :
    (ClassForm.of t m).Reads e load ((ClassForm.of t m).taken s e) ∧
      (ClassForm.of t m).Writes e write ((ClassForm.of t m).put s e) := by
  cases t with
  | java =>
    have hfits := JavaClass.fits_of_sound hsound hname hwrite
    exact ⟨JavaClass.reads_load hload hfits, JavaClass.writes_serialize hwrite hfits⟩
  | typescript =>
    have hfits : TypeScriptClass.Fits m e := by
      refine ⟨hsound.known, ?_, fun _ => hname⟩
      intro hk
      apply hnumber rfl
      rcases hk with hk | hk | ⟨hk, hr⟩ <;> simp [Entry.isCounted, *]
    exact ⟨TypeScriptClass.reads_load hload hfits.known, TypeScriptClass.writes_serialize hwrite hfits⟩
  | python =>
    by_cases ht : Target.isTransactional m.name = true
    · simp only [ClassForm.of, ht, if_true] at hload hwrite ⊢
      exact ⟨PythonTransaction.reads_load hload hsound.known,
        PythonTransaction.writes_serialize hwrite hsound.known⟩
    · simp only [ClassForm.of, ht, Bool.false_eq_true, if_false] at hload hwrite ⊢
      exact ⟨PythonClass.reads_load hload hsound.known,
        PythonClass.writes_serialize hwrite hsound.known fun _ => hname⟩

theorem spans_of_methods {ms : Methods} (hsound : ∀ e ∈ m.own, Sound t e)
    (hname : m.name ≠ "Receipt")
    (hnumber : t = .typescript → ∀ e ∈ m.own, e.isCounted = true → TypeScriptClass.IsNumber e)
    (hms : (ClassForm.of t m).methods s m = .ok ms) : (ClassForm.of t m).Spans s ms := by
  have hcovers := ClassForm.covers_of_methods hms
  have hloads := entries_of_isPart hcovers.loads
  have hwrites := entries_of_isPart hcovers.writes
  -- The code of a part is the one that belongs to its entry.
  have hcode : ∀ e ∈ m.own, ∃ load write, Codes ms.loads e load ∧ Codes ms.writes e write ∧
      (ClassForm.of t m).Reads e load ((ClassForm.of t m).taken s e) ∧
      (ClassForm.of t m).Writes e write ((ClassForm.of t m).put s e) := by
    intro e he
    obtain ⟨load, -, write, hload, hloaded, -, -, hwrite, hwritten⟩ := ClassForm.codes_of_methods hms he
    exact ⟨load, write, hloaded, hwritten,
      reads_and_writes (hsound e he) hname (fun ht => hnumber ht e he) hload hwrite⟩
  refine ⟨?_, ?_⟩
  · intro p hp
    have hmem : p.entry ∈ ms.loads.map (·.entry) := List.mem_map_of_mem hp
    have hown : p.entry ∈ m.own := by
      rw [hloads] at hmem
      rcases List.mem_append.1 hmem with he | he <;> exact (List.mem_filter.1 he).1
    obtain ⟨load, write, hload, -, hreads, -⟩ := hcode p.entry hown
    rw [hload.2 p hp rfl]
    exact hreads
  · intro p hp
    have hmem : p.entry ∈ ms.writes.map (·.entry) := List.mem_map_of_mem hp
    rw [hwrites] at hmem
    obtain ⟨load, write, -, hwrite, -, hwrites⟩ := hcode p.entry hmem
    rw [hwrite.2 p hp rfl]
    exact hwrites

/-- Whether one condition can be read in the place of all early attributes of a class: they stand in
front of the others, they are objects of byte types that leave their sizes to their types, they have one
condition and one size, and there are none in the base class. -/
structure EarlyFirst (s : Schema) (m : ClassModel) : Prop where
  first : m.early <+: m.own
  object : ∀ e ∈ m.early, e.kind = .custom ∧ e.baseType.isByte = true ∧
    (s.attributeAt e.site).get? "size" = none
  shared : ∀ e ∈ m.early, ∀ e' ∈ m.early, e.size = e'.size ∧
    (s.attributeAt e.site).get? "condition" = (s.attributeAt e'.site).get? "condition"
  base : m.hasEarlyBase = false

/-- The size of an attribute that leaves it to its type. -/
theorem size_of_unsized (hm : modelOf t s name = .ok m) (hs : s₁.settled = s.settled) {e : Entry}
    (he : e ∈ m.entries) (hsize : (s₁.attributeAt e.site).get? "size" = none) :
    e.size = (s₁.widthOf? e).getD (.int 1) := by
  obtain ⟨f, -, -, -, hdrawn, -, -⟩ := drawn_of_model hm
  obtain ⟨v, -, hdepicts⟩ := exists_depicted (depicts_of_drawn hdrawn) he
  have hmember := hdepicts.member
  rw [← depicts_site hdepicts, ← hs] at hmember
  obtain ⟨r, hx⟩ := memberFrom_of_memberOf hmember
  obtain ⟨type, htype⟩ := hx.exists_type
  have hat : s₁.settled.attributeAt e.site = r := by
    rw [Schema.attributeAt, Schema.recordAt_eq_ok.1 hx.record, Option.getD_some]
  have hnone : r.get? "size" = none := by
    rw [← hat, Schema.attributeAt_settled, Record.get?_settled _ (by decide) (by decide), hsize]
  rw [← Schema.widthOf?_settled, Schema.sizeOf_unsized hx.size hnone htype, Schema.widthOf?, hat, htype,
    Option.bind_some, Value.text?_text, Option.bind_some]

/-- Early attributes with one condition and one size have one condition that is read first. -/
theorem pairs_of_shared {pairs : List (Value × Value)} (h : EarlyFirst s m)
    (hearly : ∀ e ∈ m.own, e.readBefore = true → e.isConditional = true)
    (hpairs : Collects s m.own pairs) {e : Entry} (he : e ∈ m.early) :
    ∃ condition, (s.attributeAt e.site).get? "condition" = some condition ∧
      pairs = [(condition, e.size)] := by
  have hisEarly : ∀ e ∈ m.early, e ∈ m.own ∧ e.isEarly = true := by
    intro e he
    obtain ⟨hown, hb⟩ := List.mem_filter.1 he
    exact ⟨hown, by simp [Entry.isEarly, hb, hearly e hown hb]⟩
  obtain ⟨p, hp, condition, hcondition, hsame⟩ := hpairs.covers e (hisEarly e he).1 (hisEarly e he).2
  have hall : ∀ q ∈ pairs, q = (condition, e.size) := by
    intro q hq
    obtain ⟨e', hown', hb', hcondition', hsize'⟩ := hpairs.occurs q hq
    have he' : e' ∈ m.early := by
      have hbefore : e'.readBefore = true := by
        rw [Entry.isEarly, Bool.and_eq_true] at hb'
        exact hb'.1
      exact List.mem_filter.2 ⟨hown', hbefore⟩
    obtain ⟨hsize, hshared⟩ := h.shared e he e' he'
    rw [hcondition, hcondition', Option.some.injEq] at hshared
    rw [hsize, hsize', hshared]
  refine ⟨condition, hcondition, ?_⟩
  rw [hall p hp] at hsame
  -- A second pair would be the same as the first one.
  cases pairs with
  | nil => simp at hp
  | cons q rest =>
    obtain rfl := hall q List.mem_cons_self
    cases rest with
    | nil => rfl
    | cons q' rest =>
      obtain rfl := hall q' (by simp)
      have hdistinct := (List.pairwise_cons.1 hpairs.distinct).1 _ List.mem_cons_self
      rw [hsame] at hdistinct
      cases hdistinct

theorem consumed_eq_produced_iff {f : ClassForm} {ms : Methods} (hcovers : f.Covers s m ms)
    (h : EarlyFirst s m) (hknown : ∀ e ∈ m.own, e.kind ≠ .unknown)
    (hwidth : ∀ e ∈ m.early, e.size = (s.widthOf? e).getD (.int 1)) (active : Entry → Bool) :
    f.consumed s m ms active = f.produced s ms active ↔
      (f = .typescript → ∀ e ∈ m.own, active e = true → e.kind = .array → alignmentOf s e = 0) := by
  let late := (m.own.filter (!·.readBefore)).filter active
  have hlate : ∀ e ∈ late, e ∈ m.own ∧ e.readBefore = false ∧ active e = true := by
    intro e he
    obtain ⟨he, ha⟩ := List.mem_filter.1 he
    obtain ⟨hown, hb⟩ := List.mem_filter.1 he
    exact ⟨hown, by simpa using hb, ha⟩
  have hearly : ∀ e ∈ m.early.filter active, e ∈ m.early := fun e he => (List.mem_filter.1 he).1
  have hconsumed : f.consumed s m ms active =
      ((m.early.filter active).map fun e => (e.name, .fixed e.size)) ++
        late.map fun e => (e.name, (f.taken s e).resolved s e) := by
    have hsome : ∀ e ∈ late, ((f.taken s e).resolved s e).isNothing = false := by
      intro e he
      obtain ⟨hown, hb, -⟩ := hlate e he
      rw [Extent.isNothing_resolved, ClassForm.isNothing_taken (hknown e hown) hb]
    have hnone : ∀ e ∈ m.early.filter active, ((f.taken s e).resolved s e).isNothing = true := by
      intro e he
      have hb := (List.mem_filter.1 (hearly e he)).2
      rw [Extent.isNothing_resolved, ClassForm.isNothing_taken_early (h.object e (hearly e he)).1 hb]
    rw [ClassForm.consumed, entries_of_isPart hcovers.loads, List.filter_append, spans_append,
      spans_eq_map hsome, spans_eq_nil hnone, List.append_nil]
  have hproduced : f.produced s ms active =
      ((m.early.filter active).map fun e => (e.name, .fixed e.size)) ++
        late.map fun e => (e.name, (f.put s e).resolved s e) := by
    have hsome : ∀ e ∈ m.own.filter active, ((f.put s e).resolved s e).isNothing = false := by
      intro e he
      rw [Extent.isNothing_resolved, ClassForm.isNothing_put (hknown e (List.mem_filter.1 he).1)]
    have hput : ∀ e ∈ m.early.filter active, (f.put s e).resolved s e = .fixed e.size := by
      intro e he
      obtain ⟨hk, hb, -⟩ := h.object e (hearly e he)
      rw [ClassForm.put_of_isByte hk hb, ← hwidth e (hearly e he)]
    rw [ClassForm.produced, entries_of_isPart hcovers.writes, spans_eq_map hsome]
    rw [own_eq_of_early_first h.first, List.filter_append, List.map_append]
    congr 1
    exact List.map_congr_left fun e he => by rw [hput e he]
  rw [hconsumed, hproduced, List.append_cancel_left_eq, List.map_inj_left]
  constructor
  · intro hsame hf e he ha hk
    have hb : e.readBefore = false := by
      by_contra hb
      have hmem : e ∈ m.early := List.mem_filter.2 ⟨he, by simpa using hb⟩
      rw [(h.object e hmem).1] at hk
      cases hk
    have hin : e ∈ late := List.mem_filter.2 ⟨List.mem_filter.2 ⟨he, by simp [hb]⟩, ha⟩
    have hextent := (Prod.mk.inj (hsame e hin)).2
    exact (ClassForm.taken_eq_put_iff (hknown e he) hb).1 hextent hf hk
  · intro halign e hin
    obtain ⟨he, hb, ha⟩ := hlate e hin
    rw [(ClassForm.taken_eq_put_iff (hknown e he) hb).2 fun hf => halign hf e he ha]

theorem of_eq_typescript {t : Target} {m : ClassModel} :
    ClassForm.of t m = .typescript ↔ t = .typescript := by
  cases t with
  | python => by_cases ht : Target.isTransactional m.name = true <;> simp [ClassForm.of, ht]
  | _ => simp [ClassForm.of]

/-- The parts in which a class measures and writes its attributes, and those in which it reads them, are
those of its own attributes, in their order but for the early ones, which are read last. Where one
condition can be read in the place of all early attributes and one of them is active, the class reads as
many bytes as it writes, attribute by attribute in one order. A TypeScript class does so exactly when it
has no array of counted embedded transactions, which it pads only when it writes them. -/
theorem written_as_read {code : String} (hm : modelOf t s name = .ok m) (hname : m.name ≠ "Receipt")
    (hs : s₁.settled = s.settled) (hcode : m.source t s₁ = .ok code) :
    ∃ ms, (ClassForm.of t m).Shows m ms code ∧ (ClassForm.of t m).Covers s₁ m ms ∧
      (EarlyFirst s₁ m →
        (t = .typescript → ∀ e ∈ m.own, e.isCounted = true → TypeScriptClass.IsNumber e) →
        (ClassForm.of t m).Spans s₁ ms ∧ ∃ pairs groups,
          List.Forall₂ (ClassForm.of t m).ReadsCondition pairs groups ∧ ms.reads = groups.flatten ∧
          ∀ active : Entry → Bool, (m.early ≠ [] → (m.early.filter active).length = 1) →
            pairs.map (·.2) = (m.early.filter active).map (·.size) ∧
            ((ClassForm.of t m).consumed s₁ m ms active = (ClassForm.of t m).produced s₁ ms active ↔
              (t = .typescript → ∀ e ∈ m.own, active e = true → e.kind = .array →
                alignmentOf s₁ e = 0))) := by
  obtain ⟨ms, hms, hshows⟩ := shows_of_source hcode
  have hcovers := ClassForm.covers_of_methods hms
  have hmem : ∀ e ∈ m.own, e ∈ m.entries := fun e he => (List.mem_filter.1 he).1
  have hsound : ∀ e ∈ m.own, Sound t e := fun e he => sound_of_model hm e (hmem e he)
  refine ⟨ms, hshows, hcovers, ?_⟩
  intro hfirst hnumber
  refine ⟨spans_of_methods hsound hname hnumber hms, ?_⟩
  obtain ⟨pairs, groups, hpairs, hgroups, hreads⟩ :=
    ClassForm.upFront_eq_ok (ClassForm.methods_eq_ok.1 hms).1
  rw [conditionReads_readers fun _ => hfirst.base] at hpairs
  have hcollects := collects_conditionReads hpairs
  refine ⟨pairs, groups, hgroups, hreads, ?_⟩
  intro active hone
  refine ⟨?_, ?_⟩
  · cases hearly : m.early with
    | nil =>
      have hnone : pairs = [] := by
        refine List.eq_nil_iff_forall_not_mem.2 fun p hp => ?_
        obtain ⟨e, he, hb, -, -⟩ := hcollects.occurs p hp
        rw [Entry.isEarly, Bool.and_eq_true] at hb
        have hin : e ∈ m.early := List.mem_filter.2 ⟨he, hb.1⟩
        simp [hearly] at hin
      rw [hnone]
      rfl
    | cons first rest =>
      obtain ⟨e, he⟩ := List.length_eq_one_iff.1 (hone (by simp [hearly]))
      have hin : e ∈ m.early := (List.mem_filter.1 (he ▸ List.mem_singleton_self e)).1
      obtain ⟨condition, -, hpair⟩ :=
        pairs_of_shared hfirst (fun e he => (hsound e he).early) hcollects hin
      rw [← hearly, he, hpair]
      rfl
  · have hwidth : ∀ e ∈ m.early, e.size = (s₁.widthOf? e).getD (.int 1) := by
      intro e he
      exact size_of_unsized hm hs (hmem e (List.mem_filter.1 he).1) (hfirst.object e he).2.2
    rw [consumed_eq_produced_iff hcovers hfirst (fun e he => (hsound e he).known) hwidth,
      of_eq_typescript]

/-- Whether an attribute is an object of eight bytes that depends on some flags. -/
def isFlagged (s : Schema) (e : Entry) : Bool :=
  e.kind = .custom && e.baseType.isByte && ((s.attributeAt e.site).get? "size").isNone &&
    (((s.attributeAt e.site).get? "condition").bind Value.text?) == some "flags" &&
    e.size.number? == some 8

theorem isFlagged_iff {s : Schema} {e : Entry} : isFlagged s e = true ↔
    e.kind = .custom ∧ e.baseType.isByte = true ∧ (s.attributeAt e.site).get? "size" = none ∧
      (s.attributeAt e.site).get? "condition" = some "flags" ∧ e.size = .int 8 := by
  have htext : ∀ v : Value, v.text? = some "flags" ↔ v = "flags" := by
    intro v
    cases v <;> simp [Value.text?]
  have hnumber : ∀ v : Value, v.number? = some 8 ↔ v = .int 8 := by
    intro v
    cases v with
    | bool b => cases b <;> simp [Value.number?]
    | _ => simp [Value.number?]
  simp [isFlagged, Option.bind_eq_some_iff, htext, hnumber, and_assoc]

theorem lease_facts {m : ClassModel} {code : String}
    (h : rendered .typescript leaseSchema "Lease" = .ok (m, code)) :
    m.own.map (fun e => (e.name, e.readBefore, isFlagged leaseSchema e)) = [
      ("duration", true, true), ("origin", true, true), ("flags", false, false),
      ("feeCount", false, false), ("fees", false, false)] ∧ m.hasEarlyBase = false ∧
      m.name = "Lease" ∧ ∀ e ∈ m.own, alignmentOf leaseSchema e = 0 ∧
        (e.isCounted = true → e.size.number? = some 1) := by
  have hfacts : (rendered .typescript leaseSchema "Lease").toOption.map (fun p =>
      (p.1.own.map (fun e => (e.name, e.readBefore, isFlagged leaseSchema e)), p.1.hasEarlyBase,
        p.1.name, p.1.own.all fun e => alignmentOf leaseSchema e = 0 &&
          (!e.isCounted || e.size.number? == some 1))) = some ([
      ("duration", true, true), ("origin", true, true), ("flags", false, false),
      ("feeCount", false, false), ("fees", false, false)], false, "Lease", true) := by
    decide +kernel
  rw [h, toOption_ok, Option.map_some, Option.some.injEq, Prod.mk.injEq, Prod.mk.injEq,
    Prod.mk.injEq] at hfacts
  obtain ⟨hown, hbase, hname, hall⟩ := hfacts
  refine ⟨hown, hbase, hname, ?_⟩
  intro e he
  have hchecked := List.all_eq_true.1 hall e he
  simp only [Bool.and_eq_true, decide_eq_true_eq, Bool.or_eq_true, Bool.not_eq_true',
    beq_iff_eq] at hchecked
  refine ⟨hchecked.1, ?_⟩
  intro hcounted
  rcases hchecked.2 with hnot | hone
  · rw [hcounted] at hnot
    cases hnot
  · exact hone

theorem earlyFirst_lease {m : ClassModel} {code : String}
    (h : rendered .typescript leaseSchema "Lease" = .ok (m, code)) : EarlyFirst leaseSchema m := by
  obtain ⟨hown, hbase, -, -⟩ := lease_facts h
  have hflagged : ∀ e ∈ m.early, isFlagged leaseSchema e = true := by
    intro e he
    obtain ⟨he, hb⟩ := List.mem_filter.1 he
    have hin := List.mem_map_of_mem (f := fun e => (e.name, e.readBefore, isFlagged leaseSchema e)) he
    rw [hown] at hin
    have hcases : e.name = "duration" ∧ isFlagged leaseSchema e = true ∨
        e.name = "origin" ∧ isFlagged leaseSchema e = true := by
      simpa [hb] using hin
    rcases hcases with ⟨-, hflagged⟩ | ⟨-, hflagged⟩ <;> exact hflagged
  refine ⟨?_, ?_, ?_, hbase⟩
  · simp only [List.map_eq_cons_iff, List.map_eq_nil_iff, Prod.mk.injEq] at hown
    obtain ⟨duration, _, hlist, ⟨-, hduration, -⟩, origin, _, rfl, ⟨-, horigin, -⟩, flags, _, rfl,
      ⟨-, hflags, -⟩, count, _, rfl, ⟨-, hcount, -⟩, fees, _, rfl, ⟨-, hfees, -⟩, rfl⟩ := hown
    refine ⟨[flags, count, fees], ?_⟩
    simp [early, hlist, hduration, horigin, hflags, hcount, hfees]
  · intro e he
    obtain ⟨hk, hb, hs, -, -⟩ := isFlagged_iff.1 (hflagged e he)
    exact ⟨hk, hb, hs⟩
  · intro e he e' he'
    obtain ⟨-, -, -, hc, hs⟩ := isFlagged_iff.1 (hflagged e he)
    obtain ⟨-, -, -, hc', hs'⟩ := isFlagged_iff.1 (hflagged e' he')
    exact ⟨by rw [hs, hs'], by rw [hc, hc']⟩

theorem written_as_read_lease : ∃ m code ms,
    rendered .typescript leaseSchema "Lease" = .ok (m, code) ∧
    m.early.map (·.name) = ["duration", "origin"] ∧ EarlyFirst leaseSchema m ∧
    ClassForm.typescript.Shows m ms code ∧ ClassForm.typescript.Covers leaseSchema m ms ∧
    ClassForm.typescript.Spans leaseSchema ms ∧
    ClassForm.typescript.consumed leaseSchema m ms (·.name != "origin") =
      ClassForm.typescript.produced leaseSchema ms (·.name != "origin") := by
  obtain ⟨⟨m, code⟩, hp⟩ := exists_rendered_lease .typescript
  obtain ⟨hm, hcode⟩ := rendered_eq_ok hp
  obtain ⟨hown, -, hname, hall⟩ := lease_facts hp
  have hfirst := earlyFirst_lease hp
  have hearly : m.early.map (·.name) = ["duration", "origin"] := by
    have hnames : m.early.map (·.name) = ((m.own.map fun e =>
        (e.name, e.readBefore, isFlagged leaseSchema e)).filter (·.2.1)).map (·.1) := by
      rw [List.filter_map, List.map_map]
      rfl
    rw [hnames, hown]
    rfl
  have hone : (m.early.filter (·.name != "origin")).length = 1 := by
    have hnames : (m.early.filter (·.name != "origin")).map (·.name) =
        (m.early.map (·.name)).filter (· != "origin") := by
      rw [List.filter_map]
      rfl
    rw [← List.length_map (f := fun e : Entry => e.name), hnames, hearly]
    rfl
  obtain ⟨ms, hshows, hcovers, hbytes⟩ := written_as_read hm (by rw [hname]; decide) rfl hcode
  have hnumber : ∀ e ∈ m.own, e.isCounted = true → TypeScriptClass.IsNumber e := by
    intro e he hc
    exact ⟨1, "GeneratorUtils.uint8ToBuffer", by decide, (hall e he).2 hc⟩
  obtain ⟨hspans, pairs, groups, -, -, hactive⟩ := hbytes hfirst fun _ => hnumber
  obtain ⟨-, hsame⟩ := hactive (·.name != "origin") fun _ => hone
  exact ⟨m, code, ms, hp, hearly, hfirst, hshows, hcovers, hspans,
    hsame.2 fun _ e he _ _ => (hall e he).1⟩

end ClassModel

end SchemaForge
