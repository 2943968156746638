import Mathlib.Data.List.Forall2
import SchemaForge.Proofs.Alike
import SchemaForge.Proofs.FieldTypes
import SchemaForge.Run

/-! What the builders of a transaction read from a schema. The implementation of two builders is the same
if their fields answer alike to some questions. If the body of the transaction inlines nothing, a builder
can be made from the settled form of its schema, and so from any of its states. -/
namespace SchemaForge

/-- Results that are the same fault, or else values in a relation. -/
inductive Checked.Rel {α β : Type} (r : α → β → Prop) : Checked α → Checked β → Prop
  | fault (fault : Fault) : Checked.Rel r (.error fault) (.error fault)
  | value {a : α} {b : β} (h : r a b) : Checked.Rel r (.ok a) (.ok b)

namespace Checked.Rel
variable {α β γ δ : Type} {r : α → β → Prop} {x : Checked α} {y : Checked β}

theorem refl {r : α → α → Prop} (h : ∀ a, r a a) (x : Checked α) : Rel r x x := by
  cases x with
  | error fault => exact .fault fault
  | ok a => exact .value (h a)

theorem mono (h : Rel r x y) {q : α → β → Prop} (hq : ∀ a b, r a b → q a b) : Rel q x y := by
  cases h with
  | fault fault => exact .fault fault
  | value h => exact .value (hq _ _ h)

theorem bind (h : Rel r x y) {q : γ → δ → Prop} {f : α → Checked γ} {g : β → Checked δ}
    (hf : ∀ a b, r a b → Rel q (f a) (g b)) : Rel q (x >>= f) (y >>= g) := by
  cases h with
  | fault fault => exact .fault fault
  | value h => exact hf _ _ h

theorem bind_eq (h : Rel r x y) {f : α → Checked γ} {g : β → Checked γ}
    (hf : ∀ a b, r a b → f a = g b) : x >>= f = y >>= g := by
  cases h with
  | fault fault => rfl
  | value h => exact hf _ _ h

theorem lift_bind_eq {σ : Type} (h : Rel r x y) {f : α → ExceptT Fault (StateM σ) γ}
    {g : β → ExceptT Fault (StateM σ) γ} (hf : ∀ a b, r a b → f a = g b) :
    liftM x >>= f = liftM y >>= g := by
  cases h with
  | fault fault => rfl
  | value h => exact hf _ _ h

end Checked.Rel

theorem filterMapM_congr {α β γ : Type} {f : α → Checked (Option γ)} {g : β → Checked (Option γ)}
    {l : List α} {l' : List β} (h : List.Forall₂ (fun a b => f a = g b) l l') :
    l.filterMapM f = l'.filterMapM g := by
  have loop : ∀ kept, List.filterMapM.loop f l kept = List.filterMapM.loop g l' kept := by
    induction h with
    | nil => exact fun _ => rfl
    | cons ha _ ih => simp [List.filterMapM.loop, ha, ih]
  exact loop []

/-- The keys under which the builders look for more than comments. -/
def Builder.keys : List String :=
  ["name", "type", "size", "signedness", "condition", "condition_value", "sort_key"]

/-- Values that answer alike to the questions of the builders, those for comments apart. -/
structure Value.ReadsAs (v w : Value) : Prop where
  need : ∀ key ∈ Builder.keys, v.need key = w.need key
  has : ∀ key ∈ Builder.keys, v.has key = w.has key
  find : ∀ key ∈ Builder.keys, v.find (.text key) = w.find (.text key)

namespace Value.ReadsAs
variable {v w : Value} (h : v.ReadsAs w)
include h

theorem fieldKind : v.fieldKind = w.fieldKind := by
  simp (disch := decide) only [Value.fieldKind, h.has, h.need]

theorem isConditional : v.isConditional = w.isConditional := h.has _ (by decide)

end Value.ReadsAs

namespace Builder

/-- Builders of one transaction whose fields answer alike, and to which types mean the same. -/
structure Resembles (b b' : Builder) : Prop where
  transaction : b.transaction = b'.transaction
  hints : b.hints = b'.hints
  paramType : b.paramType = b'.paramType
  fields : Checked.Rel (List.Forall₂ Value.ReadsAs) b.fields b'.fields

/-- What is written from the fields is the same, if it is so from each of them. The relation between the
fields may say more than that they answer alike. -/
theorem forFields_congr {b b' : Builder} {r : Value → Value → Prop} (hr : ∀ v w, r v w → v.ReadsAs w)
    (hf : Checked.Rel (List.Forall₂ r) b.fields b'.fields) {step step' : Value → Writing Unit}
    (hs : ∀ v w, r v w → step v = step' w) : b.forFields step = b'.forFields step' := by
  apply hf.lift_bind_eq
  intro fields fields' hfields
  induction hfields with
  | nil => rfl
  | cons hv _ ih =>
    simp only [List.forM_eq_forM, List.forM_cons] at ih ⊢
    rw [ih, (hr _ _ hv).need "name" (by decide), hs _ _ hv]

namespace Resembles
variable {b b' : Builder} (h : b.Resembles b') {v w : Value}
include h

theorem write : b.write = b'.write := by
  have hslots : b.slots = b'.slots := by
    obtain ⟨_, transaction, _⟩ := b
    obtain rfl : transaction = b'.transaction := h.transaction
    rfl
  have hline : b.writeLine = b'.writeLine := by
    funext values line
    simp only [writeLine, lineCode, hslots]
  funext text
  simp only [Builder.write, writeWith, hline]

theorem writeAll : b.writeAll = b'.writeAll := by
  funext lines
  simp only [Builder.writeAll, h.write]

theorem qualified : b.qualified = b'.qualified := by
  funext type
  simp only [Builder.qualified, h.hints]

theorem memberName : b.memberName = b'.memberName := by
  funext name
  simp only [Builder.memberName, h.hints]

theorem setter (hv : v.ReadsAs w) (k : FieldKind) : b.setter k v = b'.setter k w := by
  cases k <;> simp (disch := decide) only [Builder.setter, valueType, h.paramType, hv.need, hv.find]

theorem memberType (hv : v.ReadsAs w) : b.memberType v = b'.memberType w := by
  simp (disch := decide) only [Builder.memberType, heldType, hv.fieldKind, hv.need, hv.find, h.qualified]

theorem someKind (test : FieldKind → Bool) : b.someKind test = b'.someKind test := by
  apply h.fields.bind_eq
  intro fields fields' hfields
  induction hfields with
  | nil => rfl
  | cons hv _ ih => rw [anyKind, anyKind, hv.fieldKind, ih]

theorem forSetters {r : Value → Value → Prop} (hr : ∀ v w, r v w → v.ReadsAs w)
    (hf : Checked.Rel (List.Forall₂ r) b.fields b'.fields)
    {step step' : FieldKind → Value → Setter → String → Writing Unit}
    (hs : ∀ v w, r v w → ∀ kind setter signature,
      step kind v setter signature = step' kind w setter signature) :
    b.forSetters step = b'.forSetters step' := by
  apply forFields_congr hr hf
  intro v w hvw
  have hv := hr v w hvw
  simp (disch := decide) only [h.hints, hv.need, hv.fieldKind, h.setter hv, hs v w hvw]

/-- What is written from each field in the same way. -/
theorem forAlike {step step' : Value → Writing Unit} (hs : ∀ v w : Value, v.ReadsAs w → step v = step' w) :
    b.forFields step = b'.forFields step' :=
  forFields_congr (fun _ _ hv => hv) h.fields hs

theorem sections (parts : Sections) : parts.writeAll b = parts.writeAll b' := by
  simp only [Sections.writeAll, h.write, h.writeAll]

theorem headerIncludes : b.headerIncludes = b'.headerIncludes := by
  simp only [Builder.headerIncludes, hasKind, h.someKind, h.write, h.writeAll, h.hints]

theorem headerClass : b.headerClass = b'.headerClass := by
  simp only [Builder.headerClass, h.write, h.writeAll]

theorem headerBuilds : b.headerBuilds = b'.headerBuilds := by
  simp only [Builder.headerBuilds, h.write, h.writeAll]

theorem headerMembers : b.headerMembers = b'.headerMembers := by
  have hmembers : b.forFields b.headerMember = b'.forFields b'.headerMember := by
    apply h.forAlike
    intro v w hv
    simp (disch := decide) only [headerMember, h.memberType hv, hv.need, h.write]
  rw [Builder.headerMembers, hmembers, h.write, Builder.headerMembers]

/-- The comments come with the setters in a header. -/
theorem header (hf : Checked.Rel (List.Forall₂ fun v w => v.ReadsAs w ∧ v.need "comments" = w.need "comments")
    b.fields b'.fields) : Builder.header b = Builder.header b' := by
  have hsetters : b.forSetters b.headerSetter = b'.forSetters b'.headerSetter := by
    apply h.forSetters (fun _ _ hv => hv.1) hf
    intro v w ⟨hv, hcomments⟩ kind setter signature
    simp (disch := decide) only [headerSetter, setterComment, remark, bound, hv.isConditional, hv.need,
      hcomments, h.write, h.writeAll]
  rw [Builder.header, h.headerIncludes, h.headerClass, headerSetters, hsetters, h.headerBuilds,
    h.headerMembers, h.write, h.sections, Builder.header, headerSetters]

theorem codeConstructor : b.codeConstructor = b'.codeConstructor := by
  have hmembers : b.forFields b.codeMember = b'.forFields b'.codeMember := by
    apply h.forAlike
    intro v w hv
    simp (disch := decide) only [codeMember, hv.need, h.write]
  rw [Builder.codeConstructor, hmembers, h.write, h.writeAll, Builder.codeConstructor]

theorem field (name : Value) : Checked.Rel Value.ReadsAs (b.field name) (b'.field name) := by
  apply h.fields.bind
  intro fields fields' hfields
  induction hfields with
  | nil => exact .fault .notFound
  | @cons v w _ _ hv _ ih =>
    rw [findNamed, findNamed, hv.need "name" (by decide)]
    cases w.need "name" with
    | error fault => exact .fault fault
    | ok found =>
      simp only [Checked.ok_bind]
      split
      · exact .value hv
      · exact ih

/-- A field that is known by its name, with the setter that the builder has for it. -/
theorem setterOf (name : Value) :
    Checked.Rel (fun p q => p.1.ReadsAs q.1 ∧ p.2 = q.2) (b.setterOf name) (b'.setterOf name) := by
  apply (h.field name).bind
  intro v w hv
  rw [hv.fieldKind]
  cases w.fieldKind with
  | error fault => exact .fault fault
  | ok kind =>
    simp only [Checked.ok_bind, h.setter hv]
    cases b'.setter kind w with
    | error fault => exact .fault fault
    | ok setter => exact .value ⟨hv, rfl⟩

theorem discriminatorLine (name value : Value) :
    b.discriminatorLine name value = b'.discriminatorLine name value := by
  apply (h.setterOf name).bind_eq
  rintro ⟨v, setter⟩ ⟨w, _⟩ ⟨-, rfl⟩
  rfl

theorem conditionLine (name value : Value) :
    b.conditionLine name value = b'.conditionLine name value := by
  apply (h.setterOf name).bind_eq
  rintro ⟨v, setter⟩ ⟨w, _⟩ ⟨hv, rfl⟩
  simp (disch := decide) only [hv.need]

theorem codeSetters : b.codeSetters = b'.codeSetters := by
  apply h.forSetters (fun _ _ hv => hv) h.fields
  intro v w hv kind setter signature
  have hsimple : b.simpleSetter v = b'.simpleSetter w := by
    funext param
    simp (disch := decide) only [simpleSetter, hv.isConditional, hv.need, h.discriminatorLine, h.write]
  have hvector : b.vectorSetter v = b'.vectorSetter w := by
    funext param
    simp (disch := decide) only [vectorSetter, hv.need, hv.find, h.write]
  simp only [codeSetter, setterBody, bufferSetter, hsimple, hvector, h.write]

theorem codeSize : b.codeSize = b'.codeSize := by
  have hlines : b.forFields b.sizeLine = b'.forFields b'.sizeLine := by
    apply h.forAlike
    intro v w hv
    simp (disch := decide) only [sizeLine, hv.need, hv.fieldKind, h.write, h.qualified]
  simp only [Builder.codeSize, hlines, h.write, h.writeAll]

theorem counts : b.counts = b'.counts := by
  apply h.fields.bind_eq
  intro fields fields' hfields
  congr 1
  apply filterMapM_congr
  apply hfields.imp
  intro v w hv
  simp (disch := decide) only [hv.need, hv.fieldKind]

theorem fixedLines (hv : v.ReadsAs w) (member : Value) (name : String) :
    b.fixedLines member name v = b'.fixedLines member name w := by
  simp (disch := decide) only [Builder.fixedLines, assignLine, hv.find, hv.need, h.conditionLine, h.write,
    h.hints]

theorem fixedFields (counts : List (Value × String)) {fields fields' : List Value}
    (hf : List.Forall₂ Value.ReadsAs fields fields') :
    b.fixedFields counts fields = b'.fixedFields counts fields' := by
  induction hf with
  | nil => rfl
  | cons hv _ ih =>
    simp (disch := decide) only [Builder.fixedFields, hv.need, hv.fieldKind, h.memberName, counterLine,
      h.fixedLines hv, ih, h.write]

theorem codeBuild (counts : List (Value × String)) : b.codeBuild counts = b'.codeBuild counts := by
  have hcopies : b.forFields b.copyLine = b'.forFields b'.copyLine := by
    apply h.forAlike
    intro v w hv
    simp (disch := decide) only [copyLine, hv.need, hv.fieldKind, h.memberName, h.write]
  have hfixed : ∀ rest : Unit → Writing Unit,
      (liftM b.fields >>= fun fields => b.fixedFields counts fields >>= rest) =
        liftM b'.fields >>= fun fields => b'.fixedFields counts fields >>= rest := by
    intro rest
    apply h.fields.lift_bind_eq
    intro fields fields' hf
    rw [h.fixedFields counts hf]
  simp only [Builder.codeBuild, hasOtherKind, hcopies, hfixed, h.someKind, h.write, h.writeAll]

theorem implementation : Builder.implementation b = Builder.implementation b' := by
  have hbuilds : b.codeBuilds = b'.codeBuilds := by
    simp only [codeBuilds, h.codeSize, h.counts, h.codeBuild, h.writeAll]
  have htypes : b.codeMemberTypes = b'.codeMemberTypes := by
    apply h.forAlike
    intro v w hv
    rw [h.memberType hv]
  have hincludes : b.codeIncludes = b'.codeIncludes := by
    simp only [codeIncludes, h.write, h.hints]
  rw [Builder.implementation, hincludes, h.codeConstructor, h.codeSetters, hbuilds, htypes, h.sections,
    Builder.implementation]

end Resembles

/-- The builder with the settled form of its schema. -/
def settled (b : Builder) : Builder := { b with schema := b.schema.settled }

/-- The body of the transaction inlines nothing. -/
def PlainBody (b : Builder) : Prop :=
  ∀ fields, b.fields = .ok fields → ∀ v ∈ fields, v.isInline ≠ .ok true

end Builder

namespace Value

theorem answers_settledAttribute {v : Value} (h : v.isInline ≠ .ok true) {key : String}
    (hk : key ≠ "aggregate_class") : v.settledAttribute.need key = v.need key ∧
      v.settledAttribute.has key = v.has key ∧
      v.settledAttribute.find (.text key) = v.find (.text key) := by
  cases v with
  | table entries =>
    have hi : Record.isInline ⟨entries⟩ = false := by
      have hrecord : (table entries).isInline = .ok (Record.isInline ⟨entries⟩) :=
        isInline_record ⟨entries⟩
      rw [hrecord] at h
      simpa using h
    have hget : (Record.settled ⟨entries⟩).get? key = Record.get? ⟨entries⟩ key := by
      rw [Record.settled, Record.inlineName?_eq_none hi]
      exact Record.get?_withoutOwner _ hk
    exact ⟨congrArg (Checked.require (text key)) hget,
      congrArg (fun found : Option Value => (.ok found.isSome : Checked Bool)) hget,
      congrArg Except.ok hget⟩
  | _ => exact ⟨rfl, rfl, rfl⟩

theorem readsAs_settledAttribute {v : Value} (h : v.isInline ≠ .ok true) :
    v.settledAttribute.ReadsAs v := by
  have hkeys : ∀ key ∈ Builder.keys, key ≠ "aggregate_class" := by decide
  exact ⟨fun key hkey => (answers_settledAttribute h (hkeys key hkey)).1,
    fun key hkey => (answers_settledAttribute h (hkeys key hkey)).2.1,
    fun key hkey => (answers_settledAttribute h (hkeys key hkey)).2.2⟩

end Value

namespace Builder
variable {b : Builder}

theorem fields_settled (b : Builder) :
    b.settled.fields = b.fields.map (·.map Value.settledAttribute) := b.schema.layout_settled b.bodyName

theorem paramType_settled (b : Builder) : b.settled.paramType = b.paramType := by
  funext type size signedness
  have hneed : ∀ type, b.settled.schema.need type = (b.schema.need type).map Value.settledType :=
    b.schema.need_settled
  have hqualified : b.settled.qualified = b.qualified := rfl
  simp only [paramType, hneed, hqualified, Checked.map_bind,
    Value.need_settledType (show "type" ≠ "layout" by simp) (by simp),
    Value.need_settledType (show "size" ≠ "layout" by simp) (by simp)]

/-- The fields in the settled form of the schema. -/
theorem rel_fields_settled (h : b.PlainBody) :
    Checked.Rel (List.Forall₂ fun v w => v.ReadsAs w ∧ v.need "comments" = w.need "comments")
      b.settled.fields b.fields := by
  rw [fields_settled]
  cases hf : b.fields with
  | error fault => exact .fault fault
  | ok fields =>
    refine .value (List.forall₂_map_left_iff.2 (List.forall₂_same.2 ?_))
    intro v hv
    have hinline := h fields hf v hv
    exact ⟨Value.readsAs_settledAttribute hinline,
      (Value.answers_settledAttribute hinline (by decide)).1⟩

theorem resembles_settled (h : b.PlainBody) : b.settled.Resembles b where
  transaction := rfl
  hints := rfl
  paramType := b.paramType_settled
  fields := (rel_fields_settled h).mono fun _ _ hf => hf.imp fun _ _ hv => hv.1

theorem fileOf_congr {writing : Builder → Writing Unit} {s s' : Schema} {name : String}
    (h : ∀ hints, writing ⟨s, name, hints⟩ = writing ⟨s', name, hints⟩) (extension : String)
    (notice : Notice) : fileOf writing extension s notice name = fileOf writing extension s' notice name := by
  unfold fileOf start ofTransaction
  cases Hints.ofTransaction name with
  | error fault => rfl
  | ok hints =>
    simp only [Checked.ok_bind, Checked.pure_eq_ok]
    cases notice.lines with
    | error fault => rfl
    | ok lines =>
      simp only [Checked.ok_bind, h hints]
      rfl

end Builder

/-- The bodies from which builders are made inline nothing. -/
def Schema.PlainBodies (s : Schema) : Prop :=
  ∀ name ∈ s.names, Builder.isEligible name = true → ∀ site r, site.owner = name ++ "Body" →
    s.attributeAt? site = some r → r.isInline = false

theorem Schema.plainBodies_iff (s : Schema) : s.PlainBodies ↔
    ∀ name ∈ s.names, Builder.isEligible name = true →
      ∀ site ∈ s.sites (name ++ "Body"), ∀ r ∈ s.attributeAt? site, r.isInline = false := by
  constructor
  · intro h name hname heligible site hsite r hr
    exact h name hname heligible site r (Schema.owner_of_mem_sites hsite) hr
  · intro h name hname heligible site r howner hr
    have hsite := (Schema.mem_sites_of_attributeAt? hr).2
    exact h name hname heligible site (howner ▸ hsite) r hr

instance (s : Schema) : Decidable s.PlainBodies := decidable_of_iff _ s.plainBodies_iff.symm

namespace Builder

theorem plainBody_of_settled {s s' : Schema} (h : s.PlainBodies) (hs : s'.settled = s.settled)
    {name : String} (hn : name ∈ s.names) (he : isEligible name = true) {b : Builder}
    (hb : b.schema = s') (ht : b.transaction = name) : b.PlainBody := by
  intro fields hfields v hv hinline
  obtain ⟨r, rfl, hi⟩ := ClassModel.isInline_eq_true hinline
  obtain ⟨index, hindex⟩ := List.mem_iff_getElem?.1 hv
  have hl : (s'.need (name ++ "Body") >>= Value.layout) = .ok fields := by
    subst hb ht
    exact hfields
  have hr := Schema.attributeAt?_of_layout hl hindex
  have hsettled := s'.attributeAt?_settled ⟨name ++ "Body", index⟩
  rw [hs, Schema.attributeAt?_settled, hr] at hsettled
  obtain ⟨r₀, hr₀, heq⟩ := Option.map_eq_some_iff.1 hsettled
  have hplain := h name hn he _ r₀ rfl hr₀
  rw [← Record.isInline_settled, heq, Record.isInline_settled, hi] at hplain
  cases hplain

variable {s s₁ s₂ : Schema} {name : String}

/-- Builders are the same in all states of a schema. -/
theorem files_congr (h : s.PlainBodies) (h₁ : s₁.settled = s.settled) (h₂ : s₂.settled = s.settled)
    (hn : name ∈ s.names) (he : isEligible name = true) (notice : Notice) :
    headerFile s₁ notice name = headerFile s₂ notice name ∧
      codeFile s₁ notice name = codeFile s₂ notice name := by
  have plain : ∀ s', s'.settled = s.settled → ∀ hints, PlainBody ⟨s', name, hints⟩ :=
    fun s' hs' hints => plainBody_of_settled h hs' hn he rfl rfl
  have header : ∀ s', s'.settled = s.settled →
      headerFile s' notice name = headerFile s.settled notice name := by
    intro s' hs'
    refine fileOf_congr (fun hints => ?_) ".h" notice
    have hplain := plain s' hs' hints
    have hsame := (resembles_settled hplain).header (rel_fields_settled hplain)
    simp only [settled, hs'] at hsame
    exact hsame.symm
  have code : ∀ s', s'.settled = s.settled →
      codeFile s' notice name = codeFile s.settled notice name := by
    intro s' hs'
    refine fileOf_congr (fun hints => ?_) ".cpp" notice
    have hsame := (resembles_settled (plain s' hs' hints)).implementation
    simp only [settled, hs'] at hsame
    exact hsame.symm
  exact ⟨(header s₁ h₁).trans (header s₂ h₂).symm, (code s₁ h₁).trans (code s₂ h₂).symm⟩

end Builder
end SchemaForge
