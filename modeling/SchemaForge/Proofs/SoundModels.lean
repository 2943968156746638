import SchemaForge.Proofs.SoundWalks
import SchemaForge.Proofs.UpFront

/-! The models of the classes of a well formed schema. A model can be made exactly if all attributes that
the class takes fit, and it has then all that its source is to be written from. -/
namespace SchemaForge
open Checked

namespace Schema
variable {s₀ s : Schema}

/-- An enumeration has a width and lists enumerators. -/
theorem WellFormed.enum_eq (h₀ : s₀.WellFormed) {name : String} {d : Record}
    (hd : s₀.get? name = some d.value) (hsort : d.get? "type" = some (.text "enum")) :
    (∃ size n, d.get? "size" = some size ∧ size.number? = some n) ∧
      (∀ own, d.get? "name" = some own → own.isName = true) ∧
      ∃ values, d.get? "values" = some (.list values) ∧
        ∀ v ∈ values, ∃ e : Record, v = e.value ∧ e.isEnumerator = true := by
  obtain ⟨r, hr, hisType⟩ := h₀.type_eq hd
  obtain rfl : d = r := Option.some.inj (congrArg Value.record? hr)
  have henum : d.is "type" "enum" = true := by simp [Record.is, hsort]
  have hno : d.is "type" "byte" = false ∧ d.is "type" "struct" = false := by simp [Record.is, hsort]
  simp only [Record.isType, Record.hasSort, henum, hno, Bool.false_and, Bool.true_and, Bool.false_or,
    Bool.or_false, Bool.and_eq_true] at hisType
  obtain ⟨⟨⟨-, ⟨hsize, hname⟩, hvalues⟩, -⟩, -⟩ := hisType
  obtain ⟨size, hsize, hnumber⟩ := (Option.any_eq_true _ _).1 hsize
  obtain ⟨n, hn⟩ := Option.isSome_iff_exists.1 hnumber
  refine ⟨⟨size, n, hsize, hn⟩, (Option.all_eq_true _ _).1 hname, ?_⟩
  obtain ⟨values, hvalues, hlist⟩ := (Option.any_eq_true _ _).1 hvalues
  cases values with
  | list values =>
    refine ⟨values, hvalues, fun v hv => ?_⟩
    have henumerator := List.all_eq_true.1 hlist v hv
    cases v with
    | table entries => exact ⟨⟨entries⟩, rfl, by simpa [Value.record?] using henumerator⟩
    | _ => simp [Value.record?] at henumerator
  | _ => simp [Value.isListOf] at hlist

/-- What stands behind an enumerated attribute, whichever state the schema is in. -/
theorem Reached.enumeration (h₀ : s₀.WellFormed) (hr : s₀.Reached s) {site : Site}
    (he : s₀.isEnumerated site = true) :
    ∃ r name type d values, s.attributeAt? site = some r ∧ r.get? "name" = some (.text name) ∧
      r.get? "type" = some (.text type) ∧ s.get? type = some (Record.value d) ∧
      d.get? "values" = some (.list values) ∧
      ∀ v ∈ values, ∃ e : Record, v = e.value ∧ e.isEnumerator = true := by
  unfold isEnumerated attributeAt at he
  cases hat₀ : s₀.attributeAt? site with
  | none => simp [hat₀, Record.get?] at he
  | some r₀ =>
    rw [hat₀, Option.getD_some] at he
    have hplain := h₀.plain_of_enum hat₀ he
    obtain ⟨v, htype₀, hsort⟩ := (Option.any_eq_true _ _).1 he
    obtain ⟨type, d₀, rfl, hd₀, hdtype⟩ := exists_of_isSort hsort
    obtain ⟨r, hat, hsettled⟩ := exists_attribute_congr hr.settled hat₀
    have hplain' : r.isInline = false := by
      rw [← Record.isInline_settled, hsettled, Record.isInline_settled, hplain]
    obtain ⟨name, hname, -⟩ := ((hr.steady h₀).sound site r hat).named hplain'
    obtain ⟨d, hd, hget⟩ := exists_type_congr hr.settled hd₀
    obtain ⟨-, -, values, hvalues, hall⟩ := h₀.enum_eq hd₀ hdtype
    refine ⟨r, name, type, d, values, hat, hname, ?_, hd, ?_, hall⟩
    · rw [← Record.get?_settled r (by simp) (by simp), hsettled,
        Record.get?_settled r₀ (by simp) (by simp), htype₀]
    · rw [hget _ (by simp) (by simp), hvalues]

end Schema

theorem Record.name_of_isEnumerator {r : Record} (h : r.isEnumerator = true) :
    ∃ name, r.get? "name" = some (.text name) ∧ name ≠ "" := by
  simp only [isEnumerator, Bool.and_eq_true] at h
  obtain ⟨v, hv, hname⟩ := (Option.any_eq_true _ _).1 h.1.2
  obtain ⟨name, rfl, hne⟩ := Value.isName_iff.1 hname
  exact ⟨name, hv, hne⟩

namespace ClassModel
variable {s₀ s : Schema} {name : String} {e : Entry}

section
variable (h₀ : s₀.WellFormed) (hr : s₀.Reached s)
include h₀ hr

/-- The attribute behind an entry. -/
theorem Apt.exists_attribute (h : Apt s₀ name e) : ∃ r, s.attributeAt? e.site = some r ∧ s.Sound r ∧
    r.isConditional = e.isConditional := by
  obtain ⟨r₀, hat₀⟩ := h₀.exists_attribute_of_met h.site
  obtain ⟨r, hat, hsettled⟩ := Schema.exists_attribute_congr hr.settled hat₀
  refine ⟨r, hat, (hr.steady h₀).sound _ r hat, ?_⟩
  rw [h.conditional, Schema.attributeAt, hat₀, Option.getD_some, ← Record.isConditional_settled,
    hsettled, Record.isConditional_settled]

/-- What a dependent entry needs can be looked up. -/
theorem Apt.condition (h : Apt s₀ name e) (hc : e.isConditional = true) :
    ∃ operation c value, (s.attributeAt e.site).need "condition_operation" = .ok operation ∧
      (s.attributeAt e.site).need "condition" = .ok (.text c) ∧
      (s.attributeAt e.site).need "condition_value" = .ok (.text value) := by
  obtain ⟨r, hat, hsound, hconditional⟩ := h.exists_attribute h₀ hr
  obtain ⟨hop, ⟨c, hcondition⟩, value, hvalue⟩ := hsound.decided (hconditional.trans hc)
  obtain ⟨operation, hop⟩ := Option.isSome_iff_exists.1 hop
  rw [Schema.attributeAt, hat, Option.getD_some]
  exact ⟨operation, c, value, Record.need_of_get? hop, Record.need_of_get? hcondition,
    Record.need_of_get? hvalue⟩

/-- A discriminator with the enumeration that is its type. -/
theorem Apt.discriminator (h : Apt s₀ name e) (hc : e.isConditional = true) :
    ∃ d own type decl values, e.conditionSite = some d ∧
      (s.attributeAt d).need "name" = .ok (.text own) ∧
      (s.attributeAt d).need "type" = .ok (.text type) ∧ s.need type = .ok (Record.value decl) ∧
      decl.value.values = .ok values ∧
      ∀ v ∈ values, ∃ e : Record, v = e.value ∧ e.isEnumerator = true := by
  obtain ⟨d, hd, henum⟩ := h.discriminated hc
  obtain ⟨r, own, type, decl, values, hat, hown, htype, hdecl, hvalues, hall⟩ := hr.enumeration h₀ henum
  refine ⟨d, own, type, decl, values, hd, ?_, ?_, Schema.need_eq_ok.2 hdecl, ?_, hall⟩
  · rw [Schema.attributeAt, hat, Option.getD_some, Record.need_of_get? hown]
  · rw [Schema.attributeAt, hat, Option.getD_some, Record.need_of_get? htype]
  · simp [Value.values, Record.need_of_get? hvalues, Value.items]

theorem succeeds_equalities {entries : List Entry} (h : ∀ e ∈ entries, Apt s₀ name e) :
    Succeeds (equalities s entries) := by
  induction entries with
  | nil => exact succeeds_ok _
  | cons e rest ih =>
    have hapt := h e List.mem_cons_self
    have hrest := ih fun e' he' => h e' (List.mem_cons_of_mem _ he')
    rw [equalities]
    by_cases hc : e.isConditional = true
    · obtain ⟨operation, c, value, hop, -, -⟩ := hapt.condition h₀ hr hc
      obtain ⟨d, own, type, decl, values, hd, -, htype, hdecl, -⟩ := hapt.discriminator h₀ hr hc
      simp [hc, hop, hd, htype, hdecl, hrest]
    · simp [hc, hrest]

end

/-- The values of an enumeration have texts for names. -/
theorem enumerated_eq {decl : Record} {values : List Value} (hv : decl.value.values = .ok values)
    (h : ∀ v ∈ values, ∃ e : Record, v = e.value ∧ e.isEnumerator = true) :
    ∃ named, enumerated (e, decl.value) = .ok named ∧
      ∀ q ∈ named, q.1 = e ∧ ∃ value, q.2 = .text value := by
  have hnames : ∀ v ∈ values, ∃ own, v.need "name" = .ok own ∧ ∃ value, own = .text value := by
    intro v hmem
    obtain ⟨r, rfl, hr⟩ := h v hmem
    obtain ⟨name, hname, -⟩ := r.name_of_isEnumerator hr
    exact ⟨_, Record.need_of_get? hname, name, rfl⟩
  obtain ⟨names, hnames, htexts⟩ := exists_mapM hnames
  refine ⟨names.map fun value => (e, value), by simp [enumerated, hv, hnames], fun q hq => ?_⟩
  obtain ⟨value, hvalue, rfl⟩ := List.mem_map.1 hq
  exact ⟨rfl, htexts value hvalue⟩

section
variable (h₀ : s₀.WellFormed) (hr : s₀.Reached s)
include h₀ hr

theorem Apt.asked_eq (h : Apt s₀ name e) (hc : e.isConditional = true) (value : Value) :
    ∃ own c, asked s (e, value) = .ok (.text own, .text c, value) := by
  obtain ⟨operation, c, wanted, -, -, hwanted⟩ := h.condition h₀ hr hc
  obtain ⟨d, own, -, -, -, hd, hown, -⟩ := h.discriminator h₀ hr hc
  exact ⟨own, wanted, by simp [asked, hd, hown, hwanted]⟩

/-- The ways to fix the discriminators of a class are known, and fix them to values with names. -/
theorem choices_eq {entries : List Entry} (h : ∀ e ∈ entries, Apt s₀ name e)
    {eqs : List (Entry × Value)} (heqs : equalities s entries = .ok eqs) :
    ∃ cs, choices s eqs = .ok cs ∧ ∀ c ∈ cs, ∃ value, c.value = .text value := by
  have henumerated : ∀ p ∈ eqs, ∃ named, enumerated p = .ok named ∧ ∀ q ∈ named,
      (Apt s₀ name q.1 ∧ q.1.isConditional = true) ∧ ∃ value, q.2 = .text value := by
    rintro ⟨e, type⟩ hp
    obtain ⟨hmem, hc, d, type, hd, htype, hdecl⟩ := of_mem_equalities heqs hp
    have hapt := h e hmem
    obtain ⟨d', -, type', decl, values, hd', -, htype', hdecl', hvalues, hall⟩ :=
      hapt.discriminator h₀ hr hc
    obtain rfl := Option.some.inj (hd.symm.trans hd')
    obtain rfl := Except.ok.inj (htype.symm.trans htype')
    obtain rfl := Except.ok.inj (hdecl.symm.trans hdecl')
    obtain ⟨named, hnamed, hq⟩ := @enumerated_eq e decl values hvalues hall
    refine ⟨named, hnamed, fun q hmem => ?_⟩
    obtain ⟨rfl, htext⟩ := hq q hmem
    exact ⟨⟨hapt, hc⟩, htext⟩
  obtain ⟨named, hnamed, hentries⟩ := exists_mapM henumerated
  have hask : ∀ q ∈ named.flatten, ∃ p, asked s q = .ok p ∧
      ∃ own c value, p = (.text own, .text c, .text value) := by
    rintro ⟨e, value⟩ hq
    obtain ⟨names, hnames, hmem⟩ := List.mem_flatten.1 hq
    obtain ⟨⟨hapt, hc⟩, value, rfl⟩ := hentries names hnames _ hmem
    obtain ⟨own, c, hasked⟩ := Apt.asked_eq h₀ hr hapt hc (.text value)
    exact ⟨_, hasked, own, c, value, rfl⟩
  obtain ⟨triples, htriples, htexts⟩ := exists_mapM hask
  have hwanted : Succeeds (triples.mapM (·.2.1.asKey)) := by
    refine succeeds_mapM.2 fun p hp => ?_
    obtain ⟨own, c, value, rfl⟩ := htexts p hp
    exact succeeds_ok _
  obtain ⟨wanted, hwanted⟩ := hwanted
  have hchoice : ∀ p ∈ triples, ∃ c : Choice, (do
      let value ← p.2.2.asKey
      let discriminator ← p.1.asKey
      return ({ discriminator, value, known := wanted.contains value } : Choice)) = .ok c ∧
      ∃ value, c.value = .text value := by
    intro p hp
    obtain ⟨own, c, value, rfl⟩ := htexts p hp
    exact ⟨_, rfl, value, rfl⟩
  obtain ⟨all, hall, hvalues⟩ := exists_mapM hchoice
  refine ⟨all.eraseDups.mergeSort Choice.before, ?_, fun c hc => ?_⟩
  · rw [choices, hnamed, ok_bind, htriples, ok_bind, hwanted, ok_bind, hall]
    rfl
  · exact hvalues c (mem_of_mem_eraseDups (List.mem_mergeSort.1 hc))

/-- A choice can be made for every parameter, which stays apt under it. -/
theorem Apt.choose (h : Apt s₀ name e) {c : Choice} {value : String} (hc : c.value = .text value) :
    ∃ e', choose s c e = .ok e' ∧ Apt s₀ name e' := by
  unfold ClassModel.choose
  split
  · exact ⟨_, rfl, { h with fixed := .inr ⟨value, hc⟩ }⟩
  simp only
  split
  · exact ⟨_, rfl, h⟩
  rename_i hasks
  have hconditional : e.isConditional = true := by
    obtain ⟨r, hat, -, hconditional⟩ := h.exists_attribute h₀ hr
    have hasks : r.is "condition" c.discriminator = true := by
      simpa [Schema.attributeAt, hat] using hasks
    obtain ⟨v, hv, -⟩ := (Option.any_eq_true _ _).1 hasks
    simp [← hconditional, Record.isConditional, Record.has, hv]
  obtain ⟨-, -, wanted, -, -, hwanted⟩ := h.condition h₀ hr hconditional
  rw [hwanted, ok_bind]
  generalize (if c.known then c.value else .null) = fixed
  split
  · exact ⟨_, rfl, h⟩
  · exact ⟨_, rfl, { h with }⟩

/-- The constructors of a class can be told, and all their parameters are apt. -/
theorem constructorsOf_eq {entries parameters : List Entry} (h : ∀ e ∈ entries, Apt s₀ name e)
    (hp : ∀ e ∈ parameters, Apt s₀ name e) : ∃ constructors,
      constructorsOf s entries parameters = .ok constructors ∧
      ∀ es ∈ constructors, ∀ e ∈ es, Apt s₀ name e := by
  obtain ⟨eqs, heqs⟩ := succeeds_equalities h₀ hr h
  obtain ⟨cs, hcs, hvalues⟩ := choices_eq h₀ hr h heqs
  simp only [constructorsOf, heqs, hcs, ok_bind]
  split
  · exact ⟨[parameters], rfl, by simpa using hp⟩
  · refine exists_mapM fun c hc => ?_
    obtain ⟨value, hvalue⟩ := hvalues c hc
    exact exists_mapM fun e he => (hp e he).choose h₀ hr hvalue

end
end ClassModel

namespace Schema
variable {s₀ s : Schema} {name : String}

/-- The name of the class of a type. -/
def classOf (s : Schema) (name : String) : String :=
  if s.isSort "struct" name then name ++ "Builder" else name ++ "Dto"

theorem exists_of_mem_names (h : name ∈ s.names) : ∃ d, s.get? name = some d := by
  obtain ⟨p, hp, rfl⟩ := List.mem_map.1 h
  cases hd : s.get? p.1 with
  | some d => exact ⟨d, rfl⟩
  | none =>
    have hno := List.lookup_eq_none_iff.1 hd p hp
    simp at hno

section
variable (h₀ : s₀.WellFormed) (hr : s₀.Reached s) (hname : name ∈ s₀.names)
include h₀ hr hname

/-- A type, whichever state the schema is in. -/
theorem Reached.exists_type : ∃ d₀ d : Record, s₀.get? name = some d₀.value ∧ d₀.isType = true ∧
    s.get? name = some d.value ∧ ∀ key, key ≠ "layout" → key ≠ "name" → d.get? key = d₀.get? key := by
  obtain ⟨v, hv⟩ := exists_of_mem_names hname
  obtain ⟨d₀, rfl, htype⟩ := h₀.type_eq hv
  obtain ⟨d, hd, hget⟩ := exists_type_congr hr.settled hv
  exact ⟨d₀, d, hv, htype, hd, hget⟩

theorem Reached.className_eq {d : Value} (hd : s.get? name = some d) :
    s.className name d = .ok (s₀.classOf name) := by
  obtain ⟨d₀, d', hd₀, -, hd', hget⟩ := hr.exists_type h₀ hname
  obtain rfl := Option.some.inj (hd.symm.trans hd')
  obtain ⟨d₁, sort, hd₁, htype, hsort, -⟩ := h₀.known hd₀
  obtain rfl := type_unique hd₀ hd₁
  have hneed : d'.value.need "type" = .ok (.text sort) := by
    refine Record.need_of_get? ?_
    rw [hget _ (by simp) (by simp), htype]
  simp only [className, hneed, ok_bind, Value.joined_text, hd', classOf, isSort_eq hd₀ htype]
  simp only [List.mem_cons, List.not_mem_nil, or_false] at hsort
  rcases hsort with rfl | rfl | rfl <;> simp [Value.isByte, Value.isEnum, Value.isStruct]

theorem Reached.classNameOf_eq : ClassModel.classNameOf s name = .ok (s₀.classOf name) := by
  obtain ⟨-, d, -, -, hd, -⟩ := hr.exists_type h₀ hname
  have hne : name.isEmpty = false := by
    have hnamed := h₀.named name hname
    simp_all
  simp [ClassModel.classNameOf, need_eq_ok.2 hd, hr.className_eq h₀ hname hd, hne]

/-- A type that has just been given its name has a description. -/
theorem Reached.succeeds_description :
    Succeeds ((s.setFact name "name" (Text.lowerFirst name)).need name >>= Value.description) := by
  obtain ⟨d₀, d, -, htype, hd, hget⟩ := hr.exists_type h₀ hname
  have hnamed := h₀.named name hname
  simp only [List.mem_cons, List.not_mem_nil, or_false, not_or] at hnamed
  simp only [Record.isType, Record.isDescribed, Bool.and_eq_true, Option.all_eq_true] at htype
  rw [need_setFact, need_eq_ok.2 hd, map_ok, ok_bind]
  refine @Value.succeeds_description (d.set "name" (Text.lowerFirst name)) ?_ ?_
  · intro comments hcomments
    rw [Record.get?_set_ne _ _ (by simp), hget _ (by simp) (by simp)] at hcomments
    exact htype.1.1.1 comments hcomments
  · intro own hown
    obtain rfl := Option.some.inj ((Record.get?_set_self ..).symm.trans hown)
    exact Value.isName_iff.2 ⟨_, rfl, Text.lowerFirst_ne hnamed.1⟩

end
end Schema

namespace ClassModel
open Drafting
variable {s₀ s : Schema} {name : String}

theorem succeeds_findBase {layout : List Value} (h : ∀ v ∈ layout, ∃ r : Record, v = r.value ∧
    (r.isInline = true → ∃ type d, r.get? "type" = some (.text type) ∧
      s.need type = .ok (Record.value d) ∧ d.has "type" = true)) (hs : s.Steady) :
    Succeeds (findBase s layout) := by
  induction layout with
  | nil => exact succeeds_ok _
  | cons v rest ih =>
    obtain ⟨r, rfl, hinline⟩ := h v List.mem_cons_self
    have hrest := ih fun w hw => h w (List.mem_cons_of_mem _ hw)
    rw [findBase, Value.isInline_record, ok_bind]
    by_cases hi : r.isInline = true
    · obtain ⟨type, d, htype, hd, hhas⟩ := hinline hi
      have hclass := hs.succeeds_className type d hhas
      simp [hi, Record.need_of_get? htype, hd, hrest, hclass]
    · simp [hi, hrest]

section
variable (h₀ : s₀.WellFormed) (hr : s₀.Reached s) (hname : name ∈ s₀.names)
  (hclass : s₀.isClass name = true)
include hr hname hclass

theorem reached_setFact : s₀.Reached (s.setFact name "name" (Text.lowerFirst name)) := by
  have hmarks : ∀ m ∈ [Mark.fact name], m ∈ s₀.marks := by
    intro m hm
    obtain rfl := List.mem_singleton.1 hm
    exact Schema.mem_marks_of_class hname hclass List.mem_cons_self
  exact hr.markAll hmarks

include h₀

/-- The class of a structure can be framed. -/
theorem succeeds_frameOf (t : Target) (className : String) :
    Succeeds (frameOf t name className (s.setFact name "name" (Text.lowerFirst name))) := by
  have hr' := reached_setFact hr hname hclass
  obtain ⟨layout, hl⟩ := hr'.exists_layout h₀ (Schema.isSort_of_isClass hclass)
  have hs := hr'.steady h₀
  have hbase : Succeeds (findBase (s.setFact name "name" (Text.lowerFirst name)) layout) := by
    refine succeeds_findBase (fun v hv => ?_) hs
    obtain ⟨index, hindex, rfl⟩ := List.mem_iff_getElem.1 hv
    have hp : (⟨⟨name, index⟩, layout[index]⟩ : Site × Value) ∈ sited name layout :=
      List.mem_mapIdx.2 ⟨index, hindex, rfl⟩
    obtain ⟨r, hr, hinner⟩ := hs.inlines_at hl hp
    refine ⟨r, hr, fun hi => ?_⟩
    obtain ⟨type, layout', htype, hl', -⟩ := hinner hi
    obtain ⟨d, hd, -⟩ := bind_eq_ok.1 hl'
    obtain ⟨d', sort, hd', hsort, -⟩ := hs.known type d (Schema.need_eq_ok.1 hd)
    exact ⟨type, d', htype, Schema.need_eq_ok.2 hd', by simp [Record.has, hsort]⟩
  obtain ⟨base, hbase⟩ := hbase
  obtain ⟨comments, hcomments⟩ := hr.succeeds_description h₀ hname
  rw [frameOf_eq, hl, ok_bind, hbase, ok_bind, hcomments, ok_bind]
  exact succeeds_ok _

end

/-- What the model of a class has from a well formed schema. -/
structure Fitted (s₀ : Schema) (m : ClassModel) : Prop where
  className : m.className = s₀.classOf m.name
  entries : ∀ e ∈ m.entries, Apt s₀ m.name e
  parameters : ∀ e ∈ m.parameters, Apt s₀ m.name e
  constructors : ∀ es ∈ m.constructors, ∀ e ∈ es, Apt s₀ m.name e

theorem Fitted.apt_own {m : ClassModel} (h : m.Fitted s₀) : ∀ e ∈ m.own, Apt s₀ m.name e :=
  fun e he => h.entries e (List.mem_filter.1 he).1

section
variable (h₀ : s₀.WellFormed) {f : Frame} (hname : f.name ∈ s₀.names)
  (hclass : s₀.isClass f.name = true) {d : Draft} (hr : s₀.Reached d.schema)
include h₀ hname hclass hr

/-- The walk of a class succeeds exactly if all that it takes fits. -/
theorem succeeds_walk : Succeeds (runOn (walk f s₀.depthLimit f.name none 0) d).1 ↔
    ∀ site ∈ s₀.met s₀.depthLimit f.name, s₀.isTaken site = true → s₀.Fits f.target site := by
  have hwalk := runOn_walk f s₀.depthLimit f.name [] s₀ d hr.settled
  simp only [Stop.under_nil] at hwalk
  rw [show runOn (walk f s₀.depthLimit f.name none 0) d = _ from hwalk]
  exact succeeds_passes h₀ hname hclass hr fun _ hstop => hstop

theorem apt_walk (hd : d.entries = []) {d' : Draft} {u : Unit}
    (h : runOn (walk f s₀.depthLimit f.name none 0) d = (.ok u, d')) :
    s₀.Reached d'.schema ∧ ∀ e ∈ d'.entries, Apt s₀ f.name e := by
  have hwalk := runOn_walk f s₀.depthLimit f.name [] s₀ d hr.settled
  simp only [Stop.under_nil] at hwalk
  exact apt_passes h₀ hname hclass hr (fun _ hstop => hstop) (by simp [hd]) (hwalk.symm.trans h)

omit hname hclass in
theorem finish_eq (comments : String) (hf : f.className = s₀.classOf f.name)
    (hd : ∀ e ∈ d.entries, Apt s₀ f.name e) :
    ∃ m, finish f comments d = .ok m ∧ m.name = f.name ∧ m.Fitted s₀ := by
  have hparameters : ∀ e ∈ d.entries.filter (isParameter f.target), Apt s₀ f.name e :=
    fun e he => hd e (List.mem_filter.1 he).1
  obtain ⟨constructors, hconstructors, hapt⟩ := constructorsOf_eq h₀ hr hd hparameters
  simp only [finish, hconstructors, ok_bind, pure_eq_ok]
  exact ⟨_, rfl, rfl, hf, hd, hparameters, hapt⟩

end

section
variable (h₀ : s₀.WellFormed) (hr : s₀.Reached s) (hname : name ∈ s₀.names)
  (hclass : s₀.isClass name = true) (t : Target)
include h₀ hr hname hclass

/-- The model of a class can be made exactly if all that the class takes fits. -/
theorem succeeds_modelOf : Succeeds (modelOf t s name) ↔
    ∀ site ∈ s₀.met s₀.depthLimit name, s₀.isTaken site = true → s₀.Fits t site := by
  have hr' := reached_setFact hr hname hclass
  obtain ⟨⟨f, comments⟩, hframe⟩ := succeeds_frameOf h₀ hr hname hclass t (s₀.classOf name)
  have hclassName := hr.classNameOf_eq h₀ hname
  obtain ⟨rfl, rfl, hf, -⟩ := frameOf_eq_ok hframe
  have hwalk := @succeeds_walk s₀ h₀ f hname hclass
    { schema := s.setFact f.name "name" (Text.lowerFirst f.name) } hr'
  constructor
  · rintro ⟨m, hm⟩
    obtain ⟨d, hbuild⟩ := modelOf_eq_ok hm
    obtain ⟨className, f', comments', hclass', hframe', hwalk', -⟩ := build_eq_ok hbuild
    obtain rfl := Except.ok.inj (hclassName.symm.trans hclass')
    obtain ⟨rfl, -⟩ := Prod.mk.inj (Except.ok.inj (hframe.symm.trans hframe'))
    rw [hr.depthLimit] at hwalk'
    exact hwalk.1 ⟨(), by rw [hwalk']⟩
  · intro hfits
    obtain ⟨u, hok⟩ := hwalk.2 hfits
    obtain ⟨d, hrun⟩ : ∃ d, runOn (walk f s₀.depthLimit f.name none 0)
        { schema := s.setFact f.name "name" (Text.lowerFirst f.name) } = (.ok u, d) :=
      ⟨_, Prod.ext hok rfl⟩
    obtain ⟨hreached, hapt⟩ := apt_walk h₀ hname hclass hr' rfl hrun
    obtain ⟨m, hm, -⟩ := finish_eq h₀ hreached comments hf hapt
    refine ⟨m, ?_⟩
    have hlimit : (s.setFact f.name "name" (Text.lowerFirst f.name)).depthLimit = s₀.depthLimit :=
      hr'.depthLimit
    simp only [modelOf, build, runOn_bind, runOn_schema, runOn_lift, hclassName, writeFact, runOn_modify,
      hframe, hlimit, hrun, runOn_get, hm]

theorem fitted_of_modelOf {m : ClassModel} (hm : modelOf t s name = .ok m) :
    m.name = name ∧ m.Fitted s₀ := by
  obtain ⟨d, hbuild⟩ := modelOf_eq_ok hm
  obtain ⟨className, f, comments, hclassName, hframe, hwalk, hfinish⟩ := build_eq_ok hbuild
  obtain ⟨rfl, rfl, rfl, -⟩ := frameOf_eq_ok hframe
  have hr' := reached_setFact hr hname hclass
  rw [hr.depthLimit] at hwalk
  obtain ⟨hreached, hapt⟩ := apt_walk h₀ hname hclass hr' rfl hwalk
  have hf := Except.ok.inj (hclassName.symm.trans (hr.classNameOf_eq h₀ hname))
  obtain ⟨m', hm', hnamed⟩ := finish_eq h₀ hreached comments hf hapt
  obtain rfl := Except.ok.inj (hfinish.symm.trans hm')
  exact hnamed

end

section
variable {t : Target} {s s' : Schema} {name : String} {m m' : ClassModel}

/-- All numbers in a class have types. -/
theorem succeeds_numberType_of_model (hm : modelOf t s name = .ok m) : ∀ e ∈ m.entries,
    e.kind = .simple ∨ e.kind = .sizeField → Succeeds (t.numberType e.size) := by
  obtain ⟨f, rfl, -, -, hdrawn, -, -⟩ := drawn_of_model hm
  refine forall_of_drawn ?_ hdrawn
  intro s' before site aggregate e _ he hk
  obtain ⟨x, hx, he⟩ := bind_eq_ok.1 he
  obtain ⟨r, -, he⟩ := bind_eq_ok.1 he
  obtain ⟨_, -, he⟩ := bind_eq_ok.1 he
  obtain ⟨_, -, rfl⟩ := return_eq_ok.1 he
  obtain ⟨r, hfrom⟩ := memberFrom_of_memberOf hx
  obtain ⟨type, -, htype⟩ := bind_eq_ok.1 hfrom.varType
  have hkind : x.kind = .simple ∨ x.kind = .sizeField := hk
  simp only [hfrom.size, ok_bind] at htype
  rcases hkind with hkind | hkind <;> exact ⟨x.varType, by simpa [hkind] using htype⟩

theorem Drawn.congr (h : s'.settled = s.settled) {f : Frame} {before : List Entry} {vs : List Visit}
    {es : List Entry} (hd : Drawn f s' before vs es) : Drawn f s before vs es := by
  induction hd with
  | nil before => exact .nil before
  | cons settled named drawn rest ih => exact .cons (settled.trans h) named drawn ih

/-- Models of one structure that are made in two states of a schema have the same entries. -/
theorem twins_of_settled (h : s'.settled = s.settled) (hm : modelOf t s name = .ok m)
    (hm' : modelOf t s' name = .ok m') : List.Forall₂ Entry.Twin m.entries m'.entries := by
  have hbase : m'.base = m.base := by
    rw [base_eq hm, base_eq hm', ← Schema.sites_settled, h, Schema.sites_settled,
      funext (Schema.inlined?_congr h)]
  have hvisits : s'.visits s'.depthLimit name = s.visits s.depthLimit name := by
    have hvisit : Stop.visit? s' = Stop.visit? s := by
      funext stop
      cases stop <;> simp [Stop.visit?, Schema.isShown_congr h]
    rw [Schema.visits, Schema.visits, hvisit, ← Schema.tour_settled, ← Schema.depthLimit_settled, h,
      Schema.tour_settled, Schema.depthLimit_settled]
  obtain ⟨f, -, hname, hf, hdrawn, -, -⟩ := drawn_of_model hm
  obtain ⟨f', -, hname', hf', hdrawn', -, -⟩ := drawn_of_model hm'
  rw [hvisits] at hdrawn'
  exact twins_of_drawn (hname'.trans hname.symm) (by rw [hf', hbase, hf]) rfl hdrawn (hdrawn'.congr h)

theorem forall_mem_twins {es es' : List Entry} (h : List.Forall₂ Entry.Twin es es') {p : Entry → Prop}
    (hp : ∀ e e', Entry.Twin e e' → (p e' ↔ p e)) : (∀ e' ∈ es', p e') ↔ ∀ e ∈ es, p e := by
  induction h with
  | nil => simp
  | cons htwin _ ih => rw [List.forall_mem_cons, List.forall_mem_cons, hp _ _ htwin, ih]

end
end ClassModel
end SchemaForge
