import SchemaForge.Proofs.BuilderReads
import SchemaForge.Proofs.Flattening
import SchemaForge.Proofs.SizeFields
import SchemaForge.Proofs.WellFormed

/-! The fields of a builder. A builder leaves out fields of the body by their names, the class of the body
leaves out attributes by what they are for. Where the names tell, both leave out the same. -/
namespace SchemaForge
open Checked

theorem Record.not_is_disposition {r : Record} (h : r.has "disposition" = false) (value : Value) :
    r.is "disposition" value = false := by
  have hnone : r.get? "disposition" = none := by simpa [Record.has] using h
  rw [Record.is, hnone, Option.any_none]

theorem Value.kind_of_plain {r : Record} {siblings : Value} {k : Kind}
    (hplain : r.has "disposition" = false) (h : r.value.kind siblings = .ok k) :
    ∃ counts, r.value.countsOneOf siblings = .ok counts ∧ (k = .sizeField ↔ counts = true) := by
  have hnot := Record.not_is_disposition hplain
  have hvar : r.value.isVar = .ok false := (isVar_record r).trans (congrArg _ (hnot _))
  have hfill : r.value.isFill = .ok false := (isFill_record r).trans (congrArg _ (hnot _))
  have hinline : r.value.isInline = .ok false := (isInline_record r).trans (congrArg _ (hnot _))
  have hfield := (kind_cases h).2
  simp only [kind, hvar, hfill, hinline, ok_bind] at h
  obtain ⟨counts, hcounts, h⟩ := bind_eq_ok.1 h
  refine ⟨counts, hcounts, fun hk => Except.ok.inj (hcounts.symm.trans (hfield hk)), ?_⟩
  rintro rfl
  exact (Except.ok.inj h).symm

theorem Value.isReserved_eq_ok {r : Record} {name : String} {reserved : Bool}
    (hname : r.get? "name" = some (.text name)) (h : r.value.isReserved = .ok reserved) :
    reserved = (Text.holds "_Reserved" name && r.has "size") := by
  have hhas : r.value.has "name" = .ok true := by rw [has_record, Record.has, hname, Option.isSome_some]
  have hneed : r.value.need "name" = .ok (.text name) := Record.need_eq_ok.2 hname
  have hpart : (Value.text name).has "_Reserved" = .ok (Text.holds "_Reserved" name) := rfl
  simp only [isReserved, hhas, hneed, hpart, ok_bind, has_record] at h
  cases hholds : Text.holds "_Reserved" name <;> simp_all

namespace Schema
variable {s : Schema} {owner : String}

/-- The name of an attribute that has a text for a name. -/
def wordAt? (s : Schema) (site : Site) : Option String :=
  ((s.attributeAt site).get? "name").bind Value.text?

theorem get?_of_wordAt? {site : Site} {word : String} (h : s.wordAt? site = some word) :
    (s.attributeAt site).get? "name" = some (.text word) := by
  obtain ⟨v, hv, htext⟩ := Option.bind_eq_some_iff.1 h
  cases v with
  | text own =>
    obtain rfl := Option.some.inj htext
    exact hv
  | _ => cases htext

/-- Whether a layout has no dispositions and its names tell what the attributes are for. -/
structure Telling (s : Schema) (owner : String) : Prop where
  plain : ∀ site ∈ s.sites owner, (s.attributeAt site).has "disposition" = false
  counters : ∀ site ∈ s.sites owner, ∀ name ∈ s.wordAt? site,
    isCounter name = true ↔ ((s.sites owner).filter (s.hasAt "size" name)).length = 1
  padding : ∀ site ∈ s.sites owner, ∀ name ∈ s.wordAt? site,
    Text.holds "_Reserved" name = true → (s.attributeAt site).has "size" = true
  unsized : ∀ site ∈ s.sites owner, s.wordAt? site ≠ some "size"

theorem visits_eq_map {limit : Nat} (h : Stop.endless ∉ s.tour limit owner)
    (hplain : ∀ site ∈ s.sites owner, s.inlined? site = none)
    (hshown : ∀ site ∈ s.sites owner, s.isShown site = true) :
    s.visits limit owner = (s.sites owner).map fun site => ⟨[], site⟩ := by
  cases limit with
  | zero => simp [tour] at h
  | succ limit =>
    have hplaces : s.places (limit + 1) owner = (s.sites owner).map fun site => ⟨[], site⟩ := by
      rw [places_succ, List.map_eq_flatMap]
      exact List.flatMap_congr fun site hsite => by rw [hplain site hsite]
    rw [visits_eq_filter, hplaces, List.filter_eq_self]
    simpa using hshown

theorem mem_met_of_mem_sites {limit : Nat} (h : Stop.endless ∉ s.tour limit owner) {site : Site}
    (hsite : site ∈ s.sites owner) : site ∈ s.met limit owner := by
  cases limit with
  | zero => simp [tour] at h
  | succ limit =>
    refine List.mem_filterMap.2 ⟨.meet [] site, ?_, rfl⟩
    rw [tour]
    exact List.mem_cons_of_mem _ (List.mem_flatMap.2 ⟨site, hsite, List.mem_cons_self⟩)

/-- A layout of records, in terms of the places in it. -/
theorem layout_eq_map {layout : List Value} (hl : (s.need owner >>= Value.layout) = .ok layout)
    (h : ∀ site ∈ s.sites owner, ∃ r, s.attributeAt? site = some r) :
    layout = (s.sites owner).map fun site => (s.attributeAt site).value := by
  rw [← map_fst_sited hl, List.map_map]
  nth_rewrite 1 [← map_snd_sited owner layout]
  apply List.map_congr_left
  intro p hp
  obtain ⟨r, hr⟩ := h p.1 (map_fst_sited hl ▸ List.mem_map_of_mem hp)
  have hrecord : p.2.record? = some r := (placed_sited hl p hp).symm.trans hr
  rw [Function.comp, attributeAt, hr, Option.getD_some]
  exact Value.eq_of_record? hrecord

end Schema

namespace ClassModel
variable {t : Target} {s : Schema} {name : String} {m : ClassModel}

theorem exists_record_of_meet {f : Frame} {site : Site} {aggregate : Option Aggregate} {depth : Nat}
    {d d' : Draft} {inner : Option String} (hs : d.schema.settled = s.settled)
    (h : runOn (meet f site aggregate depth) d = (.ok inner, d')) :
    ∃ r, s.attributeAt? site = some r := by
  rw [runOn_meet] at h
  cases hr : (d.schema.noteOwner f.name site).recordAt site with
  | error fault => simp [hr] at h
  | ok r =>
    have hat := congrArg (Option.map Record.settled) (Schema.recordAt_eq_ok.1 hr)
    rw [← Schema.attributeAt?_settled, Schema.settled_noteOwner, hs, Schema.attributeAt?_settled] at hat
    obtain ⟨r', hr', -⟩ := Option.map_eq_some_iff.1 hat
    exact ⟨r', hr'⟩

theorem exists_record_of_passes {f : Frame} {stops : List Stop} {d d' : Draft} {u : Unit}
    (hs : d.schema.settled = s.settled) (h : runOn (forM stops (pass f)) d = (.ok u, d')) {stop : Stop}
    (hstop : stop ∈ stops) {site : Site} (hsite : stop.site? = some site) :
    ∃ r, s.attributeAt? site = some r := by
  induction stops generalizing d with
  | nil => simp at hstop
  | cons first stops ih =>
    rw [List.forM_cons] at h
    obtain ⟨_, d₁, hpass, hrest⟩ := runOn_bind_eq_ok.1 h
    rcases List.mem_cons.1 hstop with rfl | hstop
    · cases stop with
      | meet path site' =>
        obtain rfl := Option.some.inj hsite
        rw [pass, runOn_map] at hpass
        rcases hm : runOn (meet f site' (aggregateOf path) path.length) d with ⟨fault | inner, d₂⟩
        · simp [hm, Except.map] at hpass
        · exact exists_record_of_meet hs hm
      | _ => cases hsite
    · have hkept := settled_pass f first d
      rw [hpass] at hkept
      exact ih (hkept.trans hs) hrest hstop

/-- Whatever a model meets has a record. -/
theorem exists_record_of_model (hm : modelOf t s name = .ok m) {site : Site}
    (hsite : site ∈ s.met s.depthLimit name) : ∃ r, s.attributeAt? site = some r := by
  obtain ⟨className, f, comments, d, -, -, hpasses, -⟩ := passes_of_modelOf hm
  obtain ⟨stop, hstop, hat⟩ := List.mem_filterMap.1 hsite
  exact exists_record_of_passes (s.settled_setFact name _) hpasses hstop hat

/-- Without a disposition, an attribute is a size field if it is the size of one attribute beside it. -/
theorem sizeField_iff_of_plain {site : Site} {r : Record} {x : Member} (h : MemberFrom t s site r x)
    (hplain : r.has "disposition" = false) :
    x.kind = .sizeField ↔ ((s.sites site.owner).filter (s.hasAt "size" x.name)).length = 1 := by
  obtain ⟨layout, hlayout, hkind⟩ := h.kind
  obtain ⟨counts, hcounts, hiff⟩ := Value.kind_of_plain hplain hkind
  obtain ⟨found, hfound, hcounts⟩ := bind_eq_ok.1 hcounts
  have hnamed : r.value.need "name" = .ok (.text x.name) := Record.need_eq_ok.2 h.get?_name
  obtain rfl := Except.ok.inj (hnamed.symm.trans hfound)
  obtain ⟨items, hitems, hcounts⟩ := bind_eq_ok.1 hcounts
  obtain rfl : layout = items := Except.ok.inj hitems
  obtain ⟨sized, hsized, rfl⟩ := return_eq_ok.1 hcounts
  rw [hiff, beq_iff_eq, Schema.length_filter_hasAt hlayout hsized]

/-- Where names tell, an attribute is left out of a constructor exactly if a builder leaves it out. -/
theorem isBuilt_of_member (h : s.Telling name) {site : Site} (hsite : site ∈ s.sites name) {x : Member}
    (hx : memberOf t s site = .ok x) :
    s.wordAt? site = some x.name ∧ isBuilt x.name = (x.kind != .sizeField && !x.isReserved) ∧
      x.isAggregate = false ∧ (x.name != "size") = true := by
  obtain ⟨r, hfrom⟩ := memberFrom_of_memberOf hx
  obtain rfl : s.attributeAt site = r := by
    rw [Schema.attributeAt, Schema.recordAt_eq_ok.1 hfrom.record, Option.getD_some]
  have hplain := h.plain site hsite
  have hget := hfrom.get?_name
  have hword : s.wordAt? site = some x.name := by simp [Schema.wordAt?, hget]
  have hfield : x.kind = .sizeField ↔ isCounter x.name = true := by
    rw [h.counters site hsite x.name hword, sizeField_iff_of_plain hfrom hplain,
      Schema.owner_of_mem_sites hsite]
  have hreserved : x.isReserved = Text.holds "_Reserved" x.name := by
    rw [Value.isReserved_eq_ok hget hfrom.isReserved]
    cases hholds : Text.holds "_Reserved" x.name with
    | false => rfl
    | true => rw [h.padding site hsite x.name hword hholds, Bool.and_self]
  refine ⟨hword, ?_, ?_, ?_⟩
  · rw [isBuilt, hreserved]
    cases hc : isCounter x.name <;> simp_all
  · rw [hfrom.isAggregate]
    exact Record.not_is_disposition hplain _
  · rw [bne_iff_ne]
    intro hsize
    exact h.unsized site hsite (hsize ▸ hword)

theorem exists_layout_of_model (hm : modelOf t s name = .ok m) :
    ∃ layout, (s.need name >>= Value.layout) = .ok layout := by
  obtain ⟨className, f, comments, d, -, hframe, -, -⟩ := passes_of_modelOf hm
  obtain ⟨-, -, -, hbase⟩ := frameOf_eq_ok hframe
  obtain ⟨layout, hlayout, -⟩ := bind_eq_ok.1 hbase
  obtain ⟨layout', hlayout', -⟩ := Schema.exists_layout_congr (s.settled_setFact name _).symm hlayout
  exact ⟨layout', hlayout'⟩

/-- The members of a layout without dispositions stand for its attributes. -/
theorem members_of_telling (h : s.Telling name) (hm : modelOf t s name = .ok m) :
    List.Forall₂ (fun site e => site ∈ s.sites name ∧ e.site = site ∧ memberOf t s site = .ok e.toMember)
      (s.sites name) m.entries := by
  obtain ⟨f, rfl, -, -, hdrawn, hfinite, -⟩ := drawn_of_model hm
  have hplain : ∀ site ∈ s.sites name, s.PlainAt site ∧ s.inlined? site = none ∧
      s.isShown site = true := by
    intro site hsite
    obtain ⟨r, hr⟩ := exists_record_of_model hm (Schema.mem_met_of_mem_sites hfinite hsite)
    have hnone := h.plain site hsite
    rw [Schema.attributeAt, hr, Option.getD_some] at hnone
    have hnot := Record.not_is_disposition hnone
    refine ⟨⟨r, hr, hnot _⟩, ?_, ?_⟩
    · rw [Schema.inlined?, hr, Option.bind_some, if_neg (by rw [Record.isInline, hnot]; simp)]
    · simp [Schema.isShown, hr, Record.isInline, Record.isConst, hnot, hnone]
  have hdepicts := depicts_of_drawn hdrawn
  rw [Schema.visits_eq_map hfinite (fun site hsite => (hplain site hsite).2.1)
    fun site hsite => (hplain site hsite).2.2, List.forall₂_map_left_iff] at hdepicts
  refine ((List.forall₂_and_left _ _).2 ⟨fun site hsite => hsite, hdepicts⟩).imp ?_
  rintro site e ⟨hsite, hdepicts⟩
  refine ⟨hsite, depicts_site hdepicts, ?_⟩
  rw [← memberOf_settled _ (hplain site hsite).1.namedAt]
  exact hdepicts.member

/-- Where no attribute is a size, the parameters are neither padding nor whole aggregates, and all
others are there. -/
theorem constructorParams_eq_filter (h : s.Telling name) (hm : modelOf t s name = .ok m) :
    m.constructorParams = m.parameters.filter fun e => !e.isReserved && !e.isAggregate := by
  obtain ⟨-, -, -, -, -, -, hparameters⟩ := drawn_of_model hm
  apply List.filter_congr
  intro e he
  rw [hparameters] at he
  have hentry := List.mem_of_mem_filter he
  obtain ⟨site, -, hsite, rfl, hmember⟩ := exists_of_forall₂ (members_of_telling h hm).flip hentry
  obtain ⟨-, -, -, hname⟩ := isBuilt_of_member h hsite hmember
  simp [isArgument, not_isFixed_of_model hm e hentry, hname, Bool.and_comm]

theorem constructorParams_of_telling (h : s.Telling name) (hm : modelOf t s name = .ok m) :
    m.constructorParams = m.entries.filter fun e => isBuilt e.name := by
  obtain ⟨-, -, -, -, -, -, hparameters⟩ := drawn_of_model hm
  rw [constructorParams_eq_filter h hm, hparameters, List.filter_filter]
  apply List.filter_congr
  intro e he
  obtain ⟨site, -, hsite, rfl, hmember⟩ := exists_of_forall₂ (members_of_telling h hm).flip he
  obtain ⟨-, hbuilt, haggregate, hname⟩ := isBuilt_of_member h hsite hmember
  simp [isParameter, haggregate, hname, hbuilt, Bool.and_comm]

end ClassModel

namespace Builder
variable {b : Builder} {t : Target} {m : ClassModel}

/-- Among fields with texts for names, a builder asks for those whose names do not leave them out. -/
theorem forM_built {value : Entry → Value} {es : List Entry}
    (h : ∀ e ∈ es, (value e).need "name" = .ok (.text e.name)) (step : Value → Writing Unit) :
    ((es.map value).forM fun v => do if isBuilt (← (← v.need "name").asText) then step v) =
      (es.filter fun e => isBuilt e.name).forM fun e => step (value e) := by
  induction es with
  | nil => rfl
  | cons e es ih =>
    have hrest := ih fun e' he' => h e' (List.mem_cons_of_mem _ he')
    simp only [List.forM_eq_forM, List.map_cons, List.forM_cons, List.filter_cons] at hrest ⊢
    rw [hrest, h e List.mem_cons_self, lift_ok_bind, Value.asText, lift_ok_bind]
    cases hbuilt : isBuilt e.name <;> simp

/-- Where names tell, a builder asks for the fields that are the parameters of the constructor of the
body, in their order. -/
theorem forFields_eq_constructorParams (h : b.schema.Telling b.bodyName)
    (hm : ClassModel.modelOf t b.schema b.bodyName = .ok m) :
    (∀ step, b.forFields step =
      m.constructorParams.forM fun e => step (b.schema.attributeAt e.site).value) ∧
    (m.constructorParams = m.parameters.filter fun e => !e.isReserved && !e.isAggregate) ∧
    (m.constructorParams.map (·.site)).Sublist (b.schema.sites b.bodyName) := by
  have hmembers := ClassModel.members_of_telling h hm
  have hsites : b.schema.sites b.bodyName = m.entries.map (·.site) := by
    rw [← List.forall₂_eq_eq_eq, List.forall₂_map_right_iff]
    exact hmembers.imp fun site e hmember => hmember.2.1.symm
  have hnamed : ∀ e ∈ m.entries,
      (b.schema.attributeAt e.site).value.need "name" = .ok (.text e.name) := by
    intro e he
    obtain ⟨site, -, hsite, rfl, hmember⟩ := exists_of_forall₂ hmembers.flip he
    obtain ⟨hword, -⟩ := ClassModel.isBuilt_of_member h hsite hmember
    exact Record.need_eq_ok.2 (Schema.get?_of_wordAt? hword)
  refine ⟨fun step => ?_, ClassModel.constructorParams_eq_filter h hm, ?_⟩
  · obtain ⟨layout, hlayout⟩ := ClassModel.exists_layout_of_model hm
    have hrecords : ∀ site ∈ b.schema.sites b.bodyName, ∃ r, b.schema.attributeAt? site = some r := by
      obtain ⟨-, -, -, -, -, hfinite, -⟩ := ClassModel.drawn_of_model hm
      exact fun site hsite =>
        ClassModel.exists_record_of_model hm (Schema.mem_met_of_mem_sites hfinite hsite)
    have hvalues : layout = m.entries.map fun e => (b.schema.attributeAt e.site).value := by
      rw [Schema.layout_eq_map hlayout hrecords, hsites, List.map_map]
      rfl
    rw [ClassModel.constructorParams_of_telling h hm, ← forM_built hnamed, ← hvalues, forFields, fields,
      hlayout, lift_ok_bind]
  · rw [ClassModel.constructorParams_of_telling h hm, hsites]
    exact List.filter_sublist.map _

/-- A body with two counters, padding between them and what they count, and a plain field. -/
def transferSchema : Schema := ⟨[
  ("Amount", .table [("type", "byte"), ("size", .int 8)]),
  ("TransferTransactionBody", .table [("type", "struct"), ("layout", .list [
    .table [("name", "recipient"), ("type", "byte"), ("size", .int 24)],
    .table [("name", "messageSize"), ("type", "byte"), ("size", .int 2)],
    .table [("name", "amountsCount"), ("type", "byte"), ("size", .int 1)],
    .table [("name", "body_Reserved1"), ("type", "byte"), ("size", .int 4)],
    .table [("name", "message"), ("type", "byte"), ("size", "messageSize")],
    .table [("name", "amounts"), ("type", "Amount"), ("size", "amountsCount")]])])]⟩

theorem forFields_eq_constructorParams_transfer : ∃ b m,
    ofTransaction transferSchema "TransferTransaction" = .ok b ∧ b.schema.Telling b.bodyName ∧
    ClassModel.modelOf .java b.schema b.bodyName = .ok m ∧
    m.constructorParams.map (·.name) = ["recipient", "message", "amounts"] ∧
    (∀ step, b.forFields step =
      m.constructorParams.forM fun e => step (b.schema.attributeAt e.site).value) ∧
    (m.constructorParams = m.parameters.filter fun e => !e.isReserved && !e.isAggregate) ∧
    (m.constructorParams.map (·.site)).Sublist (b.schema.sites b.bodyName) := by
  obtain ⟨hints, hhints⟩ : ∃ hints, Hints.ofTransaction "TransferTransaction" = .ok hints :=
    Checked.exists_ok (by decide +kernel)
  let made := ClassModel.modelOf .java transferSchema "TransferTransactionBody"
  obtain ⟨m, hm⟩ : ∃ m, made = .ok m := Checked.exists_ok (by decide +kernel)
  have hnames : made.toOption.map (fun m => m.constructorParams.map (·.name)) =
      some ["recipient", "message", "amounts"] := by decide +kernel
  rw [hm, Checked.toOption_ok, Option.map_some, Option.some.injEq] at hnames
  have htelling : transferSchema.Telling "TransferTransactionBody" :=
    ⟨by decide +kernel, by decide +kernel, by decide +kernel, by decide +kernel⟩
  let b : Builder := ⟨transferSchema, "TransferTransaction", hints⟩
  have hb : ofTransaction transferSchema "TransferTransaction" = .ok b := by
    simp [ofTransaction, hhints, b]
  exact ⟨b, m, hb, htelling, hm, hnames, forFields_eq_constructorParams htelling hm⟩

end Builder
end SchemaForge
