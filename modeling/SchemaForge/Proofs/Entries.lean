import Mathlib.Data.List.Forall2
import SchemaForge.Proofs.Tour

/-! The members of a class: one for each attribute that shows on the tour through its structure, in the
order of the tour, each with the contents that the settled form of the schema gives it. -/
namespace SchemaForge
open Checked

/-- What is related item by item has a partner for each item. -/
theorem exists_of_forall₂ {α β : Type} {R : α → β → Prop} {as : List α} {bs : List β}
    (h : List.Forall₂ R as bs) {a : α} (ha : a ∈ as) : ∃ b ∈ bs, R a b := by
  induction h with
  | nil => cases ha
  | @cons _ b _ _ hab _ ih =>
    rcases List.mem_cons.1 ha with rfl | ha
    · exact ⟨b, List.mem_cons_self, hab⟩
    · obtain ⟨b', hb', hab'⟩ := ih ha
      exact ⟨b', List.mem_cons_of_mem _ hb', hab'⟩

theorem Record.need_eq_ok {r : Record} {key : String} {v : Value} :
    r.need key = .ok v ↔ r.get? key = some v := by
  unfold Record.need Checked.require
  cases r.get? key <;> simp

namespace Schema

/-- The attribute at a site has the name of its settled form. -/
def NamedAt (s : Schema) (site : Site) : Prop := ∀ r, s.attributeAt? site = some r → r.Named

theorem namedAt_noteName (s : Schema) (site : Site) : (s.noteName site).NamedAt site := by
  intro r hr
  unfold noteName at hr
  cases hn : s.nameAt? site with
  | none =>
    rw [hn] at hr
    rw [nameAt?, hr, Option.bind_some] at hn
    rw [Record.Named, Record.get?_name_settled, hn]
    rfl
  | some name =>
    rw [hn] at hr
    simp only [attributeAt?_setEntry, if_true] at hr
    obtain ⟨r', hr', rfl⟩ := Option.map_eq_some_iff.1 hr
    rw [nameAt?, hr', Option.bind_some] at hn
    exact Record.named_set_name hn

/-- Whether an attribute makes a member of the classes that take it. -/
def isShown (s : Schema) (site : Site) : Bool :=
  (s.attributeAt? site).any fun r =>
    if r.isInline then (r.get? "type").any fun type => !isHidden type
    else !r.isConst && (r.isVar || r.isFill || !r.has "disposition")

theorem isShown_settled (s : Schema) (site : Site) : s.settled.isShown site = s.isShown site := by
  unfold isShown
  rw [attributeAt?_settled]
  cases s.attributeAt? site with
  | none => rfl
  | some r => simp [Record.get?_settled, Record.has_settled]

theorem isShown_congr {s s' : Schema} (h : s'.settled = s.settled) (site : Site) :
    s'.isShown site = s.isShown site := by
  rw [← isShown_settled s', h, isShown_settled]

theorem attributeAt_settled (s : Schema) (site : Site) :
    s.settled.attributeAt site = (s.attributeAt site).settled := by
  unfold attributeAt
  rw [attributeAt?_settled]
  cases s.attributeAt? site <;> rfl

theorem recordAt_settled (s : Schema) (site : Site) :
    s.settled.recordAt site = (s.recordAt site).map Record.settled := by
  unfold recordAt
  rw [attributeAt?_settled]
  cases s.attributeAt? site <;> rfl

theorem attributeAt?_eq_layout {s : Schema} {name : String} {layout : List Value}
    (hl : (s.need name >>= Value.layout) = .ok layout) (index : Nat) :
    s.attributeAt? ⟨name, index⟩ = layout[index]?.bind Value.record? := by
  obtain ⟨type, htype, hl⟩ := bind_eq_ok.1 hl
  obtain ⟨listed, hlisted, hitems⟩ := bind_eq_ok.1 hl
  have hget : s.get? name = some type := by
    rw [need_text] at htype
    cases hg : s.get? name <;> simp_all [Checked.require]
  rw [attributeAt?_eq, hget, Option.bind_some]
  cases type with
  | table entries =>
    have hlookup : entries.lookup "layout" = some listed := Record.need_eq_ok.1 hlisted
    simp only [Value.attribute?, Value.record?, Option.bind_some, Record.get?, hlookup]
    cases listed with
    | list items =>
      obtain rfl : items = layout := by simpa [Value.items] using hitems
      rfl
    -- The parts of a text or of a table are texts.
    | text written =>
      obtain rfl : Value.characters written = layout := by simpa [Value.items] using hitems
      rw [Value.characters, List.getElem?_map]
      cases written.toList[index]? <;> rfl
    | table keys =>
      obtain rfl : keys.map (fun e => Value.text e.1) = layout := by
        simpa [Value.items] using hitems
      rw [List.getElem?_map]
      cases keys[index]? <;> rfl
    | _ => simp [Value.items] at hitems
  | _ => simp [Value.need] at hlisted

theorem attributeAt?_of_layout {s : Schema} {name : String} {layout : List Value} {index : Nat}
    {r : Record} (hl : (s.need name >>= Value.layout) = .ok layout)
    (hr : layout[index]? = some r.value) : s.attributeAt? ⟨name, index⟩ = some r := by
  rw [attributeAt?_eq_layout hl, hr]
  rfl

theorem text_of_className {s : Schema} {type user : Value} {name : String}
    (h : s.className type user = .ok name) : ∃ typeName, type = .text typeName := by
  obtain ⟨sort, -, h⟩ := bind_eq_ok.1 h
  obtain ⟨typeName, htype, -⟩ := bind_eq_ok.1 h
  exact ⟨typeName, Value.eq_text_of_joined htype⟩

end Schema

/-- A place on a tour where a class gets a member. -/
structure Visit where
  path : List Inline
  site : Site

def Stop.visit? (s : Schema) : Stop → Option Visit
  | .meet path site => if s.isShown site then some ⟨path, site⟩ else none
  | _ => none

/-- The places on the tour through a structure where its class gets a member. -/
def Schema.visits (s : Schema) (limit : Nat) (owner : String) : List Visit :=
  (s.tour limit owner).filterMap (Stop.visit? s)

namespace ClassModel
open Drafting

/-- What an attribute brings into a class can be told from the settled form of the schema. -/
theorem memberOf_settled (t : Target) {s : Schema} {site : Site} (h : s.NamedAt site) :
    memberOf t s.settled site = memberOf t s site := by
  unfold memberOf
  rw [Schema.recordAt_settled]
  cases hr : s.recordAt site with
  | error fault => rfl
  | ok r =>
    have hn : r.Named := h r (Schema.recordAt_eq_ok.1 hr)
    have hname : r.settled.need "name" = r.need "name" := by
      simpa only [Value.need_record] using Value.need_name_settled hn
    have htype : ∀ kind, t.typeOf s.settled r.settled kind = t.typeOf s r kind :=
      t.typeOf_settled s r
    simp only [Except.map, ok_bind, ← bind_assoc]
    rw [Schema.layout_settled]
    cases s.need site.owner >>= Value.layout with
    | error fault => rfl
    | ok layout =>
      simp [Except.map, Value.kind_settled, Value.description_settled hn, hname,
        Schema.sizeOf_settledRecord, htype, Schema.sortOf_settled, Schema.className_settledRecord, Value.isReserved_settled hn, Record.get?_settled]

/-- What a member of a class has from the record of its attribute. -/
structure MemberFrom (t : Target) (s : Schema) (site : Site) (r : Record) (x : Member) : Prop where
  record : s.recordAt site = .ok r
  kind : ∃ layout, (s.need site.owner >>= Value.layout) = .ok layout ∧
    r.value.kind (.list layout) = .ok x.kind
  name : (r.need "name" >>= Value.joined) = .ok x.name
  size : s.sizeOf r = .ok x.size
  varType : t.typeOf s r x.kind = .ok x.varType
  baseType : s.sortOf ((r.get? "type").getD .null) = .ok x.baseType
  className : s.className ((r.get? "type").getD .null) r = .ok x.className
  isReserved : r.value.isReserved = .ok x.isReserved
  isConditional : x.isConditional = r.isConditional
  isAggregate : x.isAggregate = r.isInline
  site : x.site = site

theorem memberFrom_of_memberOf {t : Target} {s : Schema} {site : Site} {x : Member}
    (h : memberOf t s site = .ok x) : ∃ r, MemberFrom t s site r x := by
  obtain ⟨r, hr, h⟩ := bind_eq_ok.1 h
  obtain ⟨declared, hdeclared, h⟩ := bind_eq_ok.1 h
  obtain ⟨layout, hlayout, h⟩ := bind_eq_ok.1 h
  obtain ⟨kind, hkind, h⟩ := bind_eq_ok.1 h
  obtain ⟨comment, -, h⟩ := bind_eq_ok.1 h
  obtain ⟨named, hnamed, h⟩ := bind_eq_ok.1 h
  obtain ⟨name, hname, h⟩ := bind_eq_ok.1 h
  obtain ⟨size, hsize, h⟩ := bind_eq_ok.1 h
  obtain ⟨varType, hvar, h⟩ := bind_eq_ok.1 h
  obtain ⟨baseType, hbase, h⟩ := bind_eq_ok.1 h
  obtain ⟨className, hclass, h⟩ := bind_eq_ok.1 h
  obtain ⟨isReserved, hreserved, rfl⟩ := return_eq_ok.1 h
  exact ⟨r, {
    record := hr
    kind := ⟨layout, bind_eq_ok.2 ⟨declared, hdeclared, hlayout⟩, hkind⟩
    name := bind_eq_ok.2 ⟨named, hnamed, hname⟩
    size := hsize
    varType := hvar
    baseType := hbase
    className := hclass
    isReserved := hreserved
    isConditional := rfl
    isAggregate := rfl
    site := rfl }⟩

/-- The type of a member is named by a text. -/
theorem MemberFrom.exists_type {t : Target} {s : Schema} {site : Site} {r : Record} {x : Member}
    (h : MemberFrom t s site r x) : ∃ type, r.get? "type" = some (.text type) := by
  obtain ⟨type, htype⟩ := Schema.text_of_className h.className
  refine ⟨type, ?_⟩
  cases hg : r.get? "type" with
  | none => simp [hg] at htype
  | some v => rw [← htype, hg, Option.getD_some]

theorem MemberFrom.get?_name {t : Target} {s : Schema} {site : Site} {r : Record} {x : Member}
    (h : MemberFrom t s site r x) : r.get? "name" = some (.text x.name) := by
  obtain ⟨named, hnamed, hname⟩ := bind_eq_ok.1 h.name
  obtain rfl := Value.eq_text_of_joined hname
  exact Record.need_eq_ok.1 hnamed

theorem memberOf_eq_ok {t : Target} {s : Schema} {site : Site} {x : Member}
    (h : memberOf t s site = .ok x) :
    ∃ r type, s.attributeAt? site = some r ∧ r.get? "type" = some (.text type) ∧
      r.get? "name" = some (.text x.name) ∧ x.site = site ∧ x.isAggregate = r.isInline := by
  obtain ⟨r, hx⟩ := memberFrom_of_memberOf h
  obtain ⟨type, htype⟩ := hx.exists_type
  exact ⟨r, type, Schema.recordAt_eq_ok.1 hx.record, htype, hx.get?_name, hx.site, hx.isAggregate⟩

/-- A draft with one entry more, for an attribute. -/
def Adds (f : Frame) (site : Site) (aggregate : Option Aggregate) (before : List Entry)
    (d : Draft) : Prop :=
  ∃ e, entryOf f d.schema before site aggregate = .ok e ∧ d.entries = before ++ [e]

theorem adds_visit {f : Frame} {site : Site} {aggregate : Option Aggregate} {depth : Nat}
    {d d' : Draft} {u : Unit} (h : runOn (visit f site aggregate depth) d = (.ok u, d')) :
    Adds f site aggregate d.entries d' := by
  have hkeeps := keeps_visit f site aggregate depth d
  rw [h] at hkeeps
  unfold visit at h
  obtain ⟨r, _, hr, h⟩ := runOn_bind_eq_ok.1 h
  obtain ⟨value, _, hvalue, h⟩ := runOn_bind_eq_ok.1 h
  obtain ⟨name, _, hname, h⟩ := runOn_bind_eq_ok.1 h
  obtain ⟨_, _, htell, h⟩ := runOn_bind_eq_ok.1 h
  simp only [runOn_attributeAt, runOn_lift, runOn_tell, Prod.mk.injEq] at hr hvalue hname htell
  obtain ⟨-, rfl⟩ := hr
  obtain ⟨-, rfl⟩ := hvalue
  obtain ⟨-, rfl⟩ := hname
  obtain ⟨-, rfl⟩ := htell
  simp only [addEntry, runOn_bind, runOn_get, runOn_lift] at h
  cases he : entryOf f d.schema d.entries site aggregate with
  | error fault => simp [he] at h
  | ok e =>
    simp only [he, runOn_set, Prod.mk.injEq] at h
    obtain ⟨-, rfl⟩ := h
    exact ⟨e, he, rfl⟩

theorem entries_addConstant (f : Frame) (site : Site) (d : Draft) :
    (runOn (addConstant f site) d).2.entries = d.entries := by
  simp only [addConstant, runOn_bind, runOn_schema, runOn_tell, runOn_lift]
  cases constantOf f.target d.schema site <;> simp

theorem takeInline_entries {f : Frame} {r : Record} {site : Site} {aggregate : Option Aggregate}
    {depth : Nat} {d d' : Draft} {inner : String}
    (h : runOn (takeInline f r site aggregate depth) d = (.ok inner, d')) :
    if isHidden inner then d'.entries = d.entries else Adds f site aggregate d.entries d' := by
  have htype := type_of_takeInline h
  unfold takeInline at h
  obtain ⟨type, _, hneed, h⟩ := runOn_bind_eq_ok.1 h
  obtain ⟨name, _, hname, h⟩ := runOn_bind_eq_ok.1 h
  obtain ⟨_, d₁, hwrite, h⟩ := runOn_bind_eq_ok.1 h
  obtain ⟨_, d₂, hvisit, hjoined⟩ := runOn_bind_eq_ok.1 h
  simp only [runOn_lift, Record.need, htype, Checked.require, Prod.mk.injEq,
    Except.ok.injEq] at hneed hname hjoined
  obtain ⟨rfl, rfl⟩ := hneed
  obtain ⟨-, rfl⟩ := hname
  obtain ⟨-, rfl⟩ := hjoined
  simp only [writeEntry, runOn_modify, Prod.mk.injEq] at hwrite
  obtain ⟨-, rfl⟩ := hwrite
  by_cases hidden : isHidden inner = true
  · simp only [hidden, if_true, runOn_pure, Prod.mk.injEq] at hvisit ⊢
    obtain ⟨-, rfl⟩ := hvisit
    rfl
  · simp only [hidden, Bool.false_eq_true, if_false] at hvisit ⊢
    have hadds := adds_visit hvisit
    exact hadds

theorem takePlain_entries {f : Frame} {r : Record} {site : Site} {aggregate : Option Aggregate}
    {depth : Nat} {d d' : Draft} {u : Unit}
    (h : runOn (takePlain f r site aggregate depth) d = (.ok u, d')) :
    if !r.isConst && (r.isVar || r.isFill || !r.has "disposition") then
      Adds f site aggregate d.entries d' else d'.entries = d.entries := by
  unfold takePlain at h
  by_cases hc : r.isConst = true
  · have hentries := entries_addConstant f site d
    rw [if_pos hc] at h
    rw [h] at hentries
    simpa [hc] using hentries
  · rw [if_neg hc] at h
    split at h
    · rename_i hv
      simpa [hc, hv] using adds_visit h
    · rename_i hv
      simp only [runOn_pure, Prod.mk.injEq] at h
      obtain ⟨-, rfl⟩ := h
      simp [hv]

/-- An attribute that shows adds one entry to the class, any other attribute none. -/
theorem meet_entries {f : Frame} {site : Site} {aggregate : Option Aggregate} {depth : Nat}
    {d d' : Draft} {inner : Option String}
    (h : runOn (meet f site aggregate depth) d = (.ok inner, d')) :
    if d.schema.isShown site then Adds f site aggregate d.entries d' else d'.entries = d.entries := by
  rw [runOn_meet] at h
  rw [← Schema.isShown_congr (d.schema.settled_noteOwner f.name site)]
  generalize d.schema.noteOwner f.name site = s at h ⊢
  cases hr : s.recordAt site with
  | error fault => simp [hr] at h
  | ok r =>
    have hat := Schema.recordAt_eq_ok.1 hr
    by_cases hi : r.isInline = true
    · simp only [hr, hi, if_true, Prod.mk.injEq] at h
      rcases ht : runOn (takeInline f r site aggregate depth) { d with schema := s } with
        ⟨fault | type, d₂⟩
      · simp [ht, Except.map] at h
      · obtain rfl : d₂ = d' := by simpa [ht] using h.2
        have hentries := takeInline_entries ht
        by_cases hidden : isHidden type = true <;>
          simpa [Schema.isShown, hat, hi, type_of_takeInline ht, hidden] using hentries
    · simp only [hr, hi, Bool.false_eq_true, if_false, Prod.mk.injEq] at h
      rcases ht : runOn (takePlain f r site aggregate depth) { d with schema := s } with
        ⟨fault | _, d₂⟩
      · simp [ht, Except.map] at h
      · obtain rfl : d₂ = d' := by simpa [ht] using h.2
        simpa [Schema.isShown, hat, hi] using takePlain_entries ht

/-- Entries made one after another for the attributes visited, each in some state of the schema and
behind the entries in front of it. -/
inductive Drawn (f : Frame) (s : Schema) : List Entry → List Visit → List Entry → Prop where
  | nil (before : List Entry) : Drawn f s before [] []
  | cons {before : List Entry} {v : Visit} {e : Entry} {vs : List Visit} {es : List Entry}
      {s' : Schema} (settled : s'.settled = s.settled) (named : s'.NamedAt v.site)
      (drawn : entryOf f s' before v.site (aggregateOf v.path) = .ok e)
      (rest : Drawn f s (before ++ [e]) vs es) : Drawn f s before (v :: vs) (e :: es)

/-- What holds of every entry that is made on a walk holds of all its entries. -/
theorem forall_of_drawn {f : Frame} {s : Schema} {p : Entry → Prop}
    (hp : ∀ s' before site aggregate e, s'.settled = s.settled →
      entryOf f s' before site aggregate = .ok e → p e)
    {before : List Entry} {vs : List Visit} {es : List Entry} (h : Drawn f s before vs es) :
    ∀ e ∈ es, p e := by
  induction h with
  | nil before => simp
  | cons settled named drawn rest ih =>
    intro e he
    rcases List.mem_cons.1 he with rfl | he
    · exact hp _ _ _ _ _ settled drawn
    · exact ih e he

theorem pass_entries {f : Frame} {s : Schema} {stop : Stop} {d d' : Draft} {u : Unit}
    (hs : d.schema.settled = s.settled) (h : runOn (pass f stop) d = (.ok u, d')) :
    match stop.visit? s with
    | some v => Adds f v.site (aggregateOf v.path) d.entries d' ∧ d'.schema.NamedAt v.site
    | none => d'.entries = d.entries := by
  cases stop with
  | enter path owner =>
    simp only [pass, runOn_bind, runOn_tell, runOn_layout] at h
    cases hl : d.schema.need owner >>= Value.layout with
    | error fault => simp [hl] at h
    | ok layout =>
      simp only [hl, runOn_pure, Prod.mk.injEq] at h
      obtain ⟨-, rfl⟩ := h
      rfl
  | meet path site =>
    have hschema := schema_meet f site (aggregateOf path) path.length d
    rw [pass, runOn_map] at h
    rcases hm : runOn (meet f site (aggregateOf path) path.length) d with ⟨fault | inner, d₁⟩
    · simp [hm, Except.map] at h
    · obtain rfl : d₁ = d' := by simpa [hm] using congrArg Prod.snd h
      have hentries := meet_entries hm
      rw [hm] at hschema
      rw [Schema.isShown_congr hs] at hentries
      unfold Stop.visit?
      by_cases hshown : s.isShown site = true
      · simp only [hshown, if_true] at hentries ⊢
        refine ⟨hentries, ?_⟩
        rw [hschema]
        exact Schema.namedAt_noteName _ site
      · simpa [hshown] using hentries
  | endless => simp [pass] at h

/-- Passing stops without a fault adds one entry for each visit among them. -/
theorem drawn_passes {f : Frame} {s : Schema} {stops : List Stop} {d d' : Draft} {u : Unit}
    (hs : d.schema.settled = s.settled)
    (h : runOn (forM stops (pass f)) d = (.ok u, d')) :
    ∃ es, d'.entries = d.entries ++ es ∧ Drawn f s d.entries (stops.filterMap (Stop.visit? s)) es := by
  induction stops generalizing d with
  | nil =>
    obtain ⟨-, rfl⟩ := by simpa using h
    exact ⟨[], by simp, .nil _⟩
  | cons stop stops ih =>
    rw [List.forM_cons] at h
    obtain ⟨_, d₁, hpass, hrest⟩ := runOn_bind_eq_ok.1 h
    have hs₁ : d₁.schema.settled = s.settled := by
      have hkept := settled_pass f stop d
      rw [hpass] at hkept
      exact hkept.trans hs
    obtain ⟨es, hes, hdrawn⟩ := ih hs₁ hrest
    have hentries := pass_entries hs hpass
    cases hv : stop.visit? s with
    | none =>
      simp only [hv] at hentries
      rw [List.filterMap_cons_none hv]
      rw [hentries] at hes hdrawn
      exact ⟨es, hes, hdrawn⟩
    | some v =>
      simp only [hv] at hentries
      rw [List.filterMap_cons_some hv]
      obtain ⟨⟨e, he, hadded⟩, hnamed⟩ := hentries
      rw [hadded] at hes hdrawn
      exact ⟨e :: es, by simp [hes], .cons hs₁ hnamed he hdrawn⟩

/-- What an entry has from the attribute for which it was made and from the way that led there. -/
structure Depicts (f : Frame) (s : Schema) (v : Visit) (e : Entry) : Prop where
  member : memberOf f.target s.settled v.site = .ok e.toMember
  aggregateName : e.aggregateName = (aggregateOf v.path).map (·.name)
  isSuper : e.isSuper = isInherited f.base (s.attributeAt v.site) (aggregateOf v.path)
  isInline : e.isInline = (!e.isSuper && (aggregateOf v.path).isSome)
  conditionValue : e.conditionValue = .null

theorem isInherited_settled (base : Option String) (r : Record) (aggregate : Option Aggregate) :
    isInherited base r.settled aggregate = isInherited base r aggregate := by
  simp [isInherited, Record.get?_settled]

theorem isInherited_congr {s s' : Schema} (h : s'.settled = s.settled) (base : Option String)
    (site : Site) (aggregate : Option Aggregate) :
    isInherited base (s'.attributeAt site) aggregate =
      isInherited base (s.attributeAt site) aggregate := by
  rw [← isInherited_settled, ← Schema.attributeAt_settled, h, Schema.attributeAt_settled,
    isInherited_settled]

theorem depicts_of_drawn {f : Frame} {s : Schema} {before : List Entry} {vs : List Visit}
    {es : List Entry} (h : Drawn f s before vs es) : List.Forall₂ (Depicts f s) vs es := by
  induction h with
  | nil before => exact .nil
  | @cons before v e vs es s' settled named drawn rest ih =>
    refine .cons ?_ ih
    unfold entryOf at drawn
    obtain ⟨member, hmember, drawn⟩ := bind_eq_ok.1 drawn
    obtain ⟨r, hr, drawn⟩ := bind_eq_ok.1 drawn
    obtain ⟨conditionSite, hcondition, drawn⟩ := bind_eq_ok.1 drawn
    obtain ⟨parent, hparent, drawn⟩ := bind_eq_ok.1 drawn
    simp only [pure_eq_ok, Except.ok.injEq] at drawn
    subst drawn
    have hat : s'.attributeAt v.site = r := by
      rw [Schema.attributeAt, Schema.recordAt_eq_ok.1 hr, Option.getD_some]
    exact {
      member := by rw [← settled, memberOf_settled _ named, hmember]
      aggregateName := rfl
      isSuper := by rw [← isInherited_congr settled, hat]
      isInline := rfl
      conditionValue := rfl }

/-- A model is made in four steps: the schema takes the name of the structure, the class is framed,
the walk makes the entries, and the rest is found from them. -/
theorem build_eq_ok {t : Target} {name : String} {d d' : Draft} {m : ClassModel}
    (h : runOn (build t name) d = (.ok m, d')) :
    ∃ className f comments,
      classNameOf d.schema name = .ok className ∧
      frameOf t name className (d.schema.setFact name "name" (Text.lowerFirst name)) =
        .ok (f, comments) ∧
      runOn (walk f d.schema.depthLimit name none 0)
        { d with schema := d.schema.setFact name "name" (Text.lowerFirst name) } = (.ok (), d') ∧
      finish f comments d' = .ok m := by
  unfold build at h
  obtain ⟨s₀, _, hs₀, h⟩ := runOn_bind_eq_ok.1 h
  obtain ⟨className, _, hclass, h⟩ := runOn_bind_eq_ok.1 h
  obtain ⟨_, _, hwrite, h⟩ := runOn_bind_eq_ok.1 h
  obtain ⟨s₁, _, hs₁, h⟩ := runOn_bind_eq_ok.1 h
  obtain ⟨⟨f, comments⟩, _, hframe, h⟩ := runOn_bind_eq_ok.1 h
  obtain ⟨_, _, hwalk, h⟩ := runOn_bind_eq_ok.1 h
  obtain ⟨d₁, _, hget, hfinish⟩ := runOn_bind_eq_ok.1 h
  simp only [runOn_schema, runOn_lift, runOn_get, writeFact, runOn_modify, Prod.mk.injEq,
    Except.ok.injEq] at hs₀ hclass hwrite hs₁ hframe hget hfinish
  obtain ⟨rfl, rfl⟩ := hs₀
  obtain ⟨hclass, rfl⟩ := hclass
  obtain ⟨-, rfl⟩ := hwrite
  obtain ⟨rfl, rfl⟩ := hs₁
  obtain ⟨hframe, rfl⟩ := hframe
  obtain ⟨rfl, rfl⟩ := hget
  obtain ⟨hfinish, rfl⟩ := hfinish
  refine ⟨className, f, comments, hclass, hframe, ?_, hfinish⟩
  simpa [Schema.depthLimit, Schema.size, Schema.setFact, Schema.update] using hwalk

/-- The model of a structure, made on its own from a schema. -/
def modelOf (t : Target) (s : Schema) (name : String) : Checked ClassModel :=
  (runOn (build t name) { schema := s }).1

theorem modelOf_eq_ok {t : Target} {s : Schema} {name : String} {m : ClassModel}
    (h : modelOf t s name = .ok m) : ∃ d, runOn (build t name) { schema := s } = (.ok m, d) :=
  ⟨_, Prod.ext h rfl⟩

theorem frameOf_eq_ok {t : Target} {name className : String} {s : Schema} {f : Frame}
    {comments : String} (h : frameOf t name className s = .ok (f, comments)) :
    f.target = t ∧ f.name = name ∧ f.className = className ∧
      (s.need name >>= Value.layout >>= findBase s) = .ok (f.base, f.baseClass) := by
  unfold frameOf at h
  obtain ⟨type, htype, h⟩ := bind_eq_ok.1 h
  obtain ⟨layout, hlayout, h⟩ := bind_eq_ok.1 h
  obtain ⟨⟨base, baseClass⟩, hbase, h⟩ := bind_eq_ok.1 h
  obtain ⟨type, htype', h⟩ := bind_eq_ok.1 h
  obtain ⟨comments, hcomments, h⟩ := bind_eq_ok.1 h
  simp only [pure_eq_ok, Except.ok.injEq, Prod.mk.injEq] at h
  obtain ⟨rfl, -⟩ := h
  exact ⟨rfl, rfl, rfl, by simp [htype, hlayout, hbase]⟩

theorem finish_eq_ok {f : Frame} {comments : String} {d : Draft} {m : ClassModel}
    (h : finish f comments d = .ok m) :
    m.name = f.name ∧ m.base = f.base ∧ m.entries = d.entries ∧
      m.parameters = d.entries.filter (isParameter f.target) := by
  obtain ⟨constructors, -, rfl⟩ := return_eq_ok.1 h
  exact ⟨rfl, rfl, rfl, rfl⟩

/-- A finished tour does not come to the end of the limit. -/
theorem endless_notMem_of_passes {f : Frame} {stops : List Stop} {d d' : Draft} {u : Unit}
    (h : runOn (forM stops (pass f)) d = (.ok u, d')) : Stop.endless ∉ stops := by
  induction stops generalizing d with
  | nil => simp
  | cons stop stops ih =>
    rw [List.forM_cons] at h
    obtain ⟨_, d₁, hpass, hrest⟩ := runOn_bind_eq_ok.1 h
    have hne : Stop.endless ≠ stop := by
      rintro rfl
      simp [pass] at hpass
    simp [hne, ih hrest]

/-- A model is made along the tour through its structure. -/
theorem passes_of_modelOf {t : Target} {s : Schema} {name : String} {m : ClassModel}
    (h : modelOf t s name = .ok m) :
    ∃ className f comments d, classNameOf s name = .ok className ∧
      frameOf t name className (s.setFact name "name" (Text.lowerFirst name)) = .ok (f, comments) ∧
      runOn (forM (s.tour s.depthLimit name) (pass f))
        { schema := s.setFact name "name" (Text.lowerFirst name) } = (.ok (), d) ∧
      finish f comments d = .ok m := by
  obtain ⟨d, hd⟩ := modelOf_eq_ok h
  obtain ⟨className, f, comments, hclass, hframe, hwalk, hfinish⟩ := build_eq_ok hd
  have htour := runOn_walk f s.depthLimit name [] s
    { schema := s.setFact name "name" (Text.lowerFirst name) } (s.settled_setFact name _)
  simp only [Stop.under_nil] at htour
  exact ⟨className, f, comments, d, hclass, hframe, htour.symm.trans hwalk, hfinish⟩

/-- The entries of a model are drawn along the tour through its structure. -/
theorem drawn_of_model {t : Target} {name : String} {s : Schema} {m : ClassModel}
    (h : modelOf t s name = .ok m) :
    ∃ f : Frame, f.target = t ∧ f.name = name ∧ f.base = m.base ∧
      Drawn f s [] (s.visits s.depthLimit name) m.entries ∧
      Stop.endless ∉ s.tour s.depthLimit name ∧
      m.parameters = m.entries.filter (isParameter t) := by
  obtain ⟨className, f, comments, d, -, hframe, hpasses, hfinish⟩ := passes_of_modelOf h
  obtain ⟨rfl, hname, -, -⟩ := frameOf_eq_ok hframe
  obtain ⟨-, hbase, hentries, hparameters⟩ := finish_eq_ok hfinish
  obtain ⟨es, hes, hdrawn⟩ := drawn_passes (s.settled_setFact name _) hpasses
  rw [List.nil_append] at hes
  refine ⟨f, rfl, hname, hbase.symm, ?_, endless_notMem_of_passes hpasses, ?_⟩
  · rw [hentries, hes]
    exact hdrawn
  · rw [hparameters, hentries]

theorem isInline_eq_true {v : Value} (h : v.isInline = .ok true) :
    ∃ r : Record, v = r.value ∧ r.isInline = true := by
  cases v with
  | table entries =>
    refine ⟨⟨entries⟩, rfl, ?_⟩
    exact Except.ok.inj ((Value.isInline_record ⟨entries⟩).symm.trans h)
  | _ =>
    simp only [Value.isInline, Value.is, Value.need] at h
    obtain ⟨found, -, h⟩ := bind_eq_ok.1 h
    cases found <;> simp at h

end ClassModel

namespace Schema
variable {s : Schema}

/-- Whether places go with the values that stand there. -/
def Placed (s : Schema) (attributes : List (Site × Value)) : Prop :=
  ∀ p ∈ attributes, s.attributeAt? p.1 = p.2.record?

theorem map_fst_sited {owner : String} {layout : List Value}
    (hl : (s.need owner >>= Value.layout) = .ok layout) :
    (sited owner layout).map (·.1) = s.sites owner := by
  simp only [sites, hl]
  apply List.ext_getElem
  · simp [sited]
  · intro index _ _
    simp [sited]

theorem map_snd_sited (owner : String) (layout : List Value) : (sited owner layout).map (·.2) = layout := by
  apply List.ext_getElem
  · simp [sited]
  · intro index _ _
    simp [sited]

theorem placed_sited {owner : String} {layout : List Value}
    (hl : (s.need owner >>= Value.layout) = .ok layout) : s.Placed (sited owner layout) := by
  intro p hp
  obtain ⟨index, hi, rfl⟩ := List.mem_mapIdx.1 hp
  rw [attributeAt?_eq_layout hl, List.getElem?_eq_getElem hi, Option.bind_some]

theorem inlined?_of_isInline {v : Value} {site : Site} {found : Bool}
    (hplaced : s.attributeAt? site = v.record?) (h : v.isInline = .ok found) :
    s.inlined? site = if found then (v.need "type").toOption.bind Value.text? else none := by
  rw [inlined?, hplaced]
  cases found with
  | true =>
    obtain ⟨r, rfl, hr⟩ := ClassModel.isInline_eq_true h
    rw [Value.need_record, Record.need]
    change (if r.isInline then (r.get? "type").bind Value.text? else none) = _
    rw [hr]
    cases r.get? "type" <;> rfl
  | false =>
    cases v with
    | table entries =>
      have hnot : Record.isInline ⟨entries⟩ = false :=
        Except.ok.inj ((Value.isInline_record ⟨entries⟩).symm.trans h)
      simp [Value.record?, hnot]
    | _ => rfl

end Schema

namespace ClassModel

/-- The base class is found at the first inline attribute whose structure gets a class. -/
theorem findBase_eq {s : Schema} {attributes : List (Site × Value)} (hplaced : s.Placed attributes)
    {base baseClass : Option String}
    (h : findBase s (attributes.map (·.2)) = .ok (base, baseClass)) :
    base = ((attributes.map (·.1)).filterMap s.inlined?).find? fun type : String => !isHidden type := by
  induction attributes with
  | nil =>
    obtain ⟨rfl, -⟩ : none = base ∧ none = baseClass := by simpa [findBase] using h
    rfl
  | cons p rest ih =>
    obtain ⟨site, v⟩ := p
    have hsite : s.attributeAt? site = v.record? := hplaced (site, v) List.mem_cons_self
    have hlater := ih fun q hq => hplaced q (List.mem_cons_of_mem _ hq)
    rw [List.map_cons, findBase] at h
    obtain ⟨inline, hinline, h⟩ := bind_eq_ok.1 h
    have hinlined := Schema.inlined?_of_isInline hsite hinline
    rw [List.map_cons]
    cases inline with
    | false =>
      rw [List.filterMap_cons_none (by simpa using hinlined)]
      exact hlater (by simpa using h)
    | true =>
      obtain ⟨type, htype, h⟩ := bind_eq_ok.1 h
      rw [if_pos rfl, htype, toOption_ok, Option.bind_some] at hinlined
      by_cases hidden : isHidden type = true
      · obtain ⟨name, -, hname⟩ := List.any_eq_true.1 hidden
        obtain rfl := Value.eq_text_of_beq hname
        rw [List.filterMap_cons_some hinlined, List.find?_cons_of_neg (by simp [hidden])]
        exact hlater (by simpa [hidden] using h)
      · rw [if_neg hidden] at h
        obtain ⟨declared, -, h⟩ := bind_eq_ok.1 h
        obtain ⟨className, hclass, h⟩ := bind_eq_ok.1 h
        obtain ⟨name, rfl⟩ := Schema.text_of_className hclass
        obtain ⟨rfl, -⟩ : some name = base ∧ some className = baseClass := by simpa using h
        rw [List.filterMap_cons_some hinlined, List.find?_cons_of_pos (by simpa using hidden)]

section
variable {t : Target} {s : Schema} {name : String} {m : ClassModel}

theorem base_eq (hm : modelOf t s name = .ok m) :
    m.base = ((s.sites name).filterMap s.inlined?).find? fun type : String => !isHidden type := by
  obtain ⟨className, f, comments, d, -, hframe, -, hfinish⟩ := passes_of_modelOf hm
  obtain ⟨-, -, -, hbase⟩ := frameOf_eq_ok hframe
  obtain ⟨-, hfbase, -, -⟩ := finish_eq_ok hfinish
  obtain ⟨layout, hlayout, hbase⟩ := bind_eq_ok.1 hbase
  have hs := s.settled_setFact name (Text.lowerFirst name)
  generalize s.setFact name "name" (Text.lowerFirst name) = s' at hs hlayout hbase
  have hsites : s'.sites name = s.sites name := by
    rw [← Schema.sites_settled, hs, Schema.sites_settled]
  rw [← Schema.map_snd_sited name layout] at hbase
  rw [hfbase, findBase_eq (Schema.placed_sited hlayout) hbase, Schema.map_fst_sited hlayout, hsites,
    funext (Schema.inlined?_congr hs)]

/-- The structure behind the base class is that of an inline attribute with a class. -/
theorem base_of_model (hm : modelOf t s name = .ok m) {base : String} (hb : m.base = some base) :
    ∃ site ∈ s.sites name, s.inlined? site = some base ∧ isHidden base = false := by
  rw [base_eq hm] at hb
  obtain ⟨site, hsite, hinlined⟩ := List.mem_filterMap.1 (List.mem_of_find?_eq_some hb)
  exact ⟨site, hsite, hinlined, by simpa using List.find?_some hb⟩

end
end ClassModel
end SchemaForge
