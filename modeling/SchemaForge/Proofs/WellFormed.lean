import Mathlib.Logic.Relation
import Mathlib.Data.List.Chain
import Mathlib.Data.List.Perm.Subperm
import SchemaForge.Proofs.Aggregates
import SchemaForge.Proofs.PlansAlike
import SchemaForge.Proofs.Search
import SchemaForge.Proofs.Success
import SchemaForge.Sample.Types

/-! Well formed schemas: what types, attributes and conditions have to be like, so that classes can be
made of them. Nothing that planning writes into a schema takes anything of this away. -/
namespace SchemaForge

deriving instance DecidableEq for Inline, Stop

namespace Value

/-- A text that is not empty. -/
def isName : Value → Bool
  | text s => !s.isEmpty
  | _ => false

/-- A number, or the name of one. -/
def isSize (v : Value) : Bool := v.number?.isSome || v.isText

def isListOf (test : Value → Bool) : Value → Bool
  | list items => items.all test
  | _ => false

/-- The attributes that the layout of a type lists. -/
def attributes (type : Value) : List Record :=
  match type.record?.bind (·.get? "layout") with
  | some (list layout) => layout.filterMap record?
  | _ => []

end Value

namespace Record

/-- Comments are text. -/
def isDescribed (r : Record) : Bool := (r.get? "comments").all Value.isText

/-- An enumerator has a name and a value. -/
def isEnumerator (r : Record) : Bool :=
  r.isDescribed && (r.get? "name").any Value.isName && r.has "value"

/-- What the sort of a type requires: bytes and enumerations have widths, enumerations list their values,
and structures their attributes. -/
def hasSort (r : Record) : Bool :=
  r.is "type" "byte" && (r.get? "size").any (·.number?.isSome) ||
    r.is "type" "enum" && (r.get? "size").any (·.number?.isSome) && (r.get? "name").all Value.isName &&
      (r.get? "values").any (Value.isListOf fun v => v.record?.any isEnumerator) ||
    r.is "type" "struct" && r.has "layout"

def isType (r : Record) : Bool :=
  r.isDescribed && r.hasSort && (r.get? "size").all Value.isSize &&
    (r.get? "layout").all (Value.isListOf (·.record?.isSome))

/-- The name that an attribute has, and the one that models give it. -/
def names (r : Record) : List String :=
  ((r.get? "name").bind Value.text?).toList ++ (r.inlineName?.bind Value.text?).toList

end Record

namespace Schema

/-- Whether a name is that of a type of a sort. -/
def isSort (s : Schema) (sort : String) (type : Value) : Bool :=
  type.text?.any fun name => (s.get? name).any fun d => d.record?.any (·.is "type" sort)

/-- Whether a structure gets a class. -/
def isClass (s : Schema) (name : String) : Bool := s.isSort "struct" name && !isHidden name

/-- The type of an attribute is declared, or it is that of bytes, which then have a size. -/
def hasType (s : Schema) (r : Record) : Bool :=
  (r.get? "type").any fun type => s.declares type || type.isByte && r.has "size"

/-- An inline attribute inlines a structure, and any other one has a name. -/
def hasPlace (s : Schema) (r : Record) : Bool :=
  if r.isInline then (r.get? "type").any (s.isSort "struct") else (r.get? "name").any Value.isName

/-- A constant has a value, and the value that tells entities apart is a number. -/
def hasValue (r : Record) : Bool :=
  (!r.isConst || r.has "value") &&
    (!r.names.contains "entityType" || (r.get? "value").all (·.number?.isSome))

/-- What an attribute depends on is an enumerated attribute beside it. -/
def hasCondition (s : Schema) (siblings : List Record) (r : Record) : Bool :=
  (r.get? "condition").all fun c => r.has "condition_operation" &&
    (r.get? "condition_value").any Value.isText &&
    siblings.any fun d => d.is "name" c && (d.get? "type").any (s.isSort "enum")

def isAttribute (s : Schema) (siblings : List Record) (r : Record) : Bool :=
  r.isDescribed && s.hasType r && (r.get? "size").all Value.isSize && s.hasPlace r && hasValue r &&
    s.hasCondition siblings r

/-- One structure inlines another one. -/
def Inlines (s : Schema) (outer inner : String) : Prop :=
  ∃ site ∈ s.sites outer, s.inlined? site = some inner

/-- The names that the attribute at a site has or is given. -/
def namesAt (s : Schema) (site : Site) : List String := (s.attributeAt site).names

def conditionAt? (s : Schema) (site : Site) : Option String :=
  ((s.attributeAt site).get? "condition").bind Value.text?

def isEnumerated (s : Schema) (site : Site) : Bool :=
  ((s.attributeAt site).get? "type").any (s.isSort "enum")

structure WellFormed (s : Schema) : Prop where
  /-- Each name stands once. -/
  distinct : s.names.Nodup
  named : ∀ name ∈ s.names, name ∉ ["", "byte", "enum", "struct"]
  types : ∀ p ∈ s.types, p.2.record?.any Record.isType = true
  attributes : ∀ p ∈ s.types, ∀ r ∈ p.2.attributes, s.isAttribute p.2.attributes r = true
  acyclic : ∀ name, ¬Relation.TransGen s.Inlines name name
  /-- Whatever has the name of a discriminator among the attributes of a class is one. Where the names
  are distinct, there is only the discriminator itself. -/
  discriminated : ∀ name ∈ s.names, s.isClass name = true →
    ∀ site ∈ s.met s.depthLimit name, ∀ c ∈ s.conditionAt? site,
      ∀ other ∈ s.met s.depthLimit name, c ∈ s.namesAt other → s.isEnumerated other = true

/-- A structure that inlines another one is declared. -/
theorem Inlines.mem_names {s : Schema} {outer inner : String} (h : s.Inlines outer inner) :
    outer ∈ s.names := by
  obtain ⟨site, hsite, hin⟩ := h
  obtain ⟨r, hr, -⟩ := Option.bind_eq_some_iff.1 hin
  rw [← owner_of_mem_sites hsite]
  exact (mem_sites_of_attributeAt? hr).1

/-- A tour that comes to its limit has passed a chain of structures that inline one another. -/
theorem exists_chain_of_endless {s : Schema} {limit : Nat} {owner : String}
    (h : Stop.endless ∈ s.tour limit owner) : ∃ chain : List String, chain.length = limit ∧
      (∀ name ∈ chain, name ∈ s.names) ∧ chain.IsChain s.Inlines ∧
      ∀ name ∈ chain.head?, name = owner := by
  induction limit generalizing owner with
  | zero => exact ⟨[], rfl, by simp, .nil, by simp⟩
  | succ limit ih =>
    rw [tour, List.mem_cons] at h
    obtain ⟨site, hsite, h⟩ := List.mem_flatMap.1 (h.resolve_left (by simp))
    cases hin : s.inlined? site with
    | none => simp [hin] at h
    | some type =>
      simp only [hin, List.mem_cons, reduceCtorEq, false_or] at h
      obtain ⟨stop, hstop, hunder⟩ := List.mem_map.1 h
      obtain rfl : stop = .endless := by cases stop <;> simp_all [Stop.under]
      obtain ⟨chain, hlength, hnames, hchain, hhead⟩ := ih hstop
      have hstep : s.Inlines owner type := ⟨site, hsite, hin⟩
      refine ⟨owner :: chain, by simp [hlength], ?_, hchain.cons ?_, by simp⟩
      · intro name hname
        rcases List.mem_cons.1 hname with rfl | hname
        · exact hstep.mem_names
        · exact hnames name hname
      · intro name hname
        rwa [hhead name hname]

/-- Without a cycle a chain of structures that inline one another has each of them once. -/
theorem length_le_of_chain {s : Schema} (h : ∀ name, ¬Relation.TransGen s.Inlines name name)
    {chain : List String} (hnames : ∀ name ∈ chain, name ∈ s.names) (hchain : chain.IsChain s.Inlines) :
    chain.length ≤ s.size := by
  have hpairwise : chain.Pairwise (Relation.TransGen s.Inlines) :=
    (hchain.imp fun _ _ => Relation.TransGen.single).pairwise
  have hnodup : chain.Nodup := by
    refine hpairwise.imp ?_
    rintro a _ hcycle rfl
    exact h a hcycle
  have hle := (hnodup.subperm hnames).length_le
  rwa [names, List.length_map] at hle

/-- Without a cycle no tour comes to the limit of the schema. -/
theorem endless_notMem_of_acyclic {s : Schema} (h : ∀ name, ¬Relation.TransGen s.Inlines name name)
    (owner : String) : Stop.endless ∉ s.tour s.depthLimit owner := by
  intro hend
  obtain ⟨chain, hlength, hnames, hchain, -⟩ := exists_chain_of_endless hend
  have hle := length_le_of_chain h hnames hchain
  rw [hlength, depthLimit] at hle
  omega

/-- Tours that all end show that there is no cycle. -/
theorem acyclic_of_tours {s : Schema} (h : ∀ name ∈ s.names, Stop.endless ∉ s.tour s.depthLimit name)
    (name : String) : ¬Relation.TransGen s.Inlines name name := by
  intro hcycle
  -- From a structure that reaches itself a tour can go on to every limit.
  have onward : ∀ limit outer, Relation.TransGen s.Inlines outer name →
      Stop.endless ∈ s.tour limit outer := by
    intro limit
    induction limit with
    | zero => simp [tour]
    | succ limit ih =>
      intro outer hreach
      obtain ⟨inner, ⟨site, hsite, hin⟩, hinner⟩ : ∃ inner, s.Inlines outer inner ∧
          Relation.TransGen s.Inlines inner name := by
        obtain ⟨inner, hstep, hrest⟩ := Relation.TransGen.head'_iff.1 hreach
        rcases Relation.reflTransGen_iff_eq_or_transGen.1 hrest with rfl | hrest
        · exact ⟨name, hstep, hcycle⟩
        · exact ⟨inner, hstep, hrest⟩
      by_contra hnot
      exact endless_notMem_inner hnot hsite hin (ih inner hinner)
  obtain ⟨inner, hstep, -⟩ := Relation.TransGen.head'_iff.1 hcycle
  exact h name hstep.mem_names (onward _ name hcycle)

/-- A declared type: its sort, and a size if it has one. -/
def Known (s : Schema) (name : String) : Prop :=
  ∃ (d : Record) (sort : String), s.get? name = some d.value ∧ d.get? "type" = some (.text sort) ∧
    sort ∈ ["byte", "enum", "struct"] ∧ ∀ size, d.get? "size" = some size → size.isSize = true

/-- What an attribute has in every state of a well formed schema. -/
structure Sound (s : Schema) (r : Record) : Prop where
  named : r.isInline = false → ∃ name, r.get? "name" = some (.text name) ∧ name ≠ ""
  typed : ∃ type, r.get? "type" = some (.text type) ∧ type ≠ "" ∧ type ≠ "enum" ∧
    (type = "byte" → r.has "size" = true) ∧ (type ≠ "byte" → s.Known type)
  sized : ∀ size, r.get? "size" = some size → size.isSize = true
  described : ∀ comments, r.get? "comments" = some comments → comments.isText = true
  inlines : r.isInline = true → ∀ type, r.get? "type" = some (.text type) →
    ∃ layout, (s.need type >>= Value.layout) = .ok layout
  valued : r.isConst = true → r.has "value" = true
  decided : r.isConditional = true → r.has "condition_operation" = true ∧
    (∃ c, r.get? "condition" = some (.text c)) ∧ ∃ value, r.get? "condition_value" = some (.text value)

/-- What a well formed schema has in every state. -/
structure Steady (s : Schema) : Prop where
  known : ∀ name d, s.get? name = some d → s.Known name
  listed : ∀ (name : String) layout, (s.need name >>= Value.layout) = .ok layout →
    ∀ v ∈ layout, ∃ r : Record, v = r.value
  sound : ∀ site r, s.attributeAt? site = some r → s.Sound r

section
variable {s s' : Schema} (h : s'.settled = s.settled)
include h

/-- A type in two states of a schema. -/
theorem exists_type_congr {name : String} {d : Record} (hd : s.get? name = some d.value) :
    ∃ d' : Record, s'.get? name = some d'.value ∧
      ∀ key, key ≠ "layout" → key ≠ "name" → d'.get? key = d.get? key := by
  have hs := s'.get?_settled name
  rw [h, get?_settled, hd] at hs
  obtain ⟨v, hv, hsettled⟩ := Option.map_eq_some_iff.1 hs.symm
  cases v with
  | table entries =>
    refine ⟨⟨entries⟩, hv, fun key hl hn => ?_⟩
    rw [Record.get?, ← Value.lookup_settledType hl hn entries _ rfl]
    exact Value.lookup_settledType hl hn d.entries _ hsettled.symm
  | _ => simp [Value.settledType, Record.value] at hsettled

theorem Known.congr {name : String} (hk : s.Known name) : s'.Known name := by
  obtain ⟨d, sort, hd, htype, hsort, hsize⟩ := hk
  obtain ⟨d', hd', hget⟩ := exists_type_congr h hd
  refine ⟨d', sort, hd', ?_, hsort, ?_⟩
  · rw [hget _ (by simp) (by simp), htype]
  · rwa [hget _ (by simp) (by simp)]

/-- The layout of a type in two states of a schema. -/
theorem exists_layout_congr {name : Value} {layout : List Value}
    (hl : (s.need name >>= Value.layout) = .ok layout) :
    ∃ layout', (s'.need name >>= Value.layout) = .ok layout' ∧
      layout'.map Value.settledAttribute = layout.map Value.settledAttribute := by
  have hs := s'.layout_settled name
  rw [h, layout_settled, hl] at hs
  obtain ⟨layout', hl', heq⟩ := Checked.map_eq_ok.1 hs.symm
  exact ⟨layout', hl', heq⟩

theorem Sound.congr {r r' : Record} (hr : r'.settled = r.settled) (hs : s.Sound r) : s'.Sound r' := by
  have hget : ∀ key, key ≠ "aggregate_class" → key ≠ "name" → r'.get? key = r.get? key := by
    intro key ho hn
    rw [← Record.get?_settled r' ho hn, hr, Record.get?_settled r ho hn]
  have hinline : r'.isInline = r.isInline := by
    rw [← Record.isInline_settled, hr, Record.isInline_settled]
  have hhas : ∀ key, key ≠ "aggregate_class" → key ≠ "name" → r'.has key = r.has key := by
    intro key ho hn
    rw [Record.has, hget key ho hn, Record.has]
  refine ⟨?_, ?_, ?_, ?_, ?_, ?_, ?_⟩
  · intro hi
    have hi' : r.isInline = false := hinline ▸ hi
    rw [← Record.get?_name_settled_of_plain hi, hr, Record.get?_name_settled_of_plain hi']
    exact hs.named hi'
  · obtain ⟨type, htype, hne, henum, hbyte, hknown⟩ := hs.typed
    refine ⟨type, ?_, hne, henum, ?_, fun hb => (hknown hb).congr h⟩
    · rw [hget _ (by simp) (by simp), htype]
    · rwa [hhas _ (by simp) (by simp)]
  · rw [hget _ (by simp) (by simp)]
    exact hs.sized
  · rw [hget _ (by simp) (by simp)]
    exact hs.described
  · rw [hinline, hget _ (by simp) (by simp)]
    intro hi type htype
    obtain ⟨layout, hl⟩ := hs.inlines hi type htype
    obtain ⟨layout', hl', -⟩ := exists_layout_congr h hl
    exact ⟨layout', hl'⟩
  · have hconst : r'.isConst = r.isConst := by
      rw [← Record.isConst_settled, hr, Record.isConst_settled]
    rw [hconst, hhas _ (by simp) (by simp)]
    exact hs.valued
  · have hconditional : r'.isConditional = r.isConditional := hhas _ (by simp) (by simp)
    rw [hconditional, hhas _ (by simp) (by simp), hget _ (by simp) (by simp),
      hget _ (by simp) (by simp)]
    exact hs.decided

/-- An attribute in two states of a schema. -/
theorem exists_attribute_congr {site : Site} {r : Record} (hr : s.attributeAt? site = some r) :
    ∃ r', s'.attributeAt? site = some r' ∧ r'.settled = r.settled := by
  have hs := s'.attributeAt?_settled site
  rw [h, attributeAt?_settled, hr] at hs
  exact Option.map_eq_some_iff.1 hs.symm

theorem Steady.congr (hs : s.Steady) : s'.Steady where
  known name d hd := by
    have hset := s'.get?_settled name
    rw [h, get?_settled, hd] at hset
    obtain ⟨d₀, hd₀, -⟩ := Option.map_eq_some_iff.1 hset
    exact (hs.known name d₀ hd₀).congr h
  listed name layout hl v hv := by
    obtain ⟨layout₀, hl₀, heq⟩ := exists_layout_congr h.symm hl
    have hmem : v.settledAttribute ∈ layout₀.map Value.settledAttribute := by
      rw [heq]
      exact List.mem_map_of_mem hv
    obtain ⟨v₀, hv₀, hsettled⟩ := List.mem_map.1 hmem
    obtain ⟨r, rfl⟩ := hs.listed name layout₀ hl₀ v₀ hv₀
    cases v with
    | table entries => exact ⟨⟨entries⟩, rfl⟩
    | _ => simp [Value.settledAttribute, Record.value] at hsettled
  sound site r' hr' := by
    obtain ⟨r, hr, hsettled⟩ := exists_attribute_congr h.symm hr'
    exact (hs.sound site r hr).congr h hsettled.symm

end

theorem type_unique {s : Schema} {name : String} {d d' : Record} (h : s.get? name = some d.value)
    (h' : s.get? name = some d'.value) : d = d' :=
  Option.some.inj (congrArg Value.record? (Option.some.inj (h.symm.trans h')))

theorem need_eq_ok {s : Schema} {name : String} {d : Value} :
    s.need name = .ok d ↔ s.get? name = some d := by
  rw [need_text]
  cases s.get? name <;> simp [Checked.require]

theorem mem_types_of_get? {s : Schema} {name : String} {d : Value} (h : s.get? name = some d) :
    (name, d) ∈ s.types := by
  obtain ⟨before, after, htypes, -⟩ := List.lookup_eq_some_iff.1 h
  simp [htypes]

/-- Among distinct names each one stands for its own type. -/
theorem get?_of_mem {s : Schema} (h : s.names.Nodup) {name : String} {d : Value}
    (hd : (name, d) ∈ s.types) : s.get? name = some d := by
  obtain ⟨before, after, htypes⟩ := List.append_of_mem hd
  refine List.lookup_eq_some_iff.2 ⟨before, after, htypes, fun p hp => ?_⟩
  rw [names, htypes, List.map_append, List.nodup_append] at h
  have hne := h.2.2 p.1 (List.mem_map_of_mem hp) name (by simp)
  simpa using fun heq : name = p.1 => hne heq.symm

theorem mem_names_of_get? {s : Schema} {name : String} {d : Value} (h : s.get? name = some d) :
    name ∈ s.names := List.mem_map.2 ⟨_, mem_types_of_get? h, rfl⟩

theorem exists_of_isSort {s : Schema} {sort : String} {type : Value} (h : s.isSort sort type = true) :
    ∃ (name : String) (d : Record), type = .text name ∧ s.get? name = some d.value ∧
      d.get? "type" = some (.text sort) := by
  obtain ⟨name, hname, h⟩ := (Option.any_eq_true _ _).1 h
  obtain ⟨v, hv, h⟩ := (Option.any_eq_true _ _).1 h
  obtain ⟨d, hd, hsort⟩ := (Option.any_eq_true _ _).1 h
  refine ⟨name, d, ?_, ?_, Record.get?_of_is hsort⟩
  · cases type <;> simp_all [Value.text?]
  · cases v <;> simp_all [Value.record?]
    rw [← hd]
    rfl

theorem isSort_eq {s : Schema} {name sort : String} {d : Record} (hd : s.get? name = some d.value)
    (htype : d.get? "type" = some (.text sort)) (other : String) :
    s.isSort other name = (sort == other) := by
  have hrecord : d.value.record? = some d := rfl
  simp [isSort, hd, hrecord, Value.text?, Record.is, htype]

/-- The attributes of a structure are those at its sites. -/
theorem mem_attributes_iff {s : Schema} {name : String} {d : Value} (hd : s.get? name = some d)
    {r : Record} : r ∈ d.attributes ↔ ∃ index, s.attributeAt? ⟨name, index⟩ = some r := by
  simp only [attributeAt?_eq, hd, Option.bind_some, Value.attribute?, Value.attributes]
  cases d.record? with
  | none => simp
  | some type =>
    simp only [Option.bind_some]
    cases type.get? "layout" with
    | none => simp
    | some listed =>
      cases listed with
      | list layout =>
        simp only [List.mem_filterMap]
        constructor
        · rintro ⟨v, hv, hr⟩
          obtain ⟨index, hindex⟩ := List.mem_iff_getElem?.1 hv
          exact ⟨index, by simp [hindex, hr]⟩
        · rintro ⟨index, h⟩
          obtain ⟨v, hv, hr⟩ := Option.bind_eq_some_iff.1 h
          exact ⟨v, List.mem_of_getElem? hv, hr⟩
      | _ => simp

theorem exists_type_of_attribute {s : Schema} {site : Site} {r : Record}
    (hr : s.attributeAt? site = some r) :
    ∃ d, s.get? site.owner = some d ∧ r ∈ d.attributes := by
  have hget := hr
  rw [attributeAt?_eq] at hget
  obtain ⟨d, hd, -⟩ := Option.bind_eq_some_iff.1 hget
  exact ⟨d, hd, (mem_attributes_iff hd).2 ⟨site.index, hr⟩⟩

/-- Where all names in a class are distinct, only the attribute beside it has the name of a condition. -/
theorem isEnumerated_of_nodup {s : Schema}
    (h : ∀ p ∈ s.types, ∀ r ∈ p.2.attributes, s.isAttribute p.2.attributes r = true)
    {limit : Nat} {name : String} (hnames : ((s.met limit name).flatMap s.namesAt).Nodup)
    {site other : Site} (hsite : site ∈ s.met limit name) {c : String}
    (hc : s.conditionAt? site = some c) (hother : other ∈ s.met limit name)
    (hnamed : c ∈ s.namesAt other) : s.isEnumerated other = true := by
  obtain ⟨condition, hcondition, htext⟩ := Option.bind_eq_some_iff.1 hc
  obtain rfl : condition = .text c := by cases condition <;> simp_all [Value.text?]
  cases hr : s.attributeAt? site with
  | none => simp [attributeAt, hr, Record.get?] at hcondition
  | some r =>
    obtain ⟨d, hd, hmem⟩ := exists_type_of_attribute hr
    have hattribute := h _ (mem_types_of_get? hd) r hmem
    rw [attributeAt, hr, Option.getD_some] at hcondition
    simp only [isAttribute, hasCondition, hcondition, Option.all_some, Bool.and_eq_true,
      List.any_eq_true] at hattribute
    obtain ⟨-, -, r', hr', hname, henum⟩ := hattribute
    obtain ⟨index, hat⟩ := (mem_attributes_iff hd).1 hr'
    have hbeside : ⟨site.owner, index⟩ ∈ s.met limit name :=
      mem_met_of_sites hsite (mem_sites_of_attributeAt? hat).2
    have hsame : other = ⟨site.owner, index⟩ := by
      by_contra hne
      have : Std.Symm (Function.onFun List.Disjoint s.namesAt) := ⟨fun _ _ hd _ ha hb => hd hb ha⟩
      refine (List.nodup_flatMap.1 hnames).2.forall hother hbeside hne hnamed ?_
      simp [namesAt, attributeAt, hat, Record.names, Record.get?_of_is hname, Value.text?]
    rw [hsame, isEnumerated, attributeAt, hat]
    exact henum

namespace WellFormed
variable {s : Schema} (h : s.WellFormed)
include h

theorem type_eq {name : String} {d : Value} (hd : s.get? name = some d) :
    ∃ r : Record, d = r.value ∧ r.isType = true := by
  have htype := h.types _ (mem_types_of_get? hd)
  cases d with
  | table entries => exact ⟨⟨entries⟩, rfl, htype⟩
  | _ => simp [Value.record?] at htype

theorem known {name : String} {d : Value} (hd : s.get? name = some d) : s.Known name := by
  obtain ⟨r, rfl, htype⟩ := h.type_eq hd
  simp only [Record.isType, Record.hasSort, Bool.and_eq_true, Bool.or_eq_true,
    Option.all_eq_true] at htype
  obtain ⟨⟨⟨-, hsort⟩, hsize⟩, -⟩ := htype
  rcases hsort with (⟨hbyte, -⟩ | ⟨⟨⟨henum, -⟩, -⟩, -⟩) | ⟨hstruct, -⟩
  · exact ⟨r, "byte", hd, Record.get?_of_is hbyte, by simp, hsize⟩
  · exact ⟨r, "enum", hd, Record.get?_of_is henum, by simp, hsize⟩
  · exact ⟨r, "struct", hd, Record.get?_of_is hstruct, by simp, hsize⟩

/-- The layout of a type lists records. -/
theorem listed {name : String} {layout : List Value}
    (hl : (s.need name >>= Value.layout) = .ok layout) : ∀ v ∈ layout, ∃ r : Record, v = r.value := by
  obtain ⟨d, hd, hl⟩ := Checked.bind_eq_ok.1 hl
  obtain ⟨listed, hlisted, hitems⟩ := Checked.bind_eq_ok.1 hl
  obtain ⟨r, rfl, htype⟩ := h.type_eq (need_eq_ok.1 hd)
  simp only [Record.isType, Bool.and_eq_true, Option.all_eq_true] at htype
  have hlist := htype.2 listed (Record.need_eq_ok.1 hlisted)
  cases listed with
  | list items =>
    obtain rfl : items = layout := Except.ok.inj hitems
    intro v hv
    have hrecord := List.all_eq_true.1 hlist v hv
    cases v with
    | table entries => exact ⟨⟨entries⟩, rfl⟩
    | _ => simp [Value.record?] at hrecord
  | _ => simp [Value.isListOf] at hlist

theorem layout_of_has {name : String} {d : Record} (hd : s.get? name = some d.value)
    (hhas : d.has "layout" = true) : ∃ layout, (s.need name >>= Value.layout) = .ok layout := by
  obtain ⟨r, hr, htype⟩ := h.type_eq hd
  obtain rfl : d = r := Option.some.inj (congrArg Value.record? hr)
  simp only [Record.isType, Bool.and_eq_true, Option.all_eq_true] at htype
  obtain ⟨listed, hlisted⟩ := Option.isSome_iff_exists.1 hhas
  have hlist := htype.2 listed hlisted
  cases listed with
  | list items =>
    refine ⟨items, Checked.bind_eq_ok.2 ⟨d.value, need_eq_ok.2 hd, ?_⟩⟩
    exact Checked.bind_eq_ok.2 ⟨.list items, Record.need_eq_ok.2 hlisted, rfl⟩
  | _ => simp [Value.isListOf] at hlist

theorem layout_of_struct {name : Value} (hsort : s.isSort "struct" name = true) :
    ∃ layout, (s.need name >>= Value.layout) = .ok layout := by
  obtain ⟨name, d, rfl, hd, htype⟩ := exists_of_isSort hsort
  obtain ⟨r, hr, hisType⟩ := h.type_eq hd
  obtain rfl : d = r := Option.some.inj (congrArg Value.record? hr)
  simp only [Record.isType, Record.hasSort, Record.is, htype, Bool.and_eq_true,
    Bool.or_eq_true] at hisType
  exact h.layout_of_has hd (by simpa using hisType.1.1.2)

/-- Attributes are well formed wherever they stand. -/
theorem isAttribute_at {site : Site} {r : Record} (hr : s.attributeAt? site = some r) :
    ∃ d, s.get? site.owner = some d ∧ s.isAttribute d.attributes r = true := by
  obtain ⟨d, hd, hmem⟩ := exists_type_of_attribute hr
  exact ⟨d, hd, h.attributes _ (mem_types_of_get? hd) r hmem⟩

/-- An attribute with the type of an enumeration has contents of its own. -/
theorem plain_of_enum {site : Site} {r : Record} (hr : s.attributeAt? site = some r)
    (he : (r.get? "type").any (s.isSort "enum") = true) : r.isInline = false := by
  obtain ⟨d, -, hattribute⟩ := h.isAttribute_at hr
  simp only [isAttribute, hasPlace, Bool.and_eq_true] at hattribute
  by_contra hi
  have hstruct := hattribute.1.1.2
  rw [if_pos (by simpa using hi)] at hstruct
  obtain ⟨type, htype, henum⟩ := (Option.any_eq_true _ _).1 he
  rw [htype, Option.any_some] at hstruct
  obtain ⟨name, d₁, rfl, hd₁, hsort₁⟩ := exists_of_isSort henum
  obtain ⟨_, d₂, heq, hd₂, hsort₂⟩ := exists_of_isSort hstruct
  obtain rfl := Value.text.inj heq
  obtain rfl := type_unique hd₁ hd₂
  simp [hsort₁] at hsort₂

/-- The attribute beside a dependent one that has the name on which it depends. -/
theorem exists_discriminator {site : Site} {r : Record} (hr : s.attributeAt? site = some r) {c : Value}
    (hc : r.get? "condition" = some c) : ∃ index r' name, c = .text name ∧
      s.attributeAt? ⟨site.owner, index⟩ = some r' ∧ r'.get? "name" = some (.text name) ∧
      r'.isInline = false := by
  obtain ⟨d, hd, hattribute⟩ := h.isAttribute_at hr
  simp only [isAttribute, hasCondition, hc, Option.all_some, Bool.and_eq_true,
    List.any_eq_true] at hattribute
  obtain ⟨-, -, r', hr', hname, henum⟩ := hattribute
  obtain ⟨index, hat⟩ := (mem_attributes_iff hd).1 hr'
  have hplain := h.plain_of_enum hat henum
  obtain ⟨d', -, hattribute'⟩ := h.isAttribute_at hat
  simp only [isAttribute, hasPlace, hplain, Bool.and_eq_true] at hattribute'
  obtain ⟨v, hv, htext⟩ := (Option.any_eq_true _ _).1 hattribute'.1.1.2
  rw [Record.is, hv, Option.any_some] at hname
  cases v with
  | text name =>
    refine ⟨index, r', name, ?_, hat, hv, hplain⟩
    cases c <;> simp_all [BEq.beq, Value.same, Value.number?]
  | _ => simp [Value.isName] at htext

theorem sound {site : Site} {r : Record} (hr : s.attributeAt? site = some r) : s.Sound r := by
  obtain ⟨d, hd, hattribute⟩ := h.isAttribute_at hr
  simp only [isAttribute, Bool.and_eq_true, Option.all_eq_true] at hattribute
  obtain ⟨⟨⟨⟨⟨hdescribed, htype⟩, hsize⟩, hplace⟩, hvalue⟩, hcondition⟩ := hattribute
  refine ⟨?_, ?_, hsize, ?_, ?_, ?_, ?_⟩
  · intro hi
    simp only [hasPlace, hi, Bool.false_eq_true, if_false] at hplace
    obtain ⟨v, hv, hname⟩ := (Option.any_eq_true _ _).1 hplace
    cases v with
    | text name => exact ⟨name, hv, by simpa [Value.isName] using hname⟩
    | _ => simp [Value.isName] at hname
  · obtain ⟨v, hv, htype⟩ := (Option.any_eq_true _ _).1 htype
    rcases Bool.or_eq_true_iff.1 htype with hdeclared | hbyte
    · obtain ⟨type, htext, hdeclared⟩ := (Option.any_eq_true _ _).1 hdeclared
      obtain ⟨declared, hget⟩ := Option.isSome_iff_exists.1 hdeclared
      obtain rfl : v = .text type := by cases v <;> simp_all [Value.text?]
      have hnamed := h.named type (mem_names_of_get? hget)
      simp only [List.mem_cons, List.not_mem_nil, or_false, not_or] at hnamed
      exact ⟨type, hv, hnamed.1, hnamed.2.2.1, fun hbyte => absurd hbyte hnamed.2.1,
        fun _ => h.known hget⟩
    · rw [Bool.and_eq_true] at hbyte
      obtain rfl := Value.eq_text_of_beq hbyte.1
      exact ⟨"byte", hv, by simp, by simp, fun _ => hbyte.2, fun hne => absurd rfl hne⟩
  · exact (Option.all_eq_true _ _).1 hdescribed
  · intro hi type htype
    simp only [hasPlace, hi, if_true, htype, Option.any_some] at hplace
    exact h.layout_of_struct hplace
  · intro hc
    simp only [hasValue, hc, Bool.and_eq_true, Bool.or_eq_true] at hvalue
    simpa using hvalue.1
  · intro hc
    obtain ⟨c, hcondition'⟩ := Option.isSome_iff_exists.1 hc
    obtain ⟨-, -, name, rfl, -⟩ := h.exists_discriminator hr hcondition'
    simp only [hasCondition, hcondition', Option.all_some, Bool.and_eq_true] at hcondition
    obtain ⟨value, hvalue, htext⟩ := (Option.any_eq_true _ _).1 hcondition.1.2
    cases value with
    | text value => exact ⟨hcondition.1.1, ⟨name, hcondition'⟩, value, hvalue⟩
    | _ => simp [Value.isText, Value.text?] at htext

theorem steady : s.Steady where
  known _ _ hd := h.known hd
  listed _ _ hl := h.listed hl
  sound _ _ hr := h.sound hr

theorem tour_ends (owner : String) : Stop.endless ∉ s.tour s.depthLimit owner :=
  endless_notMem_of_acyclic h.acyclic owner

end WellFormed

/-- Marks give attributes no names but those that models can give them. -/
theorem namesAt_mark (s : Schema) (m : Mark) (site : Site) :
    (s.mark m).namesAt site ⊆ s.namesAt site := by
  unfold namesAt attributeAt
  rcases s.attributeAt?_mark m site with hsame | ⟨r, hr, howner | ⟨name, hname, hnamed⟩⟩
  · rw [hsame]
    exact List.Subset.refl _
  · rw [howner, hr, Option.getD_some, Option.getD_some]
    simp [Record.names, Record.inlineName?_set, Record.get?_set_ne]
  · rw [hnamed, hr, Option.getD_some, Option.getD_some]
    simp [Record.names, Record.inlineName?_set, hname]

theorem namesAt_markAll (s : Schema) (marks : List Mark) (site : Site) :
    (s.markAll marks).namesAt site ⊆ s.namesAt site := by
  induction marks generalizing s with
  | nil => exact List.Subset.refl _
  | cons m marks ih => exact List.Subset.trans (ih (s.mark m)) (s.namesAt_mark m site)

end Schema

/-- A schema in whose classes no two attributes have one name. -/
theorem Schema.WellFormed.of_nodup {s : Schema} (distinct : s.names.Nodup)
    (named : ∀ name ∈ s.names, name ∉ ["", "byte", "enum", "struct"])
    (types : ∀ p ∈ s.types, p.2.record?.any Record.isType = true)
    (attributes : ∀ p ∈ s.types, ∀ r ∈ p.2.attributes, s.isAttribute p.2.attributes r = true)
    (tours : ∀ name ∈ s.names, Stop.endless ∉ s.tour s.depthLimit name)
    (nodup : ∀ name ∈ s.names, ((s.met s.depthLimit name).flatMap s.namesAt).Nodup) : s.WellFormed where
  distinct := distinct
  named := named
  types := types
  attributes := attributes
  acyclic := acyclic_of_tours tours
  discriminated name hname _ _ hsite _ hc _ hother hnamed :=
    isEnumerated_of_nodup attributes (nodup name hname) hsite hc hother hnamed

theorem Sample.wellFormed : (schema 0).WellFormed where
  distinct := by decide +kernel
  named := by decide +kernel
  types := by decide +kernel
  attributes := by decide +kernel
  acyclic := Schema.acyclic_of_tours (by decide +kernel)
  discriminated := by decide +kernel

end SchemaForge
