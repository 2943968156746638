import SchemaForge.Proofs.Planning

/-! Models of one structure that are made in different states of a schema. As long as no condition has
the name of an inline attribute, nothing but the classes that hold their attributes can differ. -/
namespace SchemaForge
open Checked

/-- Whether the name of an attribute is no other than that of one with contents of its own. The name that
models give to an inline attribute counts like the one that it has. -/
def Record.clears (r : Record) (value : Value) : Bool :=
  !r.isInline || !r.is "name" value && !r.inlineName?.any (· == value)

namespace Record

theorem clears_set_owner {r : Record} {value : Value} (h : r.clears value = true) (owner : Value) :
    (r.set "aggregate_class" owner).clears value = true := by
  unfold clears at h ⊢
  rw [isInline_set (by simp), inlineName?_set (by simp) (by simp)]
  simpa [is, get?_set_ne] using h

theorem clears_set_name {r : Record} {value name : Value} (h : r.clears value = true)
    (hn : r.inlineName? = some name) : (r.set "name" name).clears value = true := by
  unfold clears at h ⊢
  rw [isInline_set (by simp), inlineName?_set (by simp) (by simp)]
  rw [hn] at h ⊢
  cases hi : r.isInline <;> simp_all [is]

theorem is_name_settled_of_clears {r : Record} {value : Value} (h : r.clears value = true) :
    r.settled.is "name" value = r.is "name" value := by
  unfold is
  rw [get?_name_settled]
  cases hn : r.inlineName? with
  | none => rfl
  | some name =>
    have hi : r.isInline = true := by
      unfold inlineName? at hn
      split at hn <;> simp_all
    simp_all [clears, is]

end Record

namespace Schema

/-- No inline attribute has the value as its name. -/
def ClearOf (s : Schema) (value : Value) : Prop :=
  ∀ site r, s.attributeAt? site = some r → r.clears value = true

/-- No condition has the name of an inline attribute. -/
def Clear (s : Schema) : Prop :=
  ∀ site r c, s.attributeAt? site = some r → r.get? "condition" = some c → s.ClearOf c

/-- An attribute stands in a layout, so its site is among the sites of its owner. -/
theorem mem_sites_of_attributeAt? {s : Schema} {site : Site} {r : Record}
    (h : s.attributeAt? site = some r) : site.owner ∈ s.names ∧ site ∈ s.sites site.owner := by
  rw [attributeAt?_eq] at h
  obtain ⟨type, hget, hr⟩ := Option.bind_eq_some_iff.1 h
  have hneed : s.need (.text site.owner) = .ok type := by
    rw [need_text, hget]
    rfl
  obtain ⟨⟨entries⟩, htype, hlayout⟩ := Option.bind_eq_some_iff.1 hr
  cases type with
  | table fields =>
    obtain rfl : fields = entries := by simpa [Value.record?] using htype
    cases hlisted : fields.lookup "layout" with
    | none => simp [Record.get?, hlisted] at hlayout
    | some listed =>
      cases listed with
      | list layout =>
        have hl : (s.need (.text site.owner) >>= Value.layout) = .ok layout := by
          refine bind_eq_ok.2 ⟨.table fields, hneed, ?_⟩
          exact bind_eq_ok.2 ⟨.list layout, Record.need_eq_ok.2 hlisted, rfl⟩
        have hindex : site.index < layout.length := by
          simp only [Record.get?, hlisted] at hlayout
          obtain ⟨v, hv, -⟩ := Option.bind_eq_some_iff.1 hlayout
          exact (List.getElem?_eq_some_iff.1 hv).1
        refine ⟨?_, ?_⟩
        · obtain ⟨before, after, htypes, -⟩ := List.lookup_eq_some_iff.1 hget
          simp [names, htypes]
        · rw [sites, hl]
          exact List.mem_map.2 ⟨site.index, List.mem_range.2 hindex, rfl⟩
      | _ => simp [Record.get?, hlisted] at hlayout
  | _ => simp [Value.record?] at htype

theorem owner_of_mem_sites {s : Schema} {owner : String} {site : Site} (h : site ∈ s.sites owner) :
    site.owner = owner := by
  unfold sites at h
  split at h
  · obtain ⟨index, -, rfl⟩ := List.mem_map.1 h
    rfl
  · cases h

/-- All attributes of a schema. -/
def attributes (s : Schema) : List Record := s.names.flatMap fun name =>
  (s.sites name).filterMap s.attributeAt?

theorem mem_attributes {s : Schema} {r : Record} :
    r ∈ s.attributes ↔ ∃ site, s.attributeAt? site = some r := by
  simp only [attributes, List.mem_flatMap, List.mem_filterMap]
  constructor
  · rintro ⟨name, -, site, -, hr⟩
    exact ⟨site, hr⟩
  · rintro ⟨site, hr⟩
    obtain ⟨hname, hsite⟩ := mem_sites_of_attributeAt? hr
    exact ⟨site.owner, hname, site, hsite, hr⟩

theorem clear_iff (s : Schema) : s.Clear ↔ ∀ r ∈ s.attributes, ∀ c ∈ r.get? "condition",
    ∀ r' ∈ s.attributes, r'.clears c = true := by
  simp only [Clear, ClearOf, mem_attributes]
  constructor
  · rintro h r ⟨site, hr⟩ c hc r' ⟨site', hr'⟩
    exact h site r c hr hc site' r' hr'
  · intro h site r c hr hc site' r' hr'
    exact h r ⟨site, hr⟩ c hc r' ⟨site', hr'⟩

instance (s : Schema) : Decidable s.Clear := decidable_of_iff _ s.clear_iff.symm

/-- What a mark makes of an attribute. -/
theorem attributeAt?_mark (s : Schema) (m : Mark) (site : Site) :
    (s.mark m).attributeAt? site = s.attributeAt? site ∨
      ∃ r, s.attributeAt? site = some r ∧
        ((s.mark m).attributeAt? site = some (r.set "aggregate_class" site.owner) ∨
          ∃ name, r.inlineName? = some name ∧
            (s.mark m).attributeAt? site = some (r.set "name" name)) := by
  cases m with
  | fact name =>
    refine .inl ?_
    rw [attributeAt?_eq, attributeAt?_eq, mark, setFact, get?_update]
    split
    · cases s.get? site.owner with
      | none => rfl
      | some type =>
        simp only [Option.map_some, Option.bind_some, Value.attribute?, Value.record?_put]
        cases type.record? with
        | none => rfl
        | some r => simp [Record.get?_set_ne]
    · rfl
  | owner other =>
    rw [mark_owner, attributeAt?_setEntry]
    split
    · rename_i hsite
      subst hsite
      cases hr : s.attributeAt? site with
      | none => exact .inl rfl
      | some r => exact .inr ⟨r, rfl, .inl rfl⟩
    · exact .inl rfl
  | name other =>
    rw [mark_name, noteName]
    cases hn : s.nameAt? other with
    | none => exact .inl rfl
    | some name =>
      simp only [attributeAt?_setEntry]
      split
      · rename_i hsite
        subst hsite
        obtain ⟨r, hr, hname⟩ := Option.bind_eq_some_iff.1 hn
        exact .inr ⟨r, hr, .inr ⟨name, hname, by rw [hr]; rfl⟩⟩
      · exact .inl rfl

theorem ClearOf.mark {s : Schema} {value : Value} (h : s.ClearOf value) (m : Mark) :
    (s.mark m).ClearOf value := by
  intro site r hr
  rcases s.attributeAt?_mark m site with hsame | ⟨r', hr', howner | ⟨name, hname, hnamed⟩⟩
  · exact h site r (hsame ▸ hr)
  · obtain rfl := Option.some.inj (howner.symm.trans hr)
    exact Record.clears_set_owner (h site r' hr') _
  · obtain rfl := Option.some.inj (hnamed.symm.trans hr)
    exact Record.clears_set_name (h site r' hr') hname

theorem condition_congr {s s' : Schema} (h : s'.settled = s.settled) {site : Site} {r : Record}
    (hr : s'.attributeAt? site = some r) :
    ∃ r', s.attributeAt? site = some r' ∧ r.get? "condition" = r'.get? "condition" := by
  have hs := s'.attributeAt?_settled site
  rw [h, attributeAt?_settled, hr] at hs
  obtain ⟨r', hr', heq⟩ := Option.map_eq_some_iff.1 hs
  refine ⟨r', hr', ?_⟩
  rw [← Record.get?_settled r' (by simp) (by simp), heq, Record.get?_settled r (by simp) (by simp)]

theorem Clear.mark {s : Schema} (h : s.Clear) (m : Mark) : (s.mark m).Clear := by
  intro site r c hr hc
  obtain ⟨r', hr', heq⟩ := condition_congr (s.settled_mark m) hr
  exact (h site r' c hr' (heq ▸ hc)).mark m

theorem Clear.markAll {s : Schema} (h : s.Clear) (marks : List Mark) : (s.markAll marks).Clear := by
  induction marks generalizing s with
  | nil => exact h
  | cons m marks ih => exact ih (h.mark m)

theorem text_of_need {s : Schema} {name type : Value} (h : s.need name = .ok type) :
    ∃ n, name = .text n := by
  cases name with
  | text n => exact ⟨n, rfl⟩
  | _ => simp [need, find, Value.entryIn, Value.asKey, Value.isKey, Checked.require,
      Value.text?] at h

theorem fits_record (r : Record) (key : String) (value : Value) :
    fits key value r.value = .ok (r.is key value) := by
  have hhas : r.value.holds key = .ok (r.has key) := Value.has_record r key
  have hpart : r.value.part key = r.need key := rfl
  rw [fits, hhas, hpart, Record.is, Record.has, Record.need]
  cases r.get? key <;> rfl

/-- A text or a list may hold a key, but only in a record something stands under it. -/
theorem record_of_fits {key : String} {value v : Value} (h : fits key value v = .ok true) :
    ∃ r : Record, v = r.value ∧ r.is key value = true := by
  cases v with
  | table entries => exact ⟨⟨entries⟩, rfl, Except.ok.inj ((fits_record ⟨entries⟩ key value).symm.trans h)⟩
  | _ =>
    obtain ⟨held, -, h⟩ := bind_eq_ok.1 h
    cases held with
    | false => simp at h
    | true =>
      obtain ⟨found, hfound, -⟩ := bind_eq_ok.1 h
      simp [Value.part, Value.atPosition, Value.compared, Value.number?] at hfound

/-- A name that no inline attribute has is found in the settled form where it stands. -/
theorem ClearOf.fitsAlike {s : Schema} {value : Value} (h : s.ClearOf value) :
    s.FitsAlike "name" value := by
  intro name layout hl v hv
  cases v with
  | table entries =>
    obtain ⟨type, htype, -⟩ := bind_eq_ok.1 hl
    obtain ⟨typeName, rfl⟩ := text_of_need htype
    obtain ⟨index, hi⟩ := List.mem_iff_getElem?.1 hv
    have hr := attributeAt?_of_layout (r := ⟨entries⟩) hl hi
    have hname := Record.is_name_settled_of_clears (h _ _ hr)
    have hfits := fits_record (Record.settled ⟨entries⟩) "name" value
    rw [hname, ← fits_record] at hfits
    exact hfits
  | _ => rfl

/-- Where a search among attributes can come to a hit. -/
theorem seekWith_eq_some {α : Type} {inside : Value → Checked (Option (α × Value))}
    {key value : Value} {deep : Bool} {attributes : List (α × Value)} {hit : α × Value}
    (h : seekWith inside key value deep attributes = .ok (some hit)) :
    hit ∈ attributes ∧ fits key value hit.2 = .ok true ∨
      ∃ v, inside v = .ok (some hit) := by
  induction attributes with
  | nil => simp [seekWith] at h
  | cons p rest ih =>
    obtain ⟨a, v⟩ := p
    have later : seekWith inside key value deep rest = .ok (some hit) →
        hit ∈ (a, v) :: rest ∧ fits key value hit.2 = .ok true ∨
          ∃ v, inside v = .ok (some hit) := by
      intro hrest
      rcases ih hrest with ⟨hmem, hfits⟩ | hinside
      · exact .inl ⟨.tail _ hmem, hfits⟩
      · exact .inr hinside
    rw [seekWith] at h
    obtain ⟨found, hfound, h⟩ := bind_eq_ok.1 h
    cases found with
    | true =>
      obtain rfl : (a, v) = hit := by simpa using h
      exact .inl ⟨by simp, hfound⟩
    | false =>
      cases deep with
      | false => exact later (by simpa using h)
      | true =>
        obtain ⟨inline, -, h⟩ := bind_eq_ok.1 h
        cases inline with
        | false => exact later (by simpa using h)
        | true =>
          obtain ⟨inner, hinner, h⟩ := bind_eq_ok.1 h
          cases inner with
          | none => exact later h
          | some hit' =>
            obtain rfl : hit' = hit := by simpa using h
            exact .inr ⟨v, hinner⟩

/-- An attribute of the schema with a value under a key. -/
def Hit (s : Schema) (key value : Value) (p : Site × Value) : Prop :=
  fits key value p.2 = .ok true ∧
    ∃ layout, (s.need p.1.owner >>= Value.layout) = .ok layout ∧ layout[p.1.index]? = some p.2

theorem hit_of_sited {s : Schema} {key value : Value} {owner : String} {layout : List Value}
    {p : Site × Value} (hl : (s.need owner >>= Value.layout) = .ok layout)
    (hp : p ∈ sited owner layout) (hfits : fits key value p.2 = .ok true) : s.Hit key value p := by
  obtain ⟨index, hi, rfl⟩ := List.mem_mapIdx.1 hp
  exact ⟨hfits, layout, hl, by simp⟩

theorem seekInside_eq_some {s : Schema} {key value v : Value} {depth : Nat} {p : Site × Value}
    (h : s.seekInside id key value depth v = .ok (some p)) : s.Hit key value p := by
  induction depth generalizing v with
  | zero => simp [seekInside] at h
  | succ depth ih =>
    rw [seekInside] at h
    obtain ⟨type, -, h⟩ := bind_eq_ok.1 h
    obtain ⟨declared, hdeclared, h⟩ := bind_eq_ok.1 h
    obtain ⟨layout, hlayout, h⟩ := bind_eq_ok.1 h
    obtain ⟨name, rfl⟩ := text_of_need hdeclared
    have hl : (s.need name >>= Value.layout) = .ok layout := by rw [hdeclared]; exact hlayout
    rcases seekWith_eq_some h with ⟨hmem, hfits⟩ | ⟨w, hw⟩
    · exact hit_of_sited hl (by simpa using hmem) hfits
    · exact ih hw

/-- What a search by name finds has the name. -/
theorem name_of_findSite {s : Schema} {owner : String} {value : Value} {site : Site}
    (h : s.findSite owner "name" value = .ok (some site)) :
    ∃ r, s.attributeAt? site = some r ∧ r.is "name" value = true := by
  rw [findSite_eq] at h
  obtain ⟨layout, hl, h⟩ := bind_eq_ok.1 h
  have hhit : ∃ v, s.Hit "name" value (site, v) := by
    cases hseek : s.seek id "name" value s.depthLimit true (sited owner layout) with
    | error fault => simp [hseek] at h
    | ok found =>
      rw [hseek] at h
      obtain ⟨p, rfl, rfl⟩ : ∃ p, found = some p ∧ p.1 = site := by simpa using h
      rcases seekWith_eq_some hseek with ⟨hmem, hfits⟩ | ⟨w, hw⟩
      · exact ⟨p.2, hit_of_sited hl hmem hfits⟩
      · exact ⟨p.2, seekInside_eq_some hw⟩
  obtain ⟨v, hfits, layout', hl', hv⟩ := hhit
  obtain ⟨r, rfl, hname⟩ := record_of_fits hfits
  exact ⟨r, attributeAt?_of_layout hl' hv, hname⟩

/-- The attribute at a site has contents of its own. -/
def PlainAt (s : Schema) (site : Site) : Prop :=
  ∃ r, s.attributeAt? site = some r ∧ r.isInline = false

theorem PlainAt.namedAt {s : Schema} {site : Site} (h : s.PlainAt site) : s.NamedAt site := by
  obtain ⟨r, hr, hi⟩ := h
  intro r' hr'
  obtain rfl : r = r' := by simpa [hr] using hr'
  exact Record.named_of_plain hi

theorem plainAt_congr {s s' : Schema} (h : s'.settled = s.settled) {site : Site}
    (hp : s'.PlainAt site) : s.PlainAt site := by
  obtain ⟨r, hr, hi⟩ := hp
  have hs := s'.attributeAt?_settled site
  rw [h, attributeAt?_settled, hr] at hs
  obtain ⟨r', hr', heq⟩ := Option.map_eq_some_iff.1 hs
  exact ⟨r', hr', by rw [← Record.isInline_settled, heq, Record.isInline_settled, hi]⟩

/-- A discriminator is an attribute with contents of its own. -/
theorem ClearOf.plainAt {s : Schema} {value : Value} (h : s.ClearOf value) {owner : String}
    {site : Site} (hf : s.findSite owner "name" value = .ok (some site)) : s.PlainAt site := by
  obtain ⟨r, hr, hname⟩ := name_of_findSite hf
  have hclear := h site r hr
  refine ⟨r, hr, ?_⟩
  simpa [Record.clears, hname] using hclear

end Schema

/-- An entry apart from the class that holds its attribute. -/
def Entry.bare (e : Entry) : Entry := { e with aggregateClass := .null }

/-- A model apart from the classes that hold its attributes. -/
def ClassModel.bare (m : ClassModel) : ClassModel :=
  { m with
    entries := m.entries.map Entry.bare
    parameters := m.parameters.map Entry.bare
    constructors := m.constructors.map (·.map Entry.bare) }

/-- A draft apart from what making models can change in the schema. -/
def Draft.settled (d : Draft) : Draft :=
  { d with schema := d.schema.settled, entries := d.entries.map Entry.bare }

namespace ClassModel
open Drafting

theorem discriminatorOf_settled {s : Schema} {site : Site} {r : Record} (h : s.Clear)
    (hr : s.attributeAt? site = some r) (name : String) :
    discriminatorOf s.settled name r.settled = discriminatorOf s name r := by
  unfold discriminatorOf
  rw [Record.get?_settled r (by simp) (by simp)]
  cases hc : r.get? "condition" with
  | none => rfl
  | some c => exact Schema.findSite_settled (h site r c hr hc).fitsAlike name

theorem entryOf_settled (f : Frame) {s : Schema} {site : Site} (hn : s.NamedAt site) (hc : s.Clear)
    (before : List Entry) (aggregate : Option Aggregate) :
    (entryOf f s.settled (before.map Entry.bare) site aggregate).map Entry.bare =
      (entryOf f s before site aggregate).map Entry.bare := by
  unfold entryOf
  rw [memberOf_settled _ hn, Schema.recordAt_settled]
  cases memberOf f.target s site with
  | error fault => rfl
  | ok member =>
    cases hr : s.recordAt site with
    | error fault => rfl
    | ok r =>
      have hcondition := discriminatorOf_settled hc (Schema.recordAt_eq_ok.1 hr) f.name
      have hparent := Schema.findSite_settled
        (Schema.fitsAlike (show "size" ≠ "aggregate_class" by simp) (by simp) s member.name) f.name
      simp only [map_ok, ok_bind, hcondition, hparent, isInherited_settled,
        Record.get?_settled r (show "condition" ≠ "aggregate_class" by simp) (by simp)]
      cases discriminatorOf s f.name r with
      | error fault => rfl
      | ok conditionSite =>
        cases s.findSite f.name "size" member.name with
        | error fault => rfl
        | ok parent => simp [Entry.bare, Function.comp_def]

theorem plainAt_of_entryOf {f : Frame} {s : Schema} {before : List Entry} {site : Site}
    {aggregate : Option Aggregate} {e : Entry} (hc : s.Clear)
    (h : entryOf f s before site aggregate = .ok e) {discriminator : Site}
    (hd : e.conditionSite = some discriminator) : s.PlainAt discriminator := by
  unfold entryOf at h
  obtain ⟨member, -, h⟩ := bind_eq_ok.1 h
  obtain ⟨r, hr, h⟩ := bind_eq_ok.1 h
  obtain ⟨conditionSite, hcondition, h⟩ := bind_eq_ok.1 h
  obtain ⟨parent, -, rfl⟩ := return_eq_ok.1 h
  obtain rfl : conditionSite = some discriminator := hd
  unfold discriminatorOf at hcondition
  cases hrc : r.get? "condition" with
  | none => simp [hrc] at hcondition
  | some c =>
    simp only [hrc] at hcondition
    exact (hc site r c (Schema.recordAt_eq_ok.1 hr) hrc).plainAt hcondition

theorem constantOf_settled (t : Target) {s : Schema} {site : Site} (h : s.NamedAt site) :
    constantOf t s.settled site = constantOf t s site := by
  unfold constantOf
  rw [Schema.recordAt_settled]
  cases hr : s.recordAt site with
  | error fault => rfl
  | ok r =>
    have hn : r.Named := h r (Schema.recordAt_eq_ok.1 hr)
    have hname : r.settled.need "name" = r.need "name" := by
      simpa only [Value.need_record] using Value.need_name_settled hn
    have htype : ∀ kind, t.typeOf s.settled r.settled kind = t.typeOf s r kind :=
      t.typeOf_settled s r
    simp only [Except.map, ok_bind, ← bind_assoc]
    rw [Schema.layout_settled]
    cases s.need site.owner >>= Value.layout with
    | error fault => rfl
    | ok layout =>
      simp [Except.map, Value.kind_settled, hname, Schema.sizeOf_settledRecord, htype,
        Schema.sortOf_settled, Record.get?_settled, Record.need_settled]

end ClassModel

/-- Two drafts of one model, in states of the schema that differ by marks. -/
structure Draft.Alike (d d' : Draft) : Prop where
  settled : d.settled = d'.settled
  clear : d.schema.Clear
  clear' : d'.schema.Clear
  /-- Discriminators have contents of their own. -/
  plain : ∀ e ∈ d.entries, ∀ site, e.conditionSite = some site → d.schema.PlainAt site

namespace Draft.Alike
variable {d d' : Draft}

theorem schema (h : d.Alike d') : d.schema.settled = d'.schema.settled := congrArg Draft.schema h.settled

theorem entries (h : d.Alike d') : d.entries.map Entry.bare = d'.entries.map Entry.bare :=
  congrArg Draft.entries h.settled

/-- Drafts with other states of the schema. -/
theorem withSchema (h : d.Alike d') {s s' : Schema} (hs : s.settled = d.schema.settled)
    (hs' : s'.settled = d'.schema.settled) (hc : s.Clear) (hc' : s'.Clear) :
    ({ d with schema := s } : Draft).Alike { d' with schema := s' } where
  settled := by
    have hsettled := h.settled
    simp only [Draft.settled, hs, hs'] at hsettled ⊢
    exact hsettled
  clear := hc
  clear' := hc'
  plain e he site hsite := Schema.plainAt_congr hs.symm (h.plain e he site hsite)

theorem marked (h : d.Alike d') (marks : List Mark) :
    ({ d with schema := d.schema.markAll marks } : Draft).Alike
      { d' with schema := d'.schema.markAll marks } :=
  h.withSchema (d.schema.settled_markAll marks) (d'.schema.settled_markAll marks)
    (h.clear.markAll marks) (h.clear'.markAll marks)

end Draft.Alike

/-- Results that are the same as far as they are looked at, with drafts that are alike. -/
def Agree {α β : Type} (view : α → β) (out out' : Checked α × Draft) : Prop :=
  out.1.map view = out'.1.map view ∧ out.2.Alike out'.2

namespace Agree
variable {α β γ : Type} {d d' : Draft}

theorem lift {x x' : Checked α} (view : α → β) (hd : d.Alike d') (hx : x.map view = x'.map view) :
    Agree view (runOn (liftM x) d) (runOn (liftM x') d') := by
  simp only [runOn_lift]
  exact ⟨hx, hd⟩

theorem bind {steps steps' : Drafting α} {next next' : α → Drafting β} {view : β → γ}
    (h : Agree id (runOn steps d) (runOn steps' d'))
    (hn : ∀ a e e', runOn steps d = (.ok a, e) → runOn steps' d' = (.ok a, e') → e.Alike e' →
      Agree view (runOn (next a) e) (runOn (next' a) e')) :
    Agree view (runOn (steps >>= next) d) (runOn (steps' >>= next') d') := by
  rw [runOn_bind, runOn_bind]
  rcases hr : runOn steps d with ⟨fault | a, e⟩ <;> rcases hr' : runOn steps' d' with ⟨fault' | a', e'⟩
  all_goals
    obtain ⟨hresult, halike⟩ := h
    simp only [hr, hr', Checked.map_error, map_ok, id, reduceCtorEq, Except.error.injEq,
      Except.ok.injEq] at hresult halike
  · exact ⟨congrArg Except.error hresult, halike⟩
  · subst hresult
    exact hn a e e' hr hr' halike

theorem map {steps steps' : Drafting α} {view : β → γ} (g : α → β)
    (h : Agree id (runOn steps d) (runOn steps' d')) :
    Agree view (runOn (g <$> steps) d) (runOn (g <$> steps') d') := by
  obtain ⟨hresult, halike⟩ := h
  simp only [runOn_map]
  refine ⟨?_, halike⟩
  have hsame : (runOn steps d).1 = (runOn steps' d').1 := by simpa [Except.map_id] using hresult
  rw [hsame]

end Agree

namespace ClassModel
open Drafting

theorem agree_tell {d d' : Draft} (h : d.Alike d') (line : String) :
    Agree id (runOn (tell line) d) (runOn (tell line) d') := by
  refine ⟨rfl, ?_, h.clear, h.clear', h.plain⟩
  have hsettled := h.settled
  simp only [Draft.settled, Draft.mk.injEq] at hsettled ⊢
  simp_all

theorem agree_addEntry (f : Frame) {d d' : Draft} (h : d.Alike d') {site : Site}
    (hn : d.schema.NamedAt site) (hn' : d'.schema.NamedAt site) (aggregate : Option Aggregate) :
    Agree id (runOn (addEntry f site aggregate) d) (runOn (addEntry f site aggregate) d') := by
  have he := entryOf_settled f hn h.clear d.entries aggregate
  rw [h.schema, h.entries, entryOf_settled f hn' h.clear' d'.entries aggregate] at he
  simp only [addEntry, runOn_bind, runOn_get, runOn_lift]
  cases hr : entryOf f d.schema d.entries site aggregate with
  | error fault =>
    cases hr' : entryOf f d'.schema d'.entries site aggregate with
    | error fault' => exact ⟨by simpa [hr, hr'] using he.symm, h⟩
    | ok e' => simp [hr, hr'] at he
  | ok e =>
    cases hr' : entryOf f d'.schema d'.entries site aggregate with
    | error fault' => simp [hr, hr'] at he
    | ok e' =>
      have hbare : e'.bare = e.bare := by simpa [hr, hr'] using he
      have htype : e'.varType = e.varType := congrArg (·.varType) hbare
      refine ⟨rfl, ?_, h.clear, h.clear', ?_⟩
      · have hsettled := h.settled
        simp only [Draft.settled, Draft.mk.injEq, runOn_set, List.map_append, List.map_cons,
          List.map_nil, hbare, htype] at hsettled ⊢
        simp [hsettled]
      · intro e₁ he₁ discriminator hd
        rcases List.mem_append.1 he₁ with hmem | hmem
        · exact h.plain e₁ hmem discriminator hd
        · obtain rfl : e₁ = e := by simpa using hmem
          exact plainAt_of_entryOf h.clear hr hd

theorem agree_addConstant (f : Frame) {d d' : Draft} (h : d.Alike d') {site : Site}
    (hp : d.schema.PlainAt site) :
    Agree id (runOn (addConstant f site) d) (runOn (addConstant f site) d') := by
  have hp' := Schema.plainAt_congr h.schema hp
  have hc : constantOf f.target d.schema site = constantOf f.target d'.schema site := by
    rw [← constantOf_settled _ hp.namedAt, h.schema, constantOf_settled _ hp'.namedAt]
  simp only [addConstant, runOn_bind, runOn_schema, runOn_lift, runOn_tell, hc]
  cases constantOf f.target d'.schema site with
  | error fault => exact ⟨rfl, h⟩
  | ok c =>
    refine ⟨rfl, ?_, h.clear, h.clear', h.plain⟩
    have hsettled := h.settled
    simp only [Draft.settled, Draft.mk.injEq, runOn_modify] at hsettled ⊢
    simp [hsettled]

theorem runOn_visit (f : Frame) (site : Site) (aggregate : Option Aggregate) (depth : Nat)
    (d : Draft) : runOn (visit f site aggregate depth) d =
      runOn (do
        let name ← liftM (d.schema.recordAt site >>= (·.need "name") >>= Value.joined)
        tell (tabs "\t " (depth + 1) ++ " " ++ name)
        addEntry f site aggregate) d := by
  simp only [visit, runOn_bind, runOn_attributeAt, runOn_lift]
  cases d.schema.recordAt site with
  | error fault => rfl
  | ok r => cases hn : r.need "name" <;> simp [hn]

theorem name_settled {s : Schema} {site : Site} (h : s.NamedAt site) :
    (s.settled.recordAt site >>= (·.need "name")) = s.recordAt site >>= (·.need "name") := by
  rw [Schema.recordAt_settled]
  cases hr : s.recordAt site with
  | error fault => rfl
  | ok r =>
    have hn : r.Named := h r (Schema.recordAt_eq_ok.1 hr)
    simp only [map_ok, ok_bind, Record.need]
    rw [hn]

theorem agree_visit (f : Frame) {d d' : Draft} (h : d.Alike d') {site : Site}
    (hn : d.schema.NamedAt site) (hn' : d'.schema.NamedAt site) (aggregate : Option Aggregate)
    (depth : Nat) :
    Agree id (runOn (visit f site aggregate depth) d) (runOn (visit f site aggregate depth) d') := by
  have hname : (d.schema.recordAt site >>= (·.need "name")) =
      d'.schema.recordAt site >>= (·.need "name") := by
    rw [← name_settled hn, h.schema, name_settled hn']
  rw [runOn_visit, runOn_visit, hname]
  refine (Agree.lift id h rfl).bind fun name e e' he he' h₁ => ?_
  simp only [runOn_lift, Prod.mk.injEq] at he he'
  obtain ⟨-, rfl⟩ := he
  obtain ⟨-, rfl⟩ := he'
  refine (agree_tell h₁ _).bind fun _ e e' he he' h₂ => ?_
  simp only [runOn_tell, Prod.mk.injEq] at he he'
  obtain ⟨-, rfl⟩ := he
  obtain ⟨-, rfl⟩ := he'
  exact agree_addEntry f h₂ hn hn' aggregate

/-- An attribute in two states of a schema. -/
theorem recordAt_congr {s s' : Schema} (h : s.settled = s'.settled) (site : Site) :
    (∃ fault, s.recordAt site = .error fault ∧ s'.recordAt site = .error fault) ∨
      ∃ r r', s.recordAt site = .ok r ∧ s'.recordAt site = .ok r' ∧ r.settled = r'.settled := by
  have hs := s.recordAt_settled site
  rw [h, Schema.recordAt_settled] at hs
  cases hr : s.recordAt site <;> cases hr' : s'.recordAt site <;> simp_all

theorem agree_takeInline (f : Frame) {d d' : Draft} (h : d.Alike d') {site : Site} {r r' : Record}
    (hr : d.schema.attributeAt? site = some r) (hr' : d'.schema.attributeAt? site = some r')
    (hs : r.settled = r'.settled) (hi : r.isInline = true) (aggregate : Option Aggregate)
    (depth : Nat) :
    Agree id (runOn (takeInline f r site aggregate depth) d)
      (runOn (takeInline f r' site aggregate depth) d') := by
  have htype : r'.need "type" = r.need "type" := by
    rw [← Record.need_settled r' (by simp) (by simp), ← hs, Record.need_settled r (by simp) (by simp)]
  have hi' : r'.isInline = true := by rw [← Record.isInline_settled, ← hs, Record.isInline_settled, hi]
  unfold takeInline
  rw [htype]
  refine (Agree.lift id h rfl).bind fun type e e' he he' h₁ => ?_
  refine (Agree.lift id h₁ rfl).bind fun name e₁ e₁' he₁ he₁' h₂ => ?_
  simp only [runOn_lift, Prod.mk.injEq] at he he' he₁ he₁'
  obtain ⟨hneed, rfl⟩ := he
  obtain ⟨-, rfl⟩ := he'
  obtain ⟨hname, rfl⟩ := he₁
  obtain ⟨-, rfl⟩ := he₁'
  have named : ∀ (s : Schema) (r : Record), s.attributeAt? site = some r → r.isInline = true →
      r.need "type" = .ok type → s.setEntry site "name" name = s.markAll [.name site] := by
    intro s r hr hi hneed
    have hat : s.nameAt? site = some name := by
      rw [Schema.nameAt?, hr, Option.bind_some, Record.inlineName?, if_pos hi,
        Record.need_eq_ok.1 hneed, Option.bind_some, hname]
      rfl
    simp only [Schema.markAll, List.foldl, Schema.mark_name, Schema.noteName, hat]
  have hset := named d.schema r hr hi hneed
  have hset' := named d'.schema r' hr' hi' (htype.trans hneed)
  have hwritten : ∀ s : Schema, (s.markAll [.name site]).NamedAt site := by
    intro s
    simp only [Schema.markAll, List.foldl, Schema.mark_name]
    exact s.namedAt_noteName site
  have hmarked := h₂.marked [.name site]
  simp only [writeEntry]
  rw [runOn_bind, runOn_modify, runOn_bind, runOn_modify, hset, hset']
  have hshown : Agree id
      (runOn (if isHidden type then pure () else visit f site aggregate depth)
        { d with schema := d.schema.markAll [.name site] })
      (runOn (if isHidden type then pure () else visit f site aggregate depth)
        { d' with schema := d'.schema.markAll [.name site] }) := by
    split
    · exact ⟨rfl, hmarked⟩
    · exact agree_visit f hmarked (hwritten d.schema) (hwritten d'.schema) aggregate depth
  exact hshown.bind fun _ e e' _ _ h₃ => Agree.lift id h₃ rfl

theorem agree_takePlain (f : Frame) {d d' : Draft} (h : d.Alike d') {site : Site} {r r' : Record}
    (hr : d.schema.attributeAt? site = some r) (hs : r.settled = r'.settled)
    (hi : r.isInline = false) (aggregate : Option Aggregate) (depth : Nat) :
    Agree id (runOn (takePlain f r site aggregate depth) d)
      (runOn (takePlain f r' site aggregate depth) d') := by
  have hconst : r'.isConst = r.isConst := by rw [← Record.isConst_settled, ← hs, Record.isConst_settled]
  have hvar : r'.isVar = r.isVar := by rw [← Record.isVar_settled, ← hs, Record.isVar_settled]
  have hfill : r'.isFill = r.isFill := by rw [← Record.isFill_settled, ← hs, Record.isFill_settled]
  have hhas : r'.has "disposition" = r.has "disposition" := by
    rw [← Record.has_settled r' (by simp) (by simp), ← hs, Record.has_settled r (by simp) (by simp)]
  have hp : d.schema.PlainAt site := ⟨r, hr, hi⟩
  have hp' := Schema.plainAt_congr h.schema hp
  unfold takePlain
  rw [hconst, hvar, hfill, hhas]
  split
  · exact agree_addConstant f h hp
  · split
    · exact agree_visit f h hp.namedAt hp'.namedAt aggregate depth
    · exact ⟨rfl, h⟩

theorem agree_meet (f : Frame) {d d' : Draft} (h : d.Alike d') (site : Site)
    (aggregate : Option Aggregate) (depth : Nat) :
    Agree id (runOn (meet f site aggregate depth) d) (runOn (meet f site aggregate depth) d') := by
  rw [runOn_meet, runOn_meet, Schema.noteOwner_eq, Schema.noteOwner_eq]
  have hnoted := h.marked (site.ownerMarks f.name)
  rcases recordAt_congr hnoted.schema site with ⟨fault, hr, hr'⟩ | ⟨r, r', hr, hr', hs⟩
  · simp only [hr, hr']
    exact ⟨rfl, hnoted⟩
  · have hat := Schema.recordAt_eq_ok.1 hr
    have hat' := Schema.recordAt_eq_ok.1 hr'
    have hinline : r'.isInline = r.isInline := by
      rw [← Record.isInline_settled, ← hs, Record.isInline_settled]
    simp only [hr, hr', hinline]
    by_cases hi : r.isInline = true
    · simp only [hi, if_true]
      have htaken := agree_takeInline f hnoted hat hat' hs hi aggregate depth
      simpa using htaken.map some
    · simp only [hi, Bool.false_eq_true, if_false]
      have htaken := agree_takePlain f hnoted hat hs (by simpa using hi) aggregate depth
      simpa using htaken.map fun _ => (none : Option String)

theorem agree_pass (f : Frame) {d d' : Draft} (h : d.Alike d') (stop : Stop) :
    Agree id (runOn (pass f stop) d) (runOn (pass f stop) d') := by
  cases stop with
  | enter path owner =>
    have hlayout := d.schema.layout_settled owner
    rw [h.schema, Schema.layout_settled] at hlayout
    refine (agree_tell h _).bind fun _ e e' he he' h₁ => ?_
    simp only [runOn_tell, Prod.mk.injEq] at he he'
    obtain ⟨-, rfl⟩ := he
    obtain ⟨-, rfl⟩ := he'
    simp only [runOn_bind, runOn_layout]
    cases hl : d.schema.need owner >>= Value.layout <;>
      cases hl' : d'.schema.need owner >>= Value.layout <;> simp_all [Agree]
  | meet path site => exact (agree_meet f h site _ _).map _
  | endless => exact ⟨rfl, h⟩

theorem agree_passes (f : Frame) {d d' : Draft} (h : d.Alike d') (stops : List Stop) :
    Agree id (runOn (forM stops (pass f)) d) (runOn (forM stops (pass f)) d') := by
  induction stops generalizing d d' with
  | nil => exact ⟨rfl, h⟩
  | cons stop stops ih =>
    rw [List.forM_cons]
    exact (agree_pass f h stop).bind fun _ e e' _ _ h₁ => ih h₁

theorem agree_walk (f : Frame) {d d' : Draft} (h : d.Alike d') (limit : Nat) (owner : String) :
    Agree id (runOn (walk f limit owner none 0) d) (runOn (walk f limit owner none 0) d') := by
  have hwalk := runOn_walk f limit owner [] d.schema d rfl
  have hwalk' := runOn_walk f limit owner [] d.schema d' h.schema.symm
  simp only [Stop.under_nil] at hwalk hwalk'
  have hpasses := agree_passes f h (d.schema.tour limit owner)
  rwa [← hwalk, ← hwalk'] at hpasses

end ClassModel
end SchemaForge
