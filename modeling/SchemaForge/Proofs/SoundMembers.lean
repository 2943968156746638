import SchemaForge.Proofs.SizeFields
import SchemaForge.Proofs.WellFormed

/-! The members that well formed attributes make. An attribute has a kind, a size and a type, and the
search for the attribute on which it depends comes to an enumerated one; only a number can have a width
that a target language does not know. -/
namespace SchemaForge
open Checked

theorem Text.succeeds_phrase {s : String} : Succeeds (Text.phrase s) ↔ s ≠ "" := by
  unfold Text.phrase
  cases h : s.toList with
  | nil =>
    obtain rfl : s = "" := by simpa using h
    simp
  | cons c rest =>
    have hne : s ≠ "" := by
      rintro rfl
      simp at h
    simpa using hne

namespace Value

theorem isName_iff {v : Value} : v.isName = true ↔ ∃ name, v = text name ∧ name ≠ "" := by
  cases v <;> simp [isName]

theorem isText_iff {v : Value} : v.isText = true ↔ ∃ s, v = text s := by
  cases v <;> simp [isText, text?]

theorem isText_of_number? {v : Value} {n : Int} (h : v.number? = some n) : v.isText = false := by
  cases v <;> simp_all [number?, isText, text?]

/-- A record is described by its comments, or by its name. -/
theorem succeeds_description {r : Record}
    (hc : ∀ comments, r.get? "comments" = some comments → comments.isText = true)
    (hn : ∀ name, r.get? "name" = some name → name.isName = true) : Succeeds r.value.description := by
  have hneed : ∀ key, r.value.need key = require key (r.get? key) := fun _ => rfl
  simp only [description, has_record, ok_bind, Record.has, hneed]
  cases hcomments : r.get? "comments" with
  | none =>
    cases hname : r.get? "name" with
    | none => simp
    | some name =>
      obtain ⟨name, rfl, hne⟩ := isName_iff.1 (hn name hname)
      simp [require, Text.succeeds_phrase, hne]
  | some comments =>
    obtain ⟨comment, rfl⟩ := isText_iff.1 (hc comments hcomments)
    cases hname : r.get? "name" with
    | none => simp [require]
    | some name =>
      obtain ⟨name, rfl, hne⟩ := isName_iff.1 (hn name hname)
      simp [require, Text.succeeds_phrase, hne]

theorem isSize_iff {v : Value} : v.isSize = true ↔ (∃ n, v.number? = some n) ∨ v.isText = true := by
  simp [isSize, Option.isSome_iff_exists]

theorem succeeds_compared {v : Value} : Succeeds v.compared ↔ ∃ n, v.number? = some n := by
  unfold compared
  cases v.number? <;> simp

end Value

namespace Schema
variable {s : Schema}

section
variable {r : Record} (h : s.Sound r)
include h

theorem Sound.name_eq (hi : r.isInline = false) : ∃ name, r.value.need "name" = .ok (.text name) := by
  obtain ⟨name, hname, -⟩ := h.named hi
  exact ⟨name, Record.need_of_get? hname⟩

theorem Sound.succeeds_kind {layout : List Value} (hl : ∀ v ∈ layout, ∃ r : Record, v = r.value) :
    Succeeds (r.value.kind (.list layout)) := by
  obtain ⟨type, htype, -⟩ := h.typed
  have hneed : r.value.need "type" = .ok (.text type) := Record.need_of_get? htype
  unfold Value.kind
  simp only [Value.isVar_record, Value.isFill_record, Value.isInline_record, ok_bind, succeeds_ite,
    pure_eq_ok, succeeds_ok, implies_true, true_and]
  intro _ _ hinline
  obtain ⟨name, hname⟩ := h.name_eq (by simpa using hinline)
  have hcounts : Succeeds (r.value.countsOneOf (.list layout)) := by
    simp only [Value.countsOneOf, hname, ok_bind, Value.items, pure_eq_ok, succeeds_bind, succeeds_ok,
      implies_true, and_true]
    refine succeeds_filterM fun v hv => ?_
    obtain ⟨r', rfl⟩ := hl v hv
    rw [Value.is_record]
    exact succeeds_ok _
  obtain ⟨counts, hcounts⟩ := hcounts
  simp only [hcounts, hneed, Value.has_record, ok_bind, Value.asText_text, succeeds_ite, succeeds_ok,
    implies_true, true_and, and_true, succeeds_bind]
  intro _ _ _ hhas
  obtain ⟨size, hsize⟩ := Option.isSome_iff_exists.1 (show r.has "size" = true by simpa using hhas)
  have hsized := Value.isSize_iff.1 (h.sized size hsize)
  rw [Value.need_record, Record.need_of_get? hsize]
  refine ⟨succeeds_ok _, ?_⟩
  rintro _ ⟨⟩
  intro htext _
  obtain ⟨n, hn⟩ := hsized.resolve_right htext
  simp only [Value.isNumber, succeeds_ite, succeeds_bind, pure_eq_ok, succeeds_ok, implies_true,
    and_true, true_and]
  exact fun _ => Value.succeeds_compared.2 ⟨n, hn⟩

/-- The size of an attribute is a number, or the name of one. -/
theorem Sound.sizeOf_eq : ∃ size, s.sizeOf r = .ok size ∧ size.isSize = true := by
  obtain ⟨type, htype, -, henum, hbyte, hknown⟩ := h.typed
  have hneed : ∀ key, r.value.need key = require key (r.get? key) := fun _ => rfl
  simp only [sizeOf, Value.has_record, ok_bind, hneed, Record.has]
  cases hsize : r.get? "size" with
  | some size => exact ⟨size, rfl, h.sized size hsize⟩
  | none =>
    have hb : type ≠ "byte" := by
      rintro rfl
      simp [Record.has, hsize] at hbyte
    obtain ⟨d, sort, hd, -, -, hdsize⟩ := hknown hb
    have hdneed : ∀ key, d.value.need key = require key (d.get? key) := fun _ => rfl
    simp only [Option.isSome_none, Bool.false_eq_true, if_false, htype, require, ok_bind, Value.isByte,
      Value.isEnum, Value.text_beq_text, beq_iff_eq, hb, henum, Bool.or_eq_true, or_self,
      need_eq_ok.2 hd, Value.has_record, Record.has, hdneed]
    cases hds : d.get? "size" with
    | some size => exact ⟨size, by simp, hdsize size hds⟩
    | none => exact ⟨.int 1, by simp, rfl⟩

end

/-- The class of a type has a name, whichever record asks for it. -/
theorem Steady.succeeds_className (hs : s.Steady) (type : String) (user : Record)
    (hu : user.has "type" = true) : Succeeds (s.className (.text type) user.value) := by
  obtain ⟨sort, hsort⟩ := Option.isSome_iff_exists.1 hu
  have hneed : user.value.need "type" = .ok sort := Record.need_of_get? hsort
  simp only [className, hneed, ok_bind, Value.joined_text]
  split
  · exact succeeds_ok _
  cases hd : s.get? type with
  | none => exact succeeds_ok _
  | some declared =>
    obtain ⟨d, sort', hd', htype, -⟩ := hs.known type declared hd
    obtain rfl : declared = d.value := Option.some.inj (hd.symm.trans hd')
    have hdneed : d.value.need "type" = .ok (.text sort') := Record.need_of_get? htype
    simp [hdneed]

theorem Steady.succeeds_sortOf (hs : s.Steady) (type : String) : Succeeds (s.sortOf (.text type)) := by
  have hfind : s.find (.text type) = .ok (s.get? type) := rfl
  simp only [sortOf, hfind, ok_bind]
  cases hd : s.get? type with
  | none => exact succeeds_ok _
  | some declared =>
    obtain ⟨d, sort, hd', -⟩ := hs.known type declared hd
    obtain rfl : declared = d.value := Option.some.inj (hd.symm.trans hd')
    exact succeeds_ok _

theorem succeeds_isReserved {r : Record} {name : String} (hn : r.get? "name" = some (.text name)) :
    Succeeds r.value.isReserved := by
  have hneed : r.value.need "name" = .ok (.text name) := Record.need_of_get? hn
  have hholds : ∀ part, Value.has (.text name) part = .ok (Text.holds part name) := fun _ => rfl
  simp [Value.isReserved, Value.has_record, hneed, hholds]

/-- The kind of the attribute at a site. -/
def kindAt (s : Schema) (site : Site) : Checked Kind := do
  let r ← s.recordAt site
  r.value.kind (.list (← (← s.need site.owner).layout))

def sizeAt (s : Schema) (site : Site) : Checked Value := do s.sizeOf (← s.recordAt site)

/-- If the attribute at a site is a number, the target language has a type of its width. -/
def Fits (s : Schema) (t : Target) (site : Site) : Prop :=
  ∀ kind size, s.kindAt site = .ok kind → s.sizeAt site = .ok size → kind = .simple ∨ kind = .sizeField →
    Succeeds (t.numberType size)

theorem kindAt_settled (s : Schema) (site : Site) : s.settled.kindAt site = s.kindAt site := by
  unfold kindAt
  rw [recordAt_settled]
  cases s.recordAt site with
  | error fault => rfl
  | ok r =>
    simp only [map_ok, ok_bind, ← bind_assoc]
    rw [layout_settled]
    cases s.need site.owner >>= Value.layout with
    | error fault => rfl
    | ok layout => exact Value.kind_settled r layout

theorem sizeAt_settled (s : Schema) (site : Site) : s.settled.sizeAt site = s.sizeAt site := by
  unfold sizeAt
  rw [recordAt_settled]
  cases s.recordAt site with
  | error fault => rfl
  | ok r =>
    simp only [map_ok, ok_bind]
    exact s.sizeOf_settledRecord r

theorem fits_congr {s s' : Schema} (h : s'.settled = s.settled) (t : Target) (site : Site) :
    s'.Fits t site ↔ s.Fits t site := by
  have hkind : s'.kindAt site = s.kindAt site := by rw [← kindAt_settled, h, kindAt_settled]
  have hsize : s'.sizeAt site = s.sizeAt site := by rw [← sizeAt_settled, h, sizeAt_settled]
  rw [Fits, Fits, hkind, hsize]

theorem exists_layout_of_attribute {site : Site} {r : Record} (hr : s.attributeAt? site = some r) :
    ∃ layout, (s.need site.owner >>= Value.layout) = .ok layout := by
  have hsite := (mem_sites_of_attributeAt? hr).2
  unfold sites at hsite
  cases hl : s.need site.owner >>= Value.layout with
  | error fault => simp [hl] at hsite
  | ok layout => exact ⟨layout, rfl⟩

/-- What can be told of a well formed attribute. -/
theorem Steady.exists_facts (hs : s.Steady) {site : Site} {r : Record}
    (hr : s.attributeAt? site = some r) : ∃ kind size, s.kindAt site = .ok kind ∧
      s.sizeAt site = .ok size ∧ size.isSize = true := by
  have hsound := hs.sound site r hr
  obtain ⟨layout, hl⟩ := exists_layout_of_attribute hr
  obtain ⟨kind, hkind⟩ := hsound.succeeds_kind (hs.listed _ _ hl)
  obtain ⟨size, hsize, hisSize⟩ := hsound.sizeOf_eq
  refine ⟨kind, size, ?_, ?_, hisSize⟩
  · simp only [kindAt, recordAt_eq_ok.2 hr, ok_bind, ← bind_assoc, hl, hkind]
  · simp only [sizeAt, recordAt_eq_ok.2 hr, ok_bind, hsize]

/-- The type of a variable can be told unless it is that of a number. -/
theorem Steady.succeeds_typeOf (hs : s.Steady) {r : Record} (hr : s.Sound r) {size : Value}
    (hsize : s.sizeOf r = .ok size) (t : Target) (kind : Kind) :
    Succeeds (t.typeOf s r kind) ↔
      (kind = .simple ∨ kind = .sizeField → Succeeds (t.numberType size)) := by
  obtain ⟨type, htype, -⟩ := hr.typed
  have hneed : r.value.need "type" = .ok (.text type) := Record.need_of_get? htype
  have hclass := hs.succeeds_className type r (by simp [Record.has, htype])
  cases kind <;> simp [Target.typeOf, hneed, hsize, hclass]

end Schema

namespace ClassModel
variable {s : Schema} {site : Site} {r : Record} {name : String}

section
variable (hs : s.Steady) (hr : s.attributeAt? site = some r) (hn : r.get? "name" = some (.text name))
include hs hr hn

/-- An attribute with a name makes a member, if its width fits in case that it is a number. -/
theorem succeeds_memberOf (hne : name ≠ "") (t : Target) :
    Succeeds (memberOf t s site) ↔ s.Fits t site := by
  have hsound := hs.sound site r hr
  obtain ⟨kind, size, hkind, hsize, -⟩ := hs.exists_facts hr
  obtain ⟨layout, hl⟩ := Schema.exists_layout_of_attribute hr
  obtain ⟨type, htype, -⟩ := hsound.typed
  have hrecord := Schema.recordAt_eq_ok.2 hr
  have hdescription : Succeeds r.value.description := by
    refine Value.succeeds_description hsound.described fun v hv => ?_
    obtain rfl := Option.some.inj (hn.symm.trans hv)
    exact Value.isName_iff.2 ⟨name, rfl, hne⟩
  have hneed : r.need "name" = .ok (.text name) := Record.need_of_get? hn
  have hfits : s.Fits t site ↔ (kind = .simple ∨ kind = .sizeField → Succeeds (t.numberType size)) := by
    simp [Schema.Fits, hkind, hsize]
  simp only [Schema.kindAt, Schema.sizeAt, hrecord, ok_bind, ← bind_assoc, hl] at hkind hsize
  have hclass := hs.succeeds_className type r (by simp [Record.has, htype])
  have hsort := hs.succeeds_sortOf type
  have hreserved := Schema.succeeds_isReserved hn
  rw [hfits, ← hs.succeeds_typeOf hsound hsize]
  simp only [memberOf, hrecord, ok_bind, ← bind_assoc, hl, hkind, hneed, Value.joined_text, hsize, htype,
    Option.getD_some, succeeds_bind, hdescription, hsort, hclass, hreserved, pure_eq_ok, succeeds_ok,
    implies_true, and_true, true_and]
  obtain ⟨description, hdescription⟩ := hdescription
  simp [hdescription]

/-- An attribute with a value makes a constant under the same condition. -/
theorem succeeds_constantOf (hv : r.has "value" = true) (t : Target) :
    Succeeds (constantOf t s site) ↔ s.Fits t site := by
  have hsound := hs.sound site r hr
  obtain ⟨kind, size, hkind, hsize, -⟩ := hs.exists_facts hr
  obtain ⟨layout, hl⟩ := Schema.exists_layout_of_attribute hr
  obtain ⟨type, htype, -⟩ := hsound.typed
  obtain ⟨value, hvalue⟩ := Option.isSome_iff_exists.1 hv
  have hrecord := Schema.recordAt_eq_ok.2 hr
  have hfits : s.Fits t site ↔ (kind = .simple ∨ kind = .sizeField → Succeeds (t.numberType size)) := by
    simp [Schema.Fits, hkind, hsize]
  simp only [Schema.kindAt, Schema.sizeAt, hrecord, ok_bind, ← bind_assoc, hl] at hkind hsize
  have hsort := hs.succeeds_sortOf type
  rw [hfits, ← hs.succeeds_typeOf hsound hsize]
  simp only [constantOf, hrecord, ok_bind, ← bind_assoc, hl, hkind, Record.need_of_get? hn,
    Record.need_of_get? hvalue, hsize, htype, Option.getD_some, succeeds_bind, hsort, pure_eq_ok,
    succeeds_ok, implies_true, and_true]

end
end ClassModel

namespace Schema
variable {s : Schema}

theorem succeeds_seekWith {α : Type} {inside : Value → Checked (Option (α × Value))} {key : String}
    {value : Value} {attributes : List (α × Value)}
    (h : ∀ p ∈ attributes, ∃ r : Record, p.2 = r.value ∧ (r.isInline = true → Succeeds (inside p.2))) :
    Succeeds (seekWith inside key value true attributes) := by
  induction attributes with
  | nil => exact succeeds_ok none
  | cons p rest ih =>
    obtain ⟨a, v⟩ := p
    obtain ⟨r, hv, hinside⟩ := h (a, v) List.mem_cons_self
    obtain rfl : v = r.value := hv
    have hrest := ih fun q hq => h q (List.mem_cons_of_mem _ hq)
    simp only [seekWith, fits_record, Value.isInline_record, ok_bind, succeeds_ite, pure_eq_ok,
      succeeds_ok, implies_true, true_and, Bool.not_true, Bool.false_eq_true, not_false_eq_true,
      true_implies, hrest, succeeds_bind]
    intro _ hinline
    refine ⟨hinside (by simpa using hinline), fun found _ => ?_⟩
    cases found with
    | none => exact hrest
    | some hit => exact succeeds_ok _

/-- What a walk meets at its stops can be searched. -/
theorem Steady.inlines_at (hs : s.Steady) {owner : String} {layout : List Value}
    (hl : (s.need owner >>= Value.layout) = .ok layout) {p : Site × Value}
    (hp : p ∈ sited owner layout) :
    ∃ r : Record, p.2 = r.value ∧ (r.isInline = true → ∃ type layout',
      r.get? "type" = some (.text type) ∧ (s.need type >>= Value.layout) = .ok layout' ∧
      s.inlined? p.1 = some type ∧ p.1 ∈ s.sites owner) := by
  obtain ⟨r, hr⟩ := hs.listed owner layout hl p.2 (mem_sited hp)
  refine ⟨r, hr, fun hi => ?_⟩
  have hat : s.attributeAt? p.1 = some r := by
    rw [placed_sited hl p hp, hr]
    rfl
  have hsound := hs.sound p.1 r hat
  obtain ⟨type, htype, -⟩ := hsound.typed
  obtain ⟨layout', hl'⟩ := hsound.inlines hi type htype
  refine ⟨type, layout', htype, hl', ?_, ?_⟩
  · simp [inlined?, hat, hi, htype]
  · rw [← map_fst_sited hl]
    exact List.mem_map_of_mem hp

theorem Steady.succeeds_seekInside (hs : s.Steady) {key : String} {value : Value} {depth : Nat}
    {r : Record} {type : String} {layout : List Value} (htype : r.get? "type" = some (.text type))
    (hl : (s.need type >>= Value.layout) = .ok layout) (hends : Stop.endless ∉ s.tour depth type) :
    Succeeds (s.seekInside id key value depth r.value) := by
  induction depth generalizing r type layout with
  | zero => simp [tour] at hends
  | succ depth ih =>
    have hneed : r.value.need "type" = .ok (.text type) := Record.need_of_get? htype
    rw [seekInside, hneed, ok_bind, ← bind_assoc, hl, ok_bind]
    refine succeeds_seekWith fun p hp => ?_
    have hp' : p ∈ sited type layout := by simpa using hp
    obtain ⟨r', hr', hinner⟩ := hs.inlines_at hl hp'
    refine ⟨r', hr', fun hi => ?_⟩
    obtain ⟨type', layout', htype', hl', hin, hsite⟩ := hinner hi
    rw [hr']
    exact ih htype' hl' (endless_notMem_inner hends hsite hin)

/-- A search through a structure has a result, be it that there is nothing to find. -/
theorem Steady.succeeds_findSite (hs : s.Steady)
    (hends : ∀ owner, Stop.endless ∉ s.tour s.depthLimit owner) {owner : String} {layout : List Value}
    (hl : (s.need owner >>= Value.layout) = .ok layout) (key : String) (value : Value) :
    Succeeds (s.findSite owner key value) := by
  have hseek : Succeeds (s.seek id key value s.depthLimit true (sited owner layout)) := by
    refine succeeds_seekWith fun p hp => ?_
    obtain ⟨r, hr, hinner⟩ := hs.inlines_at hl hp
    refine ⟨r, hr, fun hi => ?_⟩
    obtain ⟨type, layout', htype, hl', -⟩ := hinner hi
    rw [hr]
    exact hs.succeeds_seekInside htype hl' (hends type)
  obtain ⟨found, hfound⟩ := hseek
  exact ⟨found.map (·.1), by rw [findSite_eq, hl, ok_bind, hfound, map_ok]⟩

theorem isSort_of_isClass {name : String} (h : s.isClass name = true) :
    s.isSort "struct" name = true := by
  unfold isClass at h
  simp_all

theorem isHidden_of_isClass {name : String} (h : s.isClass name = true) : isHidden name = false := by
  unfold isClass at h
  simp_all

section
variable {s₀ : Schema} (h₀ : s₀.WellFormed) (hr : s₀.Reached s)
include hr

theorem Reached.namesAt (site : Site) : s.namesAt site ⊆ s₀.namesAt site := by
  obtain ⟨marks, -, rfl⟩ := hr
  exact s₀.namesAt_markAll marks site

theorem Reached.depthLimit : s.depthLimit = s₀.depthLimit := by
  rw [← depthLimit_settled, hr.settled, depthLimit_settled]

theorem Reached.tour (limit : Nat) (owner : String) : s.tour limit owner = s₀.tour limit owner := by
  rw [← tour_settled, hr.settled, tour_settled]

theorem Reached.sites (owner : String) : s.sites owner = s₀.sites owner := by
  rw [← sites_settled, hr.settled, sites_settled]

theorem Reached.met (owner : String) : s.met s.depthLimit owner = s₀.met s₀.depthLimit owner := by
  rw [Schema.met, hr.tour, hr.depthLimit, Schema.met]

include h₀

theorem Reached.steady : s.Steady := h₀.steady.congr hr.settled

theorem Reached.tour_ends (owner : String) : Stop.endless ∉ s.tour s.depthLimit owner := by
  rw [hr.tour, hr.depthLimit]
  exact h₀.tour_ends owner

theorem Reached.exists_layout {name : String} (hclass : s₀.isSort "struct" name = true) :
    ∃ layout, (s.need name >>= Value.layout) = .ok layout := by
  obtain ⟨layout, hl⟩ := h₀.layout_of_struct hclass
  obtain ⟨layout', hl', -⟩ := exists_layout_congr hr.settled hl
  exact ⟨layout', hl'⟩

theorem Reached.succeeds_findSite {name : String} (hclass : s₀.isSort "struct" name = true)
    (key : String) (value : Value) : Succeeds (s.findSite name key value) := by
  obtain ⟨layout, hl⟩ := hr.exists_layout h₀ hclass
  exact (hr.steady h₀).succeeds_findSite (hr.tour_ends h₀) hl key value

/-- What a search in a class finds is the first attribute on its tour that fits. -/
theorem Reached.findSite_eq_find? {name key : String} {value : Value} {found : Option Site}
    (h : s.findSite name key value = .ok found) :
    found = (s₀.met s₀.depthLimit name).find? (s.hasAt key value) := by
  rw [Schema.findSite_eq_find? h, Schema.met, tour_succ (hr.tour_ends h₀ name), ← Schema.met, hr.met]

/-- An attribute on the tour that fits can be found. -/
theorem Reached.exists_found {name key : String} (hclass : s₀.isSort "struct" name = true)
    {value : Value} {site : Site} (hsite : site ∈ s₀.met s₀.depthLimit name)
    (hfits : s.hasAt key value site = true) :
    ∃ found ∈ s₀.met s₀.depthLimit name, s.findSite name key value = .ok (some found) ∧
      s.hasAt key value found = true := by
  obtain ⟨found, hfound⟩ := hr.succeeds_findSite h₀ hclass key value
  have hfirst := hr.findSite_eq_find? h₀ hfound
  cases found with
  | none => exact absurd hfits (List.find?_eq_none.1 hfirst.symm site hsite)
  | some found =>
    exact ⟨found, List.mem_of_find?_eq_some hfirst.symm, hfound, List.find?_some hfirst.symm⟩

/-- The search for the attribute on which a member of a class depends comes to an enumerated one. -/
theorem Reached.exists_discriminator {name : String} (hname : name ∈ s₀.names)
    (hclass : s₀.isClass name = true) {site : Site} (hsite : site ∈ s₀.met s₀.depthLimit name)
    {r : Record} (hat : s.attributeAt? site = some r) {c : Value} (hc : r.get? "condition" = some c) :
    ∃ d, s.findSite name "name" c = .ok (some d) ∧ s₀.isEnumerated d = true := by
  obtain ⟨r₀, hat₀, hc₀⟩ := condition_congr hr.settled hat
  rw [hc] at hc₀
  obtain ⟨index, r', cname, rfl, hat', hname', hplain⟩ := h₀.exists_discriminator hat₀ hc₀.symm
  -- Beside the attribute stands one with the name, and no mark has changed that.
  obtain ⟨r₁, hat₁, hsettled⟩ := exists_attribute_congr hr.settled hat'
  have hplain₁ : r₁.isInline = false := by
    rw [← Record.isInline_settled, hsettled, Record.isInline_settled, hplain]
  have hname₁ : r₁.get? "name" = some (.text cname) := by
    rw [← Record.get?_name_settled_of_plain hplain₁, hsettled,
      Record.get?_name_settled_of_plain hplain, hname']
  have hbeside : (⟨site.owner, index⟩ : Site) ∈ s₀.met s₀.depthLimit name :=
    mem_met_of_sites hsite (mem_sites_of_attributeAt? hat').2
  have hhas : s.hasAt "name" (.text cname) ⟨site.owner, index⟩ = true := by
    simp [hasAt, attributeAt, hat₁, Record.is, hname₁]
  obtain ⟨d, hd, hfound, hhasd⟩ := hr.exists_found h₀ (isSort_of_isClass hclass) hbeside hhas
  refine ⟨d, hfound, h₀.discriminated name hname hclass site hsite cname ?_ d hd (hr.namesAt d ?_)⟩
  · simp [conditionAt?, attributeAt, hat₀, ← hc₀]
  · have hget := Record.get?_of_is hhasd
    simp [Schema.namesAt, Record.names, hget]

end
end Schema

namespace ClassModel

/-- What the entries of a class have from a well formed schema, whichever state it was in. -/
structure Apt (s₀ : Schema) (name : String) (e : Entry) : Prop where
  site : e.site ∈ s₀.met s₀.depthLimit name
  sized : e.size.isSize = true
  conditional : e.isConditional = (s₀.attributeAt e.site).isConditional
  discriminated : e.isConditional = true →
    ∃ d, e.conditionSite = some d ∧ s₀.isEnumerated d = true
  /-- A size field belongs to an attribute of the class. -/
  counts : e.kind = .sizeField → ∃ array ∈ s₀.met s₀.depthLimit name, e.parent = some array
  early : e.readBefore = true → e.isConditional = true
  fixed : e.conditionValue = .null ∨ ∃ value, e.conditionValue = .text value

section
variable {s₀ s : Schema} (h₀ : s₀.WellFormed) (hr : s₀.Reached s) {f : Frame} (hname : f.name ∈ s₀.names)
  (hclass : s₀.isClass f.name = true) {site : Site} (hsite : site ∈ s₀.met s₀.depthLimit f.name)
include h₀ hr hname hclass hsite

theorem succeeds_discriminatorOf {r : Record} (hat : s.attributeAt? site = some r) :
    Succeeds (discriminatorOf s f.name r) := by
  unfold discriminatorOf
  cases hc : r.get? "condition" with
  | none => exact succeeds_ok _
  | some c =>
    obtain ⟨d, hd, -⟩ := hr.exists_discriminator h₀ hname hclass hsite hat hc
    exact ⟨some d, hd⟩

/-- An attribute becomes an entry of a class exactly if it makes a member. -/
theorem succeeds_entryOf {r : Record} (hat : s.attributeAt? site = some r) (before : List Entry)
    (aggregate : Option Aggregate) :
    Succeeds (entryOf f s before site aggregate) ↔ Succeeds (memberOf f.target s site) := by
  have hcondition := succeeds_discriminatorOf h₀ hr hname hclass hsite hat
  have hparent := hr.succeeds_findSite h₀ (Schema.isSort_of_isClass hclass) "size"
  simp only [entryOf, Schema.recordAt_eq_ok.2 hat, ok_bind, succeeds_bind, hcondition, hparent,
    pure_eq_ok, succeeds_ok, implies_true, and_true]

theorem apt_of_entryOf {before : List Entry} {aggregate : Option Aggregate} {e : Entry}
    (h : entryOf f s before site aggregate = .ok e) : Apt s₀ f.name e := by
  unfold entryOf at h
  obtain ⟨x, hx, h⟩ := Checked.bind_eq_ok.1 h
  obtain ⟨r, hrecord, h⟩ := Checked.bind_eq_ok.1 h
  obtain ⟨conditionSite, hcondition, h⟩ := Checked.bind_eq_ok.1 h
  obtain ⟨parent, hparent, rfl⟩ := Checked.return_eq_ok.1 h
  obtain ⟨r', hfrom⟩ := memberFrom_of_memberOf hx
  obtain rfl : r = r' := Except.ok.inj (hrecord.symm.trans hfrom.record)
  have hat := Schema.recordAt_eq_ok.1 hrecord
  obtain ⟨r₀, hat₀, hsettled⟩ := Schema.exists_attribute_congr hr.settled.symm hat
  refine ⟨?_, ?_, ?_, ?_, ?_, ?_, .inl rfl⟩
  · rwa [hfrom.site]
  · obtain ⟨size, hsize, hisSize⟩ := ((hr.steady h₀).sound site r hat).sizeOf_eq
    obtain rfl : x.size = size := Except.ok.inj (hfrom.size.symm.trans hsize)
    exact hisSize
  · rw [hfrom.isConditional, hfrom.site, Schema.attributeAt, hat₀, Option.getD_some,
      ← Record.isConditional_settled, ← hsettled, Record.isConditional_settled]
  · intro hconditional
    rw [hfrom.isConditional] at hconditional
    obtain ⟨c, hc⟩ := Option.isSome_iff_exists.1 hconditional
    obtain ⟨d, hd, henum⟩ := hr.exists_discriminator h₀ hname hclass hsite hat hc
    simp only [discriminatorOf, hc, hd] at hcondition
    exact ⟨d, (Except.ok.inj hcondition).symm, henum⟩
  · intro hk
    obtain ⟨own, hown⟩ := hfrom.exists_own hk
    obtain ⟨hbeside, hsized⟩ := List.mem_filter.1 (hown ▸ List.mem_singleton_self own :
      own ∈ (s.sites site.owner).filter (s.hasAt "size" x.name))
    rw [hr.sites] at hbeside
    obtain ⟨array, harray, hfound, -⟩ := hr.exists_found h₀ (Schema.isSort_of_isClass hclass)
      (Schema.mem_met_of_sites hsite hbeside) hsized
    exact ⟨array, harray, Except.ok.inj (hparent.symm.trans hfound)⟩
  · intro hearly
    rw [hfrom.isConditional]
    obtain ⟨c, hc, -⟩ := (Option.any_eq_true _ _).1 hearly
    simp [Record.isConditional, Record.has, hc]

end
end ClassModel
end SchemaForge
