import Mathlib.Data.List.Find
import SchemaForge.Proofs.WellFormed

/-! The types on which a class depends. Two schemas that declare them alike give the same model of the
class, whatever else they declare and in whatever order. -/
namespace SchemaForge
open Checked

namespace Schema

/-- The class of one structure takes attributes of another: of itself, or of one that is inlined there,
directly or through others. -/
def Composes (s : Schema) (name owner : String) : Prop := Relation.ReflTransGen s.Inlines name owner

/-- The types on which the class of a structure depends: those whose attributes it takes, and those that
these attributes name. -/
inductive Closure (s : Schema) (name : String) : String → Prop where
  | taken {owner : String} (composes : s.Composes name owner) : Closure s name owner
  | named {site : Site} {r : Record} {type : String} (composes : s.Composes name site.owner)
      (stands : s.attributeAt? site = some r) (names : r.get? "type" = some (.text type)) :
      Closure s name type

section Reads
variable {K : String → Prop} {s₁ s₂ : Schema} (same : ∀ name, K name → s₁.get? name = s₂.get? name)
include same

theorem need_same {name : String} (h : K name) : s₁.need name = s₂.need name := by
  rw [need_text, need_text, same name h]

theorem attributeAt?_same {site : Site} (h : K site.owner) :
    s₁.attributeAt? site = s₂.attributeAt? site := by
  rw [attributeAt?_eq, attributeAt?_eq, same _ h]

theorem recordAt_same {site : Site} (h : K site.owner) : s₁.recordAt site = s₂.recordAt site := by
  rw [recordAt, recordAt, attributeAt?_same same h]

theorem attributeAt_same {site : Site} (h : K site.owner) :
    s₁.attributeAt site = s₂.attributeAt site := by
  rw [attributeAt, attributeAt, attributeAt?_same same h]

theorem find_same {type : Value} (h : ∀ name, type = .text name → K name) :
    s₁.find type = s₂.find type := by
  cases type with
  | text name => exact congrArg Except.ok (same name (h name rfl))
  | _ => rfl

theorem needType_same {type : Value} (h : ∀ name, type = .text name → K name) :
    s₁.need type = s₂.need type := by
  rw [need, need, find_same same h]

theorem sizeOf_same {v : Value} (h : ∀ name, v.need "type" = .ok (.text name) → K name) :
    s₁.sizeOf v = s₂.sizeOf v := by
  unfold sizeOf
  cases htype : v.need "type" with
  | error fault => rfl
  | ok type =>
    have hneed : s₁.need type = s₂.need type := by
      refine needType_same same fun name hname => h name ?_
      rw [htype, hname]
    simp only [ok_bind, hneed]

theorem sortOf_same {type : Value} (h : ∀ name, type = .text name → K name) :
    s₁.sortOf type = s₂.sortOf type := by
  rw [sortOf, sortOf, find_same same h]

theorem className_same {type : Value} (user : Value) (h : ∀ name, type = .text name → K name) :
    s₁.className type user = s₂.className type user := by
  unfold className
  cases user.need "type" with
  | error fault => rfl
  | ok sort =>
    cases type with
    | text name => simp only [Value.joined_text, ok_bind, same name (h name rfl)]
    | _ => rfl

theorem typeOf_same (t : Target) {v : Value} (kind : Kind)
    (h : ∀ name, v.need "type" = .ok (.text name) → K name) :
    t.typeOf s₁ v kind = t.typeOf s₂ v kind := by
  unfold Target.typeOf
  rw [sizeOf_same same h]
  cases htype : v.need "type" with
  | error fault => rfl
  | ok type =>
    have hclass : s₁.className type v = s₂.className type v := by
      refine className_same same v fun name hname => h name ?_
      rw [htype, hname]
    simp only [ok_bind, hclass]

theorem findBase_same {layout : List Value}
    (h : ∀ v ∈ layout, ∀ name, v.need "type" = .ok (.text name) → K name) :
    ClassModel.findBase s₁ layout = ClassModel.findBase s₂ layout := by
  induction layout with
  | nil => rfl
  | cons v layout ih =>
    rw [ClassModel.findBase, ClassModel.findBase, ih fun w hw => h w (List.mem_cons_of_mem _ hw)]
    cases htype : v.need "type" with
    | error fault => rfl
    | ok type =>
      have hnames : ∀ name, type = .text name → K name := fun name hname =>
        h v List.mem_cons_self name (by rw [htype, hname])
      simp only [ok_bind, needType_same same hnames, className_same same _ hnames]

end Reads

/-- A change of a type on both sides. -/
theorem get?_update_same {K : String → Prop} {s s' : Schema}
    (same : ∀ type, K type → s.get? type = s'.get? type) (owner : String) (change : Value → Value) :
    ∀ type, K type → (s.update owner change).get? type = (s'.update owner change).get? type := by
  intro type htype
  rw [get?_update, get?_update, same type htype]

/-- The types that are read at an attribute are known: the one that declares it and the one that it
names. -/
structure Reads (K : String → Prop) (s : Schema) (site : Site) : Prop where
  owner : K site.owner
  type {r : Record} {name : String} (stands : s.attributeAt? site = some r)
    (names : r.get? "type" = some (.text name)) : K name

namespace Reads
variable {K : String → Prop} {s : Schema} {site : Site} {r : Record}

theorem need_type (h : s.Reads K site) (hr : s.recordAt site = .ok r) (name : String)
    (hn : r.value.need "type" = .ok (.text name)) : K name :=
  h.type (recordAt_eq_ok.1 hr) (Record.need_eq_ok.1 hn)

theorem type_getD (h : s.Reads K site) (hr : s.recordAt site = .ok r) (name : String)
    (hn : (r.get? "type").getD .null = .text name) : K name := by
  refine h.type (recordAt_eq_ok.1 hr) ?_
  cases hg : r.get? "type" with
  | none => simp [hg] at hn
  | some type => simpa [hg] using hn

end Reads

theorem need_attributeAt {s : Schema} {site : Site} {key : String} {v : Value}
    (h : (s.attributeAt site).need key = .ok v) :
    ∃ r, s.attributeAt? site = some r ∧ r.get? key = some v := by
  unfold attributeAt at h
  cases hr : s.attributeAt? site with
  | none => simp [hr, Record.need, Record.get?, require] at h
  | some r =>
    rw [hr] at h
    exact ⟨r, rfl, Record.need_eq_ok.1 h⟩

end Schema

namespace ClassModel
open Schema
section
variable {K : String → Prop} {s₁ s₂ : Schema} (same : ∀ name, K name → s₁.get? name = s₂.get? name)
include same

theorem memberOf_same (t : Target) {site : Site} (h : s₁.Reads K site) :
    memberOf t s₁ site = memberOf t s₂ site := by
  unfold memberOf
  rw [← recordAt_same same h.owner, ← need_same same h.owner]
  cases hr : s₁.recordAt site with
  | error fault => rfl
  | ok r =>
    simp only [ok_bind, sizeOf_same same (h.need_type hr), typeOf_same same t _ (h.need_type hr),
      sortOf_same same (h.type_getD hr), className_same same _ (h.type_getD hr)]

theorem constantOf_same (t : Target) {site : Site} (h : s₁.Reads K site) :
    constantOf t s₁ site = constantOf t s₂ site := by
  unfold constantOf
  rw [← recordAt_same same h.owner, ← need_same same h.owner]
  cases hr : s₁.recordAt site with
  | error fault => rfl
  | ok r =>
    simp only [ok_bind, sizeOf_same same (h.need_type hr), typeOf_same same t _ (h.need_type hr),
      sortOf_same same (h.type_getD hr)]

end
end ClassModel

namespace Schema
variable {s s₁ s₂ : Schema} {name : String}

theorem Composes.inlines {owner type : String} (h : s.Composes name owner) {site : Site}
    (hs : site ∈ s.sites owner) (hi : s.inlined? site = some type) : s.Composes name type :=
  h.tail ⟨site, hs, hi⟩

/-- What a walk meets belongs to structures that compose the class. -/
theorem composes_of_met {limit : Nat} {owner : String} (h : s.Composes name owner) {site : Site}
    (hs : site ∈ s.met limit owner) : s.Composes name site.owner := by
  induction limit generalizing owner with
  | zero => cases hs
  | succ limit ih =>
    rw [met_succ] at hs
    obtain ⟨top, htop, hs⟩ := List.mem_flatMap.1 hs
    rcases List.mem_cons.1 hs with rfl | hs
    · rwa [owner_of_mem_sites htop]
    · unfold behind at hs
      cases hi : s.inlined? top with
      | none => simp [hi] at hs
      | some type =>
        simp only [hi] at hs
        exact ih (h.inlines htop hi) hs

/-- What the class of a structure reads at the attributes that it takes lies in its closure. -/
theorem Composes.reads {s' : Schema} (hs : s'.settled = s.settled) {site : Site}
    (h : s.Composes name site.owner) : s'.Reads (s.Closure name) site where
  owner := .taken h
  type {r type} hr hn := by
    have hsettled := congrArg (·.attributeAt? site) hs
    simp only [attributeAt?_settled, hr, Option.map_some] at hsettled
    obtain ⟨r₀, hr₀, hsame⟩ := Option.map_eq_some_iff.1 hsettled.symm
    refine .named h hr₀ ?_
    rw [← Record.get?_settled r₀ (by simp) (by simp), hsame, Record.get?_settled r (by simp) (by simp), hn]

/-- Two schemas that declare the types on which a class depends alike. -/
def AlikeFor (name : String) (s₁ s₂ : Schema) : Prop :=
  ∀ type, s₁.Closure name type → s₁.get? type = s₂.get? type

theorem sites_same (h : AlikeFor name s₁ s₂) {owner : String} (hc : s₁.Composes name owner) :
    s₁.sites owner = s₂.sites owner := by
  rw [sites, sites, need_same h (.taken hc)]

theorem inlined?_same (h : AlikeFor name s₁ s₂) {site : Site} (hc : s₁.Composes name site.owner) :
    s₁.inlined? site = s₂.inlined? site := by
  rw [inlined?, inlined?, attributeAt?_same h (.taken hc)]

theorem tour_same (h : AlikeFor name s₁ s₂) (limit : Nat) {owner : String}
    (hc : s₁.Composes name owner) : s₁.tour limit owner = s₂.tour limit owner := by
  induction limit generalizing owner with
  | zero => rfl
  | succ limit ih =>
    rw [tour, tour, ← sites_same h hc]
    congr 1
    apply List.flatMap_congr
    intro site hsite
    have howner : s₁.Composes name site.owner := by rwa [owner_of_mem_sites hsite]
    rw [← inlined?_same h howner]
    cases hi : s₁.inlined? site with
    | none => rfl
    | some type => simp only [ih (hc.inlines hsite hi)]

/-- Two schemas that declare the types on which a class depends alike, and in both of which the walk
through its structure comes to an end. -/
structure Parallel (name : String) (s₁ s₂ : Schema) : Prop where
  alike : AlikeFor name s₁ s₂
  ends₁ : Stop.endless ∉ s₁.tour s₁.depthLimit name
  ends₂ : Stop.endless ∉ s₂.tour s₂.depthLimit name

namespace Parallel
variable (h : Parallel name s₁ s₂)
include h

theorem tour_eq : s₁.tour s₁.depthLimit name = s₂.tour s₂.depthLimit name := by
  have hsame := tour_same h.alike s₂.depthLimit (.refl : s₁.Composes name name)
  have hends : Stop.endless ∉ s₁.tour s₂.depthLimit name := hsame ▸ h.ends₂
  rw [tour_eq_of_finite h.ends₁ hends, hsame]

theorem met_eq : s₁.met (s₁.depthLimit + 1) name = s₂.met (s₂.depthLimit + 1) name := by
  rw [met, met, tour_succ h.ends₁, tour_succ h.ends₂, h.tour_eq]

/-- Searches through the structure that both succeed find the same. -/
theorem findSite_eq {s₁' s₂' : Schema} (hs₁ : s₁'.settled = s₁.settled)
    (hs₂ : s₂'.settled = s₂.settled)
    (same : ∀ type, s₁.Closure name type → s₁'.get? type = s₂'.get? type) {key : String} {value : Value}
    {found₁ found₂ : Option Site} (h₁ : s₁'.findSite name key value = .ok found₁)
    (h₂ : s₂'.findSite name key value = .ok found₂) :
    found₁ = found₂ ∧ ∀ site ∈ found₁, s₁.Composes name site.owner := by
  have hmet₁ : s₁'.met (s₁'.depthLimit + 1) name = s₁.met (s₁.depthLimit + 1) name := by
    rw [met, met, ← tour_settled, ← depthLimit_settled, hs₁, tour_settled, depthLimit_settled]
  have hmet₂ : s₂'.met (s₂'.depthLimit + 1) name = s₁.met (s₁.depthLimit + 1) name := by
    rw [h.met_eq, met, met, ← tour_settled, ← depthLimit_settled, hs₂, tour_settled,
      depthLimit_settled]
  have hfound₁ := findSite_eq_find? h₁
  have hfound₂ := findSite_eq_find? h₂
  rw [hmet₁] at hfound₁
  rw [hmet₂] at hfound₂
  have hcomposes : ∀ site ∈ s₁.met (s₁.depthLimit + 1) name, s₁.Composes name site.owner :=
    fun site hsite => composes_of_met .refl hsite
  refine ⟨?_, fun site hsite => ?_⟩
  · rw [hfound₁, hfound₂]
    apply List.find?_congr
    intro site hsite
    rw [hasAt, hasAt, attributeAt_same same (.taken (hcomposes site hsite))]
  · rw [Option.mem_def, hfound₁] at hsite
    exact hcomposes site (List.mem_of_find?_eq_some hsite)

end Parallel
end Schema

/-- Where the text of an entry looks: at its attribute, at the array that it counts and at its
discriminator. -/
def Entry.sites (e : Entry) : List Site := e.site :: (e.parent.toList ++ e.conditionSite.toList)

/-- Two drafts of a class that are made in step from two schemas. -/
structure Draft.InStep (name : String) (s₁ s₂ : Schema) (d₁ d₂ : Draft) : Prop where
  settled₁ : d₁.schema.settled = s₁.settled
  settled₂ : d₂.schema.settled = s₂.settled
  same : ∀ type, s₁.Closure name type → d₁.schema.get? type = d₂.schema.get? type
  entries : d₁.entries = d₂.entries
  constants : d₁.constants = d₂.constants
  imports : d₁.imports = d₂.imports
  taken : ∀ e ∈ d₁.entries, ∀ site ∈ e.sites, s₁.Composes name site.owner

theorem Draft.InStep.withSchema {name : String} {s₁ s₂ : Schema} {d₁ d₂ : Draft}
    (hd : d₁.InStep name s₁ s₂ d₂) {s s' : Schema} (hs : s.settled = d₁.schema.settled)
    (hs' : s'.settled = d₂.schema.settled)
    (same : ∀ type, s₁.Closure name type → s.get? type = s'.get? type) :
    ({ d₁ with schema := s } : Draft).InStep name s₁ s₂ { d₂ with schema := s' } where
  settled₁ := hs.trans hd.settled₁
  settled₂ := hs'.trans hd.settled₂
  same := same
  entries := hd.entries
  constants := hd.constants
  imports := hd.imports
  taken := hd.taken

namespace ClassModel
open Schema Drafting
variable {name : String} {s₁ s₂ : Schema} {d₁ d₂ : Draft}

theorem entryOf_same (h : Parallel name s₁ s₂) (hd : d₁.InStep name s₁ s₂ d₂) {f : Frame}
    (hf : f.name = name) {site : Site} (hsite : s₁.Composes name site.owner)
    {aggregate : Option Aggregate} {e₁ e₂ : Entry}
    (h₁ : entryOf f d₁.schema d₁.entries site aggregate = .ok e₁)
    (h₂ : entryOf f d₂.schema d₂.entries site aggregate = .ok e₂) :
    e₁ = e₂ ∧ ∀ site ∈ e₁.sites, s₁.Composes name site.owner := by
  have hreads := hsite.reads hd.settled₁
  have hmember := memberOf_same hd.same f.target hreads
  have hrecord := recordAt_same hd.same hreads.owner
  obtain ⟨member, hm₁, h₁⟩ := bind_eq_ok.1 h₁
  obtain ⟨member₂, hm₂, h₂⟩ := bind_eq_ok.1 h₂
  obtain rfl : member = member₂ := Except.ok.inj (hm₁.symm.trans (hmember.trans hm₂))
  obtain ⟨r, hr₁, h₁⟩ := bind_eq_ok.1 h₁
  obtain ⟨r₂, hr₂, h₂⟩ := bind_eq_ok.1 h₂
  obtain rfl : r = r₂ := Except.ok.inj (hr₁.symm.trans (hrecord.trans hr₂))
  obtain ⟨condition, hc₁, h₁⟩ := bind_eq_ok.1 h₁
  obtain ⟨condition₂, hc₂, h₂⟩ := bind_eq_ok.1 h₂
  obtain ⟨parent, hp₁, h₁⟩ := bind_eq_ok.1 h₁
  obtain ⟨parent₂, hp₂, h₂⟩ := bind_eq_ok.1 h₂
  rw [hf] at hc₁ hc₂ hp₁ hp₂
  obtain ⟨rfl, hparent⟩ := h.findSite_eq hd.settled₁ hd.settled₂ hd.same hp₁ hp₂
  obtain ⟨rfl, hcondition⟩ : condition = condition₂ ∧
      ∀ site ∈ condition, s₁.Composes name site.owner := by
    unfold discriminatorOf at hc₁ hc₂
    cases hc : r.get? "condition" with
    | none =>
      rw [hc] at hc₁ hc₂
      obtain rfl := Except.ok.inj hc₁
      obtain rfl := Except.ok.inj hc₂
      exact ⟨rfl, by simp⟩
    | some c =>
      rw [hc] at hc₁ hc₂
      exact h.findSite_eq hd.settled₁ hd.settled₂ hd.same hc₁ hc₂
  obtain rfl := Except.ok.inj h₁
  obtain rfl := Except.ok.inj h₂
  have hmembersite : member.site = site := by
    obtain ⟨r, hx⟩ := memberFrom_of_memberOf hm₁
    exact hx.site
  refine ⟨by rw [hd.entries], ?_⟩
  simp only [Entry.sites, List.mem_cons, List.mem_append, Option.mem_toList]
  rintro site' (rfl | hsite' | hsite')
  · rwa [hmembersite]
  · exact hparent site' hsite'
  · exact hcondition site' hsite'

section
variable {α β : Type}

/-- Steps that keep two drafts in step and have the same result, as long as they succeed on both. -/
def Together (name : String) (s₁ s₂ : Schema) (steps : Drafting α) (d₁ d₂ : Draft) : Prop :=
  ∀ a₁ a₂ d₁' d₂', runOn steps d₁ = (.ok a₁, d₁') → runOn steps d₂ = (.ok a₂, d₂') →
    a₁ = a₂ ∧ d₁'.InStep name s₁ s₂ d₂'

theorem Together.bind {steps : Drafting α} {next : α → Drafting β}
    (h : Together name s₁ s₂ steps d₁ d₂)
    (hn : ∀ a d₁' d₂', d₁'.InStep name s₁ s₂ d₂' → runOn steps d₁ = (.ok a, d₁') →
      runOn steps d₂ = (.ok a, d₂') → Together name s₁ s₂ (next a) d₁' d₂') :
    Together name s₁ s₂ (steps >>= next) d₁ d₂ := by
  intro b₁ b₂ d₁' d₂' h₁ h₂
  obtain ⟨a₁, e₁, ha₁, hb₁⟩ := runOn_bind_eq_ok.1 h₁
  obtain ⟨a₂, e₂, ha₂, hb₂⟩ := runOn_bind_eq_ok.1 h₂
  obtain ⟨rfl, he⟩ := h a₁ a₂ e₁ e₂ ha₁ ha₂
  exact hn a₁ e₁ e₂ he ha₁ ha₂ b₁ b₂ d₁' d₂' hb₁ hb₂

theorem together_lift (hd : d₁.InStep name s₁ s₂ d₂) (x : Checked α) :
    Together name s₁ s₂ (liftM x) d₁ d₂ := by
  intro a₁ a₂ d₁' d₂' h₁ h₂
  rw [runOn_lift, Prod.mk.injEq] at h₁ h₂
  obtain ⟨hx₁, rfl⟩ := h₁
  obtain ⟨hx₂, rfl⟩ := h₂
  exact ⟨Except.ok.inj (hx₁.symm.trans hx₂), hd⟩

theorem together_pure (hd : d₁.InStep name s₁ s₂ d₂) (a : α) :
    Together name s₁ s₂ (pure a) d₁ d₂ := by
  rintro a₁ a₂ d₁' d₂' ⟨rfl, rfl⟩ ⟨rfl, rfl⟩
  exact ⟨rfl, hd⟩

theorem Together.map {steps : Drafting α} (h : Together name s₁ s₂ steps d₁ d₂) (g : α → β) :
    Together name s₁ s₂ (g <$> steps) d₁ d₂ := by
  rw [map_eq_pure_bind]
  exact h.bind fun a d₁' d₂' hd' _ _ => together_pure hd' (g a)

end

theorem together_tell (hd : d₁.InStep name s₁ s₂ d₂) (line : String) :
    Together name s₁ s₂ (tell line) d₁ d₂ := by
  rintro a₁ a₂ d₁' d₂' ⟨-, rfl⟩ ⟨-, rfl⟩
  exact ⟨rfl, ⟨hd.settled₁, hd.settled₂, hd.same, hd.entries, hd.constants, hd.imports, hd.taken⟩⟩

theorem together_attributeAt (hd : d₁.InStep name s₁ s₂ d₂) {site : Site}
    (hsite : s₁.Composes name site.owner) :
    Together name s₁ s₂ (attributeAt site) d₁ d₂ := by
  intro a₁ a₂ d₁' d₂' h₁ h₂
  rw [runOn_attributeAt, Prod.mk.injEq] at h₁ h₂
  obtain ⟨hr₁, rfl⟩ := h₁
  obtain ⟨hr₂, rfl⟩ := h₂
  rw [recordAt_same hd.same (.taken hsite)] at hr₁
  exact ⟨Except.ok.inj (hr₁.symm.trans hr₂), hd⟩

theorem inStep_noteOwner (hd : d₁.InStep name s₁ s₂ d₂) (site : Site) :
    ({ d₁ with schema := d₁.schema.noteOwner name site } : Draft).InStep name s₁ s₂
      { d₂ with schema := d₂.schema.noteOwner name site } := by
  refine hd.withSchema (settled_noteOwner ..) (settled_noteOwner ..) ?_
  unfold noteOwner
  split
  · exact hd.same
  · exact get?_update_same hd.same _ _

theorem together_addEntry (h : Parallel name s₁ s₂) (hd : d₁.InStep name s₁ s₂ d₂) {f : Frame}
    (hf : f.name = name) {site : Site} (hsite : s₁.Composes name site.owner)
    (aggregate : Option Aggregate) : Together name s₁ s₂ (addEntry f site aggregate) d₁ d₂ := by
  intro a₁ a₂ d₁' d₂' h₁ h₂
  simp only [addEntry, runOn_bind, runOn_get, runOn_lift] at h₁ h₂
  cases he₁ : entryOf f d₁.schema d₁.entries site aggregate with
  | error fault => simp [he₁] at h₁
  | ok e =>
    cases he₂ : entryOf f d₂.schema d₂.entries site aggregate with
    | error fault => simp [he₂] at h₂
    | ok e₂ =>
      obtain ⟨rfl, htaken⟩ := entryOf_same h hd hf hsite he₁ he₂
      simp only [he₁, he₂, runOn_set, Prod.mk.injEq] at h₁ h₂
      obtain ⟨-, rfl⟩ := h₁
      obtain ⟨-, rfl⟩ := h₂
      refine ⟨rfl, ⟨hd.settled₁, hd.settled₂, hd.same, ?_, hd.constants, ?_, ?_⟩⟩
      · simp only [hd.entries]
      · simp only [hd.imports]
      · intro e' he'
        rcases List.mem_append.1 he' with he' | he'
        · exact hd.taken e' he'
        · obtain rfl := List.mem_singleton.1 he'
          exact htaken

theorem together_addConstant (hd : d₁.InStep name s₁ s₂ d₂) (f : Frame) {site : Site}
    (hsite : s₁.Composes name site.owner) : Together name s₁ s₂ (addConstant f site) d₁ d₂ := by
  intro a₁ a₂ d₁' d₂' h₁ h₂
  have hconstant := constantOf_same hd.same f.target (hsite.reads hd.settled₁)
  simp only [addConstant, runOn_bind, runOn_schema, runOn_tell, runOn_lift, ← hconstant] at h₁ h₂
  cases hc : constantOf f.target d₁.schema site with
  | error fault => simp [hc] at h₁
  | ok c =>
    simp only [hc, runOn_modify, Prod.mk.injEq] at h₁ h₂
    obtain ⟨-, rfl⟩ := h₁
    obtain ⟨-, rfl⟩ := h₂
    refine ⟨rfl, ⟨hd.settled₁, hd.settled₂, hd.same, hd.entries, ?_, hd.imports, hd.taken⟩⟩
    simp only [hd.constants]

section
variable (h : Parallel name s₁ s₂) {f : Frame} (hf : f.name = name) {site : Site}
  (hsite : s₁.Composes name site.owner) (aggregate : Option Aggregate) (depth : Nat)
include h hf hsite

theorem together_visit (hd : d₁.InStep name s₁ s₂ d₂) :
    Together name s₁ s₂ (visit f site aggregate depth) d₁ d₂ := by
  unfold visit
  refine (together_attributeAt hd hsite).bind fun r _ _ hd _ _ => ?_
  refine (together_lift hd _).bind fun named _ _ hd _ _ => ?_
  refine (together_lift hd _).bind fun text _ _ hd _ _ => ?_
  refine (together_tell hd _).bind fun _ _ _ hd _ _ => ?_
  exact together_addEntry h hd hf hsite aggregate

theorem together_takePlain (hd : d₁.InStep name s₁ s₂ d₂) (r : Record) :
    Together name s₁ s₂ (takePlain f r site aggregate depth) d₁ d₂ := by
  unfold takePlain
  split
  · exact together_addConstant hd f hsite
  · split
    · exact together_visit h hf hsite aggregate depth hd
    · exact together_pure hd ()

theorem together_takeInline (hd : d₁.InStep name s₁ s₂ d₂) {r : Record}
    (hr : d₁.schema.attributeAt? site = some r) (hi : r.isInline = true) :
    Together name s₁ s₂ (takeInline f r site aggregate depth) d₁ d₂ := by
  have hr₂ : d₂.schema.attributeAt? site = some r := by
    rw [← attributeAt?_same hd.same (.taken hsite), hr]
  unfold takeInline
  refine (together_lift hd _).bind fun type e₁ e₂ hd htype htype₂ => ?_
  rw [runOn_lift, Prod.mk.injEq] at htype htype₂
  obtain ⟨htype, rfl⟩ := htype
  obtain ⟨-, rfl⟩ := htype₂
  refine (together_lift hd _).bind fun lower e₁ e₂ hd hlower hlower₂ => ?_
  rw [runOn_lift, Prod.mk.injEq] at hlower hlower₂
  obtain ⟨hlower, rfl⟩ := hlower
  obtain ⟨-, rfl⟩ := hlower₂
  have hname : r.inlineName? = some lower := by
    simp [Record.inlineName?, hi, Record.need_eq_ok.1 htype, hlower, Except.toOption]
  have hwrite : Together name s₁ s₂ (writeEntry site "name" lower) d₁ d₂ := by
    rintro a₁ a₂ d₁' d₂' ⟨-, rfl⟩ ⟨-, rfl⟩
    refine ⟨rfl, hd.withSchema (settled_setName hr hname) (settled_setName hr₂ hname) ?_⟩
    exact get?_update_same hd.same _ _
  refine hwrite.bind fun _ _ _ hd _ _ => ?_
  refine Together.bind ?_ fun _ _ _ hd _ _ => together_lift hd _
  split
  · exact together_pure hd ()
  · exact together_visit h hf hsite aggregate depth hd

theorem together_meet (hd : d₁.InStep name s₁ s₂ d₂) :
    Together name s₁ s₂ (meet f site aggregate depth) d₁ d₂ := by
  unfold meet
  have hnote : Together name s₁ s₂
      (modify fun d : Draft => { d with schema := d.schema.noteOwner f.name site }) d₁ d₂ := by
    rintro a₁ a₂ d₁' d₂' ⟨-, rfl⟩ ⟨-, rfl⟩
    rw [hf]
    exact ⟨rfl, inStep_noteOwner hd site⟩
  refine hnote.bind fun _ _ _ hd _ _ => ?_
  refine (together_attributeAt hd hsite).bind fun r e₁ e₂ hd' hr hr₂ => ?_
  rw [runOn_attributeAt, Prod.mk.injEq] at hr hr₂
  obtain ⟨hr, rfl⟩ := hr
  obtain ⟨-, rfl⟩ := hr₂
  split
  · rename_i hi
    exact (together_takeInline h hf hsite aggregate depth hd (recordAt_eq_ok.1 hr) hi).map _
  · exact (together_takePlain h hf hsite aggregate depth hd r).map _

end

theorem together_pass (h : Parallel name s₁ s₂) {f : Frame} (hf : f.name = name) {stop : Stop}
    (hstop : ∀ site ∈ stop.site?, s₁.Composes name site.owner) (hd : d₁.InStep name s₁ s₂ d₂) :
    Together name s₁ s₂ (pass f stop) d₁ d₂ := by
  cases stop with
  | enter path owner =>
    intro a₁ a₂ d₁' d₂' h₁ h₂
    simp only [pass, runOn_bind, runOn_tell, runOn_layout] at h₁ h₂
    cases hl₁ : d₁.schema.need owner >>= Value.layout with
    | error fault => simp [hl₁] at h₁
    | ok layout₁ =>
      cases hl₂ : d₂.schema.need owner >>= Value.layout with
      | error fault => simp [hl₂] at h₂
      | ok layout₂ =>
        simp only [hl₁, hl₂, runOn_pure, Prod.mk.injEq] at h₁ h₂
        obtain ⟨-, rfl⟩ := h₁
        obtain ⟨-, rfl⟩ := h₂
        exact ⟨rfl, hd.settled₁, hd.settled₂, hd.same, hd.entries, hd.constants, hd.imports, hd.taken⟩
  | meet path site => exact (together_meet h hf (hstop site rfl) _ _ hd).map _
  | endless =>
    intro a₁ a₂ d₁' d₂' h₁
    simp [pass] at h₁

theorem together_passes (h : Parallel name s₁ s₂) {f : Frame} (hf : f.name = name)
    {stops : List Stop} (hstops : ∀ stop ∈ stops, ∀ site ∈ stop.site?, s₁.Composes name site.owner)
    (hd : d₁.InStep name s₁ s₂ d₂) : Together name s₁ s₂ (forM stops (pass f)) d₁ d₂ := by
  induction stops generalizing d₁ d₂ with
  | nil => exact together_pure hd ()
  | cons stop stops ih =>
    rw [List.forM_cons]
    refine (together_pass h hf (hstops stop List.mem_cons_self) hd).bind fun _ _ _ hd _ _ => ?_
    exact ih (fun stop' hstop' => hstops stop' (List.mem_cons_of_mem _ hstop')) hd

section
variable (hd : d₁.InStep name s₁ s₂ d₂)
include hd

theorem equalities_same {entries : List Entry}
    (he : ∀ e ∈ entries, ∀ site ∈ e.sites, s₁.Composes name site.owner) :
    equalities d₁.schema entries = equalities d₂.schema entries := by
  induction entries with
  | nil => rfl
  | cons e entries ih =>
    have htaken := he e List.mem_cons_self
    have hown := attributeAt_same hd.same (.taken (htaken e.site List.mem_cons_self))
    rw [equalities, equalities, ih fun e' he' => he e' (List.mem_cons_of_mem _ he'), hown]
    cases hc : e.conditionSite with
    | none => rfl
    | some site =>
      have hsite : s₁.Composes name site.owner := htaken site (by simp [Entry.sites, hc])
      have hreads := hsite.reads hd.settled₁
      have hat := attributeAt_same hd.same hreads.owner
      simp only [← hat]
      cases htype : (d₁.schema.attributeAt site).need "type" with
      | error fault => rfl
      | ok type =>
        have hneed : d₁.schema.need type = d₂.schema.need type := by
          refine needType_same hd.same fun typeName htypeName => ?_
          subst htypeName
          obtain ⟨r, hr, hget⟩ := need_attributeAt htype
          exact hreads.type hr hget
        simp only [ok_bind, hneed]

theorem asked_same {p : Entry × Value} (hp : ∀ site ∈ p.1.sites, s₁.Composes name site.owner) :
    asked d₁.schema p = asked d₂.schema p := by
  obtain ⟨e, value⟩ := p
  have hown := attributeAt_same hd.same (.taken (hp e.site List.mem_cons_self))
  simp only [asked, hown]
  cases hc : e.conditionSite with
  | none => rfl
  | some site =>
    have hat := attributeAt_same hd.same (.taken (hp site (by simp [Entry.sites, hc])))
    simp only [hat]

theorem choose_same (c : Choice) {e : Entry} (he : ∀ site ∈ e.sites, s₁.Composes name site.owner) :
    choose d₁.schema c e = choose d₂.schema c e := by
  have hown := attributeAt_same hd.same (.taken (he e.site List.mem_cons_self))
  rw [choose, choose, hown]

theorem constructorsOf_same {entries parameters : List Entry}
    (he : ∀ e ∈ entries, ∀ site ∈ e.sites, s₁.Composes name site.owner)
    (hp : ∀ e ∈ parameters, e ∈ entries) :
    constructorsOf d₁.schema entries parameters = constructorsOf d₂.schema entries parameters := by
  unfold constructorsOf
  rw [← equalities_same hd he]
  cases heqs : equalities d₁.schema entries with
  | error fault => rfl
  | ok eqs =>
    have hchoices : choices d₁.schema eqs = choices d₂.schema eqs := by
      unfold choices
      cases hnamed : eqs.mapM enumerated with
      | error fault => rfl
      | ok named =>
        have hasked : named.flatten.mapM (asked d₁.schema) = named.flatten.mapM (asked d₂.schema) := by
          apply mapM_congr
          intro q hq
          obtain ⟨names, hnames, hmem⟩ := List.mem_flatten.1 hq
          obtain ⟨p, hp, hpn⟩ := mem_of_mapM hnamed hnames
          refine asked_same hd ?_
          rw [mem_enumerated hpn hmem]
          exact he p.1 (of_mem_equalities heqs hp).1
        simp only [ok_bind, hasked]
    simp only [ok_bind, ← hchoices]
    cases choices d₁.schema eqs with
    | error fault => rfl
    | ok cs =>
      simp only [ok_bind]
      split
      · rfl
      · apply mapM_congr
        intro c _
        exact mapM_congr fun e hmem => choose_same hd c (he e (hp e hmem))

theorem finish_same (f : Frame) (comments : String) : finish f comments d₁ = finish f comments d₂ := by
  have hparameters : ∀ e ∈ d₁.entries.filter (isParameter f.target), e ∈ d₁.entries := fun e he =>
    (List.mem_filter.1 he).1
  have hconstructors := constructorsOf_same hd hd.taken hparameters
  simp only [finish, hconstructors, ← hd.entries, hd.constants, hd.imports]

end

theorem frameOf_same {K : String → Prop} {s s' : Schema}
    (same : ∀ type, K type → s.get? type = s'.get? type) (hname : K name)
    (hk : ∀ v layout, (s.need name >>= Value.layout) = .ok layout → v ∈ layout →
      ∀ type, v.need "type" = .ok (.text type) → K type) (t : Target) (className : String) :
    frameOf t name className s = frameOf t name className s' := by
  unfold frameOf
  rw [← need_same same hname]
  cases hneed : s.need name with
  | error fault => rfl
  | ok declared =>
    simp only [ok_bind]
    cases hlayout : declared.layout with
    | error fault => rfl
    | ok layout =>
      have hl : (s.need name >>= Value.layout) = .ok layout := by rw [hneed]; exact hlayout
      simp only [ok_bind, findBase_same same fun v hv => hk v layout hl hv]

/-- The types that the attributes of a structure name lie in the closure of a class that takes them. -/
theorem closure_of_mem_layout {s s' : Schema} (hs : s'.settled = s.settled) {owner type : String}
    (hc : s.Composes name owner) {v : Value} {layout : List Value}
    (hl : (s'.need owner >>= Value.layout) = .ok layout) (hv : v ∈ layout)
    (hn : v.need "type" = .ok (.text type)) : s.Closure name type := by
  obtain ⟨index, hindex⟩ := List.getElem?_of_mem hv
  cases v with
  | table entries =>
    have hat : s'.attributeAt? ⟨owner, index⟩ = some ⟨entries⟩ := attributeAt?_of_layout hl hindex
    have hreads : s'.Reads (s.Closure name) ⟨owner, index⟩ := Composes.reads hs hc
    exact hreads.type hat (Record.need_eq_ok.1 hn)
  | _ => simp [Value.need] at hn

/-- Models of one structure that can be made from two schemas are the same if the schemas declare the
types alike on which the class depends. -/
theorem modelOf_same {t : Target} (h : AlikeFor name s₁ s₂) {m₁ m₂ : ClassModel}
    (h₁ : modelOf t s₁ name = .ok m₁) (h₂ : modelOf t s₂ name = .ok m₂) : m₁ = m₂ := by
  obtain ⟨className, f, comments, d₁, hclass, hframe, hpasses, hfinish⟩ := passes_of_modelOf h₁
  obtain ⟨className', f', comments', d₂, hclass', hframe', hpasses', hfinish'⟩ := passes_of_modelOf h₂
  have hself : s₁.Closure name name := .taken .refl
  have hparallel : Parallel name s₁ s₂ :=
    ⟨h, endless_notMem_of_passes hpasses, endless_notMem_of_passes hpasses'⟩
  have hs₁ := s₁.settled_setFact name (Text.lowerFirst name)
  have hs₂ := s₂.settled_setFact name (Text.lowerFirst name)
  have same := get?_update_same h name (·.put "name" (Text.lowerFirst name))
  obtain rfl : className = className' := by
    have hsame : classNameOf s₁ name = classNameOf s₂ name := by
      unfold classNameOf
      rw [need_same h hself]
      have hread : ∀ user, s₁.className name user = s₂.className name user := fun user =>
        className_same h user fun other hother => Value.text.inj hother ▸ hself
      simp only [hread]
    exact Except.ok.inj (hclass.symm.trans (hsame.trans hclass'))
  have hsame := frameOf_same same hself
    (fun v layout hl hv type hn => closure_of_mem_layout hs₁ .refl hl hv hn) t className
  obtain ⟨rfl, rfl⟩ := Prod.mk.inj (Except.ok.inj (hframe.symm.trans (hsame.trans hframe')))
  obtain ⟨-, hf, -, -⟩ := frameOf_eq_ok hframe
  have hstops : ∀ stop ∈ s₁.tour s₁.depthLimit name, ∀ site ∈ stop.site?,
      s₁.Composes name site.owner := fun stop hstop site hsite =>
    composes_of_met .refl (List.mem_filterMap.2 ⟨stop, hstop, hsite⟩)
  rw [← hparallel.tour_eq] at hpasses'
  have hstart : Draft.InStep name s₁ s₂
      { schema := s₁.setFact name "name" (Text.lowerFirst name) }
      { schema := s₂.setFact name "name" (Text.lowerFirst name) } :=
    ⟨hs₁, hs₂, same, rfl, rfl, rfl, by simp⟩
  obtain ⟨-, hd⟩ := together_passes hparallel hf hstops hstart _ _ _ _ hpasses hpasses'
  rw [finish_same hd f comments] at hfinish
  exact Except.ok.inj (hfinish.symm.trans hfinish')

end ClassModel
end SchemaForge
