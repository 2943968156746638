import SchemaForge.Proofs.Aggregates
import SchemaForge.Proofs.Search

/-! The flattening of a structure. A class takes the attributes of its structure and of all that the
structure inlines, one member for each way to an attribute, in the order in which the layouts show them.
What a member is to the class depends on the first structure on the way that gets a class itself. -/
namespace SchemaForge
open Checked

theorem Value.beq_text_iff {v : Value} {word : String} : (v == .text word) = true ↔ v = .text word := by
  constructor
  · exact Value.eq_text_of_beq
  · rintro rfl
    simp

theorem Record.is_text_iff (r : Record) {key word : String} :
    r.is key (.text word) = true ↔ r.get? key = some (.text word) := by
  unfold Record.is
  cases r.get? key with
  | none => simp
  | some v => rw [Option.any_some, Value.beq_text_iff, Option.some.injEq]

namespace Visit

/-- The positions that lead to an attribute, one in each structure on the way. -/
def address (v : Visit) : List Nat := v.path.map (·.site.index) ++ [v.site.index]

/-- The outermost inline attribute on the way whose structure gets a class. -/
def root? (v : Visit) : Option Inline := v.path.find? fun i => !isHidden i.type

theorem address_nil (site : Site) : (⟨[], site⟩ : Visit).address = [site.index] := rfl

theorem address_under (i : Inline) (v : Visit) :
    (v.under [i]).address = i.site.index :: v.address := rfl

theorem nil_lt_address (v : Visit) : [] < v.address := by
  cases h : v.address with
  | nil => simp [address] at h
  | cons index rest => exact List.nil_lt_cons index rest

theorem aggregateOf_path (v : Visit) : ClassModel.aggregateOf v.path =
    v.root?.map fun i => ⟨Text.lowerFirst i.type, i.type⟩ := rfl

end Visit

/-- The place of a stop, if there is an attribute. -/
def Stop.place? : Stop → Option Visit
  | .meet path site => some ⟨path, site⟩
  | _ => none

theorem Stop.place?_under (outer : List Inline) (stop : Stop) :
    (stop.under outer).place? = stop.place?.map (Visit.under outer) := by
  cases stop <;> rfl

theorem Stop.visit?_eq (s : Schema) (stop : Stop) :
    stop.visit? s = stop.place?.filter fun v => s.isShown v.site := by
  cases stop with
  | meet path site => by_cases h : s.isShown site = true <;> simp [visit?, place?, Option.filter, h]
  | _ => rfl

namespace Schema
variable {s : Schema} {limit : Nat} {owner : String}

/-- Inline attributes that lead from a structure to another one, each in the layout of the structure
that the one before it inlines. -/
inductive Leads (s : Schema) : String → List Inline → String → Prop where
  | here (owner : String) : Leads s owner [] owner
  | through {owner last : String} {i : Inline} {path : List Inline} (site : i.site ∈ s.sites owner)
      (inlined : s.inlined? i.site = some i.type) (rest : Leads s i.type path last) :
      Leads s owner (i :: path) last

/-- Whether inline attributes lead from a structure to the layout of an attribute. -/
def Reaches (s : Schema) (owner : String) (v : Visit) : Prop :=
  ∃ last, s.Leads owner v.path last ∧ v.site ∈ s.sites last

/-- A way through an inline attribute reaches the attribute, and goes on from its structure. -/
theorem Leads.split {last : String} {path rest : List Inline} {i : Inline}
    (h : s.Leads owner (path ++ i :: rest) last) :
    s.Reaches owner ⟨path, i.site⟩ ∧ s.inlined? i.site = some i.type ∧ s.Leads i.type rest last := by
  induction path generalizing owner with
  | nil =>
    cases h with
    | through site inlined rest => exact ⟨⟨owner, .here owner, site⟩, inlined, rest⟩
  | cons j path ih =>
    cases h with
    | through site inlined rest =>
      obtain ⟨⟨mid, hmid, hsite⟩, hinlined, hrest⟩ := ih rest
      exact ⟨⟨mid, .through site inlined hmid, hsite⟩, hinlined, hrest⟩

/-- Whether places are those with a property that are reached from a structure, each of them once, and
in the order in which the layouts show them. -/
structure Lists (s : Schema) (owner : String) (p : Site → Prop) (vs : List Visit) : Prop where
  mem : ∀ v, v ∈ vs ↔ s.Reaches owner v ∧ p v.site
  sorted : vs.Pairwise fun v w => v.address < w.address

/-- All places on the tour through a structure. -/
def places (s : Schema) (limit : Nat) (owner : String) : List Visit :=
  (s.tour limit owner).filterMap Stop.place?

theorem places_succ (s : Schema) (limit : Nat) (owner : String) :
    s.places (limit + 1) owner = (s.sites owner).flatMap fun site =>
      ⟨[], site⟩ :: match s.inlined? site with
        | some type => (s.places limit type).map (Visit.under [⟨site, type⟩])
        | none => [] := by
  rw [places, tour, List.filterMap_cons_none rfl, List.filterMap_flatMap]
  congr 1
  funext site
  rw [List.filterMap_cons_some (f := Stop.place?) (b := ⟨[], site⟩) rfl]
  cases s.inlined? site with
  | none => rfl
  | some type => simp [places, List.filterMap_map, List.map_filterMap, Stop.place?_under]

theorem visits_eq_filter (s : Schema) (limit : Nat) (owner : String) :
    s.visits limit owner = (s.places limit owner).filter fun v => s.isShown v.site := by
  rw [visits, places, List.filter_filterMap]
  exact congrArg (fun f => (s.tour limit owner).filterMap f) (funext (Stop.visit?_eq s))

/-- A tour that ends before its limit comes to all places that are reached. -/
theorem mem_places (h : Stop.endless ∉ s.tour limit owner) {v : Visit} :
    v ∈ s.places limit owner ↔ s.Reaches owner v := by
  induction limit generalizing owner v with
  | zero => simp [tour] at h
  | succ limit ih =>
    rw [places_succ, List.mem_flatMap]
    constructor
    · rintro ⟨site, hsite, hv⟩
      rcases List.mem_cons.1 hv with rfl | hv
      · exact ⟨owner, .here owner, hsite⟩
      · cases hin : s.inlined? site with
        | none => simp [hin] at hv
        | some type =>
          simp only [hin] at hv
          obtain ⟨w, hw, rfl⟩ := List.mem_map.1 hv
          obtain ⟨last, hleads, hlast⟩ := (ih (endless_notMem_inner h hsite hin)).1 hw
          exact ⟨last, .through hsite hin hleads, hlast⟩
    · obtain ⟨path, site⟩ := v
      rintro ⟨last, hleads, hlast⟩
      cases hleads with
      | here => exact ⟨site, hlast, List.mem_cons_self⟩
      | @through _ _ i path hsite hin hrest =>
        have hw : ⟨path, site⟩ ∈ s.places limit i.type :=
          (ih (endless_notMem_inner h hsite hin)).2 ⟨last, hrest, hlast⟩
        refine ⟨i.site, hsite, List.mem_cons_of_mem _ ?_⟩
        rw [hin]
        exact List.mem_map.2 ⟨⟨path, site⟩, hw, rfl⟩

theorem sites_sorted (s : Schema) (owner : String) :
    (s.sites owner).Pairwise fun a b => a.index < b.index := by
  unfold sites
  split
  · exact List.pairwise_map.2 List.pairwise_lt_range
  · exact .nil

/-- The places of a tour stand in the order of their addresses. -/
theorem places_sorted (s : Schema) (limit : Nat) (owner : String) :
    (s.places limit owner).Pairwise fun v w => v.address < w.address := by
  induction limit generalizing owner with
  | zero => exact .nil
  | succ limit ih =>
    rw [places_succ, List.pairwise_flatMap]
    constructor
    · intro site _
      cases s.inlined? site with
      | none => exact List.pairwise_singleton _ _
      | some type =>
        refine List.pairwise_cons.2 ⟨?_, List.pairwise_map.2 ((ih type).imp ?_)⟩
        · intro w hw
          obtain ⟨v, -, rfl⟩ := List.mem_map.1 hw
          rw [Visit.address_nil, Visit.address_under, List.cons_lt_cons_iff]
          exact .inr ⟨rfl, v.nil_lt_address⟩
        · intro v w hvw
          rw [Visit.address_under, Visit.address_under, List.cons_lt_cons_iff]
          exact .inr ⟨rfl, hvw⟩
    · -- What stands at or behind an attribute has the position of the attribute in front.
      have hfirst : ∀ site v, v ∈ ((⟨[], site⟩ : Visit) :: match s.inlined? site with
          | some type => (s.places limit type).map (Visit.under [⟨site, type⟩])
          | none => []) → ∃ rest, v.address = site.index :: rest := by
        intro site v hv
        rcases List.mem_cons.1 hv with rfl | hv
        · exact ⟨[], rfl⟩
        · cases hin : s.inlined? site with
          | none => simp [hin] at hv
          | some type =>
            simp only [hin] at hv
            obtain ⟨w, -, rfl⟩ := List.mem_map.1 hv
            exact ⟨w.address, rfl⟩
      refine (s.sites_sorted owner).imp ?_
      intro a b hab v hv w hw
      obtain ⟨rest, hrest⟩ := hfirst a v hv
      obtain ⟨rest', hrest'⟩ := hfirst b w hw
      rw [hrest, hrest', List.cons_lt_cons_iff]
      exact .inl hab

theorem lists_filter (h : Stop.endless ∉ s.tour limit owner) {test : Site → Bool} {p : Site → Prop}
    (hp : ∀ site, test site = true ↔ p site) :
    s.Lists owner p ((s.places limit owner).filter fun v => test v.site) where
  mem v := by rw [List.mem_filter, mem_places h, hp]
  sorted := (s.places_sorted limit owner).filter _

/-- Whether classes take an attribute as a member: an inline one if its structure gets a class, and any
other one without a disposition or with one of the two that make arrays. -/
def Takes (s : Schema) (site : Site) : Prop := ∃ r, s.attributeAt? site = some r ∧
  (r.get? "disposition" = some (.text "inline") ∧
      (∃ type, r.get? "type" = some type ∧ isHidden type = false) ∨
    r.get? "disposition" = none ∨ r.get? "disposition" = some (.text "var") ∨
    r.get? "disposition" = some (.text "fill"))

/-- Whether an attribute has a fixed value. -/
def Fixes (s : Schema) (site : Site) : Prop :=
  ∃ r, s.attributeAt? site = some r ∧ r.get? "disposition" = some (.text "const")

theorem isShown_iff (site : Site) : s.isShown site = true ↔ s.Takes site := by
  unfold isShown Takes
  cases s.attributeAt? site with
  | none => simp
  | some r =>
    have hinline : r.isInline = true ↔ r.get? "disposition" = some (.text "inline") := r.is_text_iff
    have hconst : r.isConst = true ↔ r.get? "disposition" = some (.text "const") := r.is_text_iff
    have hvar : r.isVar = true ↔ r.get? "disposition" = some (.text "var") := r.is_text_iff
    have hfill : r.isFill = true ↔ r.get? "disposition" = some (.text "fill") := r.is_text_iff
    simp only [Option.any_some, Option.some.injEq, exists_eq_left']
    by_cases hi : r.isInline = true
    · have htype : ((r.get? "type").any fun type => !isHidden type) = true ↔
          ∃ type, r.get? "type" = some type ∧ isHidden type = false := by
        simp [Option.any_eq_true]
      simp [hi, htype, hinline.1 hi]
    · have hplain : r.get? "disposition" ≠ some (.text "inline") := mt hinline.2 hi
      have hhas : (!r.has "disposition") = true ↔ r.get? "disposition" = none := by
        simp [Record.has]
      simp only [if_neg hi, Bool.and_eq_true, Bool.or_eq_true, hvar, hfill, hhas, hplain, false_and,
        false_or, Bool.not_eq_true', ← Bool.not_eq_true, hconst]
      constructor
      · rintro ⟨-, (h | h) | h⟩
        · exact .inr (.inl h)
        · exact .inr (.inr h)
        · exact .inl h
      · rintro (h | h | h) <;> simp [h]

/-- Whether an attribute makes a constant of the classes that meet it. -/
def isConstant (s : Schema) (site : Site) : Bool := (s.attributeAt? site).any (·.isConst)

theorem isConstant_iff (site : Site) : s.isConstant site = true ↔ s.Fixes site := by
  unfold isConstant Fixes
  cases s.attributeAt? site with
  | none => simp
  | some r => simp [Record.isConst, Record.is_text_iff]

theorem isConstant_settled (s : Schema) (site : Site) :
    s.settled.isConstant site = s.isConstant site := by
  unfold isConstant
  rw [attributeAt?_settled]
  cases s.attributeAt? site with
  | none => rfl
  | some r => exact Record.isConst_settled r

theorem isConstant_congr {s s' : Schema} (h : s'.settled = s.settled) (site : Site) :
    s'.isConstant site = s.isConstant site := by
  rw [← isConstant_settled s', h, isConstant_settled]

end Schema

/-- The place of a stop where a class gets a constant. -/
def Stop.constant? (s : Schema) (stop : Stop) : Option Visit :=
  stop.place?.filter fun v => s.isConstant v.site

namespace Drafting
variable {α β : Type}

/-- Steps that make no constants. -/
def LeavesConstants (steps : Drafting α) : Prop := ∀ d, (runOn steps d).2.constants = d.constants

theorem leavesConstants_bind {steps : Drafting α} {next : α → Drafting β}
    (h : LeavesConstants steps) (hn : ∀ a, LeavesConstants (next a)) :
    LeavesConstants (steps >>= next) := by
  intro d
  have hd := h d
  rw [runOn_bind]
  rcases hr : runOn steps d with ⟨fault | a, d'⟩ <;> rw [hr] at hd
  · exact hd
  · exact (hn a d').trans hd

theorem leavesConstants_lift (x : Checked α) : LeavesConstants (liftM x) := fun d => by simp

end Drafting

namespace ClassModel
open Drafting
variable {f : Frame} {r : Record} {site : Site} {aggregate : Option Aggregate} {depth : Nat}
  {d d' : Draft}

theorem leavesConstants_addEntry (f : Frame) (site : Site) (aggregate : Option Aggregate) :
    LeavesConstants (addEntry f site aggregate) := by
  intro d
  simp only [addEntry, runOn_bind, runOn_get, runOn_lift]
  cases entryOf f d.schema d.entries site aggregate <;> simp

theorem leavesConstants_visit (f : Frame) (site : Site) (aggregate : Option Aggregate)
    (depth : Nat) : LeavesConstants (visit f site aggregate depth) := by
  apply leavesConstants_bind fun d => by rw [runOn_attributeAt]
  intro r
  apply leavesConstants_bind (leavesConstants_lift _)
  intro value
  apply leavesConstants_bind (leavesConstants_lift _)
  intro name
  exact leavesConstants_bind (fun _ => rfl) fun _ => leavesConstants_addEntry f site aggregate

theorem leavesConstants_takeInline (f : Frame) (r : Record) (site : Site)
    (aggregate : Option Aggregate) (depth : Nat) :
    LeavesConstants (takeInline f r site aggregate depth) := by
  apply leavesConstants_bind (leavesConstants_lift _)
  intro type
  apply leavesConstants_bind (leavesConstants_lift _)
  intro name
  apply leavesConstants_bind fun _ => rfl
  intro _
  refine leavesConstants_bind ?_ fun _ => leavesConstants_lift _
  split
  · exact fun _ => rfl
  · exact leavesConstants_visit f site aggregate depth

/-- A draft with one constant more, for an attribute. -/
def AddsConstant (site : Site) (d d' : Draft) : Prop :=
  ∃ c : Constant, c.site = site ∧ d'.constants = d.constants ++ [c]

theorem site_of_constantOf {t : Target} {s : Schema} {c : Constant} (h : constantOf t s site = .ok c) :
    c.site = site := by
  obtain ⟨r, -, h⟩ := bind_eq_ok.1 h
  obtain ⟨declared, -, h⟩ := bind_eq_ok.1 h
  obtain ⟨layout, -, h⟩ := bind_eq_ok.1 h
  obtain ⟨kind, -, h⟩ := bind_eq_ok.1 h
  obtain ⟨name, -, h⟩ := bind_eq_ok.1 h
  obtain ⟨value, -, h⟩ := bind_eq_ok.1 h
  obtain ⟨size, -, h⟩ := bind_eq_ok.1 h
  obtain ⟨varType, -, h⟩ := bind_eq_ok.1 h
  obtain ⟨baseType, -, h⟩ := bind_eq_ok.1 h
  rw [← Except.ok.inj h]

theorem addsConstant_addConstant {u : Unit} (h : runOn (addConstant f site) d = (.ok u, d')) :
    AddsConstant site d d' := by
  simp only [addConstant, runOn_bind, runOn_schema, runOn_lift, runOn_tell] at h
  cases hc : constantOf f.target d.schema site with
  | error fault => simp [hc] at h
  | ok c =>
    simp only [hc, runOn_modify, Prod.mk.injEq] at h
    obtain ⟨-, rfl⟩ := h
    exact ⟨c, site_of_constantOf hc, rfl⟩

theorem takePlain_constants {u : Unit}
    (h : runOn (takePlain f r site aggregate depth) d = (.ok u, d')) :
    if r.isConst then AddsConstant site d d' else d'.constants = d.constants := by
  unfold takePlain at h
  by_cases hc : r.isConst = true
  · rw [if_pos hc] at h ⊢
    exact addsConstant_addConstant h
  · rw [if_neg hc] at h ⊢
    split at h
    · have hleaves := leavesConstants_visit f site aggregate depth d
      rw [h] at hleaves
      exact hleaves
    · simp only [runOn_pure, Prod.mk.injEq] at h
      rw [← h.2]

/-- An attribute with a fixed value adds one constant to the class, any other attribute none. -/
theorem meet_constants {inner : Option String}
    (h : runOn (meet f site aggregate depth) d = (.ok inner, d')) :
    if d.schema.isConstant site then AddsConstant site d d' else d'.constants = d.constants := by
  rw [runOn_meet] at h
  rw [← Schema.isConstant_congr (d.schema.settled_noteOwner f.name site)]
  generalize d.schema.noteOwner f.name site = s at h ⊢
  cases hr : s.recordAt site with
  | error fault => simp [hr] at h
  | ok r =>
    have hat := Schema.recordAt_eq_ok.1 hr
    have hconstant : s.isConstant site = r.isConst := by simp [Schema.isConstant, hat]
    rw [hconstant]
    by_cases hi : r.isInline = true
    · simp only [hr, hi, if_true, Prod.mk.injEq] at h
      have hplain : r.isConst = false := by
        rw [Record.isConst, Record.is, r.is_text_iff.1 hi]
        rfl
      have hleaves := leavesConstants_takeInline f r site aggregate depth { d with schema := s }
      simpa [hplain, ← h.2] using hleaves
    · simp only [hr, hi, Bool.false_eq_true, if_false, Prod.mk.injEq] at h
      rcases ht : runOn (takePlain f r site aggregate depth) { d with schema := s } with
        ⟨fault | _, d₂⟩
      · simp [ht, Except.map] at h
      · obtain rfl : d₂ = d' := by simpa [ht] using h.2
        have hconstants := takePlain_constants ht
        exact hconstants

theorem pass_constants {s : Schema} {stop : Stop} {u : Unit} (hs : d.schema.settled = s.settled)
    (h : runOn (pass f stop) d = (.ok u, d')) :
    match stop.constant? s with
    | some v => AddsConstant v.site d d'
    | none => d'.constants = d.constants := by
  cases stop with
  | enter path owner =>
    simp only [pass, runOn_bind, runOn_tell, runOn_layout] at h
    cases hl : d.schema.need owner >>= Value.layout with
    | error fault => simp [hl] at h
    | ok layout =>
      simp only [hl, runOn_pure, Prod.mk.injEq] at h
      obtain ⟨-, rfl⟩ := h
      rfl
  | meet path site =>
    rw [pass, runOn_map] at h
    rcases hm : runOn (meet f site (aggregateOf path) path.length) d with ⟨fault | inner, d₁⟩
    · simp [hm, Except.map] at h
    · obtain rfl : d₁ = d' := by simpa [hm] using congrArg Prod.snd h
      have hconstants := meet_constants hm
      rw [Schema.isConstant_congr hs] at hconstants
      by_cases hc : s.isConstant site = true <;>
        simpa [Stop.constant?, Stop.place?, Option.filter, hc] using hconstants
  | endless => simp [pass] at h

/-- Passing stops without a fault adds one constant for each attribute with a fixed value. -/
theorem constants_passes {s : Schema} {stops : List Stop} {u : Unit}
    (hs : d.schema.settled = s.settled) (h : runOn (forM stops (pass f)) d = (.ok u, d')) :
    ∃ cs, d'.constants = d.constants ++ cs ∧
      List.Forall₂ (fun v c => c.site = v.site) (stops.filterMap (Stop.constant? s)) cs := by
  induction stops generalizing d with
  | nil =>
    obtain ⟨-, rfl⟩ := by simpa using h
    exact ⟨[], by simp, .nil⟩
  | cons stop stops ih =>
    rw [List.forM_cons] at h
    obtain ⟨_, d₁, hpass, hrest⟩ := runOn_bind_eq_ok.1 h
    have hs₁ : d₁.schema.settled = s.settled := by
      have hkept := settled_pass f stop d
      rw [hpass] at hkept
      exact hkept.trans hs
    obtain ⟨cs, hcs, hsites⟩ := ih hs₁ hrest
    have hconstants := pass_constants hs hpass
    cases hv : stop.constant? s with
    | none =>
      simp only [hv] at hconstants
      rw [List.filterMap_cons_none hv]
      exact ⟨cs, by rw [hcs, hconstants], hsites⟩
    | some v =>
      simp only [hv] at hconstants
      rw [List.filterMap_cons_some hv]
      obtain ⟨c, hc, hadded⟩ := hconstants
      exact ⟨c :: cs, by simp [hcs, hadded], .cons hc hsites⟩

/-- The constants of a model stand for the attributes with a fixed value on the tour through its
structure. -/
theorem constants_of_model {t : Target} {s : Schema} {name : String} {m : ClassModel}
    (h : modelOf t s name = .ok m) : List.Forall₂ (fun v c => c.site = v.site)
      ((s.places s.depthLimit name).filter fun v => s.isConstant v.site) m.constants := by
  obtain ⟨className, f, comments, d, -, -, hpasses, hfinish⟩ := passes_of_modelOf h
  obtain ⟨constructors, -, rfl⟩ := return_eq_ok.1 hfinish
  obtain ⟨cs, hcs, hsites⟩ := constants_passes (s.settled_setFact name _) hpasses
  rw [List.nil_append] at hcs
  rw [Schema.places, List.filter_filterMap, hcs]
  exact hsites

section
variable {t : Target} {s : Schema} {name : String} {m : ClassModel}

theorem mem_visits (hm : modelOf t s name = .ok m) {v : Visit} :
    v ∈ s.visits s.depthLimit name ↔ s.Reaches name v ∧ s.isShown v.site = true := by
  obtain ⟨f, -, -, -, -, hfinite, -⟩ := drawn_of_model hm
  rw [Schema.visits_eq_filter, List.mem_filter, Schema.mem_places hfinite]

/-- What a member of a class has from the way to its attribute. -/
structure Flattens (s : Schema) (m : ClassModel) (v : Visit) (e : Entry) : Prop where
  site : e.site = v.site
  isAggregate : e.isAggregate = (s.attributeAt v.site).isInline
  isSuper : e.isAggregate = false →
    (e.isSuper = true ↔ ∃ i, v.root? = some i ∧ m.base = some i.type)
  isInline : e.isAggregate = false →
    (e.isInline = true ↔ ∃ i, v.root? = some i ∧ m.base ≠ some i.type)
  isOwn : e.isAggregate = false →
    (e.isSuper = false ∧ e.isInline = false ↔ v.root? = none)
  aggregateName : e.aggregateName = v.root?.map fun i => Text.lowerFirst i.type
  /-- The way leads through another member of the class. -/
  aggregate : ∀ i, v.root? = some i →
    ∃ a ∈ m.entries, a.site = i.site ∧ a.isAggregate = true ∧ e.aggregateName = some a.name

/-- An inline attribute is taken from the base class if its structure is the one behind that class. -/
theorem depicts_isSuper {f : Frame} {v : Visit} {e : Entry} {type : String} (h : Depicts f s v e)
    (hin : s.inlined? v.site = some type) : e.isSuper = (f.base == some type) := by
  obtain ⟨r, hr, hin⟩ := Option.bind_eq_some_iff.1 hin
  have hinline : r.isInline = true := by
    by_contra hnot
    simp [hnot] at hin
  rw [if_pos hinline] at hin
  obtain ⟨v', hv', htype⟩ := Option.bind_eq_some_iff.1 hin
  obtain rfl : v' = .text type := by cases v' <;> simp_all [Value.text?]
  rw [h.isSuper, Schema.attributeAt, hr, Option.getD_some]
  cases f.base with
  | none => rfl
  | some base => simp [isInherited, hinline, hv', eq_comm (a := type)]

/-- The outermost attribute with a class on the way to a member is a member too. -/
theorem exists_root (hm : modelOf t s name = .ok m) {v : Visit}
    (hv : v ∈ s.visits s.depthLimit name) {i : Inline} (hi : v.root? = some i) :
    ∃ a ∈ m.entries, a.site = i.site ∧ s.inlined? i.site = some i.type ∧ a.isAggregate = true ∧
      a.name = Text.lowerFirst i.type ∧ a.aggregateName = none ∧ a.isInline = false ∧
      a.isSuper = (m.base == some i.type) := by
  obtain ⟨f, -, -, hbase, hdrawn, -, -⟩ := drawn_of_model hm
  obtain ⟨⟨last, hleads, -⟩, -⟩ := (mem_visits hm).1 hv
  obtain ⟨hshown, path, rest, hpath, hhidden⟩ := List.find?_eq_some_iff_append.1 hi
  rw [hpath] at hleads
  obtain ⟨hreaches, hinlined, -⟩ := hleads.split
  have hmem : ⟨path, i.site⟩ ∈ s.visits s.depthLimit name :=
    (mem_visits hm).2 ⟨hreaches, by rw [Schema.inlined?_isShown hinlined]; exact hshown⟩
  obtain ⟨a, ha, hdepicts⟩ := exists_of_forall₂ (depicts_of_drawn hdrawn) hmem
  obtain ⟨hinline, hplain⟩ := depicts_inlined hdepicts
  have haggregate : a.isAggregate = true := by
    by_contra hnot
    rw [hplain (by simpa using hnot)] at hinlined
    cases hinlined
  obtain ⟨type, htype, hname⟩ := hinline haggregate
  obtain rfl : i.type = type := Option.some.inj (hinlined.symm.trans htype)
  have hnone : aggregateOf path = none := by
    rw [aggregateOf, List.find?_eq_none.2 fun j hj => by simpa using hhidden j hj]
    rfl
  refine ⟨a, ha, depicts_site hdepicts, hinlined, haggregate, hname, ?_, ?_, ?_⟩
  · rw [hdepicts.aggregateName, hnone]
    rfl
  · rw [hdepicts.isInline, hnone, Option.isSome_none, Bool.and_false]
  · rw [depicts_isSuper hdepicts hinlined, hbase]

theorem flattens_of_depicts (hm : modelOf t s name = .ok m) {f : Frame} (hf : f.base = m.base)
    {v : Visit} {e : Entry} (hv : v ∈ s.visits s.depthLimit name) (h : Depicts f s v e) :
    Flattens s m v e := by
  have hinherited : e.isAggregate = false →
      (e.isSuper = true ↔ ∃ i, v.root? = some i ∧ m.base = some i.type) := by
    intro hplain
    rw [h.isSuper, hf, v.aggregateOf_path]
    cases m.base with
    | none => simp [isInherited]
    | some base =>
      simp only [isInherited, ← depicts_isAggregate h, hplain, Bool.false_eq_true, if_false]
      cases v.root? with
      | none => simp
      | some i => simp [eq_comm (a := base)]
  have hname : e.aggregateName = v.root?.map fun i => Text.lowerFirst i.type := by
    rw [h.aggregateName, v.aggregateOf_path, Option.map_map]
    rfl
  have hinline : e.isInline = (!e.isSuper && v.root?.isSome) := by
    rw [h.isInline, v.aggregateOf_path, Option.isSome_map]
  refine ⟨depicts_site h, depicts_isAggregate h, hinherited, ?_, ?_, hname, ?_⟩
  · intro hplain
    rw [hinline, Bool.and_eq_true, Bool.not_eq_true', ← Bool.not_eq_true, hinherited hplain]
    cases v.root? <;> simp
  · intro hplain
    rw [hinline]
    cases hroot : v.root? with
    | none => simp [← Bool.not_eq_true, hinherited hplain, hroot]
    | some i => cases e.isSuper <;> simp
  · intro i hi
    obtain ⟨a, ha, hsite, -, haggregate, haname, -⟩ := exists_root hm hv hi
    exact ⟨a, ha, hsite, haggregate, by rw [hname, hi, haname]; rfl⟩

/-- A class has one member for each way to an attribute that classes take and one constant for each way
to an attribute with a fixed value, both in the order of the layouts. A member that is no inline
attribute itself belongs to the base class, to another member or to the class alone, as the outermost
structure with a class on its way says. -/
theorem flattens_layouts (hm : modelOf t s name = .ok m) :
    (m.base = ((s.sites name).filterMap s.inlined?).find? fun type : String => !isHidden type) ∧
    (∃ vs, s.Lists name s.Takes vs ∧ List.Forall₂ (Flattens s m) vs m.entries) ∧
    ∃ vs, s.Lists name s.Fixes vs ∧ List.Forall₂ (fun v c => c.site = v.site) vs m.constants := by
  obtain ⟨f, -, -, hbase, hdrawn, hfinite, -⟩ := drawn_of_model hm
  refine ⟨base_eq hm, ⟨s.visits s.depthLimit name, ?_, ?_⟩,
    _, Schema.lists_filter hfinite Schema.isConstant_iff, constants_of_model hm⟩
  · rw [Schema.visits_eq_filter]
    exact Schema.lists_filter hfinite Schema.isShown_iff
  · have hdepicts := depicts_of_drawn hdrawn
    refine List.forall₂_iff_get.2 ⟨hdepicts.length_eq, fun index hv he => ?_⟩
    exact flattens_of_depicts hm hbase (List.get_mem _ _) (hdepicts.get hv he)

end

/-- A structure that comes to another one on two ways: through a structure without a class, and through
the base class. -/
def depotSchema : Schema := ⟨[
  ("Amount", .table [("type", "byte"), ("size", .int 8)]),
  ("Stamp", .table [("type", "struct"), ("layout", .list [
    .table [("disposition", "const"), ("name", "version"), ("type", "byte"), ("size", .int 1),
      ("value", .int 3)],
    .table [("name", "time"), ("type", "Amount")]])]),
  ("Ledger", .table [("type", "struct"), ("layout", .list [
    .table [("name", "entries"), ("type", "Amount"), ("disposition", "fill")],
    .table [("disposition", "inline"), ("type", "Stamp")]])]),
  ("EntityBody", .table [("type", "struct"), ("layout", .list [
    .table [("name", "network"), ("type", "byte"), ("size", .int 1)],
    .table [("disposition", "inline"), ("type", "Stamp")]])]),
  ("Depot", .table [("type", "struct"), ("layout", .list [
    .table [("disposition", "inline"), ("type", "EntityBody")],
    .table [("name", "owner"), ("type", "byte"), ("size", .int 24)],
    .table [("disposition", "inline"), ("type", "Ledger")]])])]⟩

theorem flattens_layouts_depot : ∃ m, modelOf .java depotSchema "Depot" = .ok m ∧
    m.base = some "Ledger" ∧
    m.entries.map (fun e => (e.site, e.isSuper, e.isInline, e.aggregateName)) =
      [(⟨"EntityBody", 0⟩, false, false, none), (⟨"EntityBody", 1⟩, false, false, none),
        (⟨"Stamp", 1⟩, false, true, some "stamp"), (⟨"Depot", 1⟩, false, false, none),
        (⟨"Depot", 2⟩, true, false, none), (⟨"Ledger", 0⟩, true, false, some "ledger"),
        (⟨"Ledger", 1⟩, false, true, some "ledger"), (⟨"Stamp", 1⟩, true, false, some "ledger")] ∧
    (∃ vs, depotSchema.Lists "Depot" depotSchema.Takes vs ∧
      List.Forall₂ (Flattens depotSchema m) vs m.entries) ∧
    ∃ vs, depotSchema.Lists "Depot" depotSchema.Fixes vs ∧ vs.length = 2 ∧
      List.Forall₂ (fun v c => c.site = v.site) vs m.constants := by
  let made := modelOf .java depotSchema "Depot"
  obtain ⟨m, hm⟩ : ∃ m, made = .ok m := Checked.exists_ok (by decide +kernel)
  have hmembers : made.toOption.map (fun m => m.entries.map fun e =>
      (e.site, e.isSuper, e.isInline, e.aggregateName)) = some
      [(⟨"EntityBody", 0⟩, false, false, none), (⟨"EntityBody", 1⟩, false, false, none),
        (⟨"Stamp", 1⟩, false, true, some "stamp"), (⟨"Depot", 1⟩, false, false, none),
        (⟨"Depot", 2⟩, true, false, none), (⟨"Ledger", 0⟩, true, false, some "ledger"),
        (⟨"Ledger", 1⟩, false, true, some "ledger"), (⟨"Stamp", 1⟩, true, false, some "ledger")] := by
    decide +kernel
  have hfixed : made.toOption.map (fun m => m.constants.length) = some 2 := by decide +kernel
  rw [hm, Checked.toOption_ok, Option.map_some, Option.some.injEq] at hmembers hfixed
  obtain ⟨hbase, hentries, vs, hlists, hconstants⟩ := flattens_layouts hm
  refine ⟨m, hm, hbase.trans (by decide +kernel), hmembers, hentries, vs, hlists, ?_, hconstants⟩
  rw [hconstants.length_eq, hfixed]

end ClassModel
end SchemaForge
