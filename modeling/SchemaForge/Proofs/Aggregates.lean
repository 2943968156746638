import Mathlib.Data.List.Nodup
import SchemaForge.Proofs.Entries
import SchemaForge.Source.Part

/-! Members behind inline attributes. A class that takes the members of another structure takes them
through one inline attribute, in the order in which the structure's own class has them. So a
constructor that hands its arguments on hands them on to the parameters of the same names and types. -/
namespace SchemaForge

/-- The visit on the tour through a structure that is itself reached by a path. -/
def Visit.under (outer : List Inline) (v : Visit) : Visit := ⟨outer ++ v.path, v.site⟩

@[simp] theorem Visit.site_under (outer : List Inline) (v : Visit) : (v.under outer).site = v.site :=
  rfl

theorem Stop.visit?_under (s : Schema) (outer : List Inline) (stop : Stop) :
    (stop.under outer).visit? s = (stop.visit? s).map (Visit.under outer) := by
  cases stop with
  | meet path site => by_cases h : s.isShown site <;> simp [under, visit?, Visit.under, h]
  | _ => rfl

namespace ClassModel

theorem aggregateOf_under_hidden {type : String} (h : isHidden type = true) (site : Site)
    (v : Visit) : aggregateOf (v.under [⟨site, type⟩]).path = aggregateOf v.path := by
  simp [aggregateOf, Visit.under, h]

theorem aggregateOf_under_shown {type : String} (h : isHidden type = false) (site : Site)
    (v : Visit) : aggregateOf (v.under [⟨site, type⟩]).path =
      some ⟨Text.lowerFirst type, type⟩ := by
  simp [aggregateOf, Visit.under, h]

end ClassModel

namespace Schema
open ClassModel

theorem visits_succ (s : Schema) (limit : Nat) (owner : String) :
    s.visits (limit + 1) owner = (s.sites owner).flatMap fun site =>
      (if s.isShown site then [⟨[], site⟩] else []) ++ match s.inlined? site with
        | some type => (s.visits limit type).map (Visit.under [⟨site, type⟩])
        | none => [] := by
  simp only [visits, tour, List.filterMap_cons, Stop.visit?, List.filterMap_flatMap]
  apply List.flatMap_congr
  intro site _
  cases s.inlined? site with
  | none => by_cases h : s.isShown site <;> simp [h]
  | some type =>
    have hunder : ∀ stops : List Stop,
        (stops.map (Stop.under [⟨site, type⟩])).filterMap (Stop.visit? s) =
          (stops.filterMap (Stop.visit? s)).map (Visit.under [⟨site, type⟩]) := by
      intro stops
      simp [List.filterMap_map, List.map_filterMap, Stop.visit?_under]
    by_cases h : s.isShown site <;> simp [h, hunder]

/-- The structures of the outermost inline attributes that show, each with what is left of the limit. -/
def outers (s : Schema) : Nat → String → List (String × Nat)
  | 0, _ => []
  | limit + 1, owner => (s.sites owner).flatMap fun site =>
    match s.inlined? site with
    | some type => if isHidden type then s.outers limit type else [(type, limit)]
    | none => []

/-- The visits behind outermost attributes are the visits on the tours through their structures. -/
theorem sites_behind (s : Schema) (p : Aggregate → Bool) (limit : Nat) (owner : String) :
    ((s.visits limit owner).filter fun v => (aggregateOf v.path).any p).map (·.site) =
      ((s.outers limit owner).filter fun o => p ⟨Text.lowerFirst o.1, o.1⟩).flatMap fun o =>
        (s.visits o.2 o.1).map (·.site) := by
  induction limit generalizing owner with
  | zero => simp [visits, tour, Stop.visit?, outers]
  | succ limit ih =>
    rw [visits_succ, outers, List.filter_flatMap, List.filter_flatMap, List.map_flatMap,
      List.flatMap_assoc]
    apply List.flatMap_congr
    intro site _
    rw [List.filter_append]
    have hself : (if s.isShown site then [(⟨[], site⟩ : Visit)] else []).filter
        (fun v => (aggregateOf v.path).any p) = [] := by
      split <;> simp [aggregateOf]
    rw [hself, List.nil_append]
    cases s.inlined? site with
    | none => rfl
    | some type =>
      simp only
      rw [List.filter_map, List.map_map]
      by_cases hidden : isHidden type = true
      · simpa only [Function.comp_def, aggregateOf_under_hidden hidden, Visit.site_under,
          if_pos hidden] using ih type
      · have hshown : isHidden type = false := by simpa using hidden
        simp only [Function.comp_def, aggregateOf_under_shown hshown, Option.any_some, if_neg hidden]
        by_cases hp : p ⟨Text.lowerFirst type, type⟩ = true <;> simp [hp]

theorem inlined?_isShown {s : Schema} {site : Site} {type : String}
    (h : s.inlined? site = some type) : s.isShown site = !isHidden type := by
  unfold inlined? at h
  obtain ⟨r, hr, h⟩ := Option.bind_eq_some_iff.1 h
  split at h
  · rename_i hi
    obtain ⟨v, hv, ht⟩ := Option.bind_eq_some_iff.1 h
    obtain rfl : v = .text type := by cases v <;> simp_all [Value.text?]
    simp [isShown, hr, hi, hv]
  · simp at h

theorem type_of_inlined? {s : Schema} {site : Site} {type type' : String}
    (h : s.inlined? site = some type)
    (h' : (s.attributeAt site).get? "type" = some (.text type')) : type = type' := by
  unfold inlined? at h
  obtain ⟨r, hr, h⟩ := Option.bind_eq_some_iff.1 h
  rw [attributeAt, hr, Option.getD_some] at h'
  split at h
  · simpa [h', eq_comm] using h
  · simp at h

/-- The outermost attributes that show are visited in the order of their structures. -/
theorem outer_visits (s : Schema) (limit : Nat) (owner : String) :
    ((s.visits limit owner).filter fun v => (aggregateOf v.path).isNone).filterMap
      (fun v => s.inlined? v.site) = (s.outers limit owner).map (·.1) := by
  induction limit generalizing owner with
  | zero => simp [visits, tour, Stop.visit?, outers]
  | succ limit ih =>
    rw [visits_succ, outers, List.filter_flatMap, List.filterMap_flatMap, List.map_flatMap]
    apply List.flatMap_congr
    intro site _
    rw [List.filter_append, List.filterMap_append]
    cases hin : s.inlined? site with
    | none => split <;> simp [hin]
    | some type =>
      simp only
      rw [inlined?_isShown hin, List.filter_map, List.filterMap_map]
      by_cases hidden : isHidden type = true
      · simpa [Function.comp_def, aggregateOf_under_hidden hidden, hidden] using ih type
      · have hshown : isHidden type = false := by simpa using hidden
        have hnil : aggregateOf [] = none := rfl
        simp [Function.comp_def, aggregateOf_under_shown hshown, hshown, hin, hnil]

theorem endless_notMem_outer {s : Schema} {limit : Nat} {owner : String} {o : String × Nat}
    (h : Stop.endless ∉ s.tour limit owner) (ho : o ∈ s.outers limit owner) :
    Stop.endless ∉ s.tour o.2 o.1 := by
  induction limit generalizing owner with
  | zero => simp [tour] at h
  | succ limit ih =>
    obtain ⟨site, hsite, ho⟩ := List.mem_flatMap.1 ho
    cases hin : s.inlined? site with
    | none => simp [hin] at ho
    | some type =>
      have hinner := endless_notMem_inner h hsite hin
      by_cases hidden : isHidden type = true
      · exact ih hinner (by simpa [hin, hidden] using ho)
      · obtain rfl : o = (type, limit) := by simpa [hin, hidden] using ho
        exact hinner

theorem aggregate_mem_outers {s : Schema} {limit : Nat} {owner : String} {v : Visit}
    {a : Aggregate} (hv : v ∈ s.visits limit owner) (ha : aggregateOf v.path = some a) :
    ∃ o ∈ s.outers limit owner, a = ⟨Text.lowerFirst o.1, o.1⟩ := by
  induction limit generalizing owner v with
  | zero => simp [visits, tour, Stop.visit?] at hv
  | succ limit ih =>
    rw [visits_succ] at hv
    obtain ⟨site, hsite, hv⟩ := List.mem_flatMap.1 hv
    rcases List.mem_append.1 hv with hself | hinner
    · obtain rfl : v = ⟨[], site⟩ := by
        split at hself <;> simp_all
      simp [aggregateOf] at ha
    · cases hin : s.inlined? site with
      | none => simp [hin] at hinner
      | some type =>
        simp only [hin] at hinner
        obtain ⟨w, hw, rfl⟩ := List.mem_map.1 hinner
        by_cases hidden : isHidden type = true
        · rw [aggregateOf_under_hidden hidden] at ha
          obtain ⟨o, ho, rfl⟩ := ih hw ha
          refine ⟨o, List.mem_flatMap.2 ⟨site, hsite, ?_⟩, rfl⟩
          simpa [hin, hidden] using ho
        · rw [aggregateOf_under_shown (by simpa using hidden)] at ha
          refine ⟨(type, limit), List.mem_flatMap.2 ⟨site, hsite, ?_⟩, (Option.some.inj ha).symm⟩
          simp [hin, hidden]

end Schema

/-- Among items with distinct keys, one has the key of a given one. -/
theorem filter_key_eq {α β : Type} [BEq β] [LawfulBEq β] {key : α → β} {l : List α} {a : α}
    (h : (l.map key).Nodup) (ha : a ∈ l) : (l.filter fun x => key x == key a) = [a] := by
  induction l with
  | nil => simp at ha
  | cons x l ih =>
    rw [List.map_cons, List.nodup_cons] at h
    rcases List.mem_cons.1 ha with rfl | hmem
    · have hnone : (l.filter fun x => key x == key a) = [] := by
        apply List.filter_eq_nil_iff.2
        intro y hy hkey
        exact h.1 (List.mem_map.2 ⟨y, hy, by simpa using hkey⟩)
      simp [hnone]
    · have hne : (key x == key a) = false := by
        apply beq_eq_false_iff_ne.2
        intro hkey
        exact h.1 (List.mem_map.2 ⟨a, hmem, hkey.symm⟩)
      simp [hne, ih h.2 hmem]

namespace ClassModel

/-- The outermost inline attributes through which a class reaches the members of other structures. -/
def outerEntries (m : ClassModel) : List Entry :=
  m.entries.filter fun e => e.isAggregate && e.aggregateName.isNone

/-- Whether constructors ask their callers for the value of an attribute. -/
def isPassed (x : Member) : Bool :=
  x.kind != .sizeField && x.name != "size" && !x.isAggregate && !x.isReserved

section
variable {f g : Frame} {s : Schema} {vs vs' : List Visit} {es es' : List Entry}

/-- Entries that depict the same attributes have the same members. -/
theorem members_eq (h : List.Forall₂ (Depicts f s) vs es) (h' : List.Forall₂ (Depicts g s) vs' es')
    (ht : f.target = g.target) (hsites : vs.map (·.site) = vs'.map (·.site)) :
    es.map (·.toMember) = es'.map (·.toMember) := by
  induction h generalizing vs' es' with
  | nil =>
    cases h' with
    | nil => rfl
    | cons => simp at hsites
  | cons he _ ih =>
    cases h' with
    | nil => simp at hsites
    | cons he' hrest' =>
      simp only [List.map_cons, List.cons.injEq] at hsites
      have hmember := he.member
      rw [ht, hsites.1, he'.member] at hmember
      simp [ih hrest' hsites.2, Except.ok.inj hmember]

theorem exists_depicted (h : List.Forall₂ (Depicts f s) vs es) {e : Entry} (he : e ∈ es) :
    ∃ v ∈ vs, Depicts f s v e := exists_of_forall₂ h.flip he

theorem depicts_site {v : Visit} {e : Entry} (h : Depicts f s v e) : e.site = v.site := by
  obtain ⟨r, type, -, -, -, hsite, -⟩ := memberOf_eq_ok h.member
  exact hsite

/-- An entry for an inline attribute has the name of the structure. -/
theorem depicts_inlined {v : Visit} {e : Entry} (h : Depicts f s v e) :
    (e.isAggregate = true → ∃ type, s.inlined? v.site = some type ∧ e.name = Text.lowerFirst type) ∧
      (e.isAggregate = false → s.inlined? v.site = none) := by
  obtain ⟨r, type, hr, htype, hname, -, haggregate⟩ := memberOf_eq_ok h.member
  rw [← Schema.inlined?_settled, Schema.inlined?, hr, Option.bind_some, haggregate]
  constructor
  · intro hi
    refine ⟨type, by simp [hi, htype], ?_⟩
    rw [Schema.attributeAt?_settled] at hr
    obtain ⟨r', hr', rfl⟩ := Option.map_eq_some_iff.1 hr
    rw [Record.get?_settled _ (by simp) (by simp)] at htype
    rw [Record.isInline_settled] at hi
    rw [Record.get?_name_settled, Record.inlineName?, if_pos hi, htype] at hname
    simpa [Except.toOption] using hname.symm
  · intro hi
    simp [hi]

theorem depicts_isAggregate {v : Visit} {e : Entry} (h : Depicts f s v e) :
    e.isAggregate = (s.attributeAt v.site).isInline := by
  obtain ⟨r, type, hr, -, -, -, haggregate⟩ := memberOf_eq_ok h.member
  rw [haggregate, ← Record.isInline_settled (s.attributeAt v.site), ← Schema.attributeAt_settled,
    Schema.attributeAt, hr, Option.getD_some]

/-- The outermost inline entries stand for the outermost inline attributes of the structure. -/
theorem outer_names (h : List.Forall₂ (Depicts f s) vs es) :
    (es.filter fun e => e.isAggregate && e.aggregateName.isNone).map (·.name) =
      ((vs.filter fun v => (aggregateOf v.path).isNone).filterMap fun v =>
        s.inlined? v.site).map Text.lowerFirst := by
  induction h with
  | nil => rfl
  | @cons v e vs es he _ ih =>
    have hnone : e.aggregateName.isNone = (aggregateOf v.path).isNone := by
      rw [he.aggregateName, Option.isNone_map]
    obtain ⟨hinline, hplain⟩ := depicts_inlined he
    rw [List.filter_cons, List.filter_cons, hnone]
    cases hagg : (aggregateOf v.path).isNone with
    | false => simpa [hagg] using ih
    | true =>
      cases hi : e.isAggregate with
      | false => simpa [hplain hi] using ih
      | true =>
        obtain ⟨type, htype, hname⟩ := hinline hi
        simpa [htype, hname] using ih

end

theorem outers_distinct {t : Target} {s : Schema} {name : String} {m : ClassModel}
    (hm : modelOf t s name = .ok m) (hnames : (m.outerEntries.map (·.name)).Nodup) :
    ((s.outers s.depthLimit name).map fun o => Text.lowerFirst o.1).Nodup := by
  obtain ⟨f, -, -, -, hdrawn, -, -⟩ := drawn_of_model hm
  rw [outerEntries, outer_names (depicts_of_drawn hdrawn), Schema.outer_visits, List.map_map] at hnames
  exact hnames

/-- What a class takes of another structure is what the structure's own class has. -/
theorem members_behind {t : Target} {s : Schema} {name type : String} {m m' : ClassModel}
    (hm : modelOf t s name = .ok m) (hm' : modelOf t s type = .ok m')
    (hnames : (m.outerEntries.map (·.name)).Nodup)
    (htype : type ∈ (s.outers s.depthLimit name).map (·.1)) :
    (m.entries.filter fun e => e.aggregateName == some (Text.lowerFirst type)).map (·.toMember) =
      m'.entries.map (·.toMember) := by
  obtain ⟨f, rfl, -, -, hdrawn, hfinite, -⟩ := drawn_of_model hm
  obtain ⟨g, hg, -, -, hdrawn', hfinite', -⟩ := drawn_of_model hm'
  have hdepicts := depicts_of_drawn hdrawn
  obtain ⟨⟨type, limit⟩, ho, rfl⟩ := List.mem_map.1 htype
  have hone := filter_key_eq (outers_distinct hm hnames) ho
  have hbehind := s.sites_behind (fun a => a.name == Text.lowerFirst type) s.depthLimit name
  have hvisits : s.visits limit type = s.visits s.depthLimit type := by
    rw [Schema.visits, Schema.tour_eq_of_finite (Schema.endless_notMem_outer hfinite ho) hfinite',
      Schema.visits]
  rw [hone, List.flatMap_singleton, hvisits] at hbehind
  refine members_eq (f := f) (g := g) ?_ (depicts_of_drawn hdrawn') hg.symm hbehind
  refine List.rel_filter ?_ hdepicts
  intro v e he
  simp only [he.aggregateName]
  cases aggregateOf v.path <;> simp

section
variable {t : Target} {m : ClassModel} (ht : t = .java ∨ t = .typescript)
  (hp : m.parameters = m.entries.filter (isParameter t))

/-- The members of an entry list that pass a test and that constructors ask for. -/
theorem map_filter_isPassed (p : Entry → Bool) (es : List Entry) :
    (es.filter fun e => p e && isPassed e.toMember).map (·.toMember) =
      ((es.filter p).map (·.toMember)).filter isPassed := by
  rw [List.filter_map, List.filter_filter]
  congr 1
  apply List.filter_congr
  intro e _
  simp [Bool.and_comm]

include ht hp

theorem constructorParams_eq (hfixed : ∀ e ∈ m.entries, isFixed e = false) :
    m.constructorParams = m.entries.filter fun e => isPassed e.toMember := by
  rw [constructorParams, hp, List.filter_filter]
  apply List.filter_congr
  intro e he
  rcases ht with rfl | rfl <;> simp [isParameter, isArgument, isPassed, hfixed e he] <;> grind

theorem superArguments_eq :
    m.superArguments = m.entries.filter fun e => e.isSuper && isPassed e.toMember := by
  rw [superArguments, hp, List.filter_filter]
  apply List.filter_congr
  intro e he
  rcases ht with rfl | rfl <;> simp [isParameter, isArgument, isPassed] <;> grind

theorem aggregateArguments_eq (hfixed : ∀ e ∈ m.entries, isFixed e = false) (a : Entry) :
    m.aggregateArguments a = m.entries.filter fun e =>
      e.aggregateName == some a.name && isPassed e.toMember := by
  rw [aggregateArguments, hp, List.filter_filter]
  apply List.filter_congr
  intro e he
  rcases ht with rfl | rfl <;> simp [isParameter, isPassed, hfixed e he] <;> grind

end

theorem not_isFixed_of_model {t : Target} {s : Schema} {name : String} {m : ClassModel}
    (h : modelOf t s name = .ok m) : ∀ e ∈ m.entries, isFixed e = false := by
  obtain ⟨f, -, -, -, hdrawn, -, -⟩ := drawn_of_model h
  intro e he
  obtain ⟨v, -, hv⟩ := exists_depicted (depicts_of_drawn hdrawn) he
  rw [isFixed, hv.conditionValue]
  rfl

/-- A structure whose members a class takes, by its place among the outermost inline attributes. -/
theorem mem_outers_of_inlined {s : Schema} {limit : Nat} {owner type : String} {v : Visit}
    (hv : v ∈ s.visits limit owner) (hnone : aggregateOf v.path = none)
    (htype : s.inlined? v.site = some type) : type ∈ (s.outers limit owner).map (·.1) := by
  rw [← Schema.outer_visits]
  exact List.mem_filterMap.2 ⟨v, List.mem_filter.2 ⟨hv, by simp [hnone]⟩, htype⟩

/-- Arguments that are chosen by the inline attribute behind which they stand. -/
theorem passed_behind {t : Target} (ht : t = .java ∨ t = .typescript) {s : Schema}
    {name type : String} {m m' : ClassModel} (hm : modelOf t s name = .ok m)
    (hm' : modelOf t s type = .ok m') (hnames : (m.outerEntries.map (·.name)).Nodup)
    (htype : type ∈ (s.outers s.depthLimit name).map (·.1)) (p : Entry → Bool)
    (hp : ∀ e ∈ m.entries, isPassed e.toMember = true →
      p e = (e.aggregateName == some (Text.lowerFirst type))) :
    (m.entries.filter fun e => p e && isPassed e.toMember).map (·.toMember) =
      m'.constructorParams.map (·.toMember) := by
  obtain ⟨-, -, -, -, -, -, hparameters⟩ := drawn_of_model hm'
  have hchosen : (m.entries.filter fun e => p e && isPassed e.toMember) =
      m.entries.filter fun e =>
        e.aggregateName == some (Text.lowerFirst type) && isPassed e.toMember := by
    apply List.filter_congr
    intro e he
    cases hpassed : isPassed e.toMember with
    | false => simp
    | true => rw [hp e he hpassed]
  rw [hchosen, map_filter_isPassed, members_behind hm hm' hnames htype,
    constructorParams_eq ht hparameters (not_isFixed_of_model hm'), List.filter_map]
  rfl

/-- An argument belongs to the base class when it stands behind the attribute that the base class comes
from. -/
theorem isSuper_eq {t : Target} {s : Schema} {name base : String} {m : ClassModel}
    (hm : modelOf t s name = .ok m) (hnames : (m.outerEntries.map (·.name)).Nodup)
    (hbase : m.base = some base) (hmem : base ∈ (s.outers s.depthLimit name).map (·.1))
    {e : Entry} (he : e ∈ m.entries) (hplain : e.isAggregate = false) :
    e.isSuper = (e.aggregateName == some (Text.lowerFirst base)) := by
  obtain ⟨f, -, -, hfbase, hdrawn, -, -⟩ := drawn_of_model hm
  obtain ⟨v, hv, hdepicts⟩ := exists_depicted (depicts_of_drawn hdrawn) he
  rw [depicts_isAggregate hdepicts] at hplain
  rw [hdepicts.isSuper, hdepicts.aggregateName, hfbase, hbase, isInherited, hplain]
  cases ha : aggregateOf v.path with
  | none => rfl
  | some a =>
    obtain ⟨o, ho, rfl⟩ := Schema.aggregate_mem_outers hv ha
    obtain ⟨o', ho', rfl⟩ := List.mem_map.1 hmem
    have hinj := List.inj_on_of_nodup_map (outers_distinct hm hnames) ho ho'
    by_cases hsame : o.1 = o'.1
    · simp [hsame]
    · have hdiffer : Text.lowerFirst o.1 ≠ Text.lowerFirst o'.1 :=
        fun hlower => hsame (congrArg Prod.fst (hinj hlower))
      simp [hsame, hdiffer]

theorem base_mem_outers {t : Target} {s : Schema} {name base : String} {m : ClassModel}
    (hm : modelOf t s name = .ok m) (hbase : m.base = some base) :
    base ∈ (s.outers s.depthLimit name).map (·.1) := by
  obtain ⟨site, hsite, hinlined, hidden⟩ := base_of_model hm hbase
  refine List.mem_map.2 ⟨(base, s.size), List.mem_flatMap.2 ⟨site, hsite, ?_⟩, rfl⟩
  simp [hinlined, hidden]

/-- The arguments that the constructor of a class hands on to its base class, and those that it hands
on to the class of an inlined structure, have the names and the types of the parameters there. -/
theorem constructor_arguments_match {t : Target} (ht : t = .java ∨ t = .typescript) {s : Schema}
    {name : String} {m : ClassModel} (hm : modelOf t s name = .ok m)
    (hnames : (m.outerEntries.map (·.name)).Nodup) :
    (∀ base m', m.base = some base → modelOf t s base = .ok m' →
      m.superArguments.map (fun e => (e.name, e.varType)) =
        m'.constructorParams.map fun e => (e.name, e.varType)) ∧
    ∀ a ∈ m.own, a.isAggregate = true → ∀ type m',
      (s.attributeAt a.site).get? "type" = some (.text type) → modelOf t s type = .ok m' →
      (m.aggregateArguments a).map (fun e => (e.name, e.varType)) =
        m'.constructorParams.map fun e => (e.name, e.varType) := by
  obtain ⟨f, hf, -, hfbase, hdrawn, -, hparameters⟩ := drawn_of_model hm
  have hdeclared : ∀ es : List Entry, es.map (fun e => (e.name, e.varType)) =
      (es.map (·.toMember)).map fun x => (x.name, x.varType) := by
    intro es
    simp [Function.comp_def]
  constructor
  · intro base m' hbase hm'
    have hmem := base_mem_outers hm hbase
    rw [hdeclared, hdeclared, superArguments_eq ht hparameters,
      passed_behind ht hm hm' hnames hmem (·.isSuper)]
    intro e he hpassed
    exact isSuper_eq hm hnames hbase hmem he (by simp_all [isPassed])
  · intro a ha hinline type m' htype hm'
    obtain ⟨ha, howned⟩ := List.mem_filter.1 ha
    obtain ⟨v, hv, hdepicts⟩ := exists_depicted (depicts_of_drawn hdrawn) ha
    have hnone : aggregateOf v.path = none := by
      have hplace := hdepicts.isInline
      cases hagg : aggregateOf v.path <;> simp_all
    obtain ⟨type', hinlined, hname⟩ := (depicts_inlined hdepicts).1 hinline
    rw [depicts_site hdepicts] at htype
    obtain rfl := Schema.type_of_inlined? hinlined htype
    rw [hdeclared, hdeclared,
      aggregateArguments_eq ht hparameters (not_isFixed_of_model hm) a,
      passed_behind ht hm hm' hnames (mem_outers_of_inlined hv hnone hinlined)]
    intro e _ _
    rw [hname]

/-- A structure with a base class that inlines another structure itself, and with an inlined structure
behind one that gets no class. -/
def transferSchema : Schema := ⟨[
  ("Amount", .table [("type", "byte"), ("size", .int 8)]),
  ("Fees", .table [("type", "struct"), ("layout", .list [
    .table [("name", "feeCount"), ("type", "byte"), ("size", .int 1)],
    .table [("name", "fees"), ("type", "Amount"), ("size", "feeCount")]])]),
  ("Header", .table [("type", "struct"), ("layout", .list [
    .table [("name", "version"), ("type", "byte"), ("size", .int 1)],
    .table [("disposition", "inline"), ("type", "Fees")],
    .table [("name", "deadline"), ("type", "byte"), ("size", .int 8)]])]),
  ("Body", .table [("type", "struct"), ("layout", .list [
    .table [("name", "recipient"), ("type", "byte"), ("size", .int 24)],
    .table [("name", "amount"), ("type", "Amount")]])]),
  ("EntityBody", .table [("type", "struct"), ("layout", .list [
    .table [("name", "network"), ("type", "byte"), ("size", .int 1)],
    .table [("disposition", "inline"), ("type", "Body")]])]),
  ("Transfer", .table [("type", "struct"), ("layout", .list [
    .table [("disposition", "inline"), ("type", "EntityBody")],
    .table [("disposition", "inline"), ("type", "Header")],
    .table [("name", "memo"), ("type", "byte"), ("size", .int 2)]])])]⟩

theorem constructor_arguments_match_transfer :
    ∃ m base body, modelOf .java transferSchema "Transfer" = .ok m ∧
      modelOf .java transferSchema "Header" = .ok base ∧
      modelOf .java transferSchema "Body" = .ok body ∧
      m.superArguments.map (fun e => (e.name, e.varType)) =
        base.constructorParams.map (fun e => (e.name, e.varType)) ∧
      m.superArguments.map (·.name) = ["version", "fees", "deadline"] ∧
      ∃ a ∈ m.own, a.isAggregate = true ∧
        (m.aggregateArguments a).map (fun e => (e.name, e.varType)) =
          body.constructorParams.map (fun e => (e.name, e.varType)) ∧
        (m.aggregateArguments a).map (·.name) = ["recipient", "amount"] := by
  let made := modelOf .java transferSchema "Transfer"
  obtain ⟨m, hm⟩ : ∃ m, made = .ok m := Checked.exists_ok (by decide +kernel)
  obtain ⟨base, hbase⟩ : ∃ m, modelOf .java transferSchema "Header" = .ok m :=
    Checked.exists_ok (by decide +kernel)
  obtain ⟨body, hbody⟩ : ∃ m, modelOf .java transferSchema "Body" = .ok m :=
    Checked.exists_ok (by decide +kernel)
  have hnames : made.toOption.map (fun m => (m.base, m.outerEntries.map (·.name),
      m.superArguments.map (·.name))) =
      some (some "Header", ["body", "header"], ["version", "fees", "deadline"]) := by
    decide +kernel
  have hown : made.toOption.map (fun m => m.own.map fun a => (a.isAggregate, a.site,
      (m.aggregateArguments a).map (·.name))) =
      some [(false, ⟨"EntityBody", 0⟩, []), (true, ⟨"EntityBody", 1⟩, ["recipient", "amount"]),
        (false, ⟨"Transfer", 2⟩, [])] := by
    decide +kernel
  rw [hm, Checked.toOption_ok, Option.map_some, Option.some.injEq] at hnames hown
  obtain ⟨hm₁, hm₂, hm₃⟩ : m.base = some "Header" ∧ m.outerEntries.map (·.name) =
      ["body", "header"] ∧ m.superArguments.map (·.name) = ["version", "fees", "deadline"] := by
    simpa using hnames
  obtain ⟨hsuper, hbehind⟩ := constructor_arguments_match (.inl rfl) hm (by rw [hm₂]; decide)
  obtain ⟨a, ha, haggregate, hsite, harguments⟩ : ∃ a ∈ m.own, a.isAggregate = true ∧
      a.site = ⟨"EntityBody", 1⟩ ∧ (m.aggregateArguments a).map (·.name) =
        ["recipient", "amount"] := by
    have hmem : (true, ⟨"EntityBody", 1⟩, ["recipient", "amount"]) ∈ m.own.map fun a =>
        (a.isAggregate, a.site, (m.aggregateArguments a).map (·.name)) := by simp [hown]
    simpa using hmem
  refine ⟨m, base, body, hm, hbase, hbody, hsuper "Header" base hm₁ hbase, hm₃, a, ha, haggregate,
    hbehind a ha haggregate "Body" body ?_ hbody, harguments⟩
  rw [hsite]
  rfl

end ClassModel
end SchemaForge
