import SchemaForge.Proofs.FilePlan
import SchemaForge.Proofs.Rendering
import SchemaForge.Proofs.SizeFields
import SchemaForge.Proofs.SoundSources

/-! Class files are local. What a run writes for a structure depends on the types in the closure of the
structure alone, whatever else the schema declares and in whatever order. -/
namespace SchemaForge
open Checked

namespace ClassModel
variable {t : Target} {s : Schema} {name : String} {m : ClassModel}

/-- The discriminators of a class are met on the tour through its structure. -/
theorem discriminator_met (hm : modelOf t s name = .ok m) :
    ∀ e ∈ m.entries, ∀ site ∈ e.conditionSite, site ∈ s.met s.depthLimit name := by
  obtain ⟨f, -, rfl, -, hdrawn, hends, -⟩ := drawn_of_model hm
  refine forall_of_drawn ?_ hdrawn
  intro s' before site aggregate e hs h discriminator hdiscriminator
  obtain ⟨member, -, h⟩ := bind_eq_ok.1 h
  obtain ⟨r, -, h⟩ := bind_eq_ok.1 h
  obtain ⟨conditionSite, hcondition, h⟩ := bind_eq_ok.1 h
  obtain ⟨parent, -, rfl⟩ := return_eq_ok.1 h
  obtain rfl : conditionSite = some discriminator := hdiscriminator
  unfold discriminatorOf at hcondition
  cases hc : r.get? "condition" with
  | none => simp [hc] at hcondition
  | some c =>
    simp only [hc] at hcondition
    have hfound := List.mem_of_find?_eq_some (Schema.findSite_eq_find? hcondition).symm
    rwa [Schema.met, ← Schema.tour_settled, ← Schema.depthLimit_settled, hs, Schema.tour_settled,
      Schema.depthLimit_settled, Schema.tour_succ hends] at hfound

theorem sites_met (hm : modelOf t s name = .ok m) {e : Entry} (he : e ∈ m.entries) :
    ∀ site ∈ e.sites, site ∈ s.met s.depthLimit name := by
  simp only [Entry.sites, List.mem_cons, List.mem_append, Option.mem_toList]
  rintro site (rfl | hparent | hdiscriminator)
  · exact mem_met_of_model hm he
  · rw [parent_eq_find? hm he] at hparent
    exact List.mem_of_find?_eq_some hparent
  · exact discriminator_met hm e he site hdiscriminator

theorem sites_choose {c : Choice} {e e' : Entry} (h : choose s c e = .ok e') : e'.sites = e.sites := by
  unfold choose at h
  generalize (if c.known = true then c.value else Value.null) = wanted at h
  dsimp only at h
  split at h
  · rw [← Except.ok.inj h]
    rfl
  split at h
  · rw [← Except.ok.inj h]
  obtain ⟨asked, -, h⟩ := bind_eq_ok.1 h
  split at h
  · rw [← Except.ok.inj h]
  · rw [← Except.ok.inj h]
    rfl

/-- What a constructor takes looks at the same attributes as an entry of the class. -/
theorem sites_constructor (hm : modelOf t s name = .ok m) {choice : List Entry}
    (hchoice : choice ∈ m.constructors) {e : Entry} (he : e ∈ choice) :
    ∃ e' ∈ m.entries, e.sites = e'.sites := by
  obtain ⟨className, f, comments, d, -, -, -, hfinish⟩ := passes_of_modelOf hm
  obtain ⟨constructors, hconstructors, rfl⟩ := return_eq_ok.1 hfinish
  have hparameter : ∀ e ∈ d.entries.filter (isParameter f.target), e ∈ d.entries := fun e he =>
    (List.mem_filter.1 he).1
  obtain ⟨eqs, -, hconstructors⟩ := bind_eq_ok.1 hconstructors
  obtain ⟨choices, -, hconstructors⟩ := bind_eq_ok.1 hconstructors
  split at hconstructors
  · rw [← Except.ok.inj hconstructors] at hchoice
    obtain rfl := List.mem_singleton.1 hchoice
    exact ⟨e, hparameter e he, rfl⟩
  · obtain ⟨c, -, hc⟩ := mem_of_mapM hconstructors hchoice
    obtain ⟨e', he', hchosen⟩ := mem_of_mapM hc he
    exact ⟨e', hparameter e' he', sites_choose hchosen⟩

end ClassModel

namespace Schema
variable {s₁ s₂ s₁' s₂' : Schema} {name : String} {site : Site}

theorem NamedAt.attributeAt {s : Schema} (h : s.NamedAt site) : (s.attributeAt site).Named := by
  unfold Schema.attributeAt
  cases hr : s.attributeAt? site with
  | none => exact Record.named_of_plain rfl
  | some r => exact h r hr

/-- After planning, schemas that declare the closure of a class alike agree on the attributes that the
class meets. -/
theorem AlikeFor.agreeAt (h : AlikeFor name s₁ s₂) (hs₁ : s₁'.settled = s₁.settled)
    (hs₂ : s₂'.settled = s₂.settled) (hn₁ : s₁'.NamedAt site) (hn₂ : s₂'.NamedAt site)
    (hsite : s₁.Composes name site.owner) : s₁'.AgreeAt s₂' site := by
  have hsettled : (s₁'.attributeAt site).settled = (s₂'.attributeAt site).settled := by
    rw [← attributeAt_settled, ← attributeAt_settled, hs₁, hs₂, attributeAt_settled,
      attributeAt_settled, attributeAt_same h (.taken hsite)]
  refine ⟨fun key howner => ?_, fun type htype => ?_⟩
  · by_cases hname : key = "name"
    · subst hname
      rw [← hn₁.attributeAt, hsettled, hn₂.attributeAt]
    · rw [← Record.get?_settled _ howner hname, hsettled, Record.get?_settled _ howner hname]
  · have hread : ∀ user, s₁.className type user = s₂.className type user := by
      refine fun user => className_same h user fun typeName htypeName => ?_
      subst htypeName
      obtain ⟨r, hr, hget⟩ := need_attributeAt htype
      exact (hsite.reads hs₁).type hr hget
    rw [← className_settled, hs₁, className_settled, hread, ← className_settled, ← hs₂,
      className_settled, ← className_settledAttribute, Value.settledAttribute_record, hsettled,
      ← Value.settledAttribute_record, className_settledAttribute]

theorem AlikeFor.isClass (h : AlikeFor name s₁ s₂) : s₁.isClass name = s₂.isClass name := by
  simp only [Schema.isClass, isSort, Value.text?, Option.any_some, h name (.taken .refl)]

/-- The schemas that two complete plannings leave agree wherever the text of a class looks whose closure
they declare alike. -/
theorem AlikeFor.agrees (h : AlikeFor name s₁ s₂) (hclass : s₁.isClass name = true)
    (hname₁ : name ∈ s₁.names) (hname₂ : name ∈ s₂.names) (h₁ : s₁.Complete s₁')
    (h₂ : s₂.Complete s₂') {t : Target} {m : ClassModel} (hm₁ : ClassModel.modelOf t s₁ name = .ok m)
    (hm₂ : ClassModel.modelOf t s₂ name = .ok m) : m.Agrees s₁' s₂' := by
  have hentries : ∀ e ∈ m.entries, e.Agrees s₁' s₂' := by
    intro e he site hsite
    have hmet₁ := ClassModel.sites_met hm₁ he site hsite
    have hmet₂ := ClassModel.sites_met hm₂ he site hsite
    exact h.agreeAt h₁.reached.settled h₂.reached.settled (h₁.namedAt hname₁ hclass hmet₁)
      (h₂.namedAt hname₂ (h.isClass ▸ hclass) hmet₂) (composes_of_met .refl hmet₁)
  refine ⟨hentries, fun e he => ?_, fun choice hchoice e he => ?_⟩
  · obtain ⟨-, -, -, -, -, -, hparameters⟩ := ClassModel.drawn_of_model hm₁
    rw [hparameters] at he
    exact hentries e (List.mem_filter.1 he).1
  · obtain ⟨e', he', hsites⟩ := ClassModel.sites_constructor hm₁ hchoice he
    unfold Entry.Agrees
    rw [hsites]
    exact hentries e' he'

end Schema

namespace Plan
variable {s₀ s : Schema} {t : Target} {name : String}

/-- What planning has for a type in a state that it can leave. -/
def Planned (s₀ : Schema) (t : Target) (name : String) (plan : Option Plan) : Prop :=
  ∃ s, s₀.Reached s ∧ (runOn (ofType? t name) s).1 = .ok plan

theorem planned_all {plans : List Plan} (h : runOn (all t) s₀ = (.ok plans, s)) :
    s₀.Complete s ∧ ∃ typed, List.Forall₂ (Planned s₀ t) s₀.names typed ∧
      plans = typed.filterMap id ++ t.supportFiles.map support :=
  forall₂_all (fun s _ _ hr _ hplan => ⟨s, hr, hplan⟩) h

/-- The plan for a structure with a class is, in all that its file shows, made from the schema as it was
before planning. -/
theorem Planned.struct (hc : s₀.Clear) (hclass : s₀.isClass name = true) {plan : Option Plan}
    (h : Planned s₀ t name plan) :
    ∃ m m', plan = some (.struct m') ∧ ClassModel.modelOf t s₀ name = .ok m ∧ m'.bare = m.bare := by
  obtain ⟨s, hr, hplan⟩ := h
  have hsame := ofType?_congr hc hr (.refl s₀) t name
  rw [hplan, runOn_ofType?_of_class t (.refl s₀) hclass] at hsame
  rw [runOn_ofType?_of_class t hr hclass] at hplan
  obtain ⟨m', -, rfl⟩ := map_eq_ok.1 hplan
  cases hm : ClassModel.modelOf t s₀ name with
  | error fault => simp [hm] at hsame
  | ok m =>
    refine ⟨m, m', rfl, rfl, ?_⟩
    simpa [hm, bare] using hsame

/-- Only the plan for a type is for a file that is named after it. -/
theorem Planned.name_eq {plan : Option Plan} {p : Plan} (h : Planned s₀ t name plan)
    (hp : plan = some p) {other suffix : String} (hs : suffix ∈ ["Dto", "Builder"])
    (hfile : p.fileName t = other ++ suffix ++ t.extension) : name = other := by
  obtain ⟨s, -, hplan⟩ := h
  obtain ⟨sort, hsort, -⟩ := bind_eq_ok.1 ((runOn_ofType? t name s).symm.trans hplan)
  have hname := fileName_ofType? hsort hplan
  rw [hp, Option.map_some, hfile] at hname
  obtain ⟨own, hown, heq⟩ := Option.map_eq_some_iff.1 hname.symm
  have hmem : own ∈ ["Dto", "Builder"] := by
    unfold fileSuffix? at hown
    split at hown
    · simp [← Option.some.inj hown]
    split at hown
    · simp [← Option.some.inj hown]
    · cases hown
  exact Schema.name_unique hmem hs heq

end Plan

namespace ClassRun
variable {t : Target} {notice : Notice} {s : Schema}

/-- Files that are all written are those for the plans, one for each. -/
theorem mapM_writeAll {plans : List Plan} (h : (writeAll t notice s plans).2 = none) :
    plans.mapM (·.write t notice s) = .ok (writeAll t notice s plans).1 := by
  induction plans with
  | nil => rfl
  | cons p plans ih =>
    rw [writeAll] at h ⊢
    cases hp : p.write t notice s with
    | error fault => simp [hp] at h
    | ok file =>
      simp only [hp] at h
      simp [List.mapM_cons, hp, ih h]

/-- What a run has planned and written when it ends without a fault. -/
theorem exists_plans (hd : (drain t notice s).2.1 = none) :
    ∃ plans s' typed, runOn (Plan.all t) s = (.ok plans, s') ∧ s.Complete s' ∧
      List.Forall₂ (Plan.Planned s t) s.names typed ∧
      plans = typed.filterMap id ++ t.supportFiles.map .support ∧
      plans.mapM (·.write t notice s') = .ok (drain t notice s).1 := by
  rw [drain_eq] at hd ⊢
  rcases hall : runOn (Plan.all t) s with ⟨fault | plans, s'⟩
  · simp [hall] at hd
  simp only [hall] at hd ⊢
  obtain ⟨hcomplete, typed, htyped, hplans⟩ := Plan.planned_all hall
  exact ⟨plans, s', typed, rfl, hcomplete, htyped, hplans, mapM_writeAll hd⟩

/-- The one file of its name among those of a run. -/
def Presents (files : List SourceFile) (file : SourceFile) : Prop :=
  file ∈ files ∧ ∀ other ∈ files, other.name = file.name → other = file

/-- A run without a fault has one file for a structure with a class: the one that is written, when
planning is complete, for the model that was there before. -/
theorem presents_class (hc : s.Clear) {name : String} (hname : name ∈ s.names)
    (hclass : s.isClass name = true) (hd : (drain t notice s).2.1 = none) :
    ∃ m file, ClassModel.modelOf t s name = .ok m ∧
      (Plan.struct m).write t notice (s.markAll s.marks) = .ok file ∧
      file.name = name ++ "Builder" ++ t.extension ∧ Presents (drain t notice s).1 file := by
  obtain ⟨plans, s', typed, -, rfl, htyped, rfl, hfiles⟩ := exists_plans hd
  obtain ⟨plan, hplan, hplanned⟩ := Plan.exists_made htyped hname
  obtain ⟨m, m', rfl, hm, hbare⟩ := hplanned.struct hc hclass
  have hmem : Plan.struct m' ∈ typed.filterMap id := List.mem_filterMap.2 ⟨_, hplan, rfl⟩
  obtain ⟨file, hfile, hwrite⟩ := exists_of_mapM hfiles (List.mem_append_left _ hmem)
  -- Every plan for the structure gives this file.
  have hshown : ∀ m'', m''.bare = m.bare →
      (Plan.struct m'').write t notice (s.markAll s.marks) =
        (Plan.struct m).write t notice (s.markAll s.marks) := by
    intro m'' hbare''
    have heq : (Plan.struct m'').bare = (Plan.struct m).bare := congrArg Plan.struct hbare''
    rw [← Plan.write_bare, heq, Plan.write_bare]
  have hsort := Schema.need_of_isSort (Schema.isSort_of_isClass hclass)
  have hfileName : file.name = name ++ "Builder" ++ t.extension := by
    rw [hshown m' hbare] at hwrite
    rw [Plan.name_of_write hwrite, Plan.fileName, Plan.fileName_struct hsort hm,
      if_pos (by decide)]
  refine ⟨m, file, hm, hshown m' hbare ▸ hwrite, hfileName, hfile, fun other hother heq => ?_⟩
  obtain ⟨p, hp, hpwrite⟩ := mem_of_mapM hfiles hother
  have hpname : p.fileName t = name ++ "Builder" ++ t.extension := by
    rw [← Plan.name_of_write hpwrite, heq, hfileName]
  rcases List.mem_append.1 hp with hp | hp
  · obtain ⟨typeName, -, hplanned'⟩ := Plan.exists_name_of_made htyped hp
    obtain rfl := hplanned'.name_eq rfl (by simp) hpname
    obtain ⟨m₁, m'', hsome, hm₁, hbare''⟩ := hplanned'.struct hc hclass
    obtain rfl := Option.some.inj hsome
    obtain rfl : m = m₁ := Except.ok.inj (hm.symm.trans hm₁)
    rw [hshown m'' hbare'', ← hshown m' hbare, hwrite] at hpwrite
    exact (Except.ok.inj hpwrite).symm
  · obtain ⟨support, hsupport, rfl⟩ := List.mem_map.1 hp
    exact absurd hpname.symm (Schema.supportFile_ne (by simp) hsupport)

/-- Class files are local: schemas that declare the closure of a structure alike, whatever other types
they have and in whatever order, give it the same file. -/
theorem class_file_local (t : Target) (notice : Notice) {s₁ s₂ : Schema} {name : String}
    (hclass : s₁.isClass name = true) (h : Schema.AlikeFor name s₁ s₂) (hc₁ : s₁.Clear)
    (hc₂ : s₂.Clear) (hd₁ : (drain t notice s₁).2.1 = none) (hd₂ : (drain t notice s₂).2.1 = none) :
    ∃ file, file.name = name ++ "Builder" ++ t.extension ∧
      Presents (drain t notice s₁).1 file ∧ Presents (drain t notice s₂).1 file := by
  obtain ⟨_, d, hd, hget, -⟩ := Schema.exists_of_isSort (Schema.isSort_of_isClass hclass)
  obtain rfl := Value.text.inj hd
  have hname₁ := Schema.mem_names_of_get? hget
  have hname₂ := Schema.mem_names_of_get? ((h name (.taken .refl)).symm.trans hget)
  obtain ⟨m₁, file₁, hm₁, hwrite₁, hfile, hpresents₁⟩ := presents_class hc₁ hname₁ hclass hd₁
  obtain ⟨m₂, file₂, hm₂, hwrite₂, -, hpresents₂⟩ := presents_class hc₂ hname₂ (h.isClass ▸ hclass) hd₂
  obtain rfl := ClassModel.modelOf_same h hm₁ hm₂
  have hagrees := h.agrees hclass hname₁ hname₂ rfl rfl hm₁ hm₂
  have hbody : ∀ s, (Plan.struct m₁).body t s = m₁.source t s := fun _ => rfl
  have hsame : file₁ = file₂ := by
    have hwrite : (Plan.struct m₁).write t notice (s₁.markAll s₁.marks) =
        (Plan.struct m₁).write t notice (s₂.markAll s₂.marks) := by
      rw [Plan.write, Plan.writeCopies, Plan.writeCopies, hbody, hbody,
        ClassModel.source_same hagrees t]
    exact Except.ok.inj (hwrite₁.symm.trans (hwrite.trans hwrite₂))
  exact ⟨file₁, hfile, hpresents₁, hsame ▸ hpresents₂⟩

end ClassRun

/-- A structure and the types that attributes of a schema name. -/
def Schema.mentioned (s : Schema) (name : String) : List String :=
  name :: s.attributes.filterMap fun r => (r.get? "type").bind Value.text?

theorem Schema.Closure.mem_mentioned {s : Schema} {name type : String} (h : s.Closure name type) :
    type ∈ s.mentioned name := by
  have hnamed : ∀ {site : Site} {r : Record} {type : String}, s.attributeAt? site = some r →
      r.get? "type" = some (.text type) → type ∈ s.mentioned name := by
    intro site r type hr hn
    refine List.mem_cons_of_mem _ (List.mem_filterMap.2 ⟨r, mem_attributes.2 ⟨site, hr⟩, ?_⟩)
    rw [hn]
    rfl
  cases h with
  | named composes stands names => exact hnamed stands names
  | taken composes =>
    rcases Relation.ReflTransGen.cases_tail composes with rfl | ⟨outer, -, site, -, hinner⟩
    · exact List.mem_cons_self
    · obtain ⟨r, hr, hinner⟩ := Option.bind_eq_some_iff.1 hinner
      split at hinner
      · obtain ⟨v, hv, htext⟩ := Option.bind_eq_some_iff.1 hinner
        cases v with
        | text own =>
          obtain rfl := Option.some.inj htext
          exact hnamed hr hv
        | _ => cases htext
      · cases hinner

/-- A schema with a structure around the lease, and the types of the lease in another order. -/
def subleaseSchema : Schema := ⟨
  ("Sublease", .table [("type", "struct"), ("layout", .list [
    .table [("disposition", "inline"), ("type", "Lease")],
    .table [("name", "tenant"), ("type", "byte"), ("size", .int 4)]])]) ::
  ClassModel.leaseSchema.types.reverse⟩

theorem ClassRun.class_file_local_lease : ∃ file, file.name = "LeaseBuilder.java" ∧
    Presents (drain .java .absent ClassModel.leaseSchema).1 file ∧
    Presents (drain .java .absent subleaseSchema).1 file := by
  have halike : ∀ type ∈ ClassModel.leaseSchema.mentioned "Lease",
      ClassModel.leaseSchema.get? type = subleaseSchema.get? type := by
    have hmentioned : ClassModel.leaseSchema.mentioned "Lease" =
        ["Lease", "byte", "Header", "Amount", "Amount", "LeaseFlags", "byte", "Amount"] := by
      decide +kernel
    simp only [hmentioned, List.mem_cons, List.not_mem_nil, or_false]
    rintro type (rfl | rfl | rfl | rfl | rfl | rfl | rfl | rfl) <;> rfl
  exact class_file_local .java .absent (by decide +kernel) (fun type h => halike type h.mem_mentioned)
    (by decide +kernel) (by decide +kernel) (Option.isNone_iff_eq_none.1 (by decide +kernel))
    (Option.isNone_iff_eq_none.1 (by decide +kernel))

end SchemaForge
