import Mathlib.Data.List.Basic
import SchemaForge.Proofs.Reading
import SchemaForge.Model.Class

/-! The way through a structure and everything that it inlines, as a list of stops. A walk passes the
stops in order, whatever was written into the schema on the way. -/
namespace SchemaForge

namespace Schema

/-- The name that models give to the inline attribute at a site. -/
def nameAt? (s : Schema) (site : Site) : Option Value := (s.attributeAt? site).bind Record.inlineName?

/-- Notes at an inline attribute the name of its structure. -/
def noteName (s : Schema) (site : Site) : Schema :=
  match s.nameAt? site with
  | some name => s.setEntry site "name" name
  | none => s

/-- What a class writes at an attribute that it takes. -/
def note (s : Schema) (name : String) (site : Site) : Schema :=
  (s.noteOwner name site).noteName site

@[simp] theorem settled_noteOwner (s : Schema) (name : String) (site : Site) :
    (s.noteOwner name site).settled = s.settled := by
  unfold noteOwner
  split
  · rfl
  · exact s.settled_setOwner site _

@[simp] theorem settled_noteName (s : Schema) (site : Site) :
    (s.noteName site).settled = s.settled := by
  unfold noteName
  cases hn : s.nameAt? site with
  | none => rfl
  | some name =>
    obtain ⟨r, hr, hname⟩ := Option.bind_eq_some_iff.1 hn
    exact settled_setName hr hname

@[simp] theorem settled_note (s : Schema) (name : String) (site : Site) :
    (s.note name site).settled = s.settled := by
  simp [note]

theorem recordAt_eq_ok {s : Schema} {site : Site} {r : Record} :
    s.recordAt site = .ok r ↔ s.attributeAt? site = some r := by
  unfold recordAt
  cases s.attributeAt? site <;> simp

/-- The structure that the attribute at a site inlines. -/
def inlined? (s : Schema) (site : Site) : Option String :=
  (s.attributeAt? site).bind fun r =>
    if r.isInline then (r.get? "type").bind Value.text? else none

theorem inlined?_settled (s : Schema) (site : Site) : s.settled.inlined? site = s.inlined? site := by
  unfold inlined?
  rw [attributeAt?_settled]
  cases s.attributeAt? site with
  | none => rfl
  | some r => simp [Record.get?_settled]

theorem inlined?_congr {s s' : Schema} (h : s'.settled = s.settled) (site : Site) :
    s'.inlined? site = s.inlined? site := by
  rw [← inlined?_settled s', h, inlined?_settled]

/-- Where the attributes of a structure stand. -/
def sites (s : Schema) (owner : String) : List Site :=
  match s.need owner >>= Value.layout with
  | .ok layout => (List.range layout.length).map fun index => ⟨owner, index⟩
  | .error _ => []

theorem sites_settled (s : Schema) (owner : String) : s.settled.sites owner = s.sites owner := by
  unfold sites
  rw [layout_settled]
  cases s.need owner >>= Value.layout <;> simp [Except.map]

end Schema

namespace Drafting
variable {α β : Type}

/-- Steps that write nothing into the schema. -/
def Keeps (steps : Drafting α) : Prop := ∀ d, (runOn steps d).2.schema = d.schema

theorem keeps_bind {steps : Drafting α} {next : α → Drafting β} (h : Keeps steps)
    (hn : ∀ a, Keeps (next a)) : Keeps (steps >>= next) := by
  intro d
  have hd := h d
  rw [runOn_bind]
  rcases hr : runOn steps d with ⟨fault | a, d'⟩ <;> rw [hr] at hd
  · exact hd
  · exact (hn a d').trans hd

theorem keeps_pure (a : α) : Keeps (pure a) := fun _ => rfl

theorem keeps_lift (x : Checked α) : Keeps (liftM x) := fun d => by simp

theorem keeps_tell (line : String) : Keeps (tell line) := fun _ => rfl

@[simp] theorem runOn_tell (line : String) (d : Draft) :
    runOn (tell line) d = (.ok (), { d with report := line :: d.report }) := rfl

@[simp] theorem runOn_schema (d : Draft) : runOn schema d = (.ok d.schema, d) := rfl

@[simp] theorem runOn_attributeAt (site : Site) (d : Draft) :
    runOn (attributeAt site) d = (d.schema.recordAt site, d) := by
  simp [attributeAt, runOn_bind]

@[simp] theorem runOn_layout (name : String) (d : Draft) :
    runOn (layout name) d = (d.schema.need name >>= Value.layout, d) := by
  simp only [layout, declaration, runOn_bind, runOn_schema, runOn_lift]
  cases d.schema.need name <;> simp

end Drafting

namespace ClassModel
open Drafting

theorem keeps_addEntry (f : Frame) (site : Site) (aggregate : Option Aggregate) :
    Keeps (addEntry f site aggregate) := by
  intro d
  simp only [addEntry, runOn_bind, runOn_get, runOn_lift]
  cases entryOf f d.schema d.entries site aggregate <;> simp

theorem keeps_addConstant (f : Frame) (site : Site) : Keeps (addConstant f site) := by
  intro d
  simp only [addConstant, runOn_bind, runOn_schema, runOn_tell, runOn_lift]
  cases constantOf f.target d.schema site <;> simp

theorem keeps_visit (f : Frame) (site : Site) (aggregate : Option Aggregate) (depth : Nat) :
    Keeps (visit f site aggregate depth) := by
  apply keeps_bind fun d => by rw [runOn_attributeAt]
  intro r
  apply keeps_bind (keeps_lift _)
  intro name
  apply keeps_bind (keeps_lift _)
  intro name
  exact keeps_bind (keeps_tell _) fun _ => keeps_addEntry f site aggregate

theorem keeps_takePlain (f : Frame) (r : Record) (site : Site) (aggregate : Option Aggregate)
    (depth : Nat) : Keeps (takePlain f r site aggregate depth) := by
  unfold takePlain
  split
  · exact keeps_addConstant f site
  · split
    · exact keeps_visit f site aggregate depth
    · exact keeps_pure ()

theorem keeps_visitShown (f : Frame) (type : Value) (site : Site) (aggregate : Option Aggregate)
    (depth : Nat) :
    Keeps (if isHidden type then pure () else visit f site aggregate depth) := by
  split
  · exact keeps_pure ()
  · exact keeps_visit f site aggregate depth

theorem schema_takeInline {f : Frame} {r : Record} {site : Site} {d : Draft}
    (hr : d.schema.attributeAt? site = some r) (hi : r.isInline = true)
    (aggregate : Option Aggregate) (depth : Nat) :
    (runOn (takeInline f r site aggregate depth) d).2.schema = d.schema.noteName site := by
  have hn : d.schema.nameAt? site = (r.get? "type").bind fun type => type.lowerFirst.toOption := by
    rw [Schema.nameAt?, hr, Option.bind_some, Record.inlineName?, if_pos hi]
  unfold takeInline Schema.noteName Record.need
  rw [hn, runOn_bind]
  cases r.get? "type" with
  | none => simp [Checked.require]
  | some type =>
    simp only [Checked.require, runOn_lift, Option.bind_some]
    rw [runOn_bind, runOn_lift]
    cases type.lowerFirst with
    | error fault => rfl
    | ok name =>
      have hrest := keeps_bind (keeps_visitShown f type site aggregate depth)
        fun _ => keeps_lift type.joined
      exact hrest { d with schema := d.schema.setEntry site "name" name }

theorem type_of_takeInline {f : Frame} {r : Record} {site : Site} {aggregate : Option Aggregate}
    {depth : Nat} {d d' : Draft} {inner : String}
    (h : runOn (takeInline f r site aggregate depth) d = (.ok inner, d')) :
    r.get? "type" = some (.text inner) := by
  unfold takeInline at h
  obtain ⟨type, _, htype, h⟩ := runOn_bind_eq_ok.1 h
  obtain ⟨name, _, _, h⟩ := runOn_bind_eq_ok.1 h
  obtain ⟨_, _, _, h⟩ := runOn_bind_eq_ok.1 h
  obtain ⟨_, _, _, h⟩ := runOn_bind_eq_ok.1 h
  rw [runOn_lift, Prod.mk.injEq] at h htype
  have htext : type = .text inner := by
    cases type <;> simp_all [Value.joined]
  unfold Record.need at htype
  cases hg : r.get? "type" with
  | none => simp [hg, Checked.require] at htype
  | some v => simp_all [Checked.require]

theorem runOn_meet (f : Frame) (site : Site) (aggregate : Option Aggregate) (depth : Nat)
    (d : Draft) : runOn (meet f site aggregate depth) d =
      let noted : Draft := { d with schema := d.schema.noteOwner f.name site }
      match noted.schema.recordAt site with
      | .error fault => (.error fault, noted)
      | .ok r =>
        if r.isInline then
          let taken := runOn (takeInline f r site aggregate depth) noted
          (taken.1.map some, taken.2)
        else
          let taken := runOn (takePlain f r site aggregate depth) noted
          (taken.1.map fun _ => none, taken.2) := by
  simp only [meet, runOn_bind, runOn_modify, runOn_attributeAt]
  cases (d.schema.noteOwner f.name site).recordAt site with
  | error fault => rfl
  | ok r => by_cases hi : r.isInline = true <;> simp [hi]

/-- A class writes the same at an attribute whether or not it succeeds in taking it. -/
theorem schema_meet (f : Frame) (site : Site) (aggregate : Option Aggregate) (depth : Nat)
    (d : Draft) : (runOn (meet f site aggregate depth) d).2.schema = d.schema.note f.name site := by
  rw [runOn_meet, Schema.note]
  generalize d.schema.noteOwner f.name site = s
  cases hr : s.recordAt site with
  | error fault =>
    have hnone : s.attributeAt? site = none := by
      unfold Schema.recordAt at hr
      split at hr <;> simp_all
    simp [Schema.noteName, Schema.nameAt?, hnone, hr]
  | ok r =>
    have hat := Schema.recordAt_eq_ok.1 hr
    by_cases hi : r.isInline = true
    · simp only [hr, hi, if_true]
      exact schema_takeInline (d := { d with schema := s }) hat hi aggregate depth
    · have hname : s.noteName site = s := by
        simp [Schema.noteName, Schema.nameAt?, hat, Record.inlineName?, hi]
      simp only [hr, hi, hname]
      exact keeps_takePlain f r site aggregate depth { d with schema := s }

/-- The answer for an attribute can be told beforehand from any state of the schema. -/
theorem inlined_of_meet {f : Frame} {site : Site} {aggregate : Option Aggregate} {depth : Nat}
    {d d' : Draft} {inner : Option String}
    (h : runOn (meet f site aggregate depth) d = (.ok inner, d')) :
    d.schema.inlined? site = inner := by
  rw [runOn_meet] at h
  rw [← Schema.inlined?_congr (d.schema.settled_noteOwner f.name site)]
  generalize d.schema.noteOwner f.name site = s at h ⊢
  cases hr : s.recordAt site with
  | error fault => simp [hr] at h
  | ok r =>
    have hat := Schema.recordAt_eq_ok.1 hr
    simp only [Schema.inlined?, hat, Option.bind_some]
    by_cases hi : r.isInline = true
    · simp only [hr, hi, if_true, Prod.mk.injEq] at h
      rcases ht : runOn (takeInline f r site aggregate depth) { d with schema := s } with
        ⟨fault | type, d₂⟩
      · simp [ht, Except.map] at h
      · obtain rfl : some type = inner := by simpa [ht, Except.map] using h.1
        simp [hi, type_of_takeInline ht]
    · simp only [hr, hi, Bool.false_eq_true, if_false, Prod.mk.injEq] at h
      rcases ht : runOn (takePlain f r site aggregate depth) { d with schema := s } with
        ⟨fault | _, d₂⟩
      · simp [ht, Except.map] at h
      · obtain rfl : none = inner := by simpa [ht, Except.map] using h.1
        simp [hi]

end ClassModel

/-- An inline attribute with the structure that it inlines. -/
structure Inline where
  site : Site
  type : String

/-- A place on the way through a structure. The path has the inline attributes that lead there, the
outermost one in front. -/
inductive Stop where
  | enter (path : List Inline) (owner : String)
  | meet (path : List Inline) (site : Site)
  /-- Nothing comes behind the last structure that a walk may enter. -/
  | endless

namespace Stop

/-- The stop on the way through a structure that is itself reached by a path. -/
def under (outer : List Inline) : Stop → Stop
  | enter path owner => enter (outer ++ path) owner
  | meet path site => meet (outer ++ path) site
  | endless => endless

theorem under_nil (stop : Stop) : stop.under [] = stop := by cases stop <;> rfl

theorem under_under (outer inner : List Inline) (stop : Stop) :
    (stop.under inner).under outer = stop.under (outer ++ inner) := by
  cases stop <;> simp [under]

end Stop

/-- The stops on the way through a structure, with a limit for how deep structures may inline one
another. -/
def Schema.tour (s : Schema) : Nat → String → List Stop
  | 0, _ => [.endless]
  | limit + 1, owner =>
    .enter [] owner :: (s.sites owner).flatMap fun site =>
      .meet [] site :: match s.inlined? site with
        | some type => (s.tour limit type).map (Stop.under [⟨site, type⟩])
        | none => []

theorem Schema.tour_settled (s : Schema) (limit : Nat) (owner : String) :
    s.settled.tour limit owner = s.tour limit owner := by
  induction limit generalizing owner with
  | zero => rfl
  | succ limit ih => simp only [tour, sites_settled, inlined?_settled, ih]

theorem Schema.endless_notMem_inner {s : Schema} {limit : Nat} {owner type : String} {site : Site}
    (h : Stop.endless ∉ s.tour (limit + 1) owner) (hsite : site ∈ s.sites owner)
    (hin : s.inlined? site = some type) : Stop.endless ∉ s.tour limit type := by
  intro hmem
  apply h
  rw [tour]
  apply List.mem_cons_of_mem
  refine List.mem_flatMap.2 ⟨site, hsite, ?_⟩
  rw [hin]
  exact List.mem_cons_of_mem _ (List.mem_map.2 ⟨.endless, hmem, rfl⟩)

/-- A tour that ends before its limit is the same for a greater one. -/
theorem Schema.tour_succ {s : Schema} {limit : Nat} {owner : String}
    (h : Stop.endless ∉ s.tour limit owner) : s.tour (limit + 1) owner = s.tour limit owner := by
  induction limit generalizing owner with
  | zero => simp [tour] at h
  | succ limit ih =>
    rw [tour, tour]
    congr 1
    apply List.flatMap_congr
    intro site hsite
    cases hin : s.inlined? site with
    | none => rfl
    | some type => simp only [ih (endless_notMem_inner h hsite hin)]

theorem Schema.tour_eq_of_le {s : Schema} {limit limit' : Nat} (hle : limit ≤ limit') {owner : String}
    (h : Stop.endless ∉ s.tour limit owner) : s.tour limit' owner = s.tour limit owner := by
  induction hle with
  | refl => rfl
  | step _ ih => rw [tour_succ (by rwa [ih]), ih]

/-- Tours that end within their limits do not depend on the limits. -/
theorem Schema.tour_eq_of_finite {s : Schema} {limit limit' : Nat} {owner : String}
    (h : Stop.endless ∉ s.tour limit owner) (h' : Stop.endless ∉ s.tour limit' owner) :
    s.tour limit owner = s.tour limit' owner := by
  rcases Nat.le_total limit limit' with hle | hle
  · exact (tour_eq_of_le hle h).symm
  · exact tour_eq_of_le hle h'

namespace ClassModel
open Drafting

/-- The attribute of the class through which a path leads. -/
def aggregateOf (path : List Inline) : Option Aggregate :=
  (path.find? fun i => !isHidden i.type).map fun i => ⟨Text.lowerFirst i.type, i.type⟩

theorem outermost_aggregateOf (path : List Inline) (site : Site) (type : String) :
    outermost (aggregateOf path) type = aggregateOf (path ++ [⟨site, type⟩]) := by
  unfold outermost aggregateOf
  rw [List.find?_append]
  cases path.find? fun i => !isHidden i.type with
  | some i => simp
  | none => by_cases h : isHidden type <;> simp [h]

/-- What a walk does at a stop. -/
def pass (f : Frame) : Stop → Drafting Unit
  | .enter path owner => do
    tell (tabs "\t" path.length ++ "- " ++ owner)
    let _ ← layout owner
  | .meet path site => (fun _ => ()) <$> meet f site (aggregateOf path) path.length
  | .endless => throw .endless

theorem settled_pass (f : Frame) (stop : Stop) (d : Draft) :
    (runOn (pass f stop) d).2.schema.settled = d.schema.settled := by
  cases stop with
  | enter path owner =>
    simp only [pass, runOn_bind, runOn_tell, runOn_layout]
    cases d.schema.need owner >>= Value.layout <;> rfl
  | meet path site => simp [pass, schema_meet]
  | endless => rfl

theorem settled_passes (f : Frame) (stops : List Stop) (path : List Inline) (d : Draft) :
    (runOn (forM stops fun stop => pass f (stop.under path)) d).2.schema.settled =
      d.schema.settled := by
  induction stops generalizing d with
  | nil => rfl
  | cons stop stops ih =>
    have hpass := settled_pass f (stop.under path) d
    rw [List.forM_cons, runOn_bind]
    rcases hr : runOn (pass f (stop.under path)) d with ⟨fault | _, d'⟩ <;> rw [hr] at hpass
    · exact hpass
    · exact (ih d').trans hpass

/-- The part of a walk that belongs to one structure, once walks through what it inlines are known. -/
theorem runOn_walk_sites (f : Frame) (limit : Nat) (path : List Inline) (s : Schema)
    (ih : ∀ owner path d, d.schema.settled = s.settled →
      runOn (walk f limit owner (aggregateOf path) path.length) d =
        runOn (forM (s.tour limit owner) fun stop => pass f (stop.under path)) d)
    (sites : List Site) (d : Draft) (h : d.schema.settled = s.settled) :
    runOn (forM sites fun site => do
      match ← meet f site (aggregateOf path) path.length with
      | none => pure ()
      | some inner => walk f limit inner (outermost (aggregateOf path) inner) (path.length + 1)) d =
    runOn (forM (sites.flatMap fun site => .meet [] site :: match s.inlined? site with
        | some type => (s.tour limit type).map (Stop.under [⟨site, type⟩])
        | none => []) fun stop => pass f (stop.under path)) d := by
  induction sites generalizing d with
  | nil => rfl
  | cons site sites ihs =>
    simp only [List.flatMap_cons, List.forM_cons, List.forM_append, bind_assoc]
    rw [Stop.under, List.append_nil, pass, bind_map_left]
    apply runOn_bind_congr rfl
    intro inner d₁ hmeet
    have hinner := inlined_of_meet hmeet
    rw [Schema.inlined?_congr h] at hinner
    have h₁ : d₁.schema.settled = s.settled := by
      have hschema := congrArg (fun out => out.2.schema.settled) hmeet
      simpa [schema_meet, h] using hschema.symm
    rw [hinner]
    cases inner with
    | none => exact ihs d₁ h₁
    | some type =>
      have hwalk := ih type (path ++ [⟨site, type⟩]) d₁ h₁
      rw [List.length_append, List.length_singleton, ← outermost_aggregateOf] at hwalk
      simp only [List.forM_map, Stop.under_under]
      apply runOn_bind_congr hwalk
      intro _ d₂ hr
      have h₂ := settled_passes f (s.tour limit type) (path ++ [⟨site, type⟩]) d₁
      rw [← hwalk, hr] at h₂
      exact ihs d₂ (h₂.trans h₁)

/-- A walk passes the stops of the tour that any state of its schema gives. -/
theorem runOn_walk (f : Frame) (limit : Nat) (owner : String) (path : List Inline) (s : Schema)
    (d : Draft) (h : d.schema.settled = s.settled) :
    runOn (walk f limit owner (aggregateOf path) path.length) d =
      runOn (forM (s.tour limit owner) fun stop => pass f (stop.under path)) d := by
  induction limit generalizing owner path d with
  | zero => rfl
  | succ limit ih =>
    rw [walk, Schema.tour, List.forM_cons, Stop.under, List.append_nil, pass]
    simp only [bind_assoc, List.forM_eq_forM]
    apply runOn_bind_congr rfl
    intro _ d₁ htell
    apply runOn_bind_congr rfl
    intro layout d₂ hlayout
    rw [runOn_tell, Prod.mk.injEq] at htell
    rw [runOn_layout, Prod.mk.injEq] at hlayout
    obtain ⟨_, rfl⟩ := htell
    obtain ⟨hlayout, rfl⟩ := hlayout
    have hsites : s.sites owner = (List.range layout.length).map fun index => ⟨owner, index⟩ := by
      rw [← Schema.sites_settled, ← h, Schema.sites_settled, Schema.sites, hlayout]
    have hrun := runOn_walk_sites f limit path s ih (s.sites owner)
    simp only [hsites, List.forM_map] at hrun
    rw [pure_bind, hsites]
    exact hrun _ h

end ClassModel
end SchemaForge
