import SchemaForge.Proofs.SoundMembers

/-! The walks through the structures of a well formed schema. A class can pass a stop on its tour exactly
if it makes nothing of the attribute there, or if the width of the attribute fits. -/
namespace SchemaForge
open Checked

theorem Text.lowerFirst_ne {s : String} (h : s ≠ "") : Text.lowerFirst s ≠ "" := by
  have hform : ∀ c, Text.lowerForm c ≠ [] := by
    intro c
    unfold Text.lowerForm Text.longForm
    split
    · simp
    cases hl : Text.longLower.lookup c.toNat with
    | none => simp
    | some codes =>
      have hcodes : ∀ p ∈ Text.longLower, p.2 ≠ [] := by decide
      obtain ⟨before, after, htable, -⟩ := List.lookup_eq_some_iff.1 hl
      simpa using hcodes (c.toNat, codes) (by simp [htable])
  unfold Text.lowerFirst
  cases hs : s.toList with
  | nil => exact absurd (by simpa using hs) h
  | cons c rest =>
    intro hempty
    have hchars := congrArg String.toList hempty
    simp [hform c] at hchars

theorem Record.isConst_of_inline {r : Record} (h : r.isInline = true) : r.isConst = false := by
  have hget := Record.get?_of_is h
  simp [isConst, is, hget]

namespace Schema
variable {s₀ s : Schema}

theorem Reached.refl (s : Schema) : s.Reached s := ⟨[], by simp, rfl⟩

theorem Reached.markAll (h : s₀.Reached s) {marks : List Mark} (hm : ∀ m ∈ marks, m ∈ s₀.marks) :
    s₀.Reached (s.markAll marks) := by
  have halong : Along s marks true (s.markAll marks) := .of_all rfl
  exact h.along halong hm

theorem need_of_isSort {sort name : String} (h : s.isSort sort name = true) :
    (s.need name >>= (·.need "type")) = .ok (.text sort) := by
  obtain ⟨_, d, hname, hd, htype⟩ := exists_of_isSort h
  obtain rfl := Value.text.inj hname
  rw [need_eq_ok.2 hd, ok_bind]
  exact Record.need_of_get? htype

/-- A class leaves its marks when planning comes to it. -/
theorem mem_marks_of_class {name : String} (hname : name ∈ s.names) (hclass : s.isClass name = true)
    {m : Mark} (hm : m ∈ s.classMarks name) : m ∈ s.marks := by
  refine List.mem_flatMap.2 ⟨name, hname, ?_⟩
  have hsort := need_of_isSort (isSort_of_isClass hclass)
  simpa [marksOf, hsort, Value.isByte, Value.isEnum, Value.isStruct, isHidden_of_isClass hclass] using hm

theorem mem_marks_of_met {name : String} (hname : name ∈ s.names) (hclass : s.isClass name = true)
    {site : Site} (hsite : site ∈ s.met s.depthLimit name) : ∀ m ∈ site.marks name, m ∈ s.marks := by
  intro m hm
  obtain ⟨stop, hstop, hat⟩ := List.mem_filterMap.1 hsite
  refine mem_marks_of_class hname hclass (List.mem_cons_of_mem _ (List.mem_flatMap.2 ⟨stop, hstop, ?_⟩))
  cases stop with
  | meet path site' =>
    obtain rfl := Option.some.inj hat
    exact hm
  | _ => cases hat

/-- Whether a class that meets an attribute makes something of it. -/
def isTaken (s : Schema) (site : Site) : Bool := s.isShown site || (s.attributeAt site).isConst

theorem isTaken_congr (h : s.settled = s₀.settled) (site : Site) : s.isTaken site = s₀.isTaken site := by
  have hconst : (s.attributeAt site).isConst = (s₀.attributeAt site).isConst := by
    rw [← Record.isConst_settled, ← attributeAt_settled, h, attributeAt_settled, Record.isConst_settled]
  rw [isTaken, isShown_congr h, hconst, isTaken]

/-- An attribute that a walk meets stands in a layout. -/
theorem WellFormed.exists_attribute_of_met (h₀ : s₀.WellFormed) {limit : Nat} {owner : String}
    {site : Site} (hsite : site ∈ s₀.met limit owner) : ∃ r, s₀.attributeAt? site = some r := by
  induction limit generalizing owner with
  | zero => cases hsite
  | succ limit ih =>
    rw [met_succ, List.mem_flatMap] at hsite
    obtain ⟨top, htop, hsite⟩ := hsite
    rcases List.mem_cons.1 hsite with rfl | hsite
    · unfold sites at htop
      cases hl : s₀.need owner >>= Value.layout with
      | error fault => simp [hl] at htop
      | ok layout =>
        simp only [hl] at htop
        obtain ⟨index, hindex, rfl⟩ := List.mem_map.1 htop
        have hget := List.getElem?_eq_getElem (List.mem_range.1 hindex)
        obtain ⟨r, hr⟩ := h₀.listed hl _ (List.mem_of_getElem? hget)
        exact ⟨r, attributeAt?_of_layout hl (hr ▸ hget)⟩
    · unfold behind at hsite
      cases hin : s₀.inlined? top with
      | none => simp [hin] at hsite
      | some type => exact ih (by simpa [hin] using hsite)

/-- A walk enters structures only. -/
theorem WellFormed.layout_of_enter (h₀ : s₀.WellFormed) {limit : Nat} {owner other : String}
    {path : List Inline} {layout : List Value} (hl : (s₀.need owner >>= Value.layout) = .ok layout)
    (h : .enter path other ∈ s₀.tour limit owner) :
    ∃ layout, (s₀.need other >>= Value.layout) = .ok layout := by
  induction limit generalizing owner path layout with
  | zero => simp [tour] at h
  | succ limit ih =>
    rw [tour] at h
    rcases List.mem_cons.1 h with hhere | h
    · obtain ⟨-, rfl⟩ := Stop.enter.inj hhere
      exact ⟨layout, hl⟩
    obtain ⟨site, -, h⟩ := List.mem_flatMap.1 h
    cases hin : s₀.inlined? site with
    | none => simp [hin] at h
    | some type =>
      simp only [hin, List.mem_cons, reduceCtorEq, false_or] at h
      obtain ⟨stop, hstop, hunder⟩ := List.mem_map.1 h
      obtain ⟨r, hr, htype⟩ := Option.bind_eq_some_iff.1 hin
      obtain ⟨hi, htype⟩ := Option.ite_none_right_eq_some.1 htype
      obtain ⟨v, hv, htext⟩ := Option.bind_eq_some_iff.1 htype
      obtain rfl : v = .text type := by cases v <;> simp_all [Value.text?]
      obtain ⟨layout', hl'⟩ := (h₀.sound hr).inlines hi type hv
      cases stop with
      | enter path' owner' =>
        obtain ⟨-, rfl⟩ := Stop.enter.inj hunder
        exact ih hl' hstop
      | _ => simp [Stop.under] at hunder

end Schema

namespace ClassModel
open Drafting
variable {f : Frame} {site : Site} {aggregate : Option Aggregate} {depth : Nat} {d : Draft} {r : Record}

theorem succeeds_addEntry : Succeeds (runOn (addEntry f site aggregate) d).1 ↔
    Succeeds (entryOf f d.schema d.entries site aggregate) := by
  simp only [addEntry, runOn_bind, runOn_get, runOn_lift]
  cases entryOf f d.schema d.entries site aggregate <;> simp

theorem succeeds_addConstant : Succeeds (runOn (addConstant f site) d).1 ↔
    Succeeds (constantOf f.target d.schema site) := by
  simp only [addConstant, runOn_bind, runOn_schema, runOn_tell, runOn_lift]
  cases constantOf f.target d.schema site <;> simp

theorem succeeds_visit {name : String} (hat : d.schema.attributeAt? site = some r)
    (hn : r.get? "name" = some (.text name)) :
    Succeeds (runOn (visit f site aggregate depth) d).1 ↔
      Succeeds (entryOf f d.schema d.entries site aggregate) := by
  rw [runOn_visit, runOn_bind, runOn_lift, Schema.recordAt_eq_ok.2 hat]
  simp only [ok_bind, Record.need_of_get? hn, Value.joined_text]
  rw [runOn_bind, runOn_tell]
  exact succeeds_addEntry

theorem succeeds_takeInline {type : String} (htype : r.get? "type" = some (.text type)) :
    Succeeds (runOn (takeInline f r site aggregate depth) d).1 ↔ (isHidden type = false →
      Succeeds (runOn (visit f site aggregate depth)
        { d with schema := d.schema.setEntry site "name" (Text.lowerFirst type) }).1) := by
  rw [takeInline, Record.need_of_get? htype, lift_ok_bind, Value.lowerFirst_text, lift_ok_bind,
    runOn_bind, writeEntry, runOn_modify]
  simp only [Value.joined_text]
  cases isHidden type with
  | true => simp
  | false =>
    simp only [Bool.false_eq_true, if_false, true_implies, runOn_bind]
    rcases runOn (visit f site aggregate depth) _ with ⟨fault | _, d'⟩ <;> simp

section
variable {s₀ : Schema} (h₀ : s₀.WellFormed) (hname : f.name ∈ s₀.names)
  (hclass : s₀.isClass f.name = true) (hsite : site ∈ s₀.met s₀.depthLimit f.name)
include h₀ hname hclass hsite

theorem succeeds_visit_iff (hr : s₀.Reached d.schema) {name : String}
    (hat : d.schema.attributeAt? site = some r) (hn : r.get? "name" = some (.text name))
    (hne : name ≠ "") : Succeeds (runOn (visit f site aggregate depth) d).1 ↔ s₀.Fits f.target site := by
  rw [succeeds_visit hat hn, succeeds_entryOf h₀ hr hname hclass hsite hat,
    succeeds_memberOf (hr.steady h₀) hat hn hne, Schema.fits_congr hr.settled]

/-- A class can take an attribute exactly if it makes nothing of it, or if its width fits. -/
theorem succeeds_meet (hr : s₀.Reached d.schema) :
    Succeeds (runOn (meet f site aggregate depth) d).1 ↔
      (s₀.isTaken site = true → s₀.Fits f.target site) := by
  have hmarks := Schema.mem_marks_of_met hname hclass hsite
  have hnoted : s₀.Reached (d.schema.noteOwner f.name site) := by
    rw [Schema.noteOwner_eq]
    exact hr.markAll fun m hm => hmarks m (List.mem_append_left _ hm)
  obtain ⟨r₀, hat₀⟩ := h₀.exists_attribute_of_met hsite
  obtain ⟨r, hat, hsettled⟩ := Schema.exists_attribute_congr hnoted.settled hat₀
  have hsound := (hnoted.steady h₀).sound site r hat
  rw [← Schema.isTaken_congr hnoted.settled, runOn_meet]
  simp only [Schema.isTaken, Schema.isShown, Schema.attributeAt, Schema.recordAt_eq_ok.2 hat, hat,
    Option.any_some, Option.getD_some]
  by_cases hi : r.isInline = true
  · obtain ⟨type, htype, hne, -⟩ := hsound.typed
    have hconst : r.isConst = false := Record.isConst_of_inline hi
    -- The attribute gets its name before it becomes a member.
    have hnamed : (d.schema.noteOwner f.name site).nameAt? site =
        some (.text (Text.lowerFirst type)) := by
      simp [Schema.nameAt?, hat, Record.inlineName?, hi, htype, Except.toOption]
    have hreach : s₀.Reached ((d.schema.noteOwner f.name site).setEntry site "name"
        (Text.lowerFirst type)) := by
      have hnote := hr.markAll hmarks
      rwa [← Schema.note_eq, Schema.note, Schema.noteName, hnamed] at hnote
    have hvisit := @succeeds_visit_iff f site aggregate depth
      { d with schema := (d.schema.noteOwner f.name site).setEntry site "name" (Text.lowerFirst type) }
      (r.set "name" (Text.lowerFirst type)) s₀ h₀ hname hclass hsite hreach (Text.lowerFirst type)
      (by simp [Schema.attributeAt?_setEntry, hat]) (Record.get?_set_self ..) (Text.lowerFirst_ne hne)
    simp only [hi, if_true, htype, Option.any_some, hconst, Bool.or_false, Bool.not_eq_true',
      succeeds_exceptMap, succeeds_takeInline htype, hvisit]
  · obtain ⟨name, hget, hne⟩ := hsound.named (by simpa using hi)
    simp only [hi, Bool.false_eq_true, if_false, succeeds_exceptMap, takePlain]
    by_cases hc : r.isConst = true
    · rw [if_pos hc, succeeds_addConstant, ← Schema.fits_congr hnoted.settled]
      simpa [hc] using succeeds_constantOf (hnoted.steady h₀) hat hget (hsound.valued hc) f.target
    · have hvisit := @succeeds_visit_iff f site aggregate depth
        { d with schema := d.schema.noteOwner f.name site } r s₀ h₀ hname hclass hsite hnoted name hat
        hget hne
      rw [if_neg hc]
      split
      · rename_i hshown
        simpa [hc, hshown] using hvisit
      · rename_i hshown
        simp [hc, hshown]

end

section
variable {s₀ : Schema} (h₀ : s₀.WellFormed) (hname : f.name ∈ s₀.names)
  (hclass : s₀.isClass f.name = true)
include hname hclass

theorem reached_pass (hr : s₀.Reached d.schema) {stop : Stop}
    (hstop : stop ∈ s₀.tour s₀.depthLimit f.name) : s₀.Reached (runOn (pass f stop) d).2.schema := by
  refine hr.along (marking_pass f stop d) fun m hm => ?_
  exact Schema.mem_marks_of_class hname hclass
    (List.mem_cons_of_mem _ (List.mem_flatMap.2 ⟨stop, hstop, hm⟩))

/-- What holds of every entry that is made in a state which planning can leave holds of all entries that
a walk makes, and the walk leaves such a state. -/
theorem forall_passes {p : Entry → Prop}
    (hp : ∀ {s before site aggregate e}, s₀.Reached s → site ∈ s₀.met s₀.depthLimit f.name →
      entryOf f s before site aggregate = .ok e → p e)
    (hr : s₀.Reached d.schema) {stops : List Stop}
    (hstops : ∀ stop ∈ stops, stop ∈ s₀.tour s₀.depthLimit f.name) (hd : ∀ e ∈ d.entries, p e)
    {d' : Draft} {u : Unit} (h : runOn (forM stops (pass f)) d = (.ok u, d')) :
    s₀.Reached d'.schema ∧ ∀ e ∈ d'.entries, p e := by
  induction stops generalizing d with
  | nil =>
    obtain ⟨-, rfl⟩ := by simpa using h
    exact ⟨hr, hd⟩
  | cons stop stops ih =>
    rw [List.forM_cons] at h
    obtain ⟨_, d₁, hpass, hrest⟩ := runOn_bind_eq_ok.1 h
    have hfirst := hstops stop List.mem_cons_self
    have hreach := reached_pass hname hclass hr hfirst
    rw [hpass] at hreach
    refine ih hreach (fun stop hmem => hstops stop (List.mem_cons_of_mem _ hmem)) ?_ hrest
    have hentries := pass_entries hr.settled hpass
    cases hv : stop.visit? s₀ with
    | none =>
      simp only [hv] at hentries
      rwa [hentries]
    | some v =>
      simp only [hv] at hentries
      obtain ⟨⟨e, he, hadded⟩, -⟩ := hentries
      have hsite : v.site ∈ s₀.met s₀.depthLimit f.name := by
        refine List.mem_filterMap.2 ⟨stop, hfirst, ?_⟩
        cases stop with
        | meet path site =>
          obtain ⟨-, hvisit⟩ := Option.ite_none_right_eq_some.1 hv
          rw [← Option.some.inj hvisit]
          rfl
        | _ => cases hv
      rw [hadded]
      intro e' he'
      rcases List.mem_append.1 he' with hmem | hmem
      · exact hd e' hmem
      · obtain rfl := List.mem_singleton.1 hmem
        exact hp hreach hsite he

include h₀

/-- A class can pass a stop on its tour exactly if it can take the attribute there. -/
theorem succeeds_pass (hr : s₀.Reached d.schema) {stop : Stop}
    (hstop : stop ∈ s₀.tour s₀.depthLimit f.name) : Succeeds (runOn (pass f stop) d).1 ↔
      ∀ site, stop.site? = some site → s₀.isTaken site = true → s₀.Fits f.target site := by
  cases stop with
  | enter path owner =>
    obtain ⟨layout, hl⟩ := h₀.layout_of_struct (Schema.isSort_of_isClass hclass)
    obtain ⟨layout, hl⟩ := h₀.layout_of_enter hl hstop
    obtain ⟨layout', hl', -⟩ := Schema.exists_layout_congr hr.settled hl
    simp [pass, runOn_bind, hl', Stop.site?]
  | meet path site =>
    have hsite : site ∈ s₀.met s₀.depthLimit f.name := List.mem_filterMap.2 ⟨_, hstop, rfl⟩
    rw [pass, runOn_map, succeeds_exceptMap, succeeds_meet h₀ hname hclass hsite hr]
    simp [Stop.site?]
  | endless => exact absurd hstop (h₀.tour_ends f.name)

theorem succeeds_passes (hr : s₀.Reached d.schema) {stops : List Stop}
    (hstops : ∀ stop ∈ stops, stop ∈ s₀.tour s₀.depthLimit f.name) :
    Succeeds (runOn (forM stops (pass f)) d).1 ↔
      ∀ site ∈ stops.filterMap Stop.site?, s₀.isTaken site = true → s₀.Fits f.target site := by
  induction stops generalizing d with
  | nil => simp
  | cons stop stops ih =>
    have hfirst := hstops stop List.mem_cons_self
    have hpass := succeeds_pass h₀ hname hclass hr hfirst
    have hreach := reached_pass hname hclass hr hfirst
    have hsites : ∀ p : Site → Prop, (∀ site ∈ (stop :: stops).filterMap Stop.site?, p site) ↔
        (∀ site, stop.site? = some site → p site) ∧ ∀ site ∈ stops.filterMap Stop.site?, p site := by
      intro p
      cases hs : stop.site? with
      | none => simp [List.filterMap_cons_none hs]
      | some site => simp [List.filterMap_cons_some hs]
    rw [List.forM_cons, hsites, ← hpass, succeeds_runOn_bind]
    have hrest : ∀ d', s₀.Reached d'.schema → (Succeeds (runOn (forM stops (pass f)) d').1 ↔
        ∀ site ∈ stops.filterMap Stop.site?, s₀.isTaken site = true → s₀.Fits f.target site) :=
      fun d' hr' => ih hr' fun stop hmem => hstops stop (List.mem_cons_of_mem _ hmem)
    constructor
    · rintro ⟨u, d', hrun, hnext⟩
      rw [hrun] at hreach
      rw [hrun]
      exact ⟨succeeds_ok u, (hrest d' hreach).1 hnext⟩
    · rintro ⟨⟨u, hrun⟩, hnext⟩
      exact ⟨u, _, Prod.ext hrun rfl, (hrest _ hreach).2 hnext⟩

/-- The entries that a walk makes are apt, and it leaves a schema with no other marks than planning. -/
theorem apt_passes (hr : s₀.Reached d.schema) {stops : List Stop}
    (hstops : ∀ stop ∈ stops, stop ∈ s₀.tour s₀.depthLimit f.name)
    (hd : ∀ e ∈ d.entries, Apt s₀ f.name e) {d' : Draft} {u : Unit}
    (h : runOn (forM stops (pass f)) d = (.ok u, d')) :
    s₀.Reached d'.schema ∧ ∀ e ∈ d'.entries, Apt s₀ f.name e :=
  forall_passes hname hclass (fun hr hsite he => apt_of_entryOf h₀ hr hname hclass hsite he) hr hstops hd h

end
end ClassModel
end SchemaForge
