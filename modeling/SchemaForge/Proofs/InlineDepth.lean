import SchemaForge.Proofs.Faults
import SchemaForge.Proofs.WellFormed

/-! How deep walks and searches go. If no structure inlines itself, directly or through others, what stands
inside one another is a chain of different structures, so walks and searches end, whatever else the types
and attributes are like. -/
namespace SchemaForge

namespace Checked
variable {α β : Type}

/-- Does not come to a limit. -/
def Ends (x : Checked α) : Prop := x ≠ .error .endless

theorem Reads.ends {x : Checked α} (h : Reads x) : Ends x := fun hx => nomatch h _ hx

theorem Ends.bind {x : Checked α} {f : α → Checked β} (hx : Ends x) (hf : ∀ a, Ends (f a)) :
    Ends (x >>= f) := by
  cases x with
  | error fault => exact fun h => hx (by rw [Except.error.inj h])
  | ok a => exact hf a

theorem Ends.map {x : Checked α} (h : Ends x) (g : α → β) : Ends (x.map g) := by
  cases x with
  | error fault => exact fun hx => h (by rw [Except.error.inj hx])
  | ok a => exact (reads_ok _).ends

theorem Ends.first {x : Checked α} {f : α → Checked β} (h : Ends (x >>= f)) : Ends x := by
  rintro rfl
  exact h rfl

/-- A later step may be replaced where it does not come to a limit. -/
theorem Ends.bind_congr {x : Checked α} {f g : α → Checked β} (h : Ends (x >>= f))
    (hg : ∀ a, Ends (f a) → g a = f a) : x >>= g = x >>= f := by
  cases x with
  | error fault => rfl
  | ok a => exact hg a h

/-- What comes to a limit does so in its first or in a later step. -/
theorem bind_eq_endless {x : Checked α} {f : α → Checked β} (hx : Reads x)
    (h : x >>= f = .error .endless) : ∃ a, x = .ok a ∧ f a = .error .endless := by
  cases x with
  | error fault => exact absurd (by rw [Except.error.inj h]) (hx.ends)
  | ok a => exact ⟨a, rfl, h⟩

end Checked

namespace Schema
open Checked

/-- No structure inlines itself, directly or through others. -/
def Acyclic (s : Schema) : Prop := ∀ name, ¬Relation.TransGen s.Inlines name name

variable {s : Schema} {α : Type} {tag : Site → α} {key value : Value} {deep : Bool}

/-- A search among attributes comes to its limit behind one of them. -/
theorem exists_of_seekWith_endless {inside : Value → Checked (Option (α × Value))}
    {attributes : List (α × Value)} (h : seekWith inside key value deep attributes = .error .endless) :
    ∃ p ∈ attributes, p.2.isInline = .ok true ∧ inside p.2 = .error .endless := by
  induction attributes with
  | nil => cases h
  | cons p rest ih =>
    have hrest : seekWith inside key value deep rest = .error .endless →
        ∃ q ∈ p :: rest, q.2.isInline = .ok true ∧ inside q.2 = .error .endless := by
      intro hlater
      obtain ⟨q, hq, hfacts⟩ := ih hlater
      exact ⟨q, List.mem_cons_of_mem _ hq, hfacts⟩
    rw [seekWith] at h
    obtain ⟨here, -, h⟩ := bind_eq_endless (reads_fits key value p.2) h
    cases here with
    | true => cases h
    | false =>
      cases deep with
      | false => exact hrest h
      | true =>
        obtain ⟨inline, hinline, h⟩ := bind_eq_endless (p.2.reads_is "disposition" "inline") h
        cases inline with
        | false => exact hrest h
        | true =>
          cases hinner : inside p.2 with
          | error fault =>
            rw [hinner] at h
            exact ⟨p, List.mem_cons_self, hinline, hinner.trans h⟩
          | ok found =>
            rw [hinner] at h
            cases found with
            | some hit => cases h
            | none => exact hrest h

/-- What an inline attribute of a layout inlines. -/
theorem inlines_of_sited {owner inner : String} {layout : List Value}
    (hl : (s.need owner >>= Value.layout) = .ok layout) {p : Site × Value} (hp : p ∈ sited owner layout)
    (hi : p.2.isInline = .ok true) (htype : p.2.need "type" = .ok (.text inner)) :
    s.Inlines owner inner := by
  refine ⟨p.1, ?_, ?_⟩
  · rw [← map_fst_sited hl]
    exact List.mem_map_of_mem hp
  · rw [inlined?_of_isInline (placed_sited hl p hp) hi, htype]
    rfl

/-- A search that comes to its limit behind an attribute has passed a chain of structures that inline one
another. -/
theorem exists_chain_of_seekInside {depth : Nat} {v : Value}
    (h : s.seekInside tag key value depth v = .error .endless) :
    ∃ chain : List String, chain.length = depth ∧ (∀ name ∈ chain, name ∈ s.names) ∧
      chain.IsChain s.Inlines ∧ ∀ name ∈ chain.head?, v.need "type" = .ok (.text name) := by
  induction depth generalizing v with
  | zero => exact ⟨[], rfl, by simp, .nil, by simp⟩
  | succ depth ih =>
    rw [seekInside] at h
    obtain ⟨type, htype, h⟩ := bind_eq_endless (v.reads_need "type") h
    obtain ⟨declared, hdeclared, h⟩ := bind_eq_endless (s.reads_need type) h
    obtain ⟨layout, hlayout, h⟩ := bind_eq_endless declared.reads_layout h
    obtain ⟨owner, rfl⟩ := text_of_need hdeclared
    have hl : (s.need owner >>= Value.layout) = .ok layout := by rw [hdeclared]; exact hlayout
    obtain ⟨p, hp, hinline, hinner⟩ := exists_of_seekWith_endless h
    obtain ⟨q, hq, rfl⟩ := List.mem_map.1 hp
    obtain ⟨chain, hlength, hnames, hchain, hhead⟩ := ih hinner
    refine ⟨owner :: chain, by simp [hlength], ?_, hchain.cons ?_, ?_⟩
    · exact List.forall_mem_cons.2 ⟨mem_names_of_get? (need_eq_ok.1 hdeclared), hnames⟩
    · intro name hname
      exact inlines_of_sited hl hq hinline (hhead name hname)
    · rintro name ⟨⟩
      exact htype

section
variable (acyclic : s.Acyclic)
include acyclic

theorem seekInside_ends {depth : Nat} (h : s.size < depth) (v : Value) :
    Ends (s.seekInside tag key value depth v) := by
  intro hend
  obtain ⟨chain, hlength, hnames, hchain, -⟩ := exists_chain_of_seekInside hend
  have hle := length_le_of_chain acyclic hnames hchain
  omega

theorem seek_ends {depth : Nat} (h : s.size < depth) (attributes : List (α × Value)) :
    Ends (s.seek tag key value depth deep attributes) := by
  intro hend
  obtain ⟨p, -, -, hinner⟩ := exists_of_seekWith_endless hend
  exact seekInside_ends acyclic h p.2 hinner

/-- In the layout of a declared structure a search goes less deep, as it stands in the structure. -/
theorem seek_layout_ends {owner : String} {depth : Nat} (h : s.size ≤ depth)
    {attributes : List (α × Value)}
    (hl : (s.need owner >>= Value.layout) = .ok (attributes.map (·.2))) :
    Ends (s.seek tag key value depth deep attributes) := by
  intro hend
  obtain ⟨p, hp, hinline, hinner⟩ := exists_of_seekWith_endless hend
  obtain ⟨chain, hlength, hnames, hchain, hhead⟩ := exists_chain_of_seekInside hinner
  obtain ⟨site, hsite⟩ : ∃ site, (site, p.2) ∈ sited owner (attributes.map (·.2)) := by
    have hmem : p.2 ∈ (sited owner (attributes.map (·.2))).map (·.2) := by
      rw [map_snd_sited]
      exact List.mem_map_of_mem hp
    obtain ⟨q, hq, hsame⟩ := List.mem_map.1 hmem
    exact ⟨q.1, hsame ▸ hq⟩
  obtain ⟨declared, hdeclared, -⟩ := Checked.bind_eq_ok.1 hl
  have hlong : (owner :: chain).length ≤ s.size := by
    refine length_le_of_chain acyclic ?_ (hchain.cons ?_)
    · exact List.forall_mem_cons.2 ⟨mem_names_of_get? (need_eq_ok.1 hdeclared), hnames⟩
    · intro name hname
      exact inlines_of_sited hl hsite hinline (hhead name hname)
  rw [List.length_cons, hlength] at hlong
  omega

end

/-- Searches behind attributes may be replaced where they do not come to a limit. -/
theorem seekWith_congr {inside inside' : Value → Checked (Option (α × Value))}
    (hin : ∀ v, Ends (inside v) → inside' v = inside v) {attributes : List (α × Value)}
    (h : Ends (seekWith inside key value deep attributes)) :
    seekWith inside' key value deep attributes = seekWith inside key value deep attributes := by
  induction attributes with
  | nil => rfl
  | cons p rest ih =>
    rw [seekWith] at h
    rw [seekWith, seekWith]
    refine h.bind_congr fun here h => ?_
    cases here with
    | true => rfl
    | false =>
      cases deep with
      | false => exact ih h
      | true =>
        refine h.bind_congr fun inline h => ?_
        cases inline with
        | false => exact ih h
        | true =>
          simp only [Bool.not_true, Bool.false_eq_true, if_false] at h ⊢
          rw [hin p.2 h.first]
          refine h.bind_congr fun found h => ?_
          cases found with
          | some hit => rfl
          | none => exact ih h

/-- A search that does not come to its limit finds the same under every greater one. -/
theorem seekInside_succ {depth : Nat} {v : Value} (h : Ends (s.seekInside tag key value depth v)) :
    s.seekInside tag key value (depth + 1) v = s.seekInside tag key value depth v := by
  induction depth generalizing v with
  | zero => exact absurd rfl h
  | succ depth ih =>
    rw [seekInside] at h
    rw [seekInside, seekInside]
    refine h.bind_congr fun type h => h.bind_congr fun declared h => h.bind_congr fun layout h => ?_
    exact seekWith_congr (fun v hv => ih hv) h

theorem seek_eq_of_le {depth limit : Nat} (hle : depth ≤ limit) {attributes : List (α × Value)}
    (h : Ends (s.seek tag key value depth deep attributes)) :
    s.seek tag key value limit deep attributes = s.seek tag key value depth deep attributes := by
  induction hle with
  | refl => rfl
  | step _ ih =>
    rw [← ih] at h ⊢
    exact seekWith_congr (fun v hv => seekInside_succ hv) h

theorem inlines_congr {s' : Schema} (h : s'.settled = s.settled) : s'.Inlines = s.Inlines := by
  funext outer inner
  have hsites : s'.sites outer = s.sites outer := by rw [← sites_settled s', h, sites_settled]
  simp only [Inlines, hsites, inlined?_congr h]

theorem Acyclic.congr {s' : Schema} (acyclic : s.Acyclic) (h : s'.settled = s.settled) : s'.Acyclic := by
  rw [Acyclic, inlines_congr h]
  exact acyclic

theorem findSite_ends (acyclic : s.Acyclic) (owner : String)
    (key value : Value) : Ends (s.findSite owner key value) := by
  refine (s.reads_need owner).ends.bind fun declared => declared.reads_layout.ends.bind fun layout => ?_
  exact (seek_ends acyclic (Nat.lt_succ_self s.size) _).bind fun found => (reads_ok _).ends

end Schema

namespace ClassModel
open Checked Drafting

/-- Steps that do not come to a limit, on any draft whose schema differs from a given one only in what
models write. -/
def Finishes {α : Type} (s : Schema) (steps : Drafting α) : Prop :=
  ∀ d, d.schema.settled = s.settled → Ends (runOn steps d).1

section
variable {α β : Type} {s : Schema}

theorem finishes_lift {x : Checked α} (h : Ends x) : Finishes s (liftM x : Drafting α) := by
  intro d _
  rw [runOn_lift]
  exact h

theorem ends_lift_bind {x : Checked α} {next : α → Drafting β} {d : Draft} (hx : Ends x)
    (hn : ∀ a, x = .ok a → Ends (runOn (next a) d).1) : Ends (runOn (liftM x >>= next) d).1 := by
  cases x with
  | error fault => exact fun h => hx (by rw [Except.error.inj h])
  | ok a => exact hn a rfl

theorem Finishes.bind {steps : Drafting α} {next : α → Drafting β} (h : Finishes s steps)
    (hs : ∀ d, (runOn steps d).2.schema.settled = d.schema.settled) (hn : ∀ a, Finishes s (next a)) :
    Finishes s (steps >>= next) := by
  intro d hd
  have hfirst := h d hd
  have hsettled := hs d
  rw [runOn_bind]
  rcases hr : runOn steps d with ⟨fault | a, d'⟩ <;> rw [hr] at hfirst hsettled
  · exact fun hend => hfirst (by rw [Except.error.inj hend])
  · exact hn a d' (hsettled.trans hd)

theorem Keeps.settled {steps : Drafting α} (h : Keeps steps) (d : Draft) :
    (runOn steps d).2.schema.settled = d.schema.settled := congrArg Schema.settled (h d)

end

section
variable {s : Schema} (acyclic : s.Acyclic) (f : Frame)
include acyclic

theorem entryOf_ends (before : List Entry) (site : Site) (aggregate : Option Aggregate) :
    Ends (entryOf f s before site aggregate) := by
  have hfound := Schema.findSite_ends acyclic f.name
  refine (reads_memberOf f.target s site).ends.bind fun member => ?_
  refine (s.reads_recordAt site).ends.bind fun r => ?_
  have hcondition : Ends (discriminatorOf s f.name r) := by
    unfold discriminatorOf
    split
    · exact hfound _ _
    · exact (reads_ok _).ends
  exact hcondition.bind fun condition => (hfound _ _).bind fun parent => (reads_ok _).ends

theorem addEntry_finishes (site : Site) (aggregate : Option Aggregate) :
    Finishes s (addEntry f site aggregate) := by
  intro d hd
  have hentry := entryOf_ends (acyclic.congr hd) f d.entries site aggregate
  rw [addEntry, runOn_bind, runOn_get]
  exact ends_lift_bind hentry fun _ _ => (reads_ok _).ends

theorem visit_finishes (site : Site) (aggregate : Option Aggregate) (depth : Nat) :
    Finishes s (visit f site aggregate depth) := by
  have hread : Finishes s (Drafting.attributeAt site) := by
    intro d _
    rw [runOn_attributeAt]
    exact (d.schema.reads_recordAt site).ends
  refine hread.bind (fun d => by rw [runOn_attributeAt]) fun r => ?_
  refine (finishes_lift (r.value.reads_need "name").ends).bind (Keeps.settled (keeps_lift _)) fun named => ?_
  refine (finishes_lift named.reads_joined.ends).bind (Keeps.settled (keeps_lift _)) fun name => ?_
  refine Finishes.bind (fun _ _ => (reads_ok _).ends) (Keeps.settled (keeps_tell _)) fun _ => ?_
  exact addEntry_finishes acyclic f site aggregate

theorem takePlain_finishes (r : Record) (site : Site) (aggregate : Option Aggregate) (depth : Nat) :
    Finishes s (takePlain f r site aggregate depth) := by
  unfold takePlain
  split
  · intro d _
    rw [addConstant, runOn_bind, runOn_schema]
    exact ends_lift_bind (reads_constantOf f.target d.schema site).ends fun _ _ => (reads_ok _).ends
  · split
    · exact visit_finishes acyclic f site aggregate depth
    · exact fun _ _ => (reads_ok _).ends

theorem takeInline_ends {r : Record} {site : Site} {d : Draft} (hd : d.schema.settled = s.settled)
    (hr : d.schema.attributeAt? site = some r) (hi : r.isInline = true) (aggregate : Option Aggregate)
    (depth : Nat) : Ends (runOn (takeInline f r site aggregate depth) d).1 := by
  refine ends_lift_bind (r.value.reads_need "type").ends fun type htype => ?_
  refine ends_lift_bind (type.reads_changeFirst Text.lowerFirst).ends fun name hname => ?_
  have hrest : Finishes s ((if isHidden type then pure () else visit f site aggregate depth) >>=
      fun _ => (liftM type.joined : Drafting String)) := by
    refine Finishes.bind ?_ (Keeps.settled (keeps_visitShown f type site aggregate depth)) fun _ =>
      finishes_lift type.reads_joined.ends
    split
    · exact fun _ _ => (reads_ok _).ends
    · exact visit_finishes acyclic f site aggregate depth
  have hwritten : r.inlineName? = some name := by
    rw [Record.inlineName?, if_pos hi, Record.need_eq_ok.1 htype, Option.bind_some,
      show type.lowerFirst = .ok name from hname]
    rfl
  exact hrest { d with schema := d.schema.setEntry site "name" name }
    ((Schema.settled_setName hr hwritten).trans hd)

theorem meet_finishes (site : Site) (aggregate : Option Aggregate) (depth : Nat) :
    Finishes s (meet f site aggregate depth) := by
  intro d hd
  have hnoted : (d.schema.noteOwner f.name site).settled = s.settled :=
    (d.schema.settled_noteOwner f.name site).trans hd
  generalize hs : d.schema.noteOwner f.name site = noted at hnoted
  have hmeet : Ends (runOn (liftM (noted.recordAt site) >>= fun r : Record =>
      if r.isInline then some <$> takeInline f r site aggregate depth
      else (fun _ => none) <$> takePlain f r site aggregate depth) { d with schema := noted }).1 := by
    refine ends_lift_bind (noted.reads_recordAt site).ends fun r hr => ?_
    by_cases hi : r.isInline = true
    · rw [if_pos hi, runOn_map]
      exact (takeInline_ends acyclic f hnoted (Schema.recordAt_eq_ok.1 hr) hi aggregate depth).map some
    · rw [if_neg hi, runOn_map]
      exact (takePlain_finishes acyclic f r site aggregate depth _ hnoted).map _
  rw [← hs] at hmeet
  exact hmeet

theorem pass_finishes {stop : Stop} (h : stop ≠ .endless) : Finishes s (pass f stop) := by
  cases stop with
  | enter path owner =>
    have hlayout : Finishes s (Drafting.layout owner) := by
      intro d _
      have hread : Reads (d.schema.need owner >>= Value.layout) := by simp
      rw [runOn_layout]
      exact hread.ends
    refine Finishes.bind (fun _ _ => (reads_ok _).ends) (Keeps.settled (keeps_tell _)) fun _ => ?_
    exact hlayout.bind (fun d => by rw [runOn_layout]) fun _ _ _ => (reads_ok _).ends
  | meet path site =>
    intro d hd
    rw [pass, runOn_map]
    exact (meet_finishes acyclic f site (aggregateOf path) path.length d hd).map _
  | endless => exact absurd rfl h

theorem passes_finish {stops : List Stop} (h : Stop.endless ∉ stops) : Finishes s (forM stops (pass f)) := by
  induction stops with
  | nil => exact fun _ _ => (reads_ok _).ends
  | cons stop stops ih =>
    obtain ⟨hstop, hstops⟩ := not_or.1 (List.mem_cons.not.1 h)
    exact (pass_finishes acyclic f (Ne.symm hstop)).bind (settled_pass f stop) fun _ => ih hstops

/-- A walk passes the stops of a tour that ends, whatever its limit is. -/
theorem runOn_walk_of_le {d : Draft} (hd : d.schema = s) {limit : Nat} (h : s.size + 1 ≤ limit)
    (name : String) :
    runOn (walk f limit name none 0) d = runOn (forM (s.tour s.depthLimit name) (pass f)) d := by
  have hwalk := runOn_walk f limit name [] s d (by rw [hd])
  simp only [Stop.under_nil] at hwalk
  rw [Schema.tour_eq_of_le h (Schema.endless_notMem_of_acyclic acyclic name)] at hwalk
  exact hwalk

end

/-- If no structure inlines itself, directly or through others, walks and searches end. With a limit of as
many structures inside one another as there are types, and one more, a walk does what it does under every
greater limit, and so does a search, in the layout of a type even with one less. -/
theorem inline_recursions_end {s : Schema} (acyclic : s.Acyclic) :
    (∀ (f : Frame) (name : String) (d : Draft), d.schema = s → ∀ limit, s.size + 1 ≤ limit →
      runOn (walk f limit name none 0) d = runOn (walk f (s.size + 1) name none 0) d ∧
        (runOn (walk f limit name none 0) d).1 ≠ .error .endless) ∧
    ∀ {α : Type} (tag : Site → α) (key value : Value) (deep : Bool) (attributes : List (α × Value)) limit,
      (s.size + 1 ≤ limit ∨ s.size ≤ limit ∧
        ∃ owner : String, (s.need owner >>= Value.layout) = .ok (attributes.map (·.2))) →
      s.seek tag key value limit deep attributes = s.seek tag key value (s.size + 1) deep attributes ∧
        s.seek tag key value limit deep attributes ≠ .error .endless := by
  refine ⟨?_, ?_⟩
  · intro f name d hd limit hlimit
    rw [runOn_walk_of_le acyclic f hd hlimit, runOn_walk_of_le acyclic f hd le_rfl]
    exact ⟨rfl, passes_finish acyclic f (Schema.endless_notMem_of_acyclic acyclic name) d (by rw [hd])⟩
  · intro α tag key value deep attributes limit hlimit
    have hends : Ends (s.seek tag key value limit deep attributes) := by
      rcases hlimit with hlimit | ⟨hlimit, owner, hl⟩
      · exact Schema.seek_ends acyclic hlimit attributes
      · exact Schema.seek_layout_ends acyclic hlimit hl
    refine ⟨?_, hends⟩
    rcases Nat.le_total limit (s.size + 1) with hle | hle
    · exact (Schema.seek_eq_of_le hle hends).symm
    · exact Schema.seek_eq_of_le hle (Schema.seek_ends acyclic (Nat.lt_succ_self _) attributes)

/-- Structures with an inline attribute of a type that is not declared, and with one that has no type. -/
def looseSchema : Schema := ⟨[
  ("Outer", .table [("type", "struct"), ("layout", .list [
    .table [("disposition", "inline"), ("type", "Inner")],
    .table [("disposition", "inline"), ("type", "Nowhere")]])]),
  ("Inner", .table [("layout", .list [
    .table [("name", "weight")],
    .table [("disposition", "inline"), ("type", "Core")]])]),
  ("Core", .table [("layout", .list [.table [("disposition", "inline")]])])]⟩

theorem inline_recursions_end_loose :
    runOn (walk ⟨.java, "Outer", "OuterBuilder", none, none⟩ 1000 "Outer" none 0) { schema := looseSchema } =
      runOn (walk ⟨.java, "Outer", "OuterBuilder", none, none⟩ 4 "Outer" none 0) { schema := looseSchema } ∧
    looseSchema.seek id "name" "height" 3 true ((looseSchema.sites "Outer").map fun site =>
      (site, (looseSchema.attributeAt site).value)) ≠ .error .endless := by
  have acyclic : looseSchema.Acyclic := Schema.acyclic_of_tours (by decide +kernel)
  obtain ⟨hwalk, hseek⟩ := inline_recursions_end acyclic
  refine ⟨(hwalk _ "Outer" _ rfl 1000 (by decide)).1, (hseek id _ _ true _ 3 (.inr ⟨le_rfl, "Outer", rfl⟩)).2⟩

end ClassModel
end SchemaForge
