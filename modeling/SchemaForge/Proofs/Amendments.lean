import SchemaForge.Proofs.Sharing
import SchemaForge.Proofs.UpFront

/-! What sessions may change in a schema. Whatever runs are made, started, asked and drained, and
however they end, a type gains at most its own name, and an attribute the name of the structure that it
inlines and the structure in which it stands. A drain of classes that succeeds has written all of it. -/
namespace SchemaForge

namespace Record

/-- The keys of a record in their order. -/
def keys (r : Record) : List String := r.entries.map (·.1)

/-- A record that is as it was, apart from entries that may have got a value. These stand where they
stood before, or after all the others. -/
structure Amended (may : String → Option Value → Value → Prop) (r r' : Record) : Prop where
  keys : r.keys <+: r'.keys
  distinct : r.keys.Nodup → r'.keys.Nodup
  entry (key : String) : r'.get? key = r.get? key ∨ ∃ v, r'.get? key = some v ∧ may key (r.get? key) v

theorem keys_setIn (key : String) (v : Value) (es : List (String × Value)) :
    (setIn key v es).map (·.1) =
      if key ∈ es.map (·.1) then es.map (·.1) else es.map (·.1) ++ [key] := by
  induction es with
  | nil => simp [setIn]
  | cons e es ih =>
    obtain ⟨k, w⟩ := e
    by_cases hk : k = key
    · simp [setIn, hk]
    · rw [setIn, if_neg hk, List.map_cons, ih]
      by_cases hmem : key ∈ es.map (·.1)
      · have hcons : key ∈ ((k, w) :: es).map (·.1) := List.mem_cons_of_mem k hmem
        rw [if_pos hmem, if_pos hcons, List.map_cons]
      · have hcons : key ∉ ((k, w) :: es).map (·.1) := List.not_mem_cons_of_ne_of_not_mem (Ne.symm hk) hmem
        rw [if_neg hmem, if_neg hcons, List.map_cons, List.cons_append]

theorem keys_set (r : Record) (key : String) (v : Value) :
    (r.set key v).keys = if key ∈ r.keys then r.keys else r.keys ++ [key] :=
  keys_setIn key v r.entries

namespace Amended
variable {may : String → Option Value → Value → Prop} {r r' : Record}

theorem refl (may : String → Option Value → Value → Prop) (r : Record) : r.Amended may r where
  keys := List.prefix_rfl
  distinct h := h
  entry _ := .inl rfl

/-- One more entry that may be given a value. -/
theorem set (h : r.Amended may r') {key : String} {v : Value} (hv : may key (r.get? key) v) :
    r.Amended may (r'.set key v) where
  keys := by
    rw [keys_set]
    split
    · exact h.keys
    · exact h.keys.trans (List.prefix_append _ _)
  distinct hd := by
    rw [keys_set]
    split
    · exact h.distinct hd
    · rename_i hkey
      rw [List.nodup_append]
      refine ⟨h.distinct hd, by simp, ?_⟩
      rintro a ha b hb rfl
      exact hkey (by simpa [List.mem_singleton.1 hb] using ha)
  entry other := by
    by_cases hother : other = key
    · subst hother
      exact .inr ⟨v, r'.get?_set_self other v, hv⟩
    · rw [r'.get?_set_ne v hother]
      exact h.entry other

end Amended

/-- The entries that an attribute in the layout of a structure may gain. -/
inductive Gains (owner : String) (r : Record) : String → Option Value → Value → Prop where
  /-- The structure, unless it is hidden. -/
  | owner (old : Option Value) (shown : isHidden owner = false) :
      Gains owner r "aggregate_class" old owner
  /-- The type that it inlines, in lower case at the beginning. -/
  | name (old : Option Value) {type name : Value} (inline : r.isInline = true)
      (typed : r.get? "type" = some type) (lower : type.lowerFirst = .ok name) :
      Gains owner r "name" old name

end Record

namespace Value

/-- A value that is as it was, apart from entries that it may have gained if it is a table. -/
inductive Amended (may : Record → String → Option Value → Value → Prop) : Value → Value → Prop where
  | same (v : Value) : Amended may v v
  | table {r r' : Record} (entries : r.Amended (may r) r') : Amended may r.value r'.value

/-- The entries of a type that may change: its name, if it is a byte type or a structure, and its
layout, which lists as many attributes as before. -/
inductive Gains (name : String) (r : Record) : String → Option Value → Value → Prop where
  | name (old : Option Value) {sort : Value} (sorted : r.get? "type" = some sort)
      (bears : sort = "byte" ∨ sort = "struct") : Gains name r "name" old (Text.lowerFirst name)
  | layout {items items' : List Value}
      (attributes : List.Forall₂ (Amended (Record.Gains name)) items items') :
      Gains name r "layout" (some (list items)) (list items')

namespace Amended
variable {may : Record → String → Option Value → Value → Prop} {v v' : Value}

theorem put (h : Amended may v v') {key : String} {x : Value}
    (hx : ∀ r, v.record? = some r → may r key (r.get? key) x) : Amended may v (v'.put key x) := by
  cases h with
  | same =>
    cases v with
    | table entries => exact .table (r := ⟨entries⟩) ((Record.Amended.refl _ _).set (hx _ rfl))
    | _ => exact .same _
  | table hr => exact .table (hr.set (hx _ rfl))

theorem forall₂_refl (items : List Value) : List.Forall₂ (Amended may) items items := by
  induction items with
  | nil => exact .nil
  | cons item items ih => exact .cons (.same item) ih

theorem forall₂_modify {items items' : List Value} (h : List.Forall₂ (Amended may) items items')
    {index : Nat} {change : Value → Value}
    (hc : ∀ w w', items[index]? = some w → Amended may w w' → Amended may w (change w')) :
    List.Forall₂ (Amended may) items (items'.modify index change) := by
  induction h generalizing index with
  | nil => simp
  | cons hw hrest ih =>
    cases index with
    | zero => exact .cons (hc _ _ rfl hw) hrest
    | succ index => exact .cons hw (ih fun w w' hat => hc w w' hat)

/-- The attributes of a type and of what it has become stand side by side. -/
theorem forall₂_layout {name : String} {r r' : Record} (h : r.Amended (Gains name r) r')
    {items' : List Value} (hl : r'.get? "layout" = some (list items')) :
    ∃ items, r.get? "layout" = some (list items) ∧
      List.Forall₂ (Amended (Record.Gains name)) items items' := by
  rcases h.entry "layout" with hsame | ⟨v, hv, hgains⟩
  · exact ⟨items', hsame.symm.trans hl, forall₂_refl items'⟩
  · obtain rfl : v = list items' := Option.some.inj (hv.symm.trans hl)
    generalize hold : r.get? "layout" = old at hgains
    generalize hkey : "layout" = key at hgains
    cases hgains with
    | layout attributes => exact ⟨_, rfl, attributes⟩

theorem record_atItem {name : String} {r : Record} {entries : List (String × Value)}
    (h : r.Amended (Gains name r) ⟨entries⟩) {index : Nat} {key : String} {x : Value}
    (hx : ∀ a, r.value.attribute? index = some a → Record.Gains name a key (a.get? key) x) :
    r.Amended (Gains name r) ⟨entries.map fun (k, v) =>
      if k = "layout" then (k, v.modifyItem index (·.put key x)) else (k, v)⟩ := by
  have hkeys : Record.keys ⟨entries.map fun (k, v) =>
      if k = "layout" then (k, v.modifyItem index (·.put key x)) else (k, v)⟩ =
      Record.keys ⟨entries⟩ := by
    simp only [Record.keys, List.map_map]
    apply List.map_congr_left
    intro e _
    by_cases he : e.1 = "layout" <;> simp [he]
  refine ⟨hkeys ▸ h.keys, hkeys ▸ h.distinct, fun other => ?_⟩
  have hlookup := lookup_modifyEntry "layout" other (·.modifyItem index (·.put key x)) entries
  by_cases hother : other = "layout"
  · subst hother
    rw [if_pos rfl] at hlookup
    simp only [Record.get?] at hlookup ⊢
    rw [hlookup]
    cases hold : entries.lookup "layout" with
    | none => simpa [Record.get?, hold] using h.entry "layout"
    | some layout =>
      cases layout with
      | list items' =>
        obtain ⟨items, hitems, hall⟩ := forall₂_layout h hold
        refine .inr ⟨_, rfl, ?_⟩
        rw [show r.entries.lookup "layout" = some (list items) from hitems]
        refine .layout (forall₂_modify hall fun w w' hw hww' => hww'.put fun a ha => hx a ?_)
        simp [attribute?, hitems, hw, ha]
      | _ => simpa [Record.get?, hold, modifyItem] using h.entry "layout"
  · rw [if_neg hother] at hlookup
    simp only [Record.get?] at hlookup ⊢
    rw [hlookup]
    exact h.entry other

theorem atItem {name : String} (h : Amended (Gains name) v v') {index : Nat} {key : String}
    {x : Value} (hx : ∀ a, v.attribute? index = some a → Record.Gains name a key (a.get? key) x) :
    Amended (Gains name) v (Schema.atItem index key x v') := by
  cases h with
  | same =>
    cases v with
    | table entries =>
      exact .table (r := ⟨entries⟩) (record_atItem (.refl _ _) hx)
    | _ => exact .same _
  | table hr => exact .table (record_atItem hr hx)

end Amended
end Value

namespace Schema

/-- A schema whose types are as they were, apart from what they may have gained. -/
structure Amended (s s' : Schema) : Prop where
  names : s'.names = s.names
  types (name : String) :
    Option.Rel (Value.Amended (Value.Gains name)) (s.get? name) (s'.get? name)

theorem amended_self (s : Schema) : s.Amended s where
  names := rfl
  types name := by
    cases s.get? name with
    | none => exact .none
    | some type => exact .some (.same type)

/-- One more change of a type that keeps to what types may gain. -/
theorem Amended.update {s s' : Schema} (h : s.Amended s') {name : String} {change : Value → Value}
    (hc : ∀ v v', s.get? name = some v → Value.Amended (Value.Gains name) v v' →
      Value.Amended (Value.Gains name) v (change v')) : s.Amended (s'.update name change) where
  names := (s'.names_update name change).trans h.names
  types other := by
    have htypes := h.types other
    rw [get?_update]
    by_cases hother : other = name
    · subst hother
      rw [if_pos rfl]
      cases hv : s.get? other with
      | none =>
        rw [hv] at htypes
        generalize s'.get? other = found at htypes
        cases htypes
        exact .none
      | some v =>
        rw [hv] at htypes
        generalize s'.get? other = found at htypes
        cases htypes with
        | some hvv' => exact .some (hc _ _ hv hvv')
    · rwa [if_neg hother]

/-- Only structures that are not hidden are written at the attributes of their layouts. -/
theorem shown_of_mem_marks {s : Schema} {site : Site} (h : Mark.owner site ∈ s.marks) :
    isHidden site.owner = false := by
  obtain ⟨name, -, hname⟩ := List.mem_flatMap.1 h
  obtain ⟨sort, -, -, hfact | ⟨site', hsite⟩⟩ := mem_marksOf hname
  · simp at hfact
  · unfold Site.marks Site.ownerMarks at hsite
    split at hsite
    · simp at hsite
    · rename_i hno
      obtain rfl : site = site' := by simpa using hsite
      simp only [Bool.or_eq_true, not_or, Bool.not_eq_true] at hno
      exact hno.2

namespace Amended
variable {s s' : Schema}

theorem mark_fact (h : s.Amended s') {name : String} (hm : .fact name ∈ s.marks) :
    s.Amended (s'.mark (.fact name)) := by
  obtain ⟨other, -, hother⟩ := List.mem_flatMap.1 hm
  obtain ⟨rfl, sort, hsort, hbears⟩ := fact_of_mem_marksOf hother
  obtain ⟨type, htype, hsort⟩ := Checked.bind_eq_ok.1 hsort
  refine h.update fun v v' hv hvv' => hvv'.put fun r hr => ?_
  obtain rfl : v = type := by simpa [need_text, hv, Checked.require] using htype
  have hget : r.get? "type" = some sort := by
    cases v with
    | table entries =>
      obtain rfl : Record.mk entries = r := by simpa [Value.record?] using hr
      exact Record.need_eq_ok.1 hsort
    | _ => simp [Value.record?] at hr
  refine .name _ hget ?_
  exact hbears.imp Value.eq_text_of_beq Value.eq_text_of_beq

theorem mark_entry (h : s.Amended s') {m : Mark} (hm : m ∈ s.marks) {site : Site} {key : String}
    {x : Value} (he : s.entryOf? m = some (site, key, x)) : s.Amended (s'.setEntry site key x) := by
  rw [setEntry_eq]
  refine h.update fun v v' hv hvv' => hvv'.atItem fun r hr => ?_
  have hat : s.attributeAt? site = some r := by rw [attributeAt?_eq, hv, Option.bind_some, hr]
  cases m with
  | fact name => simp [entryOf?] at he
  | owner site' =>
    obtain ⟨rfl, rfl, rfl⟩ : site' = site ∧ "aggregate_class" = key ∧ Value.text site'.owner = x := by
      simpa [entryOf?] using he
    exact .owner _ (shown_of_mem_marks hm)
  | name site' =>
    obtain ⟨name, hname, he⟩ := Option.map_eq_some_iff.1 he
    obtain ⟨rfl, rfl, rfl⟩ : site' = site ∧ "name" = key ∧ name = x := by simpa using he
    rw [nameAt?, hat, Option.bind_some, Record.inlineName?] at hname
    split at hname
    · rename_i hinline
      obtain ⟨type, htype, hlower⟩ := Option.bind_eq_some_iff.1 hname
      refine .name _ hinline htype ?_
      cases hl : type.lowerFirst with
      | error fault => simp [hl, Except.toOption] at hlower
      | ok lower => simpa [hl, Except.toOption] using hlower
    · simp at hname

theorem markAll (h : s.Amended s') (hs : s'.settled = s.settled) {marks : List Mark}
    (hm : ∀ m ∈ marks, m ∈ s.marks) : s.Amended (s'.markAll marks) := by
  induction marks generalizing s' with
  | nil => exact h
  | cons m marks ih =>
    refine ih ?_ ((s'.settled_mark m).trans hs) fun m' hm' => hm m' (by simp [hm'])
    have hm := hm m (by simp)
    rcases s.mark_cases m with ⟨name, rfl⟩ | ⟨⟨site, key, x⟩, hentry⟩ | hnone
    · exact h.mark_fact hm
    · rw [mark_of_entry (by rw [← entryOf?_settled, hs, entryOf?_settled, hentry])]
      exact h.mark_entry hm hentry
    · rw [hnone s' hs]
      exact h

end Amended

theorem Written.amended {s s' : Schema} (h : s.Written s') : s.Amended s' := by
  obtain ⟨n, rfl⟩ := h
  exact s.amended_self.markAll rfl fun _ hm => List.mem_of_mem_take hm

end Schema

namespace Session

/-- The session after steps that follow one another. -/
def after (session : Session) (steps : List Step) : Session :=
  steps.foldl (fun session step => (session.step step).2) session

theorem after_append (session : Session) (steps steps' : List Step) :
    session.after (steps ++ steps') = (session.after steps).after steps' := List.foldl_append

theorem after_cons (session : Session) (step : Step) (steps : List Step) :
    session.after (step :: steps) = (session.step step).2.after steps := rfl

variable {s : Schema} {session : Session}

theorem onward_withRun (h : s.Written session.schema) (id : Value)
    {act : Run → Checked Answer × Run × Schema}
    (ha : ∀ run, Run.Onward s session.schema (act run).2.2) :
    Run.Onward s session.schema (session.withRun id act).2.schema := by
  have same : Run.Onward s session.schema session.schema := ⟨h, fun hc => hc⟩
  unfold withRun
  cases id.asKey with
  | error fault => exact same
  | ok key =>
    cases session.runs.lookup id with
    | none => exact same
    | some run => exact ha run

theorem onward_step (h : s.Written session.schema) (step : Step) :
    Run.Onward s session.schema (session.step step).2.schema := by
  have same : Run.Onward s session.schema session.schema := ⟨h, fun hc => hc⟩
  cases step with
  | new id product =>
    simp only [Session.step]
    cases Product.ofName product with
    | error fault => exact same
    | ok product => cases id.asKey <;> exact same
  | start id => exact onward_withRun h id fun _ => same
  | next id => exact onward_withRun h id fun run => Run.onward_next h run session.notice
  | drain id =>
    refine onward_withRun h id fun run => ?_
    have honward := Run.onward_drain h run session.notice
    generalize run.drain session.notice session.schema = out at honward
    obtain ⟨files, _ | fault, run₁, s₁⟩ := out <;> exact honward
  | advance id => exact onward_withRun h id fun _ => same
  | «show» type => exact same

theorem onward_after (h : s.Written session.schema) (steps : List Step) :
    Run.Onward s session.schema (session.after steps).schema := by
  induction steps generalizing session with
  | nil => exact ⟨h, fun hc => hc⟩
  | cons step steps ih =>
    have hstep := onward_step h step
    have hrest := ih hstep.1
    exact ⟨hrest.1, fun hc => hrest.2 (hstep.2 hc)⟩

/-- A drain of classes without a fault has come to the end of planning. -/
theorem complete_drain {s₁ : Schema} (h : s.Written s₁) (t : Target) (notice : Notice)
    (hd : (ClassRun.drain t notice s₁).2.1 = none) : s.Complete (ClassRun.drain t notice s₁).2.2 := by
  have hend := h.planned t
  rw [ClassRun.drain_eq] at hd ⊢
  cases hr : (runOn (Plan.all t) s₁).1 with
  | error fault => simp [hr] at hd
  | ok plans =>
    rw [hr] at hend
    exact h.complete hend

theorem complete_step_drain (h : s.Written session.schema) {id : Value} {t : Target}
    {progress : ClassRun} (hrun : session.runs.lookup id = some (.classes t progress))
    {files : List SourceFile} (hd : (session.step (.drain id)).1 = .ok (.files files)) :
    s.Complete (session.step (.drain id)).2.schema := by
  simp only [step, withRun, hrun] at hd ⊢
  cases hid : id.asKey with
  | error fault => simp [hid] at hd
  | ok key =>
    have hcomplete := complete_drain h t session.notice
    simp only [hid, Run.drain] at hd ⊢
    rcases hout : ClassRun.drain t session.notice session.schema with ⟨files', _ | fault, s₁⟩
    · rw [hout] at hcomplete
      exact hcomplete rfl
    · simp [hout] at hd

/-- A session never changes a schema but for what its types may gain, and it changes nothing any more
once the files of one language have all been written. -/
theorem schema_amended_until_drained (session : Session) (steps : List Step) :
    session.schema.Amended (session.after steps).schema ∧
      ∀ id t progress files more,
        (session.after steps).runs.lookup id = some (.classes t progress) →
        ((session.after steps).step (.drain id)).1 = .ok (.files files) →
        (session.after (steps ++ .drain id :: more)).schema =
          (session.after (steps ++ [.drain id])).schema := by
  have hwritten := (onward_after session.schema.written_self steps).1
  refine ⟨hwritten.amended, ?_⟩
  intro id t progress files more hrun hfiles
  have hcomplete := complete_step_drain hwritten hrun hfiles
  have hthen := (onward_step hwritten (.drain id)).1
  rw [after_append, after_append, after_cons, after_cons]
  exact ((onward_after hthen more).2 hcomplete).trans hcomplete.symm

/-- One run breaks off after its first file, with another one at hand. -/
def breakingOff : List Step :=
  [.new "types" "java", .new "scripts" "typescript", .start "scripts", .next "scripts"]

def onLease : Session := { schema := ClassModel.leaseSchema, notice := .absent }

def isClassRun : Run → Bool
  | .classes _ _ => true
  | _ => false

theorem exists_classes {run : Option Run} (h : run.any isClassRun = true) :
    ∃ t progress, run = some (.classes t progress) := by
  obtain ⟨r, rfl, hr⟩ := (Option.any_eq_true _ _).1 h
  cases r with
  | classes t progress => exact ⟨t, progress, rfl⟩
  | _ => cases hr

def givesFiles : Checked Answer → Bool
  | .ok (.files _) => true
  | _ => false

theorem exists_files {answer : Checked Answer} (h : givesFiles answer = true) :
    ∃ files, answer = .ok (.files files) := by
  cases answer with
  | error fault => cases h
  | ok answer =>
    cases answer with
    | files files => exact ⟨files, rfl⟩
    | _ => cases h

theorem schema_amended_until_drained_lease :
    (∃ files, ((onLease.after breakingOff).step (.drain "types")).1 = .ok (.files files)) ∧
      (onLease.after (breakingOff ++ [.drain "types", .drain "scripts", .next "types"])).schema =
        (onLease.after (breakingOff ++ [.drain "types"])).schema := by
  obtain ⟨t, progress, hrun⟩ :=
    @exists_classes ((onLease.after breakingOff).runs.lookup (.text "types")) (by decide +kernel)
  obtain ⟨files, hfiles⟩ :=
    @exists_files ((onLease.after breakingOff).step (.drain "types")).1 (by decide +kernel)
  have hfinal := (schema_amended_until_drained onLease breakingOff).2 "types" t progress files
    [.drain "scripts", .next "types"] hrun hfiles
  exact ⟨⟨files, hfiles⟩, hfinal⟩

end Session
end SchemaForge
