import SchemaForge.Proofs.Alike

/-! What follows from the walks through a structure in different states of a schema: the models of its
class are the same apart from the classes that hold the attributes, and so are those of other types. -/
namespace SchemaForge
open Checked

namespace ClassModel
open Drafting

theorem equalities_settled (s : Schema) (entries : List Entry) :
    equalities s.settled (entries.map Entry.bare) =
      (equalities s entries).map (·.map fun p => (p.1.bare, p.2.settledType)) := by
  induction entries with
  | nil => rfl
  | cons e rest ih =>
    have hneed : ∀ site key, key ≠ "aggregate_class" → key ≠ "name" →
        (s.settled.attributeAt site).need key = (s.attributeAt site).need key := by
      intro site key ho hn
      rw [Schema.attributeAt_settled, Record.need_settled _ ho hn]
    have hsite : e.bare.site = e.site := rfl
    have hcondition : e.bare.isConditional = e.isConditional := rfl
    have hdiscriminator : e.bare.conditionSite = e.conditionSite := rfl
    rw [List.map_cons, equalities, equalities, hsite, hcondition, hdiscriminator,
      hneed _ _ (by simp) (by simp), ih]
    by_cases hc : e.isConditional = true
    · simp only [hc]
      cases (s.attributeAt e.site).need "condition_operation" with
      | error fault => rfl
      | ok operation =>
        simp only [ok_bind]
        by_cases hop : (operation == .text "has") = true
        · simp [hop]
        · cases e.conditionSite with
          | none => simp [hop]
          | some site =>
            simp only [hop, hneed site "type" (by simp) (by simp), Schema.need_settled]
            cases (s.attributeAt site).need "type" with
            | error fault => simp
            | ok type =>
              simp only [ok_bind]
              cases s.need type with
              | error fault => simp
              | ok declared => cases equalities s rest <;> simp
    · simp [hc]

/-- The dependent entries among which a choice is made, each with the type of its discriminator. -/
theorem of_mem_equalities {s : Schema} {entries : List Entry} {eqs : List (Entry × Value)}
    (h : equalities s entries = .ok eqs) {p : Entry × Value} (hp : p ∈ eqs) :
    p.1 ∈ entries ∧ p.1.isConditional = true ∧ ∃ d type, p.1.conditionSite = some d ∧
      (s.attributeAt d).need "type" = .ok type ∧ s.need type = .ok p.2 := by
  induction entries generalizing eqs with
  | nil =>
    obtain rfl := Except.ok.inj h
    cases hp
  | cons e rest ih =>
    have later : ∀ {tail}, equalities s rest = .ok tail → p ∈ tail →
        p.1 ∈ e :: rest ∧ p.1.isConditional = true ∧ ∃ d type, p.1.conditionSite = some d ∧
          (s.attributeAt d).need "type" = .ok type ∧ s.need type = .ok p.2 :=
      fun htail hmem => (ih htail hmem).imp_left (List.mem_cons_of_mem _)
    rw [equalities] at h
    by_cases hc : e.isConditional = true
    · simp only [hc] at h
      obtain ⟨operation, -, h⟩ := bind_eq_ok.1 h
      split at h
      · exact later (by simpa using h) hp
      · cases hsite : e.conditionSite with
        | none => simp [hsite] at h
        | some d =>
          simp only [hsite] at h
          obtain ⟨type, htype, h⟩ := bind_eq_ok.1 h
          obtain ⟨declared, hdeclared, h⟩ := bind_eq_ok.1 h
          obtain ⟨tail, htail, rfl⟩ := return_eq_ok.1 h
          rcases List.mem_cons.1 hp with rfl | hmem
          · exact ⟨List.mem_cons_self, hc, d, type, hsite, htype, hdeclared⟩
          · exact later htail hmem
    · exact later (by simpa [hc] using h) hp

theorem values_settledType (v : Value) : v.settledType.values = v.values := by
  simp [Value.values, Value.need_settledType]

theorem enumerated_settled (p : Entry × Value) :
    enumerated (p.1.bare, p.2.settledType) =
      (enumerated p).map (·.map fun q => (q.1.bare, q.2)) := by
  obtain ⟨e, type⟩ := p
  simp only [enumerated, values_settledType]
  cases type.values with
  | error fault => rfl
  | ok values => cases hn : values.mapM (·.need "name") <;> simp [hn]

theorem mem_enumerated {p : Entry × Value} {named : List (Entry × Value)}
    (h : enumerated p = .ok named) {q : Entry × Value} (hq : q ∈ named) : q.1 = p.1 := by
  obtain ⟨e, type⟩ := p
  obtain ⟨values, -, h⟩ := bind_eq_ok.1 h
  obtain ⟨names, -, rfl⟩ := return_eq_ok.1 h
  obtain ⟨value, -, rfl⟩ := List.mem_map.1 hq
  rfl

theorem asked_settled {s : Schema} {p : Entry × Value}
    (h : ∀ site, p.1.conditionSite = some site → s.PlainAt site) :
    asked s.settled (p.1.bare, p.2) = asked s p := by
  obtain ⟨e, value⟩ := p
  have hdiscriminator : e.bare.conditionSite = e.conditionSite := rfl
  have hsite : e.bare.site = e.site := rfl
  simp only [asked, hdiscriminator, hsite]
  cases hd : e.conditionSite with
  | none => rfl
  | some site =>
    obtain ⟨r, hr, hi⟩ := h site hd
    have hname : (s.attributeAt site).settled.need "name" = (s.attributeAt site).need "name" := by
      rw [Schema.attributeAt, hr, Option.getD_some, Record.need, Record.named_of_plain hi]
      rfl
    simp only [hname, Schema.attributeAt_settled,
      Record.need_settled _ (show "condition_value" ≠ "aggregate_class" by simp) (by simp)]

theorem choices_settled {s : Schema} {eqs : List (Entry × Value)}
    (h : ∀ p ∈ eqs, ∀ site, p.1.conditionSite = some site → s.PlainAt site) :
    choices s.settled (eqs.map fun p => (p.1.bare, p.2.settledType)) = choices s eqs := by
  unfold choices
  have henumerated : (eqs.map fun p => (p.1.bare, p.2.settledType)).mapM enumerated =
      (eqs.mapM enumerated).map (·.map (·.map fun q => (q.1.bare, q.2))) := by
    rw [List.mapM_map, ← mapM_map_result]
    exact mapM_congr fun p _ => enumerated_settled p
  rw [henumerated]
  cases hl : eqs.mapM enumerated with
  | error fault => rfl
  | ok named =>
    have hasked : (named.map (·.map fun q => (q.1.bare, q.2))).flatten.mapM (asked s.settled) =
        named.flatten.mapM (asked s) := by
      rw [← List.map_flatten, List.mapM_map]
      apply mapM_congr
      intro q hq
      obtain ⟨names, hnames, hmem⟩ := List.mem_flatten.1 hq
      obtain ⟨p, hp, hpn⟩ := mem_of_mapM hl hnames
      exact asked_settled fun site hsite => h p hp site (mem_enumerated hpn hmem ▸ hsite)
    simp only [map_ok, ok_bind, hasked]

theorem choose_settled (s : Schema) (c : Choice) (e : Entry) :
    choose s.settled c e.bare = (choose s c e).map Entry.bare := by
  have hname : e.bare.name = e.name := rfl
  have hsite : e.bare.site = e.site := rfl
  simp only [choose, hname, hsite, Schema.attributeAt_settled,
    Record.is_settled _ (show "condition" ≠ "aggregate_class" by simp) (by simp),
    Record.need_settled _ (show "condition_value" ≠ "aggregate_class" by simp) (by simp)]
  split
  · rfl
  split
  · rfl
  cases (s.attributeAt e.site).need "condition_value" with
  | error fault => rfl
  | ok asked =>
    simp only [ok_bind]
    generalize (if c.known then c.value else .null) = wanted
    split <;> rfl

theorem constructorsOf_settled {s : Schema} {entries : List Entry}
    (h : ∀ e ∈ entries, ∀ site, e.conditionSite = some site → s.PlainAt site)
    (parameters : List Entry) :
    constructorsOf s.settled (entries.map Entry.bare) (parameters.map Entry.bare) =
      (constructorsOf s entries parameters).map (·.map (·.map Entry.bare)) := by
  unfold constructorsOf
  rw [equalities_settled]
  cases he : equalities s entries with
  | error fault => rfl
  | ok eqs =>
    simp only [map_ok, ok_bind, List.isEmpty_map]
    rw [choices_settled fun p hp site hsite => h p.1 (of_mem_equalities he hp).1 site hsite]
    cases choices s eqs with
    | error fault => rfl
    | ok cs =>
      simp only [ok_bind]
      split
      · rfl
      · rw [← mapM_map_result]
        apply mapM_congr
        intro c _
        rw [List.mapM_map, ← mapM_map_result]
        exact mapM_congr fun e _ => choose_settled s c e

theorem parameters_bare (t : Target) (entries : List Entry) :
    (entries.filter (isParameter t)).map Entry.bare =
      (entries.map Entry.bare).filter (isParameter t) := by
  rw [List.filter_map]
  rfl

/-- The rest of a model follows from the entries without the classes that hold the attributes. -/
theorem finish_settled (f : Frame) (comments : String) {d : Draft}
    (h : ∀ e ∈ d.entries, ∀ site, e.conditionSite = some site → d.schema.PlainAt site) :
    finish f comments d.settled = (finish f comments d).map bare := by
  have hconstructors := constructorsOf_settled h (d.entries.filter (isParameter f.target))
  rw [parameters_bare] at hconstructors
  simp only [finish, Draft.settled, hconstructors]
  cases constructorsOf d.schema d.entries (d.entries.filter (isParameter f.target)) with
  | error fault => rfl
  | ok constructors => simp [bare, parameters_bare]

end ClassModel

theorem Draft.Alike.symm {d d' : Draft} (h : d.Alike d') : d'.Alike d where
  settled := h.settled.symm
  clear := h.clear'
  clear' := h.clear
  plain e he site hsite := by
    have hmem : e.bare ∈ d.entries.map Entry.bare := by
      rw [h.entries]
      exact List.mem_map_of_mem he
    obtain ⟨e₁, he₁, hbare⟩ := List.mem_map.1 hmem
    have hsite₁ : e₁.conditionSite = some site := (congrArg (·.conditionSite) hbare).trans hsite
    exact Schema.plainAt_congr h.schema (h.plain e₁ he₁ site hsite₁)

namespace ClassModel
open Drafting

theorem finish_congr (f : Frame) (comments : String) {d d' : Draft} (h : d.Alike d') :
    (finish f comments d).map bare = (finish f comments d').map bare := by
  rw [← finish_settled f comments h.plain, ← finish_settled f comments h.symm.plain, h.settled]

theorem classNameOf_settled (s : Schema) (name : String) :
    classNameOf s.settled name = classNameOf s name := by
  simp only [classNameOf, Schema.need_settled, Schema.className_settled, map_bind,
    Schema.className_settledType]

theorem findBase_settled (s : Schema) (layout : List Value) :
    findBase s.settled (layout.map Value.settledAttribute) = findBase s layout := by
  induction layout with
  | nil => rfl
  | cons v rest ih =>
    simp only [List.map_cons, findBase, Value.isInline_settledAttribute, ih,
      Value.need_settledAttribute (show "type" ≠ "aggregate_class" by simp) (by simp),
      Schema.need_settled, Schema.className_settled, map_bind, Schema.className_settledType]

end ClassModel

namespace Value

theorem has_put_ne {key other : String} (h : other ≠ key) (v value : Value) :
    (v.put key value).has other = v.has other := by
  cases v with
  | table entries =>
    have hlookup := Record.get?_set_ne ⟨entries⟩ value h
    have hhas : Record.has (Record.set ⟨entries⟩ key value) other = Record.has ⟨entries⟩ other := by
      rw [Record.has, hlookup, Record.has]
    exact congrArg Except.ok hhas
  | _ => rfl

theorem need_put_ne {key other : String} (h : other ≠ key) (v value : Value) :
    (v.put key value).need other = v.need other := by
  cases v with
  | table entries =>
    exact congrArg (Checked.require (text other)) (Record.get?_set_ne ⟨entries⟩ value h)
  | _ => rfl

/-- Types that are the same apart from their names are described alike once they have the same name. -/
theorem description_put_name {v v' : Value} (h : v.settledType = v'.settledType) (name : Value) :
    (v.put "name" name).description = (v'.put "name" name).description := by
  have named : ∀ w : Value, (∃ entries, w = table entries) →
      (w.put "name" name).has "name" = .ok true ∧ (w.put "name" name).need "name" = .ok name := by
    rintro _ ⟨entries, rfl⟩
    have hget := Record.get?_set_self ⟨entries⟩ "name" name
    exact ⟨congrArg (fun found : Option Value => (Except.ok found.isSome : Checked Bool)) hget,
      congrArg (Checked.require (text "name")) hget⟩
  have hhas : v'.has "comments" = v.has "comments" := by
    rw [← has_settledType (by simp) (by simp) v', ← h, has_settledType (by simp) (by simp) v]
  have hneed : v'.need "comments" = v.need "comments" := by
    rw [← need_settledType (by simp) (by simp) v', ← h, need_settledType (by simp) (by simp) v]
  cases v with
  | table entries =>
    have hv' : ∃ entries', v' = table entries' := by
      cases v' with
      | table entries' => exact ⟨entries', rfl⟩
      | _ => simp [settledType] at h
    obtain ⟨hn, hname⟩ := named _ ⟨entries, rfl⟩
    obtain ⟨hn', hname'⟩ := named v' hv'
    simp only [description, has_put_ne (show "comments" ≠ "name" by simp),
      need_put_ne (show "comments" ≠ "name" by simp), hhas, hneed, hn, hname, hn', hname']
  | _ =>
    cases v' with
    | table entries' => simp [settledType] at h
    | _ => simp_all [settledType]

end Value

namespace Schema

theorem need_setFact (s : Schema) (name key : String) (value : Value) :
    (s.setFact name key value).need name = (s.need name).map (·.put key value) := by
  rw [need_text, need_text, setFact, get?_update, if_pos rfl]
  cases s.get? name <;> rfl

/-- What is read of a type that has just been given its name. -/
theorem need_setFact_congr {α : Type} {s s' : Schema} (h : s.settled = s'.settled) (name : String)
    (value : Value) {read read' : Value → Checked α}
    (hread : ∀ v v' : Value, v.settledType = v'.settledType →
      read (v.put "name" value) = read' (v'.put "name" value)) :
    ((s.setFact name "name" value).need name >>= read) =
      (s'.setFact name "name" value).need name >>= read' := by
  have hneed := s.need_settled name
  rw [h, need_settled] at hneed
  rw [need_setFact, need_setFact]
  cases hn : s.need name with
  | error fault => cases hn' : s'.need name <;> simp_all
  | ok v =>
    cases hn' : s'.need name with
    | error fault => simp_all
    | ok v' => exact hread v v' (by simpa [hn, hn'] using hneed.symm)

theorem description_setFact {s s' : Schema} (h : s.settled = s'.settled) (name : String)
    (value : Value) :
    ((s.setFact name "name" value).need name >>= Value.description) =
      (s'.setFact name "name" value).need name >>= Value.description :=
  need_setFact_congr h name value fun _ _ hsettled => Value.description_put_name hsettled value

end Schema

namespace ClassModel
open Drafting

theorem frameOf_eq (t : Target) (name className : String) (s : Schema) :
    frameOf t name className s = (s.need name >>= Value.layout >>= findBase s) >>= fun b =>
      (s.need name >>= Value.description) >>= fun comments =>
        .ok (⟨t, name, className, b.1, b.2⟩, comments) := by
  simp only [frameOf, bind_assoc, pure_eq_ok]

theorem frameOf_congr {s s' : Schema} (h : s.settled = s'.settled) (t : Target)
    (name className : String) (value : Value) :
    frameOf t name className (s.setFact name "name" value) =
      frameOf t name className (s'.setFact name "name" value) := by
  have base : ∀ s : Schema, (s.settled.need name >>= Value.layout >>= findBase s.settled) =
      s.need name >>= Value.layout >>= findBase s := by
    intro s
    rw [Schema.layout_settled]
    cases s.need name >>= Value.layout with
    | error fault => rfl
    | ok layout => exact findBase_settled s layout
  have hbase := base (s.setFact name "name" value)
  rw [Schema.settled_setFact, h, ← s'.settled_setFact name value, base] at hbase
  rw [frameOf_eq, frameOf_eq, hbase, Schema.description_setFact h]

/-- The rest of a model when its class is framed. -/
theorem agree_walk_finish (f : Frame) (comments : String) {d d' : Draft} (h : d.Alike d')
    (limit : Nat) (name : String) :
    Agree bare (runOn (do walk f limit name none 0; finish f comments (← get)) d)
      (runOn (do walk f limit name none 0; finish f comments (← get)) d') := by
  refine (agree_walk f h limit name).bind fun _ e e' _ _ h₁ => ?_
  simp only [runOn_bind, runOn_get, runOn_lift]
  exact ⟨finish_congr f comments h₁, h₁⟩

theorem agree_build (t : Target) (name : String) {d d' : Draft} (h : d.Alike d') :
    Agree bare (runOn (build t name) d) (runOn (build t name) d') := by
  have hclass : classNameOf d.schema name = classNameOf d'.schema name := by
    rw [← classNameOf_settled, h.schema, classNameOf_settled]
  have hnamed := h.marked [.fact name]
  have hlimit : (d.schema.setFact name "name" (Text.lowerFirst name)).depthLimit =
      (d'.schema.setFact name "name" (Text.lowerFirst name)).depthLimit := by
    rw [← Schema.depthLimit_settled, Schema.settled_setFact, h.schema,
      ← d'.schema.settled_setFact name (Text.lowerFirst name), Schema.depthLimit_settled]
  unfold build
  rw [runOn_bind, runOn_bind, runOn_schema, runOn_schema]
  simp only [hclass]
  refine (Agree.lift id h rfl).bind fun className e e' he he' _ => ?_
  simp only [runOn_lift, Prod.mk.injEq] at he he'
  obtain ⟨-, rfl⟩ := he
  obtain ⟨-, rfl⟩ := he'
  simp only [runOn_bind, writeFact, runOn_modify, runOn_schema, runOn_lift,
    frameOf_congr h.schema t name className, hlimit]
  cases frameOf t name className (d'.schema.setFact name "name" (Text.lowerFirst name)) with
  | error fault => exact ⟨rfl, hnamed⟩
  | ok framed =>
    have hrest := agree_walk_finish framed.1 framed.2 hnamed
      (d'.schema.setFact name "name" (Text.lowerFirst name)).depthLimit name
    simp only [runOn_bind, runOn_get, runOn_lift] at hrest ⊢
    exact hrest

end ClassModel

theorem Value.kind_settledType (v : Value) : v.settledType.kind .null = v.kind .null := by
  have his : ∀ value, v.settledType.is "disposition" value = v.is "disposition" value := by
    intro value
    simp [is, has_settledType, need_settledType]
  simp only [kind, isVar, isFill, isInline, his, countsOneOf,
    need_settledType (show "type" ≠ "layout" by simp) (by simp),
    need_settledType (show "size" ≠ "layout" by simp) (by simp),
    has_settledType (show "size" ≠ "layout" by simp) (by simp)]

theorem Target.typeOf_settledType (t : Target) (s : Schema) (v : Value) (kind : Kind) :
    t.typeOf s.settled v.settledType kind = t.typeOf s v kind := by
  simp [typeOf, Schema.sizeOf, Value.need_settledType, Value.has_settledType, Schema.need_settled,
    Schema.className_settled, Schema.className_settledType]

namespace AtomModel

theorem ofDeclared_congr {s s' : Schema} (h : s.settled = s'.settled) (t : Target)
    (name className : String) (value : Value) :
    ofDeclared t (s.setFact name "name" value) name className =
      ofDeclared t (s'.setFact name "name" value) name className := by
  unfold ofDeclared
  refine Schema.need_setFact_congr h name value fun v v' hsettled => ?_
  have hput : (v.put "name" value).settledType = (v'.put "name" value).settledType := by
    rw [Value.settledType_put_name, Value.settledType_put_name, hsettled]
  have hsize : (v.put "name" value).need "size" = (v'.put "name" value).need "size" := by
    rw [← Value.need_settledType (by simp) (by simp), hput,
      Value.need_settledType (by simp) (by simp)]
  have hkind : (v.put "name" value).kind .null = (v'.put "name" value).kind .null := by
    rw [← Value.kind_settledType, hput, Value.kind_settledType]
  have htype : ∀ kind, t.typeOf (s.setFact name "name" value) (v.put "name" value) kind =
      t.typeOf (s'.setFact name "name" value) (v'.put "name" value) kind := by
    intro kind
    rw [← t.typeOf_settledType, hput, Schema.settled_setFact, h,
      ← s'.settled_setFact name value, t.typeOf_settledType]
  simp only [hsize, hkind, htype, Value.description_put_name hsettled]

theorem agree_build (t : Target) (name : String) {d d' : Draft} (h : d.Alike d') :
    Agree id (runOn (build t name) d) (runOn (build t name) d') := by
  have hclass : ClassModel.classNameOf d.schema name = ClassModel.classNameOf d'.schema name := by
    rw [← ClassModel.classNameOf_settled, h.schema, ClassModel.classNameOf_settled]
  unfold build
  rw [runOn_bind, runOn_bind, Drafting.runOn_schema, Drafting.runOn_schema]
  simp only [hclass]
  refine (Agree.lift id h rfl).bind fun className e e' he he' _ => ?_
  simp only [runOn_lift, Prod.mk.injEq] at he he'
  obtain ⟨-, rfl⟩ := he
  obtain ⟨-, rfl⟩ := he'
  simp only [runOn_bind, Drafting.writeFact, runOn_modify, Drafting.runOn_schema, runOn_lift,
    ofDeclared_congr h.schema t name className]
  exact ⟨rfl, h.marked [.fact name]⟩

end AtomModel
end SchemaForge
