import SchemaForge.Proofs.Sharing
import SchemaForge.Proofs.SoundModels

/-! The plans for the files of a well formed schema: when they can be made, for which files they are, and
how a run follows them. -/
namespace SchemaForge
open Checked

namespace Schema
variable {s₀ s : Schema} {name : String}

/-- The width of a type of bytes, or of an enumeration. -/
def typeWidth? (s : Schema) (name : String) : Option Int :=
  (s.get? name).bind fun d => d.record?.bind fun r => (r.get? "size").bind Value.number?

theorem typeWidth?_eq {d : Record} {size : Value} {n : Int} (hd : s.get? name = some d.value)
    (hsize : d.get? "size" = some size) (hn : size.number? = some n) : s.typeWidth? name = some n := by
  have hrecord : d.value.record? = some d := rfl
  simp [typeWidth?, hd, hrecord, hsize, hn]

/-- A type of bytes has a width. -/
theorem WellFormed.byte_eq (h₀ : s₀.WellFormed) {d : Record} (hd : s₀.get? name = some d.value)
    (hsort : d.get? "type" = some (.text "byte")) :
    ∃ size n, d.get? "size" = some size ∧ size.number? = some n := by
  obtain ⟨r, hr, hisType⟩ := h₀.type_eq hd
  obtain rfl : d = r := Option.some.inj (congrArg Value.record? hr)
  simp only [Record.isType, Record.hasSort, Record.is, hsort, Bool.and_eq_true,
    Bool.or_eq_true] at hisType
  have hsize : (d.get? "size").any (·.number?.isSome) = true := by simpa using hisType.1.1.2
  obtain ⟨size, hsize, hnumber⟩ := (Option.any_eq_true _ _).1 hsize
  obtain ⟨n, hn⟩ := Option.isSome_iff_exists.1 hnumber
  exact ⟨size, n, hsize, hn⟩

end Schema

namespace AtomModel
variable {s₀ s : Schema} {name : String}

theorem runOn_build (t : Target) (name : String) (d : Draft) : (runOn (build t name) d).1 =
    ClassModel.classNameOf d.schema name >>= fun className =>
      ofDeclared t (d.schema.setFact name "name" (Text.lowerFirst name)) name className := by
  simp only [build, runOn_bind, Drafting.runOn_schema, runOn_lift, Drafting.writeFact, runOn_modify]
  cases ClassModel.classNameOf d.schema name <;> rfl

/-- Bytes of a known number are a sequence only if there are more than eight. -/
theorem kind_eq {d : Record} {size : Value} {n : Int} (htype : d.get? "type" = some (.text "byte"))
    (hsize : d.get? "size" = some size) (hn : size.number? = some n) :
    ∃ kind, d.value.kind .null = .ok kind ∧ (kind = .simple → n ≤ 8) ∧ (kind = .buffer → 8 < n) ∧
      kind ≠ .sizeField := by
  have htext : size.isText = false := Value.isText_of_number? hn
  have hcompared : size.compared = .ok n := by simp [Value.compared, hn]
  have hflags : Text.endsWith "Flags" "byte" = false := by decide
  have hneed : ∀ key, d.value.need key = require key (d.get? key) := fun _ => rfl
  simp only [Value.kind, Value.isVar_record, Value.isFill_record, Value.isInline_record, ok_bind,
    Value.countsOneOf, hneed, htype, hsize, require, Value.has_record, Record.has, Value.asText_text,
    hflags, htext, hn, Value.isNumber, hcompared, Value.isStruct, Value.isEnum, Value.isByte]
  by_cases hvar : d.isVar = true
  · exact ⟨_, if_pos hvar, by simp⟩
  by_cases hfill : d.isFill = true
  · exact ⟨_, by rw [if_neg hvar, if_pos hfill]; rfl, by simp⟩
  by_cases hinline : d.isInline = true
  · exact ⟨_, by rw [if_neg hvar, if_neg hfill, if_pos hinline]; rfl, by simp⟩
  rw [if_neg hvar, if_neg hfill, if_neg hinline]
  by_cases hle : n ≤ 8
  · exact ⟨.simple, by simp [hle], by simp [hle]⟩
  · exact ⟨.buffer, by simp [hle], by simp, fun _ => by omega, by simp⟩

theorem succeeds_typeOf {d : Record} {size : Value} (htype : d.get? "type" = some (.text "byte"))
    (hsize : d.get? "size" = some size) (t : Target) {kind : Kind} (hno : kind ≠ .sizeField) :
    Succeeds (t.typeOf s d.value kind) ↔ (kind = .simple → Succeeds (t.numberType size)) := by
  have hneed : d.value.need "type" = .ok (.text "byte") := Record.need_of_get? htype
  have hsized : s.sizeOf d.value = .ok size := by
    have hhas : d.has "size" = true := by simp [Record.has, hsize]
    simp [Schema.sizeOf, Value.has_record, hhas, Record.need_of_get? hsize]
  cases kind <;> simp_all [Target.typeOf, Value.isByte]

section
variable (h₀ : s₀.WellFormed) (hr : s₀.Reached s) (hname : name ∈ s₀.names)
  (hbyte : s₀.isSort "byte" name = true)
include h₀ hr hname hbyte

/-- The model of a type of bytes can be made if the type is no number, or one with a known width. -/
theorem build_eq (t : Target) : ∃ size n, s₀.typeWidth? name = some n ∧ size.number? = some n ∧
    ((n ≤ 8 → Succeeds (t.numberType size)) → Succeeds (runOn (build t name) { schema := s }).1) ∧
    ∀ m, (runOn (build t name) { schema := s }).1 = .ok m →
      m.className = s₀.classOf name ∧ m.size = size ∧ (m.kind = .buffer → 8 < n) ∧
      (m.kind = .simple → Succeeds (t.numberType size)) := by
  obtain ⟨d₀, d, hd₀, -, hd, hget⟩ := hr.exists_type h₀ hname
  obtain ⟨_, d', hname', hd', htype⟩ := Schema.exists_of_isSort hbyte
  obtain rfl := Value.text.inj hname'
  obtain rfl := Schema.type_unique hd₀ hd'
  obtain ⟨size, n, hsize, hn⟩ := h₀.byte_eq hd₀ htype
  -- The type as it is when it has been given its name.
  let named := d.set "name" (Text.lowerFirst name)
  have hnamed : ∀ key, key ≠ "layout" → key ≠ "name" → named.get? key = d₀.get? key := by
    intro key hl hn
    rw [← hget key hl hn]
    exact Record.get?_set_ne _ _ hn
  have hneed : (s.setFact name "name" (Text.lowerFirst name)).need name = .ok named.value := by
    rw [Schema.need_setFact, Schema.need_eq_ok.2 hd]
    rfl
  have htype' := (hnamed _ (by simp) (by simp)).trans htype
  have hsize' := (hnamed _ (by simp) (by simp)).trans hsize
  obtain ⟨kind, hkind, hsimple, hbuffer, hno⟩ := kind_eq htype' hsize' hn
  have hdescription := hr.succeeds_description h₀ hname
  rw [hneed, ok_bind] at hdescription
  obtain ⟨comments, hcomments⟩ := hdescription
  have hbuild : (runOn (build t name) { schema := s }).1 =
      (t.typeOf (s.setFact name "name" (Text.lowerFirst name)) named.value kind).map fun type =>
        { name, size, className := s₀.classOf name, kind, type, comments
          field := Text.lowerFirst name } := by
    have hsized : named.value.need "size" = .ok size := Record.need_of_get? hsize'
    simp only [runOn_build, hr.classNameOf_eq h₀ hname, ok_bind, ofDeclared, hneed, hsized, hkind,
      hcomments]
    cases t.typeOf (s.setFact name "name" (Text.lowerFirst name)) named.value kind <;> rfl
  have htypeOf := succeeds_typeOf (s := s.setFact name "name" (Text.lowerFirst name)) htype' hsize' t hno
  refine ⟨size, n, Schema.typeWidth?_eq hd₀ hsize hn, hn, ?_, ?_⟩
  · intro hnumber
    rw [hbuild, succeeds_exceptMap, htypeOf]
    exact fun hs => hnumber (hsimple hs)
  · intro m hm
    rw [hbuild] at hm
    obtain ⟨type, hok, rfl⟩ := Checked.map_eq_ok.1 hm
    exact ⟨rfl, rfl, hbuffer, htypeOf.1 ⟨type, hok⟩⟩

end
end AtomModel

theorem Value.succeeds_enumName (name : String) : Succeeds (Value.enumName (.text name)) := by
  simp only [enumName, snakeCase]
  split <;> simp

namespace EnumModel
variable {s₀ s : Schema} {name : String}

theorem succeeds_ofValue {r : Record} (h : r.isEnumerator = true) : Succeeds (ofValue r.value) := by
  obtain ⟨name, hname, hne⟩ := r.name_of_isEnumerator h
  simp only [Record.isEnumerator, Bool.and_eq_true] at h
  obtain ⟨value, hvalue⟩ := Option.isSome_iff_exists.1 h.2
  have hdescription : Succeeds r.value.description := by
    refine Value.succeeds_description ((Option.all_eq_true _ _).1 h.1.1) fun own hown => ?_
    obtain rfl := Option.some.inj (hname.symm.trans hown)
    exact Value.isName_iff.2 ⟨name, rfl, hne⟩
  simp [ofValue, Record.need_of_get? hname, Record.need_of_get? hvalue, hdescription,
    Value.succeeds_enumName]

theorem succeeds_ofConstant {type owner : String} (howner : owner ≠ "") {r : Record}
    (hconst : r.isConst = true → r.has "value" = true) : Succeeds (ofConstant type owner r.value) := by
  have hphrase := Text.succeeds_phrase.2 howner
  simp only [ofConstant, Value.find_record, ok_bind, succeeds_ite, pure_eq_ok, succeeds_ok, implies_true,
    true_and, succeeds_bind, hphrase, and_true, Bool.not_eq_true, Bool.not_eq_false']
  intro hdisposition _ _ _
  obtain ⟨value, hvalue⟩ := Option.isSome_iff_exists.1 (hconst hdisposition)
  rw [Value.need_record, Record.need_of_get? hvalue]
  exact succeeds_ok _

/-- The constants of a type are enumerators of their types. -/
theorem succeeds_ofStruct (h₀ : s₀.WellFormed) {owner : String} {d : Value} (hp : (owner, d) ∈ s₀.types)
    (type : String) : Succeeds (ofStruct type owner d) := by
  have hnamed := h₀.named owner (List.mem_map_of_mem hp)
  simp only [List.mem_cons, List.not_mem_nil, or_false, not_or] at hnamed
  have hd := Schema.get?_of_mem h₀.distinct hp
  obtain ⟨r, rfl, -⟩ := h₀.type_eq hd
  simp only [ofStruct, Value.has_record, ok_bind, succeeds_ite, pure_eq_ok, succeeds_ok, implies_true,
    true_and, Bool.not_eq_true', Bool.not_eq_false]
  intro hlayout
  obtain ⟨layout, hl⟩ := h₀.layout_of_has hd hlayout
  have hlisted : r.value.layout = .ok layout := by rwa [Schema.need_eq_ok.2 hd] at hl
  rw [hlisted, ok_bind]
  refine succeeds_filterMapM fun v hv => ?_
  obtain ⟨r', rfl⟩ := h₀.listed hl v hv
  obtain ⟨index, hindex⟩ := List.mem_iff_getElem?.1 hv
  exact succeeds_ofConstant hnamed.1 (h₀.sound (Schema.attributeAt?_of_layout hl hindex)).valued

/-- The model of an enumeration can be made exactly if the target language has numbers of its width. -/
theorem build_eq (h₀ : s₀.WellFormed) (henum : s₀.isSort "enum" name = true) (t : Target) :
    ∃ size n, s₀.typeWidth? name = some n ∧ size.number? = some n ∧
      (Succeeds (build t s₀ name) ↔ Succeeds (t.numberType size)) ∧
      ∀ m, build t s₀ name = .ok m → m.className = s₀.classOf name ∧ m.size = size ∧
        m.isFlags = Text.endsWith "Flags" name := by
  obtain ⟨_, d, hname', hd, htype⟩ := Schema.exists_of_isSort henum
  obtain rfl := Value.text.inj hname'
  obtain ⟨⟨size, n, hsize, hn⟩, hown, values, hvalues, hall⟩ := h₀.enum_eq hd htype
  have hclass := (Schema.Reached.refl s₀).className_eq h₀ (Schema.mem_names_of_get? hd) hd
  have hdescription : Succeeds d.value.description := by
    obtain ⟨r, hr, hisType⟩ := h₀.type_eq hd
    obtain rfl : d = r := Option.some.inj (congrArg Value.record? hr)
    simp only [Record.isType, Record.isDescribed, Bool.and_eq_true, Option.all_eq_true] at hisType
    exact Value.succeeds_description hisType.1.1.1 hown
  have hlisted : d.value.values = .ok values := by
    simp [Value.values, Record.need_of_get? hvalues, Value.items]
  have hdeclared : Succeeds (values.mapM ofValue) := by
    refine succeeds_mapM.2 fun v hv => ?_
    obtain ⟨e, rfl, he⟩ := hall v hv
    exact succeeds_ofValue he
  have hadded : Succeeds (s₀.types.mapM fun p => ofStruct name p.1 p.2) :=
    succeeds_mapM.2 fun p hp => succeeds_ofStruct h₀ hp name
  obtain ⟨comments, hcomments⟩ := hdescription
  obtain ⟨declared, hdeclared⟩ := hdeclared
  obtain ⟨added, hadded⟩ := hadded
  have hbuild : build t s₀ name = (t.numberType size).map fun numberType =>
      { name, size, numberType, className := s₀.classOf name, comments
        enumerators := (declared ++ added.flatten).foldl (fun es e => put e es) []
        isFlags := Text.endsWith "Flags" name } := by
    simp only [build, Schema.need_eq_ok.2 hd, ok_bind, hclass, Value.need_record,
      Record.need_of_get? hsize, hlisted, hdeclared, hcomments, hadded]
    cases t.numberType size <;> rfl
  refine ⟨size, n, Schema.typeWidth?_eq hd hsize hn, hn, ?_, fun m hm => ?_⟩
  · rw [hbuild, succeeds_exceptMap]
  · rw [hbuild] at hm
    obtain ⟨numberType, -, rfl⟩ := Checked.map_eq_ok.1 hm
    exact ⟨rfl, rfl, rfl⟩

end EnumModel

/-- Numbers with so many bytes have a type. -/
def Target.Knows (t : Target) (n : Int) : Prop :=
  ∀ size, size.number? = some n → Succeeds (t.numberType size)

namespace Schema
variable {s₀ s : Schema} {name : String}

theorem WellFormed.sort_cases (h₀ : s₀.WellFormed) (hname : name ∈ s₀.names) :
    s₀.isSort "byte" name = true ∨ s₀.isSort "enum" name = true ∨ s₀.isClass name = true ∨
      s₀.isSort "struct" name = true ∧ isHidden name = true := by
  obtain ⟨v, hv⟩ := exists_of_mem_names hname
  obtain ⟨d, sort, hd, htype, hsort, -⟩ := h₀.known hv
  simp only [List.mem_cons, List.not_mem_nil, or_false] at hsort
  simp only [isClass, isSort_eq hd htype]
  rcases hsort with rfl | rfl | rfl
  · simp
  · simp
  · by_cases hidden : isHidden name = true <;> simp [hidden]

theorem Reached.need_of_isSort (hr : s₀.Reached s) {sort : String} (h : s₀.isSort sort name = true) :
    (s.need name >>= (·.need "type")) = .ok (.text sort) := by
  rw [← sort_settled, hr.settled, sort_settled]
  exact Schema.need_of_isSort h

theorem isSort_of_ne {sort other : String} (h : s.isSort sort name = true) (hne : sort ≠ other) :
    s.isSort other name = false := by
  obtain ⟨_, d, hname, hd, htype⟩ := exists_of_isSort h
  obtain rfl := Value.text.inj hname
  simpa [isSort_eq hd htype] using hne

/-- All numbers in the file of a type have widths that are known. -/
structure Plannable (s : Schema) (t : Target) (name : String) : Prop where
  bytes : s.isSort "byte" name = true → ∀ n, s.typeWidth? name = some n → n ≤ 8 → t.Knows n
  enums : s.isSort "enum" name = true → ∀ n, s.typeWidth? name = some n → t.Knows n
  classes : s.isClass name = true →
    ∀ site ∈ s.met s.depthLimit name, s.isTaken site = true → s.Fits t site

/-- The file that a type gets, if it gets one. -/
def fileOf? (s : Schema) (t : Target) (name : String) : Option String :=
  if s.isSort "struct" name && isHidden name then none else some (s.classOf name ++ t.extension)

end Schema

namespace Plan
variable {s₀ s : Schema} {name : String} {t : Target}

/-- What planning may have for a type. -/
inductive Made (s₀ : Schema) (t : Target) (name : String) : Option Plan → Prop where
  | atom {s : Schema} {m : AtomModel} (reached : s₀.Reached s) (sort : s₀.isSort "byte" name = true)
      (model : (runOn (AtomModel.build t name) { schema := s }).1 = .ok m) :
      Made s₀ t name (some (atom m))
  | enum {m : EnumModel} (sort : s₀.isSort "enum" name = true)
      (model : EnumModel.build t s₀ name = .ok m) : Made s₀ t name (some (enum m))
  | struct {s : Schema} {m : ClassModel} (reached : s₀.Reached s) (sort : s₀.isClass name = true)
      (model : ClassModel.modelOf t s name = .ok m) : Made s₀ t name (some (struct m))
  | nothing (sort : s₀.isSort "struct" name = true) (hidden : isHidden name = true) : Made s₀ t name none

section
variable (t) (hr : s₀.Reached s)
include hr

theorem runOn_ofType?_of_byte (h : s₀.isSort "byte" name = true) : (runOn (ofType? t name) s).1 =
    (runOn (AtomModel.build t name) { schema := s }).1.map fun m => some (.atom m) := by
  rw [runOn_ofType?, hr.need_of_isSort h, ok_bind, if_pos (by decide)]

theorem runOn_ofType?_of_enum (h : s₀.isSort "enum" name = true) : (runOn (ofType? t name) s).1 =
    (EnumModel.build t s₀ name).map fun m => some (.enum m) := by
  rw [runOn_ofType?, hr.need_of_isSort h, ok_bind, if_neg (by decide), if_pos (by decide),
    hr.enum (Schema.need_of_isSort h) rfl]

theorem runOn_ofType?_of_class (h : s₀.isClass name = true) : (runOn (ofType? t name) s).1 =
    (ClassModel.modelOf t s name).map fun m => some (.struct m) := by
  rw [runOn_ofType?, hr.need_of_isSort (Schema.isSort_of_isClass h), ok_bind, if_neg (by decide),
    if_neg (by decide), Schema.isHidden_of_isClass h, if_pos (by decide)]

theorem runOn_ofType?_of_hidden (h : s₀.isSort "struct" name = true) (hidden : isHidden name = true) :
    (runOn (ofType? t name) s).1 = .ok none := by
  rw [runOn_ofType?, hr.need_of_isSort h, ok_bind, if_neg (by decide), if_neg (by decide), hidden,
    if_neg (by decide)]

end

section
variable (h₀ : s₀.WellFormed) (hr : s₀.Reached s) (hname : name ∈ s₀.names)
include h₀ hr hname

theorem made_ofType? {plan : Option Plan} (h : (runOn (ofType? t name) s).1 = .ok plan) :
    Made s₀ t name plan := by
  rcases h₀.sort_cases hname with hsort | hsort | hclass | ⟨hsort, hidden⟩
  · rw [runOn_ofType?_of_byte t hr hsort] at h
    obtain ⟨m, hm, rfl⟩ := Checked.map_eq_ok.1 h
    exact .atom hr hsort hm
  · rw [runOn_ofType?_of_enum t hr hsort] at h
    obtain ⟨m, hm, rfl⟩ := Checked.map_eq_ok.1 h
    exact .enum hsort hm
  · rw [runOn_ofType?_of_class t hr hclass] at h
    obtain ⟨m, hm, rfl⟩ := Checked.map_eq_ok.1 h
    exact .struct hr hclass hm
  · rw [runOn_ofType?_of_hidden t hr hsort hidden] at h
    obtain rfl := Except.ok.inj h
    exact .nothing hsort hidden

/-- Planning a type succeeds if all numbers that it needs have widths that are known. -/
theorem succeeds_ofType? (h : s₀.Plannable t name) : Succeeds (runOn (ofType? t name) s).1 := by
  rcases h₀.sort_cases hname with hsort | hsort | hclass | ⟨hsort, hidden⟩
  · obtain ⟨size, n, hwidth, hn, hsucceeds, -⟩ := AtomModel.build_eq h₀ hr hname hsort t
    rw [runOn_ofType?_of_byte t hr hsort, succeeds_exceptMap]
    exact hsucceeds fun hle => h.bytes hsort n hwidth hle size hn
  · obtain ⟨size, n, hwidth, hn, hiff, -⟩ := EnumModel.build_eq h₀ hsort t
    rw [runOn_ofType?_of_enum t hr hsort, succeeds_exceptMap]
    exact hiff.2 (h.enums hsort n hwidth size hn)
  · rw [runOn_ofType?_of_class t hr hclass, succeeds_exceptMap]
    exact (ClassModel.succeeds_modelOf h₀ hr hname hclass t).2 (h.classes hclass)
  · rw [runOn_ofType?_of_hidden t hr hsort hidden]
    exact succeeds_ok _

end

section
variable {R : String → Option Plan → Prop}

/-- What holds of each type and its plan, made in a state that planning can leave, holds of all. -/
theorem forall₂_ofTypes
    (hR : ∀ s name plan, s₀.Reached s → name ∈ s₀.names → (runOn (ofType? t name) s).1 = .ok plan →
      R name plan)
    {names : List String} (hnames : ∀ name ∈ names, name ∈ s₀.names) (hr : s₀.Reached s)
    {plans : List (Option Plan)} {s' : Schema}
    (h : runOn (names.mapM (ofType? t)) s = (.ok plans, s')) : List.Forall₂ R names plans := by
  induction names generalizing s plans with
  | nil =>
    obtain ⟨rfl, -⟩ := by simpa using h
    exact .nil
  | cons name names ih =>
    rw [List.mapM_cons] at h
    obtain ⟨plan, s₁, hplan, h⟩ := runOn_bind_eq_ok.1 h
    obtain ⟨rest, s₂, hrest, h⟩ := runOn_bind_eq_ok.1 h
    obtain ⟨rfl, rfl⟩ := by simpa using h
    have hnext := reached_ofType? hr t (hnames name List.mem_cons_self)
    rw [hplan] at hnext
    refine .cons ?_ (ih (fun n hn => hnames n (List.mem_cons_of_mem _ hn)) hnext hrest)
    exact hR s name plan hr (hnames name List.mem_cons_self) (by rw [hplan])

/-- All plans: those for the types, and the support files. Planning then is complete. -/
theorem forall₂_all
    (hR : ∀ s name plan, s₀.Reached s → name ∈ s₀.names → (runOn (ofType? t name) s).1 = .ok plan →
      R name plan)
    {plans : List Plan} {s' : Schema} (h : runOn (all t) s₀ = (.ok plans, s')) :
    s₀.Complete s' ∧ ∃ typed, List.Forall₂ R s₀.names typed ∧
      plans = typed.filterMap id ++ t.supportFiles.map support := by
  have hplanned := s₀.written_self.planned t
  rw [h] at hplanned
  refine ⟨s₀.written_self.complete hplanned, ?_⟩
  rw [all, runOn_bind_of_ok (runOn_get s₀)] at h
  obtain ⟨typed, s', htyped, h⟩ := runOn_bind_eq_ok.1 h
  obtain ⟨rfl, -⟩ := by simpa using h
  exact ⟨typed, forall₂_ofTypes hR (fun _ hname => hname) (.refl s₀) htyped, rfl⟩

/-- Every plan is for some type. -/
theorem exists_name_of_made {names : List String} {typed : List (Option Plan)}
    (h : List.Forall₂ R names typed) {p : Plan} (hp : p ∈ typed.filterMap id) :
    ∃ name ∈ names, R name (some p) := by
  obtain ⟨plan, hmem, hsome⟩ := List.mem_filterMap.1 hp
  obtain rfl : plan = some p := hsome
  exact exists_of_forall₂ h.flip hmem

/-- Each type has what planning may have for it. -/
theorem exists_made {names : List String} {typed : List (Option Plan)}
    (h : List.Forall₂ R names typed) {name : String} (hname : name ∈ names) :
    ∃ plan ∈ typed, R name plan := exists_of_forall₂ h hname

end

section
variable (h₀ : s₀.WellFormed) {names : List String} (hnames : ∀ name ∈ names, name ∈ s₀.names)
  (hr : s₀.Reached s)
include h₀ hnames hr

theorem succeeds_ofTypes (h : ∀ name ∈ names, s₀.Plannable t name) :
    Succeeds (runOn (names.mapM (ofType? t)) s).1 := by
  induction names generalizing s with
  | nil => simp
  | cons name names ih =>
    obtain ⟨plan, hplan⟩ := succeeds_ofType? h₀ hr (hnames name List.mem_cons_self)
      (h name List.mem_cons_self)
    have hnext := reached_ofType? hr t (hnames name List.mem_cons_self)
    have hrest := ih (fun n hn => hnames n (List.mem_cons_of_mem _ hn)) hnext
      fun n hn => h n (List.mem_cons_of_mem _ hn)
    rw [List.mapM_cons, succeeds_runOn_bind]
    refine ⟨plan, _, Prod.ext hplan rfl, ?_⟩
    obtain ⟨plans, hplans⟩ := hrest
    exact succeeds_runOn_bind.2 ⟨plans, _, Prod.ext hplans rfl, succeeds_ok _⟩

end

/-- The file for which a plan is made. -/
theorem Made.fileName (h₀ : s₀.WellFormed) (hname : name ∈ s₀.names) {plan : Option Plan}
    (h : Made s₀ t name plan) : plan.map (·.fileName t) = s₀.fileOf? t name := by
  cases h with
  | atom reached sort model =>
    obtain ⟨size, n, -, -, -, hmodel⟩ := AtomModel.build_eq h₀ reached hname sort t
    obtain ⟨hclass, -⟩ := hmodel _ model
    have hno : s₀.isSort "struct" name = false := Schema.isSort_of_ne sort (by decide)
    simp [Plan.fileName, Schema.fileOf?, hno, hclass]
  | enum sort model =>
    obtain ⟨size, n, -, -, -, hmodel⟩ := EnumModel.build_eq h₀ sort t
    obtain ⟨hclass, -⟩ := hmodel _ model
    have hno : s₀.isSort "struct" name = false := Schema.isSort_of_ne sort (by decide)
    simp [Plan.fileName, Schema.fileOf?, hno, hclass]
  | struct reached sort model =>
    obtain ⟨hm, hfitted⟩ := ClassModel.fitted_of_modelOf h₀ reached hname sort t model
    simp [Plan.fileName, Schema.fileOf?, Schema.isHidden_of_isClass sort, hfitted.className, hm]
  | nothing sort hidden => simp [Schema.fileOf?, sort, hidden]

section
variable (h₀ : s₀.WellFormed)
include h₀

theorem succeeds_all (h : ∀ name ∈ s₀.names, s₀.Plannable t name) : Succeeds (runOn (all t) s₀).1 := by
  obtain ⟨plans, hplans⟩ := succeeds_ofTypes h₀ (fun _ hname => hname) (.refl s₀) h
  rw [all, runOn_bind_of_ok (runOn_get s₀), runOn_bind_of_ok (Prod.ext hplans rfl)]
  exact succeeds_ok _

/-- Planning has for each type what the type can have. -/
theorem made_all {plans : List Plan} {s : Schema} (h : runOn (all t) s₀ = (.ok plans, s)) :
    s₀.Complete s ∧ ∃ typed, List.Forall₂ (Made s₀ t) s₀.names typed ∧
      plans = typed.filterMap id ++ t.supportFiles.map support :=
  forall₂_all (fun _ _ _ hr hname hplan => made_ofType? h₀ hr hname hplan) h

theorem fileNames_of_made {typed : List (Option Plan)} (h : List.Forall₂ (Made s₀ t) s₀.names typed) :
    (typed.filterMap id).map (·.fileName t) = s₀.names.filterMap (s₀.fileOf? t) := by
  have hnames : ∀ names, (∀ name ∈ names, name ∈ s₀.names) → ∀ typed,
      List.Forall₂ (Made s₀ t) names typed →
      (typed.filterMap id).map (·.fileName t) = names.filterMap (s₀.fileOf? t) := by
    intro names hsub typed h
    induction h with
    | nil => rfl
    | @cons name plan names typed made rest ih =>
      have hfile := made.fileName h₀ (hsub name List.mem_cons_self)
      have hrest := ih fun n hn => hsub n (List.mem_cons_of_mem _ hn)
      cases plan with
      | none => simpa [← hfile] using hrest
      | some p => simpa [← hfile] using hrest
  exact hnames s₀.names (fun _ hname => hname) typed h

end

theorem succeeds_write {notice : Notice} (hn : notice ≠ .unnamed) {p : Plan} :
    Succeeds (p.write t notice s) ↔ Succeeds (p.body t s) := by
  have hopening : Succeeds (t.opening notice) := by
    cases notice <;> simp_all [Target.opening, Notice.lines]
  obtain ⟨opening, hopening⟩ := hopening
  simp [write, writeCopies, hopening]

theorem name_of_write {notice : Notice} {p : Plan} {file : SourceFile}
    (h : p.write t notice s = .ok file) : file.name = p.fileName t := by
  obtain ⟨opening, -, h⟩ := Checked.bind_eq_ok.1 h
  obtain ⟨body, -, h⟩ := Checked.bind_eq_ok.1 h
  rw [← Except.ok.inj h]

end Plan

namespace ClassRun
variable {t : Target} {notice : Notice} {s : Schema}

/-- Planned files are all written exactly if each can be. -/
theorem writeAll_eq_none (hn : notice ≠ .unnamed) {plans : List Plan} :
    (writeAll t notice s plans).2 = none ↔ ∀ p ∈ plans, Succeeds (p.body t s) := by
  induction plans with
  | nil => simp [writeAll]
  | cons p plans ih =>
    have hwrite := Plan.succeeds_write (t := t) (s := s) (p := p) hn
    rw [writeAll, List.forall_mem_cons, ← ih, ← hwrite]
    cases p.write t notice s <;> simp

theorem names_writeAll {plans : List Plan} (h : (writeAll t notice s plans).2 = none) :
    (writeAll t notice s plans).1.map (·.name) = plans.map (·.fileName t) := by
  induction plans with
  | nil => rfl
  | cons p plans ih =>
    rw [writeAll] at h ⊢
    cases hp : p.write t notice s with
    | error fault => simp [hp] at h
    | ok file =>
      simp only [hp] at h ⊢
      rw [List.map_cons, List.map_cons, ih h, Plan.name_of_write hp]

/-- A run ends without a fault exactly if all files can be planned and written. -/
theorem drain_eq_none (hn : notice ≠ .unnamed) : (drain t notice s).2.1 = none ↔
    ∃ plans s', runOn (Plan.all t) s = (.ok plans, s') ∧ ∀ p ∈ plans, Succeeds (p.body t s') := by
  rw [drain_eq]
  rcases hall : runOn (Plan.all t) s with ⟨fault | plans, s'⟩
  · simp
  · simp [writeAll_eq_none hn]

/-- A run without a fault gives the files of all types and the support files. -/
theorem names_drain (h : s.WellFormed) (hn : (drain t notice s).2.1 = none) :
    (drain t notice s).1.map (·.name) =
      s.names.filterMap (s.fileOf? t) ++ t.supportFiles.map (· ++ t.extension) := by
  rw [drain_eq] at hn ⊢
  rcases hall : runOn (Plan.all t) s with ⟨fault | plans, s'⟩
  · simp [hall] at hn
  · obtain ⟨-, typed, htyped, rfl⟩ := Plan.made_all h hall
    simp only [hall] at hn ⊢
    rw [names_writeAll hn, List.map_append, Plan.fileNames_of_made h htyped, List.map_map]
    rfl

end ClassRun
end SchemaForge
