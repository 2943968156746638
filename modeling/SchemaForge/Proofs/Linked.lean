import SchemaForge.Proofs.ClassFiles
import SchemaForge.Proofs.ScriptImports

/-! Schemas in which every name leads somewhere: the types that attributes name are declared, and so are
the attributes on which others depend. The classes that a class of such a schema names all get files. -/
namespace SchemaForge
open Checked

namespace Record

/-- Size and disposition are such as the language of schemas has. -/
def isSpelled (r : Record) : Bool :=
  (r.get? "size").all Value.isSize &&
    (r.get? "disposition").all fun d => ["inline", "const", "fill", "var"].any fun known => d == .text known

/-- The sort of a type. Only structures have a layout. -/
def hasOneSort (r : Record) : Bool :=
  r.is "type" "struct" || (r.is "type" "byte" || r.is "type" "enum") && !r.has "layout"

end Record

namespace Value
variable {r : Record} {siblings : Value} {k : Kind}

/-- Whether an attribute is a number or a sequence of bytes comes from its place, or else from its type
with its size. -/
theorem isRaw_of_kind (h : r.value.kind siblings = .ok k) :
    if r.isVar || r.isFill || r.isInline then k.isRaw = false
    else k = .sizeField ∨ ∃ type, r.get? "type" = some (.text type) ∧
      ((type ≠ "byte" ∨ r.has "size" = false) ∧ k.isRaw = false ∨ type = "byte" ∧ k.isRaw = true ∨
        type ≠ "byte" ∧ ∃ size, r.get? "size" = some size ∧ (size.isSize = true → k.isRaw = false)) := by
  have hkind : ∀ {k' : Kind}, Except.ok k' = (.ok k : Checked Kind) → k' = k := Except.ok.inj
  obtain ⟨isVar, hvar, h⟩ := bind_eq_ok.1 h
  obtain rfl := Except.ok.inj ((isVar_record r).symm.trans hvar)
  rcases ite_eq_iff.1 h with ⟨hvar, h⟩ | ⟨hvar, h⟩
  · simpa [hvar] using hkind h ▸ rfl
  obtain ⟨isFill, hfill, h⟩ := bind_eq_ok.1 h
  obtain rfl := Except.ok.inj ((isFill_record r).symm.trans hfill)
  rcases ite_eq_iff.1 h with ⟨hfill, h⟩ | ⟨hfill, h⟩
  · simpa [hfill] using hkind h ▸ rfl
  obtain ⟨isInline, hinline, h⟩ := bind_eq_ok.1 h
  obtain rfl := Except.ok.inj ((isInline_record r).symm.trans hinline)
  rcases ite_eq_iff.1 h with ⟨hinline, h⟩ | ⟨hinline, h⟩
  · simpa [hinline] using hkind h ▸ rfl
  rw [if_neg (by simp [hvar, hfill, hinline])]
  obtain ⟨counts, -, h⟩ := bind_eq_ok.1 h
  rcases ite_eq_iff.1 h with ⟨-, h⟩ | ⟨-, h⟩
  · exact .inl (hkind h).symm
  refine .inr ?_
  obtain ⟨value, htype, h⟩ := bind_eq_ok.1 h
  obtain ⟨type, hname, h⟩ := bind_eq_ok.1 h
  obtain rfl : value = .text type := by
    cases value with
    | text s => rw [Except.ok.inj hname]
    | _ => cases hname
  refine ⟨type, Record.need_eq_ok.1 htype, ?_⟩
  rcases ite_eq_iff.1 h with ⟨hflags, h⟩ | ⟨-, h⟩
  · refine .inl ⟨.inl ?_, hkind h ▸ rfl⟩
    rintro rfl
    revert hflags
    decide
  rcases ite_eq_iff.1 h with ⟨hsort, h⟩ | ⟨-, h⟩
  · refine .inl ⟨.inl ?_, hkind h ▸ rfl⟩
    rintro rfl
    revert hsort
    decide
  obtain ⟨sized, hsized, h⟩ := bind_eq_ok.1 h
  obtain rfl := Except.ok.inj ((has_record r _).symm.trans hsized)
  rcases ite_eq_iff.1 h with ⟨hno, h⟩ | ⟨-, h⟩
  · exact .inl ⟨.inr (by simpa using hno), hkind h ▸ rfl⟩
  obtain ⟨size, hsize, h⟩ := bind_eq_ok.1 h
  refine .inr ?_
  by_cases hb : type = "byte"
  · refine .inl ⟨hb, ?_⟩
    subst hb
    rcases ite_eq_iff.1 h with ⟨-, h⟩ | ⟨-, h⟩
    · exact hkind h ▸ rfl
    rcases ite_eq_iff.1 h with ⟨hnumber, -⟩ | ⟨-, h⟩
    · simp [isByte] at hnumber
    obtain ⟨number, -, h⟩ := bind_eq_ok.1 h
    rw [← hkind h]
    cases number <;> rfl
  · refine .inr ⟨hb, size, Record.need_eq_ok.1 hsize, fun hisSize => ?_⟩
    have hno : isByte (.text type) = false := by simpa [isByte] using hb
    rw [hno] at h
    rcases ite_eq_iff.1 h with ⟨-, h⟩ | ⟨htext, h⟩
    · exact hkind h ▸ rfl
    · have hnumber : size.number?.isSome = true := by
        unfold isSize at hisSize
        simpa [htext] using hisSize
      rw [hnumber] at h
      exact hkind h ▸ rfl

end Value

namespace Schema

/-- An attribute is of bytes or of a declared type. Bytes are not repeated, and hidden structures can only
be inlined. -/
def linksType (s : Schema) (r : Record) : Bool :=
  (r.get? "type").any fun type =>
    if type.isByte then !r.isFill && !r.isVar else s.declares type && (!isHidden type || r.isInline)

structure Linked (s : Schema) : Prop where
  /-- Each name stands once. -/
  distinct : s.names.Nodup
  named : ∀ name ∈ s.names, Text.isTypeName name = true
  sorted : ∀ p ∈ s.types, p.2.record?.any Record.hasOneSort = true
  /-- The transactions that the helpers read. -/
  transactions : ∀ name ∈ ["Transaction", "EmbeddedTransaction"], s.isSort "struct" name = true
  hidden : ∀ name ∈ s.names, isHidden name = true → s.isSort "struct" name = true
  /-- A hidden structure does not fix the type of an entity. -/
  untold : ∀ name ∈ s.names, isHidden name = true →
    ∀ site ∈ s.sites name, "entityType" ∈ s.namesAt site → (s.attributeAt site).has "value" = false
  typed : ∀ r ∈ s.attributes, s.linksType r = true
  conditional : ∀ r ∈ s.attributes, (r.get? "condition").all Value.isText = true
  /-- What has the name of a discriminator among the attributes of a class is an enumerated member, and
  not the size of another one. -/
  discriminated : ∀ name ∈ s.names, s.isClass name = true →
    ∀ site ∈ s.met s.depthLimit name, ∀ c ∈ s.conditionAt? site,
      ∀ other ∈ s.met s.depthLimit name, c ∈ s.namesAt other →
        s.isEnumerated other = true ∧ (s.attributeAt other).isConst = false ∧
          (s.kindAt other).toOption ≠ some .sizeField ∧ (s.attributeAt other).isSpelled = true

variable {s₀ s : Schema} {name : String}

theorem isSort_iff {sort : String} :
    s.isSort sort name = true ↔ (s.need name >>= (·.need "type")) = .ok (.text sort) := by
  refine ⟨need_of_isSort, fun h => ?_⟩
  obtain ⟨d, hd, htype⟩ := bind_eq_ok.1 h
  cases d with
  | table entries =>
    have hget : Record.get? ⟨entries⟩ "type" = some (.text sort) := Record.need_eq_ok.1 htype
    rw [@isSort_eq s name sort ⟨entries⟩ (need_eq_ok.1 hd) hget]
    simp
  | _ => simp [Value.need] at htype

theorem isSort_congr (h : s.settled = s₀.settled) (sort name : String) :
    s.isSort sort name = s₀.isSort sort name := by
  rw [Bool.eq_iff_iff, isSort_iff, isSort_iff, ← sort_settled, h, sort_settled]

theorem classOf_congr (h : s.settled = s₀.settled) (name : String) :
    s.classOf name = s₀.classOf name := by
  rw [classOf, isSort_congr h, classOf]

theorem get?_congr (h : s.settled = s₀.settled) (site : Site) {key : String}
    (ho : key ≠ "aggregate_class") (hn : key ≠ "name") :
    (s.attributeAt site).get? key = (s₀.attributeAt site).get? key := by
  rw [← Record.get?_settled _ ho hn, ← attributeAt_settled, h, attributeAt_settled,
    Record.get?_settled _ ho hn]

/-- A type name is not that of a sort. -/
theorem Linked.not_sort (h : s.Linked) (hname : name ∈ s.names) : name ∉ ["byte", "enum"] := by
  have hnamed := h.named name hname
  simp only [List.mem_cons, List.not_mem_nil, or_false]
  rintro (rfl | rfl) <;> revert hnamed <;> decide

theorem classOf_eq {sort : Value} (h : (s.need name >>= (·.need "type")) = .ok sort) :
    s.classOf name = name ++ if sort.isStruct then "Builder" else "Dto" := by
  have hsort : s.isSort "struct" name = sort.isStruct := by
    rw [Bool.eq_iff_iff, isSort_iff, h, Except.ok.injEq]
    exact ⟨fun hstruct => hstruct ▸ rfl, Value.eq_text_of_beq⟩
  unfold classOf
  rw [hsort]
  split <;> rfl

/-- A type has its own class, whoever names it. -/
theorem classOf_of_declared {declared : Value} {className : String} (hd : s.need name = .ok declared)
    (h : s.className name declared = .ok className) : className = s.classOf name := by
  obtain ⟨sort, hsort, -⟩ := bind_eq_ok.1 h
  have hneed : (s.need name >>= (·.need "type")) = .ok sort := by rw [hd, ok_bind, hsort]
  rw [className_eq hneed hd] at h
  rw [classOf_eq hneed, Except.ok.inj h]

theorem classOf_of_attribute {r : Record} {className : String} (hn : name ∉ ["byte", "enum"])
    (hr : r.get? "type" = some (.text name)) (h : s.className name r = .ok className) :
    className = s.classOf name := by
  have hneed : r.value.need "type" = .ok (.text name) := Record.need_eq_ok.2 hr
  have hsort : (Value.isByte (.text name) || Value.isEnum (.text name)) = false := by
    simpa [Value.isByte, Value.isEnum] using hn
  simp only [Schema.className, hneed, ok_bind, Value.joined_text, hsort, Bool.false_eq_true,
    if_false] at h
  cases hd : s.get? name with
  | none =>
    have hno : s.isSort "struct" name = false := by simp [isSort, Value.text?, hd]
    rw [hd] at h
    simp [classOf, hno, ← Except.ok.inj h]
  | some declared =>
    rw [hd] at h
    obtain ⟨sort, hsort, h⟩ := bind_eq_ok.1 h
    have hneed : (s.need name >>= (·.need "type")) = .ok sort := by rw [need_eq_ok.2 hd, ok_bind, hsort]
    rw [classOf_eq hneed, ← Except.ok.inj h]
    split <;> rfl

/-- A structure that is inlined where a walk comes by is entered, unless the walk ends at its limit. -/
theorem enter_of_met {limit : Nat} {owner type : String} {site : Site}
    (hsite : site ∈ s.met limit owner) (hin : s.inlined? site = some type)
    (hends : Stop.endless ∉ s.tour limit owner) : ∃ path, .enter path type ∈ s.tour limit owner := by
  induction limit generalizing owner with
  | zero => cases hsite
  | succ limit ih =>
    rw [met_succ, List.mem_flatMap] at hsite
    obtain ⟨top, htop, hsite⟩ := hsite
    have hentered : ∃ inner, s.inlined? top = some inner ∧ ∃ path, .enter path type ∈ s.tour limit inner := by
      rcases List.mem_cons.1 hsite with rfl | hsite
      · refine ⟨type, hin, ?_⟩
        have hinner := endless_notMem_inner hends htop hin
        cases limit with
        | zero => simp [tour] at hinner
        | succ limit => exact ⟨[], by simp [tour]⟩
      · unfold behind at hsite
        cases htype : s.inlined? top with
        | none => simp [htype] at hsite
        | some inner =>
          rw [htype] at hsite
          exact ⟨inner, rfl, ih hsite (endless_notMem_inner hends htop htype)⟩
    obtain ⟨inner, htype, path, hpath⟩ := hentered
    refine ⟨⟨top, inner⟩ :: path, ?_⟩
    rw [tour]
    refine List.mem_cons_of_mem _ (List.mem_flatMap.2 ⟨top, htop, ?_⟩)
    rw [htype]
    exact List.mem_cons_of_mem _ (List.mem_map.2 ⟨_, hpath, rfl⟩)

end Schema

namespace ClassModel
variable {t : Target} {s : Schema} {name : String} {m : ClassModel}

/-- Each stop that a walk has passed was passed in some state of the schema. -/
theorem pass_of_passes {f : Frame} {stops : List Stop} {d d' : Draft} {u : Unit}
    (h : runOn (forM stops (pass f)) d = (.ok u, d')) {stop : Stop} (hstop : stop ∈ stops) :
    ∃ d₁ d₂, d₁.schema.settled = d.schema.settled ∧ runOn (pass f stop) d₁ = (.ok (), d₂) := by
  induction stops generalizing d with
  | nil => cases hstop
  | cons first stops ih =>
    rw [List.forM_cons] at h
    obtain ⟨_, d₁, hpass, hrest⟩ := runOn_bind_eq_ok.1 h
    rcases List.mem_cons.1 hstop with rfl | hstop
    · exact ⟨d, d₁, rfl, hpass⟩
    · obtain ⟨d₂, d₃, hsettled, hpassed⟩ := ih hrest hstop
      have hkept := settled_pass f first d
      rw [hpass] at hkept
      exact ⟨d₂, d₃, hsettled.trans hkept, hpassed⟩

/-- What a class inlines is declared. -/
theorem mem_names_of_inlined (hm : modelOf t s name = .ok m) {site : Site}
    (hsite : site ∈ s.met s.depthLimit name) {type : String} (hin : s.inlined? site = some type) :
    type ∈ s.names := by
  obtain ⟨className, f, comments, d, -, -, hpasses, -⟩ := passes_of_modelOf hm
  obtain ⟨path, hpath⟩ := Schema.enter_of_met hsite hin (endless_notMem_of_passes hpasses)
  obtain ⟨d₁, d₂, hsettled, hpass⟩ := pass_of_passes hpasses hpath
  rw [s.settled_setFact name] at hsettled
  simp only [pass, runOn_bind, Drafting.runOn_tell, Drafting.runOn_layout] at hpass
  cases hneed : d₁.schema.need type with
  | error fault => simp [hneed] at hpass
  | ok declared =>
    rw [← Schema.names_congr hsettled]
    exact Schema.mem_names_of_get? (Schema.need_eq_ok.1 hneed)

/-- An entry is for an attribute that shows. -/
theorem isShown_of_model (hm : modelOf t s name = .ok m) {e : Entry} (he : e ∈ m.entries) :
    s.isShown e.site = true := by
  obtain ⟨f, -, -, -, hdrawn, -, -⟩ := drawn_of_model hm
  obtain ⟨v, hv, hdepicts⟩ := exists_depicted (depicts_of_drawn hdrawn) he
  obtain ⟨stop, -, hvisit⟩ := List.mem_filterMap.1 hv
  rw [depicts_site hdepicts]
  cases stop with
  | meet path site =>
    obtain ⟨hshown, hvisit⟩ := Option.ite_none_right_eq_some.1 hvisit
    rw [← Option.some.inj hvisit]
    exact hshown
  | _ => cases hvisit

/-- An attribute that a class meets and that shows has an entry. -/
theorem exists_entry_of_shown (hm : modelOf t s name = .ok m) {site : Site}
    (hsite : site ∈ s.met s.depthLimit name) (hshown : s.isShown site = true) :
    ∃ e ∈ m.entries, e.site = site := by
  obtain ⟨f, -, -, -, hdrawn, -, -⟩ := drawn_of_model hm
  obtain ⟨stop, hstop, hat⟩ := List.mem_filterMap.1 hsite
  cases stop with
  | meet path site' =>
    obtain rfl := Option.some.inj hat
    have hv : (⟨path, site'⟩ : Visit) ∈ s.visits s.depthLimit name :=
      List.mem_filterMap.2 ⟨_, hstop, if_pos hshown⟩
    obtain ⟨e, he, hdepicts⟩ := exists_of_forall₂ (depicts_of_drawn hdrawn) hv
    exact ⟨e, he, depicts_site hdepicts⟩
  | _ => cases hat

variable {s₀ : Schema} (hs : s.settled = s₀.settled)
include hs

/-- The attribute for which an entry was made, as it was in the beginning. -/
theorem exists_attribute_of_entry (hm : modelOf t s name = .ok m) {e : Entry} (he : e ∈ m.entries) :
    ∃ r₀, s₀.attributeAt? e.site = some r₀ ∧ MemberFrom t s.settled e.site r₀.settled e.toMember := by
  obtain ⟨r, hr⟩ := memberFrom_of_model hm he
  have hat := Schema.recordAt_eq_ok.1 hr.record
  rw [hs, Schema.attributeAt?_settled] at hat
  obtain ⟨r₀, hr₀, rfl⟩ := Option.map_eq_some_iff.1 hat
  exact ⟨r₀, hr₀, hr⟩

/-- Bytes make no member but numbers and sequences. -/
theorem isRaw_of_bytes (h₀ : s₀.Linked) (hm : modelOf t s name = .ok m) {e : Entry}
    (he : e ∈ m.entries) {r₀ : Record} (hr₀ : s₀.attributeAt? e.site = some r₀)
    (hmember : MemberFrom t s.settled e.site r₀.settled e.toMember)
    (htype : r₀.get? "type" = some (.text "byte")) : e.kind.isRaw = true := by
  have htyped := h₀.typed r₀ (Schema.mem_attributes.2 ⟨_, hr₀⟩)
  have hbyte : Value.isByte (.text "byte") = true := rfl
  simp only [Schema.linksType, htype, Option.any_some, hbyte, if_true, Bool.and_eq_true,
    Bool.not_eq_true'] at htyped
  have hplain : r₀.isInline = false := by
    rw [Bool.eq_false_iff]
    intro hinline
    have hin : s.inlined? e.site = some "byte" := by
      rw [Schema.inlined?_congr hs, Schema.inlined?, hr₀]
      simp [hinline, htype, Value.text?]
    have hnames := mem_names_of_inlined hm (mem_met_of_model hm he) hin
    rw [Schema.names_congr hs] at hnames
    exact h₀.not_sort hnames (by simp)
  have htype' : r₀.settled.get? "type" = some (.text "byte") := by
    rw [Record.get?_settled _ (by simp) (by simp), htype]
  have hsize : r₀.settled.has "size" = true := by
    have hneed : r₀.settled.value.need "type" = .ok (.text "byte") := Record.need_eq_ok.2 htype'
    have hsize := hmember.size
    cases hhas : r₀.settled.has "size" with
    | true => rfl
    | false =>
      have hget : r₀.settled.get? "size" = none := by simpa [Record.has] using hhas
      have hmissing : r₀.settled.value.need "size" = .error (.missing "size") := by
        simp [Record.need, hget, Checked.require]
      simp [Schema.sizeOf, Value.has_record, hhas, hneed, hbyte, hmissing] at hsize
  obtain ⟨layout, -, hkind⟩ := hmember.kind
  have hraw := Value.isRaw_of_kind hkind
  rw [if_neg (by simp [htyped, hplain])] at hraw
  rcases hraw with hk | ⟨type, hown, hraw⟩
  · rw [hk]
    rfl
  · obtain rfl : "byte" = type := by simpa using htype'.symm.trans hown
    simpa [hsize] using hraw

/-- An entry that is no number and no sequence of bytes has the class of a declared type that is not
hidden. -/
theorem class_of_entry (h₀ : s₀.Linked) (hm : modelOf t s name = .ok m) {e : Entry}
    (he : e ∈ m.entries) (hraw : e.kind.isRaw = false) :
    ∃ type ∈ s₀.names, isHidden type = false ∧
      (s₀.attributeAt e.site).get? "type" = some (.text type) ∧ e.className = s₀.classOf type := by
  obtain ⟨r₀, hr₀, hmember⟩ := exists_attribute_of_entry hs hm he
  obtain ⟨type, htype⟩ := hmember.exists_type
  have htype₀ : r₀.get? "type" = some (.text type) := by
    rw [← htype, Record.get?_settled _ (by simp) (by simp)]
  have hbyte : type ≠ "byte" := by
    rintro rfl
    rw [isRaw_of_bytes hs h₀ hm he hr₀ hmember htype₀] at hraw
    cases hraw
  have htyped := h₀.typed r₀ (Schema.mem_attributes.2 ⟨_, hr₀⟩)
  have hno : Value.isByte (.text type) = false := by simpa [Value.isByte] using hbyte
  simp only [Schema.linksType, htype₀, Option.any_some, hno, Bool.false_eq_true, if_false,
    Bool.and_eq_true, Bool.or_eq_true, Bool.not_eq_true'] at htyped
  obtain ⟨hdeclared, hplace⟩ := htyped
  have hnames : type ∈ s₀.names := by
    obtain ⟨d, hd⟩ := Option.isSome_iff_exists.1 hdeclared
    exact Schema.mem_names_of_get? hd
  have hidden : isHidden type = false := by
    refine hplace.elim id fun hinline => ?_
    have hshown := isShown_of_model hm he
    rw [Schema.isShown_congr hs] at hshown
    simpa [Schema.isShown, hr₀, hinline, htype₀] using hshown
  refine ⟨type, hnames, hidden, by rw [Schema.attributeAt, hr₀, Option.getD_some, htype₀], ?_⟩
  have hclass := hmember.className
  rw [htype, Option.getD_some, Schema.className_settled] at hclass
  rw [← Schema.classOf_congr hs]
  exact Schema.classOf_of_attribute (h₀.not_sort hnames) htype hclass

omit hs in
/-- The structure behind the base class is declared, and the class is its own. -/
theorem findBase_class {layout : List Value} {base : Option String} {className : String}
    (h : findBase s layout = .ok (base, some className)) :
    ∃ b d, base = some b ∧ s.need b = .ok d ∧ s.className b d = .ok className := by
  induction layout with
  | nil => simp [findBase] at h
  | cons v layout ih =>
    rw [findBase] at h
    obtain ⟨inline, -, h⟩ := bind_eq_ok.1 h
    cases inline with
    | false => exact ih (by simpa using h)
    | true =>
      obtain ⟨type, -, h⟩ := bind_eq_ok.1 h
      by_cases hidden : isHidden type = true
      · exact ih (by simpa [hidden] using h)
      · rw [if_neg hidden] at h
        obtain ⟨d, hd, h⟩ := bind_eq_ok.1 h
        obtain ⟨own, hown, h⟩ := bind_eq_ok.1 h
        obtain ⟨typeName, rfl⟩ := Schema.text_of_className hown
        obtain ⟨rfl, rfl⟩ : some typeName = base ∧ own = className := by simpa using h
        exact ⟨typeName, d, rfl, hd, hown⟩

theorem baseClass_eq (hm : modelOf t s name = .ok m) {className : String}
    (hb : m.baseClass = some className) : ∃ b, m.base = some b ∧ className = s₀.classOf b := by
  obtain ⟨own, f, comments, d', -, hframe, -, hfinish⟩ := passes_of_modelOf hm
  obtain ⟨-, -, -, hfound⟩ := frameOf_eq_ok hframe
  obtain ⟨layout, -, hfound⟩ := bind_eq_ok.1 hfound
  obtain ⟨constructors, -, rfl⟩ := return_eq_ok.1 hfinish
  rw [show f.baseClass = some className from hb] at hfound
  obtain ⟨b, d, hbase, hd, hclass⟩ := findBase_class hfound
  refine ⟨b, hbase, ?_⟩
  rw [Schema.classOf_of_declared hd hclass]
  exact Schema.classOf_congr ((s.settled_setFact name _).trans hs) b

/-- The base class is the class of an entry. -/
theorem entry_of_base (h₀ : s₀.Linked) (hm : modelOf t s name = .ok m) {className : String}
    (hb : m.baseClass = some className) :
    ∃ e ∈ m.entries, e.kind.isRaw = false ∧ e.className = className := by
  obtain ⟨b, hbase, rfl⟩ := baseClass_eq hs hm hb
  obtain ⟨site, hsite, hin, hidden⟩ := base_of_model hm hbase
  have hmet : site ∈ s.met s.depthLimit name := by
    rw [Schema.depthLimit, Schema.met_succ]
    exact List.mem_flatMap.2 ⟨site, hsite, List.mem_cons_self⟩
  have hshown : s.isShown site = true := by rw [Schema.inlined?_isShown hin, hidden]; rfl
  obtain ⟨e, he, rfl⟩ := exists_entry_of_shown hm hmet hshown
  obtain ⟨r₀, hr₀, hmember⟩ := exists_attribute_of_entry hs hm he
  rw [Schema.inlined?_congr hs, Schema.inlined?, hr₀, Option.bind_some] at hin
  obtain ⟨hinline, hin⟩ := Option.ite_none_right_eq_some.1 hin
  obtain ⟨layout, -, hkind⟩ := hmember.kind
  have hraw := Value.isRaw_of_kind hkind
  rw [if_pos (by simp [hinline])] at hraw
  obtain ⟨type, -, -, htype, hclass⟩ := class_of_entry hs h₀ hm he hraw
  rw [Schema.attributeAt, hr₀, Option.getD_some] at htype
  obtain rfl : type = b := by simpa [htype, Value.text?] using hin
  exact ⟨e, he, hraw, hclass⟩

end ClassModel

namespace Schema
variable {s₀ s : Schema} (h₀ : s₀.Linked) {site : Site}
include h₀

/-- An enumerated attribute that is no constant shows in the classes that meet it. -/
theorem Linked.isShown_of_enumerated (henum : s₀.isEnumerated site = true)
    (hconst : (s₀.attributeAt site).isConst = false)
    (hspelled : (s₀.attributeAt site).isSpelled = true) : s₀.isShown site = true := by
  obtain ⟨type, htype, hsort⟩ := (Option.any_eq_true _ _).1 henum
  obtain ⟨r, hr, htype⟩ : ∃ r, s₀.attributeAt? site = some r ∧ r.get? "type" = some type := by
    unfold attributeAt at htype
    cases hr : s₀.attributeAt? site with
    | none => simp [hr, Record.get?] at htype
    | some r => exact ⟨r, rfl, by simpa [hr] using htype⟩
  rw [attributeAt, hr, Option.getD_some] at hconst hspelled
  rw [isShown, hr, Option.any_some]
  cases hinline : r.isInline with
  | true =>
    obtain ⟨name, d, rfl, hd, -⟩ := exists_of_isSort hsort
    have hidden : isHidden name = false := by
      rw [Bool.eq_false_iff]
      intro hidden
      have hstruct := h₀.hidden name (mem_names_of_get? hd) hidden
      rw [isSort_of_ne hsort (by decide)] at hstruct
      cases hstruct
    simp [htype, hidden]
  | false =>
    simp only [Record.isSpelled, Bool.and_eq_true] at hspelled
    cases hd : r.get? "disposition" with
    | none => simp [hconst, Record.has, hd]
    | some d =>
      simp only [hd, Option.all_some, List.any_cons, List.any_nil, Bool.or_false] at hspelled
      simp only [Record.isInline, Record.isConst, Record.is, hd, Option.any_some] at hinline hconst
      simp only [hinline, hconst, Bool.false_or, Bool.or_eq_true] at hspelled
      have hplace : (r.isVar || r.isFill) = true := by
        simpa [Record.isVar, Record.isFill, Record.is, hd, or_comm] using hspelled.2
      simp [Record.isConst, Record.is, hd, hconst, hplace]

end Schema

namespace ClassModel
variable {t : Target} {s₀ s : Schema} {name : String} {m : ClassModel}

section
variable (h₀ : s₀.Linked) (hr : s₀.Reached s) (hname : name ∈ s₀.names)
  (hclass : s₀.isClass name = true)
include h₀ hr hname hclass

/-- What the condition of an entry leads to has the name in the condition. -/
theorem name_of_discriminator (hm : modelOf t s name = .ok m) : ∀ e ∈ m.entries,
    ∀ site ∈ e.conditionSite, ∃ source ∈ s₀.met s₀.depthLimit name, ∃ c ∈ s₀.conditionAt? source,
      c ∈ s₀.namesAt site := by
  obtain ⟨own, f, comments, d, -, hframe, hpasses, hfinish⟩ := passes_of_modelOf hm
  obtain ⟨-, rfl, -, -⟩ := frameOf_eq_ok hframe
  obtain ⟨-, -, hentries, -⟩ := finish_eq_ok hfinish
  rw [hentries]
  rw [hr.tour, hr.depthLimit] at hpasses
  refine (forall_passes hname hclass ?_ (reached_setFact hr hname hclass) (fun _ hstop => hstop)
    (by simp) hpasses).2
  intro s₁ before source aggregate e hr₁ hsource h site hsite
  obtain ⟨member, -, h⟩ := bind_eq_ok.1 h
  obtain ⟨r, hrecord, h⟩ := bind_eq_ok.1 h
  obtain ⟨conditionSite, hcondition, h⟩ := bind_eq_ok.1 h
  obtain ⟨parent, -, rfl⟩ := return_eq_ok.1 h
  obtain rfl : conditionSite = some site := hsite
  unfold discriminatorOf at hcondition
  cases hc : r.get? "condition" with
  | none => simp [hc] at hcondition
  | some c =>
    simp only [hc] at hcondition
    have hhas := List.find?_some (Schema.findSite_eq_find? hcondition).symm
    obtain ⟨r₀, hr₀, hc₀⟩ := Schema.condition_congr hr₁.settled (Schema.recordAt_eq_ok.1 hrecord)
    rw [hc] at hc₀
    have htext := h₀.conditional r₀ (Schema.mem_attributes.2 ⟨_, hr₀⟩)
    rw [← hc₀, Option.all_some] at htext
    obtain ⟨cname, rfl⟩ : ∃ cname, c = .text cname := by
      cases c with
      | text cname => exact ⟨cname, rfl⟩
      | _ => cases htext
    refine ⟨source, hsource, cname, ?_, hr₁.namesAt site ?_⟩
    · simp [Schema.conditionAt?, Schema.attributeAt, hr₀, ← hc₀, Value.text?]
    · simp [Schema.namesAt, Record.names, Record.get?_of_is hhas, Value.text?]

/-- An attribute on which an entry depends has an entry itself, and a class. -/
theorem entry_of_discriminator (hm : modelOf t s name = .ok m) {e : Entry} (he : e ∈ m.entries)
    {site : Site} (hsite : e.conditionSite = some site) :
    ∃ e' ∈ m.entries, e'.kind.isRaw = false ∧ e'.site = site := by
  have hmet := discriminator_met hm e he site hsite
  obtain ⟨source, hsource, c, hc, hnames⟩ :=
    name_of_discriminator h₀ hr hname hclass hm e he site hsite
  obtain ⟨henum, hconst, hnoSize, hspelled⟩ :=
    h₀.discriminated name hname hclass source hsource c hc site (hr.met name ▸ hmet) hnames
  have hshown := h₀.isShown_of_enumerated henum hconst hspelled
  rw [← Schema.isShown_congr hr.settled] at hshown
  obtain ⟨e', he', rfl⟩ := exists_entry_of_shown hm hmet hshown
  refine ⟨e', he', ?_, rfl⟩
  obtain ⟨r₀, hr₀, hmember⟩ := exists_attribute_of_entry hr.settled hm he'
  obtain ⟨layout, hlayout, hkind⟩ := hmember.kind
  have hraw := Value.isRaw_of_kind hkind
  split at hraw
  · exact hraw
  rcases hraw with hk | ⟨type, htype, hraw⟩
  · have hkindAt : s₀.kindAt e'.site = .ok e'.kind := by
      rw [← Schema.kindAt_settled, ← hr.settled]
      simp only [Schema.kindAt, hmember.record, ok_bind, ← bind_assoc, hlayout, hkind]
    rw [hkindAt, hk] at hnoSize
    exact absurd rfl hnoSize
  rw [Record.get?_settled _ (by simp) (by simp)] at htype
  have hbyte : type ≠ "byte" := by
    rintro rfl
    simp only [Schema.isEnumerated, Schema.attributeAt, hr₀, Option.getD_some, htype,
      Option.any_some] at henum
    obtain ⟨_, d, hd, hget, -⟩ := Schema.exists_of_isSort henum
    obtain rfl := Value.text.inj hd
    exact h₀.not_sort (Schema.mem_names_of_get? hget) (by simp)
  rcases hraw with ⟨-, hraw⟩ | ⟨hb, -⟩ | ⟨-, size, hsize, hraw⟩
  · exact hraw
  · exact absurd hb hbyte
  · simp only [Schema.attributeAt, hr₀, Option.getD_some, Record.isSpelled, Bool.and_eq_true,
      Option.all_eq_true] at hspelled
    rw [Record.get?_settled _ (by simp) (by simp)] at hsize
    exact hraw (hspelled.1 size hsize)

end

/-- The classes that the text of a class names: its base class, the classes of its entries unless these
are numbers or bytes, and the enumerations in its conditions. -/
inductive Names (s : Schema) (m : ClassModel) : String → Prop where
  | base {className : String} (below : m.baseClass = some className) : Names s m className
  | element {e : Entry} (mem : e ∈ m.entries) (kind : e.kind.isRaw = false) : Names s m e.className
  | condition {e : Entry} {site : Site} {type : Value} {className : String} (mem : e ∈ m.entries)
      (discriminator : e.conditionSite = some site)
      (typed : (s.attributeAt site).need "type" = .ok type)
      (classed : s.className type (s.attributeAt site) = .ok className) : Names s m className

section
variable (h₀ : s₀.Linked) (hr : s₀.Reached s) (hname : name ∈ s₀.names)
  (hclass : s₀.isClass name = true) (hm : modelOf .typescript s name = .ok m)
include h₀ hr hname hclass hm

/-- Whatever a class names is the class of one of its entries. -/
theorem entry_of_names {s' : Schema} (hs' : s'.settled = s₀.settled) {className : String}
    (h : Names s' m className) : ∃ e ∈ m.entries, e.kind.isRaw = false ∧ e.className = className := by
  cases h with
  | base below => exact entry_of_base hr.settled h₀ hm below
  | element mem kind => exact ⟨_, mem, kind, rfl⟩
  | @condition e site type _ mem discriminator typed classed =>
    obtain ⟨e', he', hraw, rfl⟩ := entry_of_discriminator h₀ hr hname hclass hm mem discriminator
    obtain ⟨own, hown, -, htype, hclassOf⟩ := class_of_entry hr.settled h₀ hm he' hraw
    refine ⟨e', he', hraw, ?_⟩
    rw [← Schema.get?_congr hs' _ (by simp) (by simp)] at htype
    obtain rfl : .text own = type := Option.some.inj (htype.symm.trans (Record.need_eq_ok.1 typed))
    rw [Schema.classOf_of_attribute (h₀.not_sort hown) htype classed, hclassOf, Schema.classOf_congr hs']

end
end ClassModel

namespace Schema
variable {s : Schema} {name : String}

theorem isBuiltIn_classOf (s : Schema) (name : String) : Target.isBuiltIn (s.classOf name) = false := by
  have hlast : (s.classOf name).toList.getLast? ∈ [some 'r', some 'o'] := by
    unfold classOf
    split <;> simp
  rw [Bool.eq_false_iff]
  intro hbuilt
  simp only [Target.isBuiltIn, Bool.or_eq_true, beq_iff_eq] at hbuilt
  rcases hbuilt with heq | heq <;> rw [heq] at hlast <;> revert hlast <;> decide

/-- The classes of a schema. -/
def classNames (s : Schema) : List String :=
  (s.names.filter fun name : String => !isHidden name).map s.classOf

theorem mem_classNames {className : String} :
    className ∈ s.classNames ↔ ∃ type ∈ s.names, isHidden type = false ∧ s.classOf type = className := by
  simp [classNames, and_assoc]

theorem filterMap_shown {α : Type} (f : String → α) (names : List String) :
    names.filterMap (fun name : String => if isHidden name then none else some (f name)) =
      (names.filter fun name : String => !isHidden name).map f := by
  induction names with
  | nil => rfl
  | cons name names ih => cases hidden : isHidden name <;> simp [hidden, ih]

variable (h : s.Linked)
include h

theorem Linked.sort_cases (hname : name ∈ s.names) :
    ∃ sort ∈ ["byte", "enum", "struct"], s.isSort sort name = true := by
  obtain ⟨d, hd⟩ := exists_of_mem_names hname
  obtain ⟨r, hr, hsort⟩ := (Option.any_eq_true _ _).1 (h.sorted _ (mem_types_of_get? hd))
  have hof : ∀ sort, r.is "type" (.text sort) = true → s.isSort sort name = true := by
    intro sort hsort
    simp [isSort, Value.text?, hd, hr, hsort]
  simp only [Record.hasOneSort, Bool.or_eq_true, Bool.and_eq_true] at hsort
  rcases hsort with hsort | ⟨hsort | hsort, -⟩
  · exact ⟨"struct", by simp, hof _ hsort⟩
  · exact ⟨"byte", by simp, hof _ hsort⟩
  · exact ⟨"enum", by simp, hof _ hsort⟩

theorem Linked.isTypeName_classOf (hname : name ∈ s.names) :
    Text.isTypeName (s.classOf name) = true := by
  have hnamed := h.named name hname
  unfold classOf
  split
  · exact Text.isTypeName_append hnamed (by decide)
  · exact Text.isTypeName_append hnamed (by decide)

/-- A type that is not hidden gets a file, which is called like its class. -/
theorem Linked.plannedFile?_eq_class {p : String × Value} (hp : p ∈ s.types) (t : Target) :
    plannedFile? t p = if isHidden p.1 then none else some (s.classOf p.1 ++ t.extension) := by
  have hname : p.1 ∈ s.names := List.mem_map_of_mem hp
  obtain ⟨sort, hsorts, hsort⟩ := h.sort_cases hname
  have hneed := need_of_isSort hsort
  rw [plannedFile?_eq hneed (get?_of_mem h.distinct hp), classOf_eq hneed]
  cases hidden : isHidden p.1 with
  | true =>
    have hstruct := need_of_isSort (h.hidden p.1 hname hidden)
    obtain rfl := Value.text.inj (Except.ok.inj (hstruct.symm.trans hneed))
    simp [fileSuffix?, hidden, Value.isByte, Value.isEnum]
  | false =>
    simp only [List.mem_cons, List.not_mem_nil, or_false] at hsorts
    rcases hsorts with rfl | rfl | rfl <;>
      simp [fileSuffix?, hidden, Value.isByte, Value.isEnum, Value.isStruct]

theorem Linked.filePlan_eq (t : Target) :
    s.filePlan t = (s.classNames ++ t.supportFiles).map (· ++ t.extension) := by
  have hplanned : s.types.filterMap (plannedFile? t) = s.names.filterMap fun name : String =>
      if isHidden name then none else some (s.classOf name ++ t.extension) := by
    rw [names, List.filterMap_map]
    exact List.filterMap_congr fun p hp => h.plannedFile?_eq_class hp t
  rw [filePlan, hplanned, filterMap_shown, classNames, List.map_append, List.map_map]
  rfl

end Schema

namespace ClassModel
variable {s₀ s : Schema} {name : String} {m : ClassModel} (h₀ : s₀.Linked) (hr : s₀.Reached s)
  (hm : modelOf .typescript s name = .ok m)
include h₀ hr hm

/-- The imports of a class are the classes of its entries in turn. -/
theorem imports_eq_of_linked : m.imports = ((m.entries.filter (!·.kind.isRaw)).map (·.className)).foldl
    (Target.scriptImports m.className m.baseClass) [] := by
  refine imports_eq_classes hm fun e he hraw => ?_
  obtain ⟨type, hnames, -, htype, hclass⟩ := class_of_entry hr.settled h₀ hm he hraw
  refine ⟨hclass ▸ h₀.isTypeName_classOf hnames, ?_⟩
  have hbyte : type ≠ "byte" := by
    rintro rfl
    exact h₀.not_sort hnames (by simp)
  rw [← Schema.get?_congr hr.settled _ (by simp) (by simp)] at htype
  simpa [Record.is, htype] using hbyte

/-- A class imports nothing but classes of types that are not hidden, and the helper for embedded
transactions. -/
theorem of_mem_imports {i : String} (hi : i ∈ m.imports) :
    i = "EmbeddedTransactionHelper" ∨ i ∈ s₀.classNames := by
  rw [imports_eq_of_linked h₀ hr hm] at hi
  rcases Target.of_mem_foldl_scriptImports hi with hmem | hmem | rfl
  · cases hmem
  · obtain ⟨e, he, rfl⟩ := List.mem_map.1 hmem
    obtain ⟨he, hraw⟩ := List.mem_filter.1 he
    obtain ⟨type, hnames, hidden, -, hclass⟩ :=
      class_of_entry hr.settled h₀ hm he (by simpa using hraw)
    exact .inr (Schema.mem_classNames.2 ⟨type, hnames, hidden, hclass.symm⟩)
  · exact .inl rfl

/-- A class imports, or is, each class that it names. -/
theorem mem_imports_of_names (hname : name ∈ s₀.names) (hclass : s₀.isClass name = true) {s' : Schema}
    (hs' : s'.settled = s₀.settled) {className : String} (h : m.Names s' className) :
    className ∈ m.imports ∨ className = m.className := by
  obtain ⟨e, he, hraw, rfl⟩ := entry_of_names h₀ hr hname hclass hm hs' h
  obtain ⟨type, hnames, -, -, hown⟩ := class_of_entry hr.settled h₀ hm he hraw
  rw [imports_eq_of_linked h₀ hr hm]
  refine Target.mem_foldl_scriptImports ?_ ?_ ?_
  · exact List.mem_map.2 ⟨e, List.mem_filter.2 ⟨he, by simp [hraw]⟩, rfl⟩
  · rw [hown, Schema.isBuiltIn_classOf]
  · rw [hown]
    exact Target.startsCapital_of_isTypeName (h₀.isTypeName_classOf hnames)

end ClassModel
end SchemaForge
