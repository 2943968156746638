import SchemaForge.Proofs.Extents

/-! The elements of arrays. A class has to read, to measure and to write them with one padding, and
enumerators with the width that their type declares. -/
namespace SchemaForge
open Source Checked

/-- The size that the type of an attribute declares. -/
def Schema.widthOf? (s : Schema) (e : Entry) : Option Value :=
  ((s.attributeAt e.site).get? "type").bind fun type => type.text?.bind fun name =>
    (s.get? name).bind fun declared => declared.record?.bind (·.get? "size")

theorem Schema.widthOf?_eq {s : Schema} {e : Entry} {type : String} {declared size : Value}
    (ht : (s.attributeAt e.site).get? "type" = some (.text type))
    (hd : s.need type = .ok declared) (hs : declared.need "size" = .ok size) :
    s.widthOf? e = some size := by
  have hget : s.get? type = some declared := by
    rw [need_text] at hd
    cases hg : s.get? type <;> simp_all [Checked.require]
  unfold widthOf?
  rw [ht, Option.bind_some, Value.text?_text, Option.bind_some, hget, Option.bind_some]
  cases declared with
  | table entries => simpa [Value.record?] using Record.need_eq_ok.1 hs
  | _ => simp [Value.need] at hs

namespace Schema
variable {s : Schema} {type : String}

/-- The class of an enumeration has the same name for every user. -/
theorem className_of_enum {sort user : Value} {className : String} (hsort : s.sortOf type = .ok sort)
    (he : sort.isEnum = true) (h : s.className type user = .ok className) :
    className = type ++ "Dto" := by
  unfold Schema.className at h
  obtain ⟨used, -, h⟩ := bind_eq_ok.1 h
  obtain ⟨name, hname, h⟩ := bind_eq_ok.1 h
  obtain rfl : type = name := Except.ok.inj hname
  by_cases hu : (used.isByte || used.isEnum) = true
  · simp only [hu, if_true] at h
    exact (Except.ok.inj h).symm
  simp only [hu, Bool.false_eq_true, if_false] at h
  unfold sortOf at hsort
  obtain ⟨found, hfound, hsort⟩ := bind_eq_ok.1 hsort
  obtain rfl : s.get? type = found := Except.ok.inj hfound
  cases hg : s.get? type with
  | none =>
    simp only [hg] at h
    exact (Except.ok.inj h).symm
  | some declared =>
    simp only [hg] at h hsort
    obtain ⟨declaredSort, hdeclared, h⟩ := bind_eq_ok.1 h
    have hnot : declaredSort.isStruct = false := by
      cases declared with
      | table entries =>
        have hlookup : entries.lookup "type" = some declaredSort := Record.need_eq_ok.1 hdeclared
        obtain rfl : declaredSort = sort := by
          simpa [Value.find, Value.entryIn, hlookup] using hsort
        rw [Value.isEnum] at he
        rw [Value.eq_text_of_beq he]
        decide
      | _ => simp [Value.need] at hdeclared
    simp only [hnot, Bool.false_eq_true, if_false] at h
    exact (Except.ok.inj h).symm

end Schema

namespace EnumSource

/-- How the Java class of an enumeration calls the number of an enumerator. -/
def number : String := "this.value"

/-- Whether the text of a Java class measures, reads and writes an enumerator as so many bytes. -/
def Spans (size : Value) (code : String) : Prop :=
  ∃ n type read method order lines, (n, type, read) ∈ ClassForm.javaNumbers ∧
    (n, method, order) ∈ JavaClass.writers ∧ size.number? = some n ∧ code = text lines ∧
    nest 2 [s!"return {size.spell};"] ⊆ lines ∧
    nest 3 [s!"final {type} streamValue = {read};"] ⊆ lines ∧
    nest 3 [s!"dataOutputStream.{method}({JavaClass.turned number order});"] ⊆ lines

theorem mem_block {line head close : String} {lines : List String} (h : line ∈ indent lines) :
    line ∈ blockWith head close lines := by
  unfold blockWith
  exact List.mem_append_left _ (List.mem_cons_of_mem _ h)

theorem mem_chain {line head : String} {lines : List String} {rest : List (String × List String)}
    (h : line ∈ indent lines) : line ∈ chain ((head, lines) :: rest) := by
  unfold chain
  exact List.mem_append_left _ (List.mem_cons_of_mem _ h)

theorem mem_indent {line : String} {lines : List String} (h : line ∈ lines) :
    moved line ∈ indent lines :=
  List.mem_map_of_mem h

theorem spans_of_members {m : EnumModel} {load write : String} {reverse : String → String}
    {opening members : List String} (ht : Target.numberType .java m.size = .ok m.numberType)
    (hload : Width.javaLoad m.size = .ok load) (hwrite : Width.javaWrite m.size = .ok write)
    (hreverse : Width.javaReverse m.size = .ok reverse)
    (hsizes : block "public int getSize()" [s!"return {m.size.spell};"] ⊆ members)
    (hloads : block s!"public static {m.className} loadFromBinary(final DataInputStream stream)"
      (chain [
        ("try", [s!"final {m.numberType} streamValue = {load};", "return rawValueOf(streamValue);"]),
        ("catch(Exception e)", ["throw GeneratorUtils.getExceptionToPropagate(e);"])]) ⊆ members)
    (hwrites : block "public byte[] serialize()"
      (blockWith "return GeneratorUtils.serialize(dataOutputStream ->" ");"
        [s!"dataOutputStream.{write}(" ++ reverse "this.value" ++ ");"]) ⊆ members) :
    Spans m.size (text (opening ++ indent members ++ [closeBrace])) := by
  obtain ⟨n, hnumber, hsize⟩ := ClassForm.javaNumber_of_sized ht hload
  obtain ⟨n', order, hwriter, hsize', hturned⟩ := JavaClass.writer_of_number ht hwrite hreverse
  obtain rfl : n = n' := Option.some.inj (hsize.symm.trans hsize')
  have hmembers : ∀ line ∈ members, moved line ∈ opening ++ indent members ++ [closeBrace] := by
    intro line hline
    simp [mem_indent hline]
  refine ⟨n, m.numberType, load, write, order, _, hnumber, hwriter, hsize, rfl, ?_, ?_, ?_⟩
  · intro line hline
    obtain rfl := List.mem_singleton.1 hline
    exact hmembers _ (hsizes (mem_block (mem_indent List.mem_cons_self)))
  · intro line hline
    obtain rfl := List.mem_singleton.1 hline
    exact hmembers _ (hloads (mem_block (mem_indent (mem_chain (mem_indent List.mem_cons_self)))))
  · intro line hline
    obtain rfl := List.mem_singleton.1 hline
    have hin := hwrites (mem_block (mem_indent (mem_block (mem_indent List.mem_cons_self))))
    have hline : s!"dataOutputStream.{write}(" ++ reverse "this.value" ++ ");" =
        s!"dataOutputStream.{write}({JavaClass.turned number order});" := by
      rw [hturned]
      rfl
    rw [hline] at hin
    exact hmembers _ hin

theorem spans_of_java {m : EnumModel} {code : String}
    (ht : Target.numberType .java m.size = .ok m.numberType) (h : java m = .ok code) :
    Spans m.size code := by
  unfold java at h
  cases hf : m.isFlags with
  | true =>
    simp only [hf, if_true] at h
    obtain ⟨unsigned, -, h⟩ := bind_eq_ok.1 h
    obtain ⟨getter, -, h⟩ := bind_eq_ok.1 h
    obtain ⟨load, hload, h⟩ := bind_eq_ok.1 h
    obtain ⟨write, hwrite, h⟩ := bind_eq_ok.1 h
    obtain ⟨reverse, hreverse, h⟩ := bind_eq_ok.1 h
    rw [← Except.ok.inj h]
    refine spans_of_members ht hload hwrite hreverse ?_ ?_ ?_ <;> intro line hline <;>
      simp only [List.mem_append, hline, true_or, or_true]
  | false =>
    simp only [hf, Bool.false_eq_true, if_false] at h
    obtain ⟨getter, -, h⟩ := bind_eq_ok.1 h
    obtain ⟨load, hload, h⟩ := bind_eq_ok.1 h
    obtain ⟨write, hwrite, h⟩ := bind_eq_ok.1 h
    obtain ⟨reverse, hreverse, h⟩ := bind_eq_ok.1 h
    rw [← Except.ok.inj h]
    refine spans_of_members ht hload hwrite hreverse ?_ ?_ ?_ <;> intro line hline <;>
      simp only [List.mem_append, hline, true_or, or_true]

end EnumSource
/-- The padding of elements does not depend on the target. -/
theorem alignmentOf_congr {s s' : Schema} (hs : s'.settled = s.settled) {e e' : Entry}
    (h : Entry.Twin e e') : alignmentOf s' e' = alignmentOf s e := by
  have hsite : ∀ site, (s'.attributeAt site).is "type" "EmbeddedTransaction" =
      (s.attributeAt site).is "type" "EmbeddedTransaction" := by
    intro site
    rw [← Record.is_settled _ (by decide) (by decide), ← Schema.attributeAt_settled, hs,
      Schema.attributeAt_settled, Record.is_settled _ (by decide) (by decide)]
  unfold alignmentOf
  simp only [h.site, h.parent, hsite]

namespace JavaClass

/-- Whether the methods of a class read, measure and write the elements of an array with a padding, and
enumerators as the class of their type does it. -/
structure Treats (s : Schema) (ms : Methods) (e : Entry) (padding : Nat) : Prop where
  read : ∃ code, Codes ms.loads e code ∧ Reads e code (.elements padding)
  measured : ∃ code, Codes ms.sizes e code ∧ Measures e code (.elements padding)
  written : ∃ code, Codes ms.writes e code ∧ Writes e code (.elements padding)
  spanned : e.baseType.isEnum = true → ∀ type m code,
    (s.attributeAt e.site).get? "type" = some (.text type) →
    EnumModel.build .java s type = .ok m → EnumSource.java m = .ok code →
    m.className = e.className ∧ ∃ size, s.widthOf? e = some size ∧ EnumSource.Spans size code

/-- The padding of the elements of an array. -/
def paddingOf (s : Schema) (e : Entry) : Nat := if e.kind = .varArray then alignmentOf s e else 0

variable {s : Schema} {m : ClassModel} {ms : Methods} {e : Entry}

theorem taken_of_isArray (h : e.kind.isArray = true) : taken s e = .elements (paddingOf s e) := by
  unfold taken paddingOf
  cases hk : e.kind with
  | array | fillArray | varArray => simp
  | _ => simp [hk, Kind.isArray] at h

theorem put_of_isArray (h : e.kind.isArray = true) : put s e = .elements (paddingOf s e) := by
  unfold put paddingOf
  cases hk : e.kind with
  | array | fillArray | varArray => simp
  | _ => simp [hk, Kind.isArray] at h

end JavaClass

namespace TypeScriptClass

/-- Whether the methods of a class read, measure and write an array as so many bytes. -/
structure Treats (ms : Methods) (e : Entry) (read measured written : Extent) : Prop where
  read : ∃ code, Codes ms.loads e code ∧ Reads e code read
  measured : ∃ code, Codes ms.sizes e code ∧ Measures e code measured
  written : ∃ code, Codes ms.writes e code ∧ Writes e code written

/-- Whether reading, measuring and writing agree on an array, its elements have some padding, and
enumerators have the width that their type declares. -/
def Consistent (s : Schema) (e : Entry) (padding : Nat) : Prop :=
  taken s e = measured s e ∧ measured s e = put s e ∧
    if e.baseType.isEnum then ∃ width : Nat, put s e = .numbers width padding ∧
      (s.widthOf? e).bind Value.number? = some (width : Int)
    else put s e = .elements padding

/-- Arrays of which the elements are not padded, or that fill what is left with objects. Enumerators
have two bytes, whatever their type declares. -/
def IsRegular (s : Schema) (e : Entry) : Prop :=
  if e.baseType.isEnum then
    e.kind = .array ∧ alignmentOf s e = 0 ∧ (s.widthOf? e).bind Value.number? = some 2
  else e.kind = .varArray ∨ alignmentOf s e = 0

instance (s : Schema) : DecidablePred (IsRegular s) := fun e =>
  inferInstanceAs (Decidable (if e.baseType.isEnum then
    e.kind = .array ∧ alignmentOf s e = 0 ∧ (s.widthOf? e).bind Value.number? = some 2
  else e.kind = .varArray ∨ alignmentOf s e = 0))

variable {s : Schema} {e : Entry}

theorem consistent_iff (h : e.kind.isArray = true) :
    Consistent s e (JavaClass.paddingOf s e) ↔ IsRegular s e := by
  unfold Consistent IsRegular taken measured put JavaClass.paddingOf isEnumArray
  by_cases he : e.baseType.isEnum = true
  · cases hk : e.kind with
    | array => simp [he, enumeratorWidth, eq_comm]
    | fillArray | varArray => simp [he]
    | _ => simp [hk, Kind.isArray] at h
  · cases hk : e.kind with
    | array => simp [he, eq_comm]
    | fillArray => simp [he]
    | varArray => simp [he]
    | _ => simp [hk, Kind.isArray] at h

end TypeScriptClass

namespace ClassModel
variable {s : Schema} {t : Target} {name : String} {m : ClassModel}

/-- The elements of an array of enumerators have the class of the enumeration. -/
theorem className_of_enum (hm : modelOf t s name = .ok m) {e : Entry} (he : e ∈ m.entries)
    (henum : e.baseType.isEnum = true) {s' : Schema} (hs : s'.settled = s.settled) {type : String}
    (htype : (s'.attributeAt e.site).get? "type" = some (.text type)) :
    e.className = type ++ "Dto" ∧ ∃ sort, s'.sortOf type = .ok sort ∧ sort.isEnum = true := by
  obtain ⟨f, -, -, -, hdrawn, -, -⟩ := drawn_of_model hm
  obtain ⟨v, -, hdepicts⟩ := exists_depicted (depicts_of_drawn hdrawn) he
  have hmember := hdepicts.member
  rw [← depicts_site hdepicts] at hmember
  have hrecord : ∀ r, s.settled.recordAt e.site = .ok r → r.get? "type" = some (.text type) := by
    intro r hr
    rw [← hs, Schema.recordAt_settled] at hr
    obtain ⟨r', hr', rfl⟩ := map_eq_ok.1 hr
    rw [Record.get?_settled _ (by decide) (by decide), ← htype, Schema.attributeAt,
      Schema.recordAt_eq_ok.1 hr', Option.getD_some]
  obtain ⟨r, hx⟩ := memberFrom_of_memberOf hmember
  have hsort := hx.baseType
  have hclass := hx.className
  rw [hrecord r hx.record, Option.getD_some] at hsort hclass
  refine ⟨Schema.className_of_enum hsort henum hclass, e.baseType, ?_, henum⟩
  rw [← Schema.sortOf_settled, hs]
  exact hsort

theorem java_treats (hm : modelOf .java s name = .ok m) {s' : Schema} (hs : s'.settled = s.settled)
    {ms : Methods} (hms : ClassForm.java.methods s' m = .ok ms) {e : Entry} (he : e ∈ m.own)
    (ha : e.kind.isArray = true) : JavaClass.Treats s' ms e (JavaClass.paddingOf s' e) := by
  obtain ⟨load, size, write, hload, hloads, hsize, hsizes, hwrite, hwrites⟩ :=
    ClassForm.codes_of_methods hms he
  have hfits : JavaClass.Fits m e := JavaClass.fits_of_isArray ha
  refine ⟨⟨load, hloads, ?_⟩, ⟨size, hsizes, ?_⟩, ⟨write, hwrites, ?_⟩, ?_⟩
  · rw [← JavaClass.taken_of_isArray ha]
    exact JavaClass.reads_load hload hfits
  · rw [← JavaClass.put_of_isArray ha]
    exact JavaClass.measures_size hsize ha
  · rw [← JavaClass.put_of_isArray ha]
    exact JavaClass.writes_serialize hwrite hfits
  · intro henum type em code htype hem hcode
    have hmem : e ∈ m.entries := (List.mem_filter.1 he).1
    obtain ⟨hclass, sort, hsort, hsortEnum⟩ := className_of_enum hm hmem henum hs htype
    obtain ⟨declared, hdeclared, hem⟩ := bind_eq_ok.1 hem
    obtain ⟨className, hname, hem⟩ := bind_eq_ok.1 hem
    obtain ⟨width, hwidth, hem⟩ := bind_eq_ok.1 hem
    obtain ⟨numberType, hnumber, hem⟩ := bind_eq_ok.1 hem
    obtain ⟨values, -, hem⟩ := bind_eq_ok.1 hem
    obtain ⟨enumerators, -, hem⟩ := bind_eq_ok.1 hem
    obtain ⟨comments, -, hem⟩ := bind_eq_ok.1 hem
    obtain ⟨added, -, rfl⟩ := return_eq_ok.1 hem
    refine ⟨?_, width, Schema.widthOf?_eq htype hdeclared hwidth, EnumSource.spans_of_java hnumber hcode⟩
    rw [hclass]
    exact Schema.className_of_enum hsort hsortEnum hname

theorem script_treats {s : Schema} {m : ClassModel} {ms : Methods}
    (hms : ClassForm.typescript.methods s m = .ok ms) {e : Entry} (he : e ∈ m.own)
    (ha : e.kind.isArray = true) :
    TypeScriptClass.Treats ms e (TypeScriptClass.taken s e) (TypeScriptClass.measured s e)
      (TypeScriptClass.put s e) := by
  obtain ⟨load, size, write, hload, hloads, hsize, hsizes, hwrite, hwrites⟩ :=
    ClassForm.codes_of_methods hms he
  have hfits : TypeScriptClass.Fits m e := TypeScriptClass.fits_of_isArray ha
  exact {
    read := ⟨load, hloads, TypeScriptClass.reads_load hload hfits.known⟩
    measured := ⟨size, hsizes, TypeScriptClass.measures_size hsize ha⟩
    written := ⟨write, hwrites, TypeScriptClass.writes_serialize hwrite hfits⟩ }

/-- What the Java class and the TypeScript class of a structure do with one of its arrays. -/
def ElementsAlike (s₁ s₂ : Schema) (ms ms' : Methods) (e e' : Entry) : Prop :=
  e.kind.isArray = true → ∃ padding, JavaClass.Treats s₁ ms e padding ∧
    TypeScriptClass.Treats ms' e' (TypeScriptClass.taken s₂ e') (TypeScriptClass.measured s₂ e')
      (TypeScriptClass.put s₂ e') ∧
    (TypeScriptClass.Consistent s₂ e' padding ↔ TypeScriptClass.IsRegular s₂ e')

/-- The Java class of a structure reads, measures and writes the elements of each of its arrays with one
padding, and enumerators with the width that their type declares. The TypeScript class does the same as
the Java class exactly for the regular arrays: elsewhere it pads counted elements only when it measures
and writes them, pads those that fill the rest although the Java class does not, and gives two bytes to
every enumerator. -/
theorem array_elements_alike {s₁ s₂ : Schema} {m' : ClassModel} {code code' : String}
    (hm : modelOf .java s name = .ok m) (hm' : modelOf .typescript s name = .ok m')
    (hs₁ : s₁.settled = s.settled) (hs₂ : s₂.settled = s.settled)
    (hcode : m.source .java s₁ = .ok code) (hcode' : m'.source .typescript s₂ = .ok code') :
    ∃ ms ms', ClassForm.java.Shows m ms code ∧ ClassForm.typescript.Shows m' ms' code' ∧
      List.Forall₂ (ElementsAlike s₁ s₂ ms ms') m.own m'.own := by
  obtain ⟨ms, hms, hshows⟩ := shows_of_source hcode
  obtain ⟨ms', hms', hshows'⟩ := shows_of_source hcode'
  refine ⟨ms, ms', hshows, hshows', ?_⟩
  have htwins := own_twins (twins_of_models hm hm')
  refine (List.forall₂_iff_zip.2 ⟨htwins.length_eq, ?_⟩)
  intro e e' hzip ha
  have htwin := (List.forall₂_iff_zip.1 htwins).2 hzip
  have he := (List.of_mem_zip hzip).1
  have he' := (List.of_mem_zip hzip).2
  have ha' : e'.kind.isArray = true := by rw [htwin.kind, ha]
  have hpadding : JavaClass.paddingOf s₂ e' = JavaClass.paddingOf s₁ e := by
    unfold JavaClass.paddingOf
    rw [htwin.kind, alignmentOf_congr (hs₂.trans hs₁.symm) htwin]
  refine ⟨JavaClass.paddingOf s₁ e, java_treats hm hs₁ hms he ha, script_treats hms' he' ha', ?_⟩
  rw [← hpadding]
  exact TypeScriptClass.consistent_iff ha'

/-- A structure with an array of enumerators and one of embedded transactions. -/
def bundleSchema : Schema := ⟨[
  ("Mode", .table [("type", "enum"), ("size", .int 2), ("values", .list [
    .table [("name", "slow"), ("value", .int 0)], .table [("name", "fast"), ("value", .int 1)]])]),
  ("EmbeddedTransaction", .table [("type", "struct"), ("layout", .list [
    .table [("name", "version"), ("type", "byte"), ("size", .int 1)]])]),
  ("Bundle", .table [("type", "struct"), ("layout", .list [
    .table [("name", "modeCount"), ("type", "byte"), ("size", .int 1)],
    .table [("name", "modes"), ("type", "Mode"), ("size", "modeCount")],
    .table [("name", "payloadSize"), ("type", "byte"), ("size", .int 4)],
    .table [("name", "transactions"), ("type", "EmbeddedTransaction"), ("disposition", "var"),
      ("size", "payloadSize")]])])]⟩

theorem exists_rendered_bundle (t : Target) : ∃ p, rendered t bundleSchema "Bundle" = .ok p := by
  cases t <;> exact exists_ok (by decide +kernel)

theorem array_elements_alike_bundle : ∃ m code m' code' ms ms',
    rendered .java bundleSchema "Bundle" = .ok (m, code) ∧
    rendered .typescript bundleSchema "Bundle" = .ok (m', code') ∧
    ClassForm.java.Shows m ms code ∧ ClassForm.typescript.Shows m' ms' code' ∧
    (m'.own.filter (·.kind.isArray)).map (fun e =>
      (e.name, decide (TypeScriptClass.IsRegular bundleSchema e))) =
      [("modes", true), ("transactions", true)] ∧
    List.Forall₂ (ElementsAlike bundleSchema bundleSchema ms ms') m.own m'.own := by
  obtain ⟨⟨m, code⟩, hp⟩ := exists_rendered_bundle .java
  obtain ⟨⟨m', code'⟩, hp'⟩ := exists_rendered_bundle .typescript
  have harrays : (rendered .typescript bundleSchema "Bundle").toOption.map (fun p =>
      (p.1.own.filter (·.kind.isArray)).map fun e =>
        (e.name, decide (TypeScriptClass.IsRegular bundleSchema e))) =
      some [("modes", true), ("transactions", true)] := by
    decide +kernel
  rw [hp', Checked.toOption_ok, Option.map_some, Option.some.injEq] at harrays
  obtain ⟨hm, hcode⟩ := rendered_eq_ok hp
  obtain ⟨hm', hcode'⟩ := rendered_eq_ok hp'
  obtain ⟨ms, ms', hshows, hshows', halike⟩ := array_elements_alike hm hm' rfl rfl hcode hcode'
  exact ⟨m, code, m', code', ms, ms', hp, hp', hshows, hshows', harrays, halike⟩

end ClassModel

end SchemaForge
