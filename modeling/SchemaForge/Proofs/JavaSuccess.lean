import SchemaForge.Proofs.TypeScriptSuccess

/-! The Java files of a well formed schema. Java has whole numbers of one, two, four and eight bytes, and
a file can be written if all numbers in it have one of these widths. Not all tables go so far: values of
flags are widened from one or two bytes only. -/
namespace SchemaForge
open Checked

/-- The size of a whole number in Java. -/
def Value.IsWhole (size : Value) : Prop := ∃ n ∈ ([1, 2, 4, 8] : List Int), size.number? = some n

theorem Target.succeeds_sized {table : List (Int × String)} {size : Value} :
    Succeeds (sized table size) ↔ ∃ n ∈ table.map (·.1), size.number? = some n := by
  have hfound : Succeeds (sized table size) ↔
      ∃ n, size.number? = some n ∧ (table.lookup n).isSome = true := by
    cases size <;> simp [sized, Value.asKey, Value.isKey, Value.number?]
  rw [hfound]
  constructor
  · rintro ⟨n, hn, hsome⟩
    obtain ⟨p, hp, hkey⟩ := List.lookup_isSome_iff.1 hsome
    obtain rfl : n = p.1 := by simpa using hkey
    exact ⟨p.1, List.mem_map_of_mem hp, hn⟩
  · rintro ⟨n, hmem, hn⟩
    obtain ⟨p, hp, rfl⟩ := List.mem_map.1 hmem
    exact ⟨p.1, hn, List.lookup_isSome_iff.2 ⟨p, hp, by simp⟩⟩

theorem Target.succeeds_javaNumber {size : Value} : Succeeds (numberType .java size) ↔ size.IsWhole :=
  succeeds_sized

namespace Width
variable {size : Value} {n : Int}

theorem isWide_eq (hn : size.number? = some n) : isWide size = .ok (decide (8 < n)) := by
  simp [isWide, Value.isText_of_number? hn, Value.compared, hn]

theorem succeeds_javaRead (hn : size.number? = some n) :
    Succeeds (javaRead size) ↔ 8 < n ∨ n ∈ ([1, 2, 4, 8] : List Int) := by
  rw [javaRead, isWide_eq hn]
  by_cases hwide : 8 < n <;> simp [hwide, Target.succeeds_sized, hn]

theorem succeeds_javaReverse (hn : size.number? = some n) :
    Succeeds (javaReverse size) ↔ 8 < n ∨ n ∈ ([1, 2, 4, 8] : List Int) := by
  rw [javaReverse, isWide_eq hn]
  by_cases hwide : 8 < n
  · simp [hwide]
  by_cases hone : n = 1 <;> simp [hwide, hone, Target.succeeds_sized, hn, eq_comm]

theorem succeeds_javaWrite (hn : size.number? = some n) :
    Succeeds (javaWrite size) ↔ 8 < n ∨ n ∈ ([0, 1, 2, 4, 8] : List Int) := by
  rw [javaWrite, isWide_eq hn]
  by_cases hwide : 8 < n <;> simp [hwide, Target.succeeds_sized, hn]

theorem succeeds_javaLoad (hn : size.number? = some n) :
    Succeeds (javaLoad size) ↔ 8 < n ∨ n ∈ ([1, 2, 4, 8] : List Int) := by
  simp only [javaLoad, succeeds_bind, succeeds_javaReverse hn, succeeds_javaRead hn, pure_eq_ok,
    succeeds_ok, implies_true, and_true]
  exact ⟨fun h => h.1, fun h => ⟨h, fun _ _ => h⟩⟩

theorem succeeds_javaUnsigned (hn : size.number? = some n) :
    Succeeds (javaUnsigned size) ↔ n ∈ ([1, 2] : List Int) := by
  simp [javaUnsigned, Target.succeeds_sized, hn, eq_comm]

/-- A whole number can be read and written. -/
theorem succeeds_of_whole (h : size.IsWhole) :
    Succeeds (javaLoad size) ∧ Succeeds (javaWrite size) ∧ Succeeds (javaReverse size) := by
  obtain ⟨n, hmem, hn⟩ := h
  refine ⟨(succeeds_javaLoad hn).2 (.inr hmem), (succeeds_javaWrite hn).2 (.inr ?_),
    (succeeds_javaReverse hn).2 (.inr hmem)⟩
  exact List.mem_cons_of_mem _ hmem

end Width

theorem Value.number?_of_beq {v w : Value} (h : (v == w) = true) : v.number? = w.number? := by
  cases v <;> cases w <;> simp_all [BEq.beq, same, number?]

namespace JavaClass
open Source ClassModel
variable {s₀ s : Schema} {name : String} {e : Entry}

theorem succeeds_writeNumber {size : Value} {value : Checked String} :
    Succeeds (writeNumber size value) ↔
      Succeeds (Width.javaWrite size) ∧ Succeeds (Width.javaReverse size) ∧ Succeeds value := by
  cases hmethod : Width.javaWrite size <;> cases hreverse : Width.javaReverse size <;>
    simp [writeNumber, hmethod, hreverse]

section
variable (h₀ : s₀.WellFormed) (hs : s₀.Complete s) (h : Apt s₀ name e)
include h₀ hs h

theorem succeeds_condition (hc : e.isConditional = true) : Succeeds (condition s e) :=
  succeeds_conditionOf h₀ hs.reached h hc .java ""

theorem succeeds_getter : Succeeds (getter s e) := by
  unfold getter
  by_cases hc : (e.isConditional && !e.isInline) = true
  · have hconditional : e.isConditional = true := by simp_all
    obtain ⟨test, discriminator, asked, value, hguard, hcondition, hasked, hvalue⟩ :=
      exists_guard h₀ hs.reached h hconditional .java ""
    have htest : condition s e = .ok test := hguard
    simp [hc, htest, hcondition, hasked, hvalue]
  · simp [hc]

/-- Attributes can be read from the stream if numbers can. -/
theorem succeeds_load
    (hwhole : e.kind = .simple ∨ e.kind = .sizeField ∨ e.kind = .flags → e.size.IsWhole) :
    Succeeds (load s e) := by
  have hload : e.kind = .simple ∨ e.kind = .sizeField ∨ e.kind = .flags →
      Succeeds (Width.javaLoad e.size) :=
    fun hk => (Width.succeeds_of_whole (hwhole hk)).1
  unfold load
  cases hk : e.kind with
  | custom =>
    by_cases hearly : (e.isConditional && e.readBefore) = true
    · obtain ⟨-, c, -, -, hcondition, -⟩ := h.condition h₀ hs.reached (Bool.and_eq_true_iff.1 hearly).1
      simp [hearly, hcondition]
    · simp [hearly]
  | simple | sizeField | flags => simp [hload, hk]
  | _ => simp

theorem succeeds_serialize (hname : name ∈ s₀.names) (hclass : s₀.isClass name = true) (m : ClassModel)
    (hwhole : e.kind = .simple ∨ e.kind = .sizeField → e.size.IsWhole) :
    Succeeds (serialize s m e) ↔ (e.kind = .flags → e.size.IsWhole) := by
  have hwrite : e.size.IsWhole → ∀ value, Succeeds value → Succeeds (writeNumber e.size value) :=
    fun hsize value hvalue =>
      have ⟨_, hmethod, hreverse⟩ := Width.succeeds_of_whole hsize
      succeeds_writeNumber.2 ⟨hmethod, hreverse, hvalue⟩
  unfold serialize
  cases hk : e.kind with
  | simple =>
    have hnumber := hwrite (hwhole (.inl hk))
    simp [hnumber]
  | sizeField =>
    obtain ⟨array, own, hcounted, hown⟩ := exists_counted h₀ hs hname hclass h hk
    have hcount : Succeeds (writeCount s e) := by
      simp only [writeCount, hcounted, ok_bind]
      refine hwrite (hwhole (.inr hk)) _ ?_
      simp [countedGetter, hcounted, hown]
    simp [hcount]
  | flags =>
    simp only [succeeds_bind, pure_eq_ok, succeeds_ok, implies_true, and_true, true_implies]
    constructor
    · intro hflags
      obtain ⟨-, -, hvalue⟩ := succeeds_writeNumber.1 hflags
      exact Target.succeeds_javaNumber.1 (succeeds_bind.1 hvalue).1
    · intro hsize
      refine hwrite hsize _ ?_
      simp [Target.succeeds_javaNumber, hsize]
  | _ => simp

end

section
variable (h₀ : s₀.WellFormed) (hs : s₀.Complete s) {m : ClassModel} (h : m.Fitted s₀)
include h₀ hs h

/-- What decides early attributes can be read if these attributes have the sizes of numbers. -/
theorem succeeds_upFront :
    Succeeds (upFront s m) ↔ ∀ e ∈ m.own, e.readBefore = true → e.size.IsWhole := by
  obtain ⟨reads, hreads⟩ := succeeds_conditionReads h₀ hs.reached h.apt_own
  have hcollects := collects_conditionReads hreads
  have hread : ∀ p : Value × Value, Succeeds (do
      let type ← Target.numberType .java p.2
      return s!"final {type} {p.1.spell}Condition = {← Width.javaLoad p.2};") ↔ p.2.IsWhole := by
    intro p
    simp only [succeeds_bind, Target.succeeds_javaNumber, pure_eq_ok, succeeds_ok, implies_true,
      and_true]
    exact ⟨fun hp => hp.1, fun hp => ⟨hp, fun _ _ => (Width.succeeds_of_whole hp).1⟩⟩
  have hall : Succeeds (upFront s m) ↔ ∀ p ∈ reads, p.2.IsWhole := by
    rw [upFront, hreads, ok_bind, succeeds_mapM]
    exact forall₂_congr fun p _ => hread p
  rw [hall]
  constructor
  · intro hwhole e he hearly
    have hisEarly : e.isEarly = true := by simp [Entry.isEarly, hearly, (h.apt_own e he).early hearly]
    obtain ⟨p, hp, c, -, hsame⟩ := hcollects.covers e he hisEarly
    obtain ⟨n, hmem, hn⟩ := hwhole p hp
    exact ⟨n, hmem, (Value.number?_of_beq (Bool.and_eq_true_iff.1 hsame).2).trans hn⟩
  · intro hwhole p hp
    obtain ⟨e, he, hearly, -, hsize⟩ := hcollects.occurs p hp
    rw [← hsize]
    exact hwhole e he (Bool.and_eq_true_iff.1 hearly).1

theorem succeeds_constructor : Succeeds (constructor s m) := by
  have hparts : ∀ code : Entry → Checked String, (∀ e, Succeeds (code e)) →
      Succeeds (parts (condition s) code m.constructorParams) := by
    intro code hcode
    refine (succeeds_parts fun e he hc => ?_).2 fun e _ => hcode e
    exact succeeds_condition h₀ hs (h.parameters e (List.mem_filter.1 he).1) hc
  simp [constructor, hparts]

theorem succeeds_factory {choice : List Entry} (hchoice : choice ∈ m.constructors) :
    Succeeds (factory s m choice) := by
  have hapt := h.constructors choice hchoice
  obtain ⟨suffix, hsuffix⟩ := succeeds_factorySuffix hapt
  simp only [factory, hsuffix, ok_bind, succeeds_bind, succeeds_mapM, pure_eq_ok, succeeds_ok,
    implies_true, and_true]
  intro e he
  obtain ⟨type, className, value, htype, hclass, hvalue⟩ := exists_fixed h₀ hs.reached hapt he
  simp [htype, hclass, hvalue]

theorem succeeds_ownParts {code : Entry → Checked String} :
    Succeeds (parts (condition s) code m.own) ↔ ∀ e ∈ m.own, Succeeds (code e) :=
  succeeds_parts fun e he hc => succeeds_condition h₀ hs (h.apt_own e he) hc

theorem succeeds_sizeMethod : Succeeds (sizeMethod s m) := by
  have hparts : Succeeds (sizeParts s m) := (succeeds_ownParts h₀ hs h).2 fun e _ => succeeds_ok _
  simp [sizeMethod, hparts]

theorem succeeds_streamConstructor : Succeeds (streamConstructor s m) ↔
    (∀ e ∈ m.own, e.readBefore = true → e.size.IsWhole) ∧ ∀ e ∈ m.own, Succeeds (load s e) := by
  have hloads : Succeeds (loadParts s m) ↔ ∀ e ∈ m.own, Succeeds (load s e) :=
    succeeds_readingParts fun e he hc => succeeds_condition h₀ hs (h.apt_own e he) hc
  rw [← hloads, ← succeeds_upFront h₀ hs h]
  cases hreads : upFront s m <;> simp [streamConstructor, hreads]

theorem succeeds_serializeMethod :
    Succeeds (serializeMethod s m) ↔ ∀ e ∈ m.own, Succeeds (serialize s m e) := by
  rw [← succeeds_ownParts h₀ hs h]
  simp [serializeMethod, serializeParts]

/-- The class of a structure can be written exactly if the sets of flags that it holds have the sizes of
whole numbers, and so has what it holds in front of the discriminators. -/
theorem succeeds_source (hname : m.name ∈ s₀.names) (hclass : s₀.isClass m.name = true)
    (hwhole : ∀ e ∈ m.own, e.kind = .simple ∨ e.kind = .sizeField → e.size.IsWhole) :
    Succeeds (source s m) ↔ ∀ e ∈ m.own, e.kind = .flags ∨ e.readBefore = true → e.size.IsWhole := by
  have hconstructor := succeeds_constructor h₀ hs h
  have hfactories : Succeeds (m.constructors.mapM (factory s m)) :=
    succeeds_mapM.2 fun choice hchoice => succeeds_factory h₀ hs h hchoice
  have hgetters : Succeeds ((shown m).mapM (getter s)) :=
    succeeds_mapM.2 fun e he => succeeds_getter h₀ hs (h.entries e (List.mem_filter.1 he).1)
  have hsize := succeeds_sizeMethod h₀ hs h
  have hserialize : Succeeds (serializeMethod s m) ↔ ∀ e ∈ m.own, e.kind = .flags → e.size.IsWhole := by
    rw [succeeds_serializeMethod h₀ hs h]
    exact forall₂_congr fun e he =>
      succeeds_serialize h₀ hs (h.apt_own e he) hname hclass m (hwhole e he)
  have hsource : Succeeds (source s m) ↔
      Succeeds (streamConstructor s m) ∧ Succeeds (serializeMethod s m) := by
    obtain ⟨constructor, hconstructor⟩ := hconstructor
    obtain ⟨factories, hfactories⟩ := hfactories
    obtain ⟨getters, hgetters⟩ := hgetters
    obtain ⟨size, hsize⟩ := hsize
    cases hstream : streamConstructor s m <;>
      simp [source, hstream, hconstructor, hfactories, hgetters, hsize]
  rw [hsource, succeeds_streamConstructor h₀ hs h, hserialize]
  constructor
  · rintro ⟨⟨hearly, -⟩, hflags⟩ e he (hk | hbefore)
    · exact hflags e he hk
    · exact hearly e he hbefore
  · intro hall
    refine ⟨⟨fun e he hbefore => hall e he (.inr hbefore), fun e he => ?_⟩,
      fun e he hk => hall e he (.inl hk)⟩
    refine succeeds_load h₀ hs (h.apt_own e he) ?_
    rintro (hk | hk | hk)
    · exact hwhole e he (.inl hk)
    · exact hwhole e he (.inr hk)
    · exact hall e he (.inl hk)

end

end JavaClass

/-- All numbers in the Java file of a type have widths that the file can be written for. -/
structure Schema.JavaReady (s : Schema) (name : String) : Prop where
  bytes : s.isSort "byte" name = true → ∀ n, s.typeWidth? name = some n →
    8 < n ∨ n ∈ ([1, 2, 4, 8] : List Int)
  enums : s.isSort "enum" name = true → ∀ n, s.typeWidth? name = some n → n ∈ ([1, 2, 4, 8] : List Int)
  /-- The values of flags are widened from one or two bytes. -/
  flags : s.isSort "enum" name = true → Text.endsWith "Flags" name = true →
    ∀ n, s.typeWidth? name = some n → n ∈ ([1, 2] : List Int)
  numbers : s.isClass name = true → ∀ site ∈ s.met s.depthLimit name, s.isTaken site = true →
    ∀ kind, s.kindAt site = .ok kind → kind = .simple ∨ kind = .sizeField →
      ∀ size, s.sizeAt site = .ok size → size.IsWhole
  /-- What a class holds itself: the sets of flags, and what stands before the discriminator on which it
  depends. -/
  held : s.isClass name = true → ∀ m, ClassModel.modelOf .java s name = .ok m →
    ∀ e ∈ m.own, e.kind = .flags ∨ e.readBefore = true → e.size.IsWhole

instance decidableForallSome {α : Type} {x : Option α} {p : α → Prop} [∀ a, Decidable (p a)] :
    Decidable (∀ a, x = some a → p a) :=
  inferInstanceAs (Decidable (∀ a ∈ x, p a))

instance (size : Value) : Decidable size.IsWhole :=
  inferInstanceAs (Decidable (∃ n ∈ ([1, 2, 4, 8] : List Int), size.number? = some n))

set_option synthInstance.maxSize 256 in
instance (s : Schema) (name : String) : Decidable (s.JavaReady name) :=
  decidable_of_iff (_ ∧ _ ∧ _ ∧ _ ∧ _)
    ⟨fun ⟨bytes, enums, flags, numbers, held⟩ => ⟨bytes, enums, flags, numbers, held⟩,
      fun h => ⟨h.bytes, h.enums, h.flags, h.numbers, h.held⟩⟩

theorem Schema.JavaReady.plannable {s : Schema} {name : String} (h : s.JavaReady name) :
    s.Plannable .java name where
  bytes hsort n hn hle size hsize := by
    refine Target.succeeds_javaNumber.2 ⟨n, (h.bytes hsort n hn).resolve_left (by omega), hsize⟩
  enums hsort n hn size hsize := Target.succeeds_javaNumber.2 ⟨n, h.enums hsort n hn, hsize⟩
  classes hclass site hsite htaken kind size hkind hsize hnumber :=
    Target.succeeds_javaNumber.2 (h.numbers hclass site hsite htaken kind hkind hnumber size hsize)

section
variable {s : Schema} {name : String}

theorem Schema.javaReady_of_byte (h : s.isSort "byte" name = true) : s.JavaReady name ↔
    ∀ n, s.typeWidth? name = some n → 8 < n ∨ n ∈ ([1, 2, 4, 8] : List Int) := by
  have henum : s.isSort "enum" name = false := isSort_of_ne h (by decide)
  have hclass : s.isClass name = false := by
    simp [isClass, isSort_of_ne h (by decide : "byte" ≠ "struct")]
  exact ⟨fun hready => hready.bytes h, fun hbytes => ⟨fun _ => hbytes, by simp [henum], by simp [henum],
    by simp [hclass], by simp [hclass]⟩⟩

theorem Schema.javaReady_of_enum (h : s.isSort "enum" name = true) : s.JavaReady name ↔
    ∀ n, s.typeWidth? name = some n → n ∈ ([1, 2, 4, 8] : List Int) ∧
      (Text.endsWith "Flags" name = true → n ∈ ([1, 2] : List Int)) := by
  have hbyte : s.isSort "byte" name = false := isSort_of_ne h (by decide)
  have hclass : s.isClass name = false := by
    simp [isClass, isSort_of_ne h (by decide : "enum" ≠ "struct")]
  constructor
  · exact fun hready n hn => ⟨hready.enums h n hn, fun hflags => hready.flags h hflags n hn⟩
  · exact fun hn => ⟨by simp [hbyte], fun _ n hw => (hn n hw).1, fun _ hflags n hw => (hn n hw).2 hflags,
      by simp [hclass], by simp [hclass]⟩

theorem Schema.javaReady_of_struct (h : s.isSort "struct" name = true) : s.JavaReady name ↔
    (s.isClass name = true →
      (∀ site ∈ s.met s.depthLimit name, s.isTaken site = true → s.Fits .java site) ∧
      ∀ m, ClassModel.modelOf .java s name = .ok m →
        ∀ e ∈ m.own, e.kind = .flags ∨ e.readBefore = true → e.size.IsWhole) := by
  have hbyte : s.isSort "byte" name = false := isSort_of_ne h (by decide)
  have henum : s.isSort "enum" name = false := isSort_of_ne h (by decide)
  simp only [Fits, Target.succeeds_javaNumber]
  constructor
  · exact fun hready hclass => ⟨fun site hsite htaken kind size hkind hsize hnumber =>
      hready.numbers hclass site hsite htaken kind hkind hnumber size hsize, hready.held hclass⟩
  · exact fun hclass => ⟨by simp [hbyte], by simp [henum], by simp [henum],
      fun hc site hsite htaken kind hkind hnumber size hsize =>
        (hclass hc).1 site hsite htaken kind size hkind hsize hnumber, fun hc => (hclass hc).2⟩

end

theorem AtomSource.succeeds_java {m : AtomModel} {n : Int} (hn : m.size.number? = some n)
    (hbuffer : m.kind = .buffer → 8 < n) :
    Succeeds (java m) ↔ 8 < n ∨ n ∈ ([1, 2, 4, 8] : List Int) := by
  by_cases hk : m.kind = .buffer
  · simp [java, hk, hbuffer hk]
  · have hload := Width.succeeds_javaLoad hn
    constructor
    · intro h
      simp only [java, if_neg hk, succeeds_bind] at h
      exact hload.1 h.1
    · intro h
      have hwrite : Succeeds (Width.javaWrite m.size) :=
        (Width.succeeds_javaWrite hn).2 (h.imp_right (List.mem_cons_of_mem _))
      simp [java, hk, hload.2 h, hwrite, (Width.succeeds_javaReverse hn).2 h]

theorem EnumSource.succeeds_java {m : EnumModel} {n : Int} (hn : m.size.number? = some n)
    (hmem : n ∈ ([1, 2, 4, 8] : List Int)) :
    Succeeds (java m) ↔ (m.isFlags = true → n ∈ ([1, 2] : List Int)) := by
  obtain ⟨⟨load, hload⟩, ⟨write, hwrite⟩, reverse, hreverse⟩ := Width.succeeds_of_whole ⟨n, hmem, hn⟩
  have hunsigned := Width.succeeds_javaUnsigned hn
  cases hflags : m.isFlags with
  | false => simp [java, hflags, hload, hwrite, hreverse]
  | true =>
    rw [← hunsigned]
    cases hu : Width.javaUnsigned m.size <;> simp [java, hflags, hu, hload, hwrite, hreverse]

section
variable {s₀ s : Schema} (h₀ : s₀.WellFormed) (hs : s₀.Complete s)
include h₀ hs

theorem JavaSupport.succeeds_source {name : String} (h : name ∈ Target.supportFiles .java) :
    Succeeds (Support.source .java s name) := by
  have hhelper : ∀ base about admits body, Succeeds (helper base about admits body s) := by
    intro base about admits body
    simp [helper, Entity.succeeds_select h₀ hs.reached admits]
  simp only [Target.supportFiles, List.mem_cons, List.not_mem_nil, or_false] at h
  rcases h with rfl | rfl | rfl | rfl | rfl
  · exact succeeds_ok _
  · exact succeeds_ok _
  · exact hhelper ..
  · exact hhelper ..
  · exact succeeds_ok _

/-- What was planned for a type can be written exactly if all widths are right. -/
theorem Plan.Made.succeeds_java {name : String} (hname : name ∈ s₀.names) {plan : Option Plan}
    (h : Made s₀ .java name plan) : (∀ p ∈ plan, Succeeds (p.body .java s)) ↔ s₀.JavaReady name := by
  cases h with
  | @atom _ m reached sort model =>
    obtain ⟨size, n, hwidth, hn, -, hmodel⟩ := AtomModel.build_eq h₀ reached hname sort .java
    obtain ⟨-, rfl, hbuffer, -⟩ := hmodel _ model
    have hbody : Succeeds ((Plan.atom m).body .java s) ↔ _ := AtomSource.succeeds_java hn hbuffer
    rw [Schema.javaReady_of_byte sort]
    simp [hbody, hwidth]
  | @enum m sort model =>
    obtain ⟨size, n, hwidth, hn, hmade, hmodel⟩ := EnumModel.build_eq h₀ sort .java
    obtain ⟨-, rfl, hflags⟩ := hmodel _ model
    obtain ⟨n', hmem, hn'⟩ := Target.succeeds_javaNumber.1 (hmade.1 ⟨m, model⟩)
    obtain rfl := Option.some.inj (hn.symm.trans hn')
    have hbody : Succeeds ((Plan.enum m).body .java s) ↔ _ := EnumSource.succeeds_java hn hmem
    rw [Schema.javaReady_of_enum sort]
    simp only [Option.mem_def, Option.some.injEq, forall_eq', hbody, hflags, hwidth]
    exact ⟨fun h => ⟨hmem, h⟩, fun h => h.2⟩
  | @struct s₁ m reached sort model =>
    obtain ⟨rfl, hfitted⟩ := ClassModel.fitted_of_modelOf h₀ reached hname sort .java model
    have hfits := (ClassModel.succeeds_modelOf h₀ reached hname sort .java).1 ⟨m, model⟩
    have hwhole : ∀ e ∈ m.own, e.kind = .simple ∨ e.kind = .sizeField → e.size.IsWhole := fun e he hk =>
      Target.succeeds_javaNumber.1
        (ClassModel.succeeds_numberType_of_model model e (List.mem_filter.1 he).1 hk)
    have hbody : Succeeds ((Plan.struct m).body .java s) ↔ _ :=
      JavaClass.succeeds_source h₀ hs hfitted hname sort hwhole
    -- The model as it is made in the schema that nothing has been written into.
    obtain ⟨m₀, hm₀⟩ := (ClassModel.succeeds_modelOf h₀ (.refl s₀) hname sort .java).2 hfits
    have htwins := ClassModel.own_twins (ClassModel.twins_of_settled reached.settled hm₀ model)
    have hown : (∀ e ∈ m.own, e.kind = .flags ∨ e.readBefore = true → e.size.IsWhole) ↔
        ∀ e ∈ m₀.own, e.kind = .flags ∨ e.readBefore = true → e.size.IsWhole :=
      ClassModel.forall_mem_twins htwins fun e e' htwin => by
        rw [htwin.kind, htwin.readBefore, htwin.size]
    rw [Schema.javaReady_of_struct (Schema.isSort_of_isClass sort)]
    simp only [Option.mem_def, Option.some.injEq, forall_eq', hbody, hown, sort, hm₀, Except.ok.injEq,
      forall_const]
    exact ⟨fun hm => ⟨hfits, hm⟩, fun hm => hm.2⟩
  | nothing sort hidden => simp [Schema.javaReady_of_struct sort, Schema.isClass, hidden]

end

/-- A Java run over a well formed schema comes to its end exactly if all widths are right, and then with
a file for every type that is not hidden and with the support files. -/
theorem ClassRun.java_run_ends_iff {s : Schema} (h : s.WellFormed) {notice : Notice}
    (hn : notice ≠ .unnamed) :
    ((drain .java notice s).2.1 = none ↔ ∀ name ∈ s.names, s.JavaReady name) ∧
      ((∀ name ∈ s.names, s.JavaReady name) →
        (drain .java notice s).1.map (·.name) = s.names.filterMap (s.fileOf? .java) ++
          ["BitMaskable.java", "GeneratorUtils.java", "TransactionBuilderHelper.java",
            "EmbeddedTransactionBuilderHelper.java", "Serializer.java"]) := by
  have hends : (drain .java notice s).2.1 = none ↔ ∀ name ∈ s.names, s.JavaReady name := by
    rw [drain_eq_none hn]
    constructor
    · rintro ⟨plans, s', hall, hbodies⟩ name hname
      obtain ⟨hcomplete, typed, htyped, rfl⟩ := Plan.made_all h hall
      obtain ⟨plan, hplan, hmade⟩ := Plan.exists_made htyped hname
      refine (hmade.succeeds_java h hcomplete hname).1 fun p hp => hbodies p (List.mem_append_left _ ?_)
      exact List.mem_filterMap.2 ⟨plan, hplan, hp⟩
    · intro hready
      obtain ⟨plans, hplans⟩ := Plan.succeeds_all h fun name hname => (hready name hname).plannable
      obtain ⟨s', hall⟩ : ∃ s', runOn (Plan.all .java) s = (.ok plans, s') := ⟨_, Prod.ext hplans rfl⟩
      obtain ⟨hcomplete, typed, htyped, rfl⟩ := Plan.made_all h hall
      refine ⟨_, s', hall, fun p hp => ?_⟩
      rcases List.mem_append.1 hp with hp | hp
      · obtain ⟨name, hname, hmade⟩ := Plan.exists_name_of_made htyped hp
        exact (hmade.succeeds_java h hcomplete hname).2 (hready name hname) p rfl
      · obtain ⟨name, hname, rfl⟩ := List.mem_map.1 hp
        exact JavaSupport.succeeds_source h hcomplete hname
  exact ⟨hends, fun hready => names_drain h (hends.2 hready)⟩

/-- Access that may be limited in time, with flags of four bytes. -/
def grantSchema : Schema := ⟨[
  ("AccessFlags", .table [("type", "enum"), ("size", .int 4), ("values", .list [
    .table [("name", "write"), ("value", .int 1)],
    .table [("name", "limited"), ("value", .int 2)]])]),
  ("Timestamp", .table [("type", "byte"), ("size", .int 8)]),
  ("Grant", .table [("type", "struct"), ("layout", .list [
    .table [("name", "access"), ("type", "AccessFlags")],
    .table [("name", "deadline"), ("type", "Timestamp"), ("condition", "access"),
      ("condition_operation", "has"), ("condition_value", "limited")]])])]⟩

theorem grantSchema_wellFormed : grantSchema.WellFormed :=
  .of_nodup (by decide +kernel) (by decide +kernel) (by decide +kernel) (by decide +kernel)
    (by decide +kernel) (by decide +kernel)

theorem ClassModel.leaseSchema_wellFormed : leaseSchema.WellFormed :=
  .of_nodup (by decide +kernel) (by decide +kernel) (by decide +kernel) (by decide +kernel)
    (by decide +kernel) (by decide +kernel)

theorem ClassRun.java_run_ends_iff_lease : ClassModel.leaseSchema.WellFormed ∧
    (drain .java .absent ClassModel.leaseSchema).2.1 = none ∧ grantSchema.WellFormed ∧
    (drain .java .absent grantSchema).2.1 ≠ none := by
  have hlease := (@java_run_ends_iff _ ClassModel.leaseSchema_wellFormed .absent nofun).1
  have hgrant := (@java_run_ends_iff _ grantSchema_wellFormed .absent nofun).1
  refine ⟨ClassModel.leaseSchema_wellFormed, hlease.2 (by decide +kernel), grantSchema_wellFormed, ?_⟩
  intro hends
  have hready := hgrant.1 hends "AccessFlags" (by decide)
  exact absurd hready (by decide +kernel)

end SchemaForge
