import SchemaForge.Proofs.Closure

/-! The text of a class is a matter of its model and of the attributes at which its entries look. Schemas
that agree on those give the same text, whatever else they say. -/
namespace SchemaForge
open Checked

/-- Two schemas say the same of an attribute, apart from the class that holds it, and give the same class
to its type. -/
structure Schema.AgreeAt (s₁ s₂ : Schema) (site : Site) : Prop where
  read : ∀ key, key ≠ "aggregate_class" →
    (s₁.attributeAt site).get? key = (s₂.attributeAt site).get? key
  classed : ∀ type, (s₁.attributeAt site).need "type" = .ok type →
    s₁.className type (s₁.attributeAt site) = s₂.className type (s₂.attributeAt site)

namespace Schema.AgreeAt
variable {s₁ s₂ : Schema} {site : Site} (h : s₁.AgreeAt s₂ site)
include h

theorem need (key : String) (hkey : key ≠ "aggregate_class") :
    (s₁.attributeAt site).need key = (s₂.attributeAt site).need key := by
  rw [Record.need, Record.need, h.read key hkey]

theorem is (key : String) (hkey : key ≠ "aggregate_class") (value : Value) :
    (s₁.attributeAt site).is key value = (s₂.attributeAt site).is key value := by
  rw [Record.is, Record.is, h.read key hkey]

theorem isVar : (s₁.attributeAt site).isVar = (s₂.attributeAt site).isVar := h.is _ (by decide) _

end Schema.AgreeAt

/-- Two schemas agree wherever the text of an entry looks. -/
def Entry.Agrees (s₁ s₂ : Schema) (e : Entry) : Prop := ∀ site ∈ e.sites, s₁.AgreeAt s₂ site

namespace Entry.Agrees
variable {s₁ s₂ : Schema} {e : Entry} (h : e.Agrees s₁ s₂)
include h

theorem own : s₁.AgreeAt s₂ e.site := h _ (by simp [sites])

theorem parent {site : Site} (hp : e.parent = some site) : s₁.AgreeAt s₂ site :=
  h _ (by simp [sites, hp])

theorem discriminator {site : Site} (hd : e.conditionSite = some site) : s₁.AgreeAt s₂ site :=
  h _ (by simp [sites, hd])

end Entry.Agrees

theorem Checked.bind_congr_ok {α β : Type} {x : Checked α} {f g : α → Checked β}
    (h : ∀ a, x = .ok a → f a = g a) : x >>= f = x >>= g := by
  cases hx : x with
  | error fault => rfl
  | ok a => exact h a hx

namespace Source
open Checked
variable {s₁ s₂ : Schema}

theorem parts_same {c₁ c₂ k₁ k₂ : Entry → Checked String} {entries : List Entry}
    (hc : ∀ e ∈ entries, c₁ e = c₂ e) (hk : ∀ e ∈ entries, k₁ e = k₂ e) :
    parts c₁ k₁ entries = parts c₂ k₂ entries := by
  refine mapM_congr fun e he => ?_
  rw [partOf, partOf, hc e he, hk e he]

section
variable {e : Entry} (h : e.Agrees s₁ s₂)
include h

theorem conditionOf_same (t : Target) (left : Value → Checked String) (tail : String) :
    conditionOf t s₁ left tail e = conditionOf t s₂ left tail e := by
  have hop := h.own.need "condition_operation" (by decide)
  have hcondition := h.own.need "condition" (by decide)
  have hvalue := h.own.need "condition_value" (by decide)
  simp only [conditionOf, hop, hcondition, hvalue]
  cases hd : e.conditionSite with
  | none => rfl
  | some site =>
    have hsite := h.discriminator hd
    simp only [← hsite.need "type" (by decide)]
    refine bind_congr_ok fun op _ => bind_congr_ok fun c _ => bind_congr_ok fun text _ => ?_
    exact bind_congr_ok fun type htype => by rw [hsite.classed type htype]

theorem alignmentOf_same : alignmentOf s₁ e = alignmentOf s₂ e := by
  simp only [alignmentOf, h.own.is "type" (by decide)]
  cases hp : e.parent with
  | none => rfl
  | some site => simp only [Option.any_some, (h.parent hp).is "type" (by decide)]

/-- What is made of the array that a size field counts. -/
theorem counted_same {α : Type} {f g : Record → Checked α}
    (hf : ∀ site, s₁.AgreeAt s₂ site → f (s₁.attributeAt site) = g (s₂.attributeAt site)) :
    counted s₁ e >>= f = counted s₂ e >>= g := by
  unfold counted
  cases hp : e.parent with
  | none => rfl
  | some site => exact hf site (h.parent hp)

/-- The line with which a factory fixes a discriminator. -/
theorem fixed_same {α : Type} (f : String → Checked α) :
    ((s₁.attributeAt e.site).need "type" >>= fun type =>
      s₁.className type (s₁.attributeAt e.site) >>= f) =
    ((s₂.attributeAt e.site).need "type" >>= fun type =>
      s₂.className type (s₂.attributeAt e.site) >>= f) := by
  rw [← h.own.need _ (by decide)]
  exact bind_congr_ok fun type htype => by rw [h.own.classed type htype]

end

theorem conditionReads_same {entries : List Entry} (h : ∀ e ∈ entries, e.Agrees s₁ s₂) :
    conditionReads s₁ entries = conditionReads s₂ entries := by
  unfold conditionReads
  congr 1
  refine mapM_congr fun e he => ?_
  rw [(h e (List.mem_filter.1 he).1).own.need _ (by decide)]

end Source

namespace ClassModel
open Source
variable {s₁ s₂ : Schema}

/-- Two schemas agree wherever the text of a class looks. -/
structure Agrees (s₁ s₂ : Schema) (m : ClassModel) : Prop where
  entries : ∀ e ∈ m.entries, e.Agrees s₁ s₂
  parameters : ∀ e ∈ m.parameters, e.Agrees s₁ s₂
  constructors : ∀ choice ∈ m.constructors, ∀ e ∈ choice, e.Agrees s₁ s₂

variable {m : ClassModel}

theorem Agrees.own (h : m.Agrees s₁ s₂) : ∀ e ∈ m.own, e.Agrees s₁ s₂ :=
  fun e he => h.entries e (List.mem_filter.1 he).1

theorem readingParts_same {c₁ c₂ k₁ k₂ : Entry → Checked String} (hc : ∀ e ∈ m.own, c₁ e = c₂ e)
    (hk : ∀ e ∈ m.own, k₁ e = k₂ e) : m.readingParts c₁ k₁ = m.readingParts c₂ k₂ := by
  have hparts : ∀ p : Entry → Bool,
      Source.parts c₁ k₁ (m.own.filter p) = Source.parts c₂ k₂ (m.own.filter p) := fun p =>
    parts_same (fun e he => hc e (List.mem_filter.1 he).1) fun e he => hk e (List.mem_filter.1 he).1
  rw [readingParts, readingParts, hparts, hparts]

end ClassModel

namespace JavaClass
open Checked Source ClassModel
variable {s₁ s₂ : Schema} {m : ClassModel} {e : Entry}

section
variable (h : e.Agrees s₁ s₂)
include h

theorem condition_same : condition s₁ e = condition s₂ e := conditionOf_same h ..

theorem load_same : load s₁ e = load s₂ e := by
  simp only [load, alignmentOf_same h, h.own.need "condition" (by decide)]

theorem size_same : size s₁ e = size s₂ e := by simp only [size, alignmentOf_same h]

theorem writeCount_same : writeCount s₁ e = writeCount s₂ e := by
  have hgetter : countedGetter s₁ e = countedGetter s₂ e := by
    unfold countedGetter
    exact counted_same h fun site hsite => by rw [hsite.need _ (by decide)]
  unfold writeCount
  refine counted_same h fun site hsite => ?_
  rw [hgetter, hsite.isVar, alignmentOf_same h]

theorem serialize_same (m : ClassModel) : serialize s₁ m e = serialize s₂ m e := by
  simp only [serialize, alignmentOf_same h, writeCount_same h]

theorem getter_same : getter s₁ e = getter s₂ e := by
  simp only [getter, condition_same h, h.own.need "condition" (by decide),
    h.own.need "condition_value" (by decide)]

end

theorem factory_same (m : ClassModel) {choice : List Entry} (h : ∀ e ∈ choice, e.Agrees s₁ s₂) :
    factory s₁ m choice = factory s₂ m choice := by
  unfold factory
  refine bind_congr_ok fun suffix _ => ?_
  congr 1
  refine mapM_congr fun e he => ?_
  exact fixed_same (h e (List.mem_filter.1 he).1) _

variable (h : m.Agrees s₁ s₂)
include h

theorem streamConstructor_same : streamConstructor s₁ m = streamConstructor s₂ m := by
  have hreads : upFront s₁ m = upFront s₂ m := by
    rw [upFront, upFront, conditionReads_same h.own]
  have hloads : loadParts s₁ m = loadParts s₂ m :=
    readingParts_same (fun e he => condition_same (h.own e he)) fun e he => load_same (h.own e he)
  rw [streamConstructor, streamConstructor, hreads, hloads]

theorem constructor_same : constructor s₁ m = constructor s₂ m := by
  have hchecks : ∀ code, parts (condition s₁) code m.constructorParams =
      parts (condition s₂) code m.constructorParams := fun code =>
    parts_same (fun e he => condition_same (h.parameters e (List.mem_filter.1 he).1)) fun _ _ => rfl
  simp only [constructor, hchecks]

theorem sizeMethod_same : sizeMethod s₁ m = sizeMethod s₂ m := by
  have hparts : sizeParts s₁ m = sizeParts s₂ m :=
    parts_same (fun e he => condition_same (h.own e he)) fun e he => size_same (h.own e he)
  rw [sizeMethod, sizeMethod, hparts]

theorem serializeMethod_same : serializeMethod s₁ m = serializeMethod s₂ m := by
  have hparts : serializeParts s₁ m = serializeParts s₂ m :=
    parts_same (fun e he => condition_same (h.own e he)) fun e he => serialize_same (h.own e he) m
  rw [serializeMethod, serializeMethod, hparts]

theorem source_same : source s₁ m = source s₂ m := by
  have hfactories : m.constructors.mapM (factory s₁ m) = m.constructors.mapM (factory s₂ m) :=
    mapM_congr fun choice hchoice => factory_same m (h.constructors choice hchoice)
  have hgetters : (shown m).mapM (getter s₁) = (shown m).mapM (getter s₂) :=
    mapM_congr fun e he => getter_same (h.entries e (List.mem_filter.1 he).1)
  rw [source, source, streamConstructor_same h, constructor_same h, hfactories, hgetters,
    sizeMethod_same h, serializeMethod_same h]

end JavaClass

namespace TypeScriptClass
open Checked Source ClassModel
variable {s₁ s₂ : Schema} {m : ClassModel} {e : Entry}

section
variable (h : e.Agrees s₁ s₂)
include h

theorem condition_same : condition s₁ e = condition s₂ e := conditionOf_same h ..

theorem load_same : load s₁ e = load s₂ e := by
  simp only [load, readLines, alignmentOf_same h, h.own.need "condition" (by decide)]

theorem size_same : size s₁ e = size s₂ e := by simp only [size, alignmentOf_same h]

theorem serialize_same (m : ClassModel) : serialize s₁ m e = serialize s₂ m e := by
  have hcount : countLines s₁ e = countLines s₂ e := by
    unfold countLines
    refine counted_same h fun site hsite => ?_
    simp only [hsite.isVar, hsite.need "name" (by decide), alignmentOf_same h]
  simp only [serialize, writeLines, alignmentOf_same h, hcount]

theorem getter_same : getter s₁ e = getter s₂ e := by
  simp only [getter, condition_same h, h.own.need "condition" (by decide),
    h.own.need "condition_value" (by decide)]

end

theorem factory_same (m : ClassModel) {choice : List Entry} (h : ∀ e ∈ choice, e.Agrees s₁ s₂) :
    factory s₁ m choice = factory s₂ m choice := by
  unfold factory
  refine bind_congr_ok fun suffix _ => ?_
  congr 1
  refine mapM_congr fun e he => ?_
  exact fixed_same (h e (List.mem_filter.1 he).1) _

variable (h : m.Agrees s₁ s₂)
include h

theorem constructor_same : constructor s₁ m = constructor s₂ m := by
  have hchecks : ∀ p code, parts (condition s₁) code (m.constructorParams.filter p) =
      parts (condition s₂) code (m.constructorParams.filter p) := by
    refine fun p code => parts_same (fun e he => condition_same ?_) fun _ _ => rfl
    exact h.parameters e (List.mem_filter.1 (List.mem_filter.1 he).1).1
  simp only [constructor, hchecks]

theorem fromBinary_same : fromBinary s₁ m = fromBinary s₂ m := by
  have hreads : upFront s₁ m = upFront s₂ m := by
    rw [upFront, upFront,
      conditionReads_same fun e he => h.entries e (List.mem_filter.1 he).1]
  have hloads : loadParts s₁ m = loadParts s₂ m :=
    readingParts_same (fun e he => condition_same (h.own e he)) fun e he => load_same (h.own e he)
  rw [fromBinary, fromBinary, hreads, hloads]

theorem sizeMethod_same : sizeMethod s₁ m = sizeMethod s₂ m := by
  have hparts : sizeParts s₁ m = sizeParts s₂ m :=
    parts_same (fun e he => condition_same (h.own e he)) fun e he => size_same (h.own e he)
  rw [sizeMethod, sizeMethod, hparts]

theorem serializeMethod_same : serializeMethod s₁ m = serializeMethod s₂ m := by
  have hparts : serializeParts s₁ m = serializeParts s₂ m :=
    parts_same (fun e he => condition_same (h.own e he)) fun e he => serialize_same (h.own e he) m
  rw [serializeMethod, serializeMethod, hparts]

theorem source_same : source s₁ m = source s₂ m := by
  have hfactories : m.constructors.mapM (factory s₁ m) = m.constructors.mapM (factory s₂ m) :=
    mapM_congr fun choice hchoice => factory_same m (h.constructors choice hchoice)
  have hgetters : (shown m).mapM (getter s₁) = (shown m).mapM (getter s₂) :=
    mapM_congr fun e he => getter_same (h.entries e (List.mem_filter.1 he).1)
  rw [source, source, constructor_same h, fromBinary_same h, hfactories, hgetters, sizeMethod_same h,
    serializeMethod_same h]

end TypeScriptClass

namespace PythonClass
open Checked Source ClassModel
variable {s₁ s₂ : Schema} {m : ClassModel} {e : Entry}

section
variable (h : e.Agrees s₁ s₂)
include h

theorem condition_same (object : String) : condition s₁ object e = condition s₂ object e :=
  conditionOf_same h ..

theorem valueName_same : valueName s₁ e = valueName s₂ e := by
  rw [valueName, valueName, h.own.need "type" (by decide)]

theorem load_same (m : ClassModel) : load s₁ m e = load s₂ m e := by
  simp only [load, h.own.read "condition" (by decide)]

theorem serialize_same (m : ClassModel) : serialize s₁ m e = serialize s₂ m e := by
  have hcounted : ∀ f : Value → Checked String,
      (counted s₁ e >>= fun r => r.need "name" >>= f) =
        counted s₂ e >>= fun r => r.need "name" >>= f := fun f =>
    counted_same h fun site hsite => by rw [hsite.need _ (by decide)]
  simp only [serialize, hcounted]

theorem getter_same : getter s₁ e = getter s₂ e := by
  simp only [getter, condition_same h, h.own.need "condition" (by decide),
    h.own.need "condition_value" (by decide)]

end

variable (h : m.Agrees s₁ s₂)
include h

theorem upFront_same : upFront s₁ m = upFront s₂ m := by
  rw [upFront, upFront, conditionReads_same h.own]

theorem tuples_same : tuples s₁ m = tuples s₂ m := by
  unfold tuples
  dsimp only
  split
  · rfl
  · congr 1
    refine mapM_congr fun e he => ?_
    rw [valueName_same (h.parameters e (List.mem_filter.1 he).1)]

theorem fromBinary_same : fromBinary s₁ m = fromBinary s₂ m := by
  have hloads : loadParts s₁ m = loadParts s₂ m :=
    readingParts_same (fun e he => condition_same (h.own e he) _) fun e he => load_same (h.own e he) m
  rw [fromBinary, fromBinary, upFront_same h, hloads]

theorem source_same : source s₁ m = source s₂ m := by
  have hgetters : (shown m).mapM (getter s₁) = (shown m).mapM (getter s₂) :=
    mapM_congr fun e he => getter_same (h.entries e (List.mem_filter.1 he).1)
  have hsizes : sizeParts s₁ m = sizeParts s₂ m :=
    parts_same (fun e he => condition_same (h.own e he) _) fun _ _ => rfl
  have hserialized : serializeParts s₁ m = serializeParts s₂ m :=
    parts_same (fun e he => condition_same (h.own e he) _) fun e he => serialize_same (h.own e he) m
  rw [source, source, tuples_same h, fromBinary_same h, hgetters, hsizes, hserialized]

end PythonClass

namespace PythonTransaction
open Source ClassModel PythonClass
variable {s₁ s₂ : Schema} {m : ClassModel} {e : Entry}

section
variable (h : e.Agrees s₁ s₂)
include h

theorem condition_same (object : String) : condition s₁ object e = condition s₂ object e :=
  conditionOf_same h ..

theorem initial_same : initial s₁ e = initial s₂ e := by
  simp only [initial, valueName_same h]

theorem load_same (m : ClassModel) : load s₁ m e = load s₂ m e := by
  simp only [load, valueName_same h, h.own.read "condition" (by decide)]

theorem countLines_same (m : ClassModel) : countLines s₁ m e = countLines s₂ m e := by
  unfold countLines
  exact counted_same h fun site hsite => by rw [hsite.need _ (by decide)]

theorem serialize_same (m : ClassModel) : serialize s₁ m e = serialize s₂ m e := by
  simp only [serialize, countLines_same h]

theorem print_same (m : ClassModel) : print s₁ m e = print s₂ m e := by
  simp only [print, countLines_same h]

end

variable (h : m.Agrees s₁ s₂)
include h

theorem constructor_same : constructor s₁ m = constructor s₂ m := by
  have hbody : bodyConstructor s₁ m = bodyConstructor s₂ m := by
    unfold bodyConstructor
    congr 1
    refine mapM_congr fun e he => ?_
    rw [initial_same (h.own e (List.mem_filter.1 he).1)]
  rw [constructor, constructor, hbody]

theorem fromBinary_same : fromBinary s₁ m = fromBinary s₂ m := by
  have hloads : loadParts s₁ m = loadParts s₂ m :=
    readingParts_same (fun e he => condition_same (h.own e he) _) fun e he => load_same (h.own e he) m
  rw [fromBinary, fromBinary, upFront_same h, hloads]

theorem source_same : source s₁ m = source s₂ m := by
  have hsizes : sizeParts s₁ m = sizeParts s₂ m :=
    parts_same (fun e he => condition_same (h.own e he) _) fun _ _ => rfl
  have hserialized : serializeParts s₁ m = serializeParts s₂ m :=
    parts_same (fun e he => condition_same (h.own e he) _) fun e he => serialize_same (h.own e he) m
  have hprinted : printParts s₁ m = printParts s₂ m :=
    parts_same (fun e he => condition_same (h.own e he) _) fun e he => print_same (h.own e he) m
  rw [source, source, constructor_same h, fromBinary_same h, hsizes, hserialized, hprinted]

end PythonTransaction

/-- The text of a class shows nothing of a schema but the attributes at which its entries look. -/
theorem ClassModel.source_same {s₁ s₂ : Schema} {m : ClassModel} (h : m.Agrees s₁ s₂) (t : Target) :
    m.source t s₁ = m.source t s₂ := by
  cases t with
  | java => exact JavaClass.source_same h
  | typescript => exact TypeScriptClass.source_same h
  | python =>
    simp only [source, PythonTransaction.source_same h, PythonClass.source_same h]

end SchemaForge
