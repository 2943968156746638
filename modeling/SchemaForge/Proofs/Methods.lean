import Mathlib.Data.List.Forall2
import SchemaForge.Plan
import SchemaForge.Proofs.Step

/-! Where the text of a class reads, measures and writes the attributes that the class holds. -/
namespace SchemaForge
open Checked

theorem Checked.forall₂_of_mapM {α β : Type} {f : α → Checked β} {l : List α} {bs : List β}
    (h : l.mapM f = .ok bs) : List.Forall₂ (fun a b => f a = .ok b) l bs := by
  induction l generalizing bs with
  | nil =>
    obtain rfl := Except.ok.inj h
    exact .nil
  | cons a l ih =>
    rw [List.mapM_cons] at h
    obtain ⟨b, hb, h⟩ := Checked.bind_eq_ok.1 h
    obtain ⟨bs', hbs, rfl⟩ := Checked.return_eq_ok.1 h
    exact .cons hb (ih hbs)

namespace Source

/-- Whether a part belongs to an entry: it has the code for the entry, under the condition of the entry
exactly when there is one. -/
structure IsPart (condition code : Entry → Checked String) (e : Entry) (p : Part) : Prop where
  entry : p.entry = e
  code : code e = .ok p.code
  guard : if e.isConditional then ∃ test, condition e = .ok test ∧ p.guard = some test
    else p.guard = none

theorem isPart_of_parts {condition code : Entry → Checked String} {entries : List Entry}
    {ps : List Part} (h : parts condition code entries = .ok ps) :
    List.Forall₂ (IsPart condition code) entries ps := by
  apply (Checked.forall₂_of_mapM h).imp
  intro e p hp
  obtain ⟨guard, hguard, hp⟩ := bind_eq_ok.1 hp
  obtain ⟨written, hwritten, rfl⟩ := return_eq_ok.1 hp
  refine ⟨rfl, hwritten, ?_⟩
  by_cases hc : e.isConditional = true
  · simp only [hc, if_true] at hguard ⊢
    obtain ⟨test, htest, hguard⟩ := map_eq_ok.1 hguard
    exact ⟨test, htest, hguard.symm⟩
  · simp only [hc, Bool.false_eq_true, if_false] at hguard ⊢
    exact (Except.ok.inj hguard).symm

theorem isPart_of_readingParts {condition code : Entry → Checked String} {m : ClassModel}
    {ps : List Part} (h : m.readingParts condition code = .ok ps) :
    List.Forall₂ (IsPart condition code)
      (m.own.filter (!·.readBefore) ++ m.own.filter (·.readBefore)) ps := by
  obtain ⟨first, hfirst, h⟩ := bind_eq_ok.1 h
  obtain ⟨last, hlast, rfl⟩ := return_eq_ok.1 h
  exact List.rel_append (isPart_of_parts hfirst) (isPart_of_parts hlast)

/-- Whether some parts have a code for an entry, and no other one. -/
def Codes (ps : List Part) (e : Entry) (code : String) : Prop :=
  (∃ p ∈ ps, p.entry = e) ∧ ∀ p ∈ ps, p.entry = e → p.code = code

theorem codes_of_isPart {condition code : Entry → Checked String} {entries : List Entry}
    {ps : List Part} (h : List.Forall₂ (IsPart condition code) entries ps) {e : Entry}
    (he : e ∈ entries) : ∃ written, code e = .ok written ∧ Codes ps e written := by
  have hfound : ∃ p ∈ ps, IsPart condition code e p := by
    induction h with
    | nil => simp at he
    | @cons e' p es ps hp hps ih =>
      rcases List.mem_cons.1 he with rfl | he
      · exact ⟨p, List.mem_cons_self, hp⟩
      · obtain ⟨q, hq, heq⟩ := ih he
        exact ⟨q, List.mem_cons_of_mem _ hq, heq⟩
  have hall : ∀ p ∈ ps, code p.entry = .ok p.code := by
    clear hfound he
    induction h with
    | nil => simp
    | cons hp _ ih =>
      intro q hq
      rcases List.mem_cons.1 hq with rfl | hq
      · rw [hp.entry]
        exact hp.code
      · exact ih q hq
  obtain ⟨p, hp, hpart⟩ := hfound
  refine ⟨p.code, hpart.code, ⟨p, hp, hpart.entry⟩, ?_⟩
  intro q hq hqe
  have hcode := hall q hq
  rw [hqe, hpart.code] at hcode
  exact (Except.ok.inj hcode).symm

/-- Moves lines to the right by some steps. -/
def nest : Nat → List String → List String
  | 0, lines => lines
  | steps + 1, lines => nest steps (indent lines)

/-- A line that opens a block. -/
def opened (head : String) : String := head ++ " " ++ openBrace

theorem indent_append (a b : List String) : indent (a ++ b) = indent a ++ indent b :=
  List.map_append

/-- A line one step further to the right. -/
def moved (line : String) : String := if line.isEmpty then line else "    " ++ line

theorem indent_nil : indent [] = [] := rfl

theorem indent_cons (line : String) (lines : List String) :
    indent (line :: lines) = moved line :: indent lines := rfl

/-- Whether stretches of lines stand among other lines, one behind the other. -/
def InTurn : List (List String) → List String → Prop
  | [], _ => True
  | stretch :: rest, lines => ∃ before after, lines = before ++ stretch ++ after ∧ InTurn rest after

theorem InTurn.skip {stretches : List (List String)} {lines : List String} (before : List String)
    (h : InTurn stretches lines) : InTurn stretches (before ++ lines) := by
  cases stretches with
  | nil => trivial
  | cons stretch rest =>
    obtain ⟨first, after, rfl, hrest⟩ := h
    exact ⟨before ++ first, after, by simp, hrest⟩

theorem InTurn.take {stretch lines lines' : List String} {rest : List (List String)}
    (hs : stretch <:+: lines) (h : InTurn rest lines') : InTurn (stretch :: rest) (lines ++ lines') := by
  obtain ⟨before, after, rfl⟩ := hs
  exact ⟨before, after ++ lines', by simp, h.skip after⟩

theorem indent_flatMap {α : Type} (l : List α) (lines : α → List String) :
    indent (l.flatMap lines) = l.flatMap fun a => indent (lines a) :=
  List.map_flatMap

end Source

open Source

/-- The forms in which classes are written. Python has a form of its own for transactions. -/
inductive ClassForm where
  | java
  | typescript
  | python
  | transaction
  deriving DecidableEq, Repr

/-- The code in the methods of a class: what is read before the attributes, and a part for each attribute
that is read, measured or written. -/
structure Methods where
  reads : List String
  loads : List Part
  sizes : List Part
  writes : List Part

namespace ClassForm

def of (t : Target) (m : ClassModel) : ClassForm :=
  match t with
  | .java => java
  | .typescript => typescript
  | .python => if Target.isTransactional m.name then transaction else python

/-- The condition of an attribute among the variables that are read. -/
def loadTest : ClassForm → Schema → Entry → Checked String
  | java => JavaClass.condition
  | typescript => TypeScriptClass.condition
  | python => fun s => PythonClass.condition s ""
  | transaction => fun s => PythonTransaction.condition s ""

/-- The condition of an attribute of an object. -/
def heldTest : ClassForm → Schema → Entry → Checked String
  | java => JavaClass.condition
  | typescript => TypeScriptClass.condition
  | python => fun s => PythonClass.condition s "self."
  | transaction => fun s => PythonTransaction.condition s "self."

def upFront : ClassForm → Schema → ClassModel → Checked (List String)
  | java => JavaClass.upFront
  | typescript => TypeScriptClass.upFront
  | python | transaction => PythonClass.upFront

def load : ClassForm → Schema → ClassModel → Entry → Checked String
  | java => fun s _ => JavaClass.load s
  | typescript => fun s _ => TypeScriptClass.load s
  | python => PythonClass.load
  | transaction => PythonTransaction.load

def size : ClassForm → Schema → Entry → Checked String
  | java => JavaClass.size
  | typescript => TypeScriptClass.size
  | python => fun _ => PythonClass.size
  | transaction => fun _ => PythonTransaction.size

def write : ClassForm → Schema → ClassModel → Entry → Checked String
  | java => JavaClass.serialize
  | typescript => TypeScriptClass.serialize
  | python => PythonClass.serialize
  | transaction => PythonTransaction.serialize

def methods (f : ClassForm) (s : Schema) (m : ClassModel) : Checked Methods := do
  let reads ← f.upFront s m
  let loads ← m.readingParts (f.loadTest s) (f.load s m)
  let sizes ← parts (f.heldTest s) (f.size s) m.own
  let writes ← parts (f.heldTest s) (f.write s m) m.own
  return { reads, loads, sizes, writes }

theorem methods_eq_ok {f : ClassForm} {s : Schema} {m : ClassModel} {ms : Methods} :
    f.methods s m = .ok ms ↔ f.upFront s m = .ok ms.reads ∧
      m.readingParts (f.loadTest s) (f.load s m) = .ok ms.loads ∧
      parts (f.heldTest s) (f.size s) m.own = .ok ms.sizes ∧
      parts (f.heldTest s) (f.write s m) m.own = .ok ms.writes := by
  constructor
  · intro h
    obtain ⟨reads, hreads, h⟩ := bind_eq_ok.1 h
    obtain ⟨loads, hloads, h⟩ := bind_eq_ok.1 h
    obtain ⟨sizes, hsizes, h⟩ := bind_eq_ok.1 h
    obtain ⟨writes, hwrites, rfl⟩ := return_eq_ok.1 h
    exact ⟨hreads, hloads, hsizes, hwrites⟩
  · rintro ⟨hreads, hloads, hsizes, hwrites⟩
    simp [methods, hreads, hloads, hsizes, hwrites]

/-- Each own entry has a code in each of the three methods. -/
theorem codes_of_methods {f : ClassForm} {s : Schema} {m : ClassModel} {ms : Methods}
    (h : f.methods s m = .ok ms) {e : Entry} (he : e ∈ m.own) :
    ∃ load size write, f.load s m e = .ok load ∧ Codes ms.loads e load ∧
      f.size s e = .ok size ∧ Codes ms.sizes e size ∧
      f.write s m e = .ok write ∧ Codes ms.writes e write := by
  obtain ⟨-, hloads, hsizes, hwrites⟩ := methods_eq_ok.1 h
  have hread : e ∈ m.own.filter (!·.readBefore) ++ m.own.filter (·.readBefore) := by
    cases hb : e.readBefore <;> simp [he, hb]
  obtain ⟨load, hload, hloaded⟩ := codes_of_isPart (isPart_of_readingParts hloads) hread
  obtain ⟨size, hsize, hsized⟩ := codes_of_isPart (isPart_of_parts hsizes) he
  obtain ⟨write, hwrite, hwritten⟩ := codes_of_isPart (isPart_of_parts hwrites) he
  exact ⟨load, size, write, hload, hloaded, hsize, hsized, hwrite, hwritten⟩

/-- The lines of the reading method in front of the attributes of the class itself. -/
def loadOpening (m : ClassModel) : ClassForm → List String
  | java => nest 1 [opened s!"protected {m.className}(DataInputStream stream)"] ++
      nest 2 ((if m.base.isSome then ["super(stream);"] else []) ++ [opened "try"])
  | typescript =>
      nest 1 [opened s!"public static loadFromBinary(payload: Uint8Array): {m.className}"] ++
      nest 2 ("const byteArray = Array.from(payload);" :: match m.baseClass with
        | some base => [s!"const superObject = {base}.loadFromBinary(payload);",
            TypeScriptClass.advance "superObject.getSize()"]
        | none => [])
  | python => nest 1 (PythonClass.loadHead m) ++ nest 2 (match m.baseClass with
        | some base => [s!"superObject = {base}.load_from_binary(bytes_)",
            PythonClass.advance "superObject.get_size()"]
        | none => [])
  | transaction => nest 1 (PythonClass.loadHead m) ++ nest 2 (match m.baseClass with
        | some base => [s!"superObject = {base}.load_from_binary(bytes_)",
            PythonTransaction.assertSame "VERSION" "version" "version",
            PythonTransaction.assertSame "ENTITY_TYPE" "type" "type",
            PythonClass.advance "superObject.get_size()"]
        | none => [])

def readLines (reads : List String) : ClassForm → List String
  | java => nest 3 reads
  | typescript => nest 2 reads
  | python | transaction => nest 2 reads ++ [""]

def loadLines : ClassForm → Part → List String
  | java => fun p => nest 3 (JavaClass.guarded p)
  | typescript => fun p => nest 2 (p.inBraces
      (fun e => [s!"let {e.name} : {e.varType} | undefined = undefined;"]) TypeScriptClass.test
      fun _ => [])
  | python => PythonClass.inMethod fun e => [s!"{e.name} = None"]
  | transaction => PythonClass.inMethod fun e => [s!"{PythonTransaction.snakeName e} = None"]

/-- The line of the reading method behind the attributes. -/
def loadClosing (m : ClassModel) (arguments : String) : ClassForm → List String
  | java => nest 2 [opened (closeBrace ++ " " ++ "catch (Exception e)")]
  | typescript => nest 2 [s!"return new {m.className}({arguments});"]
  | python => [s!"        return {m.className}({arguments})"]
  | transaction => [""]

def sizeOpening (m : ClassModel) : ClassForm → List String
  | java => nest 1 [opened "public int getSize()"] ++
      nest 2 [if m.base.isSome then "int size = super.getSize();" else "int size = 0;"]
  | typescript => nest 1 [opened "public getSize(): number"] ++
      nest 2 [if m.base.isSome then "let size = super.getSize();" else "let size = 0;"]
  | python | transaction => nest 1 (PythonClass.sizeHead m)

def sizeLines : ClassForm → Part → List String
  | java => fun p => nest 2 (JavaClass.guarded p)
  | typescript => fun p => nest 2 (p.inBraces (fun _ => []) TypeScriptClass.thisTest fun _ => [])
  | python | transaction => PythonClass.inMethod fun _ => []

def sizeClosing : ClassForm → List String
  | java | typescript => nest 2 ["return size;"]
  | python | transaction => ["        return size"]

def writeOpening (m : ClassModel) : ClassForm → List String
  | java => nest 1 [opened "public byte[] serialize()"] ++
      nest 2 [opened "return GeneratorUtils.serialize((dataOutputStream) ->"] ++
      nest 3 (if m.base.isSome then ["final byte[] superBytes = super.serialize();",
        "dataOutputStream.write(superBytes, 0, superBytes.length);"] else [])
  | typescript => nest 1 [opened "public serialize(): Uint8Array"] ++
      nest 2 ("let newArray = Uint8Array.from([]);" :: if m.base.isSome then
        ["const superBytes = super.serialize();", TypeScriptClass.append "superBytes"] else [])
  | python | transaction => nest 1 (PythonClass.serializeHead m)

def writeLines : ClassForm → Part → List String
  | java => fun p => nest 3 (JavaClass.guarded p)
  | typescript => fun p => nest 2 (p.inBraces (fun _ => []) TypeScriptClass.thisTest
      fun e => [TypeScriptClass.append s!"{e.name}Bytes"])
  | python | transaction => PythonClass.inMethod fun _ => []

def writeClosing : ClassForm → List String
  | java => nest 2 [closeBrace ++ ");"]
  | typescript => nest 2 ["return newArray;"]
  | python | transaction => ["        return bytes_"]

def joined : ClassForm → List String → String
  | java | typescript => text
  | python | transaction => openText

/-- The method that reads: what is read before the attributes, and then the attributes. -/
def loadMethod (f : ClassForm) (m : ClassModel) (ms : Methods) (arguments : String) : List String :=
  f.loadOpening m ++ f.readLines ms.reads ++ ms.loads.flatMap f.loadLines ++
    f.loadClosing m arguments

def sizeMethod (f : ClassForm) (m : ClassModel) (ms : Methods) : List String :=
  f.sizeOpening m ++ ms.sizes.flatMap f.sizeLines ++ f.sizeClosing

def writeMethod (f : ClassForm) (m : ClassModel) (ms : Methods) : List String :=
  f.writeOpening m ++ ms.writes.flatMap f.writeLines ++ f.writeClosing

/-- The text of a class has the three methods, one behind the other. -/
def Shows (f : ClassForm) (m : ClassModel) (ms : Methods) (code : String) : Prop :=
  ∃ arguments lines, code = f.joined lines ∧
    InTurn [f.loadMethod m ms arguments, f.sizeMethod m ms, f.writeMethod m ms] lines

end ClassForm

namespace JavaClass
variable {s : Schema} {m : ClassModel} {lines : List String}

theorem loadMethod_within (ms : Methods) (hreads : upFront s m = .ok ms.reads) (hloads : loadParts s m = .ok ms.loads)
    (h : streamConstructor s m = .ok lines) :
    ClassForm.java.loadMethod m ms "" <:+: indent lines := by
  simp only [streamConstructor, hreads, hloads, ok_bind, pure_eq_ok,
    Except.ok.injEq] at h
  refine ⟨indent (doc ["Constructor - Creates an object from stream.", "",
      "@param stream Byte stream to use to serialize the object."]),
    nest 3 ["throw GeneratorUtils.getExceptionToPropagate(e);"] ++ nest 2 [closeBrace] ++
      nest 1 [closeBrace], ?_⟩
  simp only [← h, ClassForm.loadMethod, ClassForm.loadOpening, ClassForm.readLines,
    ClassForm.loadLines, ClassForm.loadClosing, block, blockWith, chain, chain.next, opened, nest,
    indent_append, indent_nil, indent_cons, indent_flatMap, List.append_assoc, List.cons_append, List.nil_append]
  rfl

theorem sizeMethod_within (ms : Methods) (hsizes : sizeParts s m = .ok ms.sizes) (h : sizeMethod s m = .ok lines) :
    ClassForm.java.sizeMethod m ms <:+: indent lines := by
  simp only [sizeMethod, hsizes, ok_bind, pure_eq_ok, Except.ok.injEq] at h
  refine ⟨indent (doc ["Gets the size of the object.", "", "@return Size in bytes."]),
    nest 1 [closeBrace], ?_⟩
  simp only [← h, ClassForm.sizeMethod, ClassForm.sizeOpening, ClassForm.sizeLines,
    ClassForm.sizeClosing, block, blockWith, opened, nest, indent_append, indent_nil,
    indent_cons, indent_flatMap, List.append_assoc, List.cons_append, List.nil_append]
  cases m.base <;> rfl

theorem writeMethod_within (ms : Methods) (hwrites : serializeParts s m = .ok ms.writes)
    (h : serializeMethod s m = .ok lines) : ClassForm.java.writeMethod m ms <:+: indent lines := by
  simp only [serializeMethod, hwrites, ok_bind, pure_eq_ok, Except.ok.injEq] at h
  refine ⟨indent (doc ["Serializes an object to bytes.", "", "@return Serialized bytes."]),
    nest 1 [closeBrace], ?_⟩
  simp only [← h, ClassForm.writeMethod, ClassForm.writeOpening, ClassForm.writeLines,
    ClassForm.writeClosing, block, blockWith, opened, nest, indent_append, indent_nil,
    indent_cons, indent_flatMap, List.append_assoc, List.cons_append, List.nil_append]
  rfl

theorem shows_of_source {code : String} (h : source s m = .ok code) :
    ∃ ms, ClassForm.java.methods s m = .ok ms ∧ ClassForm.java.Shows m ms code := by
  obtain ⟨load, hload, h⟩ := bind_eq_ok.1 h
  obtain ⟨constructor, -, h⟩ := bind_eq_ok.1 h
  obtain ⟨factories, -, h⟩ := bind_eq_ok.1 h
  obtain ⟨getters, -, h⟩ := bind_eq_ok.1 h
  obtain ⟨size, hsize, h⟩ := bind_eq_ok.1 h
  obtain ⟨write, hwrite, h⟩ := bind_eq_ok.1 h
  obtain ⟨reads, hreads, hload'⟩ := bind_eq_ok.1 hload
  obtain ⟨loads, hloads, -⟩ := bind_eq_ok.1 hload'
  obtain ⟨sizes, hsizes, -⟩ := bind_eq_ok.1 hsize
  obtain ⟨writes, hwrites, -⟩ := bind_eq_ok.1 hwrite
  let ms : Methods := ⟨reads, loads, sizes, writes⟩
  refine ⟨ms, ClassForm.methods_eq_ok.2 ⟨hreads, hloads, hsizes, hwrites⟩, "", _,
    (Except.ok.inj h).symm, ?_⟩
  simp only [List.append_assoc]
  exact .skip _ <| .skip _ <| .take (loadMethod_within ms hreads hloads hload) <|
    .skip _ <| .skip _ <| .skip _ <| .skip _ <| .skip _ <| .skip _ <| .skip _ <| .skip _ <|
    .take (sizeMethod_within ms hsizes hsize) <| .skip _ <| .skip _ <| .skip _ <| .skip _ <| .skip _ <|
    .take (writeMethod_within ms hwrites hwrite) trivial

end JavaClass

namespace TypeScriptClass
variable {s : Schema} {m : ClassModel} {lines : List String}

theorem loadMethod_within (ms : Methods) (hreads : upFront s m = .ok ms.reads)
    (hloads : loadParts s m = .ok ms.loads) (h : fromBinary s m = .ok lines) :
    ∃ arguments, ClassForm.typescript.loadMethod m ms arguments <:+: indent lines := by
  simp only [fromBinary, hreads, hloads, ok_bind, pure_eq_ok, Except.ok.injEq] at h
  generalize commas _ = arguments at h
  refine ⟨arguments, [], nest 1 [closeBrace], ?_⟩
  cases hb : m.baseClass <;>
    simp only [← h, hb, ClassForm.loadMethod, ClassForm.loadOpening, ClassForm.readLines,
      ClassForm.loadLines, ClassForm.loadClosing, block, blockWith, opened, nest, indent_append,
      indent_nil, indent_cons, indent_flatMap, List.append_assoc, List.cons_append, List.nil_append,
      String.append_empty]

theorem sizeMethod_within (ms : Methods) (hsizes : sizeParts s m = .ok ms.sizes)
    (h : sizeMethod s m = .ok lines) : ClassForm.typescript.sizeMethod m ms <:+: indent lines := by
  simp only [sizeMethod, hsizes, ok_bind, pure_eq_ok, Except.ok.injEq] at h
  refine ⟨indent (doc ["Gets the size of the object.", "", "@return Size in bytes."]),
    nest 1 [closeBrace], ?_⟩
  simp only [← h, ClassForm.sizeMethod, ClassForm.sizeOpening, ClassForm.sizeLines,
    ClassForm.sizeClosing, block, blockWith, opened, nest, indent_append, indent_nil,
    indent_cons, indent_flatMap, List.append_assoc, List.cons_append, List.nil_append]
  cases m.base <;> rfl

theorem writeMethod_within (ms : Methods) (hwrites : serializeParts s m = .ok ms.writes)
    (h : serializeMethod s m = .ok lines) :
    ClassForm.typescript.writeMethod m ms <:+: indent lines := by
  simp only [serializeMethod, hwrites, ok_bind, pure_eq_ok, Except.ok.injEq] at h
  refine ⟨indent (doc ["Serializes an object to bytes.", "", "@return Serialized bytes."]),
    nest 1 [closeBrace], ?_⟩
  simp only [← h, ClassForm.writeMethod, ClassForm.writeOpening, ClassForm.writeLines,
    ClassForm.writeClosing, block, blockWith, opened, nest, indent_append, indent_nil,
    indent_cons, indent_flatMap, List.append_assoc, List.cons_append, List.nil_append]
  rfl

theorem shows_of_source {code : String} (h : source s m = .ok code) :
    ∃ ms, ClassForm.typescript.methods s m = .ok ms ∧ ClassForm.typescript.Shows m ms code := by
  obtain ⟨constructor, -, h⟩ := bind_eq_ok.1 h
  obtain ⟨load, hload, h⟩ := bind_eq_ok.1 h
  obtain ⟨factories, -, h⟩ := bind_eq_ok.1 h
  obtain ⟨getters, -, h⟩ := bind_eq_ok.1 h
  obtain ⟨size, hsize, h⟩ := bind_eq_ok.1 h
  obtain ⟨write, hwrite, h⟩ := bind_eq_ok.1 h
  obtain ⟨reads, hreads, hload'⟩ := bind_eq_ok.1 hload
  obtain ⟨loads, hloads, -⟩ := bind_eq_ok.1 hload'
  obtain ⟨sizes, hsizes, -⟩ := bind_eq_ok.1 hsize
  obtain ⟨writes, hwrites, -⟩ := bind_eq_ok.1 hwrite
  let ms : Methods := ⟨reads, loads, sizes, writes⟩
  obtain ⟨arguments, hl⟩ := loadMethod_within ms hreads hloads hload
  refine ⟨ms, ClassForm.methods_eq_ok.2 ⟨hreads, hloads, hsizes, hwrites⟩, arguments, _,
    (Except.ok.inj h).symm, ?_⟩
  simp only [List.append_assoc]
  exact .skip _ <| .skip _ <| .skip _ <| .skip _ <| .skip _ <| .skip _ <| .skip _ <| .skip _ <| .take hl <|
    .skip _ <| .skip _ <| .skip _ <| .skip _ <| .skip _ <|
    .take (sizeMethod_within ms hsizes hsize) <| .skip _ <| .skip _ <| .skip _ <| .skip _ <| .skip _ <|
    .take (writeMethod_within ms hwrites hwrite) trivial

end TypeScriptClass

namespace PythonClass
variable {s : Schema} {m : ClassModel} {lines : List String}

theorem loadMethod_within (ms : Methods) (hreads : upFront s m = .ok ms.reads)
    (hloads : loadParts s m = .ok ms.loads) (h : fromBinary s m = .ok lines) :
    ∃ arguments, ClassForm.python.loadMethod m ms arguments <:+: lines := by
  unfold fromBinary at h
  split at h
  · simp only [hreads, hloads, ok_bind, pure_eq_ok, Except.ok.injEq] at h
    generalize commas _ = arguments at h
    refine ⟨arguments, [], [], ?_⟩
    cases hb : m.baseClass <;>
      simp only [← h, hb, ClassForm.loadMethod, ClassForm.loadOpening, ClassForm.readLines,
        ClassForm.loadLines, ClassForm.loadClosing, nest, indent_append, indent_nil,
        List.append_assoc, List.nil_append, List.append_nil]
  · cases h

theorem shows_of_source {code : String} (h : source s m = .ok code) :
    ∃ ms, ClassForm.python.methods s m = .ok ms ∧ ClassForm.python.Shows m ms code := by
  obtain ⟨tuples, -, h⟩ := bind_eq_ok.1 h
  obtain ⟨load, hload, h⟩ := bind_eq_ok.1 h
  obtain ⟨getters, -, h⟩ := bind_eq_ok.1 h
  obtain ⟨sizes, hsizes, h⟩ := bind_eq_ok.1 h
  obtain ⟨writes, hwrites, h⟩ := bind_eq_ok.1 h
  have hload' := hload
  unfold fromBinary at hload'
  split at hload'
  · obtain ⟨reads, hreads, hload'⟩ := bind_eq_ok.1 hload'
    obtain ⟨loads, hloads, -⟩ := bind_eq_ok.1 hload'
    let ms : Methods := ⟨reads, loads, sizes, writes⟩
    obtain ⟨arguments, hl⟩ := loadMethod_within ms hreads hloads hload
    refine ⟨ms, ClassForm.methods_eq_ok.2 ⟨hreads, hloads, hsizes, hwrites⟩, arguments, _,
      (Except.ok.inj h).symm, ?_⟩
    have hrest : InTurn [ClassForm.python.sizeMethod m ms, ClassForm.python.writeMethod m ms]
        ([""] ++ (indent (getters.flatMap (· ++ [""]) ++ sizeHead m) ++
          (sizes.flatMap (inMethod fun _ => []) ++ (["        return size", ""] ++
            (indent (serializeHead m) ++ (writes.flatMap (inMethod fun _ => []) ++
              (["        return bytes_"] ++ (indent (printed m) ++ ["    # end of class"])))))))) := by
      refine ⟨[""] ++ indent (getters.flatMap (· ++ [""])), [""] ++
        (ClassForm.python.writeMethod m ms ++ (indent (printed m) ++ ["    # end of class"])), ?_,
        [""], indent (printed m) ++ ["    # end of class"], by simp, trivial⟩
      simp [ClassForm.sizeMethod, ClassForm.sizeOpening, ClassForm.sizeLines, ClassForm.sizeClosing,
        ClassForm.writeMethod, ClassForm.writeOpening, ClassForm.writeLines, ClassForm.writeClosing,
        nest, indent_append, ms]
    simp only [List.append_assoc]
    exact .skip _ <| .skip _ <| .skip _ <| .skip _ <| .take hl hrest
  · cases hload'

end PythonClass

namespace PythonTransaction
open PythonClass
variable {s : Schema} {m : ClassModel} {lines : List String}

/-- An array is read in a loop. What is kept of an item depends on the type of the items. -/
theorem loadArray_eq_ok {e : Entry} {code : String} (hk : e.kind = .array) (h : load s m e = .ok code) :
    ∃ count value : String, countVariable e = .ok count ∧
      (value = "item.as_tuple()" ∨ value = "item" ∨
        ∃ held, valueName s e = .ok held ∧ value = "item." ++ held) ∧
      code = statements [snakeName e ++ " = []  # kind:ARRAY", "for _ in range(" ++ count ++ "):",
        "    item = " ++ (e.className ++ ".load_from_binary") ++ "(bytes_)",
        "    " ++ snakeName e ++ ".append(" ++ value ++ ")", "    " ++ advance "item.get_size()"] := by
  simp only [load, hk] at h
  obtain ⟨count, hcount, h⟩ := bind_eq_ok.1 h
  split at h
  · exact ⟨count, _, hcount, .inl rfl, (Except.ok.inj h).symm⟩
  split at h
  · exact ⟨count, _, hcount, .inr (.inl rfl), (Except.ok.inj h).symm⟩
  · obtain ⟨held, hheld, h⟩ := bind_eq_ok.1 h
    exact ⟨count, _, hcount, .inr (.inr ⟨held, hheld, rfl⟩), (Except.ok.inj h).symm⟩

/-- An object is made of what was read before, or it is read and a value of it is kept, or it is the body
of the transaction, or it is kept as a tuple. -/
theorem loadCustom_eq_ok {e : Entry} {code : String} (hk : e.kind = .custom)
    (h : load s m e = .ok code) :
    let name := snakeName e
    let item := e.className ++ ".load_from_binary"
    let condition := (((s.attributeAt e.site).get? "condition").getD .null).spell
    (e.readBefore = true ∧ ∃ held, valueName s e = .ok held ∧
      code = statements [s!"{name} = {item}({condition}Condition).{held}  # kind:CUSTOM3"]) ∨
    (e.readBefore = false ∧
      ((∃ mark member : String, (mark = "CUSTOM2" ∧ member = "value" ∨
          mark = "CUSTOM1_byte" ∧ valueName s e = .ok member) ∧
        code = statements [s!"{name}_ = {item}(bytes_)  # kind:{mark}",
          s!"{name} = {name}_.{member}", advance s!"{name}_.get_size()"]) ∨
      code = statements [s!"body = {item}(bytes_)  # kind:CUSTOM1_nonbyte",
        advance "body.get_size()"] ∨
      code = statements [s!"{name} = {item}(bytes_)  # kind:CUSTOM1_nonbyte",
        advance s!"{name}.get_size()", s!"{name} = {name}.as_tuple()"])) := by
  intro name item condition
  simp only [load, hk] at h
  split at h
  · rename_i hbefore
    obtain ⟨held, hheld, h⟩ := bind_eq_ok.1 h
    exact .inl ⟨hbefore, held, hheld, (Except.ok.inj h).symm⟩
  rename_i hbefore
  refine .inr ⟨by simpa using hbefore, ?_⟩
  split at h
  · exact .inl ⟨_, _, .inl ⟨rfl, rfl⟩, (Except.ok.inj h).symm⟩
  split at h
  · obtain ⟨held, hheld, h⟩ := bind_eq_ok.1 h
    exact .inl ⟨_, _, .inr ⟨rfl, hheld⟩, (Except.ok.inj h).symm⟩
  split at h
  · exact .inr (.inl (Except.ok.inj h).symm)
  · exact .inr (.inr (Except.ok.inj h).symm)

theorem loadMethod_within (ms : Methods) (hreads : upFront s m = .ok ms.reads)
    (hloads : loadParts s m = .ok ms.loads) (h : fromBinary s m = .ok lines) :
    ClassForm.transaction.loadMethod m ms "" <:+: lines := by
  obtain ⟨_, hreads', h⟩ := bind_eq_ok.1 h
  obtain ⟨_, hloads', h⟩ := bind_eq_ok.1 h
  obtain ⟨result, -, h⟩ := bind_eq_ok.1 h
  obtain rfl := Except.ok.inj (hreads.symm.trans hreads')
  obtain rfl := Except.ok.inj (hloads.symm.trans hloads')
  refine ⟨[], indent (indent result) ++ [""], ?_⟩
  rw [← Except.ok.inj h]
  cases hb : m.baseClass <;>
    simp only [hb, ClassForm.loadMethod, ClassForm.loadOpening, ClassForm.readLines,
      ClassForm.loadLines, ClassForm.loadClosing, nest, indent_append, indent_nil,
      List.append_assoc, List.nil_append, List.append_nil]

theorem shows_of_source {code : String} (h : source s m = .ok code) :
    ∃ ms, ClassForm.transaction.methods s m = .ok ms ∧ ClassForm.transaction.Shows m ms code := by
  obtain ⟨constructor, -, h⟩ := bind_eq_ok.1 h
  obtain ⟨load, hload, h⟩ := bind_eq_ok.1 h
  obtain ⟨sizes, hsizes, h⟩ := bind_eq_ok.1 h
  obtain ⟨writes, hwrites, h⟩ := bind_eq_ok.1 h
  obtain ⟨printed, -, h⟩ := bind_eq_ok.1 h
  obtain ⟨reads, hreads, hload'⟩ := bind_eq_ok.1 hload
  obtain ⟨loads, hloads, -⟩ := bind_eq_ok.1 hload'
  let ms : Methods := ⟨reads, loads, sizes, writes⟩
  have hl := loadMethod_within ms hreads hloads hload
  refine ⟨ms, ClassForm.methods_eq_ok.2 ⟨hreads, hloads, hsizes, hwrites⟩, "", _,
    (Except.ok.inj h).symm, ?_⟩
  have hrest : ∀ rest : List String,
      InTurn [ClassForm.transaction.sizeMethod m ms, ClassForm.transaction.writeMethod m ms]
        (indent (properties m ++ aligned m ++ sizeHead m) ++
          (sizes.flatMap (inMethod fun _ => []) ++ (["        return size", ""] ++
            (indent (serializeHead m) ++ (writes.flatMap (inMethod fun _ => []) ++
              (["        return bytes_", ""] ++ rest)))))) := by
    intro rest
    refine ⟨indent (properties m ++ aligned m), [""] ++
      (ClassForm.transaction.writeMethod m ms ++ ([""] ++ rest)), ?_,
      [""], [""] ++ rest, by simp, trivial⟩
    simp [ClassForm.sizeMethod, ClassForm.sizeOpening, ClassForm.sizeLines, ClassForm.sizeClosing,
      ClassForm.writeMethod, ClassForm.writeOpening, ClassForm.writeLines, ClassForm.writeClosing,
      nest, indent_append, ms]
  simp only [List.append_assoc]
  exact .skip _ <| .skip _ <| .skip _ <| .skip _ <| .take hl (by simpa using hrest _)

end PythonTransaction

theorem ClassModel.shows_of_source {t : Target} {s : Schema} {m : ClassModel} {code : String}
    (h : m.source t s = .ok code) :
    ∃ ms, (ClassForm.of t m).methods s m = .ok ms ∧ (ClassForm.of t m).Shows m ms code := by
  cases t with
  | java => exact JavaClass.shows_of_source h
  | typescript => exact TypeScriptClass.shows_of_source h
  | python =>
    by_cases ht : Target.isTransactional m.name = true
    · simp only [source, ClassForm.of, ht, if_true] at h ⊢
      exact PythonTransaction.shows_of_source h
    · simp only [source, ClassForm.of, ht] at h ⊢
      exact PythonClass.shows_of_source h

end SchemaForge
