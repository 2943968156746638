import SchemaForge.Proofs.UpFront

/-! How many bytes the code for an attribute reads, measures and writes. -/
namespace SchemaForge
open Checked

/-- The bytes that belong to an attribute. -/
inductive Extent where
  /-- None, since they were read before. -/
  | nothing
  | fixed (size : Value)
  /-- As many as the attribute says that its sequence of bytes has. -/
  | buffer
  /-- As many as an object takes. -/
  | object
  /-- Those of objects one behind the other, each filled up to a multiple of some bytes. -/
  | elements (padding : Nat)
  /-- Those of numbers one behind the other, each filled up to a multiple of some bytes. -/
  | numbers (width padding : Nat)

open Source

namespace JavaClass

/-- The numbers that a Java class can write, by the bytes that they put into the stream, with the class
that turns the order of their bytes around. -/
def writers : List (Int × String × Option String) := [
  (1, "writeByte", none), (2, "writeShort", some "Short"), (4, "writeInt", some "Integer"),
  (8, "writeLong", some "Long")]

def turned (value : String) : Option String → String
  | none => value
  | some order => order ++ ".reverseBytes(" ++ value ++ ")"

/-- The calls that read an array, up to the padding of its elements. -/
def arrayReaders (e : Entry) : List String := [
  s!"GeneratorUtils.loadFromBinaryArray({loader e}::loadFromBinary, " ++ s!"stream, {e.size.spell}, ",
  s!"GeneratorUtils.loadFromBinaryArrayRemaining({loader e}::loadFromBinary, stream, ",
  s!"GeneratorUtils.loadFromBinaryArrayRemaining({loader e}::loadFromBinary, stream, payloadSize, "]

/-- Whether code reads an attribute from so many bytes of the stream. -/
def Reads (e : Entry) (code : String) : Extent → Prop
  | .nothing => ∃ made condition : String,
      code = Text.strip (s!"this.{e.name} = " ++ s!"new {made}({condition}Condition);")
  | .fixed size => ∃ n type read, ∃ before after : String,
      (n, type, read) ∈ ClassForm.javaNumbers ∧ size.number? = some n ∧
      code = Text.strip s!"{before}{read}{after}"
  | .buffer => code = Text.strip
      (s!"this.{e.name} = " ++ s!"GeneratorUtils.readByteBuffer(stream, {e.size.spell});")
  | .object => ∃ loader : String,
      code = Text.strip (s!"this.{e.name} = " ++ s!"{loader}.loadFromBinary(stream);")
  | .elements padding => ∃ call ∈ arrayReaders e,
      code = Text.strip (s!"this.{e.name} = " ++ s!"{call}{padding});")
  | .numbers _ _ => False

/-- Whether code adds so many bytes for an array. -/
def Measures (e : Entry) (code : String) : Extent → Prop
  | .elements padding =>
      code = Text.strip s!"size +=  GeneratorUtils.getSumSize(this.{e.name}, {padding});"
  | _ => False

/-- Whether code writes an attribute as so many bytes. -/
def Writes (e : Entry) (code : String) : Extent → Prop
  | .fixed size => ∃ n method order value, (n, method, order) ∈ writers ∧ size.number? = some n ∧
      code = Text.strip s!"dataOutputStream.{method}({turned value order});"
  | .buffer => code = Text.strip
      s!"dataOutputStream.write(this.{e.name}.array(), 0, this.{e.name}.array().length);"
  | .object => code = Text.strip s!"GeneratorUtils.writeEntity(dataOutputStream, this.{e.name});"
  | .elements padding =>
      code = Text.strip s!"GeneratorUtils.writeList(dataOutputStream, this.{e.name}, {padding});"
  | _ => False

/-- The bytes that are read for an attribute. -/
def taken (s : Schema) (e : Entry) : Extent :=
  match e.kind with
  | .simple | .sizeField | .flags => .fixed e.size
  | .buffer => .buffer
  | .custom => if e.readBefore then .nothing else .object
  | .array | .fillArray => .elements 0
  | .varArray => .elements (alignmentOf s e)
  | .unknown => .nothing

/-- The bytes that are written for an attribute. -/
def put (s : Schema) (e : Entry) : Extent :=
  match e.kind with
  | .simple | .sizeField | .flags => .fixed e.size
  | .buffer => .buffer
  | .custom => .object
  | .array | .fillArray => .elements 0
  | .varArray => .elements (alignmentOf s e)
  | .unknown => .nothing

variable {s : Schema} {m : ClassModel} {e : Entry} {code : String}

/-- Whether the attribute has the size of a Java number. -/
def IsNumber (e : Entry) : Prop := ∃ type, Target.numberType .java e.size = .ok type

/-- What the code of a class needs to know of an attribute. -/
structure Fits (m : ClassModel) (e : Entry) : Prop where
  known : e.kind ≠ .unknown
  number : e.kind = .simple ∨ e.kind = .sizeField ∨ e.kind = .flags → IsNumber e
  early : e.kind = .custom → e.readBefore = true → e.isConditional = true
  named : e.kind = .simple → m.name ≠ "Receipt"

theorem fits_of_isArray (h : e.kind.isArray = true) : Fits m e where
  known hk := by simp [hk, Kind.isArray] at h
  number hk := by rcases hk with hk | hk | hk <;> simp [hk, Kind.isArray] at h
  early hk := by simp [hk, Kind.isArray] at h
  named hk := by simp [hk, Kind.isArray] at h

theorem reads_number {before read after : String} (hn : IsNumber e)
    (hread : Width.javaLoad e.size = .ok read) (h : code = Text.strip s!"{before}{read}{after}") :
    Reads e code (.fixed e.size) := by
  obtain ⟨type, htype⟩ := hn
  obtain ⟨n, hlisted, hsize⟩ := ClassForm.javaNumber_of_sized htype hread
  exact ⟨n, type, read, before, after, hlisted, hsize, h⟩

/-- Numbers of a width that Java has are written by the method for that width. -/
theorem writer_of_number {size : Value} {type method : String} {reverse : String → String}
    (ht : Target.numberType .java size = .ok type) (hm : Width.javaWrite size = .ok method)
    (hr : Width.javaReverse size = .ok reverse) :
    ∃ n order, (n, method, order) ∈ writers ∧ size.number? = some n ∧
      ∀ value, reverse value = turned value order := by
  obtain ⟨n, hn, htype⟩ := Target.sized_eq_ok ht
  simp only [List.mem_cons, Prod.mk.injEq, List.not_mem_nil, or_false] at htype
  cases size with
  | int k =>
    obtain rfl : k = n := Option.some.inj hn
    rcases htype with ⟨rfl, -⟩ | ⟨rfl, -⟩ | ⟨rfl, -⟩ | ⟨rfl, -⟩
    all_goals
      rw [← Except.ok.inj hm, ← Except.ok.inj hr]
    · exact ⟨1, none, by decide, hn, fun _ => rfl⟩
    · exact ⟨2, some "Short", by decide, hn, fun _ => rfl⟩
    · exact ⟨4, some "Integer", by decide, hn, fun _ => rfl⟩
    · exact ⟨8, some "Long", by decide, hn, fun _ => rfl⟩
  | bool b =>
    cases b with
    | false =>
      obtain rfl : 0 = n := Option.some.inj hn
      omega
    | true =>
      rw [← Except.ok.inj hm, ← Except.ok.inj hr]
      exact ⟨1, none, by decide, rfl, fun _ => rfl⟩
  | _ => cases hn

theorem writes_number {value : Checked String} {written : String} (hn : IsNumber e)
    (h : writeNumber e.size value = .ok written) :
    Writes e (Text.strip written) (.fixed e.size) := by
  obtain ⟨type, htype⟩ := hn
  obtain ⟨method, hmethod, h⟩ := bind_eq_ok.1 h
  obtain ⟨reverse, hreverse, h⟩ := bind_eq_ok.1 h
  obtain ⟨shown, -, h⟩ := bind_eq_ok.1 h
  obtain ⟨n, order, hlisted, hsize, hturned⟩ := writer_of_number htype hmethod hreverse
  refine ⟨n, method, order, shown, hlisted, hsize, ?_⟩
  rw [← Except.ok.inj h, hturned]

theorem zero_behind_comma : ", 0);" = ", " ++ (Nat.repr 0 ++ ");") := rfl

theorem zero_behind_stream :
    "::loadFromBinary, stream, 0);" = "::loadFromBinary, stream, " ++ (Nat.repr 0 ++ ");") := rfl

theorem reads_load (h : load s e = .ok code) (hfits : Fits m e) : Reads e code (taken s e) := by
  unfold taken
  cases hkind : e.kind with
  | simple =>
    simp only [load, hkind] at h
    obtain ⟨read, hread, h⟩ := bind_eq_ok.1 h
    exact reads_number (hfits.number (.inl hkind)) hread (Except.ok.inj h).symm
  | sizeField =>
    simp only [load, hkind] at h
    obtain ⟨read, hread, h⟩ := bind_eq_ok.1 h
    exact reads_number (hfits.number (.inr (.inl hkind))) hread (Except.ok.inj h).symm
  | flags =>
    simp only [load, hkind] at h
    obtain ⟨read, hread, h⟩ := bind_eq_ok.1 h
    exact reads_number (hfits.number (.inr (.inr hkind))) hread (Except.ok.inj h).symm
  | buffer =>
    simp only [load, hkind] at h
    rw [← Except.ok.inj h]
    simp only [Reads, toString, String.append_assoc]
  | array =>
    simp only [load, hkind] at h
    refine ⟨_, List.mem_cons_self, ?_⟩
    rw [← Except.ok.inj h]
    simp only [toString, String.append_assoc, zero_behind_comma]
  | fillArray =>
    simp only [load, hkind] at h
    refine ⟨_, List.mem_cons_of_mem _ List.mem_cons_self, ?_⟩
    rw [← Except.ok.inj h]
    simp only [toString, String.append_assoc, zero_behind_stream]
  | varArray =>
    simp only [load, hkind] at h
    refine ⟨_, List.mem_cons_of_mem _ (List.mem_cons_of_mem _ List.mem_cons_self), ?_⟩
    rw [← Except.ok.inj h]
    simp only [toString, String.append_assoc]
  | custom =>
    by_cases hb : e.readBefore = true
    · simp only [load, hkind, hb, hfits.early hkind hb, Bool.and_self, if_true] at h ⊢
      obtain ⟨condition, -, h⟩ := bind_eq_ok.1 h
      refine ⟨loader e, condition.spell, ?_⟩
      rw [← Except.ok.inj h]
      simp only [toString, String.append_assoc]
    · simp only [load, hkind, hb, Bool.and_false, Bool.false_eq_true, if_false] at h ⊢
      refine ⟨loader e, ?_⟩
      rw [← Except.ok.inj h]
      simp only [toString, String.append_assoc]
  | unknown => exact absurd hkind hfits.known

theorem measures_size (h : size s e = .ok code) (hk : e.kind.isArray = true) :
    Measures e code (put s e) := by
  have hcode := Except.ok.inj h
  rw [← hcode]
  unfold put
  cases hkind : e.kind with
  | array | fillArray | varArray => rfl
  | _ => simp [hkind, Kind.isArray] at hk

theorem writes_serialize (h : serialize s m e = .ok code) (hfits : Fits m e) :
    Writes e code (put s e) := by
  unfold put
  cases hkind : e.kind with
  | simple =>
    have hname : (m.name == "Receipt") = false := by simpa using hfits.named hkind
    simp only [serialize, hkind, hname, Bool.false_and, Bool.false_eq_true, if_false] at h
    obtain ⟨written, hwritten, h⟩ := bind_eq_ok.1 h
    rw [← Except.ok.inj h]
    exact writes_number (hfits.number (.inl hkind)) hwritten
  | sizeField =>
    simp only [serialize, hkind] at h
    obtain ⟨written, hwritten, h⟩ := bind_eq_ok.1 h
    obtain ⟨array, -, hwritten⟩ := bind_eq_ok.1 hwritten
    rw [← Except.ok.inj h]
    exact writes_number (hfits.number (.inr (.inl hkind))) hwritten
  | flags =>
    simp only [serialize, hkind] at h
    obtain ⟨written, hwritten, h⟩ := bind_eq_ok.1 h
    rw [← Except.ok.inj h]
    exact writes_number (hfits.number (.inr (.inr hkind))) hwritten
  | unknown => exact absurd hkind hfits.known
  | buffer | array | fillArray | varArray | custom =>
    simp only [serialize, hkind] at h
    exact (Except.ok.inj h).symm

end JavaClass

namespace TypeScriptClass

/-- The functions that write numbers, by the bytes that they make. -/
def writers : List (Int × String) := [
  (8, "GeneratorUtils.uint64ToBuffer"), (4, "GeneratorUtils.uint32ToBuffer"),
  (2, "GeneratorUtils.uint16ToBuffer"), (1, "GeneratorUtils.uint8ToBuffer")]

/-- The lines that read an attribute, as one piece of code. -/
def loaded (lines : List String) : String := Text.strip (Text.joinWith "\n        " lines)

/-- The lines that write an attribute, as one piece of code. -/
def written (lines : List String) : String := Text.strip (Text.joinWith "\n            " lines)

/-- The variable for the bytes of an attribute that are to be written. -/
def bytesOf (e : Entry) : String := s!"const {e.name}Bytes = "

/-- Whether code reads an attribute and passes over so many bytes. -/
def Reads (e : Entry) (code : String) : Extent → Prop
  | .nothing => ∃ assign made condition : String,
      code = loaded [s!"{assign}new {made}({condition}Condition);"]
  | .fixed size => ∃ before read after : String, Width.scriptRead size "byteArray" = .ok read ∧
      code = loaded [s!"{before}{read}{after}", advance size.spell]
  | .buffer => ∃ assign bytes : String,
      code = loaded [s!"{assign}GeneratorUtils.getBytes({bytes}, {e.size.spell});",
        advance e.size.spell]
  | .object => ∃ assign loader bytes : String,
      code = loaded [s!"{assign}{loader}({bytes});", advance s!"{e.name}.getSize()"]
  | .elements padding => ∃ assign loader bytes : String,
      (∃ limit : String, code = loaded
        [s!"{assign}GeneratorUtils.loadFromBinaryRemaining({loader}, {bytes}, {limit}, {padding});",
          advance (paddedSum e.name padding)]) ∨
      padding = 0 ∧ code = loaded
        [s!"{assign}GeneratorUtils.loadFromBinary({loader}, {bytes}, {e.size.spell});",
          advance s!"{e.name}.reduce((sum, c) => sum + c.getSize(), 0)"]
  | .numbers width padding => padding = 0 ∧ ∃ assign bytes : String, code = loaded
      [s!"{assign}GeneratorUtils.loadFromBinaryEnums({bytes}, {e.size.spell}, {width});",
        advance s!"{e.name}.reduce((sum) => sum + {width}, 0)"]

/-- Whether code adds so many bytes for an array. -/
def Measures (e : Entry) (code : String) : Extent → Prop
  | .elements padding => code = Text.strip s!"size += {paddedSum (held e) padding};  // {e.name}"
  | .numbers width padding => padding = 0 ∧
      code = Text.strip s!"size += {held e}.reduce((sum) => sum + {width}, 0);"
  | _ => False

/-- Whether code makes so many bytes for an attribute. A value that has not the width of a number is the
bytes that were read for it, and a list of enumerators is written with two bytes for each. -/
def Writes (e : Entry) (code : String) : Extent → Prop
  | .fixed size =>
      (∃ n writer before, ∃ value : String, (n, writer) ∈ writers ∧ size.number? = some n ∧
        code = written (before ++ [s!"{bytesOf e}{writer}({value});"])) ∨
      (Width.scriptWrite size = .ok "" ∧ ∃ value ∈ [s!"this.{getterName e.name}()", held e],
        code = written [s!"{bytesOf e}({value});"])
  | .buffer => code = written [s!"{bytesOf e}{held e};"]
  | .object => code = written [s!"{bytesOf e}{held e}.serialize();"]
  | .elements padding =>
      code = written [s!"{bytesOf e}GeneratorUtils.writeList({held e}, {padding});"]
  | .numbers width padding => width = 2 ∧
      code = written [s!"{bytesOf e}GeneratorUtils.writeListEnum({held e}, {padding});"]
  | .nothing => False

/-- The bytes that are read for an attribute. -/
def taken (s : Schema) (e : Entry) : Extent :=
  match e.kind with
  | .simple | .sizeField | .flags => .fixed e.size
  | .buffer => .buffer
  | .custom =>
    if e.readBefore then .nothing else if e.baseType.isEnum then .fixed e.size else .object
  | .array => if e.baseType.isEnum then .numbers enumeratorWidth 0 else .elements 0
  | .fillArray | .varArray => .elements (alignmentOf s e)
  | .unknown => .nothing

/-- The bytes that are counted for an array. -/
def measured (s : Schema) (e : Entry) : Extent :=
  if isEnumArray e then .numbers enumeratorWidth 0 else .elements (alignmentOf s e)

/-- The bytes that are written for an attribute. -/
def put (s : Schema) (e : Entry) : Extent :=
  match e.kind with
  | .simple | .sizeField | .flags => .fixed e.size
  | .buffer => .buffer
  | .custom => if e.baseType.isEnum then .fixed e.size else .object
  | .array =>
    if e.baseType.isEnum then .numbers enumeratorWidth (alignmentOf s e)
    else .elements (alignmentOf s e)
  | .fillArray | .varArray => .elements (alignmentOf s e)
  | .unknown => .nothing

variable {s : Schema} {m : ClassModel} {e : Entry} {code : String}

/-- Whether the attribute has the size of a number that can be written. -/
def IsNumber (e : Entry) : Prop := ∃ n writer, (n, writer) ∈ writers ∧ e.size.number? = some n

/-- What the code of a class needs to know of an attribute. -/
structure Fits (m : ClassModel) (e : Entry) : Prop where
  known : e.kind ≠ .unknown
  number : e.kind = .sizeField ∨ e.kind = .flags ∨ e.kind = .simple ∧ e.isReserved = true → IsNumber e
  named : e.kind = .simple → m.name ≠ "Receipt"

theorem fits_of_isArray (h : e.kind.isArray = true) : Fits m e where
  known hk := by simp [hk, Kind.isArray] at h
  number hk := by rcases hk with hk | hk | ⟨hk, -⟩ <;> simp [hk, Kind.isArray] at h
  named hk := by simp [hk, Kind.isArray] at h

theorem scriptWrite_cases {size : Value} {writer : String} (h : Width.scriptWrite size = .ok writer) :
    writer = "" ∨ ∃ n, (n, writer) ∈ writers ∧ size.number? = some n := by
  obtain ⟨wide, -, h⟩ := bind_eq_ok.1 h
  cases wide with
  | true => exact .inl (Except.ok.inj h).symm
  | false =>
    simp only [Bool.false_eq_true, if_false] at h
    split at h
    · next hn => exact .inr ⟨8, by rw [← Except.ok.inj h]; decide, hn⟩
    · next hn => exact .inr ⟨4, by rw [← Except.ok.inj h]; decide, hn⟩
    · next hn => exact .inr ⟨2, by rw [← Except.ok.inj h]; decide, hn⟩
    · next hn => exact .inr ⟨1, by rw [← Except.ok.inj h]; decide, hn⟩
    · exact .inl (Except.ok.inj h).symm

theorem scriptWrite_of_isNumber (hn : IsNumber e) {writer : String}
    (h : Width.scriptWrite e.size = .ok writer) :
    ∃ n, (n, writer) ∈ writers ∧ e.size.number? = some n := by
  obtain ⟨n, _, hlisted, hsize⟩ := hn
  refine ⟨n, ?_, hsize⟩
  simp only [writers, List.mem_cons, Prod.mk.injEq, List.not_mem_nil, or_false] at hlisted
  cases hvalue : e.size with
  | int k =>
    rw [hvalue] at h hsize
    obtain rfl : k = n := Option.some.inj hsize
    rcases hlisted with ⟨rfl, -⟩ | ⟨rfl, -⟩ | ⟨rfl, -⟩ | ⟨rfl, -⟩
    all_goals
      rw [← Except.ok.inj h]
      decide
  | bool b =>
    rw [hvalue] at h hsize
    cases b with
    | false =>
      obtain rfl : 0 = n := Option.some.inj hsize
      omega
    | true =>
      obtain rfl : 1 = n := Option.some.inj hsize
      rw [← Except.ok.inj h]
      decide
  | _ => simp [hvalue, Value.number?] at hsize

theorem writes_value {value writer : String} (h : Width.scriptWrite e.size = .ok writer)
    (hv : value ∈ [s!"this.{getterName e.name}()", held e]) :
    Writes e (written [s!"{bytesOf e}{writer}({value});"]) (.fixed e.size) := by
  rcases scriptWrite_cases h with rfl | ⟨n, hlisted, hsize⟩
  · exact .inr ⟨h, value, hv, by simp only [toString, String.append_empty]⟩
  · exact .inl ⟨n, writer, [], value, hlisted, hsize, rfl⟩

theorem writes_number {writer : String} (before : List String) (value : String) (hn : IsNumber e)
    (h : Width.scriptWrite e.size = .ok writer) :
    Writes e (written (before ++ [s!"{bytesOf e}{writer}({value});"])) (.fixed e.size) := by
  obtain ⟨n, hlisted, hsize⟩ := scriptWrite_of_isNumber hn h
  exact .inl ⟨n, writer, before, value, hlisted, hsize, rfl⟩

theorem reads_load (h : load s e = .ok code) (hk : e.kind ≠ .unknown) :
    Reads e code (taken s e) := by
  obtain ⟨lines, hlines, rfl⟩ := return_eq_ok.1 h
  clear h
  unfold taken
  cases hkind : e.kind with
  | simple | sizeField =>
    simp only [readLines, hkind] at hlines
    obtain ⟨read, hread, hlines⟩ := bind_eq_ok.1 hlines
    rw [← Except.ok.inj hlines]
    exact ⟨_, read, _, hread, rfl⟩
  | flags =>
    simp only [readLines, hkind] at hlines
    obtain ⟨read, hread, hlines⟩ := bind_eq_ok.1 hlines
    rw [← Except.ok.inj hlines]
    exact ⟨_, read, _, hread, rfl⟩
  | buffer =>
    simp only [readLines, hkind] at hlines
    rw [← Except.ok.inj hlines]
    exact ⟨_, _, rfl⟩
  | array =>
    by_cases he : e.baseType.isEnum = true
    · simp only [readLines, hkind, he, if_true] at hlines ⊢
      rw [← Except.ok.inj hlines]
      exact ⟨rfl, _, _, rfl⟩
    · simp only [readLines, hkind, he, Bool.false_eq_true, if_false] at hlines ⊢
      rw [← Except.ok.inj hlines]
      exact ⟨_, _, _, .inr ⟨rfl, rfl⟩⟩
  | fillArray | varArray =>
    simp only [readLines, hkind] at hlines
    rw [← Except.ok.inj hlines]
    exact ⟨_, _, _, .inl ⟨_, rfl⟩⟩
  | custom =>
    by_cases hb : e.readBefore = true
    · simp only [readLines, hkind, hb, if_true] at hlines ⊢
      obtain ⟨condition, -, hlines⟩ := bind_eq_ok.1 hlines
      rw [← Except.ok.inj hlines]
      exact ⟨_, _, _, rfl⟩
    · by_cases he : e.baseType.isEnum = true
      · simp only [readLines, hkind, hb, he, Bool.false_eq_true, if_false, if_true] at hlines ⊢
        obtain ⟨read, hread, hlines⟩ := bind_eq_ok.1 hlines
        rw [← Except.ok.inj hlines]
        exact ⟨_, read, _, hread, rfl⟩
      · simp only [readLines, hkind, hb, he, Bool.false_eq_true, if_false] at hlines ⊢
        rw [← Except.ok.inj hlines]
        exact ⟨_, _, _, rfl⟩
  | unknown => exact absurd hkind hk

theorem measures_size (h : size s e = .ok code) (hk : e.kind.isArray = true) :
    Measures e code (measured s e) := by
  have hcode := Except.ok.inj h
  rw [← hcode]
  unfold measured isEnumArray
  cases hkind : e.kind with
  | array => by_cases he : e.baseType.isEnum = true <;> simp [he, Measures]
  | fillArray | varArray => simp [Measures]
  | _ => simp [hkind, Kind.isArray] at hk

theorem writeList_call : "GeneratorUtils.writeList(" = "GeneratorUtils." ++ ("writeList" ++ "(") := rfl

theorem writeListEnum_call :
    "GeneratorUtils.writeListEnum(" = "GeneratorUtils." ++ ("writeListEnum" ++ "(") := rfl

/-- The length of an array as an expression of its own. -/
def lengthOf (name : String) : String := s!"this.{name}.length"

theorem count_line (bytes writer name : String) :
    s!"{bytes}{writer}(this.{name}.length);" = s!"{bytes}{writer}({lengthOf name});" := by
  have hopen : "(this." = "(" ++ "this." := rfl
  have hclose : ".length);" = ".length" ++ ");" := rfl
  simp only [lengthOf, toString, hopen, hclose, String.append_assoc]

theorem writes_serialize (h : serialize s m e = .ok code) (hfits : Fits m e) :
    Writes e code (put s e) := by
  obtain ⟨lines, hlines, rfl⟩ := return_eq_ok.1 h
  clear h
  unfold put
  cases hkind : e.kind with
  | simple =>
    have hname : (m.name == "Receipt") = false := by simpa using hfits.named hkind
    by_cases hr : e.isReserved = true
    · simp only [writeLines, hkind, hr, if_true] at hlines
      obtain ⟨writer, hwriter, hlines⟩ := bind_eq_ok.1 hlines
      rw [← Except.ok.inj hlines]
      exact writes_number [] "0" (hfits.number (.inr (.inr ⟨hkind, hr⟩))) hwriter
    · simp only [writeLines, hkind, hr, hname, Bool.false_and, Bool.false_eq_true, if_false] at hlines
      obtain ⟨writer, hwriter, hlines⟩ := bind_eq_ok.1 hlines
      rw [← Except.ok.inj hlines]
      exact writes_value hwriter List.mem_cons_self
  | sizeField =>
    simp only [writeLines, hkind] at hlines
    obtain ⟨array, -, hlines⟩ := bind_eq_ok.1 hlines
    by_cases hv : array.isVar = true
    · simp only [hv, if_true] at hlines
      obtain ⟨name, -, hlines⟩ := bind_eq_ok.1 hlines
      obtain ⟨writer, hwriter, hlines⟩ := bind_eq_ok.1 hlines
      rw [← Except.ok.inj hlines]
      exact writes_number [_] e.name (hfits.number (.inl hkind)) hwriter
    · simp only [hv, Bool.false_eq_true, if_false] at hlines
      obtain ⟨writer, hwriter, hlines⟩ := bind_eq_ok.1 hlines
      obtain ⟨name, -, hlines⟩ := bind_eq_ok.1 hlines
      rw [← Except.ok.inj hlines, count_line]
      exact writes_number [] (lengthOf name.spell) (hfits.number (.inl hkind)) hwriter
  | flags =>
    simp only [writeLines, hkind] at hlines
    obtain ⟨writer, hwriter, hlines⟩ := bind_eq_ok.1 hlines
    rw [← Except.ok.inj hlines]
    exact writes_number [] s!"GeneratorUtils.fromFlags({e.className}, {held e})"
      (hfits.number (.inr (.inl hkind))) hwriter
  | buffer | fillArray | varArray =>
    simp only [writeLines, hkind] at hlines
    rw [← Except.ok.inj hlines]
    rfl
  | array =>
    by_cases he : e.baseType.isEnum = true
    · simp only [writeLines, hkind, he, if_true] at hlines ⊢
      rw [← Except.ok.inj hlines]
      refine ⟨rfl, ?_⟩
      simp only [written, bytesOf, toString, String.append_assoc, writeListEnum_call]
    · simp only [writeLines, hkind, he, Bool.false_eq_true, if_false] at hlines ⊢
      rw [← Except.ok.inj hlines]
      simp only [Writes, written, bytesOf, toString, String.append_assoc, writeList_call]
  | custom =>
    by_cases he : e.baseType.isEnum = true
    · simp only [writeLines, hkind, he, if_true] at hlines ⊢
      obtain ⟨writer, hwriter, hlines⟩ := bind_eq_ok.1 hlines
      rw [← Except.ok.inj hlines]
      exact writes_value hwriter (List.mem_cons_of_mem _ List.mem_cons_self)
    · simp only [writeLines, hkind, he, Bool.false_eq_true, if_false] at hlines ⊢
      rw [← Except.ok.inj hlines]
      rfl
  | unknown => exact absurd hkind hfits.known

end TypeScriptClass

namespace PythonClass

/-- Whether code reads an attribute and passes over so many bytes. Embedded transactions are read one by
one, each with its padding. -/
def Reads (e : Entry) (code : String) : Extent → Prop
  | .nothing => ∃ name value : String, code = statements [s!"{name} = {value}"]
  | .fixed size => ∃ name value : String,
      code = statements [s!"{name} = {value}", advance size.spell]
  | .buffer => ∃ name : String, ∃ count ∈ [e.size.spell, Text.camelToSnake e.size.spell],
      code = statements [s!"{name} = GeneratorUtils.get_bytes(bytes_, {count})  # kind:BUFFER",
        advance count]
  | .object => ∃ name item rest : String, ∃ middle last, code = statements
      (s!"{name} = {item}(bytes_)  # kind:{rest}" :: middle ++ advance s!"{name}.get_size()" :: last)
  | .elements padding =>
      (padding = 0 ∧ ∃ first items count item appended : String, code = statements
        [first, s!"for _ in range({count}):", s!"    item = {item}(bytes_)",
          s!"    {items}.append({appended})", "    " ++ advance "item.get_size()"]) ∨
      (padding = 0 ∧ ∃ first item items : String, ∃ last, code = statements (first ::
        s!"bytes_ = GeneratorUtils.load_from_binary({item}, {items}, bytes_, len(bytes_))" :: last)) ∨
      (padding = 8 ∧ ∃ first aggregate count : String, code = statements [first,
        s!"bytes_ = {aggregate}._load_embedded_transactions(transactions, bytes_, {count})"])
  | .numbers _ _ => False

/-- Whether code appends so many bytes for an attribute. -/
def Writes (code : String) : Extent → Prop
  | .fixed size => ∃ before, ∃ value mark : String, code = statements
      (before ++ [concat s!"GeneratorUtils.uint_to_buffer({value}, {size.spell})" ++ mark])
  | .buffer => ∃ object : String, code = statements [concat object ++ "  # kind:BUFFER"]
  | .object => ∃ object : String,
      code = statements [concat s!"{object}.serialize()" ++ "  # kind:CUSTOM"]
  | .elements padding =>
      (padding = 0 ∧ ∃ object item : String, code = statements
        [s!"for _ in {object}: # kind:ARRAY|FILL_ARRAY", "    " ++ concat s!"{item}.serialize()"]) ∨
      (padding = 8 ∧ ∃ object : String, code = statements
        [s!"for _ in {object}: # kind:VAR_ARRAY", "    " ++ concat "self._serialize_aligned(_)"])
  | _ => False

/-- The bytes that are read for an attribute. -/
def taken (e : Entry) : Extent :=
  match e.kind with
  | .simple | .sizeField | .flags => .fixed e.size
  | .buffer => .buffer
  | .custom => if e.readBefore then .nothing else .object
  | .array | .fillArray => .elements 0
  | .varArray => .elements 8
  | .unknown => .nothing

/-- The bytes that are written for an attribute. -/
def put (e : Entry) : Extent :=
  match e.kind with
  | .simple | .sizeField | .flags => .fixed e.size
  | .buffer => .buffer
  | .custom => .object
  | .array | .fillArray => .elements 0
  | .varArray => .elements 8
  | .unknown => .nothing

variable {s : Schema} {m : ClassModel} {e : Entry} {code : String}

theorem append_item : ".append(item)" = ".append(" ++ ("item" ++ ")") := rfl

theorem reads_load (h : load s m e = .ok code) (hk : e.kind ≠ .unknown) :
    Reads e code (taken e) := by
  obtain rfl := Except.ok.inj h
  clear h
  unfold taken
  cases hkind : e.kind with
  | simple =>
    refine ⟨e.name, fromBuffer e ++ "  # kind:SIMPLE", ?_⟩
    simp only [toString, String.append_assoc]
  | sizeField =>
    refine ⟨e.name, fromBuffer e ++ "  # kind:SIZE_FIELD", ?_⟩
    simp only [toString, String.append_assoc]
  | flags =>
    refine ⟨e.name, s!"{e.className}.bytesToFlags(bytes_, {e.size.spell})  # kind:FLAGS", ?_⟩
    simp only [toString, String.append_assoc]
  | buffer => exact ⟨e.name, e.size.spell, List.mem_cons_self, rfl⟩
  | array =>
    refine .inl ⟨rfl, s!"{e.name}: {e.varType} = []  # kind:ARRAY", e.name, e.size.spell,
      s!"{e.className}.load_from_binary", "item", ?_⟩
    simp only [toString, String.append_assoc, append_item]
  | fillArray => exact .inr (.inl ⟨rfl, _, _, _, [], rfl⟩)
  | varArray => exact .inr (.inr ⟨rfl, _, _, _, rfl⟩)
  | custom =>
    by_cases hb : e.readBefore = true
    · simp only [hb, if_true]
      generalize ((s.attributeAt e.site).get? "condition").getD .null = condition
      refine ⟨e.name, s!"{e.className}.load_from_binary({condition.spell}Condition)  # kind:CUSTOM3", ?_⟩
      have hopen : ".load_from_binary(" = ".load_from_binary" ++ "(" := rfl
      simp only [toString, String.append_assoc, hopen]
    · simp only [hb, Bool.false_eq_true, if_false]
      exact ⟨e.name, _, _, [], [], rfl⟩
  | unknown => exact absurd hkind hk

theorem for_self : "for _ in self." = "for _ in " ++ "self." := rfl

theorem each_item : "_.serialize()" = "_" ++ ".serialize()" := rfl

theorem writes_number (e : Entry) (value mark : String) :
    Writes (statements [concat (toBuffer value e) ++ mark]) (.fixed e.size) :=
  ⟨[], value, mark, rfl⟩

theorem writes_serialize (h : serialize s m e = .ok code) (hk : e.kind ≠ .unknown)
    (hm : e.kind = .simple → m.name ≠ "Receipt") : Writes code (put e) := by
  unfold put
  cases hkind : e.kind with
  | simple =>
    have hname : (m.name == "Receipt") = false := by simpa using hm hkind
    by_cases hr : e.isReserved = true
    · simp only [serialize, hkind, hr, if_true] at h
      rw [← Except.ok.inj h, ← String.append_empty (s := concat _)]
      exact writes_number e "0" ""
    · simp only [serialize, hkind, hr, hname, Bool.false_and, Bool.false_eq_true, if_false] at h
      rw [← Except.ok.inj h]
      exact writes_number e _ _
  | sizeField =>
    simp only [serialize, hkind] at h
    obtain ⟨array, -, h⟩ := bind_eq_ok.1 h
    obtain ⟨name, -, h⟩ := bind_eq_ok.1 h
    obtain ⟨shown, -, h⟩ := bind_eq_ok.1 h
    rw [← Except.ok.inj h]
    exact writes_number e _ _
  | flags =>
    simp only [serialize, hkind] at h
    rw [← Except.ok.inj h]
    exact writes_number e _ _
  | buffer =>
    simp only [serialize, hkind] at h
    exact ⟨s!"self.{e.name}", (Except.ok.inj h).symm⟩
  | custom =>
    simp only [serialize, hkind] at h
    exact ⟨s!"self.{e.name}", (Except.ok.inj h).symm⟩
  | array | fillArray =>
    simp only [serialize, hkind] at h
    refine .inl ⟨rfl, s!"self.{e.name}", "_", ?_⟩
    rw [← Except.ok.inj h]
    simp only [toString, String.append_assoc, for_self, each_item]
  | varArray =>
    simp only [serialize, hkind] at h
    refine .inr ⟨rfl, s!"self.{e.name}", ?_⟩
    rw [← Except.ok.inj h]
    simp only [toString, String.append_assoc, for_self]
  | unknown => exact absurd hkind hk

end PythonClass

namespace PythonTransaction
open PythonClass
variable {s : Schema} {m : ClassModel} {e : Entry} {code : String}

theorem countVariable_eq_ok {count : String} (h : countVariable e = .ok count) :
    count = Text.camelToSnake e.size.spell := by
  obtain ⟨name, hname, h⟩ := bind_eq_ok.1 h
  rw [← Except.ok.inj h, Value.eq_text_of_joined hname, Value.spell_text]

theorem reads_whole (name item mark member : String) :
    Reads e (statements [s!"{name}_ = {item}(bytes_)  # kind:{mark}", s!"{name} = {name}_.{member}",
      advance s!"{name}_.get_size()"]) .object := by
  have hname : "_ = " = "_" ++ " = " := rfl
  have hsize : "_.get_size()" = "_" ++ ".get_size()" := rfl
  refine ⟨name ++ "_", item, mark, [s!"{name} = {name}_.{member}"], [], ?_⟩
  simp only [toString, String.append_assoc, hname, hsize, List.cons_append, List.nil_append]

theorem reads_loadCustom (hk : e.kind = .custom) (h : load s m e = .ok code) :
    Reads e code (if e.readBefore then .nothing else .object) := by
  have hmark : "(bytes_)  # kind:CUSTOM1_nonbyte" = "(bytes_)  # kind:" ++ "CUSTOM1_nonbyte" := rfl
  obtain ⟨hbefore, held, -, rfl⟩ | ⟨hbefore, hlines⟩ := loadCustom_eq_ok hk h
  · generalize ((s.attributeAt e.site).get? "condition").getD .null = condition
    simp only [hbefore, if_true]
    refine ⟨snakeName e, s!"{e.className}.load_from_binary" ++
      s!"({condition.spell}Condition).{held}  # kind:CUSTOM3", ?_⟩
    simp only [toString, String.append_assoc]
  simp only [hbefore, Bool.false_eq_true, if_false]
  rcases hlines with ⟨mark, member, -, rfl⟩ | rfl | rfl
  · exact reads_whole _ _ _ _
  · have hbody : "body = " = "body" ++ " = " := rfl
    refine ⟨"body", e.className ++ ".load_from_binary", "CUSTOM1_nonbyte", [], [], ?_⟩
    simp only [toString, String.append_assoc, hbody, hmark, List.cons_append, List.nil_append]
    rfl
  · refine ⟨snakeName e, e.className ++ ".load_from_binary", "CUSTOM1_nonbyte", [],
      [s!"{snakeName e} = {snakeName e}.as_tuple()"], ?_⟩
    simp only [toString, String.append_assoc, hmark, List.cons_append, List.nil_append]

theorem reads_load (h : load s m e = .ok code) (hk : e.kind ≠ .unknown) :
    Reads e code (taken e) := by
  unfold taken
  cases hkind : e.kind with
  | simple =>
    simp only [load, hkind] at h
    refine ⟨snakeName e, fromBuffer e ++ "  # kind:SIMPLE", ?_⟩
    rw [← Except.ok.inj h]
    simp only [toString, String.append_assoc]
  | sizeField =>
    simp only [load, hkind] at h
    refine ⟨snakeName e, fromBuffer e ++ "  # kind:SIZE_FIELD", ?_⟩
    rw [← Except.ok.inj h]
    simp only [toString, String.append_assoc]
  | flags =>
    simp only [load, hkind] at h
    refine ⟨snakeName e, s!"{e.className}.bytesToFlags(bytes_, {e.size.spell})  # kind:FLAGS", ?_⟩
    rw [← Except.ok.inj h]
    simp only [toString, String.append_assoc]
  | buffer =>
    simp only [load, hkind] at h
    obtain ⟨count, hcount, h⟩ := bind_eq_ok.1 h
    rw [← Except.ok.inj h]
    exact ⟨snakeName e, count, by simp [countVariable_eq_ok hcount], rfl⟩
  | array =>
    obtain ⟨count, value, -, -, hcode⟩ := loadArray_eq_ok hkind h
    exact .inl ⟨rfl, _, _, _, _, value, hcode⟩
  | fillArray =>
    simp only [load, hkind] at h
    refine .inr (.inl ⟨rfl, s!"{snakeName e}_ = []", e.className, snakeName e ++ "_",
      [s!"{snakeName e} = list(map(lambda e: e.as_tuple(), {snakeName e}_))"], ?_⟩)
    have hrest : "_, bytes_, len(bytes_))" = "_" ++ ", bytes_, len(bytes_))" := rfl
    rw [← Except.ok.inj h]
    simp only [toString, String.append_assoc, hrest]
  | varArray =>
    simp only [load, hkind] at h
    obtain ⟨count, -, h⟩ := bind_eq_ok.1 h
    rw [← Except.ok.inj h]
    exact .inr (.inr ⟨rfl, _, _, _, rfl⟩)
  | custom => exact reads_loadCustom hkind h
  | unknown => exact absurd hkind hk

theorem writes_serialize (h : serialize s m e = .ok code) (hk : e.kind ≠ .unknown) :
    Writes code (put e) := by
  unfold put
  cases hkind : e.kind with
  | simple =>
    by_cases hr : e.isReserved = true
    · simp only [serialize, hkind, hr, if_true] at h
      rw [← Except.ok.inj h, ← String.append_empty (s := concat _)]
      exact writes_number e "0" ""
    · simp only [serialize, hkind, hr, Bool.false_eq_true, if_false] at h
      rw [← Except.ok.inj h]
      exact writes_number e _ _
  | sizeField =>
    simp only [serialize, hkind] at h
    obtain ⟨lines, -, h⟩ := bind_eq_ok.1 h
    rw [← Except.ok.inj h]
    exact ⟨lines, "size_value", _, rfl⟩
  | flags =>
    simp only [serialize, hkind] at h
    rw [← Except.ok.inj h]
    exact writes_number e _ _
  | buffer =>
    simp only [serialize, hkind] at h
    exact ⟨_, (Except.ok.inj h).symm⟩
  | custom =>
    simp only [serialize, hkind] at h
    exact ⟨_, (Except.ok.inj h).symm⟩
  | array | fillArray =>
    simp only [serialize, hkind] at h
    exact .inl ⟨rfl, _, restored e "_", (Except.ok.inj h).symm⟩
  | varArray =>
    simp only [serialize, hkind] at h
    exact .inr ⟨rfl, _, (Except.ok.inj h).symm⟩
  | unknown => exact absurd hkind hk

end PythonTransaction

end SchemaForge
