import SchemaForge.Builder.Field
import SchemaForge.Proofs.Reading
import SchemaForge.Proofs.Slots

/-! The types of the fields of a builder. What a setter takes and what the member holds are worked out
in different ways, and come to the same type. -/
namespace SchemaForge
open Checked Text

theorem Checked.require_eq_ok {α : Type} {key : Value} {found : Option α} {a : α} :
    Checked.require key found = .ok a ↔ found = some a := by
  cases found <;> simp [Checked.require]

theorem Value.eq_of_asKey {v key : Value} (h : v.asKey = .ok key) : v = key := by
  unfold Value.asKey at h
  split at h
  · exact Except.ok.inj h
  · cases h

namespace Hints

/-- The types that numbers have by their size. -/
def machineTypes : List String :=
  ["int8_t", "int16_t", "int32_t", "int64_t"].flatMap fun type => [type, "u" ++ type]

def isPlainText : Value → Bool
  | .text s => Text.isPlain s
  | _ => false

def isPlainList : Value → Bool
  | .list items => items.all isPlainText
  | _ => false

/-- The only namespace is that of the model, and no type of a number belongs to it. -/
def isModelTable : Value → Bool
  | .table entries => entries.all fun e => e.2 == "model" && !machineTypes.contains e.1
  | _ => false

/-- The name of the builder opens with a capital, and the hints are texts without marks. -/
def isRegular (name : String) : Hints → Bool
  | .table topics =>
    ((Text.dropEnd "Transaction".length name ++ "Builder").toList.head?).any Char.isUpper &&
      (topics.lookup "plugin").all isPlainText && (topics.lookup "includes").all isPlainList &&
      (topics.lookup "namespaces").all isModelTable
  | _ => false

/-- What holds of all hints that there are holds of those for each transaction. -/
theorem all_of_ofTransaction {test : String → Hints → Bool}
    (hall : (match collect (Hint.topics.map (·.1)) with
      | .ok all => all.all fun e => test e.1 e.2
      | .error _ => false) = true)
    {name : String} {hints : Hints} (h : ofTransaction name = .ok hints) : test name hints = true := by
  unfold ofTransaction at h
  cases hc : collect (Hint.topics.map (·.1)) with
  | error fault => simp [hc] at h
  | ok all =>
    rw [hc] at hall h
    cases hl : all.lookup name with
    | none => simp [hl, Checked.require] at h
    | some found =>
      obtain rfl : found = hints := by simpa [hl, Checked.require] using h
      obtain ⟨before, after, rfl, -⟩ := List.lookup_eq_some_iff.1 hl
      exact List.all_eq_true.1 hall (name, found) (by simp)

def isPlainAscii : Value → Bool
  | .text s => (asciiChars s).any (·.all (!isMark ·))
  | _ => false

/-- The same by the bytes of the name and of the plugin, which is quick where they are known. -/
def isRegularAscii (name : String) : Hints → Bool
  | .table topics =>
    (asciiChars name).any (fun cs => (cs.take (cs.length - 11)).head?.all Char.isUpper) &&
      (topics.lookup "plugin").all isPlainAscii && (topics.lookup "includes").all isPlainList &&
      (topics.lookup "namespaces").all isModelTable
  | _ => false

theorem isRegular_of_isRegularAscii {name : String} {hints : Hints}
    (h : isRegularAscii name hints = true) : isRegular name hints = true := by
  cases hints with
  | table topics =>
    simp only [isRegularAscii, isRegular, Bool.and_eq_true] at h ⊢
    obtain ⟨⟨⟨hname, hplugin⟩, hincludes⟩, hspaces⟩ := h
    refine ⟨⟨⟨?_, ?_⟩, hincludes⟩, hspaces⟩
    · have hhead := of_asciiChars hname
      have hlength : "Transaction".length = 11 := rfl
      rw [hlength, dropEnd, String.toList_append, String.toList_ofList, List.head?_append]
      cases hc : (name.toList.take (name.toList.length - 11)).head? with
      | none => rfl
      | some c => simpa [hc] using hhead
    · cases hl : topics.lookup "plugin" with
      | none => rfl
      | some plugin =>
        rw [hl] at hplugin
        cases plugin with
        | text s => exact of_asciiChars hplugin
        | _ => cases hplugin
  | _ => cases h

/-- The hints that there are for transactions. -/
theorem isRegular_of_ofTransaction {name : String} {hints : Hints}
    (h : ofTransaction name = .ok hints) : isRegular name hints = true :=
  isRegular_of_isRegularAscii (all_of_ofTransaction (by decide +kernel) h)

theorem isLine_of_isPlainText {v : Value} (h : isPlainText v = true) :
    isLine v.spell = true := by
  cases v with
  | text s => exact isLine_of_isPlain h
  | _ => cases h

theorem isPlainText_plugin {name : String} {hints : Hints} (h : isRegular name hints = true)
    {plugin : Value} (hp : hints.plugin = .ok plugin) : isPlainText plugin = true := by
  cases hints with
  | table topics =>
    simp only [isRegular, Bool.and_eq_true] at h
    have hlookup : topics.lookup "plugin" = some plugin := require_eq_ok.1 hp
    simpa [hlookup] using h.1.1.2
  | _ => cases h

theorem items_table (topics : List (String × Value)) (topic : String) :
    items (.table topics) topic = ((topics.lookup topic).map Value.items).getD (.ok []) := by
  have hhas : (Value.table topics).has topic = .ok (topics.lookup topic).isSome := rfl
  have hneed : (Value.table topics).need topic = Checked.require topic (topics.lookup topic) := rfl
  cases hl : topics.lookup topic <;> simp [items, hhas, hneed, hl, Checked.require]

theorem entry_table (topics : List (String × Value)) (topic : String) (key : Value) :
    entry (.table topics) topic key = ((topics.lookup topic).map fun table =>
      table.find key >>= fun found => pure (found.getD "")).getD (.ok "") := by
  have hhas : (Value.table topics).has topic = .ok (topics.lookup topic).isSome := rfl
  have hneed : (Value.table topics).need topic = Checked.require topic (topics.lookup topic) := rfl
  cases hl : topics.lookup topic <;> simp [entry, hhas, hneed, hl, Checked.require]

theorem isPlainText_includes {name : String} {hints : Hints} (h : isRegular name hints = true)
    {files : List Value} (hf : hints.items "includes" = .ok files) {file : Value}
    (hmem : file ∈ files) : isPlainText file = true := by
  cases hints with
  | table topics =>
    simp only [isRegular, Bool.and_eq_true] at h
    have hplain := h.1.2
    rw [items_table] at hf
    cases hl : topics.lookup "includes" with
    | none =>
      rw [hl] at hf
      obtain rfl := Except.ok.inj hf
      cases hmem
    | some listed =>
      rw [hl] at hf hplain
      cases listed with
      | list all =>
        obtain rfl := Except.ok.inj hf
        exact List.all_eq_true.1 hplain file hmem
      | _ => cases hplain
  | _ => cases h

/-- An entry is the empty text, or stands in the table of its topic. -/
theorem entry_cases {topics : List (String × Value)} {topic : String} {key v : Value} :
    entry (.table topics) topic key = .ok v → v = "" ∨
      ∃ table, topics.lookup topic = some table ∧ table.find key = .ok (some v) := by
  intro h
  rw [entry_table] at h
  cases hl : topics.lookup topic with
  | none =>
    rw [hl] at h
    exact .inl (Except.ok.inj h).symm
  | some table =>
    rw [hl] at h
    obtain ⟨found, hfound, rfl⟩ := return_eq_ok.1 h
    cases found with
    | none => exact .inl rfl
    | some v => exact .inr ⟨table, rfl, hfound⟩

/-- The namespace of a type, if it has one. -/
theorem entry_namespaces {name : String} {hints : Hints} (h : isRegular name hints = true)
    {type space : Value} (hs : hints.entry "namespaces" type = .ok space) :
    space = "" ∨ space = "model" ∧ ∀ t ∈ machineTypes, type ≠ .text t := by
  cases hints with
  | table topics =>
    simp only [isRegular, Bool.and_eq_true] at h
    rcases entry_cases hs with rfl | ⟨table, hl, hfound⟩
    · exact .inl rfl
    · have hmodel := h.2
      rw [hl] at hmodel
      cases table with
      | table types =>
        obtain ⟨key, hkey, hf⟩ := bind_eq_ok.1 hfound
        obtain rfl := Value.eq_of_asKey hkey
        obtain ⟨t, ht, hlookup⟩ := Option.bind_eq_some_iff.1 (Except.ok.inj hf)
        obtain ⟨before, after, rfl, -⟩ := List.lookup_eq_some_iff.1 hlookup
        have hmem := List.all_eq_true.1 hmodel (t, space) (by simp)
        simp only [Bool.and_eq_true, Bool.not_eq_true', List.contains_eq_mem,
          decide_eq_false_iff_not] at hmem
        refine .inr ⟨Value.eq_text_of_beq hmem.1, ?_⟩
        rintro t' ht' rfl
        obtain rfl : t' = t := by simpa [Value.text?] using ht
        exact hmem.2 ht'
      | _ => cases hmodel
  | _ => cases h

end Hints

theorem Value.find_of_need {v found : Value} {key : String} (h : v.need key = .ok found) :
    v.find (.text key) = .ok (some found) := by
  cases v with
  | table entries =>
    have hlookup : entries.lookup key = some found := by
      cases hl : entries.lookup key with
      | none => simp [Value.need, Record.need, Record.get?, hl, Checked.require] at h
      | some w => simpa [Value.need, Record.need, Record.get?, hl, Checked.require] using h
    exact congrArg Except.ok hlookup
  | _ => cases h

theorem Value.has_of_need {v found : Value} {key : String} (h : v.need key = .ok found) :
    v.has key = .ok true := by
  cases v with
  | table entries =>
    have hlookup : entries.lookup key = some found := require_eq_ok.1 h
    have hhas : (Value.table entries).has key = .ok (entries.lookup key).isSome := rfl
    rw [hhas, hlookup, Option.isSome_some]
  | _ => cases h

theorem mem_of_machineType {size signedness : Value} {type : String}
    (h : machineType size signedness = .ok type) :
    type ∈ Hints.machineTypes ∧ ∃ n, size.number? = some n ∧ 0 < n := by
  unfold machineType Target.sized at h
  obtain ⟨base, hbase, htype⟩ := bind_eq_ok.1 h
  obtain ⟨key, hkey, hfound⟩ := bind_eq_ok.1 hbase
  obtain rfl := Value.eq_of_asKey hkey
  obtain ⟨n, hn, hlookup⟩ := Option.bind_eq_some_iff.1 (require_eq_ok.1 hfound)
  obtain ⟨before, after, htable, -⟩ := List.lookup_eq_some_iff.1 hlookup
  have hmem : (n, base) ∈ [((1 : Int), "int8_t"), (2, "int16_t"), (4, "int32_t"), (8, "int64_t")] := by
    simp [htable]
  obtain rfl := Except.ok.inj htype
  simp only [List.mem_cons, Prod.mk.injEq, List.not_mem_nil, or_false] at hmem
  refine ⟨?_, n, hn, ?_⟩
  · rcases hmem with ⟨-, rfl⟩ | ⟨-, rfl⟩ | ⟨-, rfl⟩ | ⟨-, rfl⟩ <;> split <;> decide
  · rcases hmem with ⟨rfl, -⟩ | ⟨rfl, -⟩ | ⟨rfl, -⟩ | ⟨rfl, -⟩ <;> decide

namespace Builder
variable {b : Builder}

/-- A parameter of a type, by value or by reference. -/
def Passes (param type : String) : Prop := param = type ∨ param = "const " ++ type ++ "&"

theorem passes_of_paramType {type size signedness : Value} {name param : String}
    (hn : isPlainNumber type size = .ok false) (hq : b.qualified type = .ok name)
    (h : b.paramType type size signedness = .ok param) : Passes param name := by
  unfold paramType at h
  rw [hn, hq] at h
  simp only [ok_bind, Bool.false_eq_true, if_false] at h
  obtain ⟨declared, -, h⟩ := bind_eq_ok.1 h
  obtain ⟨sort, -, h⟩ := bind_eq_ok.1 h
  have hother : ∀ {p}, (pure (if sort.isEnum then name else s!"const {name}&") : Checked String) =
      .ok p → Passes p name := by
    intro p hp
    obtain rfl := Except.ok.inj hp
    split
    · exact .inl rfl
    · exact .inr rfl
  split at h
  · obtain ⟨size, -, h⟩ := bind_eq_ok.1 h
    obtain ⟨isNumber, -, h⟩ := bind_eq_ok.1 h
    split at h
    · exact .inl (Except.ok.inj h).symm
    · exact hother h
  · exact hother h

theorem isSizedNumber_some {type size : Value} (h : size.isText = false) :
    isSizedNumber type (some size) = isMachineNumber type size := by
  cases size with
  | text t => cases h
  | _ => rfl

theorem isPlainNumber_eq_false {type signedness : Value} {size : Option Value} {param : String}
    (hn : isSizedNumber type size = .ok false)
    (h : b.paramType type (size.getD (.int 0)) signedness = .ok param) :
    isPlainNumber type (size.getD (.int 0)) = .ok false := by
  obtain ⟨isNumber, hplain, -⟩ := bind_eq_ok.1 h
  cases size with
  | none => rfl
  | some size =>
    cases htext : size.isText with
    | true => simp [isPlainNumber, htext]
    | false =>
      rw [isSizedNumber_some htext] at hn
      rw [Option.getD_some] at hplain ⊢
      simp only [isPlainNumber, htext, Bool.false_eq_true, if_false, hn] at hplain ⊢
      obtain ⟨n, hcompared, -⟩ := bind_eq_ok.1 hplain
      rw [hcompared, ok_bind]
      split <;> rfl

/-- A type as it is, or in the namespace of the model. -/
theorem qualified_eq_ok (hb : Hints.isRegular b.transaction b.hints = true) {type : Value}
    {name : String} (h : b.qualified type = .ok name) : ∃ t, type = .text t ∧
      (name = t ∨ name = "model::" ++ t ∧ t ∉ Hints.machineTypes) := by
  obtain ⟨entry, hentry, h⟩ := bind_eq_ok.1 h
  obtain ⟨space, hspace, h⟩ := bind_eq_ok.1 h
  obtain ⟨t, ht, h⟩ := bind_eq_ok.1 h
  obtain rfl := Value.eq_text_of_joined ht
  obtain rfl := Value.eq_text_of_joined hspace
  obtain rfl := Except.ok.inj h
  refine ⟨t, rfl, ?_⟩
  rcases Hints.entry_namespaces hb hentry with hs | ⟨hs, hmachine⟩
  · left
    obtain rfl : space = "" := by simpa using hs
    simp
  · right
    obtain rfl : space = "model" := by simpa using hs
    exact ⟨rfl, fun hmem => hmachine t hmem rfl⟩

/-- The setter of a field takes what the member holds, by value or by reference. -/
theorem passes_of_heldType (hb : Hints.isRegular b.transaction b.hints = true) {v : Value}
    {held param : String} (hheld : b.heldType v = .ok held) (hparam : b.valueType v = .ok param) :
    Passes param held := by
  obtain ⟨type, htype, hheld⟩ := bind_eq_ok.1 hheld
  obtain ⟨size, hsize, hheld⟩ := bind_eq_ok.1 hheld
  obtain ⟨isNumber, hnumber, hheld⟩ := bind_eq_ok.1 hheld
  unfold valueType at hparam
  rw [htype, hsize] at hparam
  simp only [ok_bind] at hparam
  obtain ⟨signed, hsigned, hparam⟩ := bind_eq_ok.1 hparam
  cases isNumber with
  | false => exact passes_of_paramType (isPlainNumber_eq_false hnumber hparam) hheld hparam
  | true =>
    obtain ⟨signedness, hs, hheld⟩ := bind_eq_ok.1 hheld
    obtain ⟨machine, hmachine, hheld⟩ := bind_eq_ok.1 hheld
    obtain ⟨hmem, n, hn, hpos⟩ := mem_of_machineType hmachine
    obtain ⟨t, ht, hname⟩ := qualified_eq_ok hb hheld
    obtain rfl : machine = t := by simpa using ht
    obtain rfl : held = machine := by
      rcases hname with hname | ⟨-, hother⟩
      · exact hname
      · exact absurd hmem hother
    obtain rfl : signed = some signedness :=
      (Except.ok.inj ((Value.find_of_need hs).symm.trans hsigned)).symm
    cases size with
    | none => cases hnumber
    | some size =>
      have hplain : isPlainNumber type size = .ok true := by
        have htext : size.isText = false := by
          cases size with
          | text t => cases hn
          | _ => rfl
        have hcompared : size.compared = .ok n := by
          rw [Option.getD_some] at hn
          rw [Value.compared, hn]
        rw [isSizedNumber_some htext] at hnumber
        simp [isPlainNumber, htext, hcompared, hpos, hnumber]
      rw [Option.getD_some, Option.getD_some, paramType, hplain] at hparam
      exact .inl (Except.ok.inj (hparam.symm.trans hmachine))

section
variable {p : Char → Bool} (hp : ∀ c, p c = false → Text.isMark c = true)
include hp

/-! What only marks can fail holds of the types of fields if it holds of the types in the schema. -/

theorem all_machineType {size signedness : Value} {type : String}
    (h : machineType size signedness = .ok type) : type.toList.all p = true := by
  have hall : ∀ t ∈ Hints.machineTypes, isPlain t = true := by decide
  exact all_of_isPlain hp (hall type (mem_of_machineType h).1)

theorem all_qualified (hb : Hints.isRegular b.transaction b.hints = true) {type : Value}
    (ht : ∀ t, type = .text t → t.toList.all p = true) {name : String}
    (h : b.qualified type = .ok name) : name.toList.all p = true := by
  obtain ⟨t, rfl, hcases⟩ := qualified_eq_ok hb h
  rcases hcases with rfl | ⟨rfl, -⟩
  · exact ht name rfl
  · rw [String.toList_append, List.all_append, ht t rfl, all_of_isPlain hp rfl]
    rfl

theorem all_heldType (hb : Hints.isRegular b.transaction b.hints = true) {v : Value}
    (ht : ∀ t, v.need "type" = .ok (.text t) → t.toList.all p = true) {held : String}
    (h : b.heldType v = .ok held) : held.toList.all p = true := by
  obtain ⟨type, htype, h⟩ := bind_eq_ok.1 h
  obtain ⟨size, -, h⟩ := bind_eq_ok.1 h
  obtain ⟨isNumber, -, h⟩ := bind_eq_ok.1 h
  split at h
  · obtain ⟨signedness, -, h⟩ := bind_eq_ok.1 h
    obtain ⟨machine, hmachine, h⟩ := bind_eq_ok.1 h
    apply all_qualified hp hb _ h
    rintro _ ⟨⟩
    exact all_machineType hp hmachine
  · apply all_qualified hp hb _ h
    rintro t rfl
    exact ht t htype

theorem all_of_passes {param name : String} (h : Passes param name) (hn : name.toList.all p = true) :
    param.toList.all p = true := by
  rcases h with rfl | rfl
  · exact hn
  · rw [String.toList_append, String.toList_append, List.all_append, List.all_append, hn,
      all_of_isPlain hp rfl, all_of_isPlain hp rfl]
    rfl

theorem all_valueType (hb : Hints.isRegular b.transaction b.hints = true) {v : Value}
    (ht : ∀ t, v.need "type" = .ok (.text t) → t.toList.all p = true) {param : String}
    (h : b.valueType v = .ok param) : param.toList.all p = true := by
  obtain ⟨type, htype, h⟩ := bind_eq_ok.1 h
  obtain ⟨size, -, h⟩ := bind_eq_ok.1 h
  obtain ⟨signedness, -, h⟩ := bind_eq_ok.1 h
  cases hplain : isPlainNumber type (size.getD (.int 0)) with
  | error fault => simp [paramType, hplain] at h
  | ok isNumber =>
    cases isNumber with
    | true =>
      simp only [paramType, hplain, ok_bind, if_true] at h
      exact all_machineType hp h
    | false =>
      obtain ⟨name, hname⟩ : ∃ name, b.qualified type = .ok name := by
        simp only [paramType, hplain, ok_bind, Bool.false_eq_true, if_false] at h
        obtain ⟨declared, -, h⟩ := bind_eq_ok.1 h
        obtain ⟨name, hname, -⟩ := bind_eq_ok.1 h
        exact ⟨name, hname⟩
      apply all_of_passes hp (passes_of_paramType hplain hname h)
      apply all_qualified hp hb _ hname
      rintro t rfl
      exact ht t htype

end

theorem memberType_eq_ok {v : Value} {type : String} (h : b.memberType v = .ok type) :
    ∃ kind held, v.fieldKind = .ok kind ∧ b.heldType v = .ok held ∧
      (kind = .simple ∧ type = held ∨ kind = .buffer ∧ type = "std::vector<uint8_t>" ∨
        kind = .vector ∧ type = "std::vector<" ++ held ++ ">") := by
  obtain ⟨kind, hkind, h⟩ := bind_eq_ok.1 h
  obtain ⟨held, hheld, h⟩ := bind_eq_ok.1 h
  refine ⟨kind, held, hkind, hheld, ?_⟩
  cases kind with
  | simple => exact .inl ⟨rfl, (Except.ok.inj h).symm⟩
  | buffer => exact .inr (.inl ⟨rfl, (Except.ok.inj h).symm⟩)
  | vector => exact .inr (.inr ⟨rfl, (Except.ok.inj h).symm⟩)
  | unknown => cases h

/-- The setter of a field of each kind that has one. -/
theorem setter_eq_ok {v : Value} {kind : FieldKind} {setter : Setter} {name : String}
    (hn : v.need "name" = .ok (.text name)) (h : b.setter kind v = .ok setter) :
    kind = .simple ∧ b.valueType v = .ok setter.type ∧ setter.verb = "set" ∧
        setter.param = .text name ∨
      kind = .buffer ∧ setter.type = "const RawBuffer&" ∧ setter.verb = "set" ∧
        setter.param = .text name ∨
      kind = .vector ∧ b.valueType v = .ok setter.type ∧ setter.verb = "add" ∧
        setter.param = .text (Text.singular name) := by
  cases kind with
  | simple =>
    obtain ⟨type, htype, h⟩ := bind_eq_ok.1 h
    rw [hn] at h
    obtain rfl := Except.ok.inj h
    exact .inl ⟨rfl, htype, rfl, rfl⟩
  | buffer =>
    obtain ⟨type, -, h⟩ := bind_eq_ok.1 h
    split at h
    · cases h
    · rw [hn] at h
      obtain rfl := Except.ok.inj h
      exact .inr (.inl ⟨rfl, rfl, rfl, rfl⟩)
  | vector =>
    obtain ⟨type, htype, h⟩ := bind_eq_ok.1 h
    rw [hn] at h
    obtain rfl := Except.ok.inj h
    exact .inr (.inr ⟨rfl, htype, rfl, rfl⟩)
  | unknown => cases h

section
variable {p : Char → Bool} (hp : ∀ c, p c = false → Text.isMark c = true)
include hp

theorem all_memberType (hb : Hints.isRegular b.transaction b.hints = true) {v : Value}
    (ht : ∀ t, v.need "type" = .ok (.text t) → t.toList.all p = true) {type : String}
    (h : b.memberType v = .ok type) : type.toList.all p = true := by
  obtain ⟨kind, held, -, hheld, hcases⟩ := memberType_eq_ok h
  have hall := all_heldType hp hb ht hheld
  rcases hcases with ⟨-, rfl⟩ | ⟨-, rfl⟩ | ⟨-, rfl⟩
  · exact hall
  · exact all_of_isPlain hp rfl
  · have hopen : "std::vector<".toList.all p = true := all_of_isPlain hp rfl
    have hclose : ">".toList.all p = true := all_of_isPlain hp rfl
    simp only [String.toList_append, List.all_append, hall, hopen, hclose, Bool.and_true]

/-- What a setter takes, and the name of its parameter. -/
theorem all_setter (hb : Hints.isRegular b.transaction b.hints = true) {v : Value}
    (ht : ∀ t, v.need "type" = .ok (.text t) → t.toList.all p = true) {name : String}
    (hn : v.need "name" = .ok (.text name)) (hname : name.toList.all p = true) {kind : FieldKind}
    {setter : Setter} (h : b.setter kind v = .ok setter) :
    (setter.verb.toList.all p = true ∧ setter.type.toList.all p = true) ∧
      ∃ param, setter.param = .text param ∧ param.toList.all p = true := by
  have hy : p 'y' = true := by
    cases hpy : p 'y' with
    | true => rfl
    | false => exact absurd (hp 'y' hpy) (by decide)
  rcases setter_eq_ok hn h with
    ⟨-, htype, hverb, hparam⟩ | ⟨-, htype, hverb, hparam⟩ | ⟨-, htype, hverb, hparam⟩
  · exact ⟨⟨hverb ▸ all_of_isPlain hp rfl, all_valueType hp hb ht htype⟩, name, hparam, hname⟩
  · exact ⟨⟨hverb ▸ all_of_isPlain hp rfl, htype ▸ all_of_isPlain hp rfl⟩, name, hparam,
      hname⟩
  · exact ⟨⟨hverb ▸ all_of_isPlain hp rfl, all_valueType hp hb ht htype⟩, _, hparam,
      all_singular hy hname⟩

theorem all_signature (hb : Hints.isRegular b.transaction b.hints = true) {v : Value}
    (ht : ∀ t, v.need "type" = .ok (.text t) → t.toList.all p = true) {name : String}
    (hn : v.need "name" = .ok (.text name)) (hname : name.toList.all p = true) {kind : FieldKind}
    {setter : Setter} {text : String} (hsetter : b.setter kind v = .ok setter)
    (h : signature setter.verb setter.type setter.param = .ok text) :
    text.toList.all p = true ∧ setter.param.spell.toList.all p = true := by
  obtain ⟨⟨hverb, htype⟩, param, hparam, hall⟩ := all_setter hp hb ht hn hname hsetter
  obtain ⟨method, hmethod, h⟩ := bind_eq_ok.1 h
  obtain ⟨upper, hupper, rfl⟩ := return_eq_ok.1 hmethod
  obtain rfl := Except.ok.inj h
  rw [hparam, Value.upperFirst_text] at hupper
  obtain rfl := Except.ok.inj hupper
  have hmethod := all_upperFirst hp hall
  have hopen : "(".toList.all p = true := all_of_isPlain hp rfl
  have hblank : " ".toList.all p = true := all_of_isPlain hp rfl
  have hclose : ")".toList.all p = true := all_of_isPlain hp rfl
  refine ⟨?_, by rw [hparam]; exact hall⟩
  simp only [hparam, toString, Value.spell_text, String.toList_append, List.all_append, hverb, hmethod,
    htype, hall, hopen, hblank, hclose, Bool.and_true]

end

theorem mem_of_findNamed {fields : List Value} {name q : Value}
    (h : findNamed name fields = .ok q) : q ∈ fields := by
  induction fields with
  | nil => cases h
  | cons v rest ih =>
    obtain ⟨named, -, h⟩ := bind_eq_ok.1 h
    split at h
    · obtain rfl := Except.ok.inj h
      simp
    · exact List.mem_cons_of_mem _ (ih h)

end Builder
end SchemaForge
