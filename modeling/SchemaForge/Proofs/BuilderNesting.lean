import SchemaForge.Proofs.FieldWriting
import SchemaForge.Proofs.Nesting

/-! The files of a builder are well nested. If the texts of the schema that go into them have no braces,
then the braces of each file are balanced, and each of its sections comes back to the indentation from
which it started. -/
namespace SchemaForge
open Checked

/-- The texts of a field that go into the files of a builder have no braces. -/
def Value.Braceless (v : Value) : Prop :=
  ∀ key ∈ ["name", "type", "comments", "sort_key", "condition", "condition_value"], ∀ w,
    v.need key = .ok w → Text.isBraceless w.spell = true

instance : DecidablePred Value.Braceless := fun v =>
  inferInstanceAs (Decidable (∀ key ∈ ["name", "type", "comments", "sort_key", "condition",
    "condition_value"], ∀ w, v.need key = .ok w → Text.isBraceless w.spell = true))

theorem Value.isBraceless_spell_upperFirst {v upper : Value} (hv : Text.isBraceless v.spell = true)
    (h : v.upperFirst = .ok upper) : Text.isBraceless upper.spell = true := by
  cases v with
  | text s =>
    rw [Value.upperFirst_text] at h
    obtain rfl := Except.ok.inj h
    exact Text.isBraceless_upperFirst hv
  | _ =>
    unfold Value.upperFirst Value.changeFirst at h
    split at h
    · obtain rfl := Except.ok.inj h
      exact hv
    · obtain ⟨first, -, h⟩ := bind_eq_ok.1 h
      obtain ⟨text, -, h⟩ := bind_eq_ok.1 h
      cases h

namespace Hints

/-- The name of the transaction has no braces, and what fields are set to closes those that it opens. -/
def isNested (name : String) : Hints → Bool
  | .table topics => (Text.asciiChars name).any (·.all fun c => c != '{' && c != '}') &&
      (topics.lookup "setters").all (isTableOf fun v => Text.levelAfter 0 v.spell == some 0)
  | _ => false

theorem isNested_of_ofTransaction {name : String} {hints : Hints}
    (h : ofTransaction name = .ok hints) : isNested name hints = true :=
  all_of_ofTransaction (by decide +kernel) h

theorem isBraceless_of_isNested {name : String} {hints : Hints} (h : isNested name hints = true) :
    Text.isBraceless name = true := by
  cases hints with
  | table topics => exact Text.of_asciiChars (Bool.and_eq_true_iff.1 h).1
  | _ => cases h

theorem level_of_entry_setters {name transaction : String} {hints : Hints} {v : Value}
    (h : isNested transaction hints = true) (hv : hints.entry "setters" (.text name) = .ok v) :
    Text.level 0 v.spell.toList = some 0 := by
  cases hints with
  | table topics =>
    simp only [isNested, Bool.and_eq_true] at h
    obtain ⟨found, hfound, hlevel⟩ := entry_eq_ok h.2 rfl name
    obtain rfl := Except.ok.inj (hv.symm.trans hfound)
    exact (Text.levelAfter_eq_some (by simpa using hlevel)).2
  | _ => cases h

end Hints

namespace Builder
variable {b : Builder}

theorem bracelessSlots (h : Text.isBraceless b.transaction = true) : b.BracelessSlots := by
  have hstem : Text.isBraceless b.stem = true := Text.all_dropEnd h _
  have hwritten : Text.isBraceless b.writtenName = true := by
    apply Text.isBraceless_joinWith rfl
    intro part hpart
    obtain ⟨word, hword, rfl⟩ := List.mem_map.1 hpart
    apply Text.all_lower _ (Text.all_of_mem_capitalWords hstem hword)
    intro c hc
    simp [Text.isInert, Text.isMark_of_brace c hc]
  have harticle : Text.isBraceless b.article = true := by
    unfold article
    split <;> rfl
  intro e he
  simp only [slots, List.mem_cons, List.not_mem_nil, or_false] at he
  rcases he with rfl | rfl | rfl | rfl
  · exact h
  · have hend : Text.isBraceless "Builder" = true := rfl
    simpa [name, Value.spell, hend] using hstem
  · exact hwritten
  · exact harticle

/-- Hints and fields from which well nested files come. -/
structure Nestable (b : Builder) : Prop where
  regular : Hints.isRegular b.transaction b.hints = true
  setting : Hints.isSetting b.hints = true
  nested : Hints.isNested b.transaction b.hints = true
  fields : ∀ fields, b.fields = .ok fields → ∀ v ∈ fields, v.Braceless

theorem Nestable.slots (hb : b.Nestable) : b.BracelessSlots :=
  bracelessSlots (Hints.isBraceless_of_isNested hb.nested)

variable {depth k : Nat} {v : Value} {fields : List Value}

theorem isBraceless_name (hv : v.Braceless) {name : String} (h : v.need "name" = .ok (.text name)) :
    Text.isBraceless name = true := hv "name" (by simp) _ h

theorem isBraceless_type (hv : v.Braceless) : ∀ t, v.need "type" = .ok (.text t) →
    t.toList.all (fun c => c != '{' && c != '}') = true := fun _ h => hv "type" (by simp) _ h

/-- What a setter takes and the name of its parameter have no braces, whatever the name of the field
is. -/
theorem isBraceless_setter (hb : b.Nestable) (hv : v.Braceless) {kind : FieldKind} {setter : Setter}
    (h : b.setter kind v = .ok setter) :
    Text.isBraceless setter.type = true ∧ Text.isBraceless setter.param.spell = true := by
  have hbuffer : Text.isBraceless "const RawBuffer&" = true := by decide
  have hvalue : ∀ type, b.valueType v = .ok type → Text.isBraceless type = true := fun type htype =>
    all_valueType Text.isMark_of_brace hb.regular (isBraceless_type hv) htype
  cases kind with
  | simple =>
    obtain ⟨type, htype, h⟩ := bind_eq_ok.1 h
    obtain ⟨name, hname, rfl⟩ := return_eq_ok.1 h
    exact ⟨hvalue type htype, hv "name" (by simp) name hname⟩
  | buffer =>
    obtain ⟨type, -, h⟩ := bind_eq_ok.1 h
    split at h
    · cases h
    · obtain ⟨name, hname, rfl⟩ := return_eq_ok.1 h
      exact ⟨hbuffer, hv "name" (by simp) name hname⟩
  | vector =>
    obtain ⟨type, htype, h⟩ := bind_eq_ok.1 h
    obtain ⟨named, hnamed, h⟩ := bind_eq_ok.1 h
    obtain ⟨name, hname, rfl⟩ := return_eq_ok.1 h
    obtain rfl := Value.eq_text_of_asText hname
    exact ⟨hvalue type htype, Text.isBraceless_singular (isBraceless_name hv hnamed)⟩
  | unknown => cases h

theorem nested_forFields {step : Value → Writing Unit}
    (h : ∀ fields, b.fields = .ok fields → ∀ v ∈ fields, ∀ name,
      v.need "name" = .ok (.text name) → Adds depth (step v) (Nested k k)) :
    Adds depth (b.forFields step) (Nested k k) := by
  apply (adds_forFields h).mono
  rintro _ ⟨fields, parts, -, hparts, rfl⟩
  generalize fields.filter hasField = built at hparts
  induction hparts with
  | nil => exact nested_nil k
  | cons hlines _ ih => exact hlines.append ih

theorem nested_forSetters (hb : b.Nestable)
    {step : FieldKind → Value → Setter → String → Writing Unit}
    (h : ∀ v kind setter text, v.Braceless → Text.isBraceless setter.param.spell = true →
      Text.isBraceless text = true → Adds depth (step kind v setter text) (Nested k k)) :
    Adds depth (b.forSetters step) (Nested k k) := by
  apply nested_forFields
  intro fields hf v hv name hn
  have hbraceless := hb.fields fields hf v hv
  apply Adds.lift
  intro named _
  apply Adds.lift
  intro hint _
  split
  · apply Adds.lift
    intro kind _
    apply Adds.lift
    intro setter hsetter
    apply Adds.lift
    intro text htext
    obtain ⟨hsignature, hparam⟩ := all_signature Text.isMark_of_brace hb.regular
      (isBraceless_type hbraceless) hn (isBraceless_name hbraceless hn) hsetter htext
    exact h v kind setter text hbraceless hparam hsignature
  · exact Adds.nothing_nested

/-! The sections of the header. -/

theorem nested_headerIncludes (hb : b.Nestable) : Adds 0 b.headerIncludes (Nested 0 0) := by
  apply Adds.lift
  intro plugin hplugin
  apply (nested_checked hb.slots 0 0 rfl).seq_nested
  have hspell : Text.isBraceless plugin.spell = true := by
    have hplain := Hints.isPlainText_plugin hb.regular hplugin
    cases plugin with
    | text s => exact Text.isBraceless_of_isPlain hplain
    | _ => cases hplain
  have hfile : Text.Nests 0 0 ("#include \"plugins/txes/" ++ plugin.spell ++
      "/src/model/\x7bTRANSACTION_NAME\x7d.h\"") :=
    ((Text.nests_of_isBraceless rfl 0).append (Text.nests_of_isBraceless hspell 0)).append
      (Text.nests_of_levelAfter 0 0 rfl)
  apply (nested_write hb.slots hfile).seq_nested
  apply Adds.lift
  intro hasVector _
  split
  · exact (nested_braceless hb.slots rfl).seq_nested (nested_braceless hb.slots rfl)
  · exact nested_braceless hb.slots rfl

theorem nested_headerClass (hb : b.Nestable) : Adds 1 b.headerClass (Nested 2 3) := by
  apply (nested_checked hb.slots 2 3 rfl).seq_nested
  apply (Adds.deeper (nested_checked hb.slots 3 3 rfl)).seq_nested
  apply (nested_braceless hb.slots rfl).seq_nested
  exact Adds.deeper (nested_checked hb.slots 3 3 rfl)

theorem isBraceless_remark (hv : v.Braceless) {text : String} (h : remark v = .ok text) :
    Text.isBraceless text = true := by
  obtain ⟨conditional, -, h⟩ := bind_eq_ok.1 h
  split at h
  · obtain ⟨condition, hc, h⟩ := bind_eq_ok.1 h
    obtain ⟨value, hvalue, rfl⟩ := return_eq_ok.1 h
    have hcondition := hv "condition" (by simp) condition hc
    have hvalue := hv "condition_value" (by simp) value hvalue
    simp only [toString, Text.isBraceless_append, hcondition, hvalue, Bool.and_true]
    decide
  · obtain rfl := Except.ok.inj h
    rfl

theorem nested_headerSetters (hb : b.Nestable) : Adds 1 b.headerSetters (Nested 3 3) := by
  apply (nested_braceless hb.slots rfl).seq_nested
  apply Adds.deeper
  apply nested_forSetters hb
  intro v kind setter text hv hparam htext
  have hcomment : Adds 2 (b.setterComment kind v setter.param) (Nested 3 3) := by
    apply Adds.lift
    intro remark hremark
    apply Adds.lift
    intro comments hcomments
    apply Adds.lift
    intro comment hcomment
    obtain rfl := Value.eq_text_of_asText hcomment
    apply Adds.forM_nested
    intro line hline
    apply nested_braceless hb.slots
    exact isBraceless_of_mem_commentLines hparam (isBraceless_remark hv hremark)
      (hv "comments" (by simp) _ hcomments) hline
  apply hcomment.seq_nested
  apply nested_braceless hb.slots
  simp only [toString, Text.isBraceless_append, htext, Bool.and_true]
  decide

theorem nested_headerBuilds (hb : b.Nestable) : Adds 1 b.headerBuilds (Nested 3 3) := by
  apply (nested_braceless hb.slots rfl).seq_nested
  apply (Adds.deeper (nested_checked hb.slots 3 3 rfl)).seq_nested
  apply (nested_braceless hb.slots rfl).seq_nested
  exact Adds.deeper (nested_checked hb.slots 3 3 rfl)

theorem nested_headerMembers (hb : b.Nestable) : Adds 1 b.headerMembers (Nested 3 3) := by
  apply (nested_braceless hb.slots rfl).seq_nested
  apply Adds.deeper
  apply nested_forFields
  intro fields hf v hv name hn
  have hbraceless := hb.fields fields hf v hv
  apply Adds.lift
  intro type htype
  apply Adds.lift
  intro named hnamed
  have ht : Text.isBraceless type = true :=
    all_memberType Text.isMark_of_brace hb.regular (isBraceless_type hbraceless) htype
  have hname := hbraceless "name" (by simp) named hnamed
  apply nested_braceless hb.slots
  simp only [toString, Text.isBraceless_append, ht, hname, Bool.and_true]
  decide

/-! The sections of the implementation. -/

theorem nested_codeIncludes (hb : b.Nestable) : Adds 0 b.codeIncludes (Nested 0 0) := by
  apply (nested_check hb.slots 0 0 rfl).seq_nested
  apply Adds.lift
  intro files hfiles
  apply Adds.seq_nested _ (nested_braceless hb.slots rfl)
  apply Adds.forM_nested
  intro file hfile
  have hspell : Text.isBraceless file.spell = true := by
    have hplain := Hints.isPlainText_includes hb.regular hfiles hfile
    cases file with
    | text s => exact Text.isBraceless_of_isPlain hplain
    | _ => cases hplain
  apply nested_braceless hb.slots
  simp only [toString, Text.isBraceless_append, hspell, Bool.and_true]
  decide

theorem nested_codeConstructor (hb : b.Nestable) : Adds 1 b.codeConstructor (Nested 2 2) := by
  apply (nested_check hb.slots 2 2 (by decide +kernel)).seq_nested
  apply Adds.seq_nested _ (nested_checked hb.slots 2 2 rfl)
  apply Adds.deeper
  apply (nested_braceless hb.slots rfl).seq_nested
  apply nested_forFields
  intro fields hf v hv name hn
  apply Adds.lift
  intro named hnamed
  have hname := hb.fields fields hf v hv "name" (by simp) named hnamed
  apply nested_braceless hb.slots
  simp only [toString, Text.isBraceless_append, hname, Bool.and_true]
  decide

/-- The field on which another one depends. -/
theorem setterOf_eq_ok (hb : b.Nestable) {name : Value} {found : Value × Setter}
    (h : b.setterOf name = .ok found) : found.1.Braceless ∧
      Text.isBraceless found.2.type = true ∧ Text.isBraceless found.2.param.spell = true := by
  obtain ⟨q, hq, h⟩ := bind_eq_ok.1 h
  obtain ⟨kind, -, h⟩ := bind_eq_ok.1 h
  obtain ⟨setter, hsetter, rfl⟩ := return_eq_ok.1 h
  obtain ⟨fields, hf, hq⟩ := bind_eq_ok.1 hq
  have hbraceless := hb.fields fields hf q (mem_of_findNamed hq)
  exact ⟨hbraceless, isBraceless_setter hb hbraceless hsetter⟩

theorem nested_simpleSetter (hb : b.Nestable) (hv : v.Braceless) {param : String}
    (hp : Text.isBraceless param = true) : Adds 2 (b.simpleSetter v param) (Nested 3 3) := by
  have hset : Text.isBraceless s!"m_{param} = {param};" = true := by
    simp only [toString, Text.isBraceless_append, hp, Bool.and_true]
    decide
  apply (nested_braceless hb.slots hset).seq_nested
  apply Adds.lift
  intro conditional _
  split
  · apply Adds.lift
    intro name _
    apply Adds.lift
    intro value hvalue
    apply Adds.lift
    intro upper hupper
    apply Adds.lift
    intro line hline
    obtain ⟨⟨q, setter⟩, hfound, rfl⟩ := return_eq_ok.1 hline
    obtain ⟨-, htype, hparam⟩ := setterOf_eq_ok hb hfound
    have hspell := Value.isBraceless_spell_upperFirst
      (hv "condition_value" (by simp) value hvalue) hupper
    apply nested_braceless hb.slots
    simp only [toString, Text.isBraceless_append, htype, hparam, hspell, Bool.and_true]
    decide
  · exact Adds.nothing_nested

theorem nested_bufferSetter (hb : b.Nestable) {param : String} (hp : Text.isBraceless param = true) :
    Adds 2 (b.bufferSetter param) (Nested 3 3) := by
  obtain ⟨text, htext, heq⟩ := bufferSetter_eq b hp
  rw [heq]
  exact nested_braceless hb.slots htext

theorem nested_vectorSetter (hb : b.Nestable) (hv : v.Braceless) {param : String}
    (hp : Text.isBraceless param = true) : Adds 2 (b.vectorSetter v param) (Nested 3 3) := by
  apply Adds.lift
  intro name hn
  have hname := hv "name" (by simp) name hn
  apply Adds.lift
  intro found hfound
  cases found with
  | none =>
    apply nested_braceless hb.slots
    simp only [toString, Text.isBraceless_append, hname, hp, Bool.and_true]
    decide
  | some key =>
    have hcall : Text.isBraceless
        s!"InsertSorted(m_{name.spell}, {param}, [](const auto& lhs, const auto& rhs) " = true := by
      simp only [toString, Text.isBraceless_append, hname, hp, Bool.and_true]
      decide
    -- the braces of the comparison are open for the one line between its first and its last
    have hopen := (Text.nests_of_isBraceless hcall 3).append
      (@Text.nests_of_levelAfter 3 4 "\x7b\x7b" rfl)
    apply (nested_write hb.slots hopen).seq_nested
    apply Adds.seq_nested _ (nested_check hb.slots 4 3 rfl)
    apply Adds.deeper
    apply Adds.lift
    intro upper hupper
    have hspell := Value.isBraceless_spell_upperFirst
      (hv "sort_key" (by simp) key (need_of_find hfound)) hupper
    apply nested_braceless hb.slots
    simp only [toString, Text.isBraceless_append, hspell, Bool.and_true]
    decide

theorem nested_setterBody (hb : b.Nestable) (hv : v.Braceless) {param : String}
    (hp : Text.isBraceless param = true) (kind : FieldKind) :
    Adds 2 (b.setterBody kind v param) (Nested 3 3) := by
  cases kind with
  | simple => exact nested_simpleSetter hb hv hp
  | buffer => exact nested_bufferSetter hb hp
  | _ => exact nested_vectorSetter hb hv hp

theorem nested_codeSetters (hb : b.Nestable) : Adds 1 b.codeSetters (Nested 2 2) := by
  apply nested_forSetters hb
  intro v kind setter text hv hparam htext
  have hopen : Text.Nests 2 3 ("void \x7bBUILDER_NAME\x7d::" ++ text ++ " \x7b\x7b") :=
    ((Text.nests_of_levelAfter 2 2 rfl).append (Text.nests_of_isBraceless htext 2)).append
      (Text.nests_of_levelAfter 2 3 rfl)
  apply (nested_write hb.slots hopen).seq_nested
  apply Adds.seq_nested _ (nested_check hb.slots 3 2 rfl)
  exact Adds.deeper (nested_setterBody hb hv hparam kind)

theorem nested_sizeLine (hb : b.Nestable) (hv : v.Braceless) {name : String}
    (hn : v.need "name" = .ok (.text name)) : Adds 2 (b.sizeLine v) (Nested 3 3) := by
  apply Adds.lift
  intro kind _
  apply Adds.lift
  intro named hnamed
  obtain rfl := Except.ok.inj (hn.symm.trans hnamed)
  have hcount := isBraceless_elementCount (isBraceless_name hv hn)
  cases kind with
  | buffer =>
    apply nested_braceless hb.slots
    simp only [toString, Text.isBraceless_append, hcount, Bool.and_true]
    decide
  | vector =>
    apply Adds.lift
    intro declared hdeclared
    apply Adds.lift
    intro type htype
    have ht : Text.isBraceless type = true := by
      apply all_qualified Text.isMark_of_brace hb.regular _ htype
      rintro t rfl
      exact isBraceless_type hv t hdeclared
    apply nested_braceless hb.slots
    simp only [toString, Text.isBraceless_append, hcount, ht, Bool.and_true]
    decide
  | simple | unknown => exact Adds.nothing_nested

theorem nested_codeSize (hb : b.Nestable) : Adds 1 b.codeSize (Nested 2 2) := by
  apply (nested_checked hb.slots 2 3 rfl).seq_nested
  apply Adds.seq_nested _ (nested_check hb.slots 3 2 rfl)
  apply Adds.deeper
  apply (nested_checked hb.slots 3 3 rfl).seq_nested
  apply Adds.seq_nested _ (nested_braceless hb.slots rfl)
  apply nested_forFields
  intro fields hf v hv name hn
  exact nested_sizeLine hb (hb.fields fields hf v hv) hn

theorem isBraceless_counterLine_of_counts (hb : b.Nestable) (hf : b.fields = .ok fields)
    {counts : List (Value × String)} (hcounts : b.counts = .ok counts) {name line : String}
    (hn : Text.isBraceless name = true) (hc : isCounter name = true)
    (h : counterLine counts (.text (Text.upperFirst name)) (.text name) v = .ok line) :
    Text.isBraceless line = true := by
  obtain ⟨count, hcount, h⟩ := bind_eq_ok.1 h
  obtain ⟨size, -, h⟩ := bind_eq_ok.1 h
  obtain ⟨type, htype, rfl⟩ := return_eq_ok.1 h
  have hfound := require_eq_ok.1 hcount
  rw [lookup_counts_eq hf hcounts hc, Option.map_eq_some_iff] at hfound
  obtain ⟨w, hw, rfl⟩ := hfound
  obtain ⟨hw, hcounted⟩ := List.mem_filter.1 (List.mem_of_getLast? hw)
  simp only [isCountedBy, isAttached, Bool.and_eq_true] at hcounted
  obtain ⟨held, hheld, -⟩ := exists_name_of_hasField hcounted.1.1
  have hcount : Text.isBraceless (elements w) = true := by
    have hname := isBraceless_elementCount (isBraceless_name (hb.fields fields hf w hw) hheld)
    simpa [elements, hheld, Except.toOption] using hname
  have ht := Text.isBraceless_of_isPlain (isPlain_countType htype)
  simp only [toString, Value.spell_text, Text.isBraceless_append, Text.isBraceless_upperFirst hn, ht,
    hcount, Bool.and_true]
  decide

theorem nested_assignLine (hb : b.Nestable) {name : String} (hn : Text.isBraceless name = true) :
    Adds depth (b.assignLine (.text (Text.upperFirst name)) name) (Nested 3 3) := by
  apply Adds.lift
  intro hinted hhinted
  have hbraceless : ∀ {text : String}, Text.isBraceless text = true → Text.Nests 3 3 text := fun h =>
    Text.nests_of_isBraceless h 3
  have hvalue : Text.Nests 3 3 (if !hinted.isEmpty then hinted.spell
      else if Text.holds "_Reserved" name then "0" else s!"m_{name}") := by
    split
    · obtain ⟨value, rfl, -, hfillable⟩ := Hints.entry_setters hb.setting hhinted
      have hlevel := Hints.level_of_entry_setters hb.nested hhinted
      exact ⟨hfillable, Text.level_add hlevel 6⟩
    · split
      · exact hbraceless rfl
      · apply hbraceless
        simp only [toString, Text.isBraceless_append, hn, Bool.and_true]
        decide
  have hmember := hbraceless (Text.isBraceless_upperFirst hn)
  apply nested_write hb.slots
  exact ((((hbraceless rfl).append hmember).append (hbraceless rfl)).append hvalue).append
    (hbraceless rfl)

theorem nested_fixedLines (hb : b.Nestable) (hv : v.Braceless) {name : String}
    (hn : Text.isBraceless name = true) :
    Adds 2 (b.fixedLines (.text (Text.upperFirst name)) name v) (Nested 3 3) := by
  apply Adds.lift
  intro found _
  split
  · exact nested_assignLine hb hn
  · apply Adds.lift
    intro value hvalue
    apply Adds.lift
    intro line hline
    obtain ⟨⟨q, setter⟩, hfound, hline⟩ := bind_eq_ok.1 hline
    obtain ⟨upper, hupper, hline⟩ := bind_eq_ok.1 hline
    obtain ⟨held, hheld, rfl⟩ := return_eq_ok.1 hline
    obtain ⟨hq, htype, -⟩ := setterOf_eq_ok hb hfound
    have hspell := Value.isBraceless_spell_upperFirst
      (hv "condition_value" (by simp) value hvalue) hupper
    have hheld := hq "name" (by simp) held hheld
    have hguard : Text.isBraceless s!"if ({setter.type}::{upper.spell} == m_{held.spell})" = true := by
      simp only [toString, Text.isBraceless_append, htype, hspell, hheld, Bool.and_true]
      decide
    apply (nested_braceless hb.slots hguard).seq_nested
    apply Adds.seq_nested _ (nested_braceless hb.slots rfl)
    exact Adds.deeper (nested_assignLine hb hn)

theorem nested_fixedFields (hb : b.Nestable) (hf : b.fields = .ok fields)
    {counts : List (Value × String)} (hcounts : b.counts = .ok counts) {rest : List Value}
    (hrest : rest ⊆ fields) : Adds 2 (b.fixedFields counts rest) (Nested 3 3) := by
  induction rest with
  | nil => exact Adds.nothing_nested
  | cons v rest ih =>
    have hv := hb.fields fields hf v (hrest (by simp))
    have htail := ih fun w hw => hrest (by simp [hw])
    apply Adds.lift
    intro named hn
    apply Adds.lift
    intro member hmember
    apply Adds.lift
    intro name hname
    obtain rfl := Value.eq_text_of_asText hname
    obtain rfl := memberName_eq_ok hb.setting hmember
    have hname := isBraceless_name hv hn
    split
    · rename_i hc
      apply Adds.lift
      intro line hline
      have hbraceless := isBraceless_counterLine_of_counts hb hf hcounts hname hc hline
      exact (nested_braceless hb.slots hbraceless).seq_nested htail
    · apply Adds.lift
      intro kind _
      split
      · exact (nested_fixedLines hb hv hname).seq_nested htail
      · exact Adds.nothing_nested

theorem nested_copyLine (hb : b.Nestable) (hv : v.Braceless) {name : String}
    (hn : v.need "name" = .ok (.text name)) : Adds 2 (b.copyLine v) (Nested 3 3) := by
  have hname := isBraceless_name hv hn
  apply Adds.lift
  intro kind _
  split
  · apply Adds.lift
    intro named hnamed
    obtain rfl := Except.ok.inj (hn.symm.trans hnamed)
    apply Adds.lift
    intro member hmember
    obtain rfl := memberName_eq_ok hb.setting hmember
    split
    · apply nested_braceless hb.slots
      simp only [toString, Value.spell_text, Text.isBraceless_append, hname,
        Text.isBraceless_upperFirst hname, Bool.and_true]
      decide
    · exact Adds.nothing_nested
  · exact Adds.nothing_nested

theorem nested_codeBuild (hb : b.Nestable) {counts : List (Value × String)}
    (hcounts : b.counts = .ok counts) : Adds 1 (b.codeBuild counts) (Nested 2 2) := by
  apply (nested_checked hb.slots 2 3 rfl).seq_nested
  apply Adds.seq_nested _ (nested_check hb.slots 3 2 rfl)
  apply Adds.deeper
  apply (nested_checked hb.slots 3 3 rfl).seq_nested
  apply Adds.lift
  intro fields hf
  apply (nested_fixedFields hb hf hcounts fun _ h => h).seq_nested
  apply (nested_braceless hb.slots rfl).seq_nested
  apply Adds.lift
  intro attached _
  split
  · apply (nested_braceless hb.slots rfl).seq_nested
    apply Adds.seq_nested
    · apply nested_forFields
      intro fields hf v hv name hn
      exact nested_copyLine hb (hb.fields fields hf v hv) hn
    · apply Adds.look
      intro sheet
      split
      · exact (nested_braceless hb.slots rfl).seq_nested (nested_braceless hb.slots rfl)
      · exact nested_braceless hb.slots rfl
  · exact nested_braceless hb.slots rfl

theorem nested_codeBuilds (hb : b.Nestable) : Adds 1 b.codeBuilds (Nested 2 2) := by
  apply (nested_checked hb.slots 2 2 rfl).seq_nested
  apply (nested_codeSize hb).seq_nested
  apply Adds.lift
  intro counts hcounts
  exact nested_codeBuild hb hcounts

theorem nested_codeMemberTypes (b : Builder) (k : Nat) : Adds 1 b.codeMemberTypes (Nested k k) := by
  apply nested_forFields
  intro fields _ v _ name _
  exact (Adds.discard _).mono fun _ h => h ▸ nested_nil k

/-! Whole files. -/

def headerSections (b : Builder) : Sections where
  includes := b.headerIncludes
  classHeader := b.headerClass
  setters := b.headerSetters
  builds := b.headerBuilds
  members := b.headerMembers
  footer := b.write "\x7d\x7d;"

theorem header_eq_sections (b : Builder) : header b = (headerSections b).writeAll b := rfl

def codeSections (b : Builder) : Sections where
  includes := b.codeIncludes
  classHeader := b.codeConstructor
  setters := b.codeSetters
  builds := b.codeBuilds
  members := b.codeMemberTypes
  footer := pure ()

theorem implementation_eq_sections (b : Builder) :
    implementation b = (codeSections b).writeAll b := rfl

/-- No brace is closed that is not open, and at the end all are closed. -/
def Balanced (lines : List String) : Prop :=
  (∀ front, front <+: lines.flatMap String.toList → front.count '}' ≤ front.count '{') ∧
    (lines.flatMap String.toList).count '{' = (lines.flatMap String.toList).count '}'

theorem balanced_of_nested {lines : List String} (h : Nested 0 0 lines) : Balanced lines := by
  simpa [Balanced] using Text.level_eq_some_iff.1 h

/-- The file starts with the notice; what comes behind it has balanced braces and was written step by
step, with the indentation that belongs to each of them. -/
def WellNested (parts : Builder → Sections) (s : Schema) (notice : Notice) (name : String)
    (file : SourceFile) : Prop :=
  ∃ b opening lines sheets, ofTransaction s name = .ok b ∧ notice.lines = .ok opening ∧
    file.code = opening ++ lines ∧ Balanced lines ∧ Stages ((parts b).steps b) sheets ∧
    sheets.head? = some { code := opening } ∧ sheets.getLast?.map (·.code) = some file.code ∧
    sheets.map (·.indent) = Sections.indents

/-- Sections that open one brace of their own between them and close it again. -/
theorem wellNested_of_sections {parts : Builder → Sections} {extension name : String} {s : Schema}
    {notice : Notice} {file : SourceFile}
    (h : fileOf (fun b => (parts b).writeAll b) extension s notice name = .ok file) {l : Nat}
    (hp : ∀ b, ofTransaction s name = .ok b → Adds 0 (parts b).includes (Nested 0 0) ∧
      Adds 1 (parts b).classHeader (Nested 2 l) ∧ Adds 1 (parts b).setters (Nested l l) ∧
      Adds 1 (parts b).builds (Nested l l) ∧ Adds 1 (parts b).members (Nested l l) ∧
      Adds 1 (parts b).footer (Nested l 2)) :
    WellNested parts s notice name file := by
  obtain ⟨b, opening, sheet, hb, hopening, hrun, hcode⟩ := fileOf_eq_ok h
  obtain ⟨hincludes, hclass, hsetters, hbuilds, hmembers, hfooter⟩ := hp b hb
  obtain ⟨⟨i, c, t, d, m, f, hi, hc, ht, hd, hm, hf, hlines⟩, between, hstages, hindents⟩ :=
    stages_of_sections hrun hincludes hclass hsetters hbuilds hmembers hfooter
  have hopen : Nested 0 2 ["namespace catapult \x7b namespace builders \x7b", ""] := by
    decide +kernel
  have hclose : Nested 2 0 ["\x7d\x7d"] := by decide +kernel
  have hall := (((((((hi.append hopen).append hc).append ht).append hd).append hm).append hf).append
    hclose)
  refine ⟨b, opening, _, _, hb, hopening, ?_, balanced_of_nested hall, hstages, rfl, ?_, hindents⟩
  · rw [hcode, hlines]
    simp only [List.append_assoc]
  · rw [List.getLast?_append]
    simp [hcode]

theorem nestable_of_braceless {s : Schema} {name : String} {b : Builder}
    (h : ofTransaction s name = .ok b)
    (hp : ∀ fields, (s.need (.text (name ++ "Body")) >>= Value.layout) = .ok fields →
      ∀ v ∈ fields, v.Braceless) : b.Nestable := by
  obtain ⟨hints, hhints, rfl⟩ := return_eq_ok.1 h
  exact ⟨Hints.isRegular_of_ofTransaction hhints, Hints.isSetting_of_ofTransaction hhints,
    Hints.isNested_of_ofTransaction hhints, hp⟩

/-- If the texts of the fields have no braces, both files of a builder are well nested: their braces are
balanced, each section of the class starts and ends at the indentation one, and the file ends at
zero. -/
theorem files_well_nested {s : Schema} {notice : Notice} {name : String}
    (hp : ∀ fields, (s.need (.text (name ++ "Body")) >>= Value.layout) = .ok fields →
      ∀ v ∈ fields, v.Braceless) :
    (∀ file, headerFile s notice name = .ok file →
      WellNested headerSections s notice name file) ∧
    ∀ file, codeFile s notice name = .ok file → WellNested codeSections s notice name file := by
  constructor
  · intro file hfile
    rw [headerFile, funext header_eq_sections] at hfile
    apply wellNested_of_sections hfile
    intro b hb
    have hnest := nestable_of_braceless hb hp
    exact ⟨nested_headerIncludes hnest, nested_headerClass hnest, nested_headerSetters hnest,
      nested_headerBuilds hnest, nested_headerMembers hnest,
      nested_check hnest.slots 3 2 rfl⟩
  · intro file hfile
    rw [codeFile, funext implementation_eq_sections] at hfile
    apply wellNested_of_sections hfile
    intro b hb
    have hnest := nestable_of_braceless hb hp
    exact ⟨nested_codeIncludes hnest, nested_codeConstructor hnest, nested_codeSetters hnest,
      nested_codeBuilds hnest, nested_codeMemberTypes b 2, Adds.nothing_nested⟩

/-- A body with a field whose value a hint puts in braces, a condition, a name of varying length and a
list that is kept in order. -/
def nestedFields : List Value := [
  .table [("name", "duration"), ("type", "byte"), ("size", .int 8), ("signedness", "unsigned"),
    ("comments", "duration"), ("condition", "registrationType"), ("condition_value", "root")],
  .table [("name", "id"), ("type", "NamespaceId"), ("comments", "id")],
  .table [("name", "registrationType"), ("type", "NamespaceRegistrationType"), ("comments", "type")],
  .table [("name", "nameSize"), ("type", "byte"), ("size", .int 1), ("signedness", "unsigned"),
    ("comments", "size")],
  .table [("name", "aliasesCount"), ("type", "byte"), ("size", .int 1), ("signedness", "unsigned"),
    ("comments", "count")],
  .table [("name", "name"), ("type", "byte"), ("size", "nameSize"), ("comments", "name \\note short")],
  .table [("name", "aliases"), ("type", "NamespaceId"), ("size", "aliasesCount"),
    ("sort_key", "value"), ("comments", "aliases")]]

def nestedSchema : Schema := ⟨[
  ("NamespaceId", .table [("type", "byte"), ("size", .int 8)]),
  ("NamespaceRegistrationType", .table [("type", "enum"), ("size", .int 1)]),
  ("NamespaceRegistrationTransactionBody", .table [("type", "struct"),
    ("layout", .list nestedFields)]),
  ("NamespaceRegistrationTransaction", .table [("type", "struct"), ("layout", .list [])])]⟩

theorem files_well_nested_sample : (∀ v ∈ nestedFields, v.Braceless) ∧ ∃ h c,
    headerFile nestedSchema .absent "NamespaceRegistrationTransaction" = .ok h ∧
    codeFile nestedSchema .absent "NamespaceRegistrationTransaction" = .ok c ∧
    WellNested headerSections nestedSchema .absent "NamespaceRegistrationTransaction" h ∧
    WellNested codeSections nestedSchema .absent "NamespaceRegistrationTransaction" c := by
  have hbraceless : ∀ v ∈ nestedFields, v.Braceless := by decide +kernel
  obtain ⟨b, hb, hready⟩ := @exists_ready nestedSchema "NamespaceRegistrationTransaction" _ _
    (by decide +kernel) (by decide +kernel) rfl rfl (by decide +kernel)
  obtain ⟨h, hh⟩ := (@fileOf_iff _ ".h" _ _ .absent _ _ _ hb rfl (writes_header hready)).2 trivial
  obtain ⟨c, hc⟩ := (@fileOf_iff _ ".cpp" _ _ .absent _ _ _ hb rfl
    (writesIff_implementation hready)).2 (by decide +kernel)
  have hall : ∀ fields, (nestedSchema.need (.text ("NamespaceRegistrationTransaction" ++ "Body")) >>=
      Value.layout) = .ok fields → ∀ v ∈ fields, v.Braceless := by
    intro fields hf
    obtain rfl : nestedFields = fields := Except.ok.inj hf
    exact hbraceless
  exact ⟨hbraceless, h, c, hh, hc, (files_well_nested hall).1 h hh, (files_well_nested hall).2 c hc⟩

end Builder
end SchemaForge
