import Mathlib.Data.List.TakeWhile
import SchemaForge.Proofs.Accessors

/-! How the implementation of a builder writes the fields of a transaction. It adds up their sizes, sets
those in front of the first one of varying size, and copies those of varying size. -/
namespace SchemaForge
open Checked Text

namespace Hints

/-- A single line that can be filled. -/
def isFillableLine : Value → Bool
  | .text s => Text.isLine s && Text.isFillable s
  | _ => false

/-- No field has another name in the transaction, and what fields are set to is a single line. -/
def isSetting : Hints → Bool
  | .table topics => (topics.lookup "rewrites").all Value.isEmpty &&
    (topics.lookup "setters").all (isTableOf isFillableLine)
  | _ => false

theorem isSetting_of_ofTransaction {name : String} {hints : Hints}
    (h : ofTransaction name = .ok hints) : isSetting hints = true :=
  @all_of_ofTransaction (fun _ hints => isSetting hints) (by decide +kernel) _ _ h

theorem entry_rewrites {hints : Hints} (h : isSetting hints = true) {key v : Value}
    (hv : hints.entry "rewrites" key = .ok v) : v = "" := by
  cases hints with
  | table topics =>
    simp only [isSetting, Bool.and_eq_true] at h
    rcases entry_cases hv with rfl | ⟨table, hl, hfound⟩
    · rfl
    · rw [hl] at h
      have hempty : table.isEmpty = true := h.1
      cases table with
      | table entries =>
        obtain rfl : entries = [] := by simpa [Value.isEmpty] using hempty
        obtain ⟨key', -, hfound⟩ := bind_eq_ok.1 hfound
        simp at hfound
      | _ => cases hfound
  | _ => cases h

theorem entry_setters {hints : Hints} (h : isSetting hints = true) {name : String} {v : Value}
    (hv : hints.entry "setters" (.text name) = .ok v) :
    ∃ value, v = .text value ∧ isLine value = true ∧ Fillable value.toList := by
  cases hints with
  | table topics =>
    simp only [isSetting, Bool.and_eq_true] at h
    obtain ⟨found, hfound, hline⟩ := entry_eq_ok h.2 rfl name
    obtain rfl := Except.ok.inj (hv.symm.trans hfound)
    cases v with
    | text value =>
      simp only [isFillableLine, Bool.and_eq_true] at hline
      exact ⟨value, rfl, hline.1, fillable_of_check hline.2⟩
    | _ => cases hline
  | _ => cases h

end Hints

namespace Builder
variable {b : Builder} {v : Value} {fields : List Value}

/-- In the transaction itself the name of a field opens with a capital. -/
theorem memberName_eq_ok (h : Hints.isSetting b.hints = true) {name : String} {member : Value}
    (hm : b.memberName (.text name) = .ok member) : member = .text (Text.upperFirst name) := by
  obtain ⟨upper, hupper, hm⟩ := bind_eq_ok.1 hm
  obtain ⟨hinted, hhinted, hm⟩ := bind_eq_ok.1 hm
  rw [Value.upperFirst_text] at hupper
  obtain rfl := Except.ok.inj hupper
  obtain rfl := Hints.entry_rewrites h hhinted
  exact (Except.ok.inj hm).symm

/-- A field of the builder whose number of elements varies. -/
def isAttached (v : Value) : Bool :=
  hasField v && (v.fieldKind.toOption == some .buffer || v.fieldKind.toOption == some .vector)

/-- Whether the counter of this name belongs to a field of the builder. -/
def isCountedBy (name : String) (v : Value) : Bool :=
  isAttached v && (v.need "size").toOption.any (· == .text name)

/-- A field that neither counts another one nor has a fixed size. -/
def isVariable (v : Value) : Bool := !(isCounting v || v.isFixed)

theorem fixedPart_cons (v : Value) (rest : List Value) :
    fixedPart (v :: rest) = if isVariable v then [] else v :: fixedPart rest := by
  cases h : isCounting v || v.isFixed <;> simp only [fixedPart, isVariable, List.takeWhile_cons, h] <;> rfl

/-- The line that adds the size of a field. -/
def SizeLine (b : Builder) (v : Value) (line : String) : Prop :=
  ∃ name, v.need "name" = .ok (.text name) ∧
    (v.fieldKind = .ok .buffer ∧ line = "\t\tsize += m_" ++ name ++ ".size();" ∨
      v.fieldKind = .ok .vector ∧ ∃ declared type, v.need "type" = .ok declared ∧
        b.qualified declared = .ok type ∧
          line = "\t\tsize += m_" ++ name ++ ".size() * sizeof(" ++ type ++ ");")

/-- The line that copies a field. -/
def CopyLine (v : Value) (line : String) : Prop :=
  ∃ name, v.need "name" = .ok (.text name) ∧
    line = "\t\tstd::copy(m_" ++ name ++ ".cbegin(), m_" ++ name ++ ".cend(), pTransaction->" ++
      Text.upperFirst name ++ "Ptr());"

/-- The value of a counter: the number of elements of the last field that it belongs to. -/
def CountedValue (fields : List Value) (v : Value) (name value : String) : Prop :=
  ∃ w held size type, (fields.filter (isCountedBy name)).getLast? = some w ∧
    w.need "name" = .ok (.text held) ∧ v.need "size" = .ok size ∧ countType size = .ok type ∧
      value = "utils::checked_cast<size_t, " ++ type ++ ">(m_" ++ held ++ ".size())"

/-- The value of a field of fixed size: what a hint says, nothing for padding, and otherwise the member
of the builder. -/
def FixedValue (b : Builder) (name value : String) : Prop :=
  ∃ hint, b.hints.entry "setters" (.text name) = .ok (.text hint) ∧
    if hint = "" then value = if Text.holds "_Reserved" name then "0" else "m_" ++ name
    else b.filled hint = .ok value

/-- The lines of a condition. It is a single line unless the text for its value breaks it. -/
def Guard (b : Builder) (v : Value) (lines : List String) : Prop :=
  ∃ c value upper q setter held line, v.find "condition" = .ok (some c) ∧
    v.need "condition_value" = .ok value ∧ value.upperFirst = .ok upper ∧
    b.setterOf c = .ok (q, setter) ∧ q.need "name" = .ok (.text held) ∧
    line = "if (" ++ setter.type ++ "::" ++ upper.spell ++ " == m_" ++ held ++ ")" ∧
    (Text.splitOn (· == '\n') line).mapM (b.lineCode .null (.int 2)) = .ok lines ∧
    ∀ t, value = .text t → Text.isPlain t = true → lines = ["\t\t" ++ line]

/-- The assignment to a field of the transaction. -/
def assignment (name value : String) : String :=
  "pTransaction->" ++ Text.upperFirst name ++ " = " ++ value ++ ";"

/-- The lines that set a field: a single assignment, under its condition if it has one and the field is
no counter. -/
inductive Sets (b : Builder) (fields : List Value) (v : Value) (lines : List String) : Prop where
  | counter {name value : String} (hn : v.need "name" = .ok (.text name))
    (hc : isCounter name = true) (hv : CountedValue fields v name value)
    (hl : lines = ["\t\t" ++ assignment name value])
  | always {name value : String} (hn : v.need "name" = .ok (.text name))
    (hc : isCounter name = false) (hnone : v.find "condition" = .ok none)
    (hv : b.FixedValue name value) (hl : lines = ["\t\t" ++ assignment name value])
  | guarded {name value : String} {guard : List String} (hn : v.need "name" = .ok (.text name))
    (hc : isCounter name = false) (hg : b.Guard v guard) (hv : b.FixedValue name value)
    (hl : lines = guard ++ ["\t\t\t" ++ assignment name value, ""])

/-- One line for each field of varying size, and none for the others. -/
def AttachedLine (form : Value → String → Prop) (v : Value) (lines : List String) : Prop :=
  ∃ kind, v.fieldKind = .ok kind ∧
    if kind = .buffer ∨ kind = .vector then ∃ line, form v line ∧ lines = [line] else lines = []

theorem attached_of_fieldLines {form : Value → String → Prop} {lines : List String}
    (hf : b.fields = .ok fields) (h : b.FieldLines (AttachedLine form) lines) :
    List.Forall₂ form (fields.filter isAttached) lines := by
  obtain ⟨fields', parts, hfields, hparts, rfl⟩ := h
  obtain rfl := Except.ok.inj (hf.symm.trans hfields)
  have hkept : fields.filter isAttached = (fields.filter hasField).filter isAttached := by
    rw [List.filter_filter]
    apply List.filter_congr
    intro v _
    cases hv : hasField v <;> simp [isAttached, hv]
  have hall : ∀ v ∈ fields.filter hasField, hasField v = true := by simp
  rw [hkept]
  clear hkept hfields
  generalize fields.filter hasField = built at hparts hall
  induction hparts with
  | nil => exact .nil
  | @cons v lines built parts hline _ ih =>
    have hrest := ih fun w hw => hall w (by simp [hw])
    obtain ⟨kind, hkind, hlines⟩ := hline
    have hattached : isAttached v = decide (kind = .buffer ∨ kind = .vector) := by
      simp [isAttached, hall v (by simp), hkind, Except.toOption]
      rfl
    by_cases hk : kind = .buffer ∨ kind = .vector
    · rw [if_pos hk] at hlines
      obtain ⟨line, hform, rfl⟩ := hlines
      rw [List.filter_cons_of_pos (by rw [hattached]; simpa using hk)]
      exact .cons hform hrest
    · rw [if_neg hk] at hlines
      subst hlines
      rw [List.filter_cons_of_neg (by rw [hattached]; simpa using hk)]
      exact hrest

/-- A loop over the fields that adds a line for each one of varying size. -/
theorem adds_attached {step : Value → Writing Unit} {form : Value → String → Prop}
    (hf : b.fields = .ok fields) (h : ∀ v ∈ fields, ∀ name, v.need "name" = .ok (.text name) →
      Adds 2 (step v) (AttachedLine form v)) :
    Adds 2 (b.forFields step) (List.Forall₂ form (fields.filter isAttached)) := by
  have hlines : Adds 2 (b.forFields step) (b.FieldLines (AttachedLine form)) := by
    apply adds_forFields
    intro fields' hf' v hv name hn
    obtain rfl := Except.ok.inj (hf.symm.trans hf')
    exact h v hv name hn
  exact hlines.mono fun lines => attached_of_fieldLines hf

theorem isPlain_elementCount {name : String} (h : isPlain name = true) :
    isPlain (elementCount (.text name)) = true := by
  simp only [elementCount, toString, Value.spell_text, isPlain_append, h, Bool.and_true]
  rfl

theorem adds_sizeLine (hb : Hints.isRegular b.transaction b.hints = true) (hv : v.PlainNamed)
    {name : String} (hn : v.need "name" = .ok (.text name)) :
    Adds 2 (b.sizeLine v) (AttachedLine b.SizeLine v) := by
  have hcount := isPlain_elementCount (hv "name" (by simp) name hn)
  have hopen : "\t\tsize += m_" = tabs 2 ++ ("size += " ++ "m_") := rfl
  apply Adds.lift
  intro kind hkind
  apply Adds.lift
  intro named hnamed
  obtain rfl := Except.ok.inj (hn.symm.trans hnamed)
  cases kind with
  | buffer =>
    have hline : isPlain ("size += " ++ elementCount (.text name) ++ ";") = true := by
      simp only [isPlain_append, hcount, Bool.and_true]
      rfl
    apply (adds_write_plain hline (by simp)).mono
    rintro _ rfl
    refine ⟨.buffer, hkind, _, ⟨name, hn, .inl ⟨hkind, rfl⟩⟩, ?_⟩
    have hend : ".size();" = ".size()" ++ ";" := rfl
    simp only [hopen, hend, elementCount, toString, Value.spell_text, String.append_assoc]
  | vector =>
    apply Adds.lift
    intro declared hdeclared
    apply Adds.lift
    intro type htype
    have hplain : isPlain type = true := by
      apply all_qualified (by simp) hb _ htype
      rintro t rfl
      exact hv "type" (by simp) t hdeclared
    have hline : isPlain ("size += " ++ elementCount (.text name) ++ " * sizeof(" ++ type ++
        ");") = true := by
      simp only [isPlain_append, hcount, hplain, Bool.and_true]
      rfl
    apply (adds_write_plain hline (by simp)).mono
    rintro _ rfl
    refine ⟨.vector, hkind, _, ⟨name, hn, .inr ⟨hkind, declared, type, hdeclared, htype, rfl⟩⟩, ?_⟩
    have hend : ".size() * sizeof(" = ".size()" ++ " * sizeof(" := rfl
    simp only [hopen, hend, elementCount, toString, Value.spell_text, String.append_assoc]
  | simple | unknown =>
    apply Adds.nothing.mono
    rintro _ rfl
    exact ⟨_, hkind, by simp⟩

theorem adds_copyLine (hs : Hints.isSetting b.hints = true) (hv : v.PlainNamed) {name : String}
    (hn : v.need "name" = .ok (.text name)) :
    Adds 2 (b.copyLine v) (AttachedLine CopyLine v) := by
  have hname : isPlain name = true := hv "name" (by simp) name hn
  apply Adds.lift
  intro kind hkind
  split
  · apply Adds.lift
    intro named hnamed
    obtain rfl := Except.ok.inj (hn.symm.trans hnamed)
    apply Adds.lift
    intro member hmember
    obtain rfl := memberName_eq_ok hs hmember
    have hline : isPlain ("std::copy(m_" ++ name ++ ".cbegin(), m_" ++ name ++ ".cend(), " ++
        ("pTransaction->" ++ Text.upperFirst name ++ "Ptr());")) = true := by
      simp only [isPlain_append, hname, isPlain_upperFirst hname, Bool.and_true]
      rfl
    have hcopy : Adds 2 (b.write ("std::copy(m_" ++ name ++ ".cbegin(), m_" ++ name ++ ".cend(), " ++
        ("pTransaction->" ++ Text.upperFirst name ++ "Ptr());"))) fun lines =>
          ∃ line, CopyLine v line ∧ lines = [line] := by
      apply (adds_write_plain hline (by simp)).mono
      rintro _ rfl
      refine ⟨_, ⟨name, hn, rfl⟩, ?_⟩
      have hopen : "\t\tstd::copy(m_" = tabs 2 ++ "std::copy(m_" := rfl
      have hend : ".cend(), pTransaction->" = ".cend(), " ++ "pTransaction->" := rfl
      simp only [hopen, hend, String.append_assoc]
    cases kind with
    | simple => contradiction
    | unknown =>
      apply Adds.nothing.mono
      rintro _ rfl
      exact ⟨_, hkind, by simp⟩
    | buffer | vector => exact hcopy.mono fun lines h => ⟨_, hkind, by simpa using h⟩
  · rename_i hsimple
    apply Adds.nothing.mono
    rintro _ rfl
    obtain rfl : kind = .simple := by simpa using hsimple
    exact ⟨_, hkind, by simp⟩

/-- The counter of a field of varying size that the builder has, with the expression for its value. -/
def counted (v : Value) : Checked (Option (Value × String)) := do
  let name ← v.need "name"
  if !isBuilt (← name.asText) then return none
  if (← v.fieldKind) == .simple then return none
  return some (← v.need "size", elementCount name)

theorem counts_eq (b : Builder) :
    b.counts = do return (← (← b.fields).filterMapM counted).reverse := rfl

/-- The number of elements of a field. -/
def elements (v : Value) : String := elementCount ((v.need "name").toOption.getD .null)

/-- The size of a field of varying size names its counter. -/
theorem kind_of_size {size : String} (hs : v.need "size" = .ok (.text size))
    (hc : isCounter size = true) {kind : FieldKind} (hk : v.fieldKind = .ok kind) :
    kind = .buffer ∨ kind = .vector := by
  simp only [Value.fieldKind, Value.has_of_need hs, hs, ok_bind, Bool.not_true,
    Bool.false_eq_true, if_false] at hk
  obtain rfl := Except.ok.inj hk
  simp only [isCounter, Bool.or_eq_true] at hc
  rcases hc with hsize | hcount
  · simp [hsize]
  · cases hsize : Text.endsWith "Size" size <;> simp [hcount]

theorem lookup_counted {count : Option (Value × String)} (h : counted v = .ok count) {name : String}
    (hc : isCounter name = true) : count.toList.lookup (.text name) =
      if isCountedBy name v then some (elements v) else none := by
  obtain ⟨named, hnamed, h⟩ := bind_eq_ok.1 h
  obtain ⟨held, hheld, h⟩ := bind_eq_ok.1 h
  obtain rfl := Value.eq_text_of_asText hheld
  have hfield : hasField v = isBuilt held := by simp [hasField, hnamed]
  cases hbuilt : isBuilt held with
  | false =>
    obtain rfl : none = count := by simpa [hbuilt] using h
    simp [isCountedBy, isAttached, hfield, hbuilt]
  | true =>
    simp only [hbuilt, Bool.not_true, Bool.false_eq_true, if_false] at h
    obtain ⟨kind, hkind, h⟩ := bind_eq_ok.1 h
    split at h
    · rename_i hsimple
      obtain rfl : kind = .simple := by simpa using hsimple
      obtain rfl := Except.ok.inj h
      simp [isCountedBy, isAttached, hkind, Except.toOption]
    · obtain ⟨size, hsize, rfl⟩ := return_eq_ok.1 h
      have hcomm : (Value.text name == size) = (size == .text name) := by
        cases size with
        | text t => rw [Value.text_beq_text, Value.text_beq_text, BEq.comm]
        | _ => rfl
      simp only [Option.toList_some, List.lookup_cons, List.lookup_nil, hcomm]
      cases hs : size == .text name with
      | false => simp [isCountedBy, hsize, hs, Except.toOption]
      | true =>
        obtain rfl := Value.eq_text_of_beq hs
        have hcounted : isCountedBy name v = true := by
          rcases kind_of_size hsize hc hkind with rfl | rfl <;>
            simp [isCountedBy, isAttached, hfield, hbuilt, hkind, hsize, Except.toOption]
        simp [hcounted, elements, hnamed, Except.toOption]

theorem lookup_found {found : List (Value × String)} (h : fields.filterMapM counted = .ok found)
    {name : String} (hc : isCounter name = true) : found.reverse.lookup (.text name) =
      (fields.filter (isCountedBy name)).getLast?.map elements := by
  induction fields generalizing found with
  | nil =>
    obtain rfl : [] = found := Except.ok.inj h
    rfl
  | cons v rest ih =>
    rw [List.filterMapM_cons] at h
    obtain ⟨count, hcount, h⟩ := bind_eq_ok.1 h
    have hsplit : ∃ found', rest.filterMapM counted = .ok found' ∧ found = count.toList ++ found' := by
      cases count with
      | none => exact ⟨found, h, rfl⟩
      | some e =>
        obtain ⟨found', hrest, h⟩ := bind_eq_ok.1 h
        exact ⟨found', hrest, (Except.ok.inj h).symm⟩
    obtain ⟨found', hrest, rfl⟩ := hsplit
    have hrev : count.toList.reverse = count.toList := by cases count <;> rfl
    rw [List.reverse_append, List.lookup_append, hrev, ih hrest, lookup_counted hcount hc]
    cases hv : isCountedBy name v with
    | false => simp [hv]
    | true =>
      rw [List.filter_cons_of_pos hv, List.getLast?_cons]
      cases (rest.filter (isCountedBy name)).getLast? <;> simp

/-- Behind the counter of a field stands the number of elements of the last one that has it. -/
theorem lookup_counts_eq {counts : List (Value × String)} (hf : b.fields = .ok fields)
    (h : b.counts = .ok counts) {name : String} (hc : isCounter name = true) :
    counts.lookup (.text name) = (fields.filter (isCountedBy name)).getLast?.map elements := by
  rw [counts_eq, hf, ok_bind] at h
  obtain ⟨found, hfound, rfl⟩ := return_eq_ok.1 h
  exact lookup_found hfound hc

/-- The fields have names that are texts. -/
def AllNamed (fields : List Value) : Prop := ∀ v ∈ fields, ∃ name, v.need "name" = .ok (.text name)

theorem allNamed_of_counts {counts : List (Value × String)} (hf : b.fields = .ok fields)
    (h : b.counts = .ok counts) : AllNamed fields := by
  rw [counts_eq, hf, ok_bind] at h
  obtain ⟨found, hfound, -⟩ := bind_eq_ok.1 h
  clear h hf
  induction fields generalizing found with
  | nil => exact fun v hv => absurd hv (by simp)
  | cons v rest ih =>
    rw [List.filterMapM_cons] at hfound
    obtain ⟨count, hcount, hfound⟩ := bind_eq_ok.1 hfound
    obtain ⟨named, hnamed, hcount⟩ := bind_eq_ok.1 hcount
    obtain ⟨name, hname, -⟩ := bind_eq_ok.1 hcount
    obtain rfl := Value.eq_text_of_asText hname
    have hrest : ∃ found', rest.filterMapM counted = .ok found' := by
      cases count with
      | none => exact ⟨found, hfound⟩
      | some e =>
        obtain ⟨found', hrest, -⟩ := bind_eq_ok.1 hfound
        exact ⟨found', hrest⟩
    obtain ⟨found', hrest⟩ := hrest
    exact List.forall_mem_cons.2 ⟨⟨name, hnamed⟩, ih found' hrest⟩

theorem eq_of_mapM_lineCode {depth : Nat} {line : String} {lines : List String}
    (hl : isLine line = true) (hn : line ≠ "")
    (h : (Text.splitOn (· == '\n') line).mapM (b.lineCode .null (.int depth)) = .ok lines) :
    ∃ text, b.filled line = .ok text ∧ lines = [tabs depth ++ text] := by
  rw [splitOn_of_isLine hl, List.mapM_cons] at h
  obtain ⟨code, hcode, h⟩ := bind_eq_ok.1 h
  obtain rfl : [code] = lines := Except.ok.inj h
  rcases lineCode_eq_ok hcode with ⟨hempty, -⟩ | ⟨-, text, htext, rfl⟩
  · exact absurd hempty hn
  · exact ⟨text, htext, rfl⟩

theorem isPlain_countType {size : Value} {type : String} (h : countType size = .ok type) :
    isPlain type = true := by
  unfold countType Target.sized at h
  split at h
  · obtain rfl := Except.ok.inj h
    rfl
  · obtain ⟨key, -, h⟩ := bind_eq_ok.1 h
    obtain ⟨n, -, hlookup⟩ := Option.bind_eq_some_iff.1 (require_eq_ok.1 h)
    obtain ⟨before, after, htable, -⟩ := List.lookup_eq_some_iff.1 hlookup
    have hall : ∀ e ∈ [((1 : Int), "uint8_t"), (2, "uint16_t"), (4, "uint32_t")],
        isPlain e.2 = true := by decide
    exact hall (n, type) (by rw [htable]; simp)

theorem exists_name_of_hasField (h : hasField v = true) :
    ∃ name, v.need "name" = .ok (.text name) ∧ isBuilt name = true := by
  unfold hasField at h
  split at h
  · rename_i name hname
    exact ⟨name, hname, h⟩
  · cases h

theorem adds_counterLine {counts : List (Value × String)} (hf : b.fields = .ok fields)
    (hp : ∀ v ∈ fields, v.PlainNamed) (hcounts : b.counts = .ok counts) {name line : String}
    (hn : isPlain name = true) (hc : isCounter name = true)
    (h : counterLine counts (.text (Text.upperFirst name)) (.text name) v = .ok line) :
    ∃ value, CountedValue fields v name value ∧
      Adds 2 (b.write line) (· = ["\t\t" ++ assignment name value]) := by
  obtain ⟨count, hcount, h⟩ := bind_eq_ok.1 h
  obtain ⟨size, hsize, h⟩ := bind_eq_ok.1 h
  obtain ⟨type, htype, rfl⟩ := return_eq_ok.1 h
  rw [require_eq_ok, lookup_counts_eq hf hcounts hc] at hcount
  obtain ⟨w, hlast, rfl⟩ := Option.map_eq_some_iff.1 hcount
  obtain ⟨hw, hcounted⟩ := List.mem_filter.1 (List.mem_of_getLast? hlast)
  have hfield : hasField w = true := by
    simp only [isCountedBy, isAttached, Bool.and_eq_true] at hcounted
    exact hcounted.1.1
  obtain ⟨held, hheld, -⟩ := exists_name_of_hasField hfield
  have helements : elements w = "m_" ++ held ++ ".size()" := by
    rw [elements, hheld]
    rfl
  have hplain : isPlain held = true := hp w hw "name" (by simp) held hheld
  refine ⟨"utils::checked_cast<size_t, " ++ type ++ ">(m_" ++ held ++ ".size())",
    ⟨w, held, size, type, hlast, hheld, hsize, htype, rfl⟩, ?_⟩
  have hline : isPlain ("pTransaction->" ++ Text.upperFirst name ++
      " = utils::checked_cast<size_t, " ++ type ++ ">(" ++ ("m_" ++ held ++ ".size()") ++ ");") =
        true := by
    simp only [isPlain_append, isPlain_upperFirst hn, isPlain_countType htype, hplain,
      Bool.and_true]
    rfl
  rw [helements]
  apply (adds_write_plain hline (by simp)).mono
  rintro _ rfl
  have hset : " = utils::checked_cast<size_t, " = " = " ++ "utils::checked_cast<size_t, " := rfl
  have hopen : ">(m_" = ">(" ++ "m_" := rfl
  have hclose : ".size())" = ".size()" ++ ")" := rfl
  have hend : ");" = ")" ++ ";" := rfl
  have htabs : "\t\t" = tabs 2 := rfl
  unfold assignment
  simp only [hset, hopen, hclose, hend, htabs, String.append_assoc]

theorem adds_assignLine {depth : Nat} (hs : Hints.isSetting b.hints = true) {name : String}
    (hn : isPlain name = true) :
    Adds depth (b.assignLine (.text (Text.upperFirst name)) name) fun lines =>
      ∃ value, b.FixedValue name value ∧ lines = [tabs depth ++ assignment name value] := by
  apply Adds.lift
  intro hinted hhinted
  obtain ⟨hint, rfl, hl, hfill⟩ := Hints.entry_setters hs hhinted
  have hfront : isPlain ("pTransaction->" ++ Text.upperFirst name ++ " = ") = true := by
    rw [isPlain_append, isPlain_append, isPlain_upperFirst hn]
    rfl
  by_cases hnone : hint = ""
  · subst hnone
    have hvalue : isPlain (if Text.holds "_Reserved" name then "0" else "m_" ++ name) = true := by
      split
      · rfl
      · rw [isPlain_append, hn]
        rfl
    have hline : isPlain ("pTransaction->" ++ Text.upperFirst name ++ " = " ++
        (if Text.holds "_Reserved" name then "0" else "m_" ++ name) ++ ";") = true := by
      rw [isPlain_append, isPlain_append, hfront, hvalue]
      rfl
    apply (adds_write_plain hline (by simp)).mono
    rintro _ rfl
    exact ⟨_, ⟨"", hhinted, rfl⟩, rfl⟩
  · have hfull : (Value.text hint).isEmpty = false := by simpa [Value.isEmpty] using hnone
    have hline : isLine ("pTransaction->" ++ Text.upperFirst name ++ " = " ++ hint ++ ";") =
        true := by
      rw [isLine_append, isLine_append, isLine_of_isPlain hfront, hl]
      rfl
    simp only [hfull, Bool.not_false, if_true]
    apply (adds_write _).mono
    intro lines hlines
    obtain ⟨text, htext, rfl⟩ := eq_of_mapM_lineCode hline (by simp) hlines
    rw [String.append_assoc, filled, fill_append hfront, fill_fillable_append hfill] at htext
    obtain ⟨rest, hrest, rfl⟩ := map_eq_ok.1 htext
    obtain ⟨value, hvalue, hrest⟩ := bind_eq_ok.1 hrest
    rw [fill_of_isPlain rfl] at hrest
    obtain rfl := Except.ok.inj hrest
    refine ⟨value, ⟨hint, hhinted, by rw [if_neg hnone]; exact hvalue⟩, ?_⟩
    unfold assignment
    simp only [String.append_assoc]

theorem adds_condition (hb : Hints.isRegular b.transaction b.hints = true)
    (hf : b.fields = .ok fields) (hp : ∀ v ∈ fields, v.PlainNamed) (hnamed : AllNamed fields)
    {c value : Value} {line : String} (hc : v.find "condition" = .ok (some c))
    (hvalue : v.need "condition_value" = .ok value) (h : b.conditionLine c value = .ok line) :
    Adds 2 (b.write line) (b.Guard v) := by
  obtain ⟨⟨q, setter⟩, hsetter, h⟩ := bind_eq_ok.1 h
  obtain ⟨upper, hupper, h⟩ := bind_eq_ok.1 h
  obtain ⟨named, hq, h⟩ := bind_eq_ok.1 h
  obtain ⟨q', hfield, hmade⟩ := bind_eq_ok.1 hsetter
  obtain ⟨kind, hkind, hmade⟩ := bind_eq_ok.1 hmade
  obtain ⟨made, hset, hmade⟩ := bind_eq_ok.1 hmade
  obtain ⟨rfl, rfl⟩ := Prod.mk.inj (Except.ok.inj hmade)
  have hmem : q' ∈ fields := by
    rw [field, hf] at hfield
    exact mem_of_findNamed hfield
  obtain ⟨held, hheld⟩ := hnamed q' hmem
  obtain rfl := Except.ok.inj (hheld.symm.trans hq)
  obtain rfl := Except.ok.inj h
  apply (adds_write _).mono
  intro lines hlines
  refine ⟨c, value, upper, q', made, held, _, hc, hvalue, hupper, hsetter, hheld, rfl, hlines, ?_⟩
  rintro t rfl ht
  rw [Value.upperFirst_text] at hupper
  obtain rfl := Except.ok.inj hupper
  have hheld' := hp q' hmem "name" (by simp) held hheld
  have htype : isPlain made.type = true :=
    (all_setter (by simp) hb (hp q' hmem "type" (by simp)) hheld hheld' hset).1.2
  have hline : isPlain ("if (" ++ made.type ++ "::" ++ Text.upperFirst t ++ " == m_" ++ held ++
      ")") = true := by
    simp only [isPlain_append, htype, isPlain_upperFirst ht, hheld', Bool.and_true]
    rfl
  obtain ⟨text, htext, rfl⟩ := eq_of_mapM_lineCode (isLine_of_isPlain hline) (by simp) hlines
  rw [filled, fill_of_isPlain hline] at htext
  obtain rfl := Except.ok.inj htext
  rfl

theorem adds_fixedLines (hb : Hints.isRegular b.transaction b.hints = true)
    (hs : Hints.isSetting b.hints = true) (hf : b.fields = .ok fields)
    (hp : ∀ v ∈ fields, v.PlainNamed) (hnamed : AllNamed fields) (hv : v ∈ fields) {name : String}
    (hn : v.need "name" = .ok (.text name)) (hc : isCounter name = false) :
    Adds 2 (b.fixedLines (.text (Text.upperFirst name)) name v) (b.Sets fields v) := by
  have hplain : isPlain name = true := hp v hv "name" (by simp) name hn
  apply Adds.lift
  intro found hfound
  cases found with
  | none =>
    apply (adds_assignLine hs hplain).mono
    rintro _ ⟨value, hvalue, rfl⟩
    exact .always hn hc hfound hvalue rfl
  | some c =>
    apply Adds.lift
    intro value hvalue
    apply Adds.lift
    intro line hline
    have hguard := adds_condition hb hf hp hnamed hfound hvalue hline
    have hassign : Adds 2 (deeper 1 (b.assignLine (.text (Text.upperFirst name)) name)) _ :=
      Adds.deeper (adds_assignLine hs hplain)
    apply (hguard.seq (hassign.seq adds_write_empty)).mono
    rintro _ ⟨lines, _, hlines, ⟨_, _, ⟨value, hvalue, rfl⟩, rfl, rfl⟩, rfl⟩
    exact .guarded hn hc hlines hvalue rfl

/-- The fields in front of the first one of varying size are set, each once, and no others. -/
theorem adds_fixedFields {counts : List (Value × String)}
    (hb : Hints.isRegular b.transaction b.hints = true) (hs : Hints.isSetting b.hints = true)
    (hf : b.fields = .ok fields) (hp : ∀ v ∈ fields, v.PlainNamed) (hnamed : AllNamed fields)
    (hcounts : b.counts = .ok counts) {rest : List Value} (hrest : rest ⊆ fields) :
    Adds 2 (b.fixedFields counts rest) fun lines => ∃ parts,
      List.Forall₂ (b.Sets fields) (fixedPart rest) parts ∧ lines = parts.flatten := by
  induction rest with
  | nil =>
    apply Adds.nothing.mono
    rintro _ rfl
    exact ⟨[], .nil, rfl⟩
  | cons v rest ih =>
    have hv : v ∈ fields := hrest (by simp)
    have htail := ih fun w hw => hrest (by simp [hw])
    apply Adds.lift
    intro named hn
    apply Adds.lift
    intro member hmember
    apply Adds.lift
    intro name hname
    obtain rfl := Value.eq_text_of_asText hname
    obtain rfl := memberName_eq_ok hs hmember
    have hcounting : isCounting v = isCounter name := by simp [isCounting, hn, Except.toOption]
    have hcons : ∀ {steps : Writing Unit}, isVariable v = false →
        Adds 2 steps (b.Sets fields v) → Adds 2 (steps >>= fun _ => b.fixedFields counts rest)
          fun lines => ∃ parts, List.Forall₂ (b.Sets fields) (fixedPart (v :: rest)) parts ∧
            lines = parts.flatten := by
      intro steps hkeep hsteps
      apply (hsteps.seq htail).mono
      rintro _ ⟨lines, _, hlines, ⟨parts, hparts, rfl⟩, rfl⟩
      refine ⟨lines :: parts, ?_, rfl⟩
      rw [fixedPart_cons, hkeep]
      exact .cons hlines hparts
    split
    · rename_i hc
      apply Adds.lift
      intro line hline
      obtain ⟨value, hvalue, hwrite⟩ :=
        adds_counterLine hf hp hcounts (hp v hv "name" (by simp) name hn) hc hline
      apply hcons (by simp [isVariable, hcounting, hc])
      exact hwrite.mono fun lines => .counter hn hc hvalue
    · rename_i hc
      have hc : isCounter name = false := by simpa using hc
      apply Adds.lift
      intro kind hkind
      have hfixed : v.isFixed = (kind == .simple) := by
        simp [Value.isFixed, hkind, hn, Except.toOption, hc]
      split
      · rename_i hsimple
        exact hcons (by simp [isVariable, hfixed, hsimple])
          (adds_fixedLines hb hs hf hp hnamed hv hn hc)
      · rename_i hother
        apply Adds.nothing.mono
        rintro _ rfl
        refine ⟨[], ?_, rfl⟩
        have hvariable : isVariable v = true := by
          simpa [isVariable, hcounting, hc, hfixed] using hother
        rw [fixedPart_cons, hvariable]
        exact .nil

/-- The lines that open a method of the builder. -/
theorem adds_method {result method : String} (hr : isPlain result = true)
    (hm : isPlain method = true) :
    Adds 1 (b.writeAll ["template<typename TransactionType>",
      result ++ ("\x7bBUILDER_NAME\x7d" ++ (method ++ "\x7b\x7b"))])
      (· = ["\ttemplate<typename TransactionType>",
        "\t" ++ result ++ b.name ++ (method ++ "\x7b")]) := by
  have hopen : b.filled (result ++ ("\x7bBUILDER_NAME\x7d" ++ (method ++ "\x7b\x7b"))) =
      .ok (result ++ (b.name ++ (method ++ "\x7b"))) := by
    have hbrace : "\x7b\x7b" = "\x7b\x7b" ++ "" := rfl
    rw [hbrace, filled, fill_append hr, fill_builderName rfl, fill_append hm,
      fill_open, fill_of_isPlain rfl]
    rfl
  have hl : isLine (result ++ ("\x7bBUILDER_NAME\x7d" ++ (method ++ "\x7b\x7b"))) = true := by
    simp only [isLine_append, isLine_of_isPlain hr, isLine_of_isPlain hm]
    rfl
  apply (adds_writeAll_cons (adds_write_plain (isPlain_ofList rfl) (by decide))
    (adds_writeAll_cons (adds_write_line hl (by simp) hopen) Adds.nothing)).mono
  rintro _ rfl
  have htabs : "\t" = tabs 1 := rfl
  simp only [htabs, String.append_assoc]
  rfl

/-- The method that adds up the sizes of the fields. -/
def sizeBlock (builder : String) (sizes : List String) : List String :=
  ["\ttemplate<typename TransactionType>", "\tsize_t " ++ builder ++ "::sizeImpl() const \x7b",
    "\t\t// calculate transaction size", "\t\tauto size = sizeof(TransactionType);"] ++ sizes ++
  ["\t\treturn size;", "\t\x7d", ""]

/-- The method that writes the fields. -/
def buildBlock (builder : String) (assigned attached : List String) : List String :=
  ["\ttemplate<typename TransactionType>",
    "\tstd::unique_ptr<TransactionType> " ++ builder ++ "::buildImpl() const \x7b",
    "\t\t// 1. allocate, zero (header), set model::Transaction fields",
    "\t\tauto pTransaction = createTransaction<TransactionType>(sizeImpl<TransactionType>());", "",
    "\t\t// 2. set fixed transaction fields"] ++ assigned ++ [""] ++ attached ++
  ["\t\treturn pTransaction;", "\t\x7d"]

/-- The third section, which is there if some field is not of fixed size. -/
def attachments (fields : List Value) (copies : List String) : List String :=
  if fields.any (·.fieldKind.toOption != some .simple) then
    "\t\t// 3. set transaction attachments" :: copies ++ [""]
  else []

theorem adds_codeSize (hb : Hints.isRegular b.transaction b.hints = true)
    (hf : b.fields = .ok fields) (hp : ∀ v ∈ fields, v.PlainNamed) :
    Adds 1 b.codeSize fun lines => ∃ sizes,
      List.Forall₂ b.SizeLine (fields.filter isAttached) sizes ∧ lines = sizeBlock b.name sizes := by
  have hopen : Adds 1 (b.writeAll ["template<typename TransactionType>",
      "size_t \x7bBUILDER_NAME\x7d::sizeImpl() const \x7b\x7b"])
      (· = ["\ttemplate<typename TransactionType>",
        "\tsize_t " ++ b.name ++ "::sizeImpl() const \x7b"]) :=
    @adds_method b "size_t " "::sizeImpl() const " rfl rfl
  have hstart : Adds 2 (b.writeAll ["// calculate transaction size",
      "auto size = sizeof(TransactionType);"]) (· = ["\t\t// calculate transaction size",
        "\t\tauto size = sizeof(TransactionType);"]) :=
    adds_writeAll_cons (adds_write_plain (isPlain_ofList rfl) (by decide))
      (adds_writeAll_cons (adds_write_plain (isPlain_ofList rfl) (by decide)) Adds.nothing)
  have hsizes := adds_attached hf fun v hv _ hn => adds_sizeLine hb (hp v hv) hn
  have hreturn : Adds 2 (b.write "return size;") (· = ["\t\treturn size;"]) :=
    adds_write_plain (isPlain_ofList rfl) (by decide)
  apply (hopen.seq ((Adds.deeper (hstart.seq (hsizes.seq hreturn))).seq adds_write_end)).mono
  rintro _ ⟨_, _, rfl, ⟨_, _, ⟨_, _, rfl, ⟨sizes, _, hlines, rfl, rfl⟩, rfl⟩, rfl, rfl⟩, rfl⟩
  have hend : tabs 1 ++ "\x7d" = "\t\x7d" := rfl
  exact ⟨sizes, hlines, by
    simp only [sizeBlock, hend, List.append_assoc, List.cons_append, List.nil_append]⟩

theorem anyKind_eq_ok {test : FieldKind → Bool} {found : Bool} (h : anyKind test fields = .ok found) :
    found = fields.any fun v => v.fieldKind.toOption.all test := by
  induction fields with
  | nil => exact (Except.ok.inj h).symm
  | cons v rest ih =>
    obtain ⟨kind, hkind, h⟩ := bind_eq_ok.1 h
    cases ht : test kind with
    | true =>
      obtain rfl : true = found := by simpa [ht] using h
      simp [hkind, Except.toOption, ht]
    | false =>
      have hrest : anyKind test rest = .ok found := by simpa [ht] using h
      simpa [hkind, Except.toOption, ht] using ih hrest

theorem last_of_copies {copies : List String} (h : List.Forall₂ CopyLine fields copies)
    (before : List String) :
    (before ++ (["\t\t// 3. set transaction attachments"] ++ copies)).getLast? ≠ some "" := by
  have hcopy : ∀ line ∈ copies, line ≠ "" := by
    induction h with
    | nil => simp
    | cons hline _ ih =>
      obtain ⟨name, -, rfl⟩ := hline
      exact List.forall_mem_cons.2 ⟨by simp, ih⟩
  intro hlast
  rw [List.getLast?_append_of_ne_nil _ (by simp)] at hlast
  rcases List.mem_append.1 (List.mem_of_getLast? hlast) with hmem | hmem
  · simp at hmem
  · exact hcopy "" hmem rfl

/-- The third section, with the line that ends the method. -/
theorem adds_attachments (hs : Hints.isSetting b.hints = true) (hf : b.fields = .ok fields)
    (hp : ∀ v ∈ fields, v.PlainNamed) :
    Adds 2 (do
      if ← b.hasOtherKind .simple then
        b.write "// 3. set transaction attachments"
        b.forFields b.copyLine
        if (← get).code.getLast? != some "" then b.write ""
      b.write "return pTransaction;") fun lines => ∃ copies,
        List.Forall₂ CopyLine (fields.filter isAttached) copies ∧
          lines = attachments fields copies ++ ["\t\treturn pTransaction;"] := by
  have hcopies := adds_attached hf fun v hv _ hn => adds_copyLine hs (hp v hv) hn
  have htitle : Adds 2 (b.write "// 3. set transaction attachments")
      (· = ["\t\t// 3. set transaction attachments"]) := adds_write_plain (isPlain_ofList rfl) (by decide)
  have hreturn : Adds 2 (b.write "return pTransaction;") (· = ["\t\treturn pTransaction;"]) :=
    adds_write_plain (isPlain_ofList rfl) (by decide)
  -- The title stands in front of the copies, so the line before the gap is never an empty one.
  have hgap : ∀ (sheet : Sheet) (before lines : List String),
      (∃ title copies, title = ["\t\t// 3. set transaction attachments"] ∧
        List.Forall₂ CopyLine (fields.filter isAttached) copies ∧ lines = title ++ copies) →
      sheet.code = before ++ lines → Adds 2 (do
        if sheet.code.getLast? != some "" then b.write ""
        b.write "return pTransaction;") (· = ["", "\t\treturn pTransaction;"]) := by
    rintro sheet before _ ⟨_, copies, rfl, hcopied, rfl⟩ hcode
    rw [if_pos (by simpa [hcode] using last_of_copies hcopied before)]
    apply (adds_write_empty.seq hreturn).mono
    rintro _ ⟨_, _, rfl, rfl, rfl⟩
    rfl
  apply Adds.lift
  intro varies hvaries
  rw [hasOtherKind, someKind, hf, ok_bind] at hvaries
  have hany : (fields.any (·.fieldKind.toOption != some .simple)) = varies := by
    rw [anyKind_eq_ok hvaries]
    congr 1
    funext v
    cases v.fieldKind.toOption <;> rfl
  cases varies with
  | true =>
    simp only [if_true]
    rw [← bind_assoc]
    apply ((htitle.seq hcopies).seq_look hgap).mono
    rintro _ ⟨_, _, ⟨_, copies, rfl, hcopied, rfl⟩, rfl, rfl⟩
    exact ⟨copies, hcopied, by simp [attachments, hany]⟩
  | false =>
    apply hreturn.mono
    rintro _ rfl
    have hsimple : ∀ v ∈ fields, isAttached v = false := by
      intro v hv
      have hkind : v.fieldKind.toOption = some .simple := by
        simpa using List.any_eq_false.1 hany v hv
      simp [isAttached, hkind]
    refine ⟨[], ?_, by simp [attachments, hany]⟩
    rw [List.filter_eq_nil_iff.2 (by simpa using hsimple)]
    exact .nil

theorem adds_codeBuild {counts : List (Value × String)}
    (hb : Hints.isRegular b.transaction b.hints = true) (hs : Hints.isSetting b.hints = true)
    (hf : b.fields = .ok fields) (hp : ∀ v ∈ fields, v.PlainNamed)
    (hcounts : b.counts = .ok counts) :
    Adds 1 (b.codeBuild counts) fun lines => ∃ assigned copies,
      List.Forall₂ (b.Sets fields) (fixedPart fields) assigned ∧
      List.Forall₂ CopyLine (fields.filter isAttached) copies ∧
      lines = buildBlock b.name assigned.flatten (attachments fields copies) := by
  have hopen : Adds 1 (b.writeAll ["template<typename TransactionType>",
      "std::unique_ptr<TransactionType> \x7bBUILDER_NAME\x7d::buildImpl() const \x7b\x7b"])
      (· = ["\ttemplate<typename TransactionType>",
        "\tstd::unique_ptr<TransactionType> " ++ b.name ++ "::buildImpl() const \x7b"]) :=
    @adds_method b "std::unique_ptr<TransactionType> " "::buildImpl() const " rfl rfl
  have hstart : Adds 2 (b.writeAll ["// 1. allocate, zero (header), set model::Transaction fields",
      "auto pTransaction = createTransaction<TransactionType>(sizeImpl<TransactionType>());", "",
      "// 2. set fixed transaction fields"])
      (· = ["\t\t// 1. allocate, zero (header), set model::Transaction fields",
        "\t\tauto pTransaction = createTransaction<TransactionType>(sizeImpl<TransactionType>());", "",
        "\t\t// 2. set fixed transaction fields"]) :=
    adds_writeAll_cons (adds_write_plain (isPlain_ofList rfl) (by decide))
      (adds_writeAll_cons (adds_write_plain (isPlain_ofList rfl) (by decide))
        (adds_writeAll_cons adds_write_empty
          (adds_writeAll_cons (adds_write_plain (isPlain_ofList rfl) (by decide)) Adds.nothing)))
  have hclose : Adds 1 (b.write "\x7d\x7d") (· = ["\t\x7d"]) :=
    adds_write_line rfl (by decide) filled_close
  have hbody : Adds 2 (liftM b.fields >>= fun fields => b.fixedFields counts fields >>= fun _ => b.write "" >>= fun _ => do
      if ← b.hasOtherKind .simple then
        b.write "// 3. set transaction attachments"
        b.forFields b.copyLine
        if (← get).code.getLast? != some "" then b.write ""
      b.write "return pTransaction;") fun lines => ∃ assigned copies,
        List.Forall₂ (b.Sets fields) (fixedPart fields) assigned ∧
        List.Forall₂ CopyLine (fields.filter isAttached) copies ∧
        lines = assigned.flatten ++ [""] ++ attachments fields copies ++ ["\t\treturn pTransaction;"] := by
    apply Adds.lift
    intro fields' hf'
    obtain rfl := Except.ok.inj (hf.symm.trans hf')
    have hfixed := adds_fixedFields hb hs hf hp (allNamed_of_counts hf hcounts) hcounts
      (List.Subset.refl fields)
    apply (hfixed.seq (adds_write_empty.seq (adds_attachments hs hf hp))).mono
    rintro _ ⟨_, _, ⟨assigned, hassigned, rfl⟩, ⟨_, _, rfl, ⟨copies, hcopies, rfl⟩, rfl⟩, rfl⟩
    exact ⟨assigned, copies, hassigned, hcopies, by simp⟩
  apply (hopen.seq ((Adds.deeper (hstart.seq hbody)).seq hclose)).mono
  rintro _ ⟨_, _, rfl, ⟨_, _, ⟨_, _, rfl, ⟨assigned, copies, ha, hc, rfl⟩, rfl⟩, rfl, rfl⟩, rfl⟩
  exact ⟨assigned, copies, ha, hc, by
    simp only [buildBlock, List.append_assoc, List.cons_append, List.nil_append]⟩

/-- The implementation writes the fields in the methods at its end: it adds the sizes of those of
varying size, sets those in front of the first one of these, and copies all of them. -/
def WritesFields (b : Builder) (fields : List Value) (code : List String) : Prop :=
  ∃ front sizes assigned copies,
    code = front ++ sizeBlock b.name sizes ++
      buildBlock b.name assigned.flatten (attachments fields copies) ++ ["\x7d\x7d"] ∧
    List.Forall₂ b.SizeLine (fields.filter isAttached) sizes ∧
    List.Forall₂ (b.Sets fields) (fixedPart fields) assigned ∧
    List.Forall₂ CopyLine (fields.filter isAttached) copies

/-- Every field of the builder is of a kind that it knows. -/
def AllKnown (fields : List Value) : Prop :=
  ∀ v ∈ fields, hasField v = true → v.fieldKind = .ok .simple ∨ isAttached v = true

theorem not_isAttached_of_simple (h : v.fieldKind = .ok .simple) : isAttached v = false := by
  simp [isAttached, h, Except.toOption]

theorem isVariable_of_hasField (hv : hasField v = true) :
    isVariable v = !(v.fieldKind.toOption == some .simple) := by
  obtain ⟨name, hname, hbuilt⟩ := exists_name_of_hasField hv
  have hcounter : isCounter name = false := by
    simp only [isBuilt, Bool.and_eq_true, Bool.not_eq_true'] at hbuilt
    exact hbuilt.1
  simp [isVariable, isCounting, Value.isFixed, hname, Except.toOption, hcounter]

theorem not_isAttached_of_mem_fixedPart (h : v ∈ fixedPart fields) : isAttached v = false := by
  have hkeep := List.mem_takeWhile_imp h
  cases hv : hasField v with
  | false => simp [isAttached, hv]
  | true =>
    have hvariable := isVariable_of_hasField hv
    rw [isVariable, hkeep] at hvariable
    have hkind : v.fieldKind.toOption = some .simple := by simpa using hvariable.symm
    simp [isAttached, hkind]

/-- What stands behind a variable field is not in the fixed part. -/
theorem mem_dropWhile {α : Type} {p : α → Bool} {before after : List α} {a b : α}
    (ha : p a = false) (hb : b ∈ after) : b ∈ (before ++ a :: after).dropWhile p := by
  induction before with
  | nil => simp [ha, hb]
  | cons c before ih =>
    rw [List.cons_append, List.dropWhile_cons]
    split
    · exact ih
    · simp [hb]

/-- The fields that are set or copied are all that the builder has exactly if no field of fixed size
stands behind one of varying size. -/
theorem perm_written_iff (h : AllKnown fields) :
    ((fixedPart fields).filter hasField ++ fields.filter isAttached).Perm (fields.filter hasField) ↔
      ∀ before v after, fields = before ++ v :: after → isVariable v = true →
        ∀ w ∈ after, hasField w = true → w.fieldKind ≠ .ok .simple := by
  obtain ⟨rest, hrest⟩ : ∃ rest, rest = fields.dropWhile fun v => isCounting v || v.isFixed := ⟨_, rfl⟩
  have hsplit : fields = fixedPart fields ++ rest := by
    rw [hrest]
    exact List.takeWhile_append_dropWhile.symm
  have hattached : fields.filter isAttached = rest.filter isAttached := by
    conv_lhs => rw [hsplit]
    rw [List.filter_append, List.filter_eq_nil_iff.2 fun v hv => by
      simp [not_isAttached_of_mem_fixedPart hv], List.nil_append]
  have hbuilt : fields.filter hasField = (fixedPart fields).filter hasField ++ rest.filter hasField := by
    conv_lhs => rw [hsplit]
    rw [List.filter_append]
  have hinner : rest.filter isAttached = (rest.filter hasField).filter isAttached := by
    rw [List.filter_filter]
    apply List.filter_congr
    intro v _
    cases hv : hasField v <;> simp [isAttached, hv]
  rw [hattached, hbuilt, List.perm_append_left_iff]
  calc (rest.filter isAttached).Perm (rest.filter hasField)
      ↔ ∀ w ∈ rest, hasField w = true → isAttached w = true := by
        constructor
        · intro hperm w hw hfield
          have hlength := hperm.length_eq
          rw [hinner, List.length_filter_eq_length_iff] at hlength
          exact hlength w (List.mem_filter.2 ⟨hw, hfield⟩)
        · intro hall
          rw [hinner, List.filter_eq_self.2 fun w hw => hall w (List.mem_filter.1 hw).1 (List.mem_filter.1 hw).2]
    _ ↔ _ := by
        constructor
        · rintro hall before v after hfields hv w hw hfield hsimple
          have hmem : w ∈ rest := by
            rw [hrest, hfields]
            exact mem_dropWhile (by simpa [isVariable] using hv) hw
          simpa [not_isAttached_of_simple hsimple] using hall w hmem hfield
        · intro hlate w hw hfield
          rcases h w (by rw [hsplit]; simp [hw]) hfield with hsimple | hattached
          · exfalso
            cases rest with
            | nil => cases hw
            | cons v after =>
              have hv : isVariable v = true := by
                have hhead := List.head?_dropWhile_not (fun v => isCounting v || v.isFixed) fields
                rw [← hrest] at hhead
                simpa [isVariable] using hhead
              rcases List.mem_cons.1 hw with rfl | hw
              · simp [isVariable_of_hasField hfield, hsimple, Except.toOption] at hv
              · exact hlate _ v after hsplit hv w hw hfield hsimple
          · exact hattached

theorem allKnown_of_members {lines : List String} (hf : b.fields = .ok fields)
    (h : b.FieldLines (fun v lines => (∃ type, b.memberType v = .ok type) ∧ lines = []) lines) :
    AllKnown fields ∧ lines = [] := by
  obtain ⟨fields', parts, hf', hparts, rfl⟩ := h
  obtain rfl := Except.ok.inj (hf.symm.trans hf')
  obtain ⟨htypes, hempty⟩ := (List.forall₂_and_left _ _).1 hparts
  refine ⟨?_, ?_⟩
  · intro v hv hfield
    obtain ⟨type, htype⟩ := htypes v (List.mem_filter.2 ⟨hv, hfield⟩)
    obtain ⟨kind, held, hkind, -, hcases⟩ := memberType_eq_ok htype
    rcases hcases with ⟨rfl, -⟩ | ⟨rfl, -⟩ | ⟨rfl, -⟩
    · exact .inl hkind
    · exact .inr (by simp [isAttached, hfield, hkind, Except.toOption])
    · exact .inr (by simp [isAttached, hfield, hkind, Except.toOption])
  · clear htypes hparts
    generalize fields.filter hasField = built at hempty
    induction hempty with
    | nil => rfl
    | cons hline _ ih => rw [List.flatten_cons, hline, ih, List.append_nil]

theorem adds_codeMemberTypes : Adds 1 b.codeMemberTypes
    (b.FieldLines fun v lines => (∃ type, b.memberType v = .ok type) ∧ lines = []) := by
  apply adds_forFields
  intro _ _ v _ _ _
  exact Adds.discard_ok (b.memberType v)

theorem adds_codeBuilds (hb : Hints.isRegular b.transaction b.hints = true)
    (hs : Hints.isSetting b.hints = true) (hf : b.fields = .ok fields)
    (hp : ∀ v ∈ fields, v.PlainNamed) :
    Adds 1 b.codeBuilds fun lines => ∃ front sizes assigned copies,
      List.Forall₂ b.SizeLine (fields.filter isAttached) sizes ∧
      List.Forall₂ (b.Sets fields) (fixedPart fields) assigned ∧
      List.Forall₂ CopyLine (fields.filter isAttached) copies ∧
      lines = front ++ sizeBlock b.name sizes ++
        buildBlock b.name assigned.flatten (attachments fields copies) := by
  apply ((@each_writeAll_fixed b hb 1 1 _ (by decide +kernel)).seq ((adds_codeSize hb hf hp).seq
    (Adds.lift fun counts hcounts => adds_codeBuild hb hs hf hp hcounts))).mono
  rintro _ ⟨front, _, -, ⟨_, _, ⟨sizes, hsizes, rfl⟩, ⟨assigned, copies, ha, hc, rfl⟩, rfl⟩, rfl⟩
  exact ⟨front, sizes, assigned, copies, hsizes, ha, hc, by simp⟩

/-- What the run over the sections of an implementation writes for the fields. -/
theorem implementation_writes (hb : Hints.isRegular b.transaction b.hints = true)
    (hs : Hints.isSetting b.hints = true) (hp : b.PlainNames) {opening : List String} {sheet : Sheet}
    (h : runOn (implementation b) { code := opening } = (.ok (), sheet)) :
    ∃ fields, b.fields = .ok fields ∧ WritesFields b fields sheet.code ∧ AllKnown fields := by
  obtain ⟨_, _, _, _, _, _, -, -, -, -, ⟨fields, _, hf, -⟩, -⟩ :=
    runOn_sections h (each_codeIncludes hb) (adds_codeConstructor hb hp) (adds_codeSetters hb hp)
      (each_codeBuilds hb) adds_codeMemberTypes Adds.nothing
  obtain ⟨includes, constructor, setters, builds, members, _, -, -, -, hbuilds, hmembers, rfl, hcode⟩ :=
    runOn_sections h (each_codeIncludes hb) (adds_codeConstructor hb hp) (adds_codeSetters hb hp)
      (adds_codeBuilds hb hs hf (hp fields hf)) adds_codeMemberTypes Adds.nothing
  obtain ⟨methods, sizes, assigned, copies, hsizes, hassigned, hcopies, rfl⟩ := hbuilds
  obtain ⟨hknown, rfl⟩ := allKnown_of_members hf hmembers
  refine ⟨fields, hf, ⟨opening ++ includes ++ ["namespace catapult \x7b namespace builders \x7b", ""] ++
    constructor ++ setters ++ methods, sizes, assigned, copies, ?_, hsizes, hassigned, hcopies⟩, hknown⟩
  rw [hcode]
  simp only [List.append_nil, List.append_assoc]

/-- A body with a counter, a field under a condition and a buffer, and one field behind that. -/
def lateFields : List Value := [
  .table [("name", "messageSize"), ("type", "byte"), ("size", .int 2), ("signedness", "unsigned"),
    ("comments", "size")],
  .table [("name", "mode"), ("type", "TransferMode"), ("comments", "mode")],
  .table [("name", "fee"), ("type", "byte"), ("size", .int 8), ("signedness", "unsigned"),
    ("comments", "fee"), ("condition", "mode"), ("condition_value", "direct")],
  .table [("name", "message"), ("type", "byte"), ("size", "messageSize"), ("comments", "message")],
  .table [("name", "deadline"), ("type", "byte"), ("size", .int 8), ("signedness", "unsigned"),
    ("comments", "deadline")]]

def lateSchema : Schema := ⟨[
  ("TransferMode", .table [("type", "enum"), ("size", .int 1)]),
  ("TransferTransactionBody", .table [("type", "struct"), ("layout", .list lateFields)]),
  ("TransferTransaction", .table [("type", "struct"), ("layout", .list [])])]⟩

theorem exists_code_late : ∃ c, codeFile lateSchema .absent "TransferTransaction" = .ok c := by
  obtain ⟨b, hb, hready⟩ := @exists_ready lateSchema "TransferTransaction" _ _
    (by decide +kernel) (by decide +kernel) rfl rfl (by decide +kernel)
  exact (fileOf_iff hb rfl (writesIff_implementation hready)).2 (by decide +kernel)

end Builder
end SchemaForge
