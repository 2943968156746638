import SchemaForge.Proofs.Aggregates
import SchemaForge.Proofs.Filling

/-! The imports of a class. A class collects them while its entries are made, from the types of their
variables. In TypeScript it ends up with the classes of its entries, and with the helper that reads
embedded transactions. -/
namespace SchemaForge
open Checked

namespace Text
variable {ends : Char → Bool} {cs : List Char}

/-- What stands between signs that end it, where something does. -/
def wordsIn (ends : Char → Bool) (cs : List Char) : List String :=
  ((splitChars ends cs).map String.ofList).filter (!·.isEmpty)

theorem isEmpty_ofList (h : cs ≠ []) : (String.ofList cs).isEmpty = false := by
  rw [Bool.eq_false_iff]
  intro hempty
  exact h (by simpa using hempty)

theorem wordsIn_sign {sign : Char} (hs : ends sign = true) (rest : List Char) :
    wordsIn ends (sign :: rest) = wordsIn ends rest := by
  have hsplit : splitChars ends (sign :: rest) = [] :: splitChars ends rest :=
    @splitChars_append ends [] (by simp) sign hs rest
  rw [wordsIn, hsplit, List.map_cons, List.filter_cons_of_neg (by simp), wordsIn]

theorem wordsIn_append (hcs : cs ≠ []) (h : ∀ c ∈ cs, ends c = false) {sign : Char}
    (hs : ends sign = true) (rest : List Char) :
    wordsIn ends (cs ++ sign :: rest) = String.ofList cs :: wordsIn ends rest := by
  rw [wordsIn, splitChars_append h hs, List.map_cons,
    List.filter_cons_of_pos (by simp [isEmpty_ofList hcs]), wordsIn]

theorem wordsIn_of_none (hcs : cs ≠ []) (h : ∀ c ∈ cs, ends c = false) :
    wordsIn ends cs = [String.ofList cs] := by
  rw [wordsIn, splitChars_of_none h, List.map_singleton,
    List.filter_cons_of_pos (by simp [isEmpty_ofList hcs]), List.filter_nil]

/-- ASCII letters and digits with a capital in front. -/
def isTypeName (name : String) : Bool :=
  name.toList.all Char.isAlphanum && name.toList.head?.any Char.isUpper

theorem isTypeName_append {name suffix : String} (h : isTypeName name = true)
    (hs : suffix.toList.all Char.isAlphanum = true) : isTypeName (name ++ suffix) = true := by
  simp only [isTypeName, Bool.and_eq_true, String.toList_append, List.all_append] at h ⊢
  refine ⟨⟨h.1, hs⟩, ?_⟩
  cases hn : name.toList with
  | nil => simp [hn] at h
  | cons c rest => simpa [hn] using h.2

theorem toList_ne_nil {name : String} (h : isTypeName name = true) : name.toList ≠ [] := by
  intro hnil
  simp [isTypeName, hnil] at h

/-- A type name holds none of the signs that are no letters or digits. -/
theorem ends_eq_false {name : String} (h : isTypeName name = true)
    (hs : ∀ c, ends c = true → c.isAlphanum = false) : ∀ c ∈ name.toList, ends c = false := by
  intro c hc
  have hall := List.all_eq_true.1 (Bool.and_eq_true_iff.1 h).1 c hc
  cases he : ends c with
  | false => rfl
  | true =>
    rw [hs c he] at hall
    cases hall

theorem isCapital_of_isUpper {c : Char} (h : c.isUpper = true) : isCapital c = true := by
  have hcode : c.toNat < 128 := by
    have hupper : 'A'.val ≤ c.val ∧ c.val ≤ 'Z'.val := of_decide_eq_true h
    have hbound := UInt32.le_iff_toNat_le.1 hupper.2
    exact Nat.lt_of_le_of_lt hbound (by decide)
  rw [isCapital_ascii hcode, h]

end Text

namespace Target

theorem mem_include1 {imports : List String} {name other : String} :
    other ∈ include1 imports name ↔ other ∈ imports ∨ other = name := by
  unfold include1
  split
  · rename_i hmem
    constructor
    · exact .inl
    · rintro (hother | rfl)
      · exact hother
      · simpa using hmem
  · simp

theorem namesIn_eq (type : String) :
    namesIn type = Text.wordsIn (fun c => c == '[' || c == ']') type.toList := rfl

theorem isAlphanum_bracket (c : Char) (h : (c == '[' || c == ']') = true) : c.isAlphanum = false := by
  simp only [Bool.or_eq_true, beq_iff_eq] at h
  rcases h with rfl | rfl <;> rfl

theorem namesIn_class {name : String} (h : Text.isTypeName name = true) : namesIn name = [name] := by
  rw [namesIn_eq, Text.wordsIn_of_none (Text.toList_ne_nil h) (Text.ends_eq_false h isAlphanum_bracket),
    String.ofList_toList]

theorem namesIn_list {name : String} (h : Text.isTypeName name = true) :
    namesIn (name ++ "[]") = [name] := by
  have hchars : (name ++ "[]").toList = name.toList ++ '[' :: [']'] := by simp
  rw [namesIn_eq, hchars, Text.wordsIn_append (Text.toList_ne_nil h)
    (Text.ends_eq_false h isAlphanum_bracket) rfl, Text.wordsIn_sign rfl, String.ofList_toList]
  rfl

theorem startsCapital_of_isTypeName {name : String} (h : Text.isTypeName name = true) :
    startsCapital name = true := by
  obtain ⟨c, hc, hupper⟩ := (Option.any_eq_true _ _).1 (Bool.and_eq_true_iff.1 h).2
  rw [startsCapital, hc]
  exact Text.isCapital_of_isUpper hupper

section
variable {own name other : String} {base : Option String} {imports names : List String}

theorem subset_scriptImports (h : other ∈ imports) : other ∈ scriptImports own base imports name := by
  unfold scriptImports
  split
  · exact h
  · split <;> split <;> simp [mem_include1, h] <;> split <;> simp [mem_include1, h]

theorem of_mem_scriptImports (h : other ∈ scriptImports own base imports name) :
    other ∈ imports ∨ other = name ∨ other = "EmbeddedTransactionHelper" := by
  unfold scriptImports at h
  split at h
  · exact .inl h
  · have hheader : ∀ b : Bool, other ∈ (if b then include1 imports name else imports) →
        other ∈ imports ∨ other = name := by
      rintro (_ | _) hmem
      · exact .inl hmem
      · exact mem_include1.1 hmem
    simp only at h
    split at h
    · rcases mem_include1.1 h with h | rfl
      · rcases mem_include1.1 h with h | rfl
        · exact (hheader _ h).imp_right .inl
        · exact .inr (.inr rfl)
      · exact .inr (.inl rfl)
    split at h
    · rcases mem_include1.1 h with h | rfl
      · exact (hheader _ h).imp_right .inl
      · exact .inr (.inl rfl)
    · exact (hheader _ h).imp_right .inl

/-- The names that are no classes of a schema. -/
def isBuiltIn (name : String) : Bool := name == "List" || name == "Uint8Array"

theorem mem_scriptImports (hbuilt : isBuiltIn name = false) (hcapital : startsCapital name = true) :
    name ∈ scriptImports own base imports name ∨ name = own := by
  by_cases hown : name = own
  · exact .inr hown
  · refine .inl ?_
    unfold isBuiltIn at hbuilt
    simp only [scriptImports, hbuilt, Bool.false_eq_true, if_false, bne_iff_ne, ne_eq, hown,
      not_false_eq_true, hcapital, Bool.and_true, if_true]
    split <;> exact mem_include1.2 (.inr rfl)

theorem of_mem_foldl_scriptImports (h : other ∈ names.foldl (scriptImports own base) imports) :
    other ∈ imports ∨ other ∈ names ∨ other = "EmbeddedTransactionHelper" := by
  induction names generalizing imports with
  | nil => exact .inl h
  | cons name names ih =>
    rcases ih h with hmem | hmem | rfl
    · rcases of_mem_scriptImports hmem with hmem | rfl | rfl
      · exact .inl hmem
      · exact .inr (.inl List.mem_cons_self)
      · exact .inr (.inr rfl)
    · exact .inr (.inl (List.mem_cons_of_mem _ hmem))
    · exact .inr (.inr rfl)

theorem subset_foldl_scriptImports (h : other ∈ imports) :
    other ∈ names.foldl (scriptImports own base) imports := by
  induction names generalizing imports with
  | nil => exact h
  | cons name names ih => exact ih (subset_scriptImports h)

theorem mem_foldl_scriptImports (h : name ∈ names) (hbuilt : isBuiltIn name = false)
    (hcapital : startsCapital name = true) :
    name ∈ names.foldl (scriptImports own base) imports ∨ name = own := by
  induction names generalizing imports with
  | nil => cases h
  | cons first names ih =>
    rw [List.foldl_cons]
    rcases List.mem_cons.1 h with rfl | h
    · exact (mem_scriptImports hbuilt hcapital).imp_left subset_foldl_scriptImports
    · exact ih h

end
end Target

namespace ClassModel
open Drafting
variable {α β : Type} {f : Frame}

/-- The imports that entries make necessary, one after the other. -/
def importsFor (f : Frame) (entries : List Entry) : List String :=
  entries.foldl (fun imports e => f.target.addImports imports e.varType f.className f.baseClass) []

/-- Steps after which the imports are those of the entries if they were so before. -/
def Imports (f : Frame) (steps : Drafting α) : Prop :=
  ∀ d, d.imports = importsFor f d.entries →
    (runOn steps d).2.imports = importsFor f (runOn steps d).2.entries

theorem imports_bind {steps : Drafting α} {next : α → Drafting β} (h : Imports f steps)
    (hn : ∀ a, Imports f (next a)) : Imports f (steps >>= next) := by
  intro d hd
  have hsteps := h d hd
  rw [runOn_bind]
  rcases hr : runOn steps d with ⟨fault | a, d'⟩ <;> rw [hr] at hsteps
  · exact hsteps
  · exact hn a d' hsteps

theorem imports_map {steps : Drafting α} (h : Imports f steps) (g : α → β) :
    Imports f (g <$> steps) := by
  intro d hd
  rw [runOn_map]
  exact h d hd

theorem imports_of_read {steps : Drafting α} (h : ∀ d, (runOn steps d).2 = d) : Imports f steps := by
  intro d hd
  rwa [h d]

theorem imports_lift (x : Checked α) : Imports f (liftM x) := imports_of_read fun d => by simp

theorem imports_tell (line : String) : Imports f (tell line) := fun _ hd => hd

theorem imports_addEntry (site : Site) (aggregate : Option Aggregate) :
    Imports f (addEntry f site aggregate) := by
  intro d hd
  simp only [addEntry, runOn_bind, runOn_get, runOn_lift]
  cases entryOf f d.schema d.entries site aggregate with
  | error fault => exact hd
  | ok e => simp [importsFor, hd]

theorem imports_addConstant (site : Site) : Imports f (addConstant f site) := by
  refine imports_bind (imports_of_read fun d => by simp) fun s => ?_
  refine imports_bind (imports_lift _) fun c => ?_
  exact imports_bind (imports_tell _) fun _ _ hd => hd

theorem imports_visit (site : Site) (aggregate : Option Aggregate) (depth : Nat) :
    Imports f (visit f site aggregate depth) := by
  refine imports_bind (imports_of_read fun d => by simp) fun r => ?_
  refine imports_bind (imports_lift _) fun name => ?_
  refine imports_bind (imports_lift _) fun name => ?_
  exact imports_bind (imports_tell _) fun _ => imports_addEntry site aggregate

theorem imports_takeInline (r : Record) (site : Site) (aggregate : Option Aggregate) (depth : Nat) :
    Imports f (takeInline f r site aggregate depth) := by
  refine imports_bind (imports_lift _) fun type => ?_
  refine imports_bind (imports_lift _) fun name => ?_
  refine imports_bind (fun _ hd => hd) fun _ => ?_
  refine imports_bind ?_ fun _ => imports_lift _
  split
  · exact imports_of_read fun _ => rfl
  · exact imports_visit site aggregate depth

theorem imports_takePlain (r : Record) (site : Site) (aggregate : Option Aggregate) (depth : Nat) :
    Imports f (takePlain f r site aggregate depth) := by
  unfold takePlain
  split
  · exact imports_addConstant site
  split
  · exact imports_visit site aggregate depth
  · exact imports_of_read fun _ => rfl

theorem imports_meet (site : Site) (aggregate : Option Aggregate) (depth : Nat) :
    Imports f (meet f site aggregate depth) := by
  refine imports_bind (fun _ hd => hd) fun _ => ?_
  refine imports_bind (imports_of_read fun d => by simp) fun r => ?_
  split
  · exact imports_map (imports_takeInline r site aggregate depth) _
  · exact imports_map (imports_takePlain r site aggregate depth) _

theorem imports_forM {l : List α} {step : α → Drafting Unit} (h : ∀ a ∈ l, Imports f (step a)) :
    Imports f (forM l step) := by
  induction l with
  | nil => exact imports_of_read fun _ => rfl
  | cons a l ih =>
    rw [List.forM_cons]
    exact imports_bind (h a List.mem_cons_self) fun _ =>
      ih fun b hb => h b (List.mem_cons_of_mem _ hb)

theorem imports_walk (limit : Nat) (owner : String) (aggregate : Option Aggregate) (depth : Nat) :
    Imports f (walk f limit owner aggregate depth) := by
  induction limit generalizing owner aggregate depth with
  | zero => exact imports_of_read fun _ => rfl
  | succ limit ih =>
    refine imports_bind (imports_tell _) fun _ => ?_
    refine imports_bind (imports_of_read fun d => by simp) fun layout => ?_
    refine imports_forM fun index _ => ?_
    refine imports_bind (imports_meet _ aggregate depth) fun inner => ?_
    cases inner with
    | none => exact imports_of_read fun _ => rfl
    | some type => exact ih type _ _

/-- A class imports what its entries make necessary. -/
theorem imports_of_model {t : Target} {s : Schema} {name : String} {m : ClassModel}
    (h : modelOf t s name = .ok m) : m.imports =
      m.entries.foldl (fun imports e => t.addImports imports e.varType m.className m.baseClass) [] := by
  obtain ⟨d, hd⟩ := modelOf_eq_ok h
  obtain ⟨className, f, comments, -, hframe, hwalk, hfinish⟩ := build_eq_ok hd
  obtain ⟨rfl, -⟩ := frameOf_eq_ok hframe
  obtain ⟨constructors, -, rfl⟩ := Checked.return_eq_ok.1 hfinish
  have himports := imports_walk s.depthLimit name none 0 (f := f)
    { schema := s.setFact name "name" (Text.lowerFirst name) } rfl
  rwa [hwalk] at himports

end ClassModel

/-- Numbers and bytes, for which there is no class. -/
def Kind.isRaw (k : Kind) : Bool := k == simple || k == buffer || k == sizeField

namespace ClassModel

variable {s : Schema} {site : Site} {r : Record} {x : Member}

theorem MemberFrom.varType_of_raw (h : MemberFrom .typescript s site r x) (hraw : x.kind.isRaw = true) :
    x.varType ∈ ["number", "number[]", "Uint8Array"] := by
  obtain ⟨type, htype⟩ := h.exists_type
  have hneed : r.value.need "type" = .ok (.text type) := Record.need_eq_ok.2 htype
  have hvar := h.varType
  have hnumber : (s.sizeOf r >>= Target.numberType .typescript) = .ok x.varType →
      x.varType ∈ ["number", "number[]", "Uint8Array"] := by
    intro hsize
    rw [h.size, ok_bind, Target.numberType, pure_eq_ok] at hsize
    rw [← Except.ok.inj hsize]
    split <;> simp
  simp only [Target.typeOf, hneed, ok_bind] at hvar
  cases hk : x.kind <;> simp only [hk] at hvar hraw
  case simple | sizeField => exact hnumber hvar
  case buffer => simp [← Except.ok.inj hvar, Target.bytesType]
  all_goals cases hraw

/-- The type of a variable that is no number and no sequence of bytes shows the class of its own type. -/
theorem MemberFrom.varType_of_class (h : MemberFrom .typescript s site r x)
    (hraw : x.kind.isRaw = false) (hbyte : r.is "type" "byte" = false) :
    x.varType = x.className ∨ x.varType = x.className ++ "[]" := by
  obtain ⟨type, htype⟩ := h.exists_type
  have hneed : r.value.need "type" = .ok (.text type) := Record.need_eq_ok.2 htype
  have hclass : s.className (.text type) r = .ok x.className := by simpa [htype] using h.className
  have hno : Value.isByte (.text type) = false := by
    simpa [Record.is, htype, Value.isByte] using hbyte
  have hvar := h.varType
  simp only [Target.typeOf, hneed, ok_bind] at hvar
  cases hk : x.kind <;> rw [hk] at hraw <;> cases hraw <;>
    simp only [hk, hno, hclass, ok_bind, Bool.false_eq_true, if_false] at hvar <;>
    rw [← Except.ok.inj hvar]
  case custom | unknown => exact .inl rfl
  all_goals exact .inr rfl

/-- An entry of a model has what the attribute at its site brings into a class. -/
theorem memberFrom_of_model {t : Target} {name : String} {m : ClassModel} (h : modelOf t s name = .ok m)
    {e : Entry} (he : e ∈ m.entries) : ∃ r, MemberFrom t s.settled e.site r e.toMember := by
  obtain ⟨f, rfl, -, -, hdrawn, -, -⟩ := drawn_of_model h
  obtain ⟨v, -, hdepicts⟩ := exists_depicted (depicts_of_drawn hdrawn) he
  rw [depicts_site hdepicts]
  exact memberFrom_of_memberOf hdepicts.member

theorem is_type_of_memberFrom {t : Target} {type : Value} (h : MemberFrom t s.settled site r x) :
    r.is "type" type = (s.attributeAt site).is "type" type := by
  have hr := Schema.recordAt_eq_ok.1 h.record
  rw [Schema.attributeAt?_settled] at hr
  obtain ⟨r₀, hr₀, rfl⟩ := Option.map_eq_some_iff.1 hr
  rw [Schema.attributeAt, hr₀, Option.getD_some, Record.is, Record.is,
    Record.get?_settled _ (by simp) (by simp)]

end ClassModel

namespace Target
variable {imports : List String} {own type : String} {base : Option String}

theorem addImports_raw (h : type ∈ ["number", "number[]", "Uint8Array"]) :
    typescript.addImports imports type own base = imports := by
  have hnumber : scriptImports own base imports "number" = imports := by
    have hheader : Text.holds "TransactionHeaderBuilder" "number" = false := by decide
    have hembedded : Text.holds "EmbeddedTransactionBuilder" "number" = false := by decide
    have hcapital : startsCapital "number" = false := by decide
    simp [scriptImports, hheader, hembedded, hcapital]
  have hbytes : scriptImports own base imports "Uint8Array" = imports := by simp [scriptImports]
  have hnames : namesIn "number" = ["number"] ∧ namesIn "number[]" = ["number"] ∧
      namesIn "Uint8Array" = ["Uint8Array"] := by decide
  simp only [List.mem_cons, List.not_mem_nil, or_false] at h
  rcases h with rfl | rfl | rfl <;> simp [addImports, hnames, hnumber, hbytes]

theorem addImports_class {name : String} (h : Text.isTypeName name = true)
    (htype : type = name ∨ type = name ++ "[]") :
    typescript.addImports imports type own base = scriptImports own base imports name := by
  rcases htype with rfl | rfl <;> simp [addImports, namesIn_class h, namesIn_list h]

end Target

/-- A TypeScript class imports for its entries in turn, unless they are numbers or bytes. -/
theorem ClassModel.imports_eq_classes {s : Schema} {name : String} {m : ClassModel}
    (h : modelOf .typescript s name = .ok m)
    (hclass : ∀ e ∈ m.entries, e.kind.isRaw = false → Text.isTypeName e.className = true ∧
      (s.attributeAt e.site).is "type" "byte" = false) :
    m.imports = ((m.entries.filter (!·.kind.isRaw)).map (·.className)).foldl
      (Target.scriptImports m.className m.baseClass) [] := by
  rw [imports_of_model h, List.foldl_map, List.foldl_filter]
  refine List.foldl_ext _ _ _ fun imports e he => ?_
  obtain ⟨r, hr⟩ := memberFrom_of_model h he
  cases hraw : e.kind.isRaw with
  | true => simpa using Target.addImports_raw (hr.varType_of_raw hraw)
  | false =>
    obtain ⟨hname, hbyte⟩ := hclass e he hraw
    rw [← is_type_of_memberFrom hr] at hbyte
    simpa using Target.addImports_class hname (hr.varType_of_class hraw hbyte)

end SchemaForge
