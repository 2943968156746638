import Mathlib.Data.List.Perm.Basic
import SchemaForge.Proofs.Linked

/-! Imports and exports in the files of a TypeScript run. They are read off the texts of the files, and
each of them leads to a file of the same run. -/
namespace SchemaForge
open Checked Source TypeScriptSupport Text

/-- A name, and the file from which it is imported. -/
structure ScriptImport where
  name : String
  path : String
  deriving DecidableEq, Repr

/-- A class, from the file that is called like it. -/
def ScriptImport.ofClass (name : String) : ScriptImport := ⟨name, "./" ++ name⟩

namespace ScriptText

/-- The signs around the words of an import or an export. -/
def isSign (c : Char) : Bool :=
  [' ', '{', '}', Text.singleQuote, Text.doubleQuote, ';'].contains c

def quotes : List String := ["'", "\""]

def words (line : String) : List String := Text.wordsIn isSign line.toList

def readImport? (line : String) : Option ScriptImport :=
  match words line with
  | ["import", name, "from", path] => some ⟨name, path⟩
  | _ => none

/-- The file that a line exports. -/
def readExport? (line : String) : Option String :=
  match words line with
  | ["export", "*", "from", path] => some path
  | _ => none

/-- The line for a class in an index. -/
def exportLine (className : String) : String := "export * from './" ++ className ++ "';"

theorem exportLine_eq (className : String) :
    exportLine className = "export * from './" ++ className ++ "';" := rfl

def lines (code : String) : List String := Text.splitOn (· == '\n') code

/-- The imports in front of everything else. -/
def importsOf : List String → List ScriptImport
  | [] => []
  | line :: rest =>
    match readImport? line with
    | some i => i :: importsOf rest
    | none => []

/-- What lines export, with `none` for a line that does something else. -/
def exportsOf (ls : List String) : List (Option String) := (ls.filter (!·.isEmpty)).map readExport?

theorem text_cons (line : String) (rest : List String) :
    text (line :: rest) = line ++ "\n" ++ text rest := by
  simp [text, String.join_cons]

theorem lines_cons {line : String} (h : isLine line = true) (rest : List String) :
    lines (text (line :: rest)) = line :: lines (text rest) := by
  rw [text_cons]
  exact splitOn_isLine_append h _

theorem lines_text {ls : List String} (h : ∀ line ∈ ls, isLine line = true) :
    lines (text ls) = ls ++ [""] := by
  induction ls with
  | nil => rfl
  | cons line ls ih =>
    rw [lines_cons (h line List.mem_cons_self), ih fun l hl => h l (List.mem_cons_of_mem _ hl)]
    rfl

theorem isSign_of_all {cs : List Char} (h : cs.all (!isSign ·) = true) : ∀ c ∈ cs, isSign c = false := by
  simpa using h

section
variable {name : String} (h : Text.isTypeName name = true)
include h

theorem isSign_eq_false : ∀ c ∈ name.toList, isSign c = false :=
  ends_eq_false h (by
    intro c hc
    simp only [isSign, List.contains_eq_mem, List.mem_cons, List.not_mem_nil, or_false,
      decide_eq_true_eq] at hc
    rcases hc with rfl | rfl | rfl | rfl | rfl | rfl <;> rfl)

theorem isLine_of_isTypeName : isLine name = true := by
  have hends := @ends_eq_false (· == '\n') name h (by
    intro c hc
    rw [eq_of_beq hc]
    rfl)
  simpa [isLine] using hends

/-- The part of a line that says from which file. -/
theorem wordsIn_from {quote : Char} (hq : isSign quote = true) : wordsIn isSign ("from".toList ++
    ' ' :: quote :: (("./".toList ++ name.toList) ++ quote :: [';'])) = ["from", "./" ++ name] := by
  have hpath : ∀ c ∈ "./".toList ++ name.toList, isSign c = false := by
    intro c hc
    rcases List.mem_append.1 hc with hc | hc
    · exact @isSign_of_all "./".toList rfl c hc
    · exact isSign_eq_false h c hc
  rw [wordsIn_append (by decide) (isSign_of_all rfl) rfl, wordsIn_sign hq,
    wordsIn_append (by simp) hpath hq, wordsIn_sign rfl, String.ofList_append,
    String.ofList_toList, String.ofList_toList, String.ofList_toList]
  rfl

/-- An import is read as it was written. -/
theorem readImport?_importFrom {quote : String} (hq : quote ∈ quotes) :
    readImport? (importFrom quote name) = some (.ofClass name) := by
  obtain ⟨sign, hsign, rfl⟩ : ∃ sign, isSign sign = true ∧ quote = String.singleton sign := by
    simp only [quotes, List.mem_cons, List.not_mem_nil, or_false] at hq
    rcases hq with rfl | rfl
    · exact ⟨singleQuote, rfl, rfl⟩
    · exact ⟨doubleQuote, rfl, rfl⟩
  have hchars : (importFrom (String.singleton sign) name).toList =
      "import".toList ++ ' ' :: '{' :: ' ' :: (name.toList ++ ' ' :: '}' :: ' ' ::
        ("from".toList ++ ' ' :: sign :: (("./".toList ++ name.toList) ++ sign :: [';']))) := by
    simp [importFrom, openBrace, closeBrace, toString]
  have hwords : words (importFrom (String.singleton sign) name) =
      ["import", name, "from", "./" ++ name] := by
    rw [words, hchars, wordsIn_append (by decide) (isSign_of_all rfl) rfl, wordsIn_sign rfl,
      wordsIn_sign rfl, wordsIn_append (toList_ne_nil h) (isSign_eq_false h) rfl,
      wordsIn_sign rfl, wordsIn_sign rfl, wordsIn_from h hsign, String.ofList_toList,
      String.ofList_toList]
  rw [readImport?, hwords]
  rfl

theorem isLine_importFrom {quote : String} (hq : quote ∈ quotes) :
    isLine (importFrom quote name) = true := by
  have hquote : isLine quote = true := by
    simp only [quotes, List.mem_cons, List.not_mem_nil, or_false] at hq
    rcases hq with rfl | rfl <;> rfl
  have hname := isLine_of_isTypeName h
  simp only [importFrom, toString, isLine_append, hname, hquote]
  decide

/-- One import in front of others. -/
theorem importsOf_importFrom {quote : String} (hq : quote ∈ quotes) (rest : List String) :
    importsOf (lines (text (importFrom quote name :: rest))) =
      .ofClass name :: importsOf (lines (text rest)) := by
  rw [lines_cons (isLine_importFrom h hq), importsOf, readImport?_importFrom h hq]

theorem readExport?_exportLine : readExport? (exportLine name) = some ("./" ++ name) := by
  have hchars : (exportLine name).toList =
      "export".toList ++ ' ' :: ("*".toList ++ ' ' :: ("from".toList ++ ' ' :: singleQuote ::
        (("./".toList ++ name.toList) ++ singleQuote :: [';']))) := by
    simp [exportLine_eq, singleQuote]
  have hwords : words (exportLine name) = ["export", "*", "from", "./" ++ name] := by
    rw [words, hchars, wordsIn_append (by decide) (isSign_of_all rfl) rfl,
      wordsIn_append (by decide) (isSign_of_all rfl) rfl, wordsIn_from h rfl, String.ofList_toList,
      String.ofList_toList]
  rw [readExport?, hwords]
  rfl

end

theorem importsOf_end {line : String} (hl : isLine line = true) (hi : readImport? line = none)
    (rest : List String) : importsOf (lines (text (line :: rest))) = [] := by
  rw [lines_cons hl, importsOf, hi]

/-- The imports at the top of a file are those up to the first empty line. -/
theorem importsOf_opening {names ls : List String} (hls : names.map (importFrom "'") ++ [""] <+: ls)
    (h : ∀ name ∈ names, isTypeName name = true) :
    importsOf (lines (text ls)) = names.map .ofClass := by
  obtain ⟨rest, rfl⟩ := hls
  rw [List.append_assoc]
  induction names with
  | nil => exact importsOf_end rfl rfl rest
  | cons name names ih =>
    rw [List.map_cons, List.cons_append, importsOf_importFrom (h name List.mem_cons_self) (by decide),
      ih fun n hn => h n (List.mem_cons_of_mem _ hn), List.map_cons]

theorem importsOf_opening_cons {first quote : String} {names ls : List String}
    (hls : [importFrom quote first] ++ names.map (importFrom "'") ++ [""] <+: ls)
    (hq : quote ∈ quotes) (h : ∀ name ∈ first :: names, isTypeName name = true) :
    importsOf (lines (text ls)) = (first :: names).map .ofClass := by
  obtain ⟨rest, rfl⟩ := hls
  have hfirst := importsOf_importFrom (h first List.mem_cons_self) hq
    (names.map (importFrom "'") ++ [""] ++ rest)
  rwa [importsOf_opening (List.prefix_append _ _) fun name hname =>
    h name (List.mem_cons_of_mem _ hname)] at hfirst

/-- Code is written from the left, so what it begins with lies under all that was added. -/
theorem prefix_append_append {l a b : List String} (h : l <+: a ++ b) (c : List String) :
    l <+: a ++ b ++ c := h.trans (List.prefix_append _ _)

theorem importFrom_eq (name : String) : importFrom "'" name =
    "import " ++ openBrace ++ " " ++ name ++ " " ++ closeBrace ++ " from './" ++ name ++ "';" := by
  have hopen : " from './" = " from " ++ "'" ++ "./" := by decide
  have hclose : "';" = "'" ++ ";" := by decide
  simp only [importFrom, toString, hopen, hclose, String.append_assoc]

section
variable {s : Schema} {code : String}

theorem importsOf_class {m : ClassModel} (h : TypeScriptClass.source s m = .ok code)
    (hm : ∀ i ∈ m.imports, isTypeName i = true) : importsOf (lines code) =
      (["Serializer", "GeneratorUtils"] ++ m.imports.mergeSort (· ≤ ·)).map .ofClass := by
  obtain ⟨constructor, -, h⟩ := bind_eq_ok.1 h
  obtain ⟨fromBinary, -, h⟩ := bind_eq_ok.1 h
  obtain ⟨factories, -, h⟩ := bind_eq_ok.1 h
  obtain ⟨getters, -, h⟩ := bind_eq_ok.1 h
  obtain ⟨size, -, h⟩ := bind_eq_ok.1 h
  obtain ⟨serialize, -, rfl⟩ := return_eq_ok.1 h
  have hline : TypeScriptClass.importLine = importFrom "'" := funext fun name => (importFrom_eq name).symm
  refine importsOf_opening ?_ ?_
  · repeat apply prefix_append_append
    rw [hline]
    exact (List.prefix_append_right_inj _).2 ⟨_, rfl⟩
  · have hfixed : ∀ name ∈ ["Serializer", "GeneratorUtils"], isTypeName name = true := by decide
    intro name hname
    rcases List.mem_append.1 hname with hname | hname
    · exact hfixed name hname
    · exact hm name (List.mem_mergeSort.1 hname)

theorem importsOf_atom {m : AtomModel} (h : AtomSource.typescript m = .ok code) :
    importsOf (lines code) = ["Serializer", "GeneratorUtils"].map .ofClass := by
  obtain ⟨read, -, h⟩ := bind_eq_ok.1 h
  obtain ⟨write, -, rfl⟩ := return_eq_ok.1 h
  have hline : ∀ name, AtomSource.importLine name name = importFrom "'" name :=
    fun name => (importFrom_eq name).symm
  rw [hline, hline]
  exact importsOf_opening ⟨_, rfl⟩ (by decide)

theorem importsOf_enum (m : EnumModel) : importsOf (lines (EnumSource.typescript m)) = [] :=
  importsOf_end rfl rfl _

theorem importsOf_utilities :
    importsOf (lines TypeScriptUtilities.source) = ["Serializer"].map .ofClass := by
  have hline : "import \x7b Serializer \x7d from './Serializer';" = importFrom "'" "Serializer" := by
    decide
  rw [TypeScriptUtilities.source, hline]
  refine importsOf_opening ?_ (by decide)
  repeat apply prefix_append_append
  exact ⟨_, rfl⟩

theorem importsOf_serializer : importsOf (lines serializer) = [] := by
  rw [serializer, JavaSupport.interfaceText]
  simp only [List.append_assoc, List.cons_append]
  exact importsOf_end (by decide) (by decide) _

theorem importsOf_helper {base kind quote : String} {admits : String → Bool}
    {dispatch : Entity → List String} (h : helper base kind quote admits dispatch s = .ok code)
    (hq : quote ∈ quotes) :
    ∃ entities, Entity.select admits s = .ok entities ∧
      let names := (base ++ "Builder") :: (entities.filterMap id).map Entity.builder
      (∀ name ∈ names, isTypeName name = true) → importsOf (lines code) = names.map .ofClass := by
  obtain ⟨entities, hentities, rfl⟩ := return_eq_ok.1 h
  refine ⟨entities, hentities, importsOf_opening_cons ?_ hq⟩
  refine prefix_append_append (prefix_append_append ?_ _) _
  rw [List.map_map]
  exact (List.prefix_append_right_inj _).2 ⟨_, rfl⟩

end
end ScriptText

/-- The text after the opening lines. -/
def SourceFile.body (f : SourceFile) : String := f.code.getLast?.getD ""

/-- The imports at the top of a file. Further down there may be any text, in comments. -/
def SourceFile.imports (f : SourceFile) : List ScriptImport :=
  ScriptText.importsOf (ScriptText.lines f.body)

def SourceFile.exports (f : SourceFile) : List (Option String) :=
  ScriptText.exportsOf (ScriptText.lines f.body)

theorem Plan.body_of_write {t : Target} {notice : Notice} {s : Schema} {p : Plan} {file : SourceFile}
    (h : p.write t notice s = .ok file) : p.body t s = .ok file.body := by
  obtain ⟨opening, -, h⟩ := bind_eq_ok.1 h
  obtain ⟨body, hbody, rfl⟩ := return_eq_ok.1 h
  simp [SourceFile.body, hbody]

namespace Schema
variable {s : Schema}

/-- The files that an index exports, in its order. -/
def scriptModules (s : Schema) : List String := s.classNames ++
  ["TransactionHelper", "EmbeddedTransactionHelper", "GeneratorUtils", "Serializer"]

theorem classNames_subset (s : Schema) : s.classNames ⊆ s.scriptModules := List.subset_append_left _ _

variable (h : s.Linked)
include h

theorem Linked.isTypeName_module : ∀ name ∈ s.scriptModules, isTypeName name = true := by
  have hfixed : ∀ name ∈ ["TransactionHelper", "EmbeddedTransactionHelper", "GeneratorUtils",
      "Serializer"], isTypeName name = true := by decide
  intro name hname
  rcases List.mem_append.1 hname with hname | hname
  · obtain ⟨type, htype, -, rfl⟩ := mem_classNames.1 hname
    exact h.isTypeName_classOf htype
  · exact hfixed name hname

/-- Only structures have attributes. -/
theorem Linked.isSort_of_attribute {site : Site} {r : Record} (hat : s.attributeAt? site = some r) :
    s.isSort "struct" site.owner = true := by
  rw [attributeAt?_eq] at hat
  obtain ⟨d, hd, hat⟩ := Option.bind_eq_some_iff.1 hat
  obtain ⟨own, hown, hat⟩ := Option.bind_eq_some_iff.1 hat
  obtain ⟨own', hown', hsort⟩ := (Option.any_eq_true _ _).1 (h.sorted _ (mem_types_of_get? hd))
  obtain rfl := Option.some.inj (hown.symm.trans hown')
  have hlayout : own.has "layout" = true := by
    rw [Record.has]
    cases hl : own.get? "layout" with
    | none => simp [hl] at hat
    | some layout => rfl
  simpa [Record.hasOneSort, hlayout, isSort, Value.text?, hd, hown] using hsort

/-- A run gives the index and what it exports. -/
theorem Linked.filePlan_perm :
    (s.filePlan .typescript).Perm (("index" :: s.scriptModules).map (· ++ ".ts")) := by
  have hsupport : (Target.supportFiles .typescript).Perm ("index" ::
      ["TransactionHelper", "EmbeddedTransactionHelper", "GeneratorUtils", "Serializer"]) := by decide
  rw [h.filePlan_eq]
  exact ((hsupport.append_left _).trans List.perm_middle).map _

theorem Linked.mem_filePlan_of_module {name : String} (hname : name ∈ s.scriptModules) :
    name ++ ".ts" ∈ s.filePlan .typescript :=
  h.filePlan_perm.mem_iff.2 (List.mem_map_of_mem (List.mem_cons_of_mem _ hname))

end Schema

/-- A text that imports nothing but files of a run. -/
def ScriptText.ImportsWithin (s : Schema) (code : String) : Prop :=
  ∃ names ⊆ s.scriptModules, importsOf (lines code) = names.map .ofClass

namespace Entity
variable {s₀ s : Schema} {name : String} {declared : Value} {e : Entity}

/-- What fixes the type of an entity is an attribute. -/
theorem exists_site (hd : s.get? name = some declared) (h : ofType? name declared = .ok (some e)) :
    e.name = name ∧ ∃ site r, site.owner = name ∧ s.attributeAt? site = some r ∧
      r.is "name" "entityType" = true ∧ r.has "value" = true := by
  -- Once the attributes are known, one of them has the value.
  have hrest : ∀ attributes : List Value, (do
        let type ← valueOf "entityType" attributes
        let version ← valueOf "version" attributes
        return if 0 < (← type.compared) then some ({ name, type, version } : Entity) else none) =
          (.ok (some e) : Checked (Option Entity)) →
      e.name = name ∧ ∃ r : Record, r.value ∈ attributes ∧ r.is "name" "entityType" = true ∧
        r.has "value" = true := by
    intro attributes h
    obtain ⟨type, htype, h⟩ := bind_eq_ok.1 h
    obtain ⟨version, -, h⟩ := bind_eq_ok.1 h
    obtain ⟨number, hnumber, h⟩ := bind_eq_ok.1 h
    rcases ite_eq_iff.1 (Except.ok.inj h) with ⟨hpositive, hsome⟩ | ⟨-, hnone⟩
    · refine ⟨by rw [← Option.some.inj hsome], ?_⟩
      rcases valueOf_eq_ok htype with rfl | ⟨r, hmem, hname, hvalue⟩
      · obtain rfl := Except.ok.inj hnumber
        exact absurd hpositive (by decide)
      · exact ⟨r, hmem, hname, by simp [Record.has, hvalue]⟩
    · cases hnone
  obtain ⟨found, hfound, h⟩ := bind_eq_ok.1 h
  cases found with
  | none =>
    obtain ⟨-, r, hr, -⟩ := hrest [] h
    cases hr
  | some layout =>
    obtain ⟨attributes, hattributes, h⟩ := bind_eq_ok.1 h
    obtain ⟨hname, r, hr, hentity⟩ := hrest attributes h
    refine ⟨hname, ?_⟩
    have hlayout : (s.need name >>= Value.layout) = .ok attributes := by
      cases declared with
      | table entries =>
        have hget : Record.get? ⟨entries⟩ "layout" = some layout := Except.ok.inj hfound
        refine bind_eq_ok.2 ⟨_, Schema.need_eq_ok.2 hd, ?_⟩
        exact bind_eq_ok.2 ⟨layout, Record.need_eq_ok.2 hget, hattributes⟩
      | _ => cases hfound
    obtain ⟨index, hindex⟩ := List.mem_iff_getElem?.1 hr
    exact ⟨⟨name, index⟩, r, rfl, Schema.attributeAt?_of_layout hlayout hindex, hentity⟩

variable (h₀ : s₀.Linked) (hr : s₀.Reached s)
include h₀ hr

/-- A helper tells apart entities with classes. -/
theorem builder_of_select {admits : String → Bool} {entities : List (Option Entity)}
    (h : select admits s = .ok entities) (he : some e ∈ entities) : e.builder ∈ s₀.classNames := by
  obtain ⟨⟨name, declared⟩, hp, h⟩ := mem_of_mapM h he
  obtain ⟨found, hfound, h⟩ := bind_eq_ok.1 h
  obtain rfl : found = some e := (Option.filter_eq_some_iff.1 (Except.ok.inj h)).1
  have hd := Schema.get?_of_mem (Schema.names_congr hr.settled ▸ h₀.distinct) hp
  obtain ⟨hname, site, r, rfl, hat, hentity, hvalue⟩ := exists_site hd hfound
  obtain ⟨r₀, hat₀, -⟩ := Schema.exists_attribute_congr hr.settled.symm hat
  obtain ⟨howner, hsite⟩ := Schema.mem_sites_of_attributeAt? hat₀
  refine Schema.mem_classNames.2 ⟨site.owner, howner, ?_, ?_⟩
  · rw [Bool.eq_false_iff]
    intro hidden
    have hnames : "entityType" ∈ s₀.namesAt site := by
      refine hr.namesAt site ?_
      simp [Schema.namesAt, Schema.attributeAt, hat, Record.names, Record.get?_of_is hentity]
    have hnone := h₀.untold site.owner howner hidden site hsite hnames
    rw [Record.has, ← Schema.get?_congr hr.settled site (by simp) (by simp), Schema.attributeAt, hat,
      Option.getD_some, ← Record.has, hvalue] at hnone
    cases hnone
  · rw [Schema.classOf, if_pos (h₀.isSort_of_attribute hat₀), builder, hname]

end Entity
namespace ScriptText
variable {s₀ s : Schema} {code : String}

def isExport (line : String) : Bool := Text.isLine line && (readExport? line).isSome

theorem readImport?_of_isExport {line : String} (h : isExport line = true) : readImport? line = none := by
  obtain ⟨path, hpath⟩ := Option.isSome_iff_exists.1 (Bool.and_eq_true_iff.1 h).2
  unfold readExport? at hpath
  unfold readImport?
  split at hpath
  case h_1 hwords =>
    rw [hwords]
    rfl
  case h_2 => cases hpath

section
variable {ls : List String} (h : ∀ line ∈ ls, isExport line = true)
include h

theorem importsOf_exports : importsOf (lines (text ls)) = [] := by
  cases ls with
  | nil => rfl
  | cons line ls =>
    have hline := h line List.mem_cons_self
    exact importsOf_end (Bool.and_eq_true_iff.1 hline).1 (readImport?_of_isExport hline) ls

theorem exportsOf_exports : exportsOf (lines (text ls)) = ls.map readExport? := by
  have hfull : ls.filter (!·.isEmpty) = ls := by
    refine List.filter_eq_self.2 fun line hline => ?_
    have hexport := h line hline
    by_contra hempty
    obtain rfl : line = "" := by simpa using hempty
    revert hexport
    decide
  have hlines := lines_text fun line hline => (Bool.and_eq_true_iff.1 (h line hline)).1
  rw [exportsOf, hlines, List.filter_append, hfull]
  simp

end

theorem isExport_exportLine {className : String} (h : isTypeName className = true) :
    isExport (exportLine className) = true := by
  have hname := isLine_of_isTypeName h
  have hfixed : isLine "export * from './" = true ∧ isLine "';" = true := by decide
  rw [isExport, readExport?_exportLine h, exportLine_eq, isLine_append, isLine_append, hname,
    hfixed.1, hfixed.2]
  rfl

/-- The lines for the files that accompany the classes. -/
def supportExports : List String := ["export * from './TransactionHelper'",
  "export * from './EmbeddedTransactionHelper'", "export * from './GeneratorUtils'",
  "export * from './Serializer'"]

theorem isExport_index (h₀ : s₀.Linked) :
    ∀ line ∈ s₀.classNames.map exportLine ++ supportExports, isExport line = true := by
  have hsupport : ∀ line ∈ supportExports, isExport line = true := by decide +kernel
  intro line hline
  rcases List.mem_append.1 hline with hline | hline
  · obtain ⟨className, hclass, rfl⟩ := List.mem_map.1 hline
    exact isExport_exportLine (h₀.isTypeName_module _ (s₀.classNames_subset hclass))
  · exact hsupport line hline

variable (h₀ : s₀.Linked) (hr : s₀.Reached s) (h : index s = .ok code)
include h₀ hr h

theorem index_eq : code = text (s₀.classNames.map exportLine ++ supportExports) := by
  obtain ⟨classes, hclasses, rfl⟩ := return_eq_ok.1 h
  have heach := @Checked.eq_map_of_mapM _ _ _ (fun p : String × Value =>
    if isHidden p.1 then none else some (exportLine (s₀.classOf p.1))) _ _ hclasses (by
      rintro ⟨name, declared⟩ hp exported h
      obtain ⟨className, hclass, h⟩ := bind_eq_ok.1 h
      have hd := Schema.get?_of_mem (Schema.names_congr hr.settled ▸ h₀.distinct) hp
      rw [Schema.classOf_of_declared (Schema.need_eq_ok.2 hd) hclass,
        Schema.classOf_congr hr.settled] at h
      exact (Except.ok.inj h).symm)
  have hexports : classes.filterMap id = s₀.classNames.map exportLine := by
    rw [heach, List.filterMap_map, Schema.classNames, List.map_map, ← Schema.filterMap_shown,
      ← Schema.names_congr hr.settled, Schema.names, List.filterMap_map]
    rfl
  rw [hexports]
  rfl

theorem exports_index :
    exportsOf (lines code) = s₀.scriptModules.map fun name => some ("./" ++ name) := by
  have hclass : ∀ className ∈ s₀.classNames,
      (readExport? ∘ exportLine) className = some ("./" ++ className) :=
    fun className hmem => readExport?_exportLine (h₀.isTypeName_module _ (s₀.classNames_subset hmem))
  have hsupport : supportExports.map readExport? = ["TransactionHelper", "EmbeddedTransactionHelper",
      "GeneratorUtils", "Serializer"].map fun name => some ("./" ++ name) := by decide +kernel
  rw [index_eq h₀ hr h, exportsOf_exports (isExport_index h₀), List.map_append, List.map_map,
    List.map_congr_left hclass, hsupport, Schema.scriptModules, List.map_append]

end ScriptText
namespace Plan
variable {s₀ s : Schema} {t : Target} {name : String} {p : Plan} {code : String}

/-- A type gives its own plan or none. -/
theorem Planned.cases (h : Planned s₀ t name (some p)) : (∃ m, p = .atom m) ∨ (∃ m, p = .enum m) ∨
    ∃ m s, p = .struct m ∧ s₀.Reached s ∧ ClassModel.modelOf t s name = .ok m := by
  obtain ⟨s, hr, h⟩ := h
  rw [runOn_ofType?] at h
  obtain ⟨sort, -, h⟩ := bind_eq_ok.1 h
  rcases ite_eq_iff.1 h with ⟨-, h⟩ | ⟨-, h⟩
  · obtain ⟨m, -, hp⟩ := map_eq_ok.1 h
    exact .inl ⟨m, (Option.some.inj hp).symm⟩
  rcases ite_eq_iff.1 h with ⟨-, h⟩ | ⟨-, h⟩
  · obtain ⟨m, -, hp⟩ := map_eq_ok.1 h
    exact .inr (.inl ⟨m, (Option.some.inj hp).symm⟩)
  rcases ite_eq_iff.1 h with ⟨-, h⟩ | ⟨-, h⟩
  · obtain ⟨m, hm, hp⟩ := map_eq_ok.1 h
    exact .inr (.inr ⟨m, s, (Option.some.inj hp).symm, hr, hm⟩)
  · cases h

theorem imports_struct (h₀ : s₀.Linked) (hr : s₀.Reached s) {m : ClassModel} {final : Schema}
    (hm : ClassModel.modelOf .typescript s name = .ok m)
    (hcode : (Plan.struct m).body .typescript final = .ok code) :
    ScriptText.importsOf (ScriptText.lines code) =
      (["Serializer", "GeneratorUtils"] ++ m.imports.mergeSort (· ≤ ·)).map .ofClass := by
  refine ScriptText.importsOf_class hcode fun i hi => ?_
  rcases ClassModel.of_mem_imports h₀ hr hm hi with rfl | hclass
  · decide
  · exact h₀.isTypeName_module _ (s₀.classNames_subset hclass)

theorem importsWithin_type (h₀ : s₀.Linked) (hp : Planned s₀ .typescript name (some p))
    (hcode : p.body .typescript s = .ok code) : ScriptText.ImportsWithin s₀ code := by
  have hshared : ["Serializer", "GeneratorUtils"] ⊆ s₀.scriptModules :=
    List.Subset.trans (by decide) (List.subset_append_right _ _)
  obtain ⟨m, rfl⟩ | ⟨m, rfl⟩ | ⟨m, s₁, rfl, hr₁, hm⟩ := hp.cases
  · exact ⟨_, hshared, ScriptText.importsOf_atom hcode⟩
  · obtain rfl := Except.ok.inj hcode
    exact ⟨[], List.nil_subset _, ScriptText.importsOf_enum m⟩
  · refine ⟨_, List.append_subset.2 ⟨hshared, fun i hi => ?_⟩, imports_struct h₀ hr₁ hm hcode⟩
    rcases ClassModel.of_mem_imports h₀ hr₁ hm (List.mem_mergeSort.1 hi) with rfl | hclass
    · exact List.mem_append_right _ (by decide)
    · exact s₀.classNames_subset hclass

variable (h₀ : s₀.Linked) (hr : s₀.Reached s)
include h₀ hr

theorem importsWithin_helper {base kind quote : String} {admits : String → Bool}
    {dispatch : Entity → List String} (hcode : helper base kind quote admits dispatch s = .ok code)
    (hq : quote ∈ ScriptText.quotes) (hbase : base ∈ ["Transaction", "EmbeddedTransaction"]) :
    ScriptText.ImportsWithin s₀ code := by
  obtain ⟨entities, hentities, himports⟩ := ScriptText.importsOf_helper hcode hq
  have hsort := h₀.transactions base hbase
  have hidden : isHidden base = false := by
    simp only [List.mem_cons, List.not_mem_nil, or_false] at hbase
    rcases hbase with rfl | rfl <;> decide
  obtain ⟨_, d, hd, hget, -⟩ := Schema.exists_of_isSort hsort
  obtain rfl := Value.text.inj hd
  have hnames : (base ++ "Builder") :: (entities.filterMap id).map Entity.builder ⊆ s₀.classNames := by
    refine List.cons_subset.2 ⟨?_, fun builder hbuilder => ?_⟩
    · refine Schema.mem_classNames.2 ⟨base, Schema.mem_names_of_get? hget, hidden, ?_⟩
      rw [Schema.classOf, if_pos hsort]
    · obtain ⟨e, he, rfl⟩ := List.mem_map.1 hbuilder
      exact Entity.builder_of_select h₀ hr hentities (by simpa using he)
  have hmodules := List.Subset.trans hnames s₀.classNames_subset
  exact ⟨_, hmodules, himports fun name hname => h₀.isTypeName_module name (hmodules hname)⟩

theorem importsWithin_support (hname : name ∈ Target.supportFiles .typescript)
    (hcode : (Plan.support name).body .typescript s = .ok code) : ScriptText.ImportsWithin s₀ code := by
  simp only [Target.supportFiles, List.mem_cons, List.not_mem_nil, or_false] at hname
  rcases hname with rfl | rfl | rfl | rfl | rfl
  · obtain rfl := Except.ok.inj hcode
    refine ⟨_, ?_, ScriptText.importsOf_utilities⟩
    exact List.Subset.trans (by decide) (List.subset_append_right _ _)
  · exact importsWithin_helper h₀ hr hcode (by decide) (by decide)
  · exact importsWithin_helper h₀ hr hcode (by decide) (by decide)
  · obtain rfl := Except.ok.inj hcode
    exact ⟨[], List.nil_subset _, ScriptText.importsOf_serializer⟩
  · refine ⟨[], List.nil_subset _, ?_⟩
    rw [ScriptText.index_eq h₀ hr hcode]
    exact ScriptText.importsOf_exports (ScriptText.isExport_index h₀)

end Plan
namespace ClassRun
variable {notice : Notice} {s : Schema}

section
variable (hs : s.Linked) (hd : (drain .typescript notice s).2.1 = none)
include hs hd

theorem importsWithin_of_mem {file : SourceFile} (hfile : file ∈ (drain .typescript notice s).1) :
    ScriptText.ImportsWithin s file.body := by
  obtain ⟨plans, s', typed, -, hcomplete, htyped, rfl, hfiles⟩ := exists_plans hd
  obtain ⟨p, hp, hwrite⟩ := mem_of_mapM hfiles hfile
  have hcode := Plan.body_of_write hwrite
  rcases List.mem_append.1 hp with hp | hp
  · obtain ⟨name, -, hplanned⟩ := Plan.exists_name_of_made htyped hp
    exact Plan.importsWithin_type hs hplanned hcode
  · obtain ⟨name, hname, rfl⟩ := List.mem_map.1 hp
    exact Plan.importsWithin_support hs hcomplete.reached hname hcode

/-- What an index exports are the other files of the run. -/
theorem others_perm : (((drain .typescript notice s).1.filter (·.name ≠ "index.ts")).map (·.name)).Perm
    (s.scriptModules.map (· ++ ".ts")) := by
  have hfilter : (s.scriptModules.map (· ++ ".ts")).filter (· ≠ "index.ts") =
      s.scriptModules.map (· ++ ".ts") := by
    refine List.filter_eq_self.2 fun file hfile => ?_
    obtain ⟨name, hname, rfl⟩ := List.mem_map.1 hfile
    have hne : name ++ ".ts" ≠ "index" ++ ".ts" := by
      rw [Ne, String.append_left_inj]
      rintro rfl
      exact absurd (hs.isTypeName_module _ hname) (by decide)
    simpa using hne
  have hperm := hs.filePlan_perm.filter (· ≠ "index.ts")
  rw [List.map_cons, List.filter_cons_of_neg (by decide), hfilter, ← names_drain_eq hs.distinct hd,
    List.filter_map] at hperm
  exact hperm

/-- A file is there for each import of another one. -/
theorem exists_imported {file : SourceFile} (hfile : file ∈ (drain .typescript notice s).1)
    {i : ScriptImport} (hi : i ∈ file.imports) :
    i.path = "./" ++ i.name ∧ ∃ other ∈ (drain .typescript notice s).1, other.name = i.name ++ ".ts" := by
  obtain ⟨names, hmodules, himports⟩ := importsWithin_of_mem hs hd hfile
  rw [SourceFile.imports, himports] at hi
  obtain ⟨name, hname, rfl⟩ := List.mem_map.1 hi
  have hplanned := hs.mem_filePlan_of_module (hmodules hname)
  rw [← names_drain_eq hs.distinct hd] at hplanned
  obtain ⟨other, hother, heq⟩ := List.mem_map.1 hplanned
  exact ⟨rfl, other, hother, heq⟩

/-- An index exports each other file of the run, and nothing else. -/
theorem exists_index : ∃ index ∈ (drain .typescript notice s).1, index.name = "index.ts" ∧
    (index.exports.map (Option.map (· ++ ".ts"))).Perm
      (((drain .typescript notice s).1.filter (·.name ≠ "index.ts")).map fun other =>
        some ("./" ++ other.name)) := by
  obtain ⟨plans, s', typed, -, hcomplete, htyped, rfl, hfiles⟩ := exists_plans hd
  have hplan : Plan.support "index" ∈ (Target.supportFiles .typescript).map Plan.support :=
    List.mem_map_of_mem (by decide)
  obtain ⟨index, hindex, hwrite⟩ := exists_of_mapM hfiles (List.mem_append_right _ hplan)
  refine ⟨index, hindex, Plan.name_of_write hwrite, ?_⟩
  have hexports := ScriptText.exports_index hs hcomplete.reached (Plan.body_of_write hwrite)
  have hothers := (others_perm hs hd).map fun name => some ("./" ++ name)
  rw [List.map_map, List.map_map] at hothers
  have hmap : (Option.map (· ++ ".ts") ∘ fun name => some ("./" ++ name)) =
      (fun name => some ("./" ++ name)) ∘ (· ++ ".ts") :=
    funext fun name => congrArg some String.append_assoc
  rw [SourceFile.exports, hexports, List.map_map, hmap]
  exact hothers.symm

/-- The file for a structure imports the classes that its model names. -/
theorem exists_class_imports {plans : List Plan} {s' : Schema}
    (hall : runOn (Plan.all .typescript) s = (.ok plans, s')) {name : String} (hname : name ∈ s.names)
    (hclass : s.isClass name = true) : ∃ m file, Plan.struct m ∈ plans ∧
      file ∈ (drain .typescript notice s).1 ∧ file.name = name ++ "Builder.ts" ∧
      (Plan.struct m).write .typescript notice s' = .ok file ∧
      ∀ className, m.Names s' className →
        className = m.className ∨ .ofClass className ∈ file.imports := by
  obtain ⟨plans', s'', typed, hall', hcomplete, htyped, rfl, hfiles⟩ := exists_plans hd
  obtain ⟨hplans, rfl⟩ := Prod.mk.inj (hall.symm.trans hall')
  obtain rfl := Except.ok.inj hplans
  obtain ⟨plan, hplan, s₁, hr₁, hmade⟩ := Plan.exists_made htyped hname
  rw [Plan.runOn_ofType?_of_class _ hr₁ hclass] at hmade
  obtain ⟨m, hm, rfl⟩ := map_eq_ok.1 hmade
  have hmem : Plan.struct m ∈ typed.filterMap id := List.mem_filterMap.2 ⟨_, hplan, rfl⟩
  obtain ⟨file, hfile, hwrite⟩ := exists_of_mapM hfiles (List.mem_append_left _ hmem)
  refine ⟨m, file, List.mem_append_left _ hmem, hfile, ?_, hwrite, fun className hnamed => ?_⟩
  · have hsort := hr₁.need_of_isSort (Schema.isSort_of_isClass hclass)
    rw [Plan.name_of_write hwrite, Plan.fileName, Plan.fileName_struct hsort hm, if_pos (by decide),
      String.append_assoc]
    rfl
  · rw [SourceFile.imports, Plan.imports_struct hs hr₁ hm (Plan.body_of_write hwrite)]
    rcases ClassModel.mem_imports_of_names hs hr₁ hm hname hclass hcomplete.reached.settled hnamed with
      himport | hself
    · refine .inr (List.mem_map_of_mem (List.mem_append_right _ ?_))
      exact List.mem_mergeSort.2 himport
    · exact .inl hself

end

end ClassRun
/-- A transaction behind a header that is hidden, with a condition and with embedded transactions in its
body. -/
def voucherSchema : Schema := ⟨[
  ("Amount", .table [("type", "byte"), ("size", .int 8)]),
  ("VoucherFlags", .table [("type", "enum"), ("size", .int 1), ("values", .list [
    .table [("name", "limited"), ("value", .int 1)],
    .table [("name", "named"), ("value", .int 2)]])]),
  ("SizePrefixedEntity", .table [("type", "struct"), ("layout", .list [
    .table [("name", "size"), ("type", "byte"), ("size", .int 4)]])]),
  ("Transaction", .table [("type", "struct"), ("layout", .list [
    .table [("disposition", "inline"), ("type", "SizePrefixedEntity")],
    .table [("name", "fee"), ("type", "Amount")]])]),
  ("EmbeddedTransaction", .table [("type", "struct"), ("layout", .list [
    .table [("disposition", "inline"), ("type", "SizePrefixedEntity")]])]),
  ("VoucherTransactionBody", .table [("type", "struct"), ("layout", .list [
    .table [("name", "flags"), ("type", "VoucherFlags")],
    .table [("name", "deadline"), ("type", "Amount"), ("condition", "flags"),
      ("condition_operation", "has"), ("condition_value", "limited")],
    .table [("disposition", "fill"), ("name", "uses"), ("type", "EmbeddedTransaction"), ("size", .int 0)]])]),
  ("VoucherTransaction", .table [("type", "struct"), ("layout", .list [
    .table [("disposition", "const"), ("name", "entityType"), ("type", "Amount"), ("value", .int 16718)],
    .table [("disposition", "inline"), ("type", "Transaction")],
    .table [("disposition", "inline"), ("type", "VoucherTransactionBody")]])])]⟩

theorem voucherSchema_linked : voucherSchema.Linked where
  distinct := by decide +kernel
  named := by decide +kernel
  sorted := by decide +kernel
  transactions := by decide +kernel
  hidden := by decide +kernel
  untold := by decide +kernel
  typed := by decide +kernel
  conditional := by decide +kernel
  discriminated := by decide +kernel

end SchemaForge
