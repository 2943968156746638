import SchemaForge.ClassSource.Python
import SchemaForge.Proofs.Filling

/-! Statements line by line. The code for an attribute of a class is a text of several lines, and some of
them stand one step further to the right. Under a condition all lines are put at one depth. -/
namespace SchemaForge
open Text
namespace Text

/-- The text has no line ends of any kind. -/
def isUnbroken (s : String) : Bool := s.toList.all (!isLineEnd ·)

/-- The text starts with something other than white space. -/
def hasStart (s : String) : Bool := s.toList.head?.any (!isBlank ·)

/-- The text ends with something other than white space. -/
def hasEnd (s : String) : Bool := s.toList.getLast?.any (!isBlank ·)

/-- A single line without white space around it. -/
def isTrim (s : String) : Bool := isUnbroken s && hasStart s && hasEnd s

/-- A text without white space that is not empty. -/
def isWord (s : String) : Bool := !s.isEmpty && s.toList.all (!isBlank ·)

@[simp] theorem isUnbroken_append (s t : String) :
    isUnbroken (s ++ t) = (isUnbroken s && isUnbroken t) := by
  simp [isUnbroken]

@[simp] theorem hasStart_append (s t : String) :
    hasStart (s ++ t) = (hasStart s || s.isEmpty && hasStart t) := by
  unfold hasStart
  rw [String.toList_append]
  cases hs : s.toList with
  | nil =>
    obtain rfl : s = "" := by simpa using hs
    simp
  | cons c cs =>
    have hne : s ≠ "" := by
      rintro rfl
      cases hs
    simp [hne]

@[simp] theorem hasEnd_append (s t : String) :
    hasEnd (s ++ t) = (hasEnd t || t.isEmpty && hasEnd s) := by
  unfold hasEnd
  rw [String.toList_append, List.getLast?_append]
  cases ht : t.toList.getLast? with
  | none =>
    obtain rfl : t = "" := by simpa using ht
    simp
  | some c =>
    have hne : t ≠ "" := by
      rintro rfl
      cases ht
    simp [hne]

theorem isBlank_of_isLineEnd {c : Char} (h : isLineEnd c = true) : isBlank c = true := by
  simp only [isLineEnd, isBlank, Bool.or_eq_true, Bool.and_eq_true, decide_eq_true_eq,
    beq_iff_eq] at h ⊢
  omega

theorem isUnbroken_of_isWord {s : String} (h : isWord s = true) : isUnbroken s = true := by
  simp only [isWord, isUnbroken, Bool.and_eq_true, List.all_eq_true] at h ⊢
  intro c hc
  cases he : isLineEnd c with
  | false => rfl
  | true => simpa [isBlank_of_isLineEnd he] using h.2 c hc

theorem hasStart_of_isWord {s : String} (h : isWord s = true) : hasStart s = true := by
  simp only [isWord, Bool.and_eq_true, List.all_eq_true] at h
  cases hs : s.toList with
  | nil => simp [String.toList_eq_nil_iff.1 hs] at h
  | cons c cs =>
    have hc := h.2 c (by simp [hs])
    simpa [hasStart, hs] using hc

theorem hasEnd_of_isWord {s : String} (h : isWord s = true) : hasEnd s = true := by
  simp only [isWord, Bool.and_eq_true, List.all_eq_true] at h
  cases hs : s.toList.getLast? with
  | none => simp [String.toList_eq_nil_iff.1 (List.getLast?_eq_none_iff.1 hs)] at h
  | some c =>
    have hc := h.2 c (List.mem_of_getLast? hs)
    simpa [hasEnd, hs] using hc

/-- A text that opens a line: it starts with something other than white space and has no line ends. -/
structure Opens (s : String) : Prop where
  unbroken : isUnbroken s = true
  start : hasStart s = true

theorem opens_word {s : String} (h : isWord s = true) : Opens s :=
  ⟨isUnbroken_of_isWord h, hasStart_of_isWord h⟩

theorem isUnbroken_ofList {cs : List Char} (h : cs.all (!isLineEnd ·) = true) :
    isUnbroken (String.ofList cs) = true := by
  rwa [isUnbroken, String.toList_ofList]

/-- A text that is known. -/
theorem opens_ofList {cs : List Char}
    (h : (cs.all (!isLineEnd ·) && cs.head?.any (!isBlank ·)) = true) : Opens (String.ofList cs) := by
  simp only [Bool.and_eq_true] at h
  exact ⟨isUnbroken_ofList h.1, by rw [hasStart, String.toList_ofList, h.2]⟩

namespace Opens
variable {s t : String} (h : Opens s)
include h

theorem append (ht : isUnbroken t = true) : Opens (s ++ t) where
  unbroken := by simp [h.unbroken, ht]
  start := by simp [h.start]

theorem word (ht : isWord t = true) : Opens (s ++ t) := h.append (isUnbroken_of_isWord ht)

theorem lit {cs : List Char} (hcs : cs.all (!isLineEnd ·) = true) : Opens (s ++ String.ofList cs) :=
  h.append (isUnbroken_ofList hcs)

theorem close (ht : isUnbroken t = true) (he : hasEnd t = true) : isTrim (s ++ t) = true := by
  simp [isTrim, h.unbroken, h.start, ht, he]

theorem closeWord (ht : isWord t = true) : isTrim (s ++ t) = true :=
  h.close (isUnbroken_of_isWord ht) (hasEnd_of_isWord ht)

theorem closeLit {cs : List Char}
    (hcs : (cs.all (!isLineEnd ·) && cs.getLast?.any (!isBlank ·)) = true) :
    isTrim (s ++ String.ofList cs) = true := by
  simp only [Bool.and_eq_true] at hcs
  exact h.close (isUnbroken_ofList hcs.1) (by rw [hasEnd, String.toList_ofList, hcs.2])

end Opens

theorem isTrim_ofList {cs : List Char} (h : (cs.all (!isLineEnd ·) && cs.head?.any (!isBlank ·) &&
    cs.getLast?.any (!isBlank ·)) = true) : isTrim (String.ofList cs) = true := by
  simpa [isTrim, isUnbroken, hasStart, hasEnd] using h

theorem mem_of_mem_breakWords {cs : List Char} {c : Char} (h : c ∈ breakWords cs) :
    c ∈ cs ∨ c = '_' := by
  fun_induction breakWords cs with
  | case1 a d rest _ ih =>
    simp only [List.mem_cons, List.mem_append] at h
    rcases h with rfl | rfl | rfl | h | h
    · simp
    · simp
    · simp
    · simp [List.takeWhile_subset _ h]
    · rcases ih h with h | h
      · simp [List.dropWhile_subset _ h]
      · simp [h]
  | case2 a d rest _ ih =>
    rcases List.mem_cons.1 h with rfl | h
    · simp
    · exact (ih h).imp_left (List.mem_cons_of_mem _)
  | case3 cs _ => exact .inl h

theorem mem_of_mem_breakCapitals {cs : List Char} {c : Char} (h : c ∈ breakCapitals cs) :
    c ∈ cs ∨ c = '_' := by
  fun_induction breakCapitals cs with
  | case1 a d rest _ ih =>
    simp only [List.mem_cons] at h
    rcases h with rfl | rfl | rfl | h
    · simp
    · simp
    · simp
    · rcases ih h with h | h <;> simp [h]
  | case2 a d rest _ ih =>
    rcases List.mem_cons.1 h with rfl | h
    · simp
    · exact (ih h).imp_left (List.mem_cons_of_mem _)
  | case3 cs _ => exact .inl h

theorem breakWords_eq_nil {cs : List Char} (h : breakWords cs = []) : cs = [] := by
  fun_induction breakWords cs with
  | case1 => cases h
  | case2 => cases h
  | case3 => exact h

theorem breakCapitals_eq_nil {cs : List Char} (h : breakCapitals cs = []) : cs = [] := by
  fun_induction breakCapitals cs with
  | case1 => cases h
  | case2 => cases h
  | case3 => exact h

theorem lowerForm_ne_nil (c : Char) : lowerForm c ≠ [] := by
  unfold lowerForm
  split
  · simp
  · cases hlong : longForm longLower c with
    | none => simp
    | some form =>
      obtain ⟨codes, hcodes, rfl⟩ := Option.map_eq_some_iff.1 hlong
      obtain ⟨before, after, htable, -⟩ := List.lookup_eq_some_iff.1 hcodes
      have hall : ∀ e ∈ longLower, e.2 ≠ [] := by decide
      have hne := hall (c.toNat, codes) (by simp [htable])
      simpa using hne

/-- A word stays one in small letters with underscores. -/
theorem isWord_camelToSnake {s : String} (h : isWord s = true) : isWord (camelToSnake s) = true := by
  simp only [isWord, Bool.and_eq_true, List.all_eq_true, Bool.not_eq_true'] at h ⊢
  constructor
  · have hne : breakCapitals (breakWords s.toList) ≠ [] := by
      intro hnil
      have hs := String.toList_eq_nil_iff.1 (breakWords_eq_nil (breakCapitals_eq_nil hnil))
      simp [hs] at h
    cases hcs : breakCapitals (breakWords s.toList) with
    | nil => contradiction
    | cons c cs =>
      have hlower : lowerChars (c :: cs) ≠ [] := by
        rw [lowerChars, lowerAfter]
        split <;> simp [lowerForm_ne_nil]
      simpa [camelToSnake, hcs] using hlower
  · intro c hc
    rw [camelToSnake, String.toList_ofList] at hc
    cases hb : isBlank c with
    | false => rfl
    | true =>
      have hmem := mem_of_mem_lowerAfter hc (by simp [isInert, hb])
      rcases mem_of_mem_breakCapitals hmem with hmem | rfl
      · rcases mem_of_mem_breakWords hmem with hmem | rfl
        · exact hb.symm.trans (h.2 c hmem)
        · exact absurd hb (by decide)
      · exact absurd hb (by decide)

theorem isWord_lowerFirst {s : String} (h : isWord s = true) : isWord (lowerFirst s) = true := by
  simp only [isWord, Bool.and_eq_true, List.all_eq_true, Bool.not_eq_true'] at h
  unfold lowerFirst
  cases hs : s.toList with
  | nil => simp [String.toList_eq_nil_iff.1 hs] at h
  | cons c cs =>
    simp only [isWord, Bool.and_eq_true, List.all_eq_true, Bool.not_eq_true', String.toList_ofList]
    refine ⟨by simp [lowerForm_ne_nil], ?_⟩
    intro d hd
    rcases List.mem_append.1 hd with hd | hd
    · cases hb : isBlank d with
      | false => rfl
      | true =>
        obtain rfl := eq_of_mem_lowerForm hd (by simp [isInert, hb])
        exact hb.symm.trans (h.2 d (by simp [hs]))
    · exact h.2 d (by simp [hs, hd])

theorem stripChars_eq {cs : List Char} (hs : cs.head?.any (!isBlank ·) = true)
    (he : cs.getLast?.any (!isBlank ·) = true) : stripChars cs = cs := by
  obtain ⟨c, hc, hc'⟩ := (Option.any_eq_true _ _).1 hs
  obtain ⟨d, hd, hd'⟩ := (Option.any_eq_true _ _).1 he
  obtain ⟨rest, rfl⟩ := List.head?_eq_some_iff.1 hc
  have hfirst : (c :: rest).dropWhile isBlank = c :: rest :=
    List.dropWhile_cons_of_neg (by simpa using hc')
  obtain ⟨front, hfront⟩ := List.getLast?_eq_some_iff.1 hd
  have hlast : (c :: rest).reverse.dropWhile isBlank = (c :: rest).reverse := by
    rw [hfront, List.reverse_append]
    exact List.dropWhile_cons_of_neg (by simpa using hd')
  rw [stripChars, hfirst, hlast, List.reverse_reverse]

theorem strip_of_ends {s : String} (hs : hasStart s = true) (he : hasEnd s = true) : strip s = s := by
  rw [strip, stripChars_eq hs he, String.ofList_toList]

theorem strip_blanks {blanks s : String} (hb : blanks.toList.all isBlank = true)
    (hs : hasStart s = true) (he : hasEnd s = true) : strip (blanks ++ s) = s := by
  have hdrop : (blanks.toList ++ s.toList).dropWhile isBlank = s.toList.dropWhile isBlank := by
    generalize blanks.toList = bs at hb
    induction bs with
    | nil => rfl
    | cons c bs ih =>
      simp only [List.all_cons, Bool.and_eq_true] at hb
      simpa [hb.1] using ih hb.2
  have hsame := strip_of_ends hs he
  unfold strip stripChars at hsame ⊢
  rw [String.toList_append, hdrop]
  exact hsame

theorem lineFeeds_eq {cs : List Char} (h : ∀ c ∈ cs, c ≠ '\r') : lineFeeds cs = cs := by
  fun_induction lineFeeds cs with
  | case1 => rfl
  | case2 rest _ => exact absurd rfl (h '\r' (by simp))
  | case3 rest _ _ => exact absurd rfl (h '\r' (by simp))
  | case4 c rest _ _ ih => rw [ih fun d hd => h d (by simp [hd])]

theorem joinWith_cons (between first second : String) (rest : List String) :
    joinWith between (first :: second :: rest) = first ++ between ++ joinWith between (second :: rest) :=
  String.intercalate_cons_cons

theorem splitChars_joinWith {rows : List String} (hne : rows ≠ [])
    (h : ∀ row ∈ rows, isUnbroken row = true) :
    splitChars isLineEnd (joinWith "\n" rows).toList = rows.map String.toList := by
  have hends : ∀ row ∈ rows, ∀ c ∈ row.toList, isLineEnd c = false := by
    intro row hrow c hc
    simpa using List.all_eq_true.1 (h row hrow) c hc
  induction rows with
  | nil => contradiction
  | cons row rest ih =>
    cases rest with
    | nil =>
      have hsingle : joinWith "\n" [row] = row := String.intercalate_singleton
      rw [hsingle, splitChars_of_none (hends row (by simp))]
      rfl
    | cons next rest =>
      have htext : (joinWith "\n" (row :: next :: rest)).toList =
          row.toList ++ '\n' :: (joinWith "\n" (next :: rest)).toList := by
        rw [joinWith_cons, String.toList_append, String.toList_append, List.append_assoc]
        rfl
      rw [htext, splitChars_append (hends row (by simp)) rfl,
        ih (by simp) (fun r hr => h r (by simp [hr])) fun r hr => hends r (by simp [hr])]
      rfl

theorem ne_return_of_mem_joinWith {rows : List String} (h : ∀ row ∈ rows, isUnbroken row = true) :
    ∀ c ∈ (joinWith "\n" rows).toList, c ≠ '\r' := by
  induction rows with
  | nil => simp [joinWith]
  | cons row rest ih =>
    have hrow : ∀ c ∈ row.toList, c ≠ '\r' := by
      rintro c hc rfl
      exact absurd (List.all_eq_true.1 (h row (by simp)) _ hc) (by decide)
    cases rest with
    | nil =>
      have hsingle : joinWith "\n" [row] = row := String.intercalate_singleton
      rwa [hsingle]
    | cons next rest =>
      intro c hc
      rw [joinWith_cons, String.toList_append, String.toList_append] at hc
      rcases List.mem_append.1 hc with hc | hc
      · rcases List.mem_append.1 hc with hc | hc
        · exact hrow c hc
        · simp only [String.reduceToList, List.mem_singleton] at hc
          simp [hc]
      · exact ih (fun r hr => h r (by simp [hr])) c hc

/-- Lines that are joined come apart again. -/
theorem lines_joinWith {rows : List String} (hne : rows ≠ [])
    (h : ∀ row ∈ rows, isUnbroken row = true) (hl : ∀ row, rows.getLast? = some row → row ≠ "") :
    lines (joinWith "\n" rows) = rows := by
  have hlast : (rows.map String.toList).getLast? ≠ some [] := by
    intro hlast
    rw [List.getLast?_map, Option.map_eq_some_iff] at hlast
    obtain ⟨row, hrow, hempty⟩ := hlast
    exact hl row hrow (by simpa using hempty)
  rw [lines, lineFeeds_eq (ne_return_of_mem_joinWith h), splitChars_joinWith hne h, dropLastEmpty,
    if_neg hlast]
  simp

end Text

namespace PythonClass

/-- A line of a code, with whether it stands in a loop. -/
structure Row where
  inner : Bool
  text : String

/-- The body of a loop stands one step further to the right. -/
def Row.line (r : Row) : String := if r.inner then "    " ++ r.text else r.text

/-- The code is made of a first line and of others, all without white space around them but for that of
the loops. -/
structure LaidOut (code first : String) (rest : List Row) : Prop where
  code : code = statements (first :: rest.map Row.line)
  first : Text.isTrim first = true
  rest : ∀ r ∈ rest, Text.isTrim r.text = true

/-- A code without loops. -/
theorem LaidOut.flat {first : String} {rest : List String} (hf : isTrim first = true)
    (hr : ∀ line ∈ rest, isTrim line = true) :
    LaidOut (statements (first :: rest)) first (rest.map (Row.mk false)) where
  code := by simp [Function.comp_def, Row.line]
  first := hf
  rest := by simpa using hr

/-- The lines as they stand under a condition. -/
def guardedBlock (code : String) : List String :=
  (Text.lines code).map fun line => "            " ++ Text.strip line

/-- The lines as they stand without a condition. -/
def freeBlock (code : String) : List String := Text.lines ("        " ++ code)

/-- Lines that are others moved to the right, all by the same number of columns. -/
def MovedRight (lines lines' : List String) : Prop :=
  ∃ n, lines' = lines.map ("".pushn ' ' n ++ ·)

theorem MovedRight.length_eq {lines lines' : List String} (h : MovedRight lines lines') :
    lines'.length = lines.length := by
  obtain ⟨n, rfl⟩ := h
  simp

/-- The lines of a code at the depth of its method. -/
theorem joinWith_statements (first : String) (rest : List String) :
    Text.joinWith "\n        " (first :: rest) =
      Text.joinWith "\n" (first :: rest.map ("        " ++ ·)) := by
  induction rest generalizing first with
  | nil => rfl
  | cons next rest ih =>
    have hbreak : "\n        " = "\n" ++ "        " := rfl
    rw [joinWith_cons, ih, List.map_cons, joinWith_cons, hbreak]
    cases hr : rest.map ("        " ++ ·) with
    | nil =>
      have hsingle : ∀ row, Text.joinWith "\n" [row] = row := fun row => String.intercalate_singleton
      simp only [hsingle, String.append_assoc]
    | cons third rest => simp only [joinWith_cons, String.append_assoc]

theorem hasStart_joinWith {first : String} (h : hasStart first = true) (rest : List String) :
    hasStart (Text.joinWith "\n" (first :: rest)) = true := by
  cases rest with
  | nil => exact h
  | cons next rest => simp [joinWith_cons, hasStart_append, h]

theorem hasEnd_joinWith {first : String} {rest : List String}
    (h : ∀ row ∈ first :: rest, hasEnd row = true) :
    hasEnd (Text.joinWith "\n" (first :: rest)) = true := by
  induction rest generalizing first with
  | nil => exact h first (by simp)
  | cons next rest ih =>
    have hrest := ih fun row hrow => h row (List.mem_cons_of_mem _ hrow)
    simp [joinWith_cons, hasEnd_append, hrest]

namespace Row
variable {r : Row} (h : Text.isTrim r.text = true)
include h

theorem hasEnd_line : hasEnd r.line = true := by
  simp only [isTrim, Bool.and_eq_true] at h
  unfold line
  split <;> simp [hasEnd_append, h.2]

theorem isUnbroken_line : isUnbroken r.line = true := by
  simp only [isTrim, Bool.and_eq_true] at h
  unfold line
  split
  · rw [isUnbroken_append, h.1.1]
    rfl
  · exact h.1.1

/-- White space in front of a line goes, and so does that of a loop. -/
theorem strip_line : Text.strip ("        " ++ r.line) = r.text := by
  simp only [isTrim, Bool.and_eq_true] at h
  unfold line
  split
  · rw [← String.append_assoc]
    exact strip_blanks rfl h.1.2 h.2
  · exact strip_blanks rfl h.1.2 h.2

end Row

namespace LaidOut
variable {code first : String} {rest : List Row} (h : LaidOut code first rest)
include h

theorem code_eq : code =
    Text.joinWith "\n" (first :: rest.map fun r => "        " ++ r.line) := by
  have hfirst := h.first
  simp only [isTrim, Bool.and_eq_true] at hfirst
  rw [h.code, statements, joinWith_statements, List.map_map]
  apply strip_of_ends (hasStart_joinWith hfirst.1.2 _)
  apply hasEnd_joinWith
  intro row hrow
  rcases List.mem_cons.1 hrow with rfl | hrow
  · exact hfirst.2
  · obtain ⟨r, hr, rfl⟩ := List.mem_map.1 hrow
    simp [hasEnd_append, Row.hasEnd_line (h.rest r hr)]

/-- The lines of the code behind some text come apart again. -/
theorem lines_append {start : String} (hs : isUnbroken start = true) :
    Text.lines (start ++ code) = (start ++ first) :: rest.map fun r => "        " ++ r.line := by
  have hfirst := h.first
  simp only [isTrim, Bool.and_eq_true] at hfirst
  have hends : ∀ row ∈ (start ++ first) :: rest.map fun r => "        " ++ r.line,
      hasEnd row = true := by
    intro row hrow
    rcases List.mem_cons.1 hrow with rfl | hrow
    · simp [hasEnd_append, hfirst.2]
    · obtain ⟨r, hr, rfl⟩ := List.mem_map.1 hrow
      simp [hasEnd_append, Row.hasEnd_line (h.rest r hr)]
  rw [h.code_eq, Text.joinWith, ← String.intercalate_cons_append]
  apply lines_joinWith (by simp)
  · intro row hrow
    rcases List.mem_cons.1 hrow with rfl | hrow
    · simp [isUnbroken_append, hs, hfirst.1.1]
    · obtain ⟨r, hr, rfl⟩ := List.mem_map.1 hrow
      rw [isUnbroken_append, Row.isUnbroken_line (h.rest r hr)]
      rfl
  · rintro row hrow rfl
    exact absurd (hends "" (List.mem_of_getLast? hrow)) (by decide)

theorem freeBlock_eq :
    freeBlock code = ("        " ++ first) :: rest.map fun r => "        " ++ r.line :=
  h.lines_append rfl

theorem guardedBlock_eq :
    guardedBlock code = ("            " ++ first) :: rest.map fun r => "            " ++ r.text := by
  have hfirst := h.first
  simp only [isTrim, Bool.and_eq_true] at hfirst
  have hlines : Text.lines code = first :: rest.map fun r => "        " ++ r.line := by
    simpa using h.lines_append (show isUnbroken "" = true from rfl)
  rw [guardedBlock, hlines, List.map_cons, strip_of_ends hfirst.1.2 hfirst.2, List.map_map]
  refine congrArg _ (List.map_congr_left ?_)
  intro r hr
  rw [Function.comp_apply, Row.strip_line (h.rest r hr)]

/-- The lines under a condition are those without one, moved to the right, exactly if none of them
stands in a loop. -/
theorem movedRight_iff : MovedRight (freeBlock code) (guardedBlock code) ↔
    rest.any Row.inner = false := by
  rw [h.freeBlock_eq, h.guardedBlock_eq]
  constructor
  · rintro ⟨n, hn⟩
    simp only [List.map_cons, List.cons.injEq, List.map_map] at hn
    obtain ⟨hfirst, hrest⟩ := hn
    have hcolumns : n = 4 := by
      have hlength := congrArg String.length hfirst
      simp only [String.length_append, String.length_pushn] at hlength
      have hdeep : "            ".length = 12 := rfl
      have hflat : "        ".length = 8 := rfl
      have hnone : "".length = 0 := rfl
      omega
    rw [List.any_eq_false]
    intro r hr hinner
    have hline := List.map_inj_left.1 hrest r hr
    have hlength := congrArg String.length hline
    have hdeep : "            ".length = 12 := rfl
    have hflat : "        ".length = 8 := rfl
    have hstep : "    ".length = 4 := rfl
    have hnone : "".length = 0 := rfl
    simp only [Function.comp_apply, Row.line, hinner, if_true, String.length_append,
      String.length_pushn] at hlength
    omega
  · intro hflat
    refine ⟨4, ?_⟩
    have hdeep : ∀ s, "".pushn ' ' 4 ++ ("        " ++ s) = "            " ++ s := by
      intro s
      rw [← String.append_assoc]
      rfl
    simp only [List.map_cons, List.map_map, hdeep]
    refine congrArg _ (List.map_congr_left ?_)
    intro r hr
    have hinner : r.inner = false := by simpa using List.any_eq_false.1 hflat r hr
    simp [Row.line, hinner, hdeep]

end LaidOut

end PythonClass
end SchemaForge
