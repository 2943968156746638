import SchemaForge.Proofs.Nesting
import SchemaForge.Script.Workshop

/-! How script code is laid out. Blocks, functions and classes indent what they hold, from the inside to
the outside, so in the code of a class each line stands to the right by as many steps as there are braces
open around it. -/
namespace SchemaForge

namespace Text

/-- No letter turns into a mark at the head of a capitalised word. -/
theorem eq_of_mem_titleForm {c y : Char} (h : y ∈ titleForm c) (hy : isMark y = true) : y = c := by
  unfold titleForm at h
  split at h
  · rename_i hascii
    rw [← upperForm_ascii hascii] at h
    exact eq_of_mem_upperForm h hy
  · cases hlong : longForm titleForms c with
    | none =>
      rw [hlong] at h
      exact eq_of_mem_upperForm h hy
    | some form =>
      have hform : y ∈ (longForm titleForms c).getD [shiftIn [] c] := by
        rw [hlong] at h ⊢
        exact h
      exact eq_of_mem_form (by decide +kernel) (by simp) hform (by simp [isInert, hy])

theorem isPlain_capitalize {s : String} (h : isPlain s = true) : isPlain (capitalize s) = true := by
  unfold isPlain capitalize at *
  cases hs : s.toList with
  | nil => rfl
  | cons c rest =>
    rw [hs, List.all_eq_true] at h
    rw [String.toList_ofList, List.all_eq_true]
    intro y hy
    cases hmark : isMark y with
    | false => rfl
    | true =>
      have hmem : y ∈ c :: rest := by
        rcases List.mem_append.1 hy with hy | hy
        · exact eq_of_mem_titleForm hy hmark ▸ List.mem_cons_self
        · exact List.mem_cons_of_mem _ (mem_of_mem_lowerAfter hy (by simp [isInert, hmark]))
      simpa [hmark] using h y hmem

theorem isPlain_joinWith {between : String} {parts : List String} (hb : isPlain between = true)
    (h : ∀ part ∈ parts, isPlain part = true) : isPlain (joinWith between parts) = true :=
  all_joinWith hb h

end Text

namespace Script
open Text

/-- How many spaces a line starts with. -/
def leading (line : String) : Nat := (line.toList.takeWhile (· == ' ')).length

/-- Whether a line is a closing brace. -/
def isClosing (line : String) : Bool := line.toList.dropWhile (· == ' ') == ['}']

/-- Each line starts with four spaces for every brace that is open in front of it, apart from the one that
it closes. -/
def Indented (lines : List String) : Prop :=
  ∀ before line after, lines = before ++ line :: after → ∃ depth, Nested 0 depth before ∧
    leading line = 4 * (if isClosing line then depth - 1 else depth)

/-- One line without braces that does not start with a space. -/
def isTidy (s : String) : Bool := isPlain s && s.toList.head? != some ' '

/-- The spaces in front of a line. -/
def margin : Nat → String
  | 0 => ""
  | depth + 1 => "    " ++ margin depth

theorem margin_succ_append (depth : Nat) (s : String) :
    margin (depth + 1) ++ s = "    " ++ (margin depth ++ s) := by
  rw [margin, String.append_assoc]

theorem all_margin {p : Char → Bool} (h : p ' ' = true) (depth : Nat) : (margin depth).toList.all p = true := by
  induction depth with
  | zero => rfl
  | succ depth ih =>
    rw [margin, String.toList_append, List.all_append, ih]
    simp [h]

theorem spaces_margin (depth : Nat) : ∀ c ∈ (margin depth).toList, (c == ' ') = true :=
  List.all_eq_true.1 (all_margin rfl depth)

theorem leading_margin (depth : Nat) (s : String) : leading (margin depth ++ s) = 4 * depth + leading s := by
  have hlength : (margin depth).toList.length = 4 * depth := by
    induction depth with
    | zero => rfl
    | succ depth ih =>
      rw [margin, String.toList_append, List.length_append, ih]
      simp
      omega
  rw [leading, String.toList_append, List.takeWhile_append_of_pos (spaces_margin depth), List.length_append,
    hlength]
  rfl

theorem isClosing_margin (depth : Nat) (s : String) : isClosing (margin depth ++ s) = isClosing s := by
  rw [isClosing, String.toList_append, List.dropWhile_append_of_pos (spaces_margin depth)]
  rfl

theorem level_margin (n depth : Nat) (s : String) :
    level n (margin depth ++ s).toList = level n s.toList := by
  rw [String.toList_append, level_append, level_of_isBraceless (all_margin rfl depth), Option.bind_some]

theorem isPlain_of_isTidy {s : String} (h : isTidy s = true) : isPlain s = true :=
  (Bool.and_eq_true_iff.1 h).1

theorem isClosing_of_isPlain {s : String} (h : isPlain s = true) (t : String) (ht : '}' ∉ t.toList) :
    isClosing (s ++ t) = false := by
  by_contra hnot
  have hclosing : (s ++ t).toList.dropWhile (· == ' ') = ['}'] := by simpa [isClosing] using hnot
  have hmem : '}' ∈ (s ++ t).toList := List.dropWhile_subset _ (by rw [hclosing]; simp)
  rw [String.toList_append, List.mem_append] at hmem
  refine hmem.elim (fun hmem => ?_) ht
  have hmark := List.all_eq_true.1 h '}' hmem
  exact absurd hmark (by decide)

/-- Text behind a tidy one does not start with a space, if the tidy one is not empty. -/
theorem leading_of_isTidy {s t : String} (h : isTidy s = true) (ht : leading t = 0) :
    leading (s ++ t) = 0 := by
  obtain ⟨-, hhead⟩ := Bool.and_eq_true_iff.1 h
  unfold leading at *
  rw [String.toList_append]
  cases hs : s.toList with
  | nil => exact ht
  | cons c rest =>
    have hc : (c == ' ') = false := by simpa [hs] using hhead
    rw [List.cons_append, List.takeWhile_cons_of_neg (by simp [hc]), List.length_nil]

/-- Lines inside so many braces: tidy ones, and lines between braces whose heads pass a test. -/
inductive Laid (test : String → Bool) : Nat → List String → Prop where
  | nil (depth : Nat) : Laid test depth []
  | line {depth : Nat} {text : String} {rest : List String} (tidy : isTidy text = true)
      (more : Laid test depth rest) : Laid test depth ((margin depth ++ text) :: rest)
  | braced {depth : Nat} {head : String} {body rest : List String} (ok : test head = true)
      (inner : Laid test (depth + 1) body) (more : Laid test depth rest) :
      Laid test depth ((margin depth ++ (head ++ openBrace)) ::
        (body ++ (margin depth ++ closeBrace) :: rest))

namespace Laid
variable {test : String → Bool} {depth : Nat} {lines lines' : List String}

theorem append (h : Laid test depth lines) (h' : Laid test depth lines') :
    Laid test depth (lines ++ lines') := by
  induction h with
  | nil => exact h'
  | line tidy _ ih => exact .line tidy (ih h')
  | braced ok inner _ _ ih => simpa using Laid.braced ok inner (ih h')

theorem mono {test' : String → Bool} (hsub : ∀ s, test s = true → test' s = true)
    (h : Laid test depth lines) : Laid test' depth lines := by
  induction h with
  | nil => exact .nil _
  | line tidy _ ih => exact .line tidy ih
  | braced ok _ _ ihi ihm => exact .braced (hsub _ ok) ihi ihm

theorem indented (h : Laid test depth lines) : Laid test (depth + 1) (lines.map ("    " ++ ·)) := by
  induction h with
  | nil => exact .nil _
  | line tidy _ ih =>
    rw [List.map_cons, ← margin_succ_append]
    exact .line tidy ih
  | braced ok _ _ ihi ihm =>
    rw [List.map_cons, List.map_append, List.map_cons, ← margin_succ_append, ← margin_succ_append]
    exact .braced ok ihi ihm

theorem of_tidy (h : ∀ text ∈ lines, isTidy text = true) : Laid test 0 lines := by
  induction lines with
  | nil => exact .nil 0
  | cons text lines ih =>
    have hline := Laid.line (h text (by simp)) (ih fun other hother => h other (by simp [hother]))
    rwa [margin, String.empty_append] at hline

end Laid

/-- Each line starts with four spaces for every open brace, if so many are open in front of the first. -/
def Aligned : Nat → List String → Prop
  | _, [] => True
  | depth, line :: rest => leading line = 4 * (if isClosing line then depth - 1 else depth) ∧
      ∀ next, level depth line.toList = some next → Aligned next rest

theorem Aligned.append {k l : Nat} {lines lines' : List String} (h : Aligned k lines)
    (hn : Nested k l lines) (h' : Aligned l lines') : Aligned k (lines ++ lines') := by
  induction lines generalizing k with
  | nil =>
    obtain rfl : k = l := Option.some.inj hn
    exact h'
  | cons line lines ih =>
    refine ⟨h.1, ?_⟩
    intro next hnext
    rw [Nested, List.flatMap_cons, level_append, hnext, Option.bind_some] at hn
    exact ih (h.2 next hnext) hn

theorem Aligned.leading_eq {k depth : Nat} {before after : List String} {line : String}
    (h : Aligned k (before ++ line :: after)) (hn : Nested k depth before) :
    leading line = 4 * (if isClosing line then depth - 1 else depth) := by
  induction before generalizing k with
  | nil =>
    obtain rfl : k = depth := Option.some.inj hn
    exact h.1
  | cons first before ih =>
    rw [Nested, List.flatMap_cons, level_append] at hn
    obtain ⟨next, hnext, hn⟩ := Option.bind_eq_some_iff.1 hn
    exact ih (h.2 next hnext) hn

theorem indented_of_aligned {l : Nat} {lines : List String} (h : Aligned 0 lines)
    (hn : Nested 0 l lines) : Indented lines := by
  rintro before line after rfl
  rw [Nested, List.flatMap_append, level_append] at hn
  obtain ⟨depth, hdepth, -⟩ := Option.bind_eq_some_iff.1 hn
  exact ⟨depth, hdepth, h.leading_eq hdepth⟩

theorem nested_cons {k l m : Nat} {line : String} {rest : List String}
    (hl : level k line.toList = some l) (h : Nested l m rest) : Nested k m (line :: rest) := by
  rw [Nested, List.flatMap_cons]
  exact level_trans hl h

theorem level_open {head : String} (h : isPlain head = true) (k : Nat) :
    level k (head ++ openBrace).toList = some (k + 1) := by
  rw [String.toList_append]
  exact level_trans (level_of_isBraceless (isBraceless_of_isPlain h) k) rfl

namespace Laid
variable {test : String → Bool} {depth : Nat} {lines : List String}

theorem nested (hp : ∀ s, test s = true → isPlain s = true) (h : Laid test depth lines) :
    Nested depth depth lines := by
  induction h with
  | nil => exact nested_nil _
  | @line depth text _ tidy _ ih =>
    refine nested_cons ?_ ih
    rw [level_margin]
    exact level_of_isBraceless (isBraceless_of_isPlain (isPlain_of_isTidy tidy)) depth
  | @braced depth head _ _ ok _ _ ihi ihm =>
    have hopen : level depth (margin depth ++ (head ++ openBrace)).toList = some (depth + 1) := by
      rw [level_margin, level_open (hp head ok)]
    have hclose : level (depth + 1) (margin depth ++ closeBrace).toList = some depth := by
      rw [level_margin]
      rfl
    exact nested_cons hopen (ihi.append (nested_cons hclose ihm))

theorem isLine_of_mem (hp : ∀ s, test s = true → isPlain s = true) (h : Laid test depth lines) :
    ∀ line ∈ lines, isLine line = true := by
  have hmargin : ∀ depth, isLine (margin depth) = true := all_margin rfl
  induction h with
  | nil => simp
  | line tidy _ ih =>
    refine List.forall_mem_cons.2 ⟨?_, ih⟩
    simp [hmargin, isLine_of_isPlain (isPlain_of_isTidy tidy)]
  | braced ok _ _ ihi ihm =>
    have hopen : isLine openBrace = true := rfl
    have hclose : isLine closeBrace = true := rfl
    refine List.forall_mem_cons.2 ⟨?_, List.forall_mem_append.2 ⟨ihi, List.forall_mem_cons.2 ⟨?_, ihm⟩⟩⟩
    · simp [hmargin, hopen, isLine_of_isPlain (hp _ ok)]
    · simp [hmargin, hclose]

/-- Lines whose heads all are tidy start with four spaces for every brace that is open. -/
theorem aligned (h : Laid isTidy depth lines) : Aligned depth lines := by
  induction h with
  | nil => trivial
  | @line depth text _ tidy _ ih =>
    have hplain := isPlain_of_isTidy tidy
    have hclosing := isClosing_of_isPlain hplain "" (by simp)
    have hleading := leading_of_isTidy tidy (t := "") rfl
    rw [String.append_empty] at hclosing hleading
    refine ⟨?_, ?_⟩
    · rw [leading_margin, isClosing_margin, hclosing, hleading]
      simp
    · intro next hnext
      rw [level_margin, level_of_isBraceless (isBraceless_of_isPlain hplain)] at hnext
      obtain rfl := Option.some.inj hnext
      exact ih
  | @braced depth head _ _ ok inner _ ihi ihm =>
    have hplain := isPlain_of_isTidy ok
    refine ⟨?_, ?_⟩
    · rw [leading_margin, isClosing_margin, isClosing_of_isPlain hplain openBrace (by decide),
        leading_of_isTidy ok (by decide)]
      simp
    · intro next hnext
      rw [level_margin, level_open hplain] at hnext
      obtain rfl := Option.some.inj hnext
      refine ihi.append (inner.nested fun s => isPlain_of_isTidy) ⟨?_, ?_⟩
      · rw [leading_margin, isClosing_margin]
        rfl
      · intro next hnext
        rw [level_margin] at hnext
        obtain rfl : depth = next := Option.some.inj hnext
        exact ihm

end Laid

section
variable {test : String → Bool} {lines : List String}

def texts (lines : List String) : List Value := lines.map .text

theorem mapM_joined_texts (lines : List String) : (texts lines).mapM Value.joined = .ok lines := by
  unfold texts
  induction lines with
  | nil => rfl
  | cons line lines ih =>
    rw [List.map_cons, List.mapM_cons, ih]
    rfl

theorem indent_texts (lines : List String) :
    indent (texts lines) = .ok (texts (lines.map ("    " ++ ·))) := by
  have hcopies : (Value.int 1).copies ' ' 4 = .ok "    " := rfl
  unfold indent indentBy texts
  induction lines with
  | nil => rfl
  | cons line lines ih =>
    rw [List.map_cons, List.mapM_cons, ih, hcopies]
    rfl

/-- The lines that braces make of a head and of the lines between them. -/
def bracedLines (head : String) (lines : List String) : List String :=
  (head ++ openBrace) :: (lines.map ("    " ++ ·) ++ [closeBrace])

theorem braced_texts (head : String) (lines : List String) :
    braced head (texts lines) = .ok (texts (bracedLines head lines)) := by
  rw [braced, indent_texts, Checked.ok_bind, texts, bracedLines]
  simp [texts]

theorem Laid.bracedLines {head : String} (ok : test head = true) (h : Laid test 0 lines) :
    Laid test 0 (bracedLines head lines) := by
  have hlaid := Laid.braced ok h.indented (.nil 0)
  rw [margin, String.empty_append, String.empty_append] at hlaid
  exact hlaid

end

theorem isTidy_append {s t : String} (hs : isTidy s = true) (ht : isPlain t = true)
    (h : s = "" → isTidy t = true) : isTidy (s ++ t) = true := by
  by_cases hempty : s = ""
  · rw [hempty, String.empty_append]
    exact h hempty
  · obtain ⟨hplain, hhead⟩ := Bool.and_eq_true_iff.1 hs
    have hne : s.toList ≠ [] := by simpa using hempty
    rw [isTidy, isPlain_append, hplain, ht, String.toList_append, List.head?_append_of_ne_nil _ hne]
    simpa using hhead

/-- Text that starts with a word. -/
theorem isTidy_start {s t : String} (hs : isTidy s = true) (hne : s ≠ "") (ht : isPlain t = true) :
    isTidy (s ++ t) = true := isTidy_append hs ht fun h => absurd h hne

/-- Lines that are given as values and laid out. -/
def LaidOut (values : List Value) : Prop := ∃ lines, values = texts lines ∧ Laid isTidy 0 lines

theorem LaidOut.append {values values' : List Value} (h : LaidOut values) (h' : LaidOut values') :
    LaidOut (values ++ values') := by
  obtain ⟨lines, rfl, hlines⟩ := h
  obtain ⟨lines', rfl, hlines'⟩ := h'
  exact ⟨lines ++ lines', List.map_append.symm, hlines.append hlines'⟩

/-- What a block is given is tidy, and its lines are laid out. -/
structure Block.Tidy (b : Block) : Prop where
  rule : isTidy b.rule.spell = true
  iterator : isTidy b.iterator.spell = true
  lines : LaidOut b.lines

theorem Block.Tidy.code {b : Block} (h : b.Tidy) : ∃ lines, b.code = .ok (texts lines) ∧
    Laid isTidy 0 lines := by
  obtain ⟨lines, hlines, hlaid⟩ := h.lines
  have hrule := isPlain_of_isTidy h.rule
  have hiterator := isPlain_of_isTidy h.iterator
  have hwhen : ∀ word, isTidy word = true → word ≠ "" →
      isTidy (word ++ b.rule.spell ++ ") ") = true := by
    intro word hword hne
    rw [String.append_assoc]
    exact isTidy_start hword hne (by rw [isPlain_append, hrule]; rfl)
  unfold Block.code
  rw [hlines]
  cases b.kind with
  | plain => exact ⟨lines, rfl, hlaid⟩
  | when => exact ⟨_, braced_texts _ lines, hlaid.bracedLines (hwhen "if (" rfl (by decide))⟩
  | otherwiseWhen =>
    exact ⟨_, braced_texts _ lines, hlaid.bracedLines (hwhen "else if (" rfl (by decide))⟩
  | otherwise => exact ⟨_, braced_texts _ lines, hlaid.bracedLines rfl⟩
  | loop =>
    have hloop : isTidy ("for (" ++ b.iterator.spell ++ " = 0; " ++ b.iterator.spell ++ " " ++
        b.rule.spell ++ "; " ++ b.iterator.spell ++ "++) ") = true := by
      simp only [String.append_assoc]
      refine isTidy_start rfl (by decide) ?_
      simp only [isPlain_append, hrule, hiterator]
      rfl
    have hconst : isTidy ("const " ++ b.iterator.spell) = true :=
      isTidy_start rfl (by decide) hiterator
    have hfirst : Laid isTidy 0 ["const " ++ b.iterator.spell] := .of_tidy (by simpa using hconst)
    refine ⟨("const " ++ b.iterator.spell) :: bracedLines _ lines, ?_,
      hfirst.append (hlaid.bracedLines hloop)⟩
    simp only [braced_texts, Checked.ok_bind]
    rfl

/-- Whether a function is an arrow without a name. -/
def Function.isNameless (f : Function) : Bool := f.kind == .arrow && f.name.spell.isEmpty

structure Function.Tidy (f : Function) : Prop where
  name : isTidy f.name.spell = true
  params : ∃ params, f.params.items = .ok (texts params) ∧ ∀ param ∈ params, isTidy param = true
  lines : LaidOut f.lines

/-- Only the head of an arrow without a name starts with a space. -/
theorem Function.Tidy.head {f : Function} (h : f.Tidy) : ∃ head, f.head = .ok head ∧
    isPlain head = true ∧ (f.isNameless = false → isTidy head = true) ∧
    (f.isNameless = true → ∃ rest, head = " = (" ++ rest) := by
  obtain ⟨params, hparams, htidy⟩ := h.params
  have hname := isPlain_of_isTidy h.name
  have hlist : isPlain (joinWith ", " params) = true :=
    isPlain_joinWith rfl fun param hparam => isPlain_of_isTidy (htidy param hparam)
  unfold Function.head Function.isNameless
  rw [hparams, Checked.ok_bind, mapM_joined_texts, Checked.ok_bind]
  refine ⟨_, rfl, ?_⟩
  cases f.kind with
  | method =>
    refine ⟨?_, fun _ => ?_, by simp⟩
    · simp only [isPlain_append, hname, hlist]
      rfl
    · simp only [String.append_assoc]
      refine isTidy_append h.name ?_ fun _ => isTidy_start rfl (by decide) ?_
      · simp only [isPlain_append, hlist]
        rfl
      · simp only [isPlain_append, hlist]
        rfl
  | arrow =>
    refine ⟨?_, fun hnamed => ?_, fun hnameless => ⟨joinWith ", " params ++ ") => ", ?_⟩⟩
    · simp only [isPlain_append, hname, hlist]
      rfl
    · simp only [String.append_assoc]
      refine isTidy_start h.name (by simpa using hnamed) ?_
      simp only [isPlain_append, hlist]
      rfl
    · have hempty : f.name.spell = "" := by simpa using hnameless
      rw [hempty, String.empty_append, String.append_assoc]
  | constructor =>
    have htidyHead : isTidy ("constructor(" ++ joinWith ", " params ++ ") ") = true := by
      rw [String.append_assoc]
      refine isTidy_start rfl (by decide) ?_
      rw [isPlain_append, hlist]
      rfl
    exact ⟨isPlain_of_isTidy htidyHead, fun _ => htidyHead, by simp⟩
  | static =>
    have htidyHead : isTidy ("static " ++ f.name.spell ++ "(" ++ joinWith ", " params ++ ") ") = true := by
      simp only [String.append_assoc]
      refine isTidy_start rfl (by decide) ?_
      simp only [isPlain_append, hname, hlist]
      rfl
    exact ⟨isPlain_of_isTidy htidyHead, fun _ => htidyHead, by simp⟩

theorem Function.Tidy.code {f : Function} (h : f.Tidy) : ∃ lines, f.code = .ok (texts lines) ∧
    Laid isPlain 0 lines ∧ (f.isNameless = false → Laid isTidy 0 lines) ∧
    (f.isNameless = true → ∃ rest, " = (" ++ rest ∈ lines) := by
  obtain ⟨lines, hlines, hlaid⟩ := h.lines
  obtain ⟨head, hhead, hplain, htidy, hnameless⟩ := h.head
  refine ⟨bracedLines head lines, ?_, ?_, ?_, ?_⟩
  · rw [Function.code, hhead, Checked.ok_bind, hlines, braced_texts]
  · exact (hlaid.mono fun s => isPlain_of_isTidy).bracedLines hplain
  · intro hnamed
    exact hlaid.bracedLines (htidy hnamed)
  · intro harrow
    obtain ⟨rest, rfl⟩ := hnameless harrow
    exact ⟨rest ++ openBrace, by rw [bracedLines, String.append_assoc]; exact List.mem_cons_self⟩

end Script
end SchemaForge
