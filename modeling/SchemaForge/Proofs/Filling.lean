import SchemaForge.Proofs.Step
import SchemaForge.Text.Blank
import SchemaForge.Text.Template
import SchemaForge.Text.Words

/-! Text in the lines of a builder. Braces and line breaks have a meaning there, and text that has none
of them is written as it is. -/
namespace SchemaForge
namespace Text

def isMark (c : Char) : Bool := c == '{' || c == '}' || c == '\n'

/-- The text has neither braces nor line breaks. -/
def isPlain (s : String) : Bool := s.toList.all (!isMark ·)

@[simp] theorem isPlain_append (s t : String) : isPlain (s ++ t) = (isPlain s && isPlain t) := by
  simp [isPlain]

/-- A text that is known is read by its characters. -/
theorem isPlain_ofList {cs : List Char} (h : cs.all (!isMark ·) = true) :
    isPlain (String.ofList cs) = true := by
  rwa [isPlain, String.toList_ofList]

theorem isMark_iff {c : Char} : isMark c = true ↔ c = '{' ∨ c = '}' ∨ c = '\n' := by
  simp [isMark, or_assoc]

/-- Whether the character is a mark or white space, which has no case. -/
def isInert (c : Char) : Bool := isMark c || isBlank c

/-- Ranges that have the codes of all marks and of all white space, and of no letter. -/
def inertRanges : List (Nat × Nat) :=
  [(0, 32), (123, 125), (0x85, 0x85), (0xA0, 0xA0), (0x1680, 0x1680), (0x2000, 0x205F),
    (0x3000, 0x3000)]

def InertCode (n : Nat) : Prop := ∃ e ∈ inertRanges, e.1 ≤ n ∧ n ≤ e.2

instance (n : Nat) : Decidable (InertCode n) := inferInstanceAs (Decidable (∃ e ∈ inertRanges, _))

theorem inertCode_of_isInert {c : Char} (h : isInert c = true) : InertCode c.toNat := by
  rcases Bool.or_eq_true_iff.1 h with hm | hb
  · rcases isMark_iff.1 hm with rfl | rfl | rfl <;> decide
  · simp only [isBlank, Bool.or_eq_true, Bool.and_eq_true, decide_eq_true_eq, beq_iff_eq] at hb
    simp only [InertCode, inertRanges, List.mem_cons, List.not_mem_nil, or_false, exists_eq_or_imp,
      exists_eq_left]
    omega

theorem inertCode_of_isInert_ofNat {n : Nat} (h : isInert (Char.ofNat n) = true) : InertCode n := by
  have hn := inertCode_of_isInert h
  by_cases hvalid : n.isValidChar
  · rw [show Char.ofNat n = Char.ofNatAux n hvalid from dif_pos hvalid] at hn
    exact hn
  · rw [show Char.ofNat n = _ from dif_neg hvalid] at h
    exact absurd h (by decide)

/-- Tables of forms without inert characters leave each of these alone. -/
theorem eq_of_mem_form {table : List (Nat × List Nat)} {runs : List Run}
    (ht : ∀ e ∈ table, ∀ n ∈ e.2, ¬ InertCode n)
    (hr : ∀ r ∈ runs, ∀ e ∈ inertRanges, e.2 < r.first + r.shift ∨ (r.last + r.shift).toNat < e.1)
    {c y : Char} (h : y ∈ (longForm table c).getD [shiftIn runs c]) (hy : isInert y = true) :
    y = c := by
  cases hlong : longForm table c with
  | some form =>
    obtain ⟨codes, hcodes, rfl⟩ := Option.map_eq_some_iff.1 hlong
    obtain ⟨before, after, htable, -⟩ := List.lookup_eq_some_iff.1 hcodes
    rw [hlong] at h
    obtain ⟨n, hn, rfl⟩ := List.mem_map.1 h
    exact absurd (inertCode_of_isInert_ofNat hy) (ht (c.toNat, codes) (by simp [htable]) n hn)
  | none =>
    rw [hlong] at h
    obtain rfl : y = shiftIn runs c := by simpa using h
    unfold shiftIn at hy ⊢
    split at hy
    · rename_i r hfound
      have hcovers : r.Covers c := by simpa using List.find?_some hfound
      obtain ⟨hfirst, hlast, -⟩ := hcovers
      obtain ⟨e, he, hlow, hhigh⟩ := inertCode_of_isInert_ofNat hy
      have hout := hr r (List.mem_of_find?_eq_some hfound) e he
      omega
    · rfl

/-- No letter turns into a mark in upper case. -/
theorem eq_of_mem_upperForm {c y : Char} (h : y ∈ upperForm c) (hy : isMark y = true) : y = c := by
  unfold upperForm at h
  split at h
  · rename_i hascii
    have hall : ∀ n < 128, isMark (Char.ofNat n).toUpper = true →
        (Char.ofNat n).toUpper = Char.ofNat n := by decide
    obtain rfl : y = c.toUpper := by simpa using h
    simpa using hall c.toNat hascii (by simpa using hy)
  · exact eq_of_mem_form (by decide +kernel) (by decide +kernel) h (by simp [isInert, hy])

/-- No letter turns into a mark or white space in lower case. -/
theorem eq_of_mem_lowerForm {c y : Char} (h : y ∈ lowerForm c) (hy : isInert y = true) : y = c := by
  unfold lowerForm at h
  split at h
  · rename_i hascii
    have hall : ∀ n < 128, isInert (Char.ofNat n).toLower = true →
        (Char.ofNat n).toLower = Char.ofNat n := by decide
    obtain rfl : y = c.toLower := by simpa using h
    simpa using hall c.toNat hascii (by simpa using hy)
  · exact eq_of_mem_form (by decide +kernel) (by decide +kernel) h hy

theorem mem_of_mem_lowerAfter {before cs : List Char} {y : Char} (h : y ∈ lowerAfter before cs)
    (hy : isInert y = true) : y ∈ cs := by
  induction cs generalizing before with
  | nil => cases h
  | cons c cs ih =>
    rw [lowerAfter, List.mem_append] at h
    rcases h with h | h
    · split at h
      · have hsigma : isInert 'ς' = false ∧ isInert 'σ' = false := by decide
        have hform : y = lowerSigma before cs := by simpa using h
        unfold lowerSigma at hform
        split at hform <;> simp [hform, hsigma] at hy
      · simp [eq_of_mem_lowerForm h hy]
    · exact .tail _ (ih h)

/-- Text without marks passes every test that only marks fail. -/
theorem all_of_isPlain {p : Char → Bool} (hp : ∀ c, p c = false → isMark c = true) {s : String}
    (h : isPlain s = true) : s.toList.all p = true := by
  rw [isPlain, List.all_eq_true] at h
  rw [List.all_eq_true]
  intro c hc
  cases hpc : p c with
  | true => rfl
  | false => simpa [hp c hpc] using h c hc

theorem all_upperFirst {p : Char → Bool} (hp : ∀ c, p c = false → isMark c = true) {s : String}
    (h : s.toList.all p = true) : (upperFirst s).toList.all p = true := by
  unfold upperFirst
  cases hs : s.toList with
  | nil => rfl
  | cons c rest =>
    rw [hs] at h
    simp only [List.all_cons, Bool.and_eq_true] at h
    simp only [String.toList_ofList, List.all_append, Bool.and_eq_true]
    refine ⟨List.all_eq_true.2 fun y hy => ?_, h.2⟩
    cases hy' : p y with
    | true => rfl
    | false =>
      rw [eq_of_mem_upperForm hy (hp y hy'), h.1] at hy'
      cases hy'

theorem isPlain_upperFirst {s : String} (h : isPlain s = true) : isPlain (upperFirst s) = true :=
  all_upperFirst (by simp) h

theorem all_lower {p : Char → Bool} (hp : ∀ c, p c = false → isInert c = true) {s : String}
    (h : s.toList.all p = true) : (lower s).toList.all p = true := by
  rw [List.all_eq_true] at h
  rw [lower, String.toList_ofList, List.all_eq_true]
  intro y hy
  cases hpy : p y with
  | true => rfl
  | false =>
    rw [h y (mem_of_mem_lowerAfter hy (hp y hpy))] at hpy
    cases hpy

theorem all_dropEnd {p : Char → Bool} {s : String} (h : s.toList.all p = true) (n : Nat) :
    (dropEnd n s).toList.all p = true := by
  unfold dropEnd
  rw [String.toList_ofList, List.all_eq_true]
  intro c hc
  exact List.all_eq_true.1 h c (List.mem_of_mem_take hc)

theorem all_singular {p : Char → Bool} (hy : p 'y' = true) {s : String} (h : s.toList.all p = true) :
    (singular s).toList.all p = true := by
  unfold singular
  split
  · rw [String.toList_append, List.all_append, all_dropEnd h]
    simpa using hy
  · split
    · exact all_dropEnd h 2
    · split
      · exact all_dropEnd h 1
      · exact h

theorem mem_of_mem_capitalWords_go {word cs : List Char} {part : String} {c : Char}
    (h : part ∈ capitalWords.go word cs) (hc : c ∈ part.toList) : c ∈ word ∨ c ∈ cs := by
  induction cs generalizing word with
  | nil =>
    rw [capitalWords.go] at h
    split at h
    · cases h
    · obtain rfl := List.mem_singleton.1 h
      exact .inl (by simpa using hc)
  | cons d cs ih =>
    rw [capitalWords.go] at h
    split at h
    · rcases List.mem_cons.1 h with rfl | h
      · exact .inl (by simpa using hc)
      · rcases ih h with hd | hd
        · simp [List.mem_singleton.1 hd]
        · simp [hd]
    · rcases ih h with hd | hd
      · rcases List.mem_cons.1 hd with rfl | hd
        · simp
        · simp [hd]
      · simp [hd]

theorem all_of_mem_capitalWords {p : Char → Bool} {s part : String} (h : s.toList.all p = true)
    (hp : part ∈ capitalWords s) : part.toList.all p = true := by
  rw [List.all_eq_true] at h ⊢
  intro c hc
  rcases mem_of_mem_capitalWords_go hp hc with hnone | hmem
  · cases hnone
  · exact h c (List.dropWhile_subset _ hmem)

theorem splitChars_append {ends : Char → Bool} {cs : List Char} (h : ∀ c ∈ cs, ends c = false)
    {c : Char} (hc : ends c = true) (rest : List Char) :
    splitChars ends (cs ++ c :: rest) = cs :: splitChars ends rest := by
  induction cs with
  | nil => simp [splitChars, hc]
  | cons d cs ih =>
    have hd := h d (by simp)
    rw [List.cons_append, splitChars, hd, ih fun e he => h e (by simp [he])]

theorem splitChars_of_none {ends : Char → Bool} {cs : List Char} (h : ∀ c ∈ cs, ends c = false) :
    splitChars ends cs = [cs] := by
  induction cs with
  | nil => rfl
  | cons d cs ih =>
    have hd := h d (by simp)
    rw [splitChars, hd, ih fun e he => h e (by simp [he])]

/-- The text has no line breaks. -/
def isLine (s : String) : Bool := s.toList.all (· != '\n')

@[simp] theorem isLine_append (s t : String) : isLine (s ++ t) = (isLine s && isLine t) := by
  simp [isLine]

theorem isLine_of_isPlain {s : String} (h : isPlain s = true) : isLine s = true := by
  unfold isPlain isLine at *
  rw [List.all_eq_true] at h ⊢
  intro c hc
  have hmark := h c hc
  cases hb : c == '\n' with
  | false => simpa using hb
  | true => simp [isMark, hb] at hmark

theorem isLine_upperFirst {s : String} (h : isLine s = true) : isLine (upperFirst s) = true :=
  all_upperFirst (by simp [isMark]) h

theorem mem_of_mem_splitCharsAt {part cs piece : List Char} {skip : Nat} {c : Char}
    (h : piece ∈ splitCharsAt part skip cs) (hc : c ∈ piece) : c ∈ cs := by
  induction cs generalizing skip piece with
  | nil =>
    obtain rfl : piece = [] := by simpa [splitCharsAt] using h
    cases hc
  | cons d cs ih =>
    rw [splitCharsAt] at h
    split at h
    · exact .tail _ (ih h hc)
    · split at h
      · rcases List.mem_cons.1 h with rfl | h
        · cases hc
        · exact .tail _ (ih h hc)
      · split at h
        · rename_i first rest hpieces
          rcases List.mem_cons.1 h with rfl | h
          · rcases List.mem_cons.1 hc with rfl | hc
            · simp
            · exact .tail _ (ih (by rw [hpieces]; simp) hc)
          · exact .tail _ (ih (by rw [hpieces]; simp [h]) hc)
        · obtain rfl : piece = [d] := by simpa using h
          simp [List.mem_singleton.1 hc]

theorem all_of_mem_splitAt {p : Char → Bool} {part s piece : String} (h : s.toList.all p = true)
    (hp : piece ∈ splitAt part s) : piece.toList.all p = true := by
  obtain ⟨cs, hcs, rfl⟩ := List.mem_map.1 hp
  rw [String.toList_ofList, List.all_eq_true]
  intro c hc
  exact List.all_eq_true.1 h c (mem_of_mem_splitCharsAt hcs hc)

theorem isLine_of_mem_splitAt {part s piece : String} (h : isLine s = true)
    (hp : piece ∈ splitAt part s) : isLine piece = true := all_of_mem_splitAt h hp

theorem splitOn_of_isLine {s : String} (h : isLine s = true) : splitOn (· == '\n') s = [s] := by
  have hends : ∀ c ∈ s.toList, (c == '\n') = false := by simpa [isLine] using h
  simp [splitOn, splitChars_of_none hends]

theorem splitOn_isLine_append {s : String} (h : isLine s = true) (t : String) :
    splitOn (· == '\n') (s ++ "\n" ++ t) = s :: splitOn (· == '\n') t := by
  have hends : ∀ c ∈ s.toList, (c == '\n') = false := by simpa [isLine] using h
  have hsplit := splitChars_append hends (show ('\n' == '\n') = true from rfl) t.toList
  simp [splitOn, hsplit]

variable {values : String → Option Value}

theorem pieces_cons {c : Char} (ho : c ≠ '{') (hc : c ≠ '}') (cs : List Char) :
    pieces (c :: cs) = .char c :: pieces cs := by
  rw [pieces.eq_def]
  split <;> simp_all

/-- What the first piece gives stands in front of the rest. -/
theorem fill_of_pieces {s t : String} {p : Piece} (h : pieces s.toList = p :: pieces t.toList) :
    fill values s = p.value values >>= fun v => (fill values t).map (v ++ ·) := by
  simp only [fill, h, List.mapM_cons]
  cases p.value values with
  | error fault => rfl
  | ok v =>
    cases (pieces t.toList).mapM (Piece.value values) with
    | error fault => rfl
    | ok parts => exact congrArg Except.ok String.join_cons

theorem fill_cons {c : Char} (ho : c ≠ '{') (hc : c ≠ '}') (cs : List Char) :
    fill values (String.ofList (c :: cs)) =
      (fill values (String.ofList cs)).map (String.singleton c ++ ·) := by
  have hpieces : pieces (String.ofList (c :: cs)).toList =
      .char c :: pieces (String.ofList cs).toList := by
    rw [String.toList_ofList, String.toList_ofList, pieces_cons ho hc]
  exact fill_of_pieces hpieces

/-- Plain text in front of other text is not changed. -/
theorem fill_append {s : String} (h : isPlain s = true) (t : String) :
    fill values (s ++ t) = (fill values t).map (s ++ ·) := by
  obtain ⟨cs, rfl⟩ : ∃ cs, s = String.ofList cs := ⟨s.toList, by simp⟩
  obtain ⟨ts, rfl⟩ : ∃ ts, t = String.ofList ts := ⟨t.toList, by simp⟩
  rw [← String.ofList_append]
  simp only [isPlain, String.toList_ofList, List.all_eq_true] at h
  induction cs with
  | nil => cases hf : fill values (String.ofList ts) <;> simp [hf, Except.map]
  | cons c cs ih =>
    have hc : ∀ d, isMark d = true → c ≠ d := by
      rintro d hd rfl
      simpa [hd] using h c (by simp)
    rw [List.cons_append, fill_cons (hc '{' rfl) (hc '}' rfl), ih fun d hd => h d (by simp [hd]),
      String.ofList_cons]
    cases fill values (String.ofList ts) <;> simp [Except.map, String.append_assoc]

theorem fill_of_isPlain {s : String} (h : isPlain s = true) : fill values s = .ok s := by
  have hempty := @fill_append values s h ""
  rw [String.append_empty] at hempty
  rw [hempty]
  simp [fill, pieces, Except.map]

theorem pieces_of_readSlot {rest : List Char} (hn : ∀ next, rest = '{' :: next → False) {s : Slot}
    (hs : readSlot false rest = some s) : pieces ('{' :: rest) = .slot s :: pieces s.rest := by
  rw [pieces.eq_4 _ hn]
  split
  · rename_i s' hs'
    obtain rfl := Option.some.inj (hs.symm.trans hs')
    rfl
  · rename_i hs'
    cases hs.symm.trans hs'

/-- The slot for the name of the builder. -/
theorem fill_builderName {name : String} (h : values "BUILDER_NAME" = some (.text name))
    (t : String) :
    fill values ("\x7bBUILDER_NAME\x7d" ++ t) = (fill values t).map (name ++ ·) := by
  have hslot : readSlot false ("BUILDER_NAME\x7d".toList ++ t.toList) =
      some ⟨"BUILDER_NAME".toList, [], t.toList⟩ := rfl
  have hpieces : pieces ("\x7bBUILDER_NAME\x7d" ++ t).toList =
      .slot ⟨"BUILDER_NAME".toList, [], t.toList⟩ :: pieces t.toList := by
    have htext : ("\x7bBUILDER_NAME\x7d" ++ t).toList =
        '{' :: ("BUILDER_NAME\x7d".toList ++ t.toList) := by
      rw [String.toList_append]
      rfl
    rw [htext]
    exact pieces_of_readSlot (by intro rest h; cases h) hslot
  have hvalue : slotValue values ⟨"BUILDER_NAME".toList, [], t.toList⟩ = .ok name := by
    have hkey : "BUILDER_NAME".toList.takeWhile (fun c => decide (c ≠ '.' ∧ c ≠ '[')) =
        "BUILDER_NAME".toList := by decide
    have hposition : readPosition "BUILDER_NAME".toList = .ok none := rfl
    simp only [slotValue, hkey, hposition, String.ofList_toList, h]
    simp [partOf, Found.spell, Value.spell, Checked.require]
  rw [fill_of_pieces hpieces, Piece.value, hvalue, Checked.ok_bind]

/-- A doubled brace stands for itself. -/
theorem fill_open (t : String) : fill values ("\x7b\x7b" ++ t) = (fill values t).map ("\x7b" ++ ·) := by
  have hpieces : pieces ("\x7b\x7b" ++ t).toList = .char '{' :: pieces t.toList := by
    have htext : ("\x7b\x7b" ++ t).toList = '{' :: '{' :: t.toList := by
      rw [String.toList_append]
      rfl
    rw [htext, pieces]
  exact fill_of_pieces hpieces

theorem fill_close (t : String) :
    fill values ("\x7d\x7d" ++ t) = (fill values t).map ("\x7d" ++ ·) := by
  have hpieces : pieces ("\x7d\x7d" ++ t).toList = .char '}' :: pieces t.toList := by
    have htext : ("\x7d\x7d" ++ t).toList = '}' :: '}' :: t.toList := by
      rw [String.toList_append]
      rfl
    rw [htext, pieces]
  exact fill_of_pieces hpieces

/-- The character with which a text starts after it is filled, if that does not depend on a slot. -/
def lead (s : String) : Option Char :=
  match s.toList with
  | '{' :: '{' :: _ => some '{'
  | '{' :: _ => none
  | c :: _ => some c
  | [] => none

theorem head_of_fill {s out : String} {c : Char} (h : fill values s = .ok out) (hl : lead s = some c) :
    out.toList.head? = some c := by
  have hpieces : pieces s.toList = [.broken] ∨ ∃ rest, pieces s.toList = .char c :: rest := by
    unfold lead at hl
    split at hl
    · rename_i rest hs
      obtain rfl := Option.some.inj hl
      exact .inr ⟨pieces rest, by rw [hs, pieces]⟩
    · cases hl
    · rename_i first rest _ hopen hs
      obtain rfl : c = first := (Option.some.inj hl).symm
      rw [hs]
      by_cases hclose : c = '}'
      · subst hclose
        rw [pieces.eq_def]
        split <;> grind
      · exact .inr ⟨pieces rest, pieces_cons (by simpa using hopen) hclose rest⟩
    · cases hl
  rcases hpieces with hp | ⟨rest, hp⟩
  · simp [fill, hp, Piece.value] at h
  · rw [fill, hp, List.mapM_cons] at h
    obtain ⟨parts, hparts, hout⟩ := Checked.bind_eq_ok.1 h
    obtain ⟨first, hfirst, hparts⟩ := Checked.bind_eq_ok.1 hparts
    obtain ⟨others, -, hparts⟩ := Checked.bind_eq_ok.1 hparts
    obtain rfl : String.singleton c = first := Except.ok.inj hfirst
    obtain rfl := Except.ok.inj hparts
    obtain rfl := Except.ok.inj hout
    rw [String.join_cons]
    simp

end Text
end SchemaForge
