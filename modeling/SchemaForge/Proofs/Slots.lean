import SchemaForge.Proofs.Filling

/-! Text that can be filled for every builder: its braces are doubled or belong to known slots. -/
namespace SchemaForge
namespace Text

/-- The slots that every builder has values for. -/
def slotNames : List String :=
  ["TRANSACTION_NAME", "BUILDER_NAME", "COMMENT_NAME", "COMMENT_NAME_A_OR_AN"]

/-- Every brace is doubled or encloses the name of a known slot. -/
inductive Fillable : List Char → Prop where
  | nil : Fillable []
  | char {c : Char} {cs : List Char} (ho : c ≠ '{') (hc : c ≠ '}') (h : Fillable cs) :
    Fillable (c :: cs)
  | opening {cs : List Char} (h : Fillable cs) : Fillable ('{' :: '{' :: cs)
  | closing {cs : List Char} (h : Fillable cs) : Fillable ('}' :: '}' :: cs)
  | slot {name : String} {cs : List Char} (hn : name ∈ slotNames) (h : Fillable cs) :
    Fillable ('{' :: (name.toList ++ '}' :: cs))

theorem Fillable.append {cs ds : List Char} (h : Fillable cs) (h' : Fillable ds) :
    Fillable (cs ++ ds) := by
  induction h with
  | nil => exact h'
  | char ho hc _ ih => exact .char ho hc ih
  | opening _ ih => exact .opening ih
  | closing _ ih => exact .closing ih
  | slot hn _ ih => simpa using Fillable.slot hn ih

/-- The text has no braces. -/
def isBraceless (s : String) : Bool := s.toList.all fun c => c != '{' && c != '}'

@[simp] theorem isBraceless_append (s t : String) :
    isBraceless (s ++ t) = (isBraceless s && isBraceless t) := by
  simp [isBraceless]

theorem isMark_of_brace (c : Char) (h : (c != '{' && c != '}') = false) : isMark c = true := by
  have hbrace : c = '{' ∨ c = '}' := by
    rw [Bool.and_eq_false_iff] at h
    simpa using h
  exact isMark_iff.2 (hbrace.imp_right .inl)

theorem isBraceless_of_isPlain {s : String} (h : isPlain s = true) : isBraceless s = true :=
  all_of_isPlain isMark_of_brace h

theorem isBraceless_upperFirst {s : String} (h : isBraceless s = true) :
    isBraceless (upperFirst s) = true := all_upperFirst isMark_of_brace h

theorem isBraceless_singular {s : String} (h : isBraceless s = true) :
    isBraceless (singular s) = true := all_singular rfl h

theorem all_joinWith {p : Char → Bool} {between : String} {parts : List String}
    (hb : between.toList.all p = true) (h : ∀ part ∈ parts, part.toList.all p = true) :
    (joinWith between parts).toList.all p = true := by
  unfold joinWith
  rw [String.toList_intercalate]
  induction parts with
  | nil => rfl
  | cons part rest ih =>
    have hpart := h part (by simp)
    have hrest := ih fun other hother => h other (by simp [hother])
    cases rest with
    | nil => simpa using hpart
    | cons next rest =>
      simp only [List.map_cons, List.intercalate_cons_cons, List.all_append, hpart, hb,
        Bool.true_and] at hrest ⊢
      exact hrest

theorem isBraceless_joinWith {between : String} {parts : List String}
    (hb : isBraceless between = true) (h : ∀ part ∈ parts, isBraceless part = true) :
    isBraceless (joinWith between parts) = true := all_joinWith hb h

theorem fillable_of_isBraceless {s : String} (h : isBraceless s = true) : Fillable s.toList := by
  unfold isBraceless at h
  generalize s.toList = chars at h ⊢
  induction chars with
  | nil => exact .nil
  | cons c cs ih =>
    simp only [List.all_cons, Bool.and_eq_true, bne_iff_ne] at h
    exact .char h.1.1 h.1.2 (ih (by simpa using h.2))

/-- The character that is written as a single byte. -/
def asciiChar (byte : UInt8) : Option Char :=
  if byte.toNat < 128 then some (Char.ofNat byte.toNat) else none

/-- The characters of a text of ASCII characters. By its bytes a text that is known is read much faster
than by its list of characters. -/
def asciiChars (s : String) : Option (List Char) := s.toByteArray.data.toList.mapM asciiChar

theorem mapM_utf8EncodeChar {c : Char} {cs : List Char}
    (h : (String.utf8EncodeChar c).mapM asciiChar = some cs) : cs = [c] := by
  have hfirst : ∀ {n : Nat} {rest : List UInt8}, 128 ≤ n → n < 256 →
      (UInt8.ofNat n :: rest).mapM asciiChar = none := by
    intro n rest hlow hhigh
    have hn : (UInt8.ofNat n).toNat = n := by simpa using Nat.mod_eq_of_lt hhigh
    rw [List.mapM_cons, asciiChar, hn, if_neg (by omega)]
    rfl
  unfold String.utf8EncodeChar at h
  simp only at h
  split at h
  · rename_i hc
    have hlow : c.toNat < 128 := Nat.lt_succ_of_le hc
    have hn : (UInt8.ofNat c.val.toNat).toNat = c.toNat := by
      simpa using Nat.mod_eq_of_lt (show c.val.toNat < 256 by omega)
    rw [List.mapM_cons, asciiChar, hn, if_pos hlow, Char.ofNat_toNat] at h
    simpa using h.symm
  · split at h
    · rw [hfirst (by omega) (by omega)] at h
      cases h
    · split at h
      · rw [hfirst (by omega) (by omega)] at h
        cases h
      · rw [hfirst (by omega) (by omega)] at h
        cases h

theorem toList_of_asciiChars {s : String} {cs : List Char} (h : asciiChars s = some cs) :
    s.toList = cs := by
  obtain ⟨ds, rfl⟩ : ∃ ds, s = String.ofList ds := ⟨s.toList, by simp⟩
  rw [asciiChars, String.toByteArray_ofList, List.utf8Encode, List.data_toByteArray] at h
  rw [String.toList_ofList]
  simp only at h
  induction ds generalizing cs with
  | nil => simpa using h
  | cons d ds ih =>
    rw [List.flatMap_cons, List.mapM_append] at h
    obtain ⟨first, hfirst, h⟩ := Option.bind_eq_some_iff.1 h
    obtain ⟨rest, hrest, h⟩ := Option.bind_eq_some_iff.1 h
    obtain rfl := Option.some.inj h
    rw [mapM_utf8EncodeChar hfirst, ih hrest]
    rfl

/-- What can be seen from the characters of a text that is known. -/
theorem of_asciiChars {s : String} {test : List Char → Bool}
    (h : (asciiChars s).any test = true) : test s.toList = true := by
  obtain ⟨cs, hcs, htest⟩ := (Option.any_eq_true _ _).1 h
  rwa [toList_of_asciiChars hcs]

/-- Whether the text behind so many characters is fillable. -/
def checkFrom : Nat → List Char → Bool
  | _, [] => true
  | skip + 1, _ :: cs => checkFrom skip cs
  | 0, '{' :: cs =>
    if cs.head? = some '{' then checkFrom 1 cs
    else match (slotNames.filterMap asciiChars).find? fun name => (name ++ ['}']).isPrefixOf cs with
      | some name => checkFrom (name.length + 1) cs
      | none => false
  | 0, '}' :: cs => cs.head? = some '}' && checkFrom 1 cs
  | 0, _ :: cs => checkFrom 0 cs

theorem fillable_of_checkFrom {skip : Nat} {cs : List Char} (h : checkFrom skip cs = true) :
    Fillable (cs.drop skip) := by
  fun_induction checkFrom skip cs with
  | case1 => simpa using Fillable.nil
  | case2 skip c cs ih => exact ih h
  | case3 cs hopen ih =>
    obtain ⟨rest, rfl⟩ := List.head?_eq_some_iff.1 hopen
    exact .opening (ih h)
  | case4 cs hopen chars hchars ih =>
    obtain ⟨name, hmem, hname⟩ := List.mem_filterMap.1 (List.mem_of_find?_eq_some hchars)
    obtain rfl := toList_of_asciiChars hname
    have hopening : (name.toList ++ ['}']).isPrefixOf cs = true := by
      simpa using List.find?_some hchars
    obtain ⟨rest, rfl⟩ := List.isPrefixOf_iff_prefix.1 hopening
    have hrest : Fillable rest := by simpa using ih h
    simpa using Fillable.slot hmem hrest
  | case5 => cases h
  | case6 cs ih =>
    simp only [Bool.and_eq_true, decide_eq_true_eq] at h
    obtain ⟨rest, rfl⟩ := List.head?_eq_some_iff.1 h.1
    exact .closing (ih h.2)
  | case7 c cs ho hc ih => exact .char ho hc (ih h)

/-- Whether a text that is known is fillable. -/
def isFillable (s : String) : Bool := (asciiChars s).any (checkFrom 0)

theorem fillable_of_check {s : String} (h : isFillable s = true) : Fillable s.toList :=
  fillable_of_checkFrom (of_asciiChars h)

theorem fillable_append {s t : String} (h : Fillable s.toList) (h' : Fillable t.toList) :
    Fillable (s ++ t).toList := by
  rw [String.toList_append]
  exact h.append h'

variable {values : String → Option Value}

theorem pieces_slot {name : String} (h : name ∈ slotNames) (cs : List Char) :
    pieces ('{' :: (name.toList ++ '}' :: cs)) = .slot ⟨name.toList, [], cs⟩ :: pieces cs := by
  have hslot : readSlot false (name.toList ++ '}' :: cs) = some ⟨name.toList, [], cs⟩ := by
    simp only [slotNames, List.mem_cons, List.not_mem_nil, or_false] at h
    rcases h with rfl | rfl | rfl | rfl <;> rfl
  have hopen : ∀ rest, name.toList ++ '}' :: cs ≠ '{' :: rest := by
    simp only [slotNames, List.mem_cons, List.not_mem_nil, or_false] at h
    rcases h with rfl | rfl | rfl | rfl <;> intro rest hrest <;> cases hrest
  exact pieces_of_readSlot hopen hslot

theorem slotValue_name {name : String} (h : name ∈ slotNames) {v : Value}
    (hv : values name = some v) (cs : List Char) :
    slotValue values ⟨name.toList, [], cs⟩ = .ok v.spell := by
  have hkey : name.toList.takeWhile (fun c => decide (c ≠ '.' ∧ c ≠ '[')) = name.toList ∧
      readPosition name.toList = .ok none ∧ name ≠ "" := by
    simp only [slotNames, List.mem_cons, List.not_mem_nil, or_false] at h
    rcases h with rfl | rfl | rfl | rfl <;> exact ⟨by decide, rfl, by decide⟩
  simp only [slotValue, hkey, String.ofList_toList, hv]
  simp [partOf, Found.spell, Checked.require, hkey.2.2]

/-- Text that is fillable is filled, once there are values for the known slots. -/
theorem fill_of_fillable {s : String} (h : Fillable s.toList)
    (hv : ∀ name ∈ slotNames, (values name).isSome = true) : ∃ out, fill values s = .ok out := by
  suffices hparts : ∃ parts, (pieces s.toList).mapM (Piece.value values) = .ok parts by
    obtain ⟨parts, hparts⟩ := hparts
    exact ⟨String.join parts, by simp [fill, hparts]⟩
  generalize s.toList = chars at h
  induction h with
  | nil => exact ⟨[], by simp [pieces]⟩
  | @char c cs ho hc _ ih =>
    obtain ⟨parts, hparts⟩ := ih
    exact ⟨_, by rw [pieces_cons ho hc, List.mapM_cons, hparts]; rfl⟩
  | opening _ ih | closing _ ih =>
    obtain ⟨parts, hparts⟩ := ih
    exact ⟨_, by rw [pieces, List.mapM_cons, hparts]; rfl⟩
  | @slot name cs hn _ ih =>
    obtain ⟨parts, hparts⟩ := ih
    obtain ⟨v, hvalue⟩ := Option.isSome_iff_exists.1 (hv name hn)
    have hslot := slotValue_name hn hvalue cs
    exact ⟨_, by rw [pieces_slot hn, List.mapM_cons, hparts, Piece.value, hslot]; rfl⟩

theorem mapM_pieces_append {cs : List Char} (h : Fillable cs) (ds : List Char) :
    (pieces (cs ++ ds)).mapM (Piece.value values) = (do
      let front ← (pieces cs).mapM (Piece.value values)
      let rest ← (pieces ds).mapM (Piece.value values)
      return front ++ rest) := by
  have hcons : ∀ (first first' : Piece) (all some : List Piece),
      first.value values = first'.value values →
      all.mapM (Piece.value values) = (do
        let front ← some.mapM (Piece.value values)
        let rest ← (pieces ds).mapM (Piece.value values)
        return front ++ rest) →
      (first :: all).mapM (Piece.value values) = (do
        let front ← (first' :: some).mapM (Piece.value values)
        let rest ← (pieces ds).mapM (Piece.value values)
        return front ++ rest) := by
    intro first first' all some hfirst hall
    rw [List.mapM_cons, List.mapM_cons, hfirst, hall]
    cases first'.value values with
    | error fault => rfl
    | ok a =>
      cases some.mapM (Piece.value values) with
      | error fault => rfl
      | ok front => cases (pieces ds).mapM (Piece.value values) <;> rfl
  induction h with
  | nil =>
    rw [List.nil_append]
    cases (pieces ds).mapM (Piece.value values) <;> simp [pieces]
  | char ho hc _ ih =>
    rw [List.cons_append, pieces_cons ho hc, pieces_cons ho hc]
    exact hcons _ _ _ _ rfl ih
  | opening _ ih | closing _ ih =>
    rw [List.cons_append, List.cons_append, pieces, pieces]
    exact hcons _ _ _ _ rfl ih
  | @slot name cs hn _ ih =>
    have happend : '{' :: (name.toList ++ '}' :: cs) ++ ds =
        '{' :: (name.toList ++ '}' :: (cs ++ ds)) := by simp
    rw [happend, pieces_slot hn, pieces_slot hn]
    exact hcons _ _ _ _ rfl ih

/-- Text behind a text that is fillable is filled on its own. -/
theorem fill_fillable_append {s : String} (h : Fillable s.toList) (t : String) :
    fill values (s ++ t) = fill values s >>= fun out => (fill values t).map (out ++ ·) := by
  simp only [fill, String.toList_append, mapM_pieces_append h]
  cases (pieces s.toList).mapM (Piece.value values) with
  | error fault => rfl
  | ok front =>
    cases (pieces t.toList).mapM (Piece.value values) with
    | error fault => rfl
    | ok rest => exact congrArg Except.ok String.join_append

theorem splitChars_prepend {ends : Char → Bool} {front : List Char} (h : ∀ c ∈ front, ends c = false)
    {cs first : List Char} {rest : List (List Char)} (hs : splitChars ends cs = first :: rest) :
    splitChars ends (front ++ cs) = (front ++ first) :: rest := by
  induction front with
  | nil => exact hs
  | cons c front ih =>
    have hc := h c (by simp)
    rw [List.cons_append, splitChars, hc, ih fun d hd => h d (by simp [hd])]
    rfl

/-- The lines of fillable text are fillable. -/
theorem fillable_lines {cs : List Char} (h : Fillable cs) :
    ∃ first rest, splitChars (· == '\n') cs = first :: rest ∧ ∀ line ∈ first :: rest, Fillable line := by
  -- Braces and slots stay on one line, so each step of the induction adds to the first line only.
  have hfront : ∀ (front cs : List Char), (∀ c ∈ front, (c == '\n') = false) →
      (∀ line, Fillable line → Fillable (front ++ line)) →
      (∃ first rest, splitChars (· == '\n') cs = first :: rest ∧
        ∀ line ∈ first :: rest, Fillable line) →
      ∃ first rest, splitChars (· == '\n') (front ++ cs) = first :: rest ∧
        ∀ line ∈ first :: rest, Fillable line := by
    rintro front cs hends hfill ⟨first, rest, hs, hlines⟩
    refine ⟨_, _, splitChars_prepend hends hs, ?_⟩
    intro line hline
    rcases List.mem_cons.1 hline with rfl | hline
    · exact hfill first (hlines first (by simp))
    · exact hlines line (by simp [hline])
  induction h with
  | nil => exact ⟨[], [], rfl, by simpa using Fillable.nil⟩
  | @char c cs ho hc _ ih =>
    by_cases hbreak : c = '\n'
    · subst hbreak
      obtain ⟨first, rest, hs, hlines⟩ := ih
      refine ⟨[], first :: rest, by simp [splitChars, hs], ?_⟩
      simpa using ⟨Fillable.nil, by simpa using hlines⟩
    · exact hfront [c] cs (by simpa using hbreak) (fun line hline => .char ho hc hline) ih
  | @opening cs _ ih => exact hfront ['{', '{'] cs (by simp) (fun _ => .opening) ih
  | @closing cs _ ih => exact hfront ['}', '}'] cs (by simp) (fun _ => .closing) ih
  | @slot name cs hn _ ih =>
    have hends : ∀ c ∈ '{' :: (name.toList ++ ['}']), (c == '\n') = false := by
      have hall : ∀ name ∈ slotNames, ('{' :: (name.toList ++ ['}'])).all (· != '\n') = true := by
        decide
      simpa using List.all_eq_true.1 (hall name hn)
    have hslot := hfront ('{' :: (name.toList ++ ['}'])) cs hends
      (fun line hline => by simpa using Fillable.slot hn hline) ih
    simpa using hslot

theorem fillable_of_mem_splitOn {s line : String} (h : Fillable s.toList)
    (hl : line ∈ splitOn (· == '\n') s) : Fillable line.toList := by
  obtain ⟨cs, hcs, rfl⟩ := List.mem_map.1 hl
  obtain ⟨first, rest, hs, hlines⟩ := fillable_lines h
  rw [String.toList_ofList]
  exact hlines cs (hs ▸ hcs)

end Text
end SchemaForge
