import SchemaForge.Proofs.Sheets
import SchemaForge.Proofs.Slots

/-! How deep braces are nested in the lines of a builder. In a text with slots the braces that stand for
themselves are doubled and the others enclose slots, so the text is nested twice as deep as what it
comes to. -/
namespace SchemaForge
open Text
namespace Text

/-- How deep braces are nested behind a character, if it closes none that is not open. -/
def levelStep (n : Nat) (c : Char) : Option Nat :=
  if c = '{' then some (n + 1)
  else if c = '}' then if n = 0 then none else some (n - 1)
  else some n

/-- How deep braces are nested behind a text, from how deep they are in front of it. -/
def level (n : Nat) (cs : List Char) : Option Nat := cs.foldlM levelStep n

theorem level_nil (n : Nat) : level n [] = some n := rfl

theorem level_cons (n : Nat) (c : Char) (cs : List Char) :
    level n (c :: cs) = (levelStep n c).bind (level · cs) := List.foldlM_cons

theorem level_append (n : Nat) (cs ds : List Char) :
    level n (cs ++ ds) = (level n cs).bind (level · ds) := List.foldlM_append

@[simp] theorem levelStep_open (n : Nat) : levelStep n '{' = some (n + 1) := rfl

@[simp] theorem levelStep_close (n : Nat) : levelStep (n + 1) '}' = some n := rfl

theorem levelStep_other {c : Char} (ho : c ≠ '{') (hc : c ≠ '}') (n : Nat) :
    levelStep n c = some n := by
  rw [levelStep, if_neg ho, if_neg hc]

theorem level_trans {k l m : Nat} {cs ds : List Char} (h : level k cs = some l)
    (h' : level l ds = some m) : level k (cs ++ ds) = some m := by
  rw [level_append, h]
  exact h'

/-- A text nests in the same way further inside. -/
theorem level_add {k l : Nat} {cs : List Char} (h : level k cs = some l) (n : Nat) :
    level (k + n) cs = some (l + n) := by
  have hstep : ∀ {k l : Nat} {c : Char}, levelStep k c = some l →
      levelStep (k + n) c = some (l + n) := by
    intro k l c h
    unfold levelStep at h ⊢
    grind
  induction cs generalizing k with
  | nil =>
    obtain rfl := Option.some.inj h
    rfl
  | cons c cs ih =>
    rw [level_cons] at h ⊢
    obtain ⟨m, hm, h⟩ := Option.bind_eq_some_iff.1 h
    rw [hstep hm]
    exact ih h

theorem level_of_isBraceless {s : String} (h : isBraceless s = true) (n : Nat) :
    level n s.toList = some n := by
  unfold isBraceless at h
  generalize s.toList = cs at h
  induction cs with
  | nil => rfl
  | cons c cs ih =>
    simp only [List.all_cons, Bool.and_eq_true, bne_iff_ne] at h
    rw [level_cons, levelStep_other h.1.1 h.1.2]
    exact ih (by simpa using h.2)

/-- The nesting ends so deep if no part closes more than is open, and the braces that are open at the
end are as many. -/
theorem level_eq_some_iff {k l : Nat} {cs : List Char} : level k cs = some l ↔
    (∀ front, front <+: cs → front.count '}' ≤ k + front.count '{') ∧
      k + cs.count '{' = l + cs.count '}' := by
  induction cs generalizing k with
  | nil => simp [level_nil]
  | cons c cs ih =>
    have hfronts : (∀ front, front <+: c :: cs → front.count '}' ≤ k + front.count '{') ↔
        ∀ front, front <+: cs → (c :: front).count '}' ≤ k + (c :: front).count '{' := by
      simp only [List.prefix_cons_iff]
      constructor
      · intro h front hfront
        exact h _ (.inr ⟨front, rfl, hfront⟩)
      · rintro h _ (rfl | ⟨front, rfl, hfront⟩)
        · simp
        · exact h front hfront
    -- one step changes the depth and both counts in the same way
    have hnext : ∀ m, (∀ front : List Char, (c :: front).count '}' ≤ k + (c :: front).count '{' ↔
          front.count '}' ≤ m + front.count '{') →
        (k + (c :: cs).count '{' = l + (c :: cs).count '}' ↔ m + cs.count '{' = l + cs.count '}') →
        (level m cs = some l ↔
          (∀ front, front <+: c :: cs → front.count '}' ≤ k + front.count '{') ∧
            k + (c :: cs).count '{' = l + (c :: cs).count '}') := by
      intro m hfront hend
      rw [hfronts, hend, ih]
      simp only [hfront]
    rw [level_cons]
    by_cases hopen : c = '{'
    · subst hopen
      apply hnext (k + 1)
      · intro front
        simp
        omega
      · simp
        omega
    · by_cases hclose : c = '}'
      · subst hclose
        cases k with
        | zero =>
          have hnone : levelStep 0 '}' = none := rfl
          rw [hnone, hfronts]
          simp only [Option.bind_none, reduceCtorEq, false_iff, not_and]
          intro h
          simpa using h [] (by simp)
        | succ k =>
          apply hnext k
          · intro front
            simp
            omega
          · simp
            omega
      · rw [levelStep_other hopen hclose]
        apply hnext k
        · intro front
          simp [hopen, hclose]
        · simp [hopen, hclose]

variable {values : String → Option Value}

/-- A text with slots is nested twice as deep as what it is filled to, if no value has braces. -/
theorem level_fill {cs : List Char} (h : Fillable cs)
    (hv : ∀ name ∈ slotNames, ∃ v, values name = some v ∧ isBraceless v.spell = true) {k m : Nat}
    (hl : level (2 * k) cs = some m) : ∃ l, m = 2 * l ∧ ∀ parts,
      (pieces cs).mapM (Piece.value values) = .ok parts →
        level k (String.join parts).toList = some l := by
  -- A piece that is filled with a text is followed by what the rest is filled to.
  have hcons : ∀ {piece : Piece} {text : String} {rest : List Piece} {k k' l : Nat},
      piece.value values = .ok text → level k text.toList = some k' →
      (∀ parts, rest.mapM (Piece.value values) = .ok parts →
        level k' (String.join parts).toList = some l) →
      ∀ parts, (piece :: rest).mapM (Piece.value values) = .ok parts →
        level k (String.join parts).toList = some l := by
    intro piece text rest k k' l hpiece htext hrest parts hparts
    rw [List.mapM_cons, hpiece, Checked.ok_bind] at hparts
    obtain ⟨others, hothers, rfl⟩ := Checked.return_eq_ok.1 hparts
    rw [String.join_cons, String.toList_append]
    exact level_trans htext (hrest others hothers)
  induction h generalizing k with
  | nil =>
    refine ⟨k, (Option.some.inj hl).symm, ?_⟩
    rintro parts hparts
    obtain rfl : [] = parts := by simpa [pieces] using hparts
    rfl
  | @char c cs ho hc _ ih =>
    rw [level_cons, levelStep_other ho hc] at hl
    obtain ⟨l, hm, hrest⟩ := ih hl
    refine ⟨l, hm, ?_⟩
    rw [pieces_cons ho hc]
    exact hcons rfl (by simp [level_cons, levelStep_other ho hc, level_nil]) hrest
  | @opening cs _ ih =>
    have hl' : level (2 * (k + 1)) cs = some m := hl
    obtain ⟨l, hm, hrest⟩ := ih hl'
    refine ⟨l, hm, ?_⟩
    rw [pieces]
    exact hcons rfl rfl hrest
  | @closing cs _ ih =>
    cases k with
    | zero => cases hl
    | succ k =>
      have hl' : level (2 * k) cs = some m := hl
      obtain ⟨l, hm, hrest⟩ := ih hl'
      refine ⟨l, hm, ?_⟩
      rw [pieces]
      exact hcons rfl rfl hrest
  | @slot name cs hn _ ih =>
    have hname : isBraceless name = true := by
      have hall : ∀ name ∈ slotNames, isBraceless name = true := by decide
      exact hall name hn
    have hl' : level (2 * k) cs = some m := by
      rw [level_cons, levelStep_open, Option.bind_some, level_append, level_of_isBraceless hname] at hl
      exact hl
    obtain ⟨l, hm, hrest⟩ := ih hl'
    obtain ⟨v, hvalue, hbraceless⟩ := hv name hn
    refine ⟨l, hm, ?_⟩
    rw [pieces_slot hn]
    exact hcons (slotValue_name hn hvalue cs) (level_of_isBraceless hbraceless k) hrest

theorem exists_half {cs : List Char} (h : Fillable cs) {k m : Nat}
    (hl : level (2 * k) cs = some m) : ∃ l, m = 2 * l := by
  obtain ⟨l, hm, -⟩ := @level_fill (fun _ => some (.text "")) cs h (fun _ _ => ⟨_, rfl, rfl⟩) k m hl
  exact ⟨l, hm⟩

/-- Line breaks do not count. -/
theorem level_splitChars (n : Nat) (cs : List Char) :
    level n (splitChars (· == '\n') cs).flatten = level n cs := by
  induction cs generalizing n with
  | nil => rfl
  | cons c cs ih =>
    cases hc : c == '\n' with
    | true =>
      obtain rfl : c = '\n' := by simpa using hc
      simp only [splitChars, hc, List.flatten_cons, List.nil_append]
      exact ih n
    | false =>
      have hflat : (splitChars (· == '\n') (c :: cs)).flatten =
          c :: (splitChars (· == '\n') cs).flatten := by
        simp only [splitChars, hc]
        cases splitChars (· == '\n') cs <;> rfl
      rw [hflat, level_cons, level_cons]
      simp only [ih]

theorem level_splitOn (n : Nat) (s : String) :
    level n ((splitOn (· == '\n') s).flatMap String.toList) = level n s.toList := by
  have hflat : (splitOn (· == '\n') s).flatMap String.toList =
      (splitChars (· == '\n') s.toList).flatten := by
    simp [splitOn, List.flatMap_def, Function.comp_def]
  rw [hflat, level_splitChars]

/-- A text that is filled to one that leads from one depth of braces to another. -/
structure Nests (k l : Nat) (s : String) : Prop where
  fillable : Fillable s.toList
  level : level (2 * k) s.toList = some (2 * l)

theorem Nests.append {k l m : Nat} {s t : String} (h : Nests k l s) (h' : Nests l m t) :
    Nests k m (s ++ t) where
  fillable := fillable_append h.fillable h'.fillable
  level := by
    rw [String.toList_append]
    exact level_trans h.level h'.level

theorem nests_of_isBraceless {s : String} (h : isBraceless s = true) (k : Nat) : Nests k k s where
  fillable := fillable_of_isBraceless h
  level := level_of_isBraceless h (2 * k)

/-- How deep braces are nested behind a text that is known, if it is fillable. -/
def levelAfter (n : Nat) (s : String) : Option Nat :=
  (asciiChars s).bind fun cs => if checkFrom 0 cs then level n cs else none

theorem levelAfter_eq_some {n m : Nat} {s : String} (h : levelAfter n s = some m) :
    Fillable s.toList ∧ level n s.toList = some m := by
  obtain ⟨cs, hcs, h⟩ := Option.bind_eq_some_iff.1 h
  rw [toList_of_asciiChars hcs]
  split at h
  · rename_i hcheck
    exact ⟨fillable_of_checkFrom hcheck, h⟩
  · cases h

theorem nests_of_levelAfter (k l : Nat) {s : String} (h : levelAfter (2 * k) s = some (2 * l)) :
    Nests k l s := ⟨(levelAfter_eq_some h).1, (levelAfter_eq_some h).2⟩

end Text

/-- Lines that lead from one depth of braces to another. -/
def Nested (k l : Nat) (lines : List String) : Prop :=
  Text.level k (lines.flatMap String.toList) = some l

instance (k l : Nat) (lines : List String) : Decidable (Nested k l lines) :=
  inferInstanceAs (Decidable (Text.level k (lines.flatMap String.toList) = some l))

theorem Nested.append {k l m : Nat} {lines lines' : List String} (h : Nested k l lines)
    (h' : Nested l m lines') : Nested k m (lines ++ lines') := by
  unfold Nested
  rw [List.flatMap_append]
  exact level_trans h h'

theorem nested_nil (k : Nat) : Nested k k [] := rfl

namespace Adds
variable {α : Type} {depth k l m : Nat} {steps next : Writing Unit}

theorem nothing_nested : Adds depth (pure ()) (Nested k k) := nothing.mono fun _ h => h ▸ nested_nil k

theorem seq_nested (h : Adds depth steps (Nested k l)) (h' : Adds depth next (Nested l m)) :
    Adds depth (steps >>= fun _ => next) (Nested k m) := by
  apply (h.seq h').mono
  rintro _ ⟨before, after, hb, ha, rfl⟩
  exact hb.append ha

theorem forM_nested {step : α → Writing Unit} {items : List α}
    (h : ∀ a ∈ items, Adds depth (step a) (Nested k k)) : Adds depth (items.forM step) (Nested k k) := by
  induction items with
  | nil => exact nothing_nested
  | cons a items ih => exact (h a (by simp)).seq_nested (ih fun b hb => h b (by simp [hb]))

end Adds

namespace Builder
variable {b : Builder} {depth k l : Nat}

/-- No value for the slots of the builder has braces. -/
def BracelessSlots (b : Builder) : Prop := ∀ e ∈ b.slots, Text.isBraceless e.2.spell = true

theorem lookup_slots (hb : b.BracelessSlots) {name : String} (hn : name ∈ slotNames) :
    ∃ v, b.slots.lookup name = some v ∧ isBraceless v.spell = true := by
  simp only [slotNames, List.mem_cons, List.not_mem_nil, or_false] at hn
  rcases hn with rfl | rfl | rfl | rfl
  · exact ⟨_, rfl, hb ("TRANSACTION_NAME", _) (by simp [slots])⟩
  · exact ⟨_, rfl, hb ("BUILDER_NAME", _) (by simp [slots])⟩
  · exact ⟨_, rfl, hb ("COMMENT_NAME", _) (by simp [slots])⟩
  · exact ⟨_, rfl, hb ("COMMENT_NAME_A_OR_AN", _) (by simp [slots])⟩

theorem isBraceless_tabs (n : Nat) : isBraceless (tabs n) = true := by
  rw [isBraceless, toList_tabs, List.all_eq_true]
  intro c hc
  rw [List.eq_of_mem_replicate hc]
  rfl

theorem level_lineCode (hb : b.BracelessSlots) {line code : String} (hf : Fillable line.toList)
    {m : Nat} (hl : Text.level (2 * k) line.toList = some m)
    (h : b.lineCode .null (.int depth) line = .ok code) :
    ∃ l, m = 2 * l ∧ Text.level k code.toList = some l := by
  obtain ⟨l, hm, hparts⟩ := level_fill hf (fun name => lookup_slots hb) hl
  refine ⟨l, hm, ?_⟩
  rcases lineCode_eq_ok h with ⟨rfl, rfl⟩ | ⟨-, text, htext, rfl⟩
  · exact hparts [] (by simp [pieces])
  · obtain ⟨parts, hvalues, rfl⟩ := Checked.return_eq_ok.1 htext
    rw [String.toList_append]
    exact level_trans (level_of_isBraceless (isBraceless_tabs depth) k) (hparts parts hvalues)

/-- Lines that can be filled lead to half the depth to which they lead as they are given. -/
theorem nested_mapM_lineCode (hb : b.BracelessSlots) {lines codes : List String}
    (hf : ∀ line ∈ lines, Fillable line.toList) {m : Nat}
    (hl : Text.level (2 * k) (lines.flatMap String.toList) = some m)
    (h : lines.mapM (b.lineCode .null (.int depth)) = .ok codes) :
    ∃ l, m = 2 * l ∧ Nested k l codes := by
  induction lines generalizing k codes with
  | nil =>
    obtain rfl : [] = codes := by simpa using h
    exact ⟨k, (Option.some.inj hl).symm, nested_nil k⟩
  | cons line lines ih =>
    rw [List.mapM_cons] at h
    obtain ⟨code, hcode, h⟩ := Checked.bind_eq_ok.1 h
    obtain ⟨rest, hrest, rfl⟩ := Checked.return_eq_ok.1 h
    rw [List.flatMap_cons, level_append] at hl
    obtain ⟨m', hline, hl⟩ := Option.bind_eq_some_iff.1 hl
    obtain ⟨l', rfl, hcode⟩ := level_lineCode hb (hf line (by simp)) hline hcode
    obtain ⟨l, hm, hnested⟩ := ih (fun line hline => hf line (by simp [hline])) hl hrest
    exact ⟨l, hm, level_trans hcode hnested⟩

theorem nested_write (hb : b.BracelessSlots) {text : String} (h : Nests k l text) :
    Adds depth (b.write text) (Nested k l) := by
  apply (adds_write text).mono
  intro codes hcodes
  obtain ⟨l', hl, hnested⟩ := nested_mapM_lineCode hb
    (fun line hline => fillable_of_mem_splitOn h.fillable hline)
    ((level_splitOn (2 * k) text).trans h.level) hcodes
  obtain rfl : l = l' := by omega
  exact hnested

theorem nested_check (hb : b.BracelessSlots) (k l : Nat) {text : String}
    (h : Text.levelAfter (2 * k) text = some (2 * l)) : Adds depth (b.write text) (Nested k l) :=
  nested_write hb (nests_of_levelAfter k l h)

theorem nested_braceless (hb : b.BracelessSlots) {text : String} (h : isBraceless text = true) :
    Adds depth (b.write text) (Nested k k) := nested_write hb (nests_of_isBraceless h k)

/-- Lines that are known lead to the depth behind the last of them. -/
theorem nested_checked (hb : b.BracelessSlots) (k l : Nat) {lines : List String}
    (h : lines.foldlM Text.levelAfter (2 * k) = some (2 * l)) :
    Adds depth (b.writeAll lines) (Nested k l) := by
  induction lines generalizing k with
  | nil =>
    obtain rfl : k = l := by
      have hk := Option.some.inj h
      omega
    exact Adds.nothing_nested
  | cons line lines ih =>
    rw [List.foldlM_cons] at h
    obtain ⟨m, hline, h⟩ := Option.bind_eq_some_iff.1 h
    obtain ⟨hf, hlevel⟩ := levelAfter_eq_some hline
    obtain ⟨l', rfl⟩ := exists_half hf hlevel
    exact (nested_write hb ⟨hf, hlevel⟩).seq_nested (ih l' h)

end Builder
end SchemaForge
