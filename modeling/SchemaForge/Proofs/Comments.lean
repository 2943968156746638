import SchemaForge.Proofs.BuilderReads
import SchemaForge.Proofs.BuilderSuccess

/-! Comments in a schema. They come out in the remarks of a header and nowhere else, and no comment makes a
builder fail. The argument runs two builders side by side. -/
namespace SchemaForge
open Checked Text
namespace Text

theorem readSpec_eq_none {depth : Nat} {t : List Char} (ht : ∀ c ∈ t, c ≠ '{' ∧ c ≠ '}') :
    readSpec depth t = none := by
  fun_induction readSpec depth t with
  | case1 => rfl
  | case2 rest => exact absurd rfl (ht '}' (by simp)).2
  | case3 depth rest _ => exact absurd rfl (ht '}' (by simp)).2
  | case4 depth rest _ => exact absurd rfl (ht '{' (by simp)).1
  | case5 depth c rest _ _ _ ih => rw [ih fun d hd => ht d (by simp [hd])]; rfl

theorem readSlot_eq_none {inBrackets : Bool} {t : List Char} (ht : ∀ c ∈ t, c ≠ '{' ∧ c ≠ '}') :
    readSlot inBrackets t = none := by
  fun_induction readSlot inBrackets t with
  | case1 => rfl
  | case2 c rest ih => rw [ih fun d hd => ht d (by simp [hd])]; rfl
  | case3 _ rest _ => exact absurd rfl (ht '}' (by simp)).2
  | case4 _ rest _ => rw [readSpec_eq_none fun d hd => ht d (by simp [hd])]; rfl
  | case5 => rfl
  | case6 => rfl
  | case7 _ c rest _ _ _ _ _ ih => rw [ih fun d hd => ht d (by simp [hd])]; rfl

section Behind
variable {t : List Char} (ht : ∀ c ∈ t, c ≠ '{' ∧ c ≠ '}')
include ht

/-- Text without braces closes nothing. -/
theorem readSpec_append (depth : Nat) (cs : List Char) :
    readSpec depth (cs ++ t) = (readSpec depth cs).map fun r => (r.1, r.2 ++ t) := by
  fun_induction readSpec depth cs with
  | case1 depth => exact readSpec_eq_none ht
  | case2 rest => rfl
  | case3 depth rest ih => simp [readSpec, ih, Function.comp_def]
  | case4 depth rest ih => simp [readSpec, ih, Function.comp_def]
  | case5 depth c rest hzero hsucc hopen ih =>
    rw [List.cons_append, readSpec.eq_5 depth c _ hopen hzero hsucc, ih, Option.map_map, Option.map_map]
    rfl

theorem readSlot_append (inBrackets : Bool) (cs : List Char) :
    readSlot inBrackets (cs ++ t) =
      (readSlot inBrackets cs).map fun s => { s with rest := s.rest ++ t } := by
  fun_induction readSlot inBrackets cs with
  | case1 inBrackets => exact readSlot_eq_none ht
  | case2 c rest ih =>
    change Option.map _ (readSlot (c ≠ ']') (rest ++ t)) = _
    rw [ih, Option.map_map, Option.map_map]
    rfl
  | case3 inBrackets rest hb => simp [readSlot, hb]
  | case4 inBrackets rest hb => simp [readSlot, hb, readSpec_append ht, Function.comp_def]
  | case5 inBrackets rest hb => simp [readSlot, hb]
  | case6 inBrackets rest hb => simp [readSlot, hb]
  | case7 inBrackets c rest hb hclose hcolon hopen hbang ih =>
    rw [List.cons_append, readSlot, if_neg hb]
    · simp only [ih, Option.map_map]
      rfl
    all_goals assumption

end Behind

variable {values : String → Option Value}

theorem pieces_open {rest : List Char} (hn : ∀ next, rest = '{' :: next → False)
    (hs : readSlot false rest = none) : pieces ('{' :: rest) = [.broken] := by
  rw [pieces.eq_4 _ hn]
  split
  · rename_i s' hs'
    cases hs.symm.trans hs'
  · rfl

theorem pieces_close {rest : List Char} (hn : ∀ next, rest = '}' :: next → False) :
    pieces ('}' :: rest) = [.broken] := by
  rw [pieces.eq_def]
  split <;> grind

/-- What stands behind a text comes out behind it, or always meets the same fault, as long as it is plain. -/
def Leads (values : String → Option Value) (s : String) : Prop :=
  (∃ fault, ∀ t, isPlain t = true → fill values (s ++ t) = .error fault) ∨
    ∃ out, ∀ t, isPlain t = true → fill values (s ++ t) = .ok (out ++ t)

theorem Leads.step {cs rest : List Char} (h : Leads values (String.ofList rest)) (first : Checked String)
    (hp : ∀ t, isPlain t = true → ∃ p, p.value values = first ∧
      pieces (cs ++ t.toList) = p :: pieces (rest ++ t.toList)) : Leads values (String.ofList cs) := by
  have hfill : ∀ t, isPlain t = true → fill values (String.ofList cs ++ t) =
      first >>= fun v => (fill values (String.ofList rest ++ t)).map (v ++ ·) := by
    intro t ht
    obtain ⟨p, rfl, hpieces⟩ := hp t ht
    exact fill_of_pieces (by simpa using hpieces)
  cases first with
  | error fault => exact .inl ⟨fault, hfill⟩
  | ok v =>
    rcases h with ⟨fault, hf⟩ | ⟨out, hf⟩
    · exact .inl ⟨fault, fun t ht => by rw [hfill t ht, ok_bind, hf t ht, Checked.map_error]⟩
    · refine .inr ⟨v ++ out, fun t ht => ?_⟩
      rw [hfill t ht, ok_bind, hf t ht, map_ok, String.append_assoc]

theorem leads_broken {cs : List Char}
    (h : ∀ t, isPlain t = true → pieces (cs ++ t.toList) = [.broken]) : Leads values (String.ofList cs) :=
  .inl ⟨.malformed, fun t ht => by simp [fill, h t ht, Piece.value]⟩

/-- A text decides by itself whether it can be filled with plain text behind it. -/
theorem leads (s : String) : Leads values s := by
  obtain ⟨cs, rfl⟩ : ∃ cs, s = String.ofList cs := ⟨s.toList, by simp⟩
  have hplain : ∀ {t : String}, isPlain t = true → ∀ c ∈ t.toList, c ≠ '{' ∧ c ≠ '}' := by
    intro t ht c hc
    have hmark := List.all_eq_true.1 ht c hc
    constructor <;> rintro rfl <;> cases hmark
  -- a brace at the end of the text has no partner in what stands behind it
  have hend : ∀ {t : String}, isPlain t = true → ∀ {rest : List Char} {c : Char}, c = '{' ∨ c = '}' →
      (∀ next, rest = c :: next → False) → ∀ next, rest ++ t.toList = c :: next → False := by
    rintro t ht (_ | ⟨d, rest⟩) c hc hn next happend
    · have hfree := hplain ht c (by simp [show t.toList = c :: next from happend])
      rcases hc with rfl | rfl <;> simp at hfree
    · obtain ⟨rfl, -⟩ := List.cons.inj happend
      exact hn rest rfl
  induction cs using pieces.induct with
  | case1 => exact .inr ⟨"", fun t ht => by simpa using fill_of_isPlain ht⟩
  | case2 rest ih => exact ih.step (.ok "\x7b") fun t _ => ⟨.char '{', rfl, by simp [pieces]⟩
  | case3 rest ih => exact ih.step (.ok "\x7d") fun t _ => ⟨.char '}', rfl, by simp [pieces]⟩
  | case4 rest hn s hs ih =>
    refine ih.step (slotValue values s) fun t ht => ⟨.slot ⟨s.name, s.spec, s.rest ++ t.toList⟩, rfl, ?_⟩
    have hslot := readSlot_append (hplain ht) false rest
    rw [hs] at hslot
    exact pieces_of_readSlot (hend ht (.inl rfl) hn) hslot
  | case5 rest hn hs =>
    refine leads_broken fun t ht => pieces_open (hend ht (.inl rfl) hn) ?_
    have hslot := readSlot_append (hplain ht) false rest
    rw [hs] at hslot
    exact hslot
  | case6 rest hn => exact leads_broken fun t ht => pieces_close (hend ht (.inr rfl) hn)
  | case7 c rest _ _ ho hc ih =>
    exact ih.step (.ok (String.singleton c)) fun t _ => ⟨.char c, rfl, pieces_cons ho hc _⟩

theorem splitChars_append_left {ends : Char → Bool} {cs ts first : List Char} {rest : List (List Char)}
    (h : ∀ c ∈ cs, ends c = false) (ht : splitChars ends ts = first :: rest) :
    splitChars ends (cs ++ ts) = (cs ++ first) :: rest := by
  induction cs with
  | nil => exact ht
  | cons c cs ih =>
    rw [List.cons_append, splitChars, h c (by simp), ih fun d hd => h d (by simp [hd])]
    rfl

/-- Text without line breaks in front of other text goes to its first line. -/
theorem splitOn_append_left {s t first : String} {rest : List String} (h : isLine s = true)
    (ht : splitOn (· == '\n') t = first :: rest) : splitOn (· == '\n') (s ++ t) = (s ++ first) :: rest := by
  obtain ⟨first, rest, hsplit, rfl, rfl⟩ := List.map_eq_cons_iff.1 ht
  have hends : ∀ c ∈ s.toList, (c == '\n') = false := by simpa [isLine] using h
  simp [splitOn, splitChars_append_left hends hsplit]

theorem exists_splitChars_append (ends : Char → Bool) (cs : List Char) : ∃ before last,
    ∀ ts, (∀ c ∈ ts, ends c = false) → splitChars ends (cs ++ ts) = before ++ [last ++ ts] := by
  induction cs with
  | nil => exact ⟨[], [], fun ts ht => splitChars_of_none ht⟩
  | cons c cs ih =>
    obtain ⟨before, last, hsplit⟩ := ih
    cases hc : ends c with
    | true =>
      refine ⟨[] :: before, last, fun ts ht => ?_⟩
      rw [List.cons_append, splitChars, hc, hsplit ts ht, List.cons_append]
    | false =>
      cases before with
      | nil =>
        refine ⟨[], c :: last, fun ts ht => ?_⟩
        rw [List.cons_append, splitChars, hc, hsplit ts ht]
        rfl
      | cons first before =>
        refine ⟨(c :: first) :: before, last, fun ts ht => ?_⟩
        rw [List.cons_append, splitChars, hc, hsplit ts ht]
        rfl

/-- Text without line breaks behind other text goes to its last line. -/
theorem exists_splitOn_append (s : String) : ∃ before last, ∀ t, isLine t = true →
    splitOn (· == '\n') (s ++ t) = before ++ [last ++ t] := by
  obtain ⟨before, last, hsplit⟩ := exists_splitChars_append (· == '\n') s.toList
  refine ⟨before.map String.ofList, String.ofList last, fun t ht => ?_⟩
  have hends : ∀ c ∈ t.toList, (c == '\n') = false := by simpa [isLine] using ht
  simp [splitOn, hsplit t.toList hends]

end Text

theorem lookup_rel (r : String → Value → Value → Prop) {l l' : List (String × Value)}
    (h : List.Forall₂ (fun e e' => e.1 = e'.1 ∧ r e.1 e.2 e'.2) l l') (key : String) :
    l.lookup key = none ∧ l'.lookup key = none ∨
      ∃ a a', l.lookup key = some a ∧ l'.lookup key = some a' ∧ r key a a' := by
  induction h with
  | nil => exact .inl ⟨rfl, rfl⟩
  | @cons e e' l l' he _ ih =>
    obtain ⟨name, a⟩ := e
    obtain ⟨_, a'⟩ := e'
    obtain ⟨rfl, hr⟩ := he
    rw [List.lookup_cons, List.lookup_cons]
    cases hk : key == name with
    | true =>
      obtain rfl : key = name := by simpa using hk
      exact .inr ⟨a, a', rfl, rfl, hr⟩
    | false => exact ih

namespace Value

/-- The same value, or tables with the same entries but for values under a key, which are in a relation. -/
def AlikeBut (key : String) (r : Value → Value → Prop) (v w : Value) : Prop :=
  v = w ∨ ∃ entries entries', v = .table entries ∧ w = .table entries' ∧
    List.Forall₂ (fun e e' => e.1 = e'.1 ∧ (e.2 = e'.2 ∨ e.1 = key ∧ r e.2 e'.2)) entries entries'

namespace AlikeBut
variable {key : String} {r : Value → Value → Prop} {v w : Value} (h : v.AlikeBut key r w)
include h

theorem answers {other : String} (hk : other ≠ key) : v.need other = w.need other ∧
    v.has other = w.has other ∧ v.find (.text other) = w.find (.text other) := by
  rcases h with rfl | ⟨entries, entries', rfl, rfl, h⟩
  · exact ⟨rfl, rfl, rfl⟩
  · have hget : entries.lookup other = entries'.lookup other := by
      rcases lookup_rel (fun k a a' => a = a' ∨ k = key ∧ r a a') h other with ⟨hl, hr⟩ | ⟨a, a', hl, hr, rfl | ⟨rfl, -⟩⟩
      · rw [hl, hr]
      · rw [hl, hr]
      · exact absurd rfl hk
    exact ⟨congrArg (Checked.require (text other)) hget,
      congrArg (fun found : Option Value => (.ok found.isSome : Checked Bool)) hget,
      congrArg Except.ok hget⟩

theorem need_key : Checked.Rel (fun a a' => a = a' ∨ r a a') (v.need key) (w.need key) := by
  rcases h with rfl | ⟨entries, entries', rfl, rfl, h⟩
  · exact .refl (fun _ => .inl rfl) _
  · have hneed : ∀ entries : List (String × Value),
        (table entries).need key = Checked.require (text key) (entries.lookup key) := fun _ => rfl
    rw [hneed, hneed]
    rcases lookup_rel (fun k a a' => a = a' ∨ k = key ∧ r a a') h key with ⟨hl, hr⟩ | ⟨a, a', hl, hr, ha⟩
    · rw [hl, hr]
      exact .fault _
    · rw [hl, hr]
      exact .value (ha.imp_right And.right)

end AlikeBut

/-- Texts without braces and line breaks. -/
def PlainTexts (c c' : Value) : Prop := ∃ text text', c = .text text ∧ c' = .text text' ∧
  Text.isPlain text = true ∧ Text.isPlain text' = true

/-- Lists of attributes that differ at most in plain comments. -/
def Layouts (l l' : Value) : Prop := ∃ attributes attributes', l = .list attributes ∧
  l' = .list attributes' ∧ List.Forall₂ (AlikeBut "comments" PlainTexts) attributes attributes'

end Value

/-- Schemas that differ at most in plain comments on attributes. -/
def Schema.Recommented (s s' : Schema) : Prop :=
  List.Forall₂ (fun t t' => t.1 = t'.1 ∧ t.2.AlikeBut "layout" Value.Layouts t'.2) s.types s'.types

/-- Steps that meet the same fault or succeed both, whatever stands on their sheets. They come from one
indentation to another, and what they add is in a relation. -/
def Concur (r : List String → List String → Prop) (depth depth' : Nat) (x y : Writing Unit) : Prop :=
  ∀ code code' : List String,
    (∃ fault left right, runOn x ⟨code, .int depth⟩ = (.error fault, left) ∧
      runOn y ⟨code', .int depth⟩ = (.error fault, right)) ∨
    ∃ lines lines', r lines lines' ∧ runOn x ⟨code, .int depth⟩ = (.ok (), ⟨code ++ lines, .int depth'⟩) ∧
      runOn y ⟨code', .int depth⟩ = (.ok (), ⟨code' ++ lines', .int depth'⟩)

/-- What steps write on an empty sheet, if they succeed. -/
def written (x : Writing Unit) (depth : Nat) : Option (List String) :=
  (runOn x ⟨[], .int depth⟩).1.toOption.map fun _ => (runOn x ⟨[], .int depth⟩).2.code

/-- Lines that are the same, if only those are counted that are kept. -/
def Kept (keep : String → Bool) (lines lines' : List String) : Prop := lines.filter keep = lines'.filter keep

/-- Lines in a relation with the same lines around them. -/
def Around (r : List String → List String → Prop) (lines lines' : List String) : Prop :=
  ∃ before middle middle' after, r middle middle' ∧ lines = before ++ middle ++ after ∧
    lines' = before ++ middle' ++ after

theorem Around.kept {keep : String → Bool} {lines lines' : List String}
    (h : Around (Kept keep) lines lines') : Kept keep lines lines' := by
  obtain ⟨before, middle, middle', after, hkept, rfl, rfl⟩ := h
  unfold Kept at *
  simp only [List.filter_append, hkept]

namespace Concur
variable {α β : Type} {r q p : List String → List String → Prop} {keep : String → Bool} {d e f : Nat}
  {x y x' y' : Writing Unit}

theorem join (h : Concur r d e x y) (h' : Concur q e f x' y')
    (hp : ∀ {a a' b b'}, r a a' → q b b' → p (a ++ b) (a' ++ b')) :
    Concur p d f (x >>= fun _ => x') (y >>= fun _ => y') := by
  intro code code'
  rcases h code code' with ⟨fault, left, right, hx, hy⟩ | ⟨lines, lines', hr, hx, hy⟩
  · exact .inl ⟨fault, left, right, runOn_bind_of_error hx, runOn_bind_of_error hy⟩
  rw [runOn_bind_of_ok hx, runOn_bind_of_ok hy]
  rcases h' (code ++ lines) (code' ++ lines') with hfault | ⟨more, more', hq, hx', hy'⟩
  · exact .inl hfault
  · exact .inr ⟨lines ++ more, lines' ++ more', hp hr hq, by simpa using hx', by simpa using hy'⟩

theorem seq (h : Concur (Kept keep) d e x y) (h' : Concur (Kept keep) e f x' y') :
    Concur (Kept keep) d f (x >>= fun _ => x') (y >>= fun _ => y') := by
  apply h.join h'
  intro a a' b b' ha hb
  unfold Kept at *
  rw [List.filter_append, List.filter_append, ha, hb]

/-- Steps that add the same lines in front of others. -/
theorem before (h : Concur Eq d e x y) (h' : Concur (Around r) e f x' y') :
    Concur (Around r) d f (x >>= fun _ => x') (y >>= fun _ => y') := by
  apply h.join h'
  rintro a _ _ _ rfl ⟨before, middle, middle', after, hr, rfl, rfl⟩
  exact ⟨a ++ before, middle, middle', after, hr, by simp, by simp⟩

/-- Steps that add the same lines behind others. -/
theorem behind (h : Concur r d e x y) (h' : Concur Eq e f x' y') :
    Concur (Around r) d f (x >>= fun _ => x') (y >>= fun _ => y') := by
  apply h.join h'
  rintro a a' b _ hr rfl
  exact ⟨[], a, a', b, hr, rfl, rfl⟩

theorem eq_of_kept (h : Concur (Kept fun _ => true) d e x y) : Concur Eq d e x y := by
  intro code code'
  rcases h code code' with hfault | ⟨lines, lines', hkept, hx, hy⟩
  · exact .inl hfault
  · exact .inr ⟨lines, lines', by simpa [Kept] using hkept, hx, hy⟩

/-- What steps add is known from a run on an empty sheet, if it depends on nothing else. -/
theorem added {lines lines' : List String} (hx : Concur Eq d e x x) (hy : Concur Eq d e y y)
    (hl : written x d = some lines) (hl' : written y d = some lines') :
    Concur (fun l l' => l = lines ∧ l' = lines') d e x y := by
  have hrun : ∀ {x : Writing Unit} {lines : List String}, Concur Eq d e x x → written x d = some lines →
      ∀ code, runOn x ⟨code, .int d⟩ = (.ok (), ⟨code ++ lines, .int e⟩) := by
    intro x lines hx hl code
    rcases hx [] code with ⟨fault, _, _, hfault, -⟩ | ⟨found, _, rfl, hfound, hcode⟩
    · simp [written, hfault, Except.toOption] at hl
    · obtain rfl : found = lines := by simpa [written, hfound, Except.toOption] using hl
      exact hcode
  exact fun code code' => .inr ⟨lines, lines', ⟨rfl, rfl⟩, hrun hx hl code, hrun hy hl' code'⟩

theorem nothing : Concur (Kept keep) d d (pure ()) (pure ()) :=
  fun code code' => .inr ⟨[], [], rfl, by simp, by simp⟩

theorem setIndent : Concur (Kept keep) d e (Builder.setIndent (.int e)) (Builder.setIndent (.int e)) :=
  fun code code' => .inr ⟨[], [], rfl, by simp [Builder.setIndent], by simp [Builder.setIndent]⟩

/-- Steps after questions with answers in a relation. -/
theorem ask {q : α → β → Prop} {x : Checked α} {y : Checked β} {next : α → Writing Unit}
    {next' : β → Writing Unit} (h : Checked.Rel q x y)
    (hn : ∀ a b, q a b → Concur r d e (next a) (next' b)) :
    Concur r d e (liftM x >>= next) (liftM y >>= next') := by
  cases h with
  | fault fault => exact fun code code' => .inl ⟨fault, _, _, rfl, rfl⟩
  | value h => exact hn _ _ h

/-- Steps after the same question. -/
theorem lift {x : Checked α} {next next' : α → Writing Unit}
    (h : ∀ a, x = .ok a → Concur r d e (next a) (next' a)) :
    Concur r d e (liftM x >>= next) (liftM x >>= next') := by
  cases x with
  | error fault => exact fun code code' => .inl ⟨fault, _, _, rfl, rfl⟩
  | ok a => exact h a rfl

theorem forM {step : α → Writing Unit} {step' : β → Writing Unit} {l : List α} {l' : List β}
    (h : List.Forall₂ (fun a b => Concur (Kept keep) d d (step a) (step' b)) l l') :
    Concur (Kept keep) d d (l.forM step) (l'.forM step') := by
  induction h with
  | nil => exact nothing
  | cons hab _ ih => exact hab.seq ih

theorem forM_same {step : α → Writing Unit} {l : List α}
    (h : ∀ a ∈ l, Concur (Kept keep) d d (step a) (step a)) :
    Concur (Kept keep) d d (l.forM step) (l.forM step) := forM (List.forall₂_same.2 h)

theorem deeper {n : Nat} (h : Concur r (d + n) (d + n) x y) :
    Concur r d d (Builder.deeper n x) (Builder.deeper n y) := by
  have hin : ∀ code, runOn (Builder.shift n) ⟨code, .int d⟩ = (.ok (), ⟨code, .int (d + n : Nat)⟩) := by
    intro code
    rw [runOn_shift rfl]
    simp
  have hout : ∀ code, runOn (Builder.shift (-n)) ⟨code, .int (d + n : Nat)⟩ = (.ok (), ⟨code, .int d⟩) := by
    intro code
    rw [runOn_shift rfl]
    have hback : ((d + n : Nat) : Int) + -n = d := by omega
    rw [hback]
  intro code code'
  simp only [Builder.deeper, runOn_bind_of_ok (hin _)]
  rcases h code code' with ⟨fault, left, right, hx, hy⟩ | ⟨lines, lines', hr, hx, hy⟩
  · exact .inl ⟨fault, left, right, runOn_bind_of_error hx, runOn_bind_of_error hy⟩
  · exact .inr ⟨lines, lines', hr, (runOn_bind_of_ok hx).trans (hout _), (runOn_bind_of_ok hy).trans (hout _)⟩

end Concur

namespace Builder
variable {keep : String → Bool} {r : List String → List String → Prop} {d : Nat} {b b' : Builder}

theorem runOn_writeLine (code : List String) (line : String) :
    runOn (b.writeLine .null line) ⟨code, .int d⟩ = match b.lineCode .null (.int d) line with
      | .ok added => (.ok (), ⟨code ++ [added], .int d⟩)
      | .error fault => (.error fault, ⟨code, .int d⟩) := by
  cases hl : b.lineCode .null (.int d) line <;> simp [writeLine, runOn_bind, hl]

/-- Lines that come out alike, or of which neither is kept. -/
theorem concur_writeLine {line line' : String}
    (h : Checked.Rel (fun code code' => code = code' ∨ keep code = false ∧ keep code' = false)
      (b.lineCode .null (.int d) line) (b.lineCode .null (.int d) line')) :
    Concur (Kept keep) d d (b.writeLine .null line) (b.writeLine .null line') := by
  intro code code'
  rw [runOn_writeLine, runOn_writeLine]
  generalize b.lineCode .null (.int d) line = found, b.lineCode .null (.int d) line' = found' at h
  cases h with
  | fault fault => exact .inl ⟨fault, _, _, rfl, rfl⟩
  | @value added added' h =>
    refine .inr ⟨[added], [added'], ?_, rfl, rfl⟩
    rcases h with rfl | ⟨hl, hr⟩
    · rfl
    · simp [Kept, hl, hr]

theorem concur_write (text : String) : Concur (Kept keep) d d (b.write text) (b.write text) :=
  Concur.forM_same fun _ _ => concur_writeLine (.refl (fun _ => .inl rfl) _)

theorem concur_writeAll (lines : List String) :
    Concur (Kept keep) d d (b.writeAll lines) (b.writeAll lines) :=
  Concur.forM_same fun line _ => concur_write line

/-- Steps for each field, if they concur for fields in a relation. -/
theorem concur_forFields {r : Value → Value → Prop} (hr : ∀ v w, r v w → v.need "name" = w.need "name")
    (hf : Checked.Rel (List.Forall₂ r) b.fields b'.fields) {step step' : Value → Writing Unit}
    (hs : ∀ v w, r v w → Concur (Kept keep) d d (step v) (step' w)) :
    Concur (Kept keep) d d (b.forFields step) (b'.forFields step') := by
  apply Concur.ask hf
  intro fields fields' hfields
  apply Concur.forM
  apply hfields.imp
  intro v w hv
  rw [hr v w hv]
  apply Concur.lift
  intro name _
  apply Concur.lift
  intro text _
  split
  · exact hs v w hv
  · exact Concur.nothing

/-- The code of a line at the depth of the setters in a header. -/
theorem lineCode_setters {line : String} (h : line ≠ "") :
    b.lineCode .null (.int (2 : Nat)) line = (b.filled line).map ("\t\t" ++ ·) := by
  have hempty : line.isEmpty = false := by simpa using h
  unfold lineCode
  rw [hempty]
  exact (Checked.map_eq_bind _ _).symm

section Comment
variable (hk : ∀ text, keep ("\t\t" ++ ("/// " ++ text)) = false)
include hk

theorem concur_comment_left {x x' : String} (hx : isPlain x = true) (hx' : isPlain x' = true)
    (tail : String) : Concur (Kept keep) 2 2 (b.write ("/// " ++ x ++ tail)) (b.write ("/// " ++ x' ++ tail)) := by
  obtain ⟨first, rest, htail⟩ : ∃ first rest, Text.splitOn (· == '\n') tail = first :: rest := by
    obtain ⟨before, last, hsplit⟩ := exists_splitOn_append tail
    have hwhole := hsplit "" rfl
    rw [String.append_empty] at hwhole
    exact List.exists_cons_of_ne_nil (by simp [hwhole])
  have hplain : ∀ {x}, isPlain x = true → isPlain ("/// " ++ x) = true := by
    intro x hx
    rw [isPlain_append, hx]
    rfl
  have hsplit : ∀ {x}, isPlain x = true → b.write ("/// " ++ x ++ tail) =
      (("/// " ++ x ++ first) :: rest).forM (b.writeLine .null) := by
    intro x hx
    rw [write, writeWith, splitOn_append_left (isLine_of_isPlain (hplain hx)) htail]
  have hcode : ∀ {x}, isPlain x = true → b.lineCode .null (.int (2 : Nat)) ("/// " ++ x ++ first) =
      (b.filled first).map fun out => "\t\t" ++ ("/// " ++ (x ++ out)) := by
    intro x hx
    rw [lineCode_setters (by simp), filled, fill_append (hplain hx)]
    cases Text.fill (fun name => b.slots.lookup name) first with
    | error fault => rfl
    | ok out => simp [String.append_assoc]
  rw [hsplit hx, hsplit hx']
  refine Concur.forM (.cons (concur_writeLine ?_) (List.forall₂_same.2 fun line _ => ?_))
  · rw [hcode hx, hcode hx']
    cases b.filled first with
    | error fault => exact .fault fault
    | ok out => exact .value (.inr ⟨hk _, hk _⟩)
  · exact concur_writeLine (.refl (fun _ => .inl rfl) _)

theorem concur_comment_right {t t' : String} (ht : isPlain t = true) (ht' : isPlain t' = true)
    (hn : t ≠ "") (hn' : t' ≠ "") {s : String}
    (hs : (∀ line, keep line = false) ∨ isLine s = true) :
    Concur (Kept keep) 2 2 (b.write ("/// " ++ s ++ t)) (b.write ("/// " ++ s ++ t')) := by
  rcases hs with hnone | hline
  · -- the text in front may have line breaks of its own, and only its last line counts
    obtain ⟨before, last, hsplit⟩ := exists_splitOn_append ("/// " ++ s)
    rw [write, writeWith, hsplit t (isLine_of_isPlain ht), write, writeWith,
      hsplit t' (isLine_of_isPlain ht')]
    refine Concur.forM (List.rel_append (List.forall₂_same.2 fun line _ => ?_) (.cons ?_ .nil))
    · exact concur_writeLine (.refl (fun _ => .inl rfl) _)
    · apply concur_writeLine
      rw [lineCode_setters (by simp [hn]), lineCode_setters (by simp [hn'])]
      rcases Text.leads last with ⟨fault, hfill⟩ | ⟨out, hfill⟩
      · rw [filled, hfill t ht, hfill t' ht']
        exact .fault fault
      · rw [filled, hfill t ht, hfill t' ht']
        exact .value (.inr ⟨hnone _, hnone _⟩)
  · have hwrite : ∀ {t}, isPlain t = true →
        b.write ("/// " ++ s ++ t) = ["/// " ++ s ++ t].forM (b.writeLine .null) := by
      intro t ht
      have hwhole : isLine ("/// " ++ s ++ t) = true := by
        rw [isLine_append, isLine_append, hline, isLine_of_isPlain ht]
        rfl
      rw [write, writeWith, splitOn_of_isLine hwhole]
    have hcode : ∀ {t}, b.lineCode .null (.int (2 : Nat)) ("/// " ++ s ++ t) =
        (b.filled (s ++ t)).map fun out => "\t\t" ++ ("/// " ++ out) := by
      intro t
      rw [lineCode_setters (by simp), String.append_assoc, filled, fill_append rfl]
      cases Text.fill (fun name => b.slots.lookup name) (s ++ t) <;> rfl
    rw [hwrite ht, hwrite ht']
    refine Concur.forM (.cons (concur_writeLine ?_) .nil)
    rw [hcode, hcode]
    rcases Text.leads s with ⟨fault, hfill⟩ | ⟨out, hfill⟩
    · rw [filled, hfill t ht, hfill t' ht']
      exact .fault fault
    · rw [filled, hfill t ht, hfill t' ht']
      exact .value (.inr ⟨hk _, hk _⟩)

/-- However many notes there are, none is kept. -/
theorem concur_notes {lines lines' : List String}
    (h : ∀ line ∈ lines, ∃ text, line = "/// " ++ text ∧ isPlain text = true)
    (h' : ∀ line ∈ lines', ∃ text, line = "/// " ++ text ∧ isPlain text = true) :
    Concur (Kept keep) 2 2 (b.writeAll lines) (b.writeAll lines') := by
  have hrun : ∀ {lines : List String},
      (∀ line ∈ lines, ∃ text, line = "/// " ++ text ∧ isPlain text = true) → ∀ code,
        ∃ added, added.filter keep = [] ∧ runOn (b.writeAll lines) ⟨code, .int (2 : Nat)⟩ =
          (.ok (), ⟨code ++ added, .int (2 : Nat)⟩) := by
    intro lines h
    induction lines with
    | nil => exact fun code => ⟨[], rfl, by simp [writeAll]⟩
    | cons line lines ih =>
      intro code
      obtain ⟨text, rfl, htext⟩ := h line (by simp)
      have hplain : isPlain ("/// " ++ text) = true := by
        rw [isPlain_append, htext]
        rfl
      have hwrite : runOn (b.write ("/// " ++ text)) ⟨code, .int (2 : Nat)⟩ =
          (.ok (), ⟨code ++ ["\t\t" ++ ("/// " ++ text)], .int (2 : Nat)⟩) := by
        have hline := @runOn_writeLine 2 b code ("/// " ++ text)
        rw [lineCode_setters (by simp), filled, fill_of_isPlain hplain] at hline
        rw [write, writeWith, splitOn_of_isLine (isLine_of_isPlain hplain)]
        exact runOn_bind_of_ok hline
      obtain ⟨added, hadded, hrest⟩ := ih (fun line hline => h line (by simp [hline]))
        (code ++ ["\t\t" ++ ("/// " ++ text)])
      refine ⟨("\t\t" ++ ("/// " ++ text)) :: added, by simp [hk, hadded], ?_⟩
      rw [List.append_cons]
      exact (runOn_bind_of_ok hwrite).trans hrest
  intro code code'
  obtain ⟨added, hadded, hx⟩ := hrun h code
  obtain ⟨added', hadded', hy⟩ := hrun h' code'
  exact .inr ⟨added, added', hadded.trans hadded'.symm, hx, hy⟩

/-- The comment on a setter. -/
theorem concur_commentLines {kind : FieldKind} {param : String} (remark : String) {c c' : String}
    (hc : isPlain c = true) (hc' : isPlain c' = true)
    (hp : kind = .simple ∨ kind = .buffer ∨ (∀ line, keep line = false) ∨ isLine param = true) :
    Concur (Kept keep) 2 2 (b.writeAll (commentLines kind param remark c))
      (b.writeAll (commentLines kind param remark c')) := by
  have hparts : ∀ {c}, isPlain c = true → ∀ note ∈ notes c, isPlain note = true :=
    fun hc note hnote => all_of_mem_splitAt hc hnote
  have hfirst : ∀ {c}, isPlain c = true → isPlain ((notes c).headD "") = true := by
    intro c hc
    cases hn : notes c with
    | nil => rfl
    | cons note rest => exact hparts hc note (by simp [hn])
  have hnotes : ∀ {c}, isPlain c = true → ∀ line ∈ ((notes c).drop 1).map
      (fun note => s!"/// \\note {Text.upperFirst note}."),
        ∃ text, line = "/// " ++ text ∧ isPlain text = true := by
    intro c hc line hline
    obtain ⟨note, hnote, rfl⟩ := List.mem_map.1 hline
    have hplain := isPlain_upperFirst (hparts hc note (List.mem_of_mem_drop hnote))
    refine ⟨"\\note " ++ Text.upperFirst note ++ ".", ?_, ?_⟩
    · have hstart : "/// \\note " = "/// " ++ "\\note " := rfl
      simp only [toString, hstart, String.append_assoc]
    · rw [isPlain_append, isPlain_append, hplain]
      rfl
  refine Concur.seq ?_ (concur_notes hk (hnotes hc) (hnotes hc'))
  have hleft : ∀ (tail : String), Concur (Kept keep) 2 2
      (b.write ("/// " ++ ("Sets the " ++ (notes c).headD "") ++ tail))
      (b.write ("/// " ++ ("Sets the " ++ (notes c').headD "") ++ tail)) := by
    intro tail
    apply concur_comment_left hk
    · rw [isPlain_append, hfirst hc]
      rfl
    · rw [isPlain_append, hfirst hc']
      rfl
  cases kind with
  | simple =>
    simpa only [toString, String.append_assoc] using hleft (" to \\a " ++ param ++ remark ++ ".")
  | buffer => simpa only [toString, String.append_assoc] using hleft (" to \\a " ++ param ++ ".")
  | vector | unknown =>
    have hline : (∀ line, keep line = false) ∨ isLine ("Adds \\a " ++ param ++ " to ") = true := by
      have hp : (∀ line, keep line = false) ∨ isLine param = true := by simpa using hp
      refine hp.imp_right fun hparam => ?_
      rw [isLine_append, isLine_append, hparam]
      rfl
    have hend : ∀ {c}, isPlain c = true → isPlain ((notes c).headD "" ++ ".") = true := by
      intro c hc
      rw [isPlain_append, hfirst hc]
      rfl
    have hright := @concur_comment_right _ b hk _ _ (hend hc) (hend hc') (by simp) (by simp) _ hline
    simpa only [toString, String.append_assoc] using hright

end Comment

/-- Fields that differ at most in plain comments. -/
structure FieldRel (v w : Value) : Prop where
  reads : v.ReadsAs w
  comments : Checked.Rel (fun c c' => c = c' ∨ c.PlainTexts c') (v.need "comments") (w.need "comments")

/-- A field that can have several values has a name on a single line. -/
def OnOneLine (v : Value) : Prop :=
  v.fieldKind = .ok .vector → ∀ name, v.need "name" = .ok (.text name) → Text.isLine name = true

theorem isLine_param {v : Value} {kind : FieldKind} {setter : Setter} (hk : v.fieldKind = .ok kind)
    (hs : b.setter kind v = .ok setter) (h : OnOneLine v) :
    kind = .simple ∨ kind = .buffer ∨ isLine setter.param.spell = true := by
  cases kind with
  | simple => exact .inl rfl
  | buffer => exact .inr (.inl rfl)
  | vector =>
    obtain ⟨type, -, hs⟩ := bind_eq_ok.1 hs
    obtain ⟨named, hnamed, hs⟩ := bind_eq_ok.1 hs
    obtain ⟨name, hname, rfl⟩ := return_eq_ok.1 hs
    obtain rfl := Value.eq_text_of_asText hname
    exact .inr (.inr (all_singular rfl (h hk name hnamed)))
  | unknown => cases hs

/-- Setters are declared alike but for their comments. -/
theorem concur_headerSetters {q : Value → Value → Prop} (h : b.Resembles b')
    (hq : ∀ v w, q v w → v.ReadsAs w) (hf : Checked.Rel (List.Forall₂ q) b.fields b'.fields)
    (hc : ∀ v w, q v w → ∀ kind setter, v.fieldKind = .ok kind → b.setter kind v = .ok setter →
      Concur (Kept keep) 2 2 (b.setterComment kind v setter.param) (b'.setterComment kind w setter.param)) :
    Concur (Kept keep) 1 1 b.headerSetters b'.headerSetters := by
  unfold headerSetters
  rw [h.write]
  apply (concur_write _).seq
  apply Concur.deeper
  apply concur_forFields (fun v w hvw => (hq v w hvw).need "name" (by decide)) hf
  intro v w hvw
  have hv := hq v w hvw
  simp (disch := decide) only [h.hints, hv.need, hv.fieldKind, h.setter hv]
  apply Concur.lift
  intro name _
  apply Concur.lift
  intro hint _
  split
  · apply Concur.lift
    intro kind hkind
    apply Concur.lift
    intro setter hsetter
    apply Concur.lift
    intro signature _
    unfold headerSetter
    rw [h.write]
    exact (hc v w hvw kind setter (hv.fieldKind.trans hkind) ((h.setter hv kind).trans hsetter)).seq
      (concur_write _)
  · exact Concur.nothing

theorem concur_setterComment {v w : Value} {kind : FieldKind} {setter : Setter} (h : b.Resembles b')
    (hv : FieldRel v w) (hk : ∀ text, keep ("\t\t" ++ ("/// " ++ text)) = false)
    (hl : (∀ line, keep line = false) ∨ OnOneLine v) (hkind : v.fieldKind = .ok kind)
    (hsetter : b.setter kind v = .ok setter) :
    Concur (Kept keep) 2 2 (b.setterComment kind v setter.param) (b'.setterComment kind w setter.param) := by
  have hparam : kind = .simple ∨ kind = .buffer ∨ (∀ line, keep line = false) ∨
      isLine setter.param.spell = true := by
    rcases hl with hnone | hline
    · exact .inr (.inr (.inl hnone))
    · exact (isLine_param hkind hsetter hline).imp_right (.imp_right .inr)
  obtain ⟨hreads, hcomments⟩ := hv
  simp (disch := decide) only [setterComment, remark, bound, hreads.isConditional, hreads.need, h.writeAll]
  apply Concur.lift
  intro remark _
  apply Concur.ask hcomments
  rintro c c' (rfl | ⟨text, text', rfl, rfl, htext, htext'⟩)
  · exact Concur.lift fun comment _ => concur_writeAll _
  · have hplain : Checked.Rel (fun c c' => isPlain c = true ∧ isPlain c' = true)
        (Value.text text).asText (Value.text text').asText := .value ⟨htext, htext'⟩
    exact Concur.ask hplain fun c c' hc => concur_commentLines hk remark hc.1 hc.2 hparam

/-- Headers have the same lines around their setters. -/
theorem concur_header (h : b.Resembles b') (hs : Concur r 1 1 b.headerSetters b'.headerSetters) :
    Concur (Around r) 0 0 (header b) (header b') := by
  have hincludes : Concur (Kept fun _ => true) 0 0 b'.headerIncludes b'.headerIncludes := by
    apply Concur.lift
    intro plugin _
    apply (concur_writeAll _).seq
    apply (concur_write _).seq
    apply Concur.lift
    intro hasVector _
    split
    · exact (concur_write _).seq (concur_write _)
    · exact concur_write _
  have hclass : Concur (Kept fun _ => true) 1 1 b'.headerClass b'.headerClass := by
    apply (concur_writeAll _).seq
    apply (Concur.deeper (concur_writeAll _)).seq
    apply (concur_write _).seq
    exact Concur.deeper (concur_writeAll _)
  have hbuilds : Concur (Kept fun _ => true) 1 1 b'.headerBuilds b'.headerBuilds := by
    apply (concur_write _).seq
    apply (Concur.deeper (concur_writeAll _)).seq
    apply (concur_write _).seq
    exact Concur.deeper (concur_writeAll _)
  have hmembers : Concur (Kept fun _ => true) 1 1 b'.headerMembers b'.headerMembers := by
    apply (concur_write _).seq
    apply Concur.deeper
    apply concur_forFields (fun v w hvw => congrArg (Value.need · "name") hvw)
      (.refl (fun fields => List.forall₂_same.2 fun _ _ => rfl) b'.fields)
    rintro v _ rfl
    apply Concur.lift
    intro type _
    apply Concur.lift
    intro name _
    exact concur_write _
  unfold header Sections.writeAll
  simp only [h.headerIncludes, h.headerClass, h.headerBuilds, h.headerMembers, h.write, h.writeAll]
  exact hincludes.eq_of_kept.before <| (concur_writeAll _).eq_of_kept.before <|
    Concur.setIndent.eq_of_kept.before <| hclass.eq_of_kept.before <| hs.behind <|
    (hbuilds.seq <| hmembers.seq <| (concur_write _).seq <| Concur.setIndent.seq <|
      concur_write _).eq_of_kept

/-- Whether a line of code is a comment: behind tabs it starts with three slashes. -/
def isComment (line : String) : Bool := ['/', '/', '/'].isPrefixOf (line.toList.dropWhile (· == '\t'))

section Schemas
variable {s s' : Schema} (h : s.Recommented s')
include h

theorem rel_need (type : Value) :
    Checked.Rel (Value.AlikeBut "layout" Value.Layouts) (s.need type) (s'.need type) := by
  have hneed : ∀ s : Schema, s.need type = type.asKey >>= fun key =>
      Checked.require type (key.text?.bind fun k => s.types.lookup k) := by
    intro s
    unfold Schema.need Schema.find Value.entryIn
    cases type.asKey <;> rfl
  rw [hneed, hneed]
  cases type.asKey with
  | error fault => exact .fault fault
  | ok key =>
    simp only [ok_bind]
    cases key.text? with
    | none => exact .fault _
    | some name =>
      simp only [Option.bind_some]
      rcases lookup_rel (fun _ => Value.AlikeBut "layout" Value.Layouts) h name with ⟨hl, hr⟩ | ⟨a, a', hl, hr, ha⟩
      · rw [hl, hr]
        exact .fault _
      · rw [hl, hr]
        exact .value ha

theorem rel_fields (name : String) (hints : Hints) :
    Checked.Rel (List.Forall₂ FieldRel) (fields ⟨s, name, hints⟩) (fields ⟨s', name, hints⟩) := by
  apply (rel_need h (name ++ "Body")).bind
  intro type type' htype
  apply htype.need_key.bind
  have hkeys : ∀ key ∈ keys, key ≠ "comments" := by decide
  have hfield : ∀ v w, Value.AlikeBut "comments" Value.PlainTexts v w → FieldRel v w := by
    intro v w hv
    exact ⟨⟨fun key hkey => (hv.answers (hkeys key hkey)).1, fun key hkey => (hv.answers (hkeys key hkey)).2.1,
      fun key hkey => (hv.answers (hkeys key hkey)).2.2⟩, hv.need_key⟩
  rintro layout _ (rfl | ⟨attributes, attributes', rfl, rfl, hlayout⟩)
  · exact .refl (fun fields => List.forall₂_same.2 fun v _ => hfield v v (.inl rfl)) _
  · exact .value (hlayout.imp hfield)

theorem resembles_of_recommented (name : String) (hints : Hints) :
    Resembles ⟨s, name, hints⟩ ⟨s', name, hints⟩ where
  transaction := rfl
  hints := rfl
  paramType := by
    funext type size signedness
    unfold paramType
    cases isPlainNumber type size with
    | error fault => rfl
    | ok plain =>
      simp only [ok_bind]
      split
      · rfl
      · apply (rel_need h type).bind_eq
        intro declared declared' hd
        simp only [(hd.answers (show "type" ≠ "layout" by decide)).1,
          (hd.answers (show "size" ≠ "layout" by decide)).1]
        rfl
  fields := (rel_fields h name hints).mono fun _ _ hf => hf.imp fun _ _ hv => hv.reads

theorem rel_headerFile {name : String}
    (hs : ∀ hints, Hints.ofTransaction name = .ok hints →
      Concur r 1 1 (headerSetters ⟨s, name, hints⟩) (headerSetters ⟨s', name, hints⟩)) (notice : Notice) :
    Checked.Rel (fun file file' => file.name = file'.name ∧ Around r file.code file'.code)
      (headerFile s notice name) (headerFile s' notice name) := by
  unfold headerFile fileOf start ofTransaction
  cases hhints : Hints.ofTransaction name with
  | error fault => exact .fault fault
  | ok hints =>
    simp only [ok_bind, pure_eq_ok]
    cases notice.lines with
    | error fault => exact .fault fault
    | ok opening =>
      simp only [ok_bind]
      have hfresh : (⟨opening, .int (0 : Nat)⟩ : Sheet) = { code := opening } := rfl
      rcases concur_header (resembles_of_recommented h name hints) (hs hints hhints) opening opening with
        ⟨fault, left, right, hx, hy⟩ | ⟨_, _, ⟨before, middle, middle', after, hr, rfl, rfl⟩, hx, hy⟩
      · rw [hfresh] at hx hy
        unfold runOn at hx hy
        rw [hx, hy]
        exact .fault fault
      · rw [hfresh] at hx hy
        unfold runOn at hx hy
        rw [hx, hy]
        exact .value ⟨rfl, opening ++ before, middle, middle', after, hr, by simp, by simp⟩

theorem concur_setters_of_recommented (name : String) (hints : Hints)
    (hk : ∀ text, keep ("\t\t" ++ ("/// " ++ text)) = false)
    (hl : (∀ line, keep line = false) ∨ ∀ fields, (s.need (name ++ "Body") >>= Value.layout) = .ok fields →
      ∀ v ∈ fields, OnOneLine v) :
    Concur (Kept keep) 1 1 (headerSetters ⟨s, name, hints⟩) (headerSetters ⟨s', name, hints⟩) := by
  have hpairs : Checked.Rel (List.Forall₂ fun v w =>
      ((∀ line, keep line = false) ∨ OnOneLine v) ∧ FieldRel v w)
        (fields ⟨s, name, hints⟩) (fields ⟨s', name, hints⟩) := by
    have hf := rel_fields h name hints
    change (_ ∨ ∀ fields, Builder.fields ⟨s, name, hints⟩ = .ok fields → _) at hl
    generalize fields ⟨s, name, hints⟩ = found, fields ⟨s', name, hints⟩ = found' at hf hl
    cases hf with
    | fault fault => exact .fault fault
    | value hf =>
      refine .value ((List.forall₂_and_left _ _).2 ⟨fun v hv => ?_, hf⟩)
      exact hl.imp_right fun hl => hl _ rfl v hv
  have hb := resembles_of_recommented h name hints
  exact concur_headerSetters hb (fun v w hv => hv.2.reads) hpairs fun v w hv kind setter hkind hsetter =>
    concur_setterComment hb hv.2 hk hv.1 hkind hsetter

end Schemas

/-- Schemas that differ only in comments give the same implementation, and headers that differ only in
remarks if the lists among the fields have names on one line. Whatever the names are, both headers are made or
both meet the same fault. -/
theorem comments_only_in_remarks {s s' : Schema} (h : s.Recommented s') (notice : Notice) (name : String) :
    codeFile s notice name = codeFile s' notice name ∧
    Checked.Rel (fun file file' => file.name = file'.name ∧
        ((∀ fields, (s.need (name ++ "Body") >>= Value.layout) = .ok fields → ∀ v ∈ fields, OnOneLine v) →
          file.code.filter (!isComment ·) = file'.code.filter (!isComment ·)))
      (headerFile s notice name) (headerFile s' notice name) := by
  refine ⟨fileOf_congr (fun hints => (resembles_of_recommented h name hints).implementation) ".cpp" notice, ?_⟩
  by_cases hline : ∀ fields, (s.need (name ++ "Body") >>= Value.layout) = .ok fields → ∀ v ∈ fields, OnOneLine v
  · have hcomment : ∀ text, (!isComment ("\t\t" ++ ("/// " ++ text))) = false := by
      intro text
      simp only [isComment, String.toList_append]
      rfl
    apply (rel_headerFile h (fun hints _ => @concur_setters_of_recommented (!isComment ·) _ _ h name hints
      hcomment (.inr hline)) notice).mono
    rintro file file' ⟨hname, hcode⟩
    exact ⟨hname, fun _ => hcode.kept⟩
  · -- no line is kept, and what remains is that both succeed or meet the same fault
    apply (rel_headerFile h (fun hints _ => @concur_setters_of_recommented (fun _ => false) _ _ h name hints
      (fun _ => rfl) (.inl fun _ => rfl)) notice).mono
    rintro file file' ⟨hname, -⟩
    exact ⟨hname, fun hall => absurd hall hline⟩

/-- A transaction whose body has a list of amounts. -/
def listingSchema (name comment : String) : Schema := ⟨[
  ("Amount", .table [("type", "byte"), ("size", .int 8), ("signedness", "unsigned")]),
  ("TransferTransactionBody", .table [("type", "struct"), ("layout", .list [
    .table [("name", .text (name ++ "Count")), ("type", "byte"), ("size", .int 1), ("signedness", "unsigned"),
      ("comments", "count")],
    .table [("name", .text name), ("type", "Amount"), ("size", .text (name ++ "Count")),
      ("comments", .text comment)]])])]⟩

theorem recommented_listingSchema (name : String) {c c' : String} (hc : isPlain c = true)
    (hc' : isPlain c' = true) : (listingSchema name c).Recommented (listingSchema name c') := by
  have hfield : Value.AlikeBut "comments" Value.PlainTexts
      (.table [("name", .text name), ("type", "Amount"), ("size", .text (name ++ "Count")), ("comments", .text c)])
      (.table [("name", .text name), ("type", "Amount"), ("size", .text (name ++ "Count")), ("comments", .text c')]) :=
    .inr ⟨_, _, rfl, rfl, .cons ⟨rfl, .inl rfl⟩ <| .cons ⟨rfl, .inl rfl⟩ <| .cons ⟨rfl, .inl rfl⟩ <|
      .cons ⟨rfl, .inr ⟨rfl, c, c', rfl, rfl, hc, hc'⟩⟩ .nil⟩
  exact .cons ⟨rfl, .inl rfl⟩ <| .cons ⟨rfl, .inr ⟨_, _, rfl, rfl, .cons ⟨rfl, .inl rfl⟩ <|
    .cons ⟨rfl, .inr ⟨rfl, _, _, rfl, rfl, .cons (.inl rfl) <| .cons hfield .nil⟩⟩ .nil⟩⟩ .nil

theorem comments_only_in_remarks_listing :
    (listingSchema "fees" "fees \\note in whole amounts").Recommented (listingSchema "fees" "tips") ∧
    ∃ file file', headerFile (listingSchema "fees" "fees \\note in whole amounts") .absent
        "TransferTransaction" = .ok file ∧
      headerFile (listingSchema "fees" "tips") .absent "TransferTransaction" = .ok file' ∧
      file.code.filter (!isComment ·) = file'.code.filter (!isComment ·) := by
  have hrec := @recommented_listingSchema "fees" "fees \\note in whole amounts" "tips" (by decide +kernel)
    (by decide +kernel)
  obtain ⟨b, hb, hready⟩ := @exists_ready (listingSchema "fees" "fees \\note in whole amounts")
    "TransferTransaction" _ _ (by decide +kernel) (by decide +kernel) rfl rfl (by decide +kernel)
  obtain ⟨file, hfile⟩ := (@fileOf_iff _ ".h" _ _ .absent _ _ _ hb rfl (writes_header hready)).2 trivial
  have hboth := (comments_only_in_remarks hrec .absent "TransferTransaction").2
  have hline : ∀ fields, ((listingSchema "fees" "fees \\note in whole amounts").need
      (.text ("TransferTransaction" ++ "Body")) >>= Value.layout) = .ok fields → ∀ v ∈ fields, OnOneLine v := by
    intro fields hf v hv _ name hname
    obtain rfl := Except.ok.inj hf
    simp only [List.mem_cons, List.not_mem_nil, or_false] at hv
    rcases hv with rfl | rfl <;> (cases hname; rfl)
  rw [show headerFile _ _ _ = _ from hfile] at hboth
  generalize hother : headerFile (listingSchema "fees" "tips") .absent "TransferTransaction" = other at hboth
  cases hboth with
  | value hcode => exact ⟨hrec, file, _, hfile, rfl, hcode.2 hline⟩

/-- The setters of a header depend on nothing that was written before them. -/
theorem concur_headerSetters_self (s : Schema) (name : String) (hints : Hints) :
    Concur Eq 1 1 (headerSetters ⟨s, name, hints⟩) (headerSetters ⟨s, name, hints⟩) := by
  have hsame : s.Recommented s := List.forall₂_same.2 fun _ _ => ⟨rfl, .inl rfl⟩
  apply Concur.eq_of_kept
  apply concur_headerSetters (q := Eq) (resembles_of_recommented hsame name hints)
  · rintro v _ rfl
    exact ⟨fun _ _ => rfl, fun _ _ => rfl, fun _ _ => rfl⟩
  · exact .refl (fun _ => List.forall₂_same.2 fun _ _ => rfl) _
  · rintro v _ rfl kind setter _ _
    apply Concur.lift
    intro remark _
    apply Concur.lift
    intro given _
    exact Concur.lift fun comment _ => concur_writeAll _

/-- A name of two lines takes the comment out of the remark: it then stands on a line of code. -/
theorem comment_on_code_line :
    (listingSchema "base\nfees" "fees").Recommented (listingSchema "base\nfees" "tips") ∧
    ∃ file file', headerFile (listingSchema "base\nfees" "fees") .absent "TransferTransaction" = .ok file ∧
      headerFile (listingSchema "base\nfees" "tips") .absent "TransferTransaction" = .ok file' ∧
      file.code.filter (!isComment ·) ≠ file'.code.filter (!isComment ·) := by
  have hrec := @recommented_listingSchema "base\nfees" "fees" "tips" (by decide +kernel) (by decide +kernel)
  obtain ⟨b, hb, hready⟩ := @exists_ready (listingSchema "base\nfees" "fees") "TransferTransaction" _ _
    (by decide +kernel) (by decide +kernel) rfl rfl (by decide +kernel)
  obtain ⟨file, hfile⟩ := (@fileOf_iff _ ".h" _ _ .absent _ _ _ hb rfl (writes_header hready)).2 trivial
  have hadded : (Hints.ofTransaction "TransferTransaction").toOption.map (fun hints =>
      (written (headerSetters ⟨listingSchema "base\nfees" "fees", "TransferTransaction", hints⟩) 1,
        written (headerSetters ⟨listingSchema "base\nfees" "tips", "TransferTransaction", hints⟩) 1)) =
      some (some ["\tpublic:", "\t\t/// Adds \\a base", "\t\tfe to fees.", "\t\tvoid addBase",
          "\t\tfe(Amount base", "\t\tfe);", ""],
        some ["\tpublic:", "\t\t/// Adds \\a base", "\t\tfe to tips.", "\t\tvoid addBase",
          "\t\tfe(Amount base", "\t\tfe);", ""]) := by
    decide +kernel
  have hboth := rel_headerFile hrec (fun hints hhints => by
    rw [hhints, Checked.toOption_ok, Option.map_some, Option.some.injEq, Prod.mk.injEq] at hadded
    exact Concur.added (concur_headerSetters_self _ _ hints) (concur_headerSetters_self _ _ hints)
      hadded.1 hadded.2) .absent
  rw [show headerFile _ _ _ = _ from hfile] at hboth
  generalize hother : headerFile (listingSchema "base\nfees" "tips") .absent "TransferTransaction" = other
    at hboth
  cases hboth with
  | value hcode =>
    obtain ⟨-, before, _, _, after, ⟨rfl, rfl⟩, hleft, hright⟩ := hcode
    refine ⟨hrec, file, _, hfile, rfl, ?_⟩
    rw [hleft, hright]
    simp only [List.filter_append, List.append_assoc, ne_eq, List.append_cancel_left_eq,
      List.append_cancel_right_eq]
    decide +kernel

end Builder
end SchemaForge
