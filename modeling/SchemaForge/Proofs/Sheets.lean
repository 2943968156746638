import Mathlib.Data.List.Forall2
import SchemaForge.Builder.Sheet
import SchemaForge.Proofs.Filling
import SchemaForge.Proofs.Reading

/-! What steps write on a sheet. Steps that succeed leave the lines that were there, come back to the
indentation from which they started, and what they add can be described part by part. -/
namespace SchemaForge
open Text

theorem runOn_shift {sheet : Sheet} {indent : Int} (h : sheet.indent = .int indent) (steps : Int) :
    runOn (Builder.shift steps) sheet = (.ok (), { sheet with indent := .int (indent + steps) }) := by
  obtain ⟨code, _⟩ := sheet
  subst h
  rfl

/-- Steps that add lines of a certain form when they start at an indentation. -/
def Adds (depth : Nat) (steps : Writing Unit) (form : List String → Prop) : Prop :=
  ∀ sheet sheet', sheet.indent = .int depth → runOn steps sheet = (.ok (), sheet') →
    sheet'.indent = .int depth ∧ ∃ lines, form lines ∧ sheet'.code = sheet.code ++ lines

/-- All lines pass a test. -/
def Each (test : String → Bool) (lines : List String) : Prop := ∀ line ∈ lines, test line = true

instance (test : String → Bool) (lines : List String) : Decidable (Each test lines) :=
  inferInstanceAs (Decidable (∀ line ∈ lines, test line = true))

theorem each_append {test : String → Bool} {before after : List String} :
    Each test (before ++ after) ↔ Each test before ∧ Each test after := List.forall_mem_append

namespace Adds
variable {α : Type} {depth : Nat} {steps next : Writing Unit} {form form' : List String → Prop}

theorem mono (h : Adds depth steps form) (hf : ∀ lines, form lines → form' lines) :
    Adds depth steps form' := by
  intro sheet sheet' hs hr
  obtain ⟨hi, lines, hl, hc⟩ := h sheet sheet' hs hr
  exact ⟨hi, lines, hf lines hl, hc⟩

theorem nothing : Adds depth (pure ()) (· = []) := by
  intro sheet sheet' hs hr
  obtain rfl : sheet = sheet' := by simpa using hr
  exact ⟨hs, [], rfl, by simp⟩

theorem seq (h : Adds depth steps form) (h' : Adds depth next form') :
    Adds depth (steps >>= fun _ => next)
      fun lines => ∃ before after, form before ∧ form' after ∧ lines = before ++ after := by
  intro sheet sheet'' hs hr
  obtain ⟨⟨⟩, sheet', hsteps, hnext⟩ := runOn_bind_eq_ok.1 hr
  obtain ⟨hi, before, hb, hc⟩ := h sheet sheet' hs hsteps
  obtain ⟨hi', after, ha, hc'⟩ := h' sheet' sheet'' hi hnext
  exact ⟨hi', before ++ after, ⟨before, after, hb, ha, rfl⟩, by rw [hc', hc, List.append_assoc]⟩

/-- What is looked up for the steps adds nothing. -/
theorem lift {x : Checked α} {rest : α → Writing Unit}
    (h : ∀ a, x = .ok a → Adds depth (rest a) form) : Adds depth (liftM x >>= rest) form := by
  intro sheet sheet' hs hr
  obtain ⟨a, s, hx, hrest⟩ := runOn_bind_eq_ok.1 hr
  rw [runOn_lift] at hx
  obtain ⟨ha, rfl⟩ := Prod.mk.inj hx
  exact h a ha sheet sheet' hs hrest

theorem discard_ok (x : Checked α) :
    Adds depth (Functor.discard (liftM x)) fun lines => (∃ a, x = .ok a) ∧ lines = [] := by
  intro sheet sheet' hs hr
  cases x with
  | error fault => cases hr
  | ok a =>
    obtain ⟨-, rfl⟩ := Prod.mk.inj hr
    exact ⟨hs, [], ⟨⟨a, rfl⟩, rfl⟩, by simp⟩

theorem discard (x : Checked α) : Adds depth (Functor.discard (liftM x)) (· = []) :=
  (discard_ok x).mono fun _ h => h.2

theorem look {rest : Sheet → Writing Unit} (h : ∀ sheet, Adds depth (rest sheet) form) :
    Adds depth (get >>= rest) form := by
  intro sheet sheet' hs hr
  obtain ⟨a, s, hget, hrest⟩ := runOn_bind_eq_ok.1 hr
  obtain ⟨-, rfl⟩ := Prod.mk.inj (hget.symm.trans (runOn_get sheet))
  exact h a s sheet' hs hrest

/-- Steps that look at the sheet after others. -/
theorem seq_look {rest : Sheet → Writing Unit} (h : Adds depth steps form)
    (h' : ∀ sheet before lines, form lines → sheet.code = before ++ lines →
      Adds depth (rest sheet) form') :
    Adds depth (steps >>= fun _ => get >>= rest)
      fun lines => ∃ before after, form before ∧ form' after ∧ lines = before ++ after := by
  intro sheet sheet'' hs hr
  obtain ⟨⟨⟩, sheet', hsteps, hr⟩ := runOn_bind_eq_ok.1 hr
  obtain ⟨_, _, hget, hrest⟩ := runOn_bind_eq_ok.1 hr
  obtain ⟨hread, rfl⟩ := Prod.mk.inj hget
  obtain rfl := Except.ok.inj hread
  obtain ⟨hi, before, hb, hc⟩ := h sheet sheet' hs hsteps
  obtain ⟨hi', after, ha, hc'⟩ := h' sheet' _ before hb hc _ sheet'' hi hrest
  exact ⟨hi', before ++ after, ⟨before, after, hb, ha, rfl⟩, by rw [hc', hc, List.append_assoc]⟩

theorem deeper {n : Nat} (h : Adds (depth + n) steps form) :
    Adds depth (Builder.deeper n steps) form := by
  intro sheet sheet' hs hr
  obtain ⟨⟨⟩, s₁, hin, hr⟩ := runOn_bind_eq_ok.1 hr
  obtain ⟨⟨⟩, s₂, hsteps, hout⟩ := runOn_bind_eq_ok.1 hr
  rw [runOn_shift hs] at hin
  obtain ⟨-, rfl⟩ := Prod.mk.inj hin
  obtain ⟨hi, lines, hl, hc⟩ := h _ s₂ (by simp) hsteps
  rw [runOn_shift hi] at hout
  obtain ⟨-, rfl⟩ := Prod.mk.inj hout
  have hback : ((depth + n : Nat) : Int) + -n = depth := by omega
  exact ⟨congrArg Value.int hback, lines, hl, hc⟩

theorem forM {step : α → Writing Unit} {form : α → List String → Prop} {l : List α}
    (h : ∀ a ∈ l, Adds depth (step a) (form a)) :
    Adds depth (l.forM step) fun lines => ∃ parts, List.Forall₂ form l parts ∧ lines = parts.flatten := by
  induction l with
  | nil =>
    apply nothing.mono
    rintro _ rfl
    exact ⟨[], .nil, rfl⟩
  | cons a l ih =>
    apply ((h a (by simp)).seq (ih fun b hb => h b (by simp [hb]))).mono
    rintro _ ⟨before, _, hb, ⟨parts, hparts, rfl⟩, rfl⟩
    exact ⟨before :: parts, .cons hb hparts, rfl⟩

theorem nothing_each {test : String → Bool} : Adds depth (pure ()) (Each test) :=
  nothing.mono fun _ h => by simp [h, Each]

theorem seq_each {test : String → Bool} (h : Adds depth steps (Each test))
    (h' : Adds depth next (Each test)) : Adds depth (steps >>= fun _ => next) (Each test) := by
  apply (h.seq h').mono
  rintro _ ⟨before, after, hb, ha, rfl⟩
  exact each_append.2 ⟨hb, ha⟩

theorem forM_each {step : α → Writing Unit} {test : String → Bool} {l : List α}
    (h : ∀ a ∈ l, Adds depth (step a) (Each test)) : Adds depth (l.forM step) (Each test) := by
  induction l with
  | nil => exact nothing_each
  | cons a l ih => exact (h a (by simp)).seq_each (ih fun b hb => h b (by simp [hb]))

end Adds

namespace Builder
variable {b : Builder} {depth : Nat}

theorem eq_pushn_of_copies {n : Int} {c : Char} {width : Nat} {s : String}
    (h : (Value.int n).copies c width = .ok s) : s = "".pushn c (width * n.toNat) := by
  unfold Value.copies at h
  obtain ⟨m, hm, h⟩ := Checked.bind_eq_ok.1 h
  obtain rfl : n = m := Except.ok.inj hm
  simp only at h
  split at h
  · cases h
  split at h
  · cases h
  split at h
  · cases h
  exact (Except.ok.inj h).symm

def tabs (n : Nat) : String := "".pushn '\t' n

/-- How a line is filled without additional values. -/
def filled (b : Builder) : String → Checked String := Text.fill fun name => b.slots.lookup name

/-- An empty line stays empty, and any other one is filled and moved to the right. -/
theorem lineCode_eq_ok {line code : String} (h : b.lineCode .null (.int depth) line = .ok code) :
    line = "" ∧ code = "" ∨
      line ≠ "" ∧ ∃ text, b.filled line = .ok text ∧ code = tabs depth ++ text := by
  unfold lineCode at h
  split at h
  · rename_i hempty
    exact .inl ⟨by simpa using hempty, (Except.ok.inj h).symm⟩
  · rename_i hfull
    obtain ⟨extra, hextra, h⟩ := Checked.bind_eq_ok.1 h
    obtain ⟨tabs, htabs, h⟩ := Checked.bind_eq_ok.1 h
    obtain ⟨text, htext, rfl⟩ := Checked.return_eq_ok.1 h
    obtain rfl : [] = extra := by simpa [extraSlots, Value.isEmpty] using hextra
    refine .inr ⟨by simpa using hfull, text, htext, ?_⟩
    rw [eq_pushn_of_copies htabs]
    simp [Builder.tabs]

theorem code_of_filled {line text code : String} (hn : line ≠ "") (hf : b.filled line = .ok text)
    (h : b.lineCode .null (.int depth) line = .ok code) : code = tabs depth ++ text := by
  rcases lineCode_eq_ok h with ⟨rfl, -⟩ | ⟨-, text', htext, rfl⟩
  · exact absurd rfl hn
  · rw [Except.ok.inj (hf.symm.trans htext)]

theorem adds_writeLine (line : String) : Adds depth (b.writeLine .null line) fun lines =>
    ∃ code, b.lineCode .null (.int depth) line = .ok code ∧ lines = [code] := by
  intro sheet sheet' hs hr
  obtain ⟨_, _, hget, hr⟩ := runOn_bind_eq_ok.1 hr
  obtain ⟨hread, rfl⟩ := Prod.mk.inj hget
  obtain rfl := Except.ok.inj hread
  obtain ⟨code, s, hline, hr⟩ := runOn_bind_eq_ok.1 hr
  rw [runOn_lift, hs] at hline
  obtain ⟨hcode, rfl⟩ := Prod.mk.inj hline
  obtain ⟨-, rfl⟩ := Prod.mk.inj hr
  exact ⟨hs, [code], ⟨code, hcode, rfl⟩, rfl⟩

/-- Writing adds every line of the text. -/
theorem adds_write (text : String) : Adds depth (b.write text) fun lines =>
    (Text.splitOn (· == '\n') text).mapM (b.lineCode .null (.int depth)) = .ok lines := by
  apply (Adds.forM fun line _ => adds_writeLine line).mono
  rintro _ ⟨parts, hparts, rfl⟩
  generalize Text.splitOn (· == '\n') text = texts at hparts ⊢
  induction hparts with
  | nil => rfl
  | cons hline hrest ih =>
    obtain ⟨code, hcode, rfl⟩ := hline
    rw [List.mapM_cons, hcode, ih]
    rfl

theorem adds_write_line {line text : String} (hl : isLine line = true) (hn : line ≠ "")
    (hf : b.filled line = .ok text) : Adds depth (b.write line) (· = [tabs depth ++ text]) := by
  apply (adds_write line).mono
  intro lines h
  rw [splitOn_of_isLine hl, List.mapM_cons] at h
  obtain ⟨code, hcode, h⟩ := Checked.bind_eq_ok.1 h
  obtain rfl : [code] = lines := Except.ok.inj h
  rw [code_of_filled hn hf hcode]

/-- A line with an empty line behind it. -/
theorem adds_write_break {line text : String} (hl : isLine line = true) (hn : line ≠ "")
    (hf : b.filled line = .ok text) :
    Adds depth (b.write (line ++ "\n")) (· = [tabs depth ++ text, ""]) := by
  have hsplit : Text.splitOn (· == '\n') (line ++ "\n") = [line, ""] := by
    have happend := splitOn_isLine_append hl ""
    rw [String.append_empty] at happend
    exact happend
  apply (adds_write _).mono
  intro lines h
  rw [hsplit, List.mapM_cons, List.mapM_cons] at h
  obtain ⟨code, hcode, h⟩ := Checked.bind_eq_ok.1 h
  obtain rfl : [code, ""] = lines := Except.ok.inj h
  rw [code_of_filled hn hf hcode]

theorem filled_close : b.filled "\x7d\x7d" = .ok "\x7d" := by
  have hline : "\x7d\x7d" = "\x7d\x7d" ++ "" := rfl
  rw [hline, filled, fill_close, fill_of_isPlain rfl]
  rfl

/-- The end of a block. -/
theorem adds_write_end : Adds depth (b.write "\x7d\x7d\n") (· = [tabs depth ++ "\x7d", ""]) := by
  have htext : "\x7d\x7d\n" = "\x7d\x7d" ++ "\n" := rfl
  rw [htext]
  exact adds_write_break rfl (by decide) filled_close

theorem adds_write_plain {line : String} (hl : isPlain line = true) (hn : line ≠ "") :
    Adds depth (b.write line) (· = [tabs depth ++ line]) :=
  adds_write_line (isLine_of_isPlain hl) hn (fill_of_isPlain hl)

theorem adds_write_empty : Adds depth (b.write "") (· = [""]) := by
  apply (adds_write "").mono
  intro lines h
  exact (Except.ok.inj h).symm

theorem adds_writeAll_cons {line : String} {rest before after : List String}
    (h : Adds depth (b.write line) (· = before)) (h' : Adds depth (b.writeAll rest) (· = after)) :
    Adds depth (b.writeAll (line :: rest)) (· = before ++ after) := by
  apply (h.seq h').mono
  rintro _ ⟨_, _, rfl, rfl, rfl⟩
  rfl

theorem each_write {test : String → Bool} {text : String}
    (h : ∀ line ∈ Text.splitOn (· == '\n') text, ∀ code,
      b.lineCode .null (.int depth) line = .ok code → test code = true) :
    Adds depth (b.write text) (Each test) := by
  apply (adds_write text).mono
  intro lines hlines code hcode
  obtain ⟨line, hline, hok⟩ := Checked.mem_of_mapM hlines hcode
  exact h line hline code hok

/-- Whether a line, so far to the right, opens with the type of a method without result. -/
def isVoid (depth : Nat) (line : String) : Bool := Text.startsWith (tabs depth ++ "void ") line

theorem tabs_succ (n : Nat) : tabs (n + 1) = tabs n ++ "\t" := rfl

theorem toList_tabs (n : Nat) : (tabs n).toList = List.replicate n '\t' := by
  induction n with
  | zero => rfl
  | succ n ih =>
    have hpush : tabs (n + 1) = (tabs n).push '\t' := rfl
    rw [hpush, String.toList_push, ih, List.replicate_succ']

theorem isVoid_eq (k depth : Nat) (text : String) : isVoid k (tabs depth ++ text) =
    (List.replicate k '\t' ++ "void ".toList).isPrefixOf
      (List.replicate depth '\t' ++ text.toList) := by
  simp only [isVoid, Text.startsWith, String.toList_append, toList_tabs]

theorem isVoid_of_lt {k depth : Nat} (h : k < depth) (text : String) :
    isVoid k (tabs depth ++ text) = false := by
  rw [isVoid_eq]
  obtain ⟨n, rfl⟩ : ∃ n, depth = n + 1 := ⟨depth - 1, by omega⟩
  induction k generalizing n with
  | zero => rfl
  | succ k ih =>
    obtain ⟨n, rfl⟩ : ∃ m, n = m + 1 := ⟨n - 1, by omega⟩
    exact ih n (by omega)

theorem isVoid_of_head {k depth : Nat} {text : String} {c : Char} (hc : text.toList.head? = some c)
    (htab : c ≠ '\t') (hv : c ≠ 'v') : isVoid k (tabs depth ++ text) = false := by
  rw [isVoid_eq]
  obtain ⟨rest, htext⟩ : ∃ rest, text.toList = c :: rest := List.head?_eq_some_iff.1 hc
  rw [htext]
  induction k generalizing depth with
  | zero =>
    cases depth with
    | zero => simp [List.isPrefixOf, hv.symm]
    | succ n => rfl
  | succ k ih =>
    cases depth with
    | zero => simp [List.replicate_succ, List.isPrefixOf, htab.symm]
    | succ n => exact ih

theorem isVoid_empty (k : Nat) : isVoid k "" = false := by
  cases k <;> simp [isVoid, Text.startsWith, toList_tabs, List.replicate_succ]

/-- Lines further to the right do not open with that type. -/
theorem each_write_right {k : Nat} (h : k < depth) (text : String) :
    Adds depth (b.write text) (Each fun line => !isVoid k line) := by
  apply each_write
  intro line _ code hcode
  rcases lineCode_eq_ok hcode with ⟨-, rfl⟩ | ⟨-, text, -, rfl⟩
  · rw [isVoid_empty, Bool.not_false]
  · rw [isVoid_of_lt h, Bool.not_false]

/-- A line that opens with something else after its slots are filled. -/
theorem each_write_head {line : String} (hl : isLine line = true)
    (h : ∀ text, line ≠ "" → b.filled line = .ok text →
      ∃ c, text.toList.head? = some c ∧ c ≠ '\t' ∧ c ≠ 'v') (k : Nat) :
    Adds depth (b.write line) (Each fun line => !isVoid k line) := by
  apply each_write
  rw [splitOn_of_isLine hl]
  intro line' hline code hcode
  obtain rfl := List.mem_singleton.1 hline
  rcases lineCode_eq_ok hcode with ⟨-, rfl⟩ | ⟨hfull, text, htext, rfl⟩
  · rw [isVoid_empty, Bool.not_false]
  · obtain ⟨c, hc, htab, hv⟩ := h text hfull htext
    rw [isVoid_of_head hc htab hv, Bool.not_false]

/-- Whether a line as it is given, whatever its slots hold, opens with something else. -/
def isQuiet (line : String) : Bool :=
  Text.isLine line && (line.isEmpty || (Text.lead line).any fun c => c != '\t' && c != 'v')

theorem each_write_quiet {line : String} (h : isQuiet line = true) (k : Nat) :
    Adds depth (b.write line) (Each fun line => !isVoid k line) := by
  simp only [isQuiet, Bool.and_eq_true, Bool.or_eq_true, Option.any_eq_true] at h
  apply each_write_head h.1
  intro text hfull htext
  rcases h.2 with hempty | ⟨c, hc, hother⟩
  · exact absurd (by simpa using hempty) hfull
  · simp only [bne_iff_ne] at hother
    exact ⟨c, head_of_fill htext hc, hother⟩

/-- Whether the builder has the field, by its name. -/
def hasField (v : Value) : Bool :=
  match v.need "name" with
  | .ok (.text name) => isBuilt name
  | _ => false

/-- Lines that are put together from those for each field that the builder has. -/
def FieldLines (b : Builder) (form : Value → List String → Prop) (lines : List String) : Prop :=
  ∃ fields parts, b.fields = .ok fields ∧ List.Forall₂ form (fields.filter hasField) parts ∧
    lines = parts.flatten

/-- What is written field by field. -/
theorem adds_forFields {step : Value → Writing Unit} {form : Value → List String → Prop}
    (h : ∀ fields, b.fields = .ok fields → ∀ v ∈ fields, ∀ name,
      v.need "name" = .ok (.text name) → Adds depth (step v) (form v)) :
    Adds depth (b.forFields step) (b.FieldLines form) := by
  apply Adds.lift
  intro fields hfields
  have hstep : ∀ v ∈ fields, Adds depth
      (do if isBuilt (← (← v.need "name").asText) then step v : Writing Unit)
      fun lines => if hasField v then form v lines else lines = [] := by
    intro v hv
    apply Adds.lift
    intro name hname
    apply Adds.lift
    intro text htext
    obtain rfl := Value.eq_text_of_asText htext
    simp only [hasField, hname]
    split
    · exact h fields hfields v hv text hname
    · exact Adds.nothing
  apply (Adds.forM hstep).mono
  rintro _ ⟨parts, hparts, rfl⟩
  refine ⟨fields, ?_⟩
  rw [hfields]
  clear hstep hfields
  induction hparts with
  | nil => exact ⟨[], rfl, .nil, rfl⟩
  | @cons v lines fields parts hv _ ih =>
    obtain ⟨kept, -, hkept, hflat⟩ := ih
    cases hf : hasField v with
    | false =>
      obtain rfl : lines = [] := by simpa [hf] using hv
      exact ⟨kept, rfl, by simpa [hf] using hkept, by simpa using hflat⟩
    | true =>
      rw [if_pos hf] at hv
      exact ⟨lines :: kept, rfl, by simpa [hf] using ⟨hv, hkept⟩, by simp [hflat]⟩

/-- Steps that succeed one after the other, with the sheets in front of, between and behind them. -/
inductive Stages : List (Writing Unit) → List Sheet → Prop where
  | nil {sheet : Sheet} : Stages [] [sheet]
  | cons {steps : Writing Unit} {rest : List (Writing Unit)} {sheet next : Sheet} {sheets : List Sheet}
    (h : runOn steps sheet = (.ok (), next)) (hrest : Stages rest (next :: sheets)) :
    Stages (steps :: rest) (sheet :: next :: sheets)

/-- The steps in which a file is written, from the first section to the end of the namespace. -/
def Sections.steps (b : Builder) (parts : Sections) : List (Writing Unit) :=
  [parts.includes, b.writeAll ["namespace catapult \x7b\x7b namespace builders \x7b\x7b", ""],
    setIndent (.int 1), parts.classHeader, parts.setters, parts.builds, parts.members, parts.footer,
    setIndent (.int 0), b.write "\x7d\x7d\x7d\x7d"]

/-- The indentations in front of, between and behind these steps. -/
def Sections.indents : List Value := [0, 0, 0, 1, 1, 1, 1, 1, 1, 0, 0].map .int

/-- What the sections of a file add, each from the indentation that it has in the file. -/
theorem stages_of_sections {parts : Sections} {opening : List String} {sheet : Sheet}
    (h : runOn (parts.writeAll b) { code := opening } = (.ok (), sheet))
    {includes classHeader setters builds members footer : List String → Prop}
    (hincludes : Adds 0 parts.includes includes) (hclass : Adds 1 parts.classHeader classHeader)
    (hsetters : Adds 1 parts.setters setters) (hbuilds : Adds 1 parts.builds builds)
    (hmembers : Adds 1 parts.members members) (hfooter : Adds 1 parts.footer footer) :
    (∃ i c s d m f, includes i ∧ classHeader c ∧ setters s ∧ builds d ∧ members m ∧ footer f ∧
      sheet.code = opening ++ i ++ ["namespace catapult \x7b namespace builders \x7b", ""] ++ c ++ s ++ d ++
        m ++ f ++ ["\x7d\x7d"]) ∧
    ∃ between, Stages (parts.steps b) ({ code := opening } :: between ++ [sheet]) ∧
      ({ code := opening } :: between ++ [sheet]).map (·.indent) = Sections.indents := by
  have hopen : Adds 0 (b.writeAll ["namespace catapult \x7b\x7b namespace builders \x7b\x7b", ""])
      (· = ["namespace catapult \x7b namespace builders \x7b", ""]) := by
    have hline : b.filled "namespace catapult \x7b\x7b namespace builders \x7b\x7b" =
        .ok "namespace catapult \x7b namespace builders \x7b" := by
      have hparts : "namespace catapult \x7b\x7b namespace builders \x7b\x7b" =
          "namespace catapult " ++ ("\x7b\x7b" ++ (" namespace builders " ++ ("\x7b\x7b" ++ ""))) := rfl
      rw [hparts, filled, fill_append rfl, fill_open, fill_append rfl, fill_open,
        fill_of_isPlain rfl]
      rfl
    exact adds_writeAll_cons (adds_write_line rfl (by decide) hline)
      (adds_writeAll_cons adds_write_empty Adds.nothing)
  have hclose : Adds 0 (b.write "\x7d\x7d\x7d\x7d") (· = ["\x7d\x7d"]) := by
    have hline : b.filled "\x7d\x7d\x7d\x7d" = .ok "\x7d\x7d" := by
      have hparts : "\x7d\x7d\x7d\x7d" = "\x7d\x7d" ++ ("\x7d\x7d" ++ "") := rfl
      rw [hparts, filled, fill_close, fill_close, fill_of_isPlain rfl]
      rfl
    exact adds_write_line rfl (by decide) hline
  obtain ⟨⟨⟩, s₁, h₁, h⟩ := runOn_bind_eq_ok.1 h
  obtain ⟨⟨⟩, s₂, h₂, h⟩ := runOn_bind_eq_ok.1 h
  obtain ⟨⟨⟩, s₃, h₃, h⟩ := runOn_bind_eq_ok.1 h
  obtain ⟨⟨⟩, s₄, h₄, h⟩ := runOn_bind_eq_ok.1 h
  obtain ⟨⟨⟩, s₅, h₅, h⟩ := runOn_bind_eq_ok.1 h
  obtain ⟨⟨⟩, s₆, h₆, h⟩ := runOn_bind_eq_ok.1 h
  obtain ⟨⟨⟩, s₇, h₇, h⟩ := runOn_bind_eq_ok.1 h
  obtain ⟨⟨⟩, s₈, h₈, h⟩ := runOn_bind_eq_ok.1 h
  obtain ⟨⟨⟩, s₉, h₉, h⟩ := runOn_bind_eq_ok.1 h
  obtain ⟨hi₁, i, hi, hc₁⟩ := hincludes _ s₁ rfl h₁
  obtain ⟨hi₂, _, rfl, hc₂⟩ := hopen s₁ s₂ hi₁ h₂
  obtain rfl : { s₂ with indent := .int 1 } = s₃ := (Prod.mk.inj h₃).2
  obtain ⟨hi₄, c, hc, hc₄⟩ := hclass _ s₄ rfl h₄
  obtain ⟨hi₅, s, hs, hc₅⟩ := hsetters s₄ s₅ hi₄ h₅
  obtain ⟨hi₆, d, hd, hc₆⟩ := hbuilds s₅ s₆ hi₅ h₆
  obtain ⟨hi₇, m, hm, hc₇⟩ := hmembers s₆ s₇ hi₆ h₇
  obtain ⟨hi₈, f, hf, hc₈⟩ := hfooter s₇ s₈ hi₇ h₈
  obtain rfl : { s₈ with indent := .int 0 } = s₉ := (Prod.mk.inj h₉).2
  obtain ⟨hi₁₀, _, rfl, hc₁₀⟩ := hclose _ sheet rfl h
  refine ⟨⟨i, c, s, d, m, f, hi, hc, hs, hd, hm, hf, ?_⟩,
    [s₁, s₂, { s₂ with indent := .int 1 }, s₄, s₅, s₆, s₇, s₈, { s₈ with indent := .int 0 }], ?_, ?_⟩
  · rw [hc₁₀, hc₈, hc₇, hc₆, hc₅, hc₄, hc₂, hc₁]
  · exact .cons h₁ (.cons h₂ (.cons h₃ (.cons h₄ (.cons h₅ (.cons h₆ (.cons h₇ (.cons h₈ (.cons h₉
      (.cons h .nil)))))))))
  · simp only [List.cons_append, List.nil_append, List.map_cons, List.map_nil, hi₁, hi₂, hi₄, hi₅, hi₆,
      hi₇, hi₈, hi₁₀]
    rfl

theorem runOn_sections {parts : Sections} {opening : List String} {sheet : Sheet}
    (h : runOn (parts.writeAll b) { code := opening } = (.ok (), sheet))
    {includes classHeader setters builds members footer : List String → Prop}
    (hincludes : Adds 0 parts.includes includes) (hclass : Adds 1 parts.classHeader classHeader)
    (hsetters : Adds 1 parts.setters setters) (hbuilds : Adds 1 parts.builds builds)
    (hmembers : Adds 1 parts.members members) (hfooter : Adds 1 parts.footer footer) :
    ∃ i c s d m f, includes i ∧ classHeader c ∧ setters s ∧ builds d ∧ members m ∧ footer f ∧
      sheet.code = opening ++ i ++ ["namespace catapult \x7b namespace builders \x7b", ""] ++ c ++ s ++ d ++
        m ++ f ++ ["\x7d\x7d"] :=
  (stages_of_sections h hincludes hclass hsetters hbuilds hmembers hfooter).1

end Builder
end SchemaForge
