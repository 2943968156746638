import SchemaForge.Builder.Header
import SchemaForge.Builder.Implementation
import SchemaForge.Proofs.FieldTypes
import SchemaForge.Proofs.Sheets
import SchemaForge.Proofs.Slots

/-! The lines of the two files of a builder: those that declare or define the setter of a field or its
member, and the others, none of which looks like a setter. -/
namespace SchemaForge
open Text

/-- The texts that go into the comment on a field have no line breaks. -/
def Value.OneLine (v : Value) : Prop :=
  ∀ key ∈ ["comments", "condition", "condition_value"], ∀ w, v.need key = .ok w →
    Text.isLine w.spell = true

/-- The name and the type of a field have neither braces nor line breaks. -/
def Value.PlainNamed (v : Value) : Prop :=
  ∀ key ∈ ["name", "type"], ∀ t, v.need key = .ok (.text t) → Text.isPlain t = true

instance : DecidablePred Value.PlainNamed := fun v =>
  decidable_of_iff (∀ key ∈ ["name", "type"], ∀ found, v.need key = .ok found →
      found.text?.all Text.isPlain = true) (by
    constructor
    · intro h key hkey t ht
      simpa using h key hkey _ ht
    · intro h key hkey found hfound
      cases found with
      | text t => simpa using h key hkey t hfound
      | _ => rfl)

namespace Builder
variable {b : Builder} {v : Value}

/-- The lines that declare a setter with a signature: a comment, the signature and an empty line. -/
def Declaration (v : Value) (signature : String) (lines : List String) : Prop :=
  ∃ comment, lines = comment ++ ["\t\tvoid " ++ signature ++ ";", ""] ∧
    (v.OneLine → Each (Text.startsWith "\t\t/// ") comment)

/-- The lines that define a setter with a signature: the signature with a block, and an empty line. -/
def Definition (builder : String) (_ : Value) (signature : String) (lines : List String) : Prop :=
  ∃ body, lines = ("\tvoid " ++ builder ++ "::" ++ signature ++ " \x7b") :: body ++ ["\t\x7d", ""] ∧
    Each (fun line => !isVoid 1 line) body

theorem isLine_remark {text : String} (h : remark v = .ok text) (hone : v.OneLine) :
    isLine text = true := by
  obtain ⟨conditional, -, h⟩ := Checked.bind_eq_ok.1 h
  split at h
  · obtain ⟨condition, hc, h⟩ := Checked.bind_eq_ok.1 h
    obtain ⟨value, hv, rfl⟩ := Checked.return_eq_ok.1 h
    have hcondition := hone "condition" (by simp) condition hc
    have hvalue := hone "condition_value" (by simp) value hv
    simp only [toString, isLine_append, hcondition, hvalue, Bool.and_true]
    decide
  · obtain rfl := Except.ok.inj h
    rfl

theorem isLine_of_mem_commentLines {kind : FieldKind} {param remark comment : String}
    (hp : isLine param = true) (hr : isLine remark = true)
    (hc : isLine comment = true) {line : String}
    (h : line ∈ commentLines kind param remark comment) : isLine line = true := by
  have hnote : ∀ note ∈ notes comment, isLine note = true :=
    fun note hmem => isLine_of_mem_splitAt hc hmem
  have hfirst : isLine ((notes comment).headD "") = true := by
    cases hn : notes comment with
    | nil => rfl
    | cons note rest => exact hnote note (by simp [hn])
  rcases List.mem_cons.1 h with rfl | h
  · cases kind <;>
      simp only [toString, isLine_append, hp, hr, hfirst, Bool.and_true] <;> decide
  · obtain ⟨note, hmem, rfl⟩ := List.mem_map.1 h
    have hline := isLine_upperFirst (hnote note (List.mem_of_mem_drop hmem))
    simp only [toString, isLine_append, hline, Bool.and_true]
    decide

theorem commentLines_eq {kind : FieldKind} {param remark comment line : String}
    (h : line ∈ commentLines kind param remark comment) : ∃ text, line = "/// " ++ text := by
  rcases List.mem_cons.1 h with rfl | h
  · exact ⟨_, rfl⟩
  · obtain ⟨note, -, rfl⟩ := List.mem_map.1 h
    have hopen : "/// \\note " = "/// " ++ "\\note " := rfl
    exact ⟨"\\note " ++ (Text.upperFirst note ++ "."),
      by simp only [toString, hopen, String.append_assoc]⟩

/-- Each line of a comment opens with the marks of a comment, if no text breaks it. -/
theorem adds_setterComment {kind : FieldKind} {param : Value} (hp : isLine param.spell = true) :
    Adds 2 (b.setterComment kind v param) fun lines =>
      v.OneLine → Each (Text.startsWith "\t\t/// ") lines := by
  apply Adds.lift
  intro remark hremark
  apply Adds.lift
  intro comments hcomments
  apply Adds.lift
  intro comment hcomment
  obtain rfl := Value.eq_text_of_asText hcomment
  by_cases hone : v.OneLine
  · have hlines : Adds 2 (b.writeAll (commentLines kind param.spell remark comment))
        (Each (Text.startsWith "\t\t/// ")) := by
      apply Adds.forM_each
      intro line hline
      have hl := isLine_of_mem_commentLines hp (isLine_remark hremark hone)
        (hone "comments" (by simp) _ hcomments) hline
      obtain ⟨text, rfl⟩ := commentLines_eq hline
      apply each_write
      rw [splitOn_of_isLine hl]
      intro line' hline' code hcode
      obtain rfl := List.mem_singleton.1 hline'
      rcases lineCode_eq_ok hcode with ⟨hempty, -⟩ | ⟨-, filled, hfilled, rfl⟩
      · simp at hempty
      · rw [Builder.filled, fill_append rfl] at hfilled
        obtain ⟨rest, -, rfl⟩ := Checked.map_eq_ok.1 hfilled
        simp [Text.startsWith, toList_tabs, List.replicate_succ]
    exact hlines.mono fun lines h _ => h
  · have hlines : Adds 2 (b.writeAll (commentLines kind param.spell remark comment))
        (Each fun _ => true) :=
      Adds.forM_each fun line _ => each_write fun _ _ _ _ => rfl
    exact hlines.mono fun lines _ h => absurd h hone

/-- The signature of a setter is written as it is, and so is the name of its parameter. -/
theorem isPlain_signature (hb : Hints.isRegular b.transaction b.hints = true) (hv : v.PlainNamed)
    {name : String} (hn : v.need "name" = .ok (.text name)) {kind : FieldKind} {setter : Setter}
    {text : String} (hsetter : b.setter kind v = .ok setter)
    (hsignature : signature setter.verb setter.type setter.param = .ok text) :
    isPlain text = true ∧ isPlain setter.param.spell = true :=
  all_signature (by simp) hb (hv "type" (by simp)) hn (hv "name" (by simp) name hn) hsetter hsignature

theorem adds_headerSetter {kind : FieldKind} {setter : Setter} {signature : String}
    (hs : isPlain signature = true) (hp : isPlain setter.param.spell = true) :
    Adds 2 (b.headerSetter kind v setter signature) (Declaration v signature) := by
  have hline : isPlain ("void " ++ signature ++ ";") = true := by
    rw [isPlain_append, isPlain_append, hs]
    rfl
  have hwrite : Adds 2 (b.write ("void " ++ signature ++ ";" ++ "\n"))
      (· = [tabs 2 ++ ("void " ++ signature ++ ";"), ""]) :=
    adds_write_break (isLine_of_isPlain hline) (by simp) (fill_of_isPlain hline)
  have htext : s!"void {signature};\n" = "void " ++ signature ++ ";" ++ "\n" := by
    have hend : ";\n" = ";" ++ "\n" := rfl
    simp only [toString, hend, String.append_assoc]
  rw [headerSetter, htext]
  apply ((adds_setterComment (isLine_of_isPlain hp)).seq hwrite).mono
  rintro _ ⟨comment, _, hcomment, rfl, rfl⟩
  have hhead : "\t\tvoid " = tabs 2 ++ "void " := rfl
  exact ⟨comment, by simp only [hhead, String.append_assoc], hcomment⟩

theorem each_setterBody (kind : FieldKind) (v : Value) (param : String) :
    Adds 2 (b.setterBody kind v param) (Each fun line => !isVoid 1 line) := by
  have hwrite : ∀ text, Adds 2 (b.write text) (Each fun line => !isVoid 1 line) :=
    each_write_right (by decide)
  cases kind with
  | simple =>
    apply (hwrite _).seq_each
    apply Adds.lift
    intro conditional _
    split
    · apply Adds.lift
      intro name _
      apply Adds.lift
      intro value _
      apply Adds.lift
      intro upper _
      apply Adds.lift
      intro line _
      exact hwrite line
    · exact Adds.nothing_each
  | buffer => exact hwrite _
  | _ =>
    apply Adds.lift
    intro name _
    apply Adds.lift
    intro key _
    split
    · exact hwrite _
    · apply (hwrite _).seq_each
      apply Adds.seq_each _ (hwrite _)
      apply Adds.deeper
      apply Adds.lift
      intro upper _
      exact each_write_right (by decide) _

theorem adds_codeSetter {kind : FieldKind} {setter : Setter} {signature : String}
    (hs : isPlain signature = true) :
    Adds 1 (b.codeSetter kind v setter signature) (Definition b.name v signature) := by
  have hopen : b.filled ("void \x7bBUILDER_NAME\x7d::" ++ signature ++ " \x7b\x7b") =
      .ok ("void " ++ b.name ++ "::" ++ signature ++ " \x7b") := by
    have hline : "void \x7bBUILDER_NAME\x7d::" ++ signature ++ " \x7b\x7b" =
        "void " ++ ("\x7bBUILDER_NAME\x7d" ++ ("::" ++ (signature ++ (" " ++ ("\x7b\x7b" ++ ""))))) := by
      have hhead : "void \x7bBUILDER_NAME\x7d::" = "void " ++ ("\x7bBUILDER_NAME\x7d" ++ "::") := rfl
      have htail : " \x7b\x7b" = " " ++ ("\x7b\x7b" ++ "") := rfl
      simp only [hhead, htail, String.append_assoc]
    rw [hline, filled, fill_append rfl, fill_builderName rfl, fill_append rfl,
      fill_append hs, fill_append rfl, fill_open, fill_of_isPlain rfl]
    simp [Except.map, String.append_assoc]
  have hl : isLine ("void \x7bBUILDER_NAME\x7d::" ++ signature ++ " \x7b\x7b") = true := by
    rw [isLine_append, isLine_append, isLine_of_isPlain hs]
    rfl
  have hbody : Adds 1 (deeper 1 (b.setterBody kind v setter.param.spell))
      (Each fun line => !isVoid 1 line) := Adds.deeper (each_setterBody kind v _)
  apply ((adds_write_line hl (by simp) hopen).seq (hbody.seq adds_write_end)).mono
  rintro _ ⟨_, _, rfl, ⟨body, _, hb, rfl, rfl⟩, rfl⟩
  have hhead : "\tvoid " = tabs 1 ++ "void " := rfl
  exact ⟨body, by simp [hhead, String.append_assoc]; rfl, hb⟩

/-- The line that declares the member of a field. -/
def Member (b : Builder) (v : Value) (lines : List String) : Prop :=
  ∃ name type, v.need "name" = .ok (.text name) ∧ b.memberType v = .ok type ∧
    lines = ["\t\t" ++ type ++ " m_" ++ name ++ ";"]

/-- The line that initialises the member of a field. -/
def Initialiser (v : Value) (lines : List String) : Prop :=
  ∃ name, v.need "name" = .ok (.text name) ∧ lines = ["\t\t\t, m_" ++ name ++ "()"]

theorem adds_headerMember (hb : Hints.isRegular b.transaction b.hints = true) (hv : v.PlainNamed)
    {name : String} (hn : v.need "name" = .ok (.text name)) :
    Adds 2 (b.headerMember v) (b.Member v) := by
  apply Adds.lift
  intro type htype
  apply Adds.lift
  intro name' hname
  obtain rfl := Except.ok.inj (hn.symm.trans hname)
  have htype' : isPlain type = true := all_memberType (by simp) hb (hv "type" (by simp)) htype
  have hline : isPlain (type ++ " m_" ++ name ++ ";") = true := by
    simp only [isPlain_append, htype', hv "name" (by simp) name hn, Bool.true_and, Bool.and_true]
    rfl
  apply (adds_write_plain hline (by simp)).mono
  rintro _ rfl
  refine ⟨name, type, hn, htype, ?_⟩
  have hhead : "\t\t" = tabs 2 := rfl
  simp only [hhead, String.append_assoc]

theorem adds_codeMember (hv : v.PlainNamed) {name : String} (hn : v.need "name" = .ok (.text name)) :
    Adds 3 (b.codeMember v) (Initialiser v) := by
  apply Adds.lift
  intro name' hname
  obtain rfl := Except.ok.inj (hn.symm.trans hname)
  have hline : isPlain (", m_" ++ name ++ "()") = true := by
    rw [isPlain_append, isPlain_append, hv "name" (by simp) name hn]
    rfl
  apply (adds_write_plain hline (by simp)).mono
  rintro _ rfl
  have hhead : "\t\t\t, m_" = tabs 3 ++ ", m_" := rfl
  exact ⟨name, hn, by simp only [hhead, String.append_assoc]⟩

/-- A line that opens with the name of the builder, with a further tab or with some other text. -/
def isFixed (k depth : Nat) (line : String) : Bool :=
  isQuiet line || Text.isLine line && (Text.startsWith "\x7bBUILDER_NAME\x7d" line ||
    decide (k ≤ depth) && Text.startsWith "\t" line)

/-- The same by the characters of a line. It is enough, and quick on a line that is known. -/
def isFixedChars (k depth : Nat) (cs : List Char) : Bool :=
  cs.all (· != '\n') && (cs.head?.all (fun c => c != '{' && c != '\t' && c != 'v') ||
    "\x7bBUILDER_NAME\x7d".toList.isPrefixOf cs || decide (k ≤ depth) && "\t".toList.isPrefixOf cs)

theorem isFixed_of_asciiChars {k depth : Nat} {line : String}
    (h : (asciiChars line).any (isFixedChars k depth) = true) : isFixed k depth line = true := by
  have hchars := of_asciiChars h
  simp only [isFixedChars, Bool.and_eq_true, Bool.or_eq_true] at hchars
  simp only [isFixed, isQuiet, Bool.and_eq_true, Bool.or_eq_true]
  obtain ⟨hl, (hhead | hname) | htab⟩ := hchars
  · refine .inl ⟨hl, ?_⟩
    cases hcs : line.toList with
    | nil => exact .inl (by simpa using hcs)
    | cons c cs =>
      rw [hcs] at hhead
      have hopen : c ≠ '{' := by
        rintro rfl
        simp at hhead
      have hlead : lead line = some c := by
        unfold lead
        rw [hcs]
        split <;> simp_all
      refine .inr ?_
      rw [hlead]
      simp_all
  · exact .inr ⟨hl, .inl hname⟩
  · exact .inr ⟨hl, .inr htab⟩

theorem head_name (hb : Hints.isRegular b.transaction b.hints = true) :
    ∃ c, b.name.toList.head? = some c ∧ c.isUpper = true := by
  obtain ⟨s, t, hints⟩ := b
  cases hints with
  | table topics =>
    simp only [Hints.isRegular, Bool.and_eq_true] at hb
    exact (Option.any_eq_true _ _).1 hb.1.1.1
  | _ => cases hb

theorem each_write_after {depth : Nat} {start rest : String} {c : Char}
    (hs : isPlain start = true) (hc : start.toList.head? = some c) (htab : c ≠ '\t')
    (hv : c ≠ 'v') (hl : isLine rest = true) (k : Nat) :
    Adds depth (b.write (start ++ rest)) (Each fun line => !isVoid k line) := by
  have hline : isLine (start ++ rest) = true := by
    rw [isLine_append, isLine_of_isPlain hs, hl]
    rfl
  apply each_write_head hline
  intro text _ htext
  rw [filled, fill_append hs] at htext
  obtain ⟨rest', -, rfl⟩ := Checked.map_eq_ok.1 htext
  exact ⟨c, by simp [hc], htab, hv⟩

theorem eq_append_of_startsWith {start line : String} (h : Text.startsWith start line = true) :
    ∃ rest, line = start ++ rest := by
  obtain ⟨rest, hrest⟩ := List.isPrefixOf_iff_prefix.1 h
  have hline := congrArg String.ofList hrest
  rw [String.ofList_append, String.ofList_toList, String.ofList_toList] at hline
  exact ⟨String.ofList rest, hline.symm⟩

theorem each_write_fixed (hb : Hints.isRegular b.transaction b.hints = true) {k depth : Nat}
    {line : String} (h : (asciiChars line).any (isFixedChars k depth) = true) :
    Adds depth (b.write line) (Each fun line => !isVoid k line) := by
  have hfixed := isFixed_of_asciiChars h
  simp only [isFixed, Bool.or_eq_true, Bool.and_eq_true, decide_eq_true_eq] at hfixed
  rcases hfixed with hquiet | ⟨hl, hstart | ⟨hk, hstart⟩⟩
  · exact each_write_quiet hquiet k
  · obtain ⟨rest, rfl⟩ := eq_append_of_startsWith hstart
    apply each_write_head hl
    intro text _ htext
    rw [filled, fill_builderName rfl] at htext
    obtain ⟨rest', -, rfl⟩ := Checked.map_eq_ok.1 htext
    obtain ⟨c, hc, hupper⟩ := head_name hb
    refine ⟨c, by simp [hc], ?_, ?_⟩ <;> (rintro rfl; cases hupper)
  · obtain ⟨rest, rfl⟩ := eq_append_of_startsWith hstart
    apply each_write
    rw [splitOn_of_isLine hl]
    intro line hline code hcode
    obtain rfl := List.mem_singleton.1 hline
    rcases lineCode_eq_ok hcode with ⟨-, rfl⟩ | ⟨-, text, htext, rfl⟩
    · rw [isVoid_empty, Bool.not_false]
    · rw [filled, fill_append rfl] at htext
      obtain ⟨rest', -, rfl⟩ := Checked.map_eq_ok.1 htext
      rw [← String.append_assoc, ← tabs_succ, isVoid_of_lt (by omega), Bool.not_false]

theorem each_writeAll_fixed (hb : Hints.isRegular b.transaction b.hints = true) {k depth : Nat}
    {lines : List String} (h : lines.all (fun line => (asciiChars line).any (isFixedChars k depth)) = true) :
    Adds depth (b.writeAll lines) (Each fun line => !isVoid k line) :=
  Adds.forM_each fun line hline => each_write_fixed hb (List.all_eq_true.1 h line hline)

theorem each_headerIncludes (hb : Hints.isRegular b.transaction b.hints = true) :
    Adds 0 b.headerIncludes (Each fun line => !isVoid 2 line) := by
  apply Adds.lift
  intro plugin hplugin
  apply (each_writeAll_fixed hb (by decide +kernel)).seq_each
  have hline : isLine (plugin.spell ++ "/src/model/\x7bTRANSACTION_NAME\x7d.h\"") = true := by
    rw [isLine_append, Hints.isLine_of_isPlainText (Hints.isPlainText_plugin hb hplugin)]
    rfl
  have hinclude : Adds 0 (b.write ("#include \"plugins/txes/" ++
      (plugin.spell ++ "/src/model/\x7bTRANSACTION_NAME\x7d.h\""))) (Each fun line => !isVoid 2 line) :=
    each_write_after rfl rfl (by decide) (by decide) hline 2
  rw [← String.append_assoc] at hinclude
  apply hinclude.seq_each
  apply Adds.lift
  intro hasVector _
  split
  · exact (each_write_fixed hb (by decide +kernel)).seq_each
      (each_write_fixed hb (by decide +kernel))
  · exact each_write_fixed hb (by decide +kernel)

theorem each_headerClass (hb : Hints.isRegular b.transaction b.hints = true) :
    Adds 1 b.headerClass (Each fun line => !isVoid 2 line) := by
  apply (each_writeAll_fixed hb (by decide +kernel)).seq_each
  apply (Adds.deeper (each_writeAll_fixed hb (by decide +kernel))).seq_each
  apply (each_write_fixed hb (by decide +kernel)).seq_each
  exact Adds.deeper (each_writeAll_fixed hb (by decide +kernel))

theorem each_headerBuilds (hb : Hints.isRegular b.transaction b.hints = true) :
    Adds 1 b.headerBuilds (Each fun line => !isVoid 2 line) := by
  apply (each_write_fixed hb (by decide +kernel)).seq_each
  apply (Adds.deeper (each_writeAll_fixed hb (by decide +kernel))).seq_each
  apply (each_write_fixed hb (by decide +kernel)).seq_each
  exact Adds.deeper (each_writeAll_fixed hb (by decide +kernel))

theorem each_codeIncludes (hb : Hints.isRegular b.transaction b.hints = true) :
    Adds 0 b.codeIncludes (Each fun line => !isVoid 1 line) := by
  apply (each_write_fixed hb (by decide +kernel)).seq_each
  apply Adds.lift
  intro files hfiles
  apply Adds.seq_each _ (each_write_fixed hb (by decide +kernel))
  apply Adds.forM_each
  intro file hfile
  have hline : isLine (file.spell ++ "\"") = true := by
    rw [isLine_append, Hints.isLine_of_isPlainText (Hints.isPlainText_includes hb hfiles hfile)]
    rfl
  have hinclude : Adds 0 (b.write ("#include \"" ++ (file.spell ++ "\"")))
      (Each fun line => !isVoid 1 line) :=
    each_write_after rfl rfl (by decide) (by decide) hline 1
  rwa [← String.append_assoc] at hinclude

theorem each_assignLine {depth : Nat} (h : 1 < depth) (member : Value) (name : String) :
    Adds depth (b.assignLine member name) (Each fun line => !isVoid 1 line) := by
  apply Adds.lift
  intro hinted _
  exact each_write_right h _

theorem each_fixedLines {member : Value} {name : String} :
    Adds 2 (b.fixedLines member name v) (Each fun line => !isVoid 1 line) := by
  apply Adds.lift
  intro discriminator _
  split
  · exact each_assignLine (by decide) member name
  · apply Adds.lift
    intro value _
    apply Adds.lift
    intro line _
    apply (each_write_right (by decide) _).seq_each
    apply Adds.seq_each _ (each_write_right (by decide) _)
    exact Adds.deeper (each_assignLine (by decide) member name)

theorem each_fixedFields {counts : List (Value × String)} (fields : List Value) :
    Adds 2 (b.fixedFields counts fields) (Each fun line => !isVoid 1 line) := by
  induction fields with
  | nil => exact Adds.nothing_each
  | cons v rest ih =>
    apply Adds.lift
    intro name _
    apply Adds.lift
    intro member _
    apply Adds.lift
    intro text _
    split
    · apply Adds.lift
      intro line _
      exact (each_write_right (by decide) _).seq_each ih
    · apply Adds.lift
      intro kind _
      split
      · exact each_fixedLines.seq_each ih
      · exact Adds.nothing_each

theorem each_forFields {depth : Nat} {step : Value → Writing Unit} {test : String → Bool}
    (h : ∀ v, Adds depth (step v) (Each test)) : Adds depth (b.forFields step) (Each test) := by
  apply Adds.lift
  intro fields _
  apply Adds.forM_each
  intro v _
  apply Adds.lift
  intro name _
  apply Adds.lift
  intro text _
  split
  · exact h v
  · exact Adds.nothing_each

theorem each_codeSize (hb : Hints.isRegular b.transaction b.hints = true) :
    Adds 1 b.codeSize (Each fun line => !isVoid 1 line) := by
  have hwrite : ∀ text, Adds 2 (b.write text) (Each fun line => !isVoid 1 line) :=
    each_write_right (by decide)
  apply (each_writeAll_fixed hb (by decide +kernel)).seq_each
  apply Adds.seq_each
  · apply Adds.deeper
    apply (Adds.forM_each fun text _ => hwrite text).seq_each
    apply Adds.seq_each _ (hwrite _)
    apply each_forFields
    intro v
    apply Adds.lift
    intro kind _
    apply Adds.lift
    intro name _
    cases kind with
    | buffer => exact hwrite _
    | vector =>
      apply Adds.lift
      intro declared _
      apply Adds.lift
      intro type _
      exact hwrite _
    | _ => exact Adds.nothing_each
  · apply adds_write_end.mono
    rintro _ rfl line hline
    simp only [List.mem_cons, List.not_mem_nil, or_false] at hline
    rcases hline with rfl | rfl <;> decide

theorem each_codeBuild (hb : Hints.isRegular b.transaction b.hints = true)
    (counts : List (Value × String)) :
    Adds 1 (b.codeBuild counts) (Each fun line => !isVoid 1 line) := by
  have hwrite : ∀ text, Adds 2 (b.write text) (Each fun line => !isVoid 1 line) :=
    each_write_right (by decide)
  apply (each_writeAll_fixed hb (by decide +kernel)).seq_each
  apply Adds.seq_each _ (each_write_fixed hb (by decide +kernel))
  apply Adds.deeper
  apply (Adds.forM_each fun text _ => hwrite text).seq_each
  apply Adds.lift
  intro fields _
  apply (each_fixedFields fields).seq_each
  apply (hwrite _).seq_each
  apply Adds.lift
  intro attached _
  split
  · apply (hwrite _).seq_each
    apply Adds.seq_each
    · apply each_forFields
      intro v
      apply Adds.lift
      intro kind _
      split
      · apply Adds.lift
        intro name _
        apply Adds.lift
        intro member _
        split
        · exact hwrite _
        · exact Adds.nothing_each
      · exact Adds.nothing_each
    · apply Adds.look
      intro sheet
      split
      · exact (hwrite _).seq_each (hwrite _)
      · exact hwrite _
  · exact hwrite _

theorem each_codeBuilds (hb : Hints.isRegular b.transaction b.hints = true) :
    Adds 1 b.codeBuilds (Each fun line => !isVoid 1 line) := by
  apply (each_writeAll_fixed hb (by decide +kernel)).seq_each
  apply (each_codeSize hb).seq_each
  apply Adds.lift
  intro counts _
  exact each_codeBuild hb counts

end Builder
end SchemaForge
