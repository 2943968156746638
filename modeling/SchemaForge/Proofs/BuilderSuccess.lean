import SchemaForge.Proofs.SoundFields

/-! When the files of a builder can be written. For a body of sound fields the header always can; the
implementation can unless some counter in front of the first field of varying size has eight bytes or
belongs to no field that the builder has. -/
namespace SchemaForge
open Checked Text

namespace Builder
variable {b : Builder} {fields : List Value} {r : Record}

theorem writes_braceless {depth : Nat} {text : String} (hd : depth ≤ 100)
    (h : isBraceless text = true) : Writes depth (b.write text) :=
  writes_text hd (fillable_of_isBraceless h)

/-- Lines that are known can be written if they pass the check. -/
theorem writes_checked {depth : Nat} {lines : List String} (hd : depth ≤ 100)
    (h : lines.all isFillable = true) :
    Writes depth (b.writeAll lines) :=
  writes_lines hd fun line hline => fillable_of_check (List.all_eq_true.1 h line hline)

theorem writes_check {depth : Nat} {text : String} (hd : depth ≤ 100)
    (h : isFillable text = true) : Writes depth (b.write text) :=
  writes_text hd (fillable_of_check h)

/-- Steps for the fields that a builder has succeed if they do for all sound ones. -/
theorem writes_forFields {depth : Nat} {step : Value → Writing Unit} (hr : Ready b fields)
    (h : ∀ r : Record, r.value ∈ fields → Sound b.schema fields r → Writes depth (step r.value)) :
    Writes depth (b.forFields step) := by
  apply WritesIff.lift_ok hr.body
  apply Writes.forM
  intro v hv
  obtain ⟨r, rfl, hsound⟩ := exists_sound (hr.sound v hv)
  obtain ⟨n, hn, -⟩ := hsound.name
  apply WritesIff.lift_ok (Record.need_of_get? hn)
  apply WritesIff.lift_ok rfl
  split
  · exact h r hv hsound
  · exact Writes.nothing

theorem writes_forSetters {depth : Nat} {step : FieldKind → Value → Setter → String → Writing Unit}
    (hr : Ready b fields)
    (h : ∀ (r : Record) kind setter param text, Sound b.schema fields r →
      r.value.fieldKind = .ok kind → setter.param = .text param → isBraceless param = true →
        isBraceless text = true → Writes depth (step kind r.value setter text)) :
    Writes depth (b.forSetters step) := by
  apply writes_forFields hr
  intro r _ hsound
  obtain ⟨n, hn, -⟩ := hsound.name
  obtain ⟨hint, hhint, -⟩ := Hints.entry_setters_eq_ok hr.hints n
  obtain ⟨kind, setter, param, hkind, hsetter, hparam, hp, ht, hv⟩ := setter_of_sound hr hsound
  obtain ⟨text, htext, hb⟩ := signature_eq_ok hv ht hp
  apply WritesIff.lift_ok (Record.need_of_get? hn)
  apply WritesIff.lift_ok hhint
  split
  · apply WritesIff.lift_ok hkind
    apply WritesIff.lift_ok hsetter
    apply WritesIff.lift_ok (hparam ▸ htext)
    exact h r kind setter param text hsound hkind hparam hp hb
  · exact Writes.nothing

theorem isBraceless_of_mem_commentLines {kind : FieldKind} {param remark comment line : String}
    (hp : isBraceless param = true) (hr : isBraceless remark = true)
    (hc : isBraceless comment = true) (h : line ∈ commentLines kind param remark comment) :
    isBraceless line = true := by
  have hnote : ∀ note ∈ notes comment, isBraceless note = true :=
    fun note hmem => all_of_mem_splitAt hc hmem
  have hfirst : isBraceless ((notes comment).headD "") = true := by
    cases hn : notes comment with
    | nil => rfl
    | cons note rest => exact hnote note (by simp [hn])
  rcases List.mem_cons.1 h with rfl | h
  · cases kind <;>
      simp only [toString, isBraceless_append, hp, hr, hfirst, Bool.and_true] <;> decide
  · obtain ⟨note, hmem, rfl⟩ := List.mem_map.1 h
    have hline := isBraceless_upperFirst (hnote note (List.mem_of_mem_drop hmem))
    simp only [toString, isBraceless_append, hline, Bool.and_true]
    decide

/-- The comment and the declaration of a setter can be written. -/
theorem writes_headerSetters (hr : Ready b fields) : Writes 1 b.headerSetters := by
  refine (writes_check (by decide) (by decide)).seq (Writes.deeper (writes_forSetters hr ?_))
  intro r kind setter param text hsound _ hparam hp ht
  obtain ⟨remark, hremark, hb⟩ := remark_of_sound hr hsound
  obtain ⟨comment, hcomment, hc⟩ := hsound.comments
  have hcomments : Writes 2 (b.setterComment kind r.value setter.param) := by
    apply WritesIff.lift_ok hremark
    apply WritesIff.lift_ok (Record.need_of_get? hcomment)
    apply WritesIff.lift_ok rfl
    rw [hparam]
    apply writes_lines (by decide)
    intro line hline
    exact fillable_of_isBraceless (isBraceless_of_mem_commentLines hp hb hc hline)
  refine hcomments.seq (writes_braceless (by decide) ?_)
  simp only [toString, isBraceless_append, ht, Bool.and_true]
  decide

theorem writes_headerMembers (hr : Ready b fields) : Writes 1 b.headerMembers := by
  refine (writes_check (by decide) (by decide)).seq (Writes.deeper (writes_forFields hr ?_))
  intro r _ hsound
  obtain ⟨type, htype, ht⟩ := memberType_of_sound hr hsound
  obtain ⟨n, hn, hname⟩ := hsound.name
  apply WritesIff.lift_ok htype
  apply WritesIff.lift_ok (Record.need_of_get? hn)
  apply writes_braceless (by decide)
  simp only [toString, Value.spell_text, isBraceless_append, ht, hname, Bool.and_true]
  decide

theorem someKind_eq_ok (hr : Ready b fields) (test : FieldKind → Bool) : Succeeds (b.someKind test) := by
  have hany : ∀ l : List Value, (∀ v ∈ l, isSound b.schema fields v = true) →
      Succeeds (anyKind test l) := by
    intro l hl
    induction l with
    | nil => simp [anyKind]
    | cons v rest ih =>
      obtain ⟨r, rfl, hsound⟩ := exists_sound (hl v (by simp))
      obtain ⟨kind, setter, param, hkind, -⟩ := setter_of_sound hr hsound
      simp [anyKind, hkind, ih fun w hw => hl w (by simp [hw])]
  simp [someKind, hr.body, hany fields hr.sound]

theorem writesIff_sections {parts : Sections} {p : Prop} (hi : Writes 0 parts.includes)
    (hc : Writes 1 parts.classHeader) (hs : Writes 1 parts.setters)
    (hb : WritesIff 1 1 parts.builds p) (hm : Writes 1 parts.members) (hf : Writes 1 parts.footer) :
    WritesIff 0 0 (parts.writeAll b) p := by
  have hopen : Writes 0 (b.writeAll ["namespace catapult \x7b\x7b namespace builders \x7b\x7b", ""]) :=
    writes_checked (by decide) (by decide +kernel)
  have hclose : Writes 0 (b.write "\x7d\x7d\x7d\x7d") := writes_check (by decide) (by decide)
  have hend : WritesIff 1 0 (setIndent (.int 0) >>= fun _ => b.write "\x7d\x7d\x7d\x7d") True :=
    (WritesIff.setIndent 1 0).after hclose
  exact hi.after (hopen.after ((WritesIff.setIndent 0 1).after
    (hc.after (hs.after (hb.before (hm.after (hf.after hend)))))))

/-- The header for a body of sound fields can be written. -/
theorem writes_header (hr : Ready b fields) : Writes 0 (header b) := by
  apply writesIff_sections
  · obtain ⟨plugin, hplugin, hp⟩ := Hints.plugin_eq_ok hr.hints
    apply WritesIff.lift_ok hplugin
    refine (writes_checked (by decide) (by decide +kernel)).seq ?_
    refine (writes_text (by decide) ?_).seq ?_
    · exact fillable_append (fillable_append (fillable_of_check (by decide))
        (fillable_of_isBraceless hp)) (fillable_of_check (by decide))
    · apply Writes.lift (someKind_eq_ok hr _)
      intro found _
      split
      · exact (writes_check (by decide) (by decide)).seq (writes_check (by decide) (by decide))
      · exact writes_check (by decide) (by decide)
  · refine (writes_checked (by decide) (by decide +kernel)).seq ?_
    refine (Writes.deeper (writes_checked (by decide) (by decide +kernel))).seq ?_
    exact (writes_check (by decide) (by decide)).seq
      (Writes.deeper (writes_checked (by decide) (by decide +kernel)))
  · exact writes_headerSetters hr
  · refine (writes_check (by decide) (by decide)).seq ?_
    refine (Writes.deeper (writes_checked (by decide) (by decide +kernel))).seq ?_
    exact (writes_check (by decide) (by decide)).seq
      (Writes.deeper (writes_checked (by decide) (by decide +kernel)))
  · exact writes_headerMembers hr
  · exact writes_check (by decide) (by decide)

theorem writes_codeConstructor (hr : Ready b fields) : Writes 1 b.codeConstructor := by
  refine (writes_check (by decide) (by decide +kernel)).seq ?_
  refine (Writes.deeper ?_).seq (writes_checked (by decide) (by decide +kernel))
  refine (writes_check (by decide) (by decide +kernel)).seq (writes_forFields hr ?_)
  intro r _ hsound
  obtain ⟨n, hn, hname⟩ := hsound.name
  apply WritesIff.lift_ok (Record.need_of_get? hn)
  apply writes_braceless (by decide)
  simp only [toString, Value.spell_text, isBraceless_append, hname, Bool.and_true]
  decide

/-- A setter also sets the field on which its own one depends. -/
theorem writes_simpleSetter (hr : Ready b fields) (h : Sound b.schema fields r) {param : String}
    (hp : isBraceless param = true) : Writes 2 (b.simpleSetter r.value param) := by
  refine (writes_braceless (by decide) ?_).seq ?_
  · simp only [toString, isBraceless_append, hp, Bool.and_true]
    decide
  · apply WritesIff.lift_ok (Value.isConditional_record r)
    rw [Record.isConditional, Record.has]
    cases hc : r.get? "condition" with
    | none => exact Writes.nothing
    | some c =>
      obtain ⟨hnamed, value, hvalue, hv⟩ := h.condition c hc
      obtain ⟨q, setter, name, param, hsetter, -, -, hparam, hp, ht⟩ :=
        setterOf_of_condition hr hnamed
      apply WritesIff.lift_ok (Record.need_of_get? hc)
      apply WritesIff.lift_ok (Record.need_of_get? hvalue)
      apply WritesIff.lift_ok (Value.upperFirst_text value)
      apply Writes.lift (by simp [discriminatorLine, hsetter])
      intro line hline
      obtain rfl : _ = line := by simpa [discriminatorLine, hsetter] using hline
      apply writes_braceless (by decide)
      simp only [toString, hparam, Value.spell_text, isBraceless_append, hp, ht,
        isBraceless_upperFirst hv, Bool.and_true]
      decide

theorem bufferSetter_eq (b : Builder) {param : String} (hp : isBraceless param = true) :
    ∃ text, isBraceless text = true ∧ b.bufferSetter param = b.write text := by
  refine ⟨_, isBraceless_joinWith (by decide) ?_, rfl⟩
  simp only [toString, List.forall_mem_cons, List.not_mem_nil, false_implies, implies_true, and_true,
    isBraceless_append, hp, Bool.and_true]
  decide

theorem writes_bufferSetter {param : String} (hp : isBraceless param = true) :
    Writes 2 (b.bufferSetter param) := by
  obtain ⟨text, htext, heq⟩ := bufferSetter_eq b hp
  rw [heq]
  exact writes_braceless (by decide) htext

theorem writes_vectorSetter (h : Sound b.schema fields r) {param : String}
    (hp : isBraceless param = true) : Writes 2 (b.vectorSetter r.value param) := by
  obtain ⟨n, hn, hname⟩ := h.name
  apply WritesIff.lift_ok (Record.need_of_get? hn)
  apply WritesIff.lift_ok (Value.find_record r "sort_key")
  cases hk : r.get? "sort_key" with
  | none =>
    apply writes_braceless (by decide)
    simp only [toString, Value.spell_text, isBraceless_append, hname, hp, Bool.and_true]
    decide
  | some key =>
    obtain ⟨t, rfl, ht⟩ := h.sortKey key hk
    refine (writes_text (by decide) ?_).seq ((Writes.deeper ?_).seq ?_)
    · apply fillable_append _ (fillable_of_check (by decide))
      apply fillable_of_isBraceless
      simp only [toString, Value.spell_text, isBraceless_append, hname, hp, Bool.and_true]
      decide
    · apply WritesIff.lift_ok (Value.upperFirst_text t)
      apply writes_braceless (by decide)
      simp only [toString, Value.spell_text, isBraceless_append,
        isBraceless_upperFirst ht, Bool.and_true]
      decide
    · exact writes_check (by decide) (by decide)

theorem writes_codeSetters (hr : Ready b fields) : Writes 1 b.codeSetters := by
  apply writes_forSetters hr
  intro r kind setter param text hsound _ hparam hp ht
  refine (writes_text (by decide) ?_).seq ((Writes.deeper ?_).seq ?_)
  · exact fillable_append (fillable_append (fillable_of_check (by decide))
      (fillable_of_isBraceless ht)) (fillable_of_check (by decide))
  · rw [hparam]
    cases kind with
    | simple => exact writes_simpleSetter hr hsound hp
    | buffer => exact writes_bufferSetter hp
    | vector | unknown => exact writes_vectorSetter hsound hp
  · exact writes_check (by decide) (by decide)

theorem isBraceless_elementCount {n : String} (h : isBraceless n = true) :
    isBraceless (elementCount (.text n)) = true := by
  simp only [elementCount, toString, Value.spell_text, isBraceless_append, h, Bool.and_true]
  decide

theorem writes_codeSize (hr : Ready b fields) : Writes 1 b.codeSize := by
  refine (writes_checked (by decide) (by decide +kernel)).seq ?_
  refine (Writes.deeper ?_).seq (writes_check (by decide) (by decide))
  refine (writes_checked (by decide) (by decide +kernel)).seq ?_
  refine (writes_forFields hr ?_).seq (writes_check (by decide) (by decide))
  intro r _ hsound
  obtain ⟨n, hn, hname⟩ := hsound.name
  obtain ⟨t, ht, htype⟩ := hsound.type
  obtain ⟨type, hqualified, hb⟩ := qualified_text hr htype
  have hcount := isBraceless_elementCount hname
  have hneed : r.value.need "name" = .ok (.text n) := Record.need_of_get? hn
  cases kinded_of_sound hr hsound with
  | simple hk =>
    apply WritesIff.lift_ok hk
    apply WritesIff.lift_ok hneed
    exact Writes.nothing
  | buffer hk =>
    apply WritesIff.lift_ok hk
    apply WritesIff.lift_ok hneed
    apply writes_braceless (by decide)
    simp only [toString, isBraceless_append, hcount, Bool.and_true]
    decide
  | vector hk =>
    apply WritesIff.lift_ok hk
    apply WritesIff.lift_ok hneed
    apply WritesIff.lift_ok (Record.need_of_get? ht)
    apply WritesIff.lift_ok hqualified
    apply writes_braceless (by decide)
    simp only [toString, isBraceless_append, hcount, hb, Bool.and_true]
    decide

/-- The counter of a field of varying size with the expression for its value, for a field that the
builder has. -/
def countOf (v : Value) : Option (Value × String) := do
  let r ← v.record?
  let name ← (← r.get? "name").text?
  let size ← (← r.get? "size").text?
  if isBuilt name then some (.text size, elementCount (.text name)) else none

theorem countOf_eq {n : String} (hn : r.get? "name" = some (.text n)) : countOf r.value =
    ((r.get? "size").bind (·.text?)).bind fun size =>
      if isBuilt n then some (.text size, elementCount (.text n)) else none := by
  simp [countOf, hn, Option.bind_assoc]

theorem text?_eq_none {v : Option Value} (h : ∀ t, v ≠ some (.text t)) :
    v.bind (·.text?) = none := by
  cases v with
  | none => rfl
  | some v =>
    cases v with
    | text t => exact absurd rfl (h t)
    | _ => rfl

theorem counts_eq_ok (hr : Ready b fields) : b.counts = .ok (fields.filterMap countOf).reverse := by
  have hfound : fields.filterMapM (fun v => do
      let name ← v.need "name"
      if !isBuilt (← name.asText) then return none
      if (← v.fieldKind) == .simple then return none
      return some (← v.need "size", elementCount name) : Value → Checked (Option (Value × String))) =
        .ok (fields.filterMap countOf) := by
    apply filterMapM_eq_ok
    intro v hv
    obtain ⟨r, rfl, hsound⟩ := exists_sound (hr.sound v hv)
    obtain ⟨n, hn, -⟩ := hsound.name
    have hneed : r.value.need "name" = .ok (.text n) := Record.need_of_get? hn
    rw [countOf_eq hn, hneed]
    cases hbuilt : isBuilt n with
    | false => simp [hbuilt]
    | true =>
      cases kinded_of_sound hr hsound with
      | simple hk hs => simp [hk, text?_eq_none hs]
      | buffer hk hs | vector hk hs =>
        obtain ⟨size, hs⟩ := hs
        simp [hbuilt, hk, hs, Record.need_of_get? hs]
  simp only [counts, hr.body, ok_bind, hfound]
  rfl

theorem mem_of_lookup {l : List (Value × String)} {key : Value} {found : String}
    (h : l.lookup key = some found) : ∃ k, (k, found) ∈ l := by
  induction l with
  | nil => cases h
  | cons e l ih =>
    rw [List.lookup_cons] at h
    split at h
    · exact ⟨e.1, by simp [← Option.some.inj h]⟩
    · obtain ⟨k, hk⟩ := ih h
      exact ⟨k, by simp [hk]⟩

/-- The counters that have a value are those of the fields that the builder has. -/
theorem lookup_counts (hr : Ready b fields) (n : String) :
    ((fields.filterMap countOf).reverse.lookup (.text n)).isSome = true ↔
      fields.any (isBuiltWith (.text n)) = true := by
  have hcount : ∀ v ∈ fields, (∃ e, countOf v = some e ∧ (Value.text n == e.1) = true) ↔
      isBuiltWith (.text n) v = true := by
    intro v hv
    obtain ⟨r, rfl, hsound⟩ := exists_sound (hr.sound v hv)
    obtain ⟨m, hm, -⟩ := hsound.name
    rw [countOf_eq hm]
    cases kinded_of_sound hr hsound with
    | simple hk hs =>
      have hnot : (r.get? "size").any (· == .text n) = false := by
        rw [Option.any_eq_false]
        intro size hsize
        apply Bool.eq_false_iff.2
        intro hbeq
        exact hs n (by rw [hsize, Value.eq_text_of_beq hbeq])
      simp [text?_eq_none hs, isBuiltWith, hnot]
    | buffer hk hs | vector hk hs =>
      obtain ⟨size, hs⟩ := hs
      have hsym : (n == size) = (size == n) := BEq.comm
      cases hbuilt : isBuilt m <;> simp [hs, hm, isBuiltWith, hbuilt, hsym]
  rw [List.lookup_isSome_iff, List.any_eq_true]
  constructor
  · rintro ⟨e, he, hkey⟩
    obtain ⟨v, hv, hcounted⟩ := List.mem_filterMap.1 (List.mem_reverse.1 he)
    exact ⟨v, hv, (hcount v hv).1 ⟨e, hcounted, hkey⟩⟩
  · rintro ⟨v, hv, hbuilt⟩
    obtain ⟨e, hcounted, hkey⟩ := (hcount v hv).2 hbuilt
    exact ⟨e, List.mem_reverse.2 (List.mem_filterMap.2 ⟨v, hv, hcounted⟩), hkey⟩

/-- The type of a counter is known for one, two and four bytes, but not for eight. -/
theorem countType_iff {s : Schema} (h : Sized s r) :
    Succeeds (r.value.need "size" >>= countType) ↔
      (r.get? "size").any (fun size => [1, 2, 4].any fun n => size == .int n) = true := by
  have htext : ∀ {size : String}, r.get? "size" = some (.text size) → size ≠ "8" →
      (Succeeds (r.value.need "size" >>= countType) ↔
        (r.get? "size").any (fun size => [1, 2, 4].any fun n => size == .int n) = true) := by
    intro size hs hne
    have hother : (Value.text size == .text "8") = false := by simpa using hne
    have hnumber : ∀ n, (Value.text size == .int n) = false := fun _ => rfl
    rw [Value.need_record, Record.need_of_get? hs, hs]
    simp [countType, hother, hnumber, Target.sized, Value.number?, require]
  cases h with
  | single hs => simp [Record.need, hs, require]
  | number hs ht hn =>
    rw [Value.need_record, Record.need_of_get? hs, hs]
    simp only [List.mem_cons, List.not_mem_nil, or_false] at hn
    rcases hn with rfl | rfl | rfl | rfl <;> decide
  | buffer hs ht he => exact htext hs fun h => absurd (h ▸ he) (by decide)
  | vector hs ht hd he => exact htext hs fun h => absurd (h ▸ he) (by decide)

/-- A counter can be set exactly if it is countable. -/
theorem counterLine_iff (hr : Ready b fields) (h : Sound b.schema fields r) {n : String}
    (hn : r.get? "name" = some (.text n)) (member : Value) :
    Succeeds (counterLine (fields.filterMap countOf).reverse member (.text n) r.value) ↔
      isCountable fields r.value = true := by
  have hcountable : isCountable fields r.value = ((r.get? "size").any fun size =>
      [1, 2, 4].any (fun n => size == .int n) && fields.any (isBuiltWith (.text n))) := by
    simp [isCountable, hn]
  cases hl : (fields.filterMap countOf).reverse.lookup (.text n) with
  | none =>
    have hnone : fields.any (isBuiltWith (.text n)) = false := by
      simpa [hl] using (lookup_counts hr n).not
    simp [counterLine, hl, require, hcountable, hnone]
  | some count =>
    have hsome : fields.any (isBuiltWith (.text n)) = true := (lookup_counts hr n).1 (by simp [hl])
    simp only [hcountable, hsome, Bool.and_true]
    rw [← countType_iff h.sized]
    simp [counterLine, hl, require]

theorem isBraceless_counterLine (hr : Ready b fields) {member n line : String}
    (hm : isBraceless member = true)
    (h : counterLine (fields.filterMap countOf).reverse (.text member) (.text n) r.value = .ok line) :
    isBraceless line = true := by
  obtain ⟨count, hcount, h⟩ := bind_eq_ok.1 h
  obtain ⟨size, -, h⟩ := bind_eq_ok.1 h
  obtain ⟨type, htype, rfl⟩ := return_eq_ok.1 h
  have hc : isBraceless count = true := by
    obtain ⟨counter, hmem⟩ := mem_of_lookup (require_eq_ok.1 hcount)
    obtain ⟨v, hv, hcounted⟩ := List.mem_filterMap.1 (List.mem_reverse.1 hmem)
    obtain ⟨r, rfl, hsound⟩ := exists_sound (hr.sound v hv)
    obtain ⟨m, hm, hb⟩ := hsound.name
    rw [countOf_eq hm] at hcounted
    obtain ⟨size, -, hcounted⟩ := Option.bind_eq_some_iff.1 hcounted
    split at hcounted
    · obtain ⟨-, rfl⟩ := Prod.mk.inj (Option.some.inj hcounted)
      exact isBraceless_elementCount hb
    · cases hcounted
  have ht : isBraceless type = true := by
    unfold countType Target.sized at htype
    split at htype
    · obtain rfl := Except.ok.inj htype
      decide
    · obtain ⟨key, -, htype⟩ := bind_eq_ok.1 htype
      obtain ⟨n, -, hlookup⟩ := Option.bind_eq_some_iff.1 (require_eq_ok.1 htype)
      obtain ⟨before, after, htable, -⟩ := List.lookup_eq_some_iff.1 hlookup
      have hall : ∀ e ∈ [((1 : Int), "uint8_t"), (2, "uint16_t"), (4, "uint32_t")],
          isBraceless e.2 = true := by decide
      exact hall (n, type) (by rw [htable]; simp)
  simp only [toString, Value.spell_text, isBraceless_append, hm, hc, ht, Bool.and_true]
  decide

theorem memberName_text (hr : Ready b fields) (n : String) :
    b.memberName (.text n) = .ok (.text (Text.upperFirst n)) := by
  have hempty : (Value.text "").isEmpty = true := rfl
  simp [memberName, Hints.entry_rewrites_eq_ok hr.hints, hempty]

theorem writes_assignLine {depth : Nat} (hd : depth ≤ 100) (hr : Ready b fields) {member n : String}
    (hm : isBraceless member = true) (hn : isBraceless n = true) :
    Writes depth (b.assignLine (.text member) n) := by
  obtain ⟨hint, hhint, hfillable⟩ := Hints.entry_setters_eq_ok hr.hints n
  apply WritesIff.lift_ok hhint
  apply writes_text hd
  have hfront : isBraceless ("pTransaction->" ++ member ++ " = ") = true := by
    rw [isBraceless_append, isBraceless_append, hm]
    decide
  apply fillable_append _ (fillable_of_check (by decide))
  apply fillable_append (fillable_of_isBraceless hfront)
  split
  · exact hfillable
  · split
    · exact fillable_of_check (by decide)
    · apply fillable_of_isBraceless
      simp only [toString, isBraceless_append, hn, Bool.and_true]
      decide

theorem writes_fixedLines (hr : Ready b fields) (h : Sound b.schema fields r) {member n : String}
    (hm : isBraceless member = true) (hn : isBraceless n = true) :
    Writes 2 (b.fixedLines (.text member) n r.value) := by
  apply WritesIff.lift_ok (Value.find_record r "condition")
  cases hc : r.get? "condition" with
  | none => exact writes_assignLine (by decide) hr hm hn
  | some c =>
    obtain ⟨hnamed, value, hvalue, hv⟩ := h.condition c hc
    obtain ⟨q, setter, name, param, hsetter, hq, hname, -, -, ht⟩ := setterOf_of_condition hr hnamed
    have hline : b.conditionLine c (.text value) = .ok ("if (" ++ setter.type ++ "::" ++
        Text.upperFirst value ++ " == m_" ++ name ++ ")") := by
      simp [conditionLine, hsetter, Record.need_of_get? hq]
      rfl
    apply WritesIff.lift_ok (Record.need_of_get? hvalue)
    apply WritesIff.lift_ok hline
    refine (writes_braceless (by decide) ?_).seq ((Writes.deeper ?_).seq ?_)
    · simp only [isBraceless_append, ht, hname, isBraceless_upperFirst hv, Bool.and_true]
      decide
    · exact writes_assignLine (by decide) hr hm hn
    · exact writes_check (by decide) (by decide)

/-- The fields in front of the first one of varying size can be set exactly if all counters among them
are countable. -/
theorem writesIff_fixedFields (hr : Ready b fields) {rest : List Value} (hrest : rest ⊆ fields) :
    WritesIff 2 2 (b.fixedFields (fields.filterMap countOf).reverse rest)
      (∀ v ∈ fixedPart rest, isCounting v = true → isCountable fields v = true) := by
  induction rest with
  | nil => exact Writes.nothing.congr (by simp [fixedPart])
  | cons v rest ih =>
    obtain ⟨r, rfl, hsound⟩ := exists_sound (hr.sound v (hrest (by simp)))
    obtain ⟨n, hn, hname⟩ := hsound.name
    have hneed : r.value.need "name" = .ok (.text n) := Record.need_of_get? hn
    have hmember := isBraceless_upperFirst hname
    have hcounting : isCounting r.value = isCounter n := by
      simp [isCounting, hneed, Except.toOption]
    have hih := ih fun v hv => hrest (by simp [hv])
    apply WritesIff.lift_ok hneed
    apply WritesIff.lift_ok (memberName_text hr n)
    apply WritesIff.lift_ok (Value.asText_text n)
    cases hcounter : isCounter n with
    | true =>
      have hlines : WritesIff 2 2 (liftM (counterLine (fields.filterMap countOf).reverse
          (.text (Text.upperFirst n)) (.text n) r.value) >>= fun line => do
            b.write line
            b.fixedFields (fields.filterMap countOf).reverse rest) _ :=
        WritesIff.lift fun line hline =>
          (writes_braceless (by decide) (isBraceless_counterLine hr hmember hline)).after hih
      apply hlines.congr
      simp [counterLine_iff hr hsound hn, fixedPart, hcounting, hcounter]
    | false =>
      cases kinded_of_sound hr hsound with
      | simple hk =>
        apply WritesIff.lift_ok hk
        apply ((writes_fixedLines hr hsound hmember hname).after hih).congr
        have hfixed : r.value.isFixed = true := by
          simp [Value.isFixed, hk, hneed, Except.toOption, hcounter]
        simp [fixedPart, hcounting, hcounter, hfixed]
      | buffer hk | vector hk =>
        apply WritesIff.lift_ok hk
        have hfixed : r.value.isFixed = false := by simp [Value.isFixed, hk, Except.toOption]
        apply Writes.nothing.congr
        simp [fixedPart, hcounting, hcounter, hfixed]

theorem writes_copyLine (hr : Ready b fields) (h : Sound b.schema fields r) :
    Writes 2 (b.copyLine r.value) := by
  obtain ⟨n, hn, hname⟩ := h.name
  have hneed : r.value.need "name" = .ok (.text n) := Record.need_of_get? hn
  cases kinded_of_sound hr h with
  | simple hk =>
    apply WritesIff.lift_ok hk
    exact Writes.nothing
  | buffer hk | vector hk =>
    apply WritesIff.lift_ok hk
    apply WritesIff.lift_ok hneed
    apply WritesIff.lift_ok (memberName_text hr n)
    apply writes_braceless (by decide)
    simp only [toString, Value.spell_text, isBraceless_append, hname,
      isBraceless_upperFirst hname, Bool.and_true]
    decide

theorem writesIff_codeBuild (hr : Ready b fields) :
    WritesIff 1 1 (b.codeBuild (fields.filterMap countOf).reverse)
      (∀ v ∈ fixedPart fields, isCounting v = true → isCountable fields v = true) := by
  have hreturn : Writes 2 (b.write "return pTransaction;") := writes_check (by decide) (by decide)
  have hempty : Writes 2 (b.write "") := writes_check (by decide) (by decide)
  have hcopies : Writes 2 (b.forFields b.copyLine) :=
    writes_forFields hr fun r _ hsound => writes_copyLine hr hsound
  refine WritesIff.after (writes_checked (by decide) (by decide +kernel)) ?_
  refine WritesIff.before (WritesIff.deeper ?_) (writes_check (by decide) (by decide))
  refine WritesIff.after (writes_checked (by decide) (by decide +kernel)) ?_
  apply WritesIff.lift_ok hr.body
  refine WritesIff.before (writesIff_fixedFields hr (List.Subset.refl fields)) ?_
  refine hempty.seq (Writes.lift (someKind_eq_ok hr _) ?_)
  intro varies _
  split
  · refine (writes_check (by decide) (by decide)).seq (hcopies.seq (WritesIff.look fun sheet => ?_))
    split
    · exact hempty.seq hreturn
    · exact hreturn
  · exact hreturn

/-- The implementation for a body of sound fields can be written exactly if the counters in front of
the first field of varying size are countable. -/
theorem writesIff_implementation (hr : Ready b fields) : WritesIff 0 0 (implementation b)
    (∀ v ∈ fixedPart fields, isCounting v = true → isCountable fields v = true) := by
  apply writesIff_sections
  · obtain ⟨files, hfiles, hplain⟩ := Hints.items_includes_eq_ok hr.hints
    refine (writes_check (by decide) (by decide +kernel)).seq ?_
    apply WritesIff.lift_ok hfiles
    refine (Writes.forM ?_).seq (writes_check (by decide) (by decide))
    intro file hfile
    have hspell : isBraceless file.spell = true := by
      have htext := hplain file hfile
      cases file with
      | text t => exact isBraceless_of_isPlain htext
      | _ => cases htext
    apply writes_braceless (by decide)
    simp only [toString, isBraceless_append, hspell, Bool.and_true]
    decide
  · exact writes_codeConstructor hr
  · exact writes_codeSetters hr
  · refine WritesIff.after (writes_checked (by decide) (by decide +kernel)) ?_
    refine WritesIff.after (writes_codeSize hr) ?_
    exact WritesIff.lift_ok (counts_eq_ok hr) (writesIff_codeBuild hr)
  · apply writes_forFields hr
    intro r _ hsound
    obtain ⟨type, htype, -⟩ := memberType_of_sound hr hsound
    exact Writes.discard ⟨type, htype⟩
  · exact Writes.nothing

theorem fileOf_eq_ok {writing : Builder → Writing Unit} {extension name : String} {s : Schema}
    {notice : Notice} {file : SourceFile}
    (h : fileOf writing extension s notice name = .ok file) :
    ∃ b opening sheet, ofTransaction s name = .ok b ∧ notice.lines = .ok opening ∧
      runOn (writing b) { code := opening } = (.ok (), sheet) ∧ file.code = sheet.code := by
  obtain ⟨⟨b, start⟩, hstart, h⟩ := bind_eq_ok.1 h
  obtain ⟨b', hb, hstart⟩ := bind_eq_ok.1 hstart
  obtain ⟨opening, hopening, hstart⟩ := bind_eq_ok.1 hstart
  obtain ⟨rfl, rfl⟩ := Prod.mk.inj (Except.ok.inj hstart)
  obtain ⟨⟨⟩, hrun, rfl⟩ := return_eq_ok.1 h
  exact ⟨b', opening, _, hb, hopening, Prod.ext hrun rfl, rfl⟩

theorem fileOf_iff {writing : Builder → Writing Unit} {extension name : String} {s : Schema}
    {notice : Notice} {b : Builder} {opening : List String} {p : Prop}
    (hb : ofTransaction s name = .ok b) (hn : notice.lines = .ok opening)
    (h : WritesIff 0 0 (writing b) p) :
    (∃ file, fileOf writing extension s notice name = .ok file) ↔ p := by
  obtain ⟨hdoes, honly⟩ := h { code := opening } rfl
  constructor
  · rintro ⟨file, hfile⟩
    obtain ⟨b', opening', sheet, hb', hn', hrun, -⟩ := fileOf_eq_ok hfile
    obtain rfl : b = b' := Except.ok.inj (hb.symm.trans hb')
    obtain rfl : opening = opening' := Except.ok.inj (hn.symm.trans hn')
    exact honly ⟨(), by rw [hrun]⟩
  · intro hp
    obtain ⟨sheet, hrun, -⟩ := hdoes hp
    have hstart : start s notice name = .ok (b, { code := opening }) := by simp [start, hb, hn]
    have hresult : (writing b).run.run { code := opening } = (.ok (), sheet) := hrun
    exact ⟨_, by simp only [fileOf, hstart, ok_bind, hresult]; rfl⟩

/-- A transaction with a plugin and a body of sound fields has a builder that is ready to write. -/
theorem exists_ready {s : Schema} {name : String} {body : Value} {fields : List Value}
    (hname : name ∈ Hint.plugins.map (·.1)) (htyped : s.isTyped = true)
    (hbody : s.get? (name ++ "Body") = some body) (hlayout : body.layout = .ok fields)
    (hsound : ∀ v ∈ fields, isSound s fields v = true) :
    ∃ b, ofTransaction s name = .ok b ∧ Ready b fields := by
  obtain ⟨hints, hhints, husable⟩ := Hints.usable_of_plugin hname
  have hb : ofTransaction s name = .ok { schema := s, transaction := name, hints } := by
    simp [ofTransaction, hhints]
  have hfields : Builder.fields ⟨s, name, hints⟩ = .ok fields := by
    have hneed : s.need (.text (name ++ "Body")) = .ok body := by
      rw [Schema.need_text, hbody]
      rfl
    simp [Builder.fields, bodyName, hneed, hlayout]
  exact ⟨_, hb, husable, htyped, hfields, hsound⟩

/-- For a transaction with a plugin and a body of sound fields the header can be written. The
implementation can be written exactly if each counter in front of the first field of varying size has
at most four bytes and belongs to a field that the builder has. -/
theorem files_of_sound_body {s : Schema} {notice : Notice} {name : String} {body : Value}
    {fields : List Value} (hname : name ∈ Hint.plugins.map (·.1)) (hnotice : notice ≠ .unnamed)
    (htyped : s.isTyped = true) (hbody : s.get? (name ++ "Body") = some body)
    (hlayout : body.layout = .ok fields) (hsound : ∀ v ∈ fields, isSound s fields v = true) :
    (∃ h, headerFile s notice name = .ok h) ∧
      ((∃ c, codeFile s notice name = .ok c) ↔
        ∀ v ∈ fixedPart fields, isCounting v = true → isCountable fields v = true) := by
  obtain ⟨b, hb, hready⟩ := exists_ready hname htyped hbody hlayout hsound
  obtain ⟨opening, hopening⟩ : ∃ opening, notice.lines = .ok opening := by
    cases notice with
    | unnamed => exact absurd rfl hnotice
    | absent => exact ⟨[], rfl⟩
    | text t => exact ⟨Text.fileLines t, rfl⟩
  refine ⟨(fileOf_iff hb hopening (writes_header hready)).2 trivial, ?_⟩
  exact fileOf_iff hb hopening (writesIff_implementation hready)

/-- A body with a buffer and a counter in front of it. -/
def messages (width : Int) : Schema := ⟨[
  ("TransferTransactionBody", .table [("type", "struct"), ("layout", .list [
    .table [("name", "messageSize"), ("type", "byte"), ("size", .int width),
      ("signedness", "unsigned"), ("comments", "size")],
    .table [("name", "message"), ("type", "byte"), ("size", "messageSize"),
      ("comments", "message")]])]),
  ("TransferTransaction", .table [("type", "struct"), ("layout", .list [])])]⟩

theorem files_of_sound_body_messages :
    (∃ h, headerFile (messages 2) .absent "TransferTransaction" = .ok h) ∧
    (∃ c, codeFile (messages 2) .absent "TransferTransaction" = .ok c) ∧
    (∃ h, headerFile (messages 8) .absent "TransferTransaction" = .ok h) ∧
    ¬∃ c, codeFile (messages 8) .absent "TransferTransaction" = .ok c := by
  have hname : "TransferTransaction" ∈ Hint.plugins.map (·.1) := by decide +kernel
  obtain ⟨hheader, hcode⟩ := @files_of_sound_body (messages 2) .absent _ _ _ hname (by decide)
    (by decide +kernel) rfl rfl (by decide +kernel)
  obtain ⟨hheader', hcode'⟩ := @files_of_sound_body (messages 8) .absent _ _ _ hname (by decide)
    (by decide +kernel) rfl rfl (by decide +kernel)
  exact ⟨hheader, hcode.2 (by decide +kernel), hheader', hcode'.not.2 (by decide +kernel)⟩

end Builder
end SchemaForge
