import SchemaForge.Proofs.Faults
import SchemaForge.Proofs.Reading
import SchemaForge.Run

/-! Which steps can end because a search finds nothing. In the making of a builder's files that is the
search for the field on which another one depends, and no other. -/
namespace SchemaForge

namespace Checked
variable {α β : Type}

/-- Ends in some other way than by a search that finds nothing. -/
def Conclusive (x : Checked α) : Prop := x ≠ .error .notFound

@[simp] theorem conclusive_ok (a : α) : Conclusive (.ok a : Checked α) := by
  simp [Conclusive]

@[simp] theorem conclusive_error (fault : Fault) :
    Conclusive (.error fault : Checked α) ↔ fault ≠ .notFound := by
  simp [Conclusive]

@[simp] theorem conclusive_bind {x : Checked α} {f : α → Checked β} :
    Conclusive (x >>= f) ↔ Conclusive x ∧ ∀ a, x = .ok a → Conclusive (f a) := by
  cases x <;> simp [Conclusive]

@[simp] theorem conclusive_map {x : Checked α} {g : α → β} :
    Conclusive (g <$> x) ↔ Conclusive x := by
  cases x <;> simp [Conclusive, Functor.map, Except.map]

@[simp] theorem conclusive_ite {p : Prop} [Decidable p] {x y : Checked α} :
    Conclusive (if p then x else y) ↔ (p → Conclusive x) ∧ (¬p → Conclusive y) := by
  split <;> simp_all

/-- Reading ends in no search. -/
theorem Reads.conclusive {x : Checked α} (h : Reads x) : Conclusive x := fun hx => nomatch h _ hx

@[simp] theorem conclusive_require (key : Value) (found : Option α) :
    Conclusive (require key found) := (reads_require key found).conclusive

theorem conclusive_mapM {f : α → Checked β} (h : ∀ a, Conclusive (f a)) (l : List α) :
    Conclusive (l.mapM f) := by
  induction l with
  | nil => simp
  | cons a l ih => simp [List.mapM_cons, h a, ih]

theorem conclusive_foldlM {f : β → α → Checked β} (h : ∀ b a, Conclusive (f b a)) (l : List α)
    (b : β) : Conclusive (l.foldlM f b) := by
  induction l generalizing b with
  | nil => simp
  | cons a l ih => simp [List.foldlM_cons, h b a, ih]

end Checked

open Checked

namespace Value

@[simp] theorem conclusive_joined (v : Value) : Conclusive v.joined := v.reads_joined.conclusive

@[simp] theorem conclusive_asText (v : Value) : Conclusive v.asText := v.reads_asText.conclusive

@[simp] theorem conclusive_compared (v : Value) : Conclusive v.compared := v.reads_compared.conclusive

@[simp] theorem conclusive_asKey (v : Value) : Conclusive v.asKey := v.reads_asKey.conclusive

@[simp] theorem conclusive_items (v : Value) : Conclusive v.items := v.reads_items.conclusive

@[simp] theorem conclusive_entryIn (entries : List (String × Value)) (key : Value) :
    Conclusive (entryIn entries key) := (reads_entryIn entries key).conclusive

@[simp] theorem conclusive_has (v : Value) (key : String) : Conclusive (v.has key) :=
  (v.reads_has key).conclusive

@[simp] theorem conclusive_atPosition (values : List Value) (position : Value) :
    Conclusive (atPosition values position) := (reads_atPosition values position).conclusive

@[simp] theorem conclusive_part (v key : Value) : Conclusive (v.part key) := (v.reads_part key).conclusive

@[simp] theorem conclusive_copies (v : Value) (c : Char) (width : Nat) :
    Conclusive (v.copies c width) := (v.reads_copies c width).conclusive

@[simp] theorem conclusive_need (v : Value) (key : String) : Conclusive (v.need key) :=
  (v.reads_need key).conclusive

@[simp] theorem conclusive_find (v key : Value) : Conclusive (v.find key) := (v.reads_find key).conclusive

@[simp] theorem conclusive_upperFirst (v : Value) : Conclusive v.upperFirst :=
  (v.reads_changeFirst Text.upperFirst).conclusive

@[simp] theorem conclusive_layout (v : Value) : Conclusive v.layout := v.reads_layout.conclusive

@[simp] theorem conclusive_fieldKind (v : Value) : Conclusive v.fieldKind := by
  simp only [fieldKind, conclusive_bind, conclusive_has, conclusive_ite, true_and]
  intro sized _
  refine ⟨by simp, fun _ => ⟨by simp, fun size _ => ?_⟩⟩
  cases size <;> simp [isMachineNumber]

@[simp] theorem conclusive_isConditional (v : Value) : Conclusive v.isConditional :=
  conclusive_has v "condition"

/-- A field of fixed size that is not a counter. -/
def isFixed (v : Value) : Bool :=
  v.fieldKind.toOption == some .simple && ((v.need "name").toOption.bind (·.text?)).any (!isCounter ·)

def isNamed (v name : Value) : Bool := (v.need "name").toOption.any (· == name)

end Value

@[simp] theorem Schema.conclusive_need (s : Schema) (name : Value) : Conclusive (s.need name) :=
  (s.reads_need name).conclusive

@[simp] theorem Target.conclusive_sized (table : List (Int × String)) (size : Value) :
    Conclusive (Target.sized table size) := (Target.reads_sized table size).conclusive

@[simp] theorem Notice.conclusive_lines (notice : Notice) : Conclusive notice.lines := by
  cases notice <;> simp [Notice.lines]

namespace Path

@[simp] theorem conclusive_pieces (path : String) : Conclusive (pieces path) := by
  simp [pieces]

@[simp] theorem conclusive_step (directory : List String) (piece : String) :
    Conclusive (step directory piece) := by
  simp [step]

@[simp] theorem conclusive_follow (isDirectory : List String → Bool) (directory names : List String) :
    Conclusive (follow isDirectory directory names) := by
  induction names generalizing directory with
  | nil => simp [follow]
  | cons name rest ih => simp [follow, ih]

end Path

namespace Hints

@[simp] theorem conclusive_file (name : String) : Conclusive (Hint.file name) := by
  simp only [Hint.file, conclusive_bind, Path.conclusive_pieces, Path.conclusive_follow, true_and]
  intro pieces _ path _
  split <;> simp

@[simp] theorem conclusive_ofTransaction (name : String) : Conclusive (ofTransaction name) := by
  have hcollect : Conclusive (collect (Hint.topics.map (·.1))) :=
    conclusive_foldlM (by simp) _ _
  simp [ofTransaction, hcollect]

@[simp] theorem conclusive_entry (hints : Hints) (topic : String) (key : Value) :
    Conclusive (hints.entry topic key) := by
  simp [entry]

@[simp] theorem conclusive_items (hints : Hints) (topic : String) :
    Conclusive (hints.items topic) := by
  simp [items]

end Hints

namespace Text

@[simp] theorem conclusive_readPosition (cs : List Char) : Conclusive (readPosition cs) := by
  have hdigits : ∀ n, Conclusive (readDigits n cs) := by
    induction cs with
    | nil => simp [readDigits]
    | cons c rest ih =>
      intro n
      unfold readDigits
      split <;> simp [ih]
  simp [readPosition, hdigits]

@[simp] theorem conclusive_namedPart (found : Found) (name : String) :
    Conclusive (namedPart found name) := by
  unfold namedPart
  split <;> try simp
  split <;> simp

@[simp] theorem conclusive_bracketPart (found : Found) (key : List Char) :
    Conclusive (bracketPart found key) := by
  simp only [bracketPart, conclusive_bind, conclusive_readPosition, conclusive_ite, true_and]
  intro position _
  refine ⟨by simp, fun _ => ?_⟩
  cases found with
  | sort name => simp
  | value v => cases position <;> simp

@[simp] theorem conclusive_partOf (found : Found) (path : List Char) :
    Conclusive (partOf found path) := by
  fun_induction partOf found path with
  | case1 | case2 | case4 | case6 => simp
  | case3 v rest name next _ ih | case5 v rest key next _ ih => simp [next, ih]

@[simp] theorem conclusive_fill (values : String → Option Value) (s : String) :
    Conclusive (fill values s) := by
  have hslot : ∀ slot, Conclusive (slotValue values slot) := by
    intro slot
    have hformat : ∀ found : Found, found.formatFault ≠ .notFound := by
      intro found
      unfold Found.formatFault
      split <;> simp
    simp [slotValue, hformat]
  have hpiece : ∀ piece, Conclusive (Piece.value values piece) := by
    intro piece
    cases piece <;> simp [Piece.value, hslot]
  simp [fill, conclusive_mapM hpiece]

end Text

namespace Builder
variable (b : Builder)

@[simp] theorem conclusive_fields : Conclusive b.fields := by
  simp [fields]

@[simp] theorem conclusive_someKind (test : FieldKind → Bool) : Conclusive (b.someKind test) := by
  have hany : ∀ fields, Conclusive (anyKind test fields) := by
    intro fields
    induction fields with
    | nil => simp [anyKind]
    | cons v rest ih => simp [anyKind, ih]
  simp [someKind, hany]

@[simp] theorem conclusive_qualified (type : Value) : Conclusive (b.qualified type) := by
  simp [qualified]

@[simp] theorem conclusive_machineType (size signedness : Value) :
    Conclusive (machineType size signedness) := by
  simp [machineType]

@[simp] theorem conclusive_isMachineNumber (type size : Value) :
    Conclusive (isMachineNumber type size) := by
  simp [isMachineNumber]

@[simp] theorem conclusive_paramType (type size signedness : Value) :
    Conclusive (b.paramType type size signedness) := by
  simp [paramType, isPlainNumber]

@[simp] theorem conclusive_signature (verb type : String) (param : Value) :
    Conclusive (signature verb type param) := by
  simp [signature, methodName]

@[simp] theorem conclusive_valueType (v : Value) : Conclusive (b.valueType v) := by
  simp [valueType]

@[simp] theorem conclusive_setter (kind : FieldKind) (v : Value) : Conclusive (b.setter kind v) := by
  cases kind <;> simp [setter]

@[simp] theorem conclusive_heldType (v : Value) : Conclusive (b.heldType v) := by
  have hsized : ∀ type size, Conclusive (isSizedNumber type size) := by
    intro type size
    unfold isSizedNumber
    split <;> simp
  simp [heldType, hsized]

@[simp] theorem conclusive_memberType (v : Value) : Conclusive (b.memberType v) := by
  simp only [memberType, conclusive_bind, Value.conclusive_fieldKind, conclusive_heldType, true_and]
  intro kind _ type _
  cases kind <;> simp

@[simp] theorem conclusive_memberName (name : Value) : Conclusive (b.memberName name) := by
  simp [memberName]

@[simp] theorem conclusive_bound (v : Value) : Conclusive (bound v) := by
  simp [bound]

@[simp] theorem conclusive_remark (v : Value) : Conclusive (remark v) := by
  simp [remark]

@[simp] theorem conclusive_counterLine (counts : List (Value × String)) (member name v : Value) :
    Conclusive (counterLine counts member name v) := by
  simp [counterLine, countType]

@[simp] theorem conclusive_lineCode (values indent : Value) (line : String) :
    Conclusive (b.lineCode values indent line) := by
  have hextra : Conclusive (extraSlots values) := by
    cases values <;> simp [extraSlots]
  simp [lineCode, hextra]

@[simp] theorem conclusive_counts : Conclusive b.counts := by
  have hfilter : ∀ (f : Value → Checked (Option (Value × String))) (fields : List Value),
      (∀ v, Conclusive (f v)) → Conclusive (fields.filterMapM f) := by
    intro f fields hf
    have hloop : ∀ found, Conclusive (List.filterMapM.loop f fields found) := by
      induction fields with
      | nil => simp [List.filterMapM.loop]
      | cons v rest ih =>
        intro found
        simp only [List.filterMapM.loop, conclusive_bind, hf v, true_and]
        intro kept _
        cases kept <;> simp [ih]
    exact hloop []
  simp [counts, hfilter]

/-- The fixed fields among these depend on nothing but one another. -/
def Anchored (fields : List Value) : Prop :=
  ∀ v ∈ fields, v.isFixed = true → ∀ c, v.need "condition" = .ok c → ∃ w ∈ fields, w.isNamed c = true

instance : DecidablePred Anchored := fun fields =>
  inferInstanceAs (Decidable (∀ v ∈ fields, v.isFixed = true → ∀ c, v.need "condition" = .ok c →
    ∃ w ∈ fields, w.isNamed c = true))

theorem conclusive_findNamed {name : Value} {fields : List Value}
    (h : ∃ w ∈ fields, w.isNamed name = true) : Conclusive (findNamed name fields) := by
  induction fields with
  | nil => simp at h
  | cons v rest ih =>
    cases hv : v.need "name" with
    | error fault =>
      have := Value.conclusive_need v "name"
      simp_all [findNamed]
    | ok n =>
      by_cases hn : (n == name) = true
      · simp [findNamed, hv, hn]
      · obtain ⟨w, hw, hnamed⟩ := h
        have hrest : w ∈ rest := by
          rcases List.mem_cons.1 hw with rfl | hw
          · simp [Value.isNamed, hv, Except.toOption, hn] at hnamed
          · exact hw
        simp [findNamed, hv, hn, ih ⟨w, hrest, hnamed⟩]

theorem conclusive_setterOf {b : Builder} {name : Value} (h : Conclusive (b.field name)) :
    Conclusive (b.setterOf name) := by
  simp [setterOf, h]

end Builder

section
variable {α β : Type}

/-- Steps that end in some other way than by a search that finds nothing. -/
def Concludes (steps : Writing α) : Prop := ∀ sheet, Conclusive (runOn steps sheet).1

@[simp] theorem concludes_pure (a : α) : Concludes (pure a) := fun _ => conclusive_ok a

@[simp] theorem concludes_get : Concludes get := fun _ => conclusive_ok _

@[simp] theorem concludes_modify (change : Sheet → Sheet) : Concludes (modify change) :=
  fun _ => conclusive_ok _

theorem concludes_bind {x : Writing α} {f : α → Writing β} (hx : Concludes x)
    (hf : ∀ a, Concludes (f a)) : Concludes (x >>= f) := by
  intro sheet
  have hfirst := hx sheet
  rw [runOn_bind]
  rcases hr : runOn x sheet with ⟨fault | a, sheet'⟩
  · rw [hr, conclusive_error] at hfirst
    exact (conclusive_error fault).2 hfirst
  · exact hf a sheet'

theorem Concludes.seq {x : Writing Unit} {y : Writing β} (hx : Concludes x) (hy : Concludes y) :
    Concludes (x >>= fun _ => y) := concludes_bind hx fun _ => hy

@[simp] theorem concludes_lift_bind {x : Checked α} {f : α → Writing β} :
    Concludes (liftM x >>= f) ↔ Conclusive x ∧ ∀ a, x = .ok a → Concludes (f a) := by
  cases x with
  | ok a => simp [lift_ok_bind]
  | error fault =>
    rw [lift_error_bind]
    simp only [conclusive_error, reduceCtorEq, false_implies, implies_true, and_true]
    exact ⟨fun h => conclusive_error fault |>.1 (h {}), fun h _ => conclusive_error fault |>.2 h⟩

theorem concludes_discard {x : Checked α} (hx : Conclusive x) :
    Concludes (Functor.discard (liftM x)) := by
  intro sheet
  cases x with
  | ok a => exact conclusive_ok _
  | error fault => exact (conclusive_error fault).2 ((conclusive_error fault).1 hx)

@[simp] theorem concludes_ite {p : Prop} [Decidable p] {x y : Writing α} :
    Concludes (if p then x else y) ↔ (p → Concludes x) ∧ (¬p → Concludes y) := by
  split <;> simp_all

theorem concludes_forM {f : α → Writing Unit} {l : List α} (h : ∀ a ∈ l, Concludes (f a)) :
    Concludes (l.forM f) := by
  induction l with
  | nil => exact concludes_pure ()
  | cons a l ih =>
    exact concludes_bind (h a (by simp)) fun _ => ih fun b hb => h b (by simp [hb])

end

namespace Builder
variable (b : Builder)

@[simp] theorem concludes_write (text : String) : Concludes (b.write text) := by
  apply concludes_forM
  intro line _
  apply concludes_bind concludes_get
  intro sheet
  simp

@[simp] theorem concludes_writeAll (lines : List String) : Concludes (b.writeAll lines) :=
  concludes_forM fun line _ => concludes_write b line

@[simp] theorem concludes_shift (steps : Int) : Concludes (shift steps) := by
  apply concludes_bind concludes_get
  intro sheet
  simp

@[simp] theorem concludes_deeper {steps : Nat} {writing : Writing Unit} (h : Concludes writing) :
    Concludes (deeper steps writing) :=
  concludes_bind (concludes_shift _) fun _ => concludes_bind h fun _ => concludes_shift _

theorem concludes_forFields {step : Value → Writing Unit}
    (h : ∀ fields, b.fields = .ok fields → ∀ v ∈ fields, ∀ name, v.need "name" = .ok (.text name) →
      isBuilt name = true → Concludes (step v)) : Concludes (b.forFields step) := by
  simp only [forFields, concludes_lift_bind, conclusive_fields, true_and]
  intro fields hfields
  apply concludes_forM
  intro v hv
  simp only [concludes_lift_bind, Value.conclusive_need, Value.conclusive_asText, concludes_ite,
    concludes_pure, implies_true, and_true, true_and]
  intro named hnamed name hname hbuilt
  obtain rfl := Value.eq_text_of_asText hname
  exact h fields hfields v hv name hnamed hbuilt

theorem concludes_forSetters {step : FieldKind → Value → Setter → String → Writing Unit}
    (h : ∀ fields, b.fields = .ok fields → ∀ v ∈ fields, ∀ name kind setter text,
      v.need "name" = .ok (.text name) → isBuilt name = true → v.fieldKind = .ok kind →
        Concludes (step kind v setter text)) : Concludes (b.forSetters step) := by
  apply concludes_forFields
  intro fields hfields v hv name hname hbuilt
  simp only [concludes_lift_bind, Value.conclusive_need, Hints.conclusive_entry, concludes_ite,
    Value.conclusive_fieldKind, conclusive_setter, conclusive_signature, concludes_pure, implies_true,
    and_true, true_and]
  intro _ _ _ _ _ kind hkind setter _ text _
  exact h fields hfields v hv name kind setter text hname hbuilt hkind

theorem concludes_sections {parts : Sections} (hi : Concludes parts.includes)
    (hc : Concludes parts.classHeader) (hs : Concludes parts.setters) (hb : Concludes parts.builds)
    (hm : Concludes parts.members) (hf : Concludes parts.footer) :
    Concludes (parts.writeAll b) := by
  have hend : Concludes (setIndent (.int 0) >>= fun _ => b.write "\x7d\x7d\x7d\x7d") :=
    (concludes_modify _).seq (concludes_write b _)
  have hinside := hc.seq (hs.seq (hb.seq (hm.seq (hf.seq hend))))
  exact hi.seq ((concludes_writeAll b _).seq ((concludes_modify _).seq hinside))

theorem concludes_header : Concludes (header b) := by
  have hlines : ∀ first lines, Concludes (do b.write first; deeper 1 (b.writeAll lines)) :=
    fun first lines => (concludes_write b first).seq (concludes_deeper (concludes_writeAll b lines))
  have hsetters : Concludes (b.forSetters b.headerSetter) := by
    apply concludes_forSetters
    intro _ _ v _ _ kind setter signature _ _ _
    have hcomment : Concludes (b.setterComment kind v setter.param) := by simp [setterComment]
    exact hcomment.seq (concludes_write b _)
  have hmembers : Concludes (b.forFields b.headerMember) := by
    apply concludes_forFields
    intros
    simp [headerMember]
  apply concludes_sections
  · have hend : Concludes (do
        if ← b.hasKind .vector then b.write "#include <vector>"
        b.write "") := by
      simp [hasKind, (concludes_write b "#include <vector>").seq (concludes_write b "")]
    simp only [headerIncludes, Hints.plugin, concludes_lift_bind, Value.conclusive_need, true_and]
    intro plugin _
    exact (concludes_writeAll b _).seq ((concludes_write b _).seq hend)
  · exact (concludes_writeAll b _).seq ((concludes_deeper (concludes_writeAll b _)).seq (hlines _ _))
  · exact (concludes_write b _).seq (concludes_deeper hsetters)
  · exact (concludes_write b _).seq ((concludes_deeper (concludes_writeAll b _)).seq (hlines _ _))
  · exact (concludes_write b _).seq (concludes_deeper hmembers)
  · exact concludes_write b _

variable {b}

/-- The setter of a field with a condition sets the field on which it depends. -/
theorem concludes_simpleSetter {v : Value} (param : String)
    (h : ∀ c, v.need "condition" = .ok c → Conclusive (b.field c)) :
    Concludes (b.simpleSetter v param) := by
  refine (concludes_write b _).seq ?_
  simp only [concludes_lift_bind, Value.conclusive_isConditional, concludes_ite, concludes_pure,
    Value.conclusive_need, Value.conclusive_upperFirst, concludes_write, true_and, implies_true,
    and_true]
  intro _ _ _ c hc _ _ value _
  simp [discriminatorLine, conclusive_setterOf (h c hc)]

theorem concludes_codeSetter {kind : FieldKind} {v : Value} (setter : Setter) (signature : String)
    (h : kind = .simple → ∀ c, v.need "condition" = .ok c → Conclusive (b.field c)) :
    Concludes (b.codeSetter kind v setter signature) := by
  have hvector : Concludes (b.vectorSetter v setter.param.spell) := by
    simp only [vectorSetter, concludes_lift_bind, Value.conclusive_need, Value.conclusive_find,
      true_and]
    intro name _ key _
    cases key with
    | none => exact concludes_write b _
    | some key =>
      have hreturn : Concludes (deeper 1 do
          let key ← key.upperFirst
          b.write s!"return lhs.{key.spell} < rhs.{key.spell};") := by
        apply concludes_deeper
        simp
      exact (concludes_write b _).seq (hreturn.seq (concludes_write b _))
  have hbody : Concludes (b.setterBody kind v setter.param.spell) := by
    cases kind with
    | simple => exact concludes_simpleSetter _ (h rfl)
    | buffer => exact concludes_write b _
    | vector | unknown => exact hvector
  exact (concludes_write b _).seq ((concludes_deeper hbody).seq (concludes_write b _))

theorem concludes_codeSize : Concludes b.codeSize := by
  have hlines : Concludes (b.forFields b.sizeLine) := by
    apply concludes_forFields
    intro _ _ v _ _ _ _
    simp only [sizeLine, concludes_lift_bind, Value.conclusive_fieldKind, Value.conclusive_need,
      true_and]
    intro kind _ name _
    cases kind <;> simp
  refine (concludes_writeAll b _).seq ((concludes_deeper ?_).seq (concludes_write b _))
  exact (concludes_writeAll b _).seq (hlines.seq (concludes_write b _))

theorem need_of_find {v c : Value} {key : String} (h : v.find key = .ok (some c)) :
    v.need key = .ok c := by
  cases v with
  | table entries =>
    have hlookup : entries.lookup key = some c := by simpa [Value.find, Value.entryIn] using h
    simp [Value.need, Record.need, Record.get?, hlookup, require]
  | _ => simp [Value.find] at h

/-- A field of fixed size is set under a test of the field on which it depends. -/
theorem concludes_fixedLines {v : Value} (member : Value) (name : String)
    (h : ∀ c, v.need "condition" = .ok c → Conclusive (b.field c)) :
    Concludes (b.fixedLines member name v) := by
  have hassign : Concludes (b.assignLine member name) := by simp [assignLine]
  simp only [fixedLines, concludes_lift_bind, Value.conclusive_find, true_and]
  intro condition hcondition
  cases condition with
  | none => exact hassign
  | some c =>
    simp only [concludes_lift_bind, Value.conclusive_need, true_and]
    intro value _
    refine ⟨?_, fun _ _ => ?_⟩
    · simp [conditionLine, conclusive_setterOf (h c (need_of_find hcondition))]
    · exact (concludes_write b _).seq ((concludes_deeper hassign).seq (concludes_write b _))

theorem concludes_fixedFields {counts : List (Value × String)} {fields : List Value}
    (h : ∀ v ∈ fields, v.isFixed = true → ∀ c, v.need "condition" = .ok c → Conclusive (b.field c)) :
    Concludes (b.fixedFields counts fields) := by
  induction fields with
  | nil => exact concludes_pure ()
  | cons v rest ih =>
    have hrest := ih fun w hw => h w (by simp [hw])
    simp only [fixedFields, concludes_lift_bind, Value.conclusive_need, conclusive_memberName,
      Value.conclusive_asText, concludes_ite, conclusive_counterLine, Value.conclusive_fieldKind,
      concludes_pure, true_and, implies_true, and_true]
    intro named hnamed member _ name hname
    refine ⟨fun _ _ _ => (concludes_write b _).seq hrest, fun hcounter kind hkind hsimple => ?_⟩
    obtain rfl := Value.eq_text_of_asText hname
    have hfixed : v.isFixed = true := by
      simp [Value.isFixed, hkind, hnamed, toOption_ok, hcounter, show kind = .simple by simpa using hsimple]
    exact (concludes_fixedLines member name (h v (by simp) hfixed)).seq hrest

theorem concludes_codeBuild {counts : List (Value × String)}
    (h : ∀ fields, b.fields = .ok fields → ∀ v ∈ fields, v.isFixed = true →
      ∀ c, v.need "condition" = .ok c → Conclusive (b.field c)) :
    Concludes (b.codeBuild counts) := by
  have hcopies : Concludes (b.forFields b.copyLine) := by
    apply concludes_forFields
    intro _ _ v _ _ _ _
    simp [copyLine]
  refine (concludes_writeAll b _).seq ((concludes_deeper ?_).seq (concludes_write b _))
  refine (concludes_writeAll b _).seq ?_
  simp only [concludes_lift_bind, conclusive_fields, true_and]
  intro fields hfields
  refine (concludes_fixedFields (h fields hfields)).seq ((concludes_write b _).seq ?_)
  simp only [hasOtherKind, concludes_lift_bind, conclusive_someKind, concludes_ite, concludes_write,
    true_and, implies_true, and_true]
  intro _ _ _
  refine (concludes_write b _).seq (hcopies.seq (concludes_bind concludes_get fun sheet => ?_))
  simp [(concludes_write b "").seq (concludes_write b "return pTransaction;")]

theorem concludes_implementation (h : ∀ fields, b.fields = .ok fields → Anchored fields) :
    Concludes (implementation b) := by
  have hfield : ∀ fields, b.fields = .ok fields → ∀ v ∈ fields, v.isFixed = true →
      ∀ c, v.need "condition" = .ok c → Conclusive (b.field c) := by
    intro fields hfields v hv hfixed c hc
    simp [field, hfields, conclusive_findNamed (h fields hfields v hv hfixed c hc)]
  have hmembers : Concludes (b.forFields b.codeMember) := by
    apply concludes_forFields
    intro _ _ v _ _ _ _
    simp [codeMember]
  apply concludes_sections
  · refine (concludes_write b _).seq ?_
    simp only [concludes_lift_bind, Hints.conclusive_items, true_and]
    intro files _
    exact (concludes_forM fun file _ => concludes_write b _).seq (concludes_write b _)
  · refine (concludes_write b _).seq ((concludes_deeper ?_).seq (concludes_writeAll b _))
    exact (concludes_write b _).seq hmembers
  · apply concludes_forSetters
    intro fields hfields v hv name kind setter signature hname hbuilt hkind
    apply concludes_codeSetter
    rintro rfl
    have hcounter : isCounter name = false := by
      simpa [isBuilt] using (Bool.and_eq_true_iff.1 hbuilt).1
    exact hfield fields hfields v hv (by simp [Value.isFixed, hkind, hname, toOption_ok, hcounter])
  · refine (concludes_writeAll b _).seq (concludes_codeSize.seq ?_)
    simp [concludes_codeBuild hfield]
  · apply concludes_forFields
    intro _ _ v _ _ _ _
    exact concludes_discard (conclusive_memberType b v)
  · exact concludes_pure ()

end Builder
end SchemaForge
