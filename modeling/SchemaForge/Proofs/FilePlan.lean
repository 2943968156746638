import Mathlib.Data.List.Nodup
import SchemaForge.Proofs.Amendments
import SchemaForge.Proofs.SoundPlans

/-! Which files a run gives, and in which order. The files can be told from the declarations alone, one
by one, although the models behind them are made from look-ups in a schema that changes meanwhile. All
models are made before the first file is written. -/
namespace SchemaForge
open Checked

/-- What the file of a type adds to the name of the type. -/
def fileSuffix? (name : String) (sort : Value) : Option String :=
  if sort.isByte || sort.isEnum then some "Dto"
  else if sort.isStruct && !isHidden name then some "Builder"
  else none

namespace Schema

/-- The file for a declaration, if it gets one. -/
def plannedFile? (t : Target) (entry : String × Value) : Option String := do
  let sort ← (← entry.2.record?).get? "type"
  return entry.1 ++ (← fileSuffix? entry.1 sort) ++ t.extension

/-- The files for a schema: those for its declarations in order, and then the ones that accompany them. -/
def filePlan (s : Schema) (t : Target) : List String :=
  s.types.filterMap (plannedFile? t) ++ t.supportFiles.map (· ++ t.extension)

variable {s : Schema} {name : String} {sort : Value}

/-- The sort of a type decides how its class is called. -/
theorem className_eq (hsort : (s.need name >>= (·.need "type")) = .ok sort) {declared : Value}
    (hd : s.need name = .ok declared) :
    s.className name declared = .ok (name ++ if sort.isStruct then "Builder" else "Dto") := by
  have htype : declared.need "type" = .ok sort := by simpa [hd] using hsort
  simp only [className, htype, ok_bind, Value.joined_text, need_eq_ok.1 hd]
  by_cases hatom : (sort.isByte || sort.isEnum) = true
  · have hno : sort.isStruct = false := by
      rw [Bool.or_eq_true] at hatom
      rcases hatom with h | h <;> rw [Value.eq_text_of_beq h] <;> rfl
    rw [if_pos hatom, if_neg (by simp [hno])]
    rfl
  · rw [if_neg hatom]
    cases sort.isStruct <;> rfl

theorem plannedFile?_eq (hsort : (s.need name >>= (·.need "type")) = .ok sort) {declared : Value}
    (hd : s.get? name = some declared) (t : Target) :
    plannedFile? t (name, declared) = (fileSuffix? name sort).map (name ++ · ++ t.extension) := by
  have htype : declared.need "type" = .ok sort := by simpa [need_eq_ok.2 hd] using hsort
  cases declared with
  | table entries =>
    have hget : Record.get? ⟨entries⟩ "type" = some sort := Record.need_eq_ok.1 htype
    simp only [plannedFile?, Value.record?, hget, Option.bind_eq_bind, Option.bind_some]
    cases fileSuffix? name sort <;> rfl
  | _ => simp [Value.need] at htype

theorem classNameOf_eq_ok (hsort : (s.need name >>= (·.need "type")) = .ok sort) {className : String}
    (h : ClassModel.classNameOf s name = .ok className) :
    className = name ++ if sort.isStruct then "Builder" else "Dto" := by
  obtain ⟨declared, hd, h⟩ := bind_eq_ok.1 h
  rw [className_eq hsort hd, ok_bind] at h
  split at h
  · simp at h
  · exact (Except.ok.inj h).symm

end Schema

namespace Plan
variable {t : Target} {s : Schema} {name : String} {sort : Value}

theorem fileName_atom {m : AtomModel} (hsort : (s.need name >>= (·.need "type")) = .ok sort)
    (h : (runOn (AtomModel.build t name) { schema := s }).1 = .ok m) :
    m.className = name ++ if sort.isStruct then "Builder" else "Dto" := by
  rw [AtomModel.runOn_build] at h
  obtain ⟨className, hclass, h⟩ := bind_eq_ok.1 h
  rw [← Schema.classNameOf_eq_ok hsort hclass]
  simp only [AtomModel.ofDeclared, bind_eq_ok] at h
  obtain ⟨_, -, _, -, _, -, _, -, _, -, h⟩ := h
  rw [← Except.ok.inj h]

theorem fileName_enum {m : EnumModel} (hsort : (s.need name >>= (·.need "type")) = .ok sort)
    (h : EnumModel.build t s name = .ok m) :
    m.className = name ++ if sort.isStruct then "Builder" else "Dto" := by
  obtain ⟨declared, hd, h⟩ := bind_eq_ok.1 h
  obtain ⟨className, hclass, h⟩ := bind_eq_ok.1 h
  rw [Schema.className_eq hsort hd] at hclass
  obtain ⟨size, -, h⟩ := bind_eq_ok.1 h
  obtain ⟨numberType, -, h⟩ := bind_eq_ok.1 h
  obtain ⟨values, -, h⟩ := bind_eq_ok.1 h
  obtain ⟨enumerators, -, h⟩ := bind_eq_ok.1 h
  obtain ⟨comments, -, h⟩ := bind_eq_ok.1 h
  obtain ⟨added, -, h⟩ := bind_eq_ok.1 h
  rw [Except.ok.inj hclass, ← Except.ok.inj h]

theorem fileName_struct {m : ClassModel} (hsort : (s.need name >>= (·.need "type")) = .ok sort)
    (h : ClassModel.modelOf t s name = .ok m) :
    m.className = name ++ if sort.isStruct then "Builder" else "Dto" := by
  obtain ⟨className, f, comments, d, hclass, hframe, -, hfinish⟩ := ClassModel.passes_of_modelOf h
  obtain ⟨-, -, hf, -⟩ := ClassModel.frameOf_eq_ok hframe
  obtain ⟨constructors, -, hm⟩ := bind_eq_ok.1 hfinish
  rw [← Schema.classNameOf_eq_ok hsort hclass, ← hf, ← Except.ok.inj hm]

/-- A plan is for the file that the sort of its type asks for. -/
theorem fileName_ofType? (hsort : (s.need name >>= (·.need "type")) = .ok sort) {plan : Option Plan}
    (h : (runOn (ofType? t name) s).1 = .ok plan) :
    plan.map (·.fileName t) = (fileSuffix? name sort).map (name ++ · ++ t.extension) := by
  rw [runOn_ofType?, hsort, ok_bind] at h
  unfold fileSuffix?
  by_cases hbyte : sort.isByte = true
  · rw [if_pos hbyte] at h
    obtain ⟨m, hm, rfl⟩ := map_eq_ok.1 h
    have hno : sort.isStruct = false := by rw [Value.eq_text_of_beq hbyte]; rfl
    simp [fileName, fileName_atom hsort hm, hbyte, hno]
  by_cases henum : sort.isEnum = true
  · rw [if_neg hbyte, if_pos henum] at h
    obtain ⟨m, hm, rfl⟩ := map_eq_ok.1 h
    have hno : sort.isStruct = false := by rw [Value.eq_text_of_beq henum]; rfl
    simp [fileName, fileName_enum hsort hm, henum, hno]
  by_cases hstruct : (sort.isStruct && !isHidden name) = true
  · rw [if_neg hbyte, if_neg henum, if_pos hstruct] at h
    obtain ⟨m, hm, rfl⟩ := map_eq_ok.1 h
    have hboth : sort.isStruct = true ∧ isHidden name = false := by simpa using hstruct
    simp [fileName, fileName_struct hsort hm, hbyte, henum, hboth]
  · rw [if_neg hbyte, if_neg henum, if_neg hstruct] at h
    obtain rfl : none = plan := by simpa using h
    simp [hbyte, henum, hstruct]

/-- Planning goes through the declarations one by one. The state in which a type is met has its sort as
it was in the beginning. -/
theorem fileNames_ofTypes {s s₁ s' : Schema} (hs : s₁.settled = s.settled)
    {types : List (String × Value)} (htypes : ∀ e ∈ types, s.get? e.1 = some e.2)
    {plans : List (Option Plan)}
    (h : runOn ((types.map (·.1)).mapM (ofType? t)) s₁ = (.ok plans, s')) :
    (plans.filterMap id).map (·.fileName t) = types.filterMap (Schema.plannedFile? t) := by
  induction types generalizing s₁ plans with
  | nil =>
    obtain ⟨rfl, -⟩ := by simpa using h
    rfl
  | cons e types ih =>
    obtain ⟨name, declared⟩ := e
    rw [List.map_cons, List.mapM_cons] at h
    obtain ⟨plan, s₂, hplan, h⟩ := runOn_bind_eq_ok.1 h
    obtain ⟨rest, s₃, hrest, h⟩ := runOn_bind_eq_ok.1 h
    obtain ⟨rfl, rfl⟩ := by simpa using h
    have hs₂ : s₂.settled = s.settled := ((marking_ofType? t name s₁).settled hplan).trans hs
    have hnames := ih hs₂ (fun e he => htypes e (List.mem_cons_of_mem _ he)) hrest
    obtain ⟨sort, hsort⟩ : ∃ sort, (s₁.need name >>= (·.need "type")) = .ok sort := by
      have hok : (runOn (ofType? t name) s₁).1 = .ok plan := by rw [hplan]
      rw [runOn_ofType?] at hok
      obtain ⟨sort, hsort, -⟩ := bind_eq_ok.1 hok
      exact ⟨sort, hsort⟩
    have hfile := fileName_ofType? hsort (by rw [hplan])
    rw [← Schema.sort_settled, hs, Schema.sort_settled] at hsort
    rw [← Schema.plannedFile?_eq hsort (htypes (name, declared) List.mem_cons_self)] at hfile
    cases plan with
    | none => simpa [← hfile] using hnames
    | some p => simpa [← hfile] using hnames

theorem fileNames_all {s' : Schema} {plans : List Plan} (hs : s.names.Nodup)
    (h : runOn (all t) s = (.ok plans, s')) : plans.map (·.fileName t) = s.filePlan t := by
  rw [all, runOn_bind_of_ok (runOn_get s)] at h
  obtain ⟨typed, s₁, htyped, h⟩ := runOn_bind_eq_ok.1 h
  obtain rfl := Except.ok.inj (congrArg Prod.fst h)
  have hnames := fileNames_ofTypes rfl (fun e he => Schema.get?_of_mem hs he) htyped
  rw [List.map_append, hnames, List.map_map]
  rfl

/-- A type whose model fails ends planning. -/
theorem all_eq_error {before rest : List String} {plans : List (Option Plan)} {s₁ : Schema}
    {fault : Fault} (hnames : s.names = before ++ name :: rest)
    (hbefore : runOn (before.mapM (ofType? t)) s = (.ok plans, s₁))
    (h : (runOn (ofType? t name) s₁).1 = .error fault) : (runOn (all t) s).1 = .error fault := by
  rw [all, runOn_bind_of_ok (runOn_get s), hnames, List.mapM_append, List.mapM_cons]
  simp only [bind_assoc]
  rw [runOn_bind_of_ok hbefore, runOn_bind_of_error (Prod.ext h rfl)]

end Plan

namespace ClassRun
variable {t : Target} {notice : Notice} {s : Schema}

/-- The files up to a fault are for the first plans. -/
theorem names_writeAll_prefix (plans : List Plan) :
    (writeAll t notice s plans).1.map (·.name) <+: plans.map (·.fileName t) := by
  induction plans with
  | nil => exact List.prefix_rfl
  | cons p plans ih =>
    rw [writeAll]
    cases hp : p.write t notice s with
    | error fault => exact List.nil_prefix
    | ok file =>
      rw [List.map_cons, List.map_cons, Plan.name_of_write hp]
      exact List.cons_prefix_cons.2 ⟨rfl, ih⟩

theorem names_drain_prefix (hs : s.names.Nodup) :
    (drain t notice s).1.map (·.name) <+: s.filePlan t := by
  rw [drain_eq]
  rcases hall : runOn (Plan.all t) s with ⟨fault | plans, s'⟩
  · exact List.nil_prefix
  · rw [← Plan.fileNames_all hs hall]
    exact names_writeAll_prefix plans

theorem names_drain_eq (hs : s.names.Nodup) (h : (drain t notice s).2.1 = none) :
    (drain t notice s).1.map (·.name) = s.filePlan t := by
  rw [drain_eq] at h ⊢
  rcases hall : runOn (Plan.all t) s with ⟨fault | plans, s'⟩
  · simp [hall] at h
  · rw [← Plan.fileNames_all hs hall]
    simp only [hall] at h
    exact names_writeAll h

end ClassRun

namespace Schema
variable {s : Schema} {t : Target}

theorem suffix_of_plannedFile? {e : String × Value} {file : String}
    (h : plannedFile? t e = some file) :
    ∃ suffix ∈ ["Dto", "Builder"], file = e.1 ++ suffix ++ t.extension := by
  simp only [plannedFile?, Option.bind_eq_bind, Option.bind_eq_some_iff, Option.pure_def,
    Option.some.injEq] at h
  obtain ⟨r, -, sort, -, suffix, hsuffix, rfl⟩ := h
  refine ⟨suffix, ?_, rfl⟩
  unfold fileSuffix? at hsuffix
  split at hsuffix
  · obtain rfl := Option.some.inj hsuffix
    simp
  · split at hsuffix
    · obtain rfl := Option.some.inj hsuffix
      simp
    · simp at hsuffix

/-- The name of a type can be told from its file: the two suffixes end differently. -/
theorem name_unique {name name' suffix suffix' : String} (hs : suffix ∈ ["Dto", "Builder"])
    (hs' : suffix' ∈ ["Dto", "Builder"])
    (h : name ++ suffix ++ t.extension = name' ++ suffix' ++ t.extension) : name = name' := by
  rw [String.append_left_inj] at h
  have hchars : name.toList ++ suffix.toList = name'.toList ++ suffix'.toList := by
    simpa using congrArg String.toList h
  have hlast := congrArg List.getLast? hchars
  simp only [List.mem_cons, List.not_mem_nil, or_false] at hs hs'
  rcases hs with rfl | rfl <;> rcases hs' with rfl | rfl
  · exact String.toList_inj.1 (List.append_cancel_right hchars)
  · simp at hlast
  · simp at hlast
  · exact String.toList_inj.1 (List.append_cancel_right hchars)

/-- No file that accompanies the others is called like one for a type. -/
theorem supportFile_ne {name suffix file : String} (hs : suffix ∈ ["Dto", "Builder"])
    (hf : file ∈ t.supportFiles) : name ++ suffix ++ t.extension ≠ file ++ t.extension := by
  intro h
  rw [String.append_left_inj] at h
  have hchars : name.toList ++ suffix.toList = file.toList := by
    simpa using congrArg String.toList h
  have hends : suffix.toList <:+ file.toList := ⟨name.toList, hchars⟩
  have hno : ∀ file ∈ t.supportFiles, ∀ suffix ∈ ["Dto", "Builder"],
      ¬ suffix.toList <:+ file.toList := by
    cases t <;> decide
  exact hno file hf suffix hs hends

theorem nodup_filePlan (hs : s.names.Nodup) : (s.filePlan t).Nodup := by
  rw [filePlan, List.nodup_append]
  refine ⟨?_, ?_, ?_⟩
  · rw [List.Nodup, List.pairwise_filterMap]
    refine (List.pairwise_map.1 hs).imp ?_
    rintro e e' hne file hfile file' hfile' rfl
    obtain ⟨suffix, hsuffix, hname⟩ := suffix_of_plannedFile? hfile
    obtain ⟨suffix', hsuffix', hname'⟩ := suffix_of_plannedFile? hfile'
    exact hne (name_unique hsuffix hsuffix' (hname.symm.trans hname'))
  · cases t <;> decide
  · intro file hfile file' hfile'
    obtain ⟨e, -, hplanned⟩ := List.mem_filterMap.1 hfile
    obtain ⟨suffix, hsuffix, rfl⟩ := suffix_of_plannedFile? hplanned
    obtain ⟨support, hsupport, rfl⟩ := List.mem_map.1 hfile'
    exact supportFile_ne hsuffix hsupport

end Schema

namespace Session
variable {session : Session} {t : Target} {id : Value}

/-- Whether a step may begin the run of a name anew. -/
def Step.restarts (id : Value) : Step → Bool
  | .new i _ | .start i | .drain i => i == id
  | _ => false

/-- All runs are known by names that can be keys. -/
def Keyed (session : Session) : Prop := ∀ p ∈ session.runs, p.1.isKey = true

theorem keyed_withRun (h : session.Keyed) (i : Value) (act : Run → Checked Answer × Run × Schema) :
    (session.withRun i act).2.Keyed := by
  unfold withRun
  cases hi : i.asKey with
  | error fault => exact h
  | ok key =>
    cases session.runs.lookup i with
    | none => exact h
    | some run =>
      obtain ⟨hkey, rfl⟩ := Value.asKey_eq_ok.1 hi
      exact keys_put h hkey _

theorem keyed_step (h : session.Keyed) (step : Step) : (session.step step).2.Keyed := by
  cases step with
  | new i product =>
    simp only [step]
    cases Product.ofName product with
    | error fault => exact h
    | ok product =>
      cases hi : i.asKey with
      | error fault => exact h
      | ok key =>
        obtain ⟨hkey, rfl⟩ := Value.asKey_eq_ok.1 hi
        exact keys_put h hkey _
  | «show» type => exact h
  | _ => exact keyed_withRun h _ _

theorem keyed_after (h : session.Keyed) (steps : List Step) : (session.after steps).Keyed := by
  induction steps generalizing session with
  | nil => exact h
  | cons step steps ih => exact ih (keyed_step h step)

theorem isKey_of_lookup {runs : List (Value × Run)} (h : ∀ p ∈ runs, p.1.isKey = true) {run : Run}
    (hl : runs.lookup id = some run) : id.isKey = true := by
  induction runs with
  | nil => simp at hl
  | cons p runs ih =>
    rw [List.lookup_cons] at hl
    by_cases hp : (id == p.1) = true
    · exact (Value.isKey_of_beq hp).trans (h p List.mem_cons_self)
    · simp only [hp] at hl
      exact ih (fun q hq => h q (List.mem_cons_of_mem _ hq)) hl

/-- A session in which the run of a name has come to its end. -/
structure Spent (t : Target) (id : Value) (session : Session) : Prop where
  keyed : session.Keyed
  run : session.runs.lookup id = some (.classes t .done)

theorem spent_keep (h : session.Keyed) {i : Value} (hi : i.isKey = true) (hid : id.isKey = true)
    {run : Run} (s : Schema)
    (hr : if i == id then run = .classes t .done else session.runs.lookup id = some (.classes t .done)) :
    Spent t id (session.keep i run s) := by
  refine ⟨keys_put h hi run, ?_⟩
  rw [keep, lookup_put h hid hi run]
  split at hr
  · rw [if_pos (by assumption), hr]
  · rw [if_neg (by assumption), hr]

/-- What is done with a run that has come to its end must leave it there. -/
theorem Spent.withRun (h : Spent t id session) {i : Value}
    {act : Run → Checked Answer × Run × Schema}
    (ha : (i == id) = true → (act (.classes t .done)).2.1 = .classes t .done) :
    Spent t id (session.withRun i act).2 := by
  have hid := isKey_of_lookup h.keyed h.run
  unfold Session.withRun
  cases hi : i.asKey with
  | error fault => exact h
  | ok key =>
    obtain ⟨hkey, rfl⟩ := Value.asKey_eq_ok.1 hi
    cases hl : session.runs.lookup i with
    | none => exact h
    | some run =>
      refine spent_keep h.keyed hkey hid _ ?_
      split
      · rename_i heq
        have hsame := lookup_congr h.keyed hkey hid ((Value.beq_iff_keyForm hkey hid).1 heq)
        obtain rfl : run = .classes t .done := by simpa [hl, h.run] using hsame
        exact ha heq
      · exact h.run

theorem Spent.step (h : Spent t id session) {step : Step} (hs : step.restarts id = false) :
    Spent t id (session.step step).2 := by
  cases step with
  | new i product =>
    simp only [Session.step]
    cases Product.ofName product with
    | error fault => exact h
    | ok product =>
      cases hi : i.asKey with
      | error fault => exact h
      | ok key =>
        obtain ⟨hkey, rfl⟩ := Value.asKey_eq_ok.1 hi
        refine spent_keep h.keyed hkey (isKey_of_lookup h.keyed h.run) _ ?_
        rw [if_neg (by simpa [Step.restarts] using hs)]
        exact h.run
  | start i => exact h.withRun fun heq => by simp [Step.restarts, heq] at hs
  | next i => exact h.withRun fun _ => rfl
  | drain i => exact h.withRun fun heq => by simp [Step.restarts, heq] at hs
  | advance i => exact h.withRun fun _ => rfl
  | «show» type => exact h

theorem Spent.after (h : Spent t id session) {steps : List Step}
    (hs : ∀ step ∈ steps, step.restarts id = false) : Spent t id (session.after steps) := by
  induction steps generalizing session with
  | nil => exact h
  | cons step steps ih =>
    exact ih (h.step (hs step List.mem_cons_self)) fun step' hmem => hs step' (List.mem_cons_of_mem _ hmem)

theorem Spent.next (h : Spent t id session) : (session.step (.next id)).1 = .error .notFound := by
  have hid : id.asKey = .ok id := Value.asKey_eq_ok.2 ⟨isKey_of_lookup h.keyed h.run, rfl⟩
  simp only [Session.step, Session.withRun, hid, h.run]
  rfl

/-- A drain brings a run of classes to its end, with or without a fault. -/
theorem spent_drain (h : session.Keyed) {progress : ClassRun}
    (hr : session.runs.lookup id = some (.classes t progress)) :
    Spent t id (session.step (.drain id)).2 := by
  have hkey := isKey_of_lookup h hr
  have hid : id.asKey = .ok id := Value.asKey_eq_ok.2 ⟨hkey, rfl⟩
  have hself : (id == id) = true := (Value.beq_iff_keyForm hkey hkey).2 rfl
  simp only [Session.step, Session.withRun, hid, hr]
  refine spent_keep h hkey hkey _ ?_
  rw [if_pos hself, Run.drain]
  generalize ClassRun.drain t session.notice session.schema = out
  obtain ⟨files, _ | fault, s₁⟩ := out <;> rfl

end Session

/-- A drain gives the files of the plan, which are pairwise different, up to a fault. It gives none if a
model cannot be made, whichever it is, and after the end no file comes any more. -/
theorem ClassRun.drain_follows_plan (t : Target) (notice : Notice) (s : Schema) (hs : s.names.Nodup) :
    (s.filePlan t).Nodup ∧
    ((drain t notice s).2.1 = none → (drain t notice s).1.map (·.name) = s.filePlan t) ∧
    (drain t notice s).1.map (·.name) <+: s.filePlan t ∧
    (∀ before name rest plans s₁ fault, s.names = before ++ name :: rest →
      runOn (before.mapM (Plan.ofType? t)) s = (.ok plans, s₁) →
      (runOn (Plan.ofType? t name) s₁).1 = .error fault →
      (drain t notice s).1 = [] ∧ (drain t notice s).2.1 = some (interrupt fault)) ∧
    ∀ steps id progress more,
      (Session.after { schema := s, notice } steps).runs.lookup id = some (.classes t progress) →
      (∀ step ∈ more, Session.Step.restarts id step = false) →
      ((Session.after { schema := s, notice } (steps ++ .drain id :: more)).step (.next id)).1 =
        .error .notFound := by
  refine ⟨Schema.nodup_filePlan hs, names_drain_eq hs, names_drain_prefix hs, ?_, ?_⟩
  · intro before name rest plans s₁ fault hnames hbefore hfault
    have hall := Plan.all_eq_error hnames hbefore hfault
    simp [drain_eq, hall]
  · intro steps id progress more hrun hmore
    have hkeyed : (Session.after { schema := s, notice } steps).Keyed :=
      Session.keyed_after (by simp [Session.Keyed]) steps
    rw [Session.after_append, Session.after_cons]
    exact ((Session.spent_drain hkeyed hrun).after hmore).next

/-- A schema whose last type lacks what its model needs. -/
def tornSchema : Schema := ⟨ClassModel.leaseSchema.types ++ [("Torn", .table [("type", "struct")])]⟩

theorem ClassRun.drain_follows_plan_torn :
    (drain .java .absent ClassModel.leaseSchema).1.map (·.name) =
      ["AmountDto.java", "LeaseFlagsDto.java", "HeaderBuilder.java", "LeaseBuilder.java",
        "BitMaskable.java", "GeneratorUtils.java", "TransactionBuilderHelper.java",
        "EmbeddedTransactionBuilderHelper.java", "Serializer.java"] ∧
    (drain .java .absent tornSchema).1 = [] ∧
    ((Session.after { schema := tornSchema, notice := .absent }
      [.new "types" "java", .drain "types", .next "types"]).step (.next "types")).1 =
        .error .notFound := by
  have hlease := drain_follows_plan .java .absent ClassModel.leaseSchema (by decide)
  have hends : (drain .java .absent ClassModel.leaseSchema).2.1 = none :=
    Option.isNone_iff_eq_none.1 (by decide +kernel)
  have htorn := drain_follows_plan .java .absent tornSchema (by decide)
  have hbefore : (runOn (ClassModel.leaseSchema.names.mapM (Plan.ofType? .java)) tornSchema).1.isOk =
      true := by decide +kernel
  have hlast : (runOn (Plan.ofType? .java "Torn")
      (runOn (ClassModel.leaseSchema.names.mapM (Plan.ofType? .java)) tornSchema).2).1.isOk = false := by
    decide +kernel
  refine ⟨(hlease.2.1 hends).trans (by decide), ?_, ?_⟩
  · rcases hplans : runOn (ClassModel.leaseSchema.names.mapM (Plan.ofType? .java)) tornSchema with
      ⟨fault | plans, s₁⟩
    · simp [hplans, Except.isOk, Except.toBool] at hbefore
    · rw [hplans] at hlast
      cases hfault : (runOn (Plan.ofType? .java "Torn") s₁).1 with
      | ok plan => simp [hfault, Except.isOk, Except.toBool] at hlast
      | error fault =>
        exact (htorn.2.2.2.1 ClassModel.leaseSchema.names "Torn" [] plans s₁ fault rfl hplans hfault).1
  · exact htorn.2.2.2.2 [.new "types" "java"] "types" .idle [.next "types"] rfl (by simp [Session.Step.restarts])

end SchemaForge
