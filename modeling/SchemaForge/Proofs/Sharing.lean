import SchemaForge.Proofs.Bare
import SchemaForge.Proofs.BuilderReads
import SchemaForge.Sample.Types
import SchemaForge.Session

/-! Runs that share a schema. What each of them answers is what it would answer alone, whatever the
others do in between: a run either reads nothing that another one writes, or has written it before. -/
namespace SchemaForge

namespace Schema

/-- A state of a schema in which planning has come to some point, once or more often. -/
def Written (s s' : Schema) : Prop := ∃ n, s' = s.markAll (s.marks.take n)

/-- A state of a schema in which planning has come to its end. -/
def Complete (s s' : Schema) : Prop := s' = s.markAll s.marks

variable {s s₁ s₂ : Schema}

theorem written_self (s : Schema) : s.Written s := ⟨0, rfl⟩

theorem Written.reached (h : s.Written s₁) : s.Reached s₁ := by
  obtain ⟨n, rfl⟩ := h
  exact ⟨_, fun _ hm => List.mem_of_mem_take hm, rfl⟩

theorem Written.along {done : Bool} (h : s.Written s₁) (ha : Along s₁ s.marks done s₂) :
    s.Written s₂ := by
  obtain ⟨n, rfl⟩ := h
  obtain ⟨k, rfl, -⟩ := ha
  exact ⟨_, s.markAll_take_take s.marks n k⟩

theorem Written.complete (h : s.Written s₁) (ha : Along s₁ s.marks true s₂) : s.Complete s₂ := by
  obtain ⟨n, rfl⟩ := h
  obtain ⟨k, rfl, hk⟩ := ha
  rw [markAll_take_take, List.take_of_length_le (Nat.le_trans (hk rfl) (Nat.le_max_right n k))]
  rfl

theorem Complete.along {done : Bool} (h : s.Complete s₁) (ha : Along s₁ s.marks done s₂) :
    s.Complete s₂ := by
  obtain rfl := h
  obtain ⟨k, rfl, -⟩ := ha
  exact markAll_of_subset fun _ hm => List.mem_of_mem_take hm

theorem Written.planned (h : s.Written s₁) (t : Target) :
    Along s₁ s.marks (runOn (Plan.all t) s₁).1.isOk (runOn (Plan.all t) s₁).2 := by
  have hmarking := Plan.marking_all t s₁
  rwa [marks_congr h.reached.settled] at hmarking

end Schema

namespace ClassRun

variable {t : Target} {notice : Notice} {s : Schema}

theorem write_congr {p p' : Plan} (h : p.bare = p'.bare) (t : Target) (notice : Notice) (s : Schema) :
    p.write t notice s = p'.write t notice s := by
  rw [← Plan.write_bare, h, Plan.write_bare]

theorem writeAll_congr {plans plans' : List Plan} (h : plans.map Plan.bare = plans'.map Plan.bare) :
    writeAll t notice s plans = writeAll t notice s plans' := by
  induction plans generalizing plans' with
  | nil =>
    obtain rfl : plans' = [] := by simpa using h.symm
    rfl
  | cons p plans ih =>
    cases plans' with
    | nil => simp at h
    | cons p' plans' =>
      obtain ⟨hp, hrest⟩ : p.bare = p'.bare ∧ plans.map Plan.bare = plans'.map Plan.bare := by
        simpa using h
      rw [writeAll, writeAll, write_congr hp, ih hrest]

/-- The first file comes after planning. -/
theorem next_started (t : Target) (notice : Notice) (s : Schema) :
    ClassRun.started.next t notice s = match (runOn (Plan.all t) s).1 with
      | .ok plans => ((nextOf t notice (runOn (Plan.all t) s).2 plans).1,
          (nextOf t notice (runOn (Plan.all t) s).2 plans).2, (runOn (Plan.all t) s).2)
      | .error fault => (.error (interrupt fault), done, (runOn (Plan.all t) s).2) := by
  simp only [ClassRun.next, runOn]
  rcases (Plan.all t).run.run s with ⟨_ | _, s'⟩ <;> rfl

theorem drain_eq (t : Target) (notice : Notice) (s : Schema) :
    ClassRun.drain t notice s = match (runOn (Plan.all t) s).1 with
      | .ok plans => ((writeAll t notice (runOn (Plan.all t) s).2 plans).1,
          (writeAll t notice (runOn (Plan.all t) s).2 plans).2, (runOn (Plan.all t) s).2)
      | .error fault => ([], some (interrupt fault), (runOn (Plan.all t) s).2) := by
  simp only [ClassRun.drain, runOn]
  rcases (Plan.all t).run.run s with ⟨_ | _, s'⟩ <;> rfl

end ClassRun

namespace BuilderRun

/-- The names with which a run has to do are those of a schema. -/
structure Within (r : BuilderRun) (s : Schema) : Prop where
  remaining : ∀ names, r.remaining = some names → ∀ name ∈ names, name ∈ s.names
  awaiting : ∀ name, r.awaiting = some name → name ∈ s.names ∧ Builder.isEligible name = true

theorem eligible_of_dropWhile {names rest : List String} {name : String}
    (h : names.dropWhile (!Builder.isEligible ·) = name :: rest) :
    Builder.isEligible name = true ∧ name ∈ names ∧ ∀ n ∈ rest, n ∈ names := by
  have hsub : ∀ n ∈ name :: rest, n ∈ names := by
    rw [← h]
    exact fun n hn => (List.dropWhile_sublist _).subset hn
  have hhead := List.head?_dropWhile_not (!Builder.isEligible ·) names
  rw [h] at hhead
  exact ⟨by simpa using hhead, hsub name (by simp), fun n hn => hsub n (by simp [hn])⟩

variable {s s₁ s₂ : Schema} {notice : Notice}

theorem Within.advance {r : BuilderRun} (h : r.Within s) : r.advance.2.Within s ∧
    ∀ name, r.advance.1 = .ok (some name) → name ∈ s.names ∧ Builder.isEligible name = true := by
  unfold BuilderRun.advance
  cases ha : r.awaiting with
  | some name => exact ⟨h, by simp⟩
  | none =>
    cases hr : r.remaining with
    | none => exact ⟨h, by simp⟩
    | some names =>
      cases hd : names.dropWhile (!Builder.isEligible ·) with
      | nil =>
        simp only [hd]
        exact ⟨⟨by simp, by simp⟩, by simp⟩
      | cons name rest =>
        obtain ⟨heligible, hname, hrest⟩ := eligible_of_dropWhile hd
        simp only [hd]
        refine ⟨⟨?_, by simp⟩, ?_⟩
        · rintro _ ⟨⟩ n hn
          exact h.remaining names hr n (hrest n hn)
        · rintro n hn
          obtain rfl : name = n := by simpa using hn
          exact ⟨h.remaining names hr name hname, heligible⟩

/-- The builders of two states of a schema are the same. -/
def FilesAlike (notice : Notice) (s s₁ s₂ : Schema) : Prop :=
  ∀ name ∈ s.names, Builder.isEligible name = true →
    Builder.headerFile s₁ notice name = Builder.headerFile s₂ notice name ∧
      Builder.codeFile s₁ notice name = Builder.codeFile s₂ notice name

theorem next_congr {r : BuilderRun} (h : r.Within s) (hf : FilesAlike notice s s₁ s₂) :
    r.next notice s₁ = r.next notice s₂ ∧ (r.next notice s₁).2.Within s := by
  unfold BuilderRun.next
  cases ha : r.awaiting with
  | some name =>
    obtain ⟨hname, heligible⟩ := h.awaiting name ha
    simp only [(hf name hname heligible).2]
    cases Builder.codeFile s₂ notice name with
    | error fault => exact ⟨trivial, h⟩
    | ok file => exact ⟨trivial, h.remaining, by simp⟩
  | none =>
    have hadvance := h.advance
    rcases hr : r.advance with ⟨fault | _ | name, r₁⟩ <;> rw [hr] at hadvance
    · exact ⟨rfl, hadvance.1⟩
    · exact ⟨rfl, hadvance.1⟩
    · obtain ⟨hname, heligible⟩ := hadvance.2 name rfl
      simp only [(hf name hname heligible).1]
      cases Builder.headerFile s₂ notice name with
      | error fault => exact ⟨trivial, hadvance.1⟩
      | ok file =>
        refine ⟨trivial, hadvance.1.remaining, ?_⟩
        rintro _ ⟨⟩
        exact ⟨hname, heligible⟩

theorem drainNames_congr (hf : FilesAlike notice s s₁ s₂) {names : List String}
    (hn : ∀ name ∈ names, name ∈ s.names) :
    drainNames notice s₁ names = drainNames notice s₂ names ∧
      (drainNames notice s₁ names).2.2.Within s := by
  induction names with
  | nil => exact ⟨rfl, by simp [drainNames], by simp [drainNames]⟩
  | cons name rest ih =>
    obtain ⟨hsame, hwithin⟩ := ih fun n hmem => hn n (by simp [hmem])
    rw [drainNames, drainNames]
    by_cases heligible : Builder.isEligible name = true
    · obtain ⟨hheader, hcode⟩ := hf name (hn name (by simp)) heligible
      have hrest : ∀ names, some rest = some names → ∀ n ∈ names, n ∈ s.names := by
        rintro _ ⟨⟩ n hmem
        exact hn n (by simp [hmem])
      simp only [heligible, Bool.not_true, Bool.false_eq_true, if_false, hheader, hcode, hsame]
      rw [hsame] at hwithin
      cases Builder.headerFile s₂ notice name with
      | error fault => exact ⟨trivial, hrest, by simp⟩
      | ok header =>
        cases Builder.codeFile s₂ notice name with
        | error fault =>
          refine ⟨trivial, hrest, ?_⟩
          rintro _ ⟨⟩
          exact ⟨hn name (by simp), heligible⟩
        | ok code => exact ⟨trivial, hwithin⟩
    · simpa [heligible] using ⟨hsame, hwithin⟩

end BuilderRun

/-- Two runs for the same product that have come to the same point, in two states of a schema. A run
with planned files has left all its marks. -/
inductive Run.Alike (s s₁ s₂ : Schema) : Run → Run → Prop where
  | idle (t : Target) : Alike s s₁ s₂ (.classes t .idle) (.classes t .idle)
  | started (t : Target) : Alike s s₁ s₂ (.classes t .started) (.classes t .started)
  | done (t : Target) : Alike s s₁ s₂ (.classes t .done) (.classes t .done)
  | pending (t : Target) {plans plans' : List Plan}
      (bare : plans.map Plan.bare = plans'.map Plan.bare) (complete : s.Complete s₁)
      (complete' : s.Complete s₂) :
      Alike s s₁ s₂ (.classes t (.pending plans)) (.classes t (.pending plans'))
  | builders {r : BuilderRun} (within : r.Within s) : Alike s s₁ s₂ (.builders r) (.builders r)

namespace Run.Alike
variable {s s₁ s₂ s₁' : Schema} {r r' : Run}

/-- The first state may be passed on by planning. -/
theorem onward (h : Alike s s₁ s₂ r r') (hs : s.Complete s₁ → s.Complete s₁') :
    Alike s s₁' s₂ r r' := by
  cases h with
  | idle t => exact .idle t
  | started t => exact .started t
  | done t => exact .done t
  | pending t bare complete complete' => exact .pending t bare (hs complete) complete'
  | builders within => exact .builders within

theorem start (h : Alike s s₁ s₂ r r') (h₁ : s.Written s₁) (h₂ : s.Written s₂) :
    Alike s s₁ s₂ (r.start s₁) (r'.start s₂) := by
  have names : ∀ {s'}, s.Written s' → s'.names = s.names := fun hw =>
    Schema.names_congr hw.reached.settled
  cases h with
  | builders within =>
    rw [Run.start, Run.start, BuilderRun.start, BuilderRun.start, names h₁, names h₂]
    refine .builders ⟨?_, by simp⟩
    rintro _ ⟨⟩ name hname
    exact hname
  | _ => exact .started _

theorem advance (h : Alike s s₁ s₂ r r') : r.advance.1 = r'.advance.1 ∧
    Alike s s₁ s₂ r.advance.2 r'.advance.2 := by
  cases h with
  | idle t => exact ⟨rfl, .idle t⟩
  | started t => exact ⟨rfl, .started t⟩
  | done t => exact ⟨rfl, .done t⟩
  | pending t bare complete complete' => exact ⟨rfl, .pending t bare complete complete'⟩
  | builders within => exact ⟨rfl, .builders within.advance.1⟩

/-- The next file of planned ones. -/
theorem nextOf (t : Target) (notice : Notice) {plans plans' : List Plan}
    (hb : plans.map Plan.bare = plans'.map Plan.bare) (h₁ : s.Complete s₁) (h₂ : s.Complete s₂) :
    (ClassRun.nextOf t notice s₁ plans).1 = (ClassRun.nextOf t notice s₂ plans').1 ∧
      Alike s s₁ s₂ (.classes t (ClassRun.nextOf t notice s₁ plans).2)
        (.classes t (ClassRun.nextOf t notice s₂ plans').2) := by
  obtain rfl : s₁ = s₂ := h₁.trans h₂.symm
  cases plans with
  | nil =>
    obtain rfl : plans' = [] := by simpa using hb.symm
    exact ⟨rfl, .done t⟩
  | cons p plans =>
    cases plans' with
    | nil => simp at hb
    | cons p' plans' =>
      obtain ⟨hp, hrest⟩ : p.bare = p'.bare ∧ plans.map Plan.bare = plans'.map Plan.bare := by
        simpa using hb
      rw [ClassRun.nextOf, ClassRun.nextOf, ClassRun.write_congr hp]
      cases p'.write t notice s₁ with
      | error fault => exact ⟨rfl, .done t⟩
      | ok file => exact ⟨rfl, .pending t hrest h₁ h₂⟩

/-- The outcome of planning in two states. -/
theorem planned (hc : s.Clear) (h₁ : s.Written s₁) (h₂ : s.Written s₂) (t : Target) :
    (∃ fault, (runOn (Plan.all t) s₁).1 = .error fault ∧ (runOn (Plan.all t) s₂).1 = .error fault) ∨
      ∃ plans plans', (runOn (Plan.all t) s₁).1 = .ok plans ∧
        (runOn (Plan.all t) s₂).1 = .ok plans' ∧ plans.map Plan.bare = plans'.map Plan.bare ∧
        s.Complete (runOn (Plan.all t) s₁).2 ∧ s.Complete (runOn (Plan.all t) s₂).2 := by
  have hplans := Plan.all_congr hc h₁.reached h₂.reached t
  have hend := h₁.planned t
  have hend' := h₂.planned t
  cases hr : (runOn (Plan.all t) s₁).1 with
  | error fault =>
    cases hr' : (runOn (Plan.all t) s₂).1 with
    | error fault' =>
      obtain rfl : fault = fault' := by simpa [hr, hr'] using hplans
      exact .inl ⟨fault, rfl, rfl⟩
    | ok plans' => simp [hr, hr'] at hplans
  | ok plans =>
    cases hr' : (runOn (Plan.all t) s₂).1 with
    | error fault' => simp [hr, hr'] at hplans
    | ok plans' =>
      rw [hr] at hend
      rw [hr'] at hend'
      exact .inr ⟨plans, plans', rfl, rfl, by simpa [hr, hr'] using hplans, h₁.complete hend,
        h₂.complete hend'⟩

theorem next (hc : s.Clear) (hb : s.PlainBodies) (h₁ : s.Written s₁) (h₂ : s.Written s₂)
    (h : Alike s s₁ s₂ r r') (notice : Notice) :
    (r.next notice s₁).1 = (r'.next notice s₂).1 ∧
      Alike s (r.next notice s₁).2.2 (r'.next notice s₂).2.2 (r.next notice s₁).2.1
        (r'.next notice s₂).2.1 := by
  cases h with
  | idle t => exact ⟨rfl, .idle t⟩
  | done t => exact ⟨rfl, .done t⟩
  | pending t bare complete complete' => exact nextOf t notice bare complete complete'
  | builders within =>
    have hf : BuilderRun.FilesAlike notice s s₁ s₂ := fun name hname heligible =>
      Builder.files_congr hb h₁.reached.settled h₂.reached.settled hname heligible notice
    obtain ⟨hsame, hwithin⟩ := BuilderRun.next_congr within hf
    simp only [Run.next, hsame]
    rw [hsame] at hwithin
    exact ⟨trivial, .builders hwithin⟩
  | started t =>
    simp only [Run.next, ClassRun.next_started]
    rcases planned hc h₁ h₂ t with ⟨fault, hr, hr'⟩ | ⟨plans, plans', hr, hr', hbare, hend, hend'⟩
    · simp only [hr, hr']
      exact ⟨trivial, .done t⟩
    · simp only [hr, hr']
      exact nextOf t notice hbare hend hend'

theorem drain (hc : s.Clear) (hb : s.PlainBodies) (h₁ : s.Written s₁) (h₂ : s.Written s₂)
    (h : Alike s s₁ s₂ r r') (notice : Notice) :
    ((r.drain notice s₁).1 = (r'.drain notice s₂).1 ∧
      (r.drain notice s₁).2.1 = (r'.drain notice s₂).2.1) ∧
      Alike s (r.drain notice s₁).2.2.2 (r'.drain notice s₂).2.2.2 (r.drain notice s₁).2.2.1
        (r'.drain notice s₂).2.2.1 := by
  have classes : ∀ t, ((ClassRun.drain t notice s₁).1 = (ClassRun.drain t notice s₂).1 ∧
      (ClassRun.drain t notice s₁).2.1 = (ClassRun.drain t notice s₂).2.1) := by
    intro t
    simp only [ClassRun.drain_eq]
    rcases planned hc h₁ h₂ t with ⟨fault, hr, hr'⟩ | ⟨plans, plans', hr, hr', hbare, hend, hend'⟩
    · simp only [hr, hr', and_self]
    · have hsame : (runOn (Plan.all t) s₁).2 = (runOn (Plan.all t) s₂).2 := hend.trans hend'.symm
      simp only [hr, hr', hsame, ClassRun.writeAll_congr hbare, and_self]
  cases h with
  | builders within =>
    have hf : BuilderRun.FilesAlike notice s s₁ s₂ := fun name hname heligible =>
      Builder.files_congr hb h₁.reached.settled h₂.reached.settled hname heligible notice
    have names : ∀ {s'}, s.Written s' → s'.names = s.names := fun hw =>
      Schema.names_congr hw.reached.settled
    obtain ⟨hsame, hwithin⟩ := BuilderRun.drainNames_congr hf fun name (hmem : name ∈ s.names) => hmem
    rw [hsame] at hwithin
    simp only [Run.drain, BuilderRun.drain, names h₁, names h₂, hsame]
    exact ⟨⟨trivial, trivial⟩, .builders hwithin⟩
  | idle t => exact ⟨classes t, .done t⟩
  | started t => exact ⟨classes t, .done t⟩
  | done t => exact ⟨classes t, .done t⟩
  | pending t => exact ⟨classes t, .done t⟩

end Run.Alike

namespace Run
variable {s s₁ : Schema}

/-- A state of a schema that planning has passed on. -/
def Onward (s s₁ s₂ : Schema) : Prop := s.Written s₂ ∧ (s.Complete s₁ → s.Complete s₂)

theorem onward_planned (h : s.Written s₁) (t : Target) : Onward s s₁ (runOn (Plan.all t) s₁).2 :=
  ⟨h.along (h.planned t), fun hc => hc.along (h.planned t)⟩

theorem onward_next (h : s.Written s₁) (r : Run) (notice : Notice) :
    Onward s s₁ (r.next notice s₁).2.2 := by
  have same : Onward s s₁ s₁ := ⟨h, id⟩
  cases r with
  | builders progress => exact same
  | classes t progress =>
    cases progress with
    | started =>
      simp only [Run.next, ClassRun.next_started]
      cases (runOn (Plan.all t) s₁).1 <;> exact onward_planned h t
    | _ => exact same

theorem onward_drain (h : s.Written s₁) (r : Run) (notice : Notice) :
    Onward s s₁ (r.drain notice s₁).2.2.2 := by
  cases r with
  | builders progress => exact ⟨h, id⟩
  | classes t progress =>
    simp only [Run.drain, ClassRun.drain_eq]
    cases (runOn (Plan.all t) s₁).1 <;> exact onward_planned h t

end Run

namespace Value

/-- A key as it is compared with others: truth values are numbers. -/
def keyForm : Value → Value
  | bool b => int (if b then 1 else 0)
  | v => v

theorem beq_iff_keyForm {v w : Value} (hv : v.isKey = true) (hw : w.isKey = true) :
    (v == w) = true ↔ v.keyForm = w.keyForm := by
  cases v <;> cases w <;>
    simp_all [BEq.beq, same, number?, keyForm, isKey]

theorem isKey_of_beq {v w : Value} (h : (v == w) = true) : v.isKey = w.isKey := by
  cases v <;> cases w <;> simp_all [BEq.beq, same, number?, isKey]

end Value

namespace Session

theorem lookup_congr {runs : List (Value × Run)} (hk : ∀ p ∈ runs, p.1.isKey = true) {id id' : Value}
    (hid : id.isKey = true) (hid' : id'.isKey = true) (h : id.keyForm = id'.keyForm) :
    runs.lookup id = runs.lookup id' := by
  induction runs with
  | nil => rfl
  | cons p runs ih =>
    have hp := hk p (by simp)
    have hsame : (id == p.1) = (id' == p.1) := by
      rw [Bool.eq_iff_iff, Value.beq_iff_keyForm hid hp, Value.beq_iff_keyForm hid' hp, h]
    rw [List.lookup_cons, List.lookup_cons, hsame, ih fun q hq => hk q (by simp [hq])]

theorem lookup_put {runs : List (Value × Run)} (hk : ∀ p ∈ runs, p.1.isKey = true) {id id' : Value}
    (hid : id.isKey = true) (hid' : id'.isKey = true) (run : Run) :
    (put id' run runs).lookup id = if id' == id then some run else runs.lookup id := by
  have swap : ∀ {v w : Value}, v.isKey = true → w.isKey = true → (v == w) = (w == v) := by
    intro v w hv hw
    rw [Bool.eq_iff_iff, Value.beq_iff_keyForm hv hw, Value.beq_iff_keyForm hw hv, eq_comm]
  induction runs with
  | nil =>
    rw [put, List.lookup_cons, List.lookup_nil, swap hid hid']
    cases id' == id <;> rfl
  | cons p runs ih =>
    obtain ⟨i, r⟩ := p
    have hi : i.isKey = true := hk (i, r) (by simp)
    have ih := ih fun q hq => hk q (by simp [hq])
    rw [put]
    by_cases hput : (i == id') = true
    · have hsame : (id == i) = (id' == id) := by
        have hform := (Value.beq_iff_keyForm hi hid').1 hput
        rw [Bool.eq_iff_iff, Value.beq_iff_keyForm hid hi, Value.beq_iff_keyForm hid' hid, hform,
          eq_comm]
      rw [if_pos hput, List.lookup_cons, List.lookup_cons, hsame]
      cases id' == id <;> rfl
    · rw [if_neg hput, List.lookup_cons, List.lookup_cons, ih]
      by_cases hmeet : (id == i) = true
      · have hne : (id' == id) = false := by
          rw [Bool.eq_false_iff]
          intro heq
          apply hput
          rw [Value.beq_iff_keyForm hi hid', (Value.beq_iff_keyForm hid' hid).1 heq,
            (Value.beq_iff_keyForm hid hi).1 hmeet]
        simp [hmeet, hne]
      · simp [hmeet]

theorem keys_put {runs : List (Value × Run)} (hk : ∀ p ∈ runs, p.1.isKey = true) {id : Value}
    (hid : id.isKey = true) (run : Run) : ∀ p ∈ put id run runs, p.1.isKey = true := by
  induction runs with
  | nil => simpa [put] using hid
  | cons p runs ih =>
    obtain ⟨i, r⟩ := p
    have hi : i.isKey = true := hk (i, r) (by simp)
    have hrest : ∀ q ∈ runs, q.1.isKey = true := fun q hq => hk q (by simp [hq])
    rw [put]
    intro q hq
    split at hq
    · rcases List.mem_cons.1 hq with rfl | hmem
      · exact hi
      · exact hrest q hmem
    · rcases List.mem_cons.1 hq with rfl | hmem
      · exact hi
      · exact ih hrest q hmem

/-- The name of the run for which a step is. -/
def Step.id? : Step → Option Value
  | .new id _ | .start id | .next id | .drain id | .advance id => some id
  | .show _ => none

/-- Whether a step is for the run of a name. -/
def Step.isFor (id : Value) (step : Step) : Bool := step.id?.any (· == id)

/-- What the run of a name answers when steps for any runs follow one another. -/
def answersOf (session : Session) (id : Value) (steps : List Step) : List (Checked Answer) :=
  ((steps.zip (session.run steps)).filter fun p => p.1.isFor id).map (·.2)

/-- A session with runs of any names and one with the run of a single name, which has come to the same
point in both. -/
structure Alongside (s : Schema) (id : Value) (shared alone : Session) : Prop where
  notice : shared.notice = alone.notice
  keys : ∀ p ∈ shared.runs, p.1.isKey = true
  keys' : ∀ p ∈ alone.runs, p.1.isKey = true
  written : s.Written shared.schema
  written' : s.Written alone.schema
  run : id.isKey = true → Option.Rel (Run.Alike s shared.schema alone.schema)
    (shared.runs.lookup id) (alone.runs.lookup id)

namespace Alongside
variable {s : Schema} {id i : Value} {shared alone : Session}

theorem keep_other (h : Alongside s id shared alone) (hi : i.isKey = true) (hne : (i == id) = false)
    {run : Run} {s₁ : Schema} (hs : Run.Onward s shared.schema s₁) :
    Alongside s id (shared.keep i run s₁) alone where
  notice := h.notice
  keys := keys_put h.keys hi run
  keys' := h.keys'
  written := hs.1
  written' := h.written'
  run hid := by
    have hlookup := lookup_put h.keys hid hi run
    rw [hne, if_neg (by simp)] at hlookup
    have hrun := h.run hid
    rw [keep, hlookup]
    generalize shared.runs.lookup id = found at hrun
    generalize alone.runs.lookup id = found' at hrun
    cases hrun with
    | none => exact .none
    | some halike => exact .some (halike.onward hs.2)

theorem keep_own (h : Alongside s id shared alone) (hi : i.isKey = true) (heq : (i == id) = true)
    {run run' : Run} {s₁ s₂ : Schema} (h₁ : s.Written s₁) (h₂ : s.Written s₂)
    (hr : Run.Alike s s₁ s₂ run run') :
    Alongside s id (shared.keep i run s₁) (alone.keep i run' s₂) where
  notice := h.notice
  keys := keys_put h.keys hi run
  keys' := keys_put h.keys' hi run'
  written := h₁
  written' := h₂
  run hid := by
    rw [keep, keep, lookup_put h.keys hid hi run, lookup_put h.keys' hid hi run', if_pos heq,
      if_pos heq]
    exact .some hr

theorem withRun_other (h : Alongside s id shared alone) (hne : (i == id) = false)
    {act : Run → Checked Answer × Run × Schema}
    (ha : ∀ run, Run.Onward s shared.schema (act run).2.2) :
    Alongside s id (shared.withRun i act).2 alone := by
  unfold withRun Value.asKey
  by_cases hi : i.isKey = true
  · simp only [hi, if_true]
    cases shared.runs.lookup i with
    | none => exact h
    | some run => exact h.keep_other hi hne (ha run)
  · simpa [hi] using h

theorem withRun_own (h : Alongside s id shared alone) (heq : (i == id) = true)
    {act act' : Run → Checked Answer × Run × Schema}
    (ha : ∀ run run', Run.Alike s shared.schema alone.schema run run' →
      (act run).1 = (act' run').1 ∧ s.Written (act run).2.2 ∧ s.Written (act' run').2.2 ∧
        Run.Alike s (act run).2.2 (act' run').2.2 (act run).2.1 (act' run').2.1) :
    (shared.withRun i act).1 = (alone.withRun i act').1 ∧
      Alongside s id (shared.withRun i act).2 (alone.withRun i act').2 := by
  unfold withRun Value.asKey
  by_cases hi : i.isKey = true
  · have hid : id.isKey = true := (Value.isKey_of_beq heq).symm.trans hi
    have hform := (Value.beq_iff_keyForm hi hid).1 heq
    have hrun := h.run hid
    rw [← lookup_congr h.keys hi hid hform, ← lookup_congr h.keys' hi hid hform] at hrun
    simp only [hi, if_true]
    generalize shared.runs.lookup i = found at hrun
    generalize alone.runs.lookup i = found' at hrun
    cases hrun with
    | none => exact ⟨rfl, h⟩
    | @some run run' halike =>
      obtain ⟨hanswer, h₁, h₂, hnext⟩ := ha run run' halike
      exact ⟨hanswer, h.keep_own hi heq h₁ h₂ hnext⟩
  · simpa [hi] using h

theorem step_other (h : Alongside s id shared alone) {step : Step} (hs : step.isFor id = false) :
    Alongside s id (shared.step step).2 alone := by
  have same : Run.Onward s shared.schema shared.schema := ⟨h.written, fun hc => hc⟩
  cases step with
  | new i product =>
    have hne : (i == id) = false := by simpa [Step.isFor, Step.id?] using hs
    simp only [step]
    cases Product.ofName product with
    | error fault => exact h
    | ok product =>
      by_cases hi : i.isKey = true
      · simpa [Value.asKey, hi] using h.keep_other hi hne same
      · simpa [Value.asKey, hi] using h
  | start i => exact h.withRun_other (by simpa [Step.isFor, Step.id?] using hs) fun _ => same
  | next i =>
    refine h.withRun_other (by simpa [Step.isFor, Step.id?] using hs) fun run => ?_
    exact Run.onward_next h.written run shared.notice
  | drain i =>
    refine h.withRun_other (by simpa [Step.isFor, Step.id?] using hs) fun run => ?_
    have honward := Run.onward_drain h.written run shared.notice
    generalize run.drain shared.notice shared.schema = out at honward
    obtain ⟨files, _ | fault, run₁, s₁⟩ := out <;> exact honward
  | advance i => exact h.withRun_other (by simpa [Step.isFor, Step.id?] using hs) fun _ => same
  | «show» type => exact h

theorem step_own (hc : s.Clear) (hb : s.PlainBodies) (h : Alongside s id shared alone) {step : Step}
    (hs : step.isFor id = true) : (shared.step step).1 = (alone.step step).1 ∧
      Alongside s id (shared.step step).2 (alone.step step).2 := by
  cases step with
  | new i product =>
    have heq : (i == id) = true := by simpa [Step.isFor, Step.id?] using hs
    simp only [step]
    cases Product.ofName product with
    | error fault => exact ⟨rfl, h⟩
    | ok product =>
      by_cases hi : i.isKey = true
      · have halike : Run.Alike s shared.schema alone.schema (.idle product) (.idle product) := by
          cases product with
          | classes t => exact .idle t
          | builders => exact .builders ⟨by simp, by simp⟩
        simpa [Value.asKey, hi] using h.keep_own hi heq h.written h.written' halike
      · simpa [Value.asKey, hi] using h
  | start i =>
    refine h.withRun_own (by simpa [Step.isFor, Step.id?] using hs) fun run run' halike => ?_
    exact ⟨rfl, h.written, h.written', halike.start h.written h.written'⟩
  | next i =>
    refine h.withRun_own (by simpa [Step.isFor, Step.id?] using hs) fun run run' halike => ?_
    obtain ⟨hfile, hnext⟩ := halike.next hc hb h.written h.written' shared.notice
    have hwritten := (Run.onward_next h.written run shared.notice).1
    have hwritten' := (Run.onward_next h.written' run' shared.notice).1
    rw [← h.notice]
    exact ⟨congrArg (Except.map Answer.file) hfile, hwritten, hwritten', hnext⟩
  | drain i =>
    refine h.withRun_own (by simpa [Step.isFor, Step.id?] using hs) fun run run' halike => ?_
    obtain ⟨⟨hfiles, hfault⟩, hnext⟩ := halike.drain hc hb h.written h.written' shared.notice
    have hwritten := (Run.onward_drain h.written run shared.notice).1
    have hwritten' := (Run.onward_drain h.written' run' shared.notice).1
    rw [← h.notice]
    generalize run.drain shared.notice shared.schema = out at hfiles hfault hnext hwritten
    generalize run'.drain shared.notice alone.schema = out' at hfiles hfault hnext hwritten'
    obtain ⟨files, fault, run₁, s₁⟩ := out
    obtain ⟨files', fault', run₁', s₁'⟩ := out'
    obtain rfl : files = files' := hfiles
    obtain rfl : fault = fault' := hfault
    cases fault <;> exact ⟨rfl, hwritten, hwritten', hnext⟩
  | advance i =>
    refine h.withRun_own (by simpa [Step.isFor, Step.id?] using hs) fun run run' halike => ?_
    obtain ⟨hname, hnext⟩ := halike.advance
    exact ⟨congrArg (Except.map Answer.name) hname, h.written, h.written', hnext⟩
  | «show» type => simp [Step.isFor, Step.id?] at hs

end Alongside

theorem answersOf_cons (session : Session) (id : Value) (step : Step) (steps : List Step) :
    session.answersOf id (step :: steps) = if step.isFor id then
      (session.step step).1 :: (session.step step).2.answersOf id steps
      else (session.step step).2.answersOf id steps := by
  simp only [answersOf, run, List.zip_cons_cons, List.filter_cons]
  split <;> rfl

theorem answersOf_alongside {s : Schema} (hc : s.Clear) (hb : s.PlainBodies) {id : Value}
    {shared alone : Session} (h : Alongside s id shared alone) (steps : List Step) :
    shared.answersOf id steps = alone.run (steps.filter (Step.isFor id)) := by
  induction steps generalizing shared alone with
  | nil => rfl
  | cons step steps ih =>
    rw [answersOf_cons, List.filter_cons]
    by_cases hs : step.isFor id = true
    · obtain ⟨hanswer, hnext⟩ := h.step_own hc hb hs
      rw [if_pos hs, if_pos hs, run, hanswer, ih hnext]
    · rw [if_neg hs, if_neg hs]
      exact ih (h.step_other (by simpa using hs))

/-- Runs that share a schema do not disturb one another: each of them gives the answers that it gives
when its own steps alone are taken from a fresh copy of the schema. -/
theorem answersOf_eq_run (s : Schema) (notice : Notice) (hc : s.Clear) (hb : s.PlainBodies)
    (id : Value) (steps : List Step) :
    answersOf { schema := s, notice } id steps =
      run { schema := s, notice } (steps.filter (Step.isFor id)) := by
  apply answersOf_alongside hc hb
  exact {
    notice := rfl
    keys := by simp
    keys' := by simp
    written := s.written_self
    written' := s.written_self
    run := fun _ => .none }

/-- Three runs on the sample schema take turns. A step is for a run that does not exist, and one run
starts again in the middle. -/
def turns : List Step :=
  [.new "types" "java", .new "builders" "cpp_builder", .start "types", .start "builders",
    .next "builders", .next "types", .new "scripts" "typescript", .next "nobody", .drain "scripts",
    .next "builders", .start "types", .next "types", .advance "builders", .drain "builders"]

theorem answersOf_eq_run_sample : (Sample.schema 0).Clear ∧ (Sample.schema 0).PlainBodies ∧
    answersOf { schema := Sample.schema 0, notice := .absent } "builders" turns =
      run { schema := Sample.schema 0, notice := .absent }
        [.new "builders" "cpp_builder", .start "builders", .next "builders", .next "builders",
          .advance "builders", .drain "builders"] := by
  have hclear : (Sample.schema 0).Clear := by decide +kernel
  have hplain : (Sample.schema 0).PlainBodies := by decide +kernel
  exact ⟨hclear, hplain, answersOf_eq_run _ .absent hclear hplain "builders" turns⟩

end Session
end SchemaForge
