import Mathlib.Data.List.Forall2
import SchemaForge.Proofs.Accessors
import SchemaForge.Proofs.Conclusive

/-! Runs over the builders. A run ends when no transaction is left, or with the first file that cannot
be written; one that ends without a fault has written all files, unless a field depends on another one
that its body does not have. -/
namespace SchemaForge

open Checked

namespace Builder
variable {s : Schema} {notice : Notice} {name : String}

/-- The name of the builder for a transaction. -/
def nameFor (transaction : String) : String :=
  Text.dropEnd "Transaction".length transaction ++ "Builder"

/-- The fixed fields in the body of a transaction depend on fields of the same body. -/
def AnchoredBody (s : Schema) (name : String) : Prop :=
  ∀ fields, (s.need (.text (name ++ "Body")) >>= Value.layout) = .ok fields → Anchored fields

instance (s : Schema) (name : String) : Decidable (AnchoredBody s name) :=
  inferInstanceAs (Decidable (∀ fields, (s.need (.text (name ++ "Body")) >>= Value.layout) =
    .ok fields → Anchored fields))

theorem name_of_fileOf {writing : Builder → Writing Unit} {extension : String} {file : SourceFile}
    (h : fileOf writing extension s notice name = .ok file) :
    file.name = nameFor name ++ extension := by
  obtain ⟨⟨b, start⟩, hstart, h⟩ := Checked.bind_eq_ok.1 h
  obtain ⟨b', hb, hstart⟩ := Checked.bind_eq_ok.1 hstart
  obtain ⟨opening, -, hstart⟩ := Checked.bind_eq_ok.1 hstart
  obtain ⟨rfl, rfl⟩ := Prod.mk.inj (Except.ok.inj hstart)
  obtain ⟨⟨⟩, -, h⟩ := Checked.bind_eq_ok.1 h
  obtain ⟨hints, -, rfl⟩ := Checked.return_eq_ok.1 hb
  obtain rfl := Except.ok.inj h
  rfl

theorem conclusive_fileOf {writing : Builder → Writing Unit} {extension : String}
    (h : ∀ b, ofTransaction s name = .ok b → Concludes (writing b)) :
    Conclusive (fileOf writing extension s notice name) := by
  have hstart : Conclusive (start s notice name) := by simp [start, ofTransaction]
  simp only [fileOf, conclusive_bind, hstart, true_and]
  rintro ⟨b, sheet⟩ hmade
  obtain ⟨b', hb, hmade⟩ := Checked.bind_eq_ok.1 hmade
  obtain ⟨opening, -, hmade⟩ := Checked.bind_eq_ok.1 hmade
  obtain ⟨rfl, rfl⟩ := Prod.mk.inj (Except.ok.inj hmade)
  exact conclusive_bind.2 ⟨h b' hb _, fun _ _ => conclusive_ok _⟩

theorem conclusive_headerFile (s : Schema) (notice : Notice) (name : String) :
    Conclusive (headerFile s notice name) :=
  conclusive_fileOf fun b _ => concludes_header b

theorem conclusive_codeFile (notice : Notice) (h : AnchoredBody s name) :
    Conclusive (codeFile s notice name) := by
  apply conclusive_fileOf
  intro b hb
  obtain ⟨hints, -, rfl⟩ := Checked.return_eq_ok.1 hb
  exact concludes_implementation h

end Builder

namespace BuilderRun
variable {s : Schema} {notice : Notice} {files : List SourceFile} {run : BuilderRun}

/-- The two files of a transaction. -/
structure IsPair (notice : Notice) (s : Schema) (name : String) (pair : SourceFile × SourceFile) :
    Prop where
  header : Builder.headerFile s notice name = .ok pair.1
  headerName : pair.1.name = Builder.nameFor name ++ ".h"
  code : Builder.codeFile s notice name = .ok pair.2
  codeName : pair.2.name = Builder.nameFor name ++ ".cpp"

/-- The files of all transactions among some names, header and implementation in turn. -/
def Complete (notice : Notice) (s : Schema) (names : List String) (files : List SourceFile) : Prop :=
  ∃ pairs, List.Forall₂ (IsPair notice s) (names.filter Builder.isEligible) pairs ∧
    files = pairs.flatMap fun pair => [pair.1, pair.2]

theorem fault?_ne_none {α : Type} {fault : Fault} (h : Conclusive (.error fault : Checked α)) :
    fault? fault ≠ none := by
  cases fault <;> simp_all [fault?]

theorem complete_nil : Complete notice s [] files ↔ files = [] := by
  simp [Complete]

theorem complete_cons_skip {name : String} {rest : List String}
    (h : Builder.isEligible name = false) :
    Complete notice s (name :: rest) files ↔ Complete notice s rest files := by
  simp [Complete, h]

theorem complete_cons_pair {name : String} {rest : List String}
    (h : Builder.isEligible name = true) :
    Complete notice s (name :: rest) files ↔ ∃ pair others, IsPair notice s name pair ∧
      Complete notice s rest others ∧ files = pair.1 :: pair.2 :: others := by
  simp only [Complete, List.filter_cons, h, if_true, List.forall₂_cons_left_iff]
  constructor
  · rintro ⟨_, ⟨pair, pairs, hpair, hpairs, rfl⟩, rfl⟩
    exact ⟨pair, _, hpair, ⟨pairs, hpairs, rfl⟩, rfl⟩
  · rintro ⟨pair, _, hpair, ⟨pairs, hpairs, rfl⟩, rfl⟩
    exact ⟨_, ⟨pair, pairs, hpair, hpairs, rfl⟩, rfl⟩

theorem drainNames_cons_skip {name : String} {rest : List String}
    (h : Builder.isEligible name = false) :
    drainNames notice s (name :: rest) = drainNames notice s rest := by
  simp [drainNames, h]

/-- A transaction whose files can be written comes before the files of the other names. -/
theorem drainNames_cons_ok {name : String} {rest : List String} {header code : SourceFile}
    (he : Builder.isEligible name = true) (hh : Builder.headerFile s notice name = .ok header)
    (hc : Builder.codeFile s notice name = .ok code) :
    drainNames notice s (name :: rest) = (files, none, run) ↔
      ∃ others, drainNames notice s rest = (others, none, run) ∧ files = header :: code :: others := by
  rcases hr : drainNames notice s rest with ⟨others, fault, last⟩
  simp only [drainNames, he, hh, hc, hr, Bool.not_true, Bool.false_eq_true, if_false, Prod.mk.injEq]
  constructor
  · rintro ⟨rfl, rfl, rfl⟩
    exact ⟨others, ⟨rfl, rfl, rfl⟩, rfl⟩
  · rintro ⟨_, ⟨rfl, rfl, rfl⟩, rfl⟩
    exact ⟨rfl, rfl, rfl⟩

theorem drainNames_eq_iff {names : List String}
    (h : ∀ name ∈ names, Builder.isEligible name = true → Builder.AnchoredBody s name) :
    drainNames notice s names = (files, none, run) ↔
      run = { remaining := some [] } ∧ Complete notice s names files := by
  induction names generalizing files with
  | nil => simp [drainNames, complete_nil, eq_comm, and_comm]
  | cons name rest ih =>
    have hrest := fun files => @ih files fun other hother => h other (by simp [hother])
    by_cases he : Builder.isEligible name = true
    · have hheader := Builder.conclusive_headerFile s notice name
      have hcode := Builder.conclusive_codeFile notice (h name (by simp) he)
      rw [complete_cons_pair he]
      cases hh : Builder.headerFile s notice name with
      | error fault =>
        have hfault := fault?_ne_none (hh ▸ hheader)
        have hpair : ∀ pair, ¬IsPair notice s name pair := fun pair hpair => by
          simpa [hh] using hpair.header
        simp [drainNames, he, hh, hfault, hpair]
      | ok header =>
        cases hc : Builder.codeFile s notice name with
        | error fault =>
          have hfault := fault?_ne_none (hc ▸ hcode)
          have hpair : ∀ pair, ¬IsPair notice s name pair := fun pair hpair => by
            simpa [hc] using hpair.code
          simp [drainNames, he, hh, hc, hfault, hpair]
        | ok code =>
          rw [drainNames_cons_ok he hh hc]
          constructor
          · rintro ⟨others, hothers, rfl⟩
            obtain ⟨hrun, hcomplete⟩ := (hrest others).1 hothers
            have hpair : IsPair notice s name (header, code) :=
              ⟨hh, Builder.name_of_fileOf hh, hc, Builder.name_of_fileOf hc⟩
            exact ⟨hrun, _, others, hpair, hcomplete, rfl⟩
          · rintro ⟨hrun, pair, others, hpair, hcomplete, rfl⟩
            obtain rfl := Except.ok.inj (hh.symm.trans hpair.header)
            obtain rfl := Except.ok.inj (hc.symm.trans hpair.code)
            exact ⟨others, (hrest others).2 ⟨hrun, hcomplete⟩, rfl⟩
    · have hskip := Bool.eq_false_iff.2 he
      rw [drainNames_cons_skip hskip, complete_cons_skip hskip]
      exact hrest files

/-- A run over the builders ends without a fault exactly when it gives the header and the implementation
of every transaction, in the order of the schema. -/
theorem drain_eq_iff (h : ∀ name ∈ s.names, Builder.isEligible name = true →
      Builder.AnchoredBody s name) :
    drain notice s = (files, none, run) ↔
      run = { remaining := some [] } ∧ Complete notice s s.names files :=
  drainNames_eq_iff h

theorem drain_eq_iff_registration : ∃ header code,
    (∀ name ∈ Builder.registration.names, Builder.isEligible name = true →
      Builder.AnchoredBody Builder.registration name) ∧
    drain .absent Builder.registration = ([header, code], none, { remaining := some [] }) ∧
    Complete .absent Builder.registration Builder.registration.names [header, code] ∧
    header.name = "NamespaceRegistrationBuilder.h" ∧
    code.name = "NamespaceRegistrationBuilder.cpp" := by
  obtain ⟨header, hh⟩ := Builder.exists_header_registration
  obtain ⟨code, hc⟩ := Builder.exists_code_registration
  have hanchored : ∀ name ∈ Builder.registration.names, Builder.isEligible name = true →
      Builder.AnchoredBody Builder.registration name := by decide +kernel
  have hskip : Builder.isEligible "NamespaceRegistrationType" = false ∧
      Builder.isEligible "NamespaceRegistrationTransactionBody" = false := by decide +kernel
  have heligible : Builder.isEligible "NamespaceRegistrationTransaction" = true := by decide +kernel
  have hdrain : drain .absent Builder.registration =
      ([header, code], none, { remaining := some [] }) := by
    have hnames : Builder.registration.names = ["NamespaceRegistrationType",
      "NamespaceRegistrationTransactionBody", "NamespaceRegistrationTransaction"] := rfl
    rw [drain, hnames, drainNames_cons_skip hskip.1, drainNames_cons_skip hskip.2]
    exact (drainNames_cons_ok heligible hh hc).2 ⟨[], rfl, rfl⟩
  have hname : Builder.nameFor "NamespaceRegistrationTransaction" =
      "NamespaceRegistrationBuilder" := by decide +kernel
  refine ⟨header, code, hanchored, hdrain, ((drain_eq_iff hanchored).1 hdrain).2, ?_, ?_⟩
  · rw [Builder.name_of_fileOf hh, hname]
    rfl
  · rw [Builder.name_of_fileOf hc, hname]
    rfl

end BuilderRun
end SchemaForge
