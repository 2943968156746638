import SchemaForge.Proofs.SoundSources

/-! The TypeScript files of a well formed schema, all of which can be written. -/
namespace SchemaForge
open Checked

namespace Width
variable {size : Value} (h : size.isSize = true)
include h

theorem succeeds_isWide : Succeeds (isWide size) := by
  rcases Value.isSize_iff.1 h with hnumber | htext
  · simp [isWide, Value.succeeds_compared.2 hnumber]
  · simp [isWide, htext]

theorem succeeds_scriptRead (array : String) : Succeeds (scriptRead size array) := by
  obtain ⟨wide, hwide⟩ := succeeds_isWide h
  simp only [scriptRead, hwide, ok_bind]
  split
  · exact succeeds_ok _
  · split <;> exact succeeds_ok _

theorem succeeds_scriptWrite : Succeeds (scriptWrite size) := by
  obtain ⟨wide, hwide⟩ := succeeds_isWide h
  simp only [scriptWrite, hwide, ok_bind]
  split
  · exact succeeds_ok _
  · split <;> exact succeeds_ok _

end Width

namespace TypeScriptClass
open Source ClassModel
variable {s₀ s : Schema} {name : String} {e : Entry}

section
variable (h₀ : s₀.WellFormed) (hs : s₀.Complete s) (h : Apt s₀ name e)
include h₀ hs h

theorem succeeds_condition (hc : e.isConditional = true) : Succeeds (condition s e) :=
  succeeds_conditionOf h₀ hs.reached h hc .typescript ""

theorem succeeds_readLines : Succeeds (readLines s e) := by
  have hread : Succeeds (readNumber e.size) := Width.succeeds_scriptRead h.sized _
  unfold readLines
  cases hk : e.kind with
  | custom =>
    by_cases hearly : e.readBefore = true
    · obtain ⟨-, c, -, -, hcondition, -⟩ := h.condition h₀ hs.reached (h.early hearly)
      simp [hearly, hcondition]
    · simp [hearly, hread]
  | array => split <;> simp
  | _ => simp [hread]

theorem succeeds_getter : Succeeds (getter s e) := by
  unfold getter
  by_cases hc : (e.isConditional && !e.isInline) = true
  · have hconditional : e.isConditional = true := by simp_all
    obtain ⟨test, discriminator, asked, value, hguard, hcondition, hasked, hvalue⟩ :=
      exists_guard h₀ hs.reached h hconditional .typescript ""
    have htest : condition s e = .ok test := hguard
    simp [hc, htest, hcondition, hasked, hvalue]
  · simp [hc]

theorem succeeds_writeLines (hname : name ∈ s₀.names) (hclass : s₀.isClass name = true)
    (m : ClassModel) : Succeeds (writeLines s m e) := by
  have hwrite : Succeeds (Width.scriptWrite e.size) := Width.succeeds_scriptWrite h.sized
  obtain ⟨write, hwrite⟩ := hwrite
  unfold writeLines
  cases hk : e.kind with
  | sizeField =>
    obtain ⟨array, own, hcounted, hown⟩ := exists_counted h₀ hs hname hclass h hk
    simp [countLines, hcounted, hown, hwrite]
  | _ => simp [hwrite]

end

section
variable (h₀ : s₀.WellFormed) (hs : s₀.Complete s) {m : ClassModel} (h : m.Fitted s₀)
include h₀ hs h

theorem succeeds_upFront : Succeeds (upFront s m) := by
  have hentries : ∀ e ∈ m.entries.filter (!·.isInline), Apt s₀ m.name e :=
    fun e he => h.entries e (List.mem_filter.1 he).1
  obtain ⟨reads, hreads⟩ := succeeds_conditionReads h₀ hs.reached hentries
  simp only [upFront, hreads, ok_bind, succeeds_bind, succeeds_mapM, pure_eq_ok, succeeds_ok,
    implies_true, and_true]
  intro p hp
  obtain ⟨e, he, -, -, hsize⟩ := (collects_conditionReads hreads).occurs p hp
  rw [← hsize]
  exact Width.succeeds_scriptRead (hentries e he).sized _

theorem succeeds_factory {choice : List Entry} (hchoice : choice ∈ m.constructors) :
    Succeeds (factory s m choice) := by
  have hapt := h.constructors choice hchoice
  obtain ⟨suffix, hsuffix⟩ := succeeds_factorySuffix hapt
  simp only [factory, hsuffix, ok_bind, succeeds_bind, succeeds_mapM, pure_eq_ok, succeeds_ok,
    implies_true, and_true]
  intro e he
  obtain ⟨type, className, value, htype, hclass, hvalue⟩ := exists_fixed h₀ hs.reached hapt he
  simp [htype, hclass, hvalue]

theorem succeeds_constructor : Succeeds (constructor s m) := by
  have hparts : ∀ code : Entry → Checked String, (∀ e, Succeeds (code e)) →
      Succeeds (parts (condition s) code
        (m.constructorParams.filter fun e => !e.isSuper && !e.isInline)) := by
    intro code hcode
    refine (succeeds_parts fun e he hc => ?_).2 fun e _ => hcode e
    obtain ⟨hparam, -⟩ := List.mem_filter.1 (List.mem_filter.1 he).1
    exact succeeds_condition h₀ hs (h.parameters e hparam) hc
  simp [constructor, hparts]

theorem succeeds_ownParts {code : Entry → Checked String} (hcode : ∀ e ∈ m.own, Succeeds (code e)) :
    Succeeds (parts (condition s) code m.own) :=
  (succeeds_parts fun e he hc => succeeds_condition h₀ hs (h.apt_own e he) hc).2 hcode

theorem succeeds_fromBinary : Succeeds (fromBinary s m) := by
  have hupFront := succeeds_upFront h₀ hs h
  have hloads : Succeeds (loadParts s m) := by
    refine (succeeds_readingParts fun e he hc => ?_).2 fun e he => ?_
    · exact succeeds_condition h₀ hs (h.apt_own e he) hc
    · simp [load, succeeds_readLines h₀ hs (h.apt_own e he)]
  simp [fromBinary, hupFront, hloads]

theorem succeeds_sizeMethod : Succeeds (sizeMethod s m) := by
  have hparts : Succeeds (sizeParts s m) := succeeds_ownParts h₀ hs h fun e _ => succeeds_ok _
  simp [sizeMethod, hparts]

theorem succeeds_serializeMethod (hname : m.name ∈ s₀.names) (hclass : s₀.isClass m.name = true) :
    Succeeds (serializeMethod s m) := by
  have hparts : Succeeds (serializeParts s m) := succeeds_ownParts h₀ hs h fun e he => by
    have hwrite := succeeds_writeLines h₀ hs (h.apt_own e he) hname hclass m
    simp [serialize, hwrite]
  simp [serializeMethod, hparts]

/-- The class of a structure can be written. -/
theorem succeeds_source (hname : m.name ∈ s₀.names) (hclass : s₀.isClass m.name = true) :
    Succeeds (source s m) := by
  have hconstructor := succeeds_constructor h₀ hs h
  have hfromBinary := succeeds_fromBinary h₀ hs h
  have hfactories : Succeeds (m.constructors.mapM (factory s m)) :=
    succeeds_mapM.2 fun choice hchoice => succeeds_factory h₀ hs h hchoice
  have hgetters : Succeeds ((shown m).mapM (getter s)) :=
    succeeds_mapM.2 fun e he => succeeds_getter h₀ hs (h.entries e (List.mem_filter.1 he).1)
  have hsize := succeeds_sizeMethod h₀ hs h
  have hserialize := succeeds_serializeMethod h₀ hs h hname hclass
  simp only [source, succeeds_bind, hconstructor, hfromBinary, hfactories, hgetters, hsize, hserialize,
    pure_eq_ok, succeeds_ok, implies_true, and_self]

end
end TypeScriptClass

section
variable {s₀ s : Schema} (h₀ : s₀.WellFormed) (hs : s₀.Complete s)
include h₀ hs

theorem TypeScriptSupport.succeeds_helper (base kind quote : String) (admits : String → Bool)
    (dispatch : Entity → List String) : Succeeds (helper base kind quote admits dispatch s) := by
  simp [helper, Entity.succeeds_select h₀ hs.reached admits]

theorem TypeScriptSupport.succeeds_index : Succeeds (index s) := by
  have hnames := Schema.names_congr hs.reached.settled
  simp only [index, succeeds_bind, succeeds_mapM, pure_eq_ok, succeeds_ok, implies_true, and_true]
  rintro ⟨name, declared⟩ hp
  have hname : name ∈ s.names := List.mem_map_of_mem hp
  rw [hnames] at hname
  have hd := Schema.get?_of_mem (hnames ▸ h₀.distinct) hp
  simp [hs.reached.className_eq h₀ hname hd]

theorem TypeScriptSupport.succeeds_source {name : String} (h : name ∈ Target.supportFiles .typescript) :
    Succeeds (Support.source .typescript s name) := by
  simp only [Target.supportFiles, List.mem_cons, List.not_mem_nil, or_false] at h
  rcases h with rfl | rfl | rfl | rfl | rfl
  · exact succeeds_ok _
  · exact succeeds_helper h₀ hs ..
  · exact succeeds_helper h₀ hs ..
  · exact succeeds_ok _
  · exact succeeds_index h₀ hs

/-- Whatever was planned for a type can be written. -/
theorem Plan.Made.succeeds_typescript {name : String} (hname : name ∈ s₀.names) {p : Plan}
    (h : Made s₀ .typescript name (some p)) : Succeeds (p.body .typescript s) := by
  cases h with
  | atom reached sort model =>
    obtain ⟨size, n, -, hn, -, hmodel⟩ := AtomModel.build_eq h₀ reached hname sort .typescript
    obtain ⟨-, hsize, -⟩ := hmodel _ model
    have hsized : size.isSize = true := Value.isSize_iff.2 (.inl ⟨n, hn⟩)
    simp [Plan.body, AtomSource.source, AtomSource.typescript, hsize, Width.succeeds_scriptRead hsized,
      Width.succeeds_scriptWrite hsized]
  | enum sort model => exact succeeds_ok _
  | struct reached sort model =>
    obtain ⟨rfl, hfitted⟩ := ClassModel.fitted_of_modelOf h₀ reached hname sort .typescript model
    exact TypeScriptClass.succeeds_source h₀ hs hfitted hname sort

end

theorem Target.knows_typescript (n : Int) : Target.Knows .typescript n := fun _ _ => succeeds_ok _

/-- A TypeScript run over a well formed schema comes to its end, with a file for every type that is not
hidden and with the support files. -/
theorem ClassRun.typescript_run_ends {s : Schema} (h : s.WellFormed) {notice : Notice}
    (hn : notice ≠ .unnamed) :
    (drain .typescript notice s).2.1 = none ∧
      (drain .typescript notice s).1.map (·.name) = s.names.filterMap (s.fileOf? .typescript) ++
        ["GeneratorUtils.ts", "TransactionHelper.ts", "EmbeddedTransactionHelper.ts", "Serializer.ts",
          "index.ts"] := by
  have hplannable : ∀ name ∈ s.names, s.Plannable .typescript name := fun name _ =>
    ⟨fun _ n _ _ => Target.knows_typescript n, fun _ n _ => Target.knows_typescript n,
      fun _ _ _ _ _ _ _ _ _ => succeeds_ok _⟩
  obtain ⟨plans, hplans⟩ := Plan.succeeds_all h hplannable
  obtain ⟨s', hall⟩ : ∃ s', runOn (Plan.all .typescript) s = (.ok plans, s') := ⟨_, Prod.ext hplans rfl⟩
  obtain ⟨hcomplete, typed, htyped, rfl⟩ := Plan.made_all h hall
  have hends : (drain .typescript notice s).2.1 = none := by
    refine (drain_eq_none hn).2 ⟨_, s', hall, fun p hp => ?_⟩
    rcases List.mem_append.1 hp with hp | hp
    · obtain ⟨name, hname, hmade⟩ := Plan.exists_name_of_made htyped hp
      exact hmade.succeeds_typescript h hcomplete hname
    · obtain ⟨name, hname, rfl⟩ := List.mem_map.1 hp
      exact TypeScriptSupport.succeeds_source h hcomplete hname
  exact ⟨hends, names_drain h hends⟩

theorem ClassRun.typescript_run_ends_sample :
    (Sample.schema 0).WellFormed ∧ (drain .typescript .absent (Sample.schema 0)).2.1 = none ∧
      (drain .typescript .absent (Sample.schema 0)).1.map (·.name) =
        (Sample.schema 0).names.filterMap ((Sample.schema 0).fileOf? .typescript) ++
          ["GeneratorUtils.ts", "TransactionHelper.ts", "EmbeddedTransactionHelper.ts", "Serializer.ts",
            "index.ts"] :=
  ⟨Sample.wellFormed, typescript_run_ends Sample.wellFormed nofun⟩

end SchemaForge
