import SchemaForge.Proofs.Entries
import SchemaForge.Proofs.Marks

/-! The marks that planning leaves in a schema. They can be told beforehand from any state of the schema,
and planning that fails leaves the first of them. -/
namespace SchemaForge

/-- The mark of a class at an attribute that it takes from another structure. -/
def Site.ownerMarks (name : String) (site : Site) : List Mark :=
  if site.owner = name || isHidden site.owner then [] else [.owner site]

/-- The marks of a class at an attribute that it takes. -/
def Site.marks (name : String) (site : Site) : List Mark := site.ownerMarks name ++ [.name site]

theorem Schema.noteOwner_eq (s : Schema) (name : String) (site : Site) :
    s.noteOwner name site = s.markAll (site.ownerMarks name) := by
  unfold noteOwner Site.ownerMarks
  split <;> rfl

theorem Schema.note_eq (s : Schema) (name : String) (site : Site) :
    s.note name site = s.markAll (site.marks name) := by
  rw [note, Site.marks, markAll_append, ← noteOwner_eq]
  exact ((s.noteOwner name site).mark_name site).symm

def Stop.marks (name : String) : Stop → List Mark
  | .meet _ site => site.marks name
  | _ => []

namespace Schema

/-- The marks that the model of a structure leaves. -/
def classMarks (s : Schema) (name : String) : List Mark :=
  .fact name :: (s.tour s.depthLimit name).flatMap (Stop.marks name)

/-- The marks that planning the file of a type leaves. -/
def marksOf (s : Schema) (name : String) : List Mark :=
  match s.need name >>= (·.need "type") with
  | .error _ => []
  | .ok sort =>
    if sort.isByte then [.fact name]
    else if sort.isEnum then []
    else if sort.isStruct && !isHidden name then s.classMarks name
    else []

/-- The marks that planning leaves. -/
def marks (s : Schema) : List Mark := s.names.flatMap s.marksOf

theorem sort_settled (s : Schema) (name : Value) :
    (s.settled.need name >>= (·.need "type")) = s.need name >>= (·.need "type") := by
  simp [need_settled, Value.need_settledType]

theorem marksOf_settled (s : Schema) (name : String) : s.settled.marksOf name = s.marksOf name := by
  simp only [marksOf, sort_settled, classMarks, tour_settled, depthLimit_settled]

theorem marksOf_congr {s s' : Schema} (h : s'.settled = s.settled) (name : String) :
    s'.marksOf name = s.marksOf name := by
  rw [← marksOf_settled s', h, marksOf_settled]

theorem names_congr {s s' : Schema} (h : s'.settled = s.settled) : s'.names = s.names := by
  rw [← names_settled s', h, names_settled]

theorem marks_congr {s s' : Schema} (h : s'.settled = s.settled) : s'.marks = s.marks := by
  rw [marks, names_congr h, funext (marksOf_congr h), marks]

end Schema

namespace ClassModel
open Drafting

theorem marking_pass (f : Frame) (stop : Stop) (d : Draft) :
    Marking Draft.schema (pass f stop) d (stop.marks f.name) := by
  cases stop with
  | enter path owner =>
    apply Marking.of_keeps
    simp only [pass, runOn_bind, runOn_tell, runOn_layout]
    cases d.schema.need owner >>= Value.layout <;> rfl
  | meet path site =>
    apply Along.of_all
    rw [pass, runOn_map, schema_meet, Schema.note_eq]
    rfl
  | endless => exact Marking.of_keeps rfl

theorem marking_passes (f : Frame) (stops : List Stop) (d : Draft) :
    Marking Draft.schema (forM stops (pass f)) d (stops.flatMap (Stop.marks f.name)) := by
  induction stops generalizing d with
  | nil => exact Marking.of_keeps rfl
  | cons stop stops ih =>
    rw [List.forM_cons, List.flatMap_cons]
    exact (marking_pass f stop d).bind fun _ d' _ => ih d'

theorem marking_walk (f : Frame) (limit : Nat) (owner : String) (d : Draft) :
    Marking Draft.schema (walk f limit owner none 0) d
      ((d.schema.tour limit owner).flatMap (Stop.marks f.name)) := by
  have hwalk := runOn_walk f limit owner [] d.schema d rfl
  simp only [Stop.under_nil] at hwalk
  have hpasses := marking_passes f (d.schema.tour limit owner) d
  unfold Marking at hpasses ⊢
  rwa [← hwalk] at hpasses

theorem marking_writeFact (name : String) (d : Draft) :
    Marking Draft.schema (writeFact name "name" (Text.lowerFirst name)) d [.fact name] :=
  .of_all rfl

theorem marking_build (t : Target) (name : String) (d : Draft) :
    Marking Draft.schema (build t name) d (d.schema.classMarks name) := by
  rw [build, Schema.classMarks, ← List.singleton_append]
  refine Marking.bind_of_keeps rfl fun s₀ d₀ h₀ => ?_
  refine Marking.bind_of_keeps (by rw [runOn_lift]) fun className d₁ h₁ => ?_
  refine (marking_writeFact name d₁).bind fun _ d₂ h₂ => ?_
  refine Marking.bind_of_keeps rfl fun s₁ d₃ h₃ => ?_
  refine Marking.bind_of_keeps (by rw [runOn_lift]) fun framed d₄ h₄ => ?_
  obtain ⟨f, comments⟩ := framed
  simp only [runOn_schema, runOn_lift, writeFact, runOn_modify, Prod.mk.injEq,
    Except.ok.injEq] at h₀ h₁ h₂ h₃ h₄
  obtain ⟨rfl, rfl⟩ := h₀
  obtain ⟨hclass, rfl⟩ := h₁
  obtain ⟨-, rfl⟩ := h₂
  obtain ⟨rfl, rfl⟩ := h₃
  obtain ⟨hframe, rfl⟩ := h₄
  obtain ⟨-, hname, -, -⟩ := frameOf_eq_ok hframe
  have hs := d.schema.settled_setFact name (Text.lowerFirst name)
  have hmarks : (d.schema.tour d.schema.depthLimit name).flatMap (Stop.marks name) =
      ((d.schema.setFact name "name" (Text.lowerFirst name)).tour
        (d.schema.setFact name "name" (Text.lowerFirst name)).depthLimit name).flatMap
          (Stop.marks f.name) ++ [] := by
    rw [← Schema.tour_settled, ← Schema.depthLimit_settled, ← hs, Schema.tour_settled,
      Schema.depthLimit_settled, hname, List.append_nil]
  rw [hmarks]
  refine (marking_walk f _ name _).bind fun _ d₅ _ => ?_
  refine Marking.bind_of_keeps rfl fun d₆ d₇ _ => ?_
  exact Marking.of_keeps (by rw [runOn_lift])

end ClassModel

theorem AtomModel.marking_build (t : Target) (name : String) (d : Draft) :
    Marking Draft.schema (AtomModel.build t name) d [.fact name] := by
  unfold AtomModel.build
  refine Marking.bind_of_keeps rfl fun s₀ d₀ h₀ => ?_
  refine Marking.bind_of_keeps (by rw [runOn_lift]) fun className d₁ h₁ => ?_
  simp only [Drafting.runOn_schema, runOn_lift, Prod.mk.injEq, Except.ok.injEq] at h₀ h₁
  obtain ⟨rfl, rfl⟩ := h₀
  obtain ⟨-, rfl⟩ := h₁
  refine (ClassModel.marking_writeFact name d).bind fun _ d₂ _ => ?_
  refine Marking.bind_of_keeps rfl fun s₁ d₃ _ => ?_
  exact Marking.of_keeps (by rw [runOn_lift])

namespace Plan
variable {α : Type}

theorem runOn_model (steps : Drafting α) (s : Schema) :
    runOn (model steps) s =
      ((runOn steps { schema := s }).1, (runOn steps { schema := s }).2.schema) := by
  simp only [model, runOn_bind, runOn_get]
  rcases h : runOn steps { schema := s } with ⟨result, d⟩
  simp only [runOn] at h
  rw [h]
  simp only [runOn_bind, runOn_set, runOn_lift]

theorem marking_model {steps : Drafting α} {s : Schema} {marks : List Mark}
    (h : Marking Draft.schema steps { schema := s } marks) : Marking id (model steps) s marks := by
  unfold Marking at h ⊢
  rwa [runOn_model]

theorem marking_map {β : Type} {steps : Planning α} {s : Schema} {marks : List Mark}
    (g : α → β) (h : Marking id steps s marks) : Marking id (g <$> steps) s marks := by
  unfold Marking at h ⊢
  rw [runOn_map]
  cases hr : (runOn steps s).1 <;> rw [hr] at h <;> exact h

theorem marking_ofType? (t : Target) (name : String) (s : Schema) :
    Marking id (ofType? t name) s (s.marksOf name) := by
  unfold ofType?
  refine Marking.bind_of_keeps rfl fun s₀ s₁ h₁ => ?_
  refine Marking.bind_of_keeps (by rw [runOn_lift]) fun declared s₂ h₂ => ?_
  refine Marking.bind_of_keeps (by rw [runOn_lift]) fun sort s₃ h₃ => ?_
  simp only [runOn_get, runOn_lift, Prod.mk.injEq, Except.ok.injEq] at h₁ h₂ h₃
  obtain ⟨rfl, rfl⟩ := h₁
  obtain ⟨hdeclared, rfl⟩ := h₂
  obtain ⟨hsort, rfl⟩ := h₃
  simp only [Schema.marksOf, hdeclared, hsort, Checked.ok_bind]
  by_cases hbyte : sort.isByte = true
  · simp only [hbyte, if_true]
    exact marking_map _ (marking_map _ (marking_model (AtomModel.marking_build t name _)))
  by_cases henum : sort.isEnum = true
  · simp only [hbyte, henum, if_true]
    refine marking_map _ ?_
    refine Marking.bind_of_keeps rfl fun s₄ s₅ _ => ?_
    refine Marking.bind_of_keeps (by rw [runOn_lift]) fun m s₆ _ => ?_
    exact Marking.of_keeps rfl
  by_cases hstruct : (sort.isStruct && !isHidden name) = true
  · simp only [hbyte, henum, hstruct, if_true]
    exact marking_map _ (marking_map _ (marking_model (ClassModel.marking_build t name _)))
  · simp only [hbyte, henum, hstruct]
    exact Marking.of_keeps rfl

theorem marking_ofTypes (t : Target) (names : List String) (s : Schema) :
    Marking id (names.mapM (ofType? t)) s (names.flatMap s.marksOf) := by
  induction names generalizing s with
  | nil => exact Marking.of_keeps rfl
  | cons name names ih =>
    rw [List.mapM_cons, List.flatMap_cons]
    refine (marking_ofType? t name s).bind fun plan s₁ h₁ => ?_
    have hs : s₁.settled = s.settled := (marking_ofType? t name s).settled h₁
    rw [← funext (Schema.marksOf_congr hs), ← List.append_nil (names.flatMap _)]
    refine (ih s₁).bind fun plans s₂ _ => ?_
    exact Marking.of_keeps rfl

/-- Planning leaves the marks of the schema. -/
theorem marking_all (t : Target) (s : Schema) : Marking id (all t) s s.marks := by
  unfold all
  refine Marking.bind_of_keeps rfl fun s₀ s₁ h => ?_
  obtain ⟨rfl, rfl⟩ := by simpa using h
  rw [← List.append_nil s.marks]
  refine (marking_ofTypes t s.names s).bind fun plans s₂ _ => ?_
  exact Marking.of_keeps rfl

end Plan
end SchemaForge
