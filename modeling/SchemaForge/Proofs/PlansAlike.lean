import SchemaForge.Proofs.Enumerations

/-! Plans for one schema that are made in different states of it: they are for the same files, and
planning fails for the same reason. -/
namespace SchemaForge

namespace Schema

/-- A state of a schema in which only planning has written. -/
def Reached (s₀ s : Schema) : Prop := ∃ marks, (∀ m ∈ marks, m ∈ s₀.marks) ∧ s = s₀.markAll marks

namespace Reached
variable {s₀ s s' : Schema}

theorem settled (h : s₀.Reached s) : s.settled = s₀.settled := by
  obtain ⟨marks, -, rfl⟩ := h
  exact s₀.settled_markAll marks

theorem clear (h : s₀.Reached s) (hc : s₀.Clear) : s.Clear := by
  obtain ⟨marks, -, rfl⟩ := h
  exact hc.markAll marks

theorem along {marks : List Mark} {done : Bool} (h : s₀.Reached s) (ha : Along s marks done s')
    (hm : ∀ m ∈ marks, m ∈ s₀.marks) : s₀.Reached s' := by
  obtain ⟨marks₀, hmarks₀, rfl⟩ := h
  obtain ⟨n, rfl, -⟩ := ha
  refine ⟨marks₀ ++ marks.take n, ?_, (s₀.markAll_append _ _).symm⟩
  intro m hmem
  rcases List.mem_append.1 hmem with hmem | hmem
  · exact hmarks₀ m hmem
  · exact hm m (List.mem_of_mem_take hmem)

end Reached

/-- The marks of a type are its name, if it is a byte type or a structure, and those at the attributes
that the class of a structure takes. -/
theorem mem_marksOf {s : Schema} {name : String} {m : Mark} (h : m ∈ s.marksOf name) :
    ∃ sort, (s.need name >>= (·.need "type")) = .ok sort ∧
      (sort.isByte = true ∨ sort.isStruct = true) ∧
      (m = .fact name ∨ ∃ site : Site, m ∈ site.marks name) := by
  unfold marksOf at h
  cases hsort : s.need name >>= (·.need "type") with
  | error fault => simp [hsort] at h
  | ok sort =>
    simp only [hsort] at h
    refine ⟨sort, rfl, ?_⟩
    by_cases hbyte : sort.isByte = true
    · exact ⟨.inl hbyte, .inl (by simpa [hbyte] using h)⟩
    by_cases henum : sort.isEnum = true
    · simp [hbyte, henum] at h
    by_cases hstruct : (sort.isStruct && !isHidden name) = true
    · simp only [hbyte, henum, hstruct, if_true, classMarks] at h
      refine ⟨.inr (by simp_all), ?_⟩
      rcases List.mem_cons.1 h with hfact | hmem
      · exact .inl hfact
      · obtain ⟨stop, -, hstop⟩ := List.mem_flatMap.1 hmem
        cases stop with
        | meet path site => exact .inr ⟨site, hstop⟩
        | _ => simp [Stop.marks] at hstop
    · simp [hbyte, henum, hstruct] at h

theorem fact_of_mem_marksOf {s : Schema} {name other : String}
    (h : Mark.fact name ∈ s.marksOf other) :
    name = other ∧ ∃ sort, (s.need other >>= (·.need "type")) = .ok sort ∧
      (sort.isByte = true ∨ sort.isStruct = true) := by
  obtain ⟨sort, hsort, hbears, hfact | ⟨site, hsite⟩⟩ := mem_marksOf h
  · exact ⟨Mark.fact.inj hfact, sort, hsort, hbears⟩
  · simp only [Site.marks, Site.ownerMarks] at hsite
    split at hsite <;> simp at hsite

theorem fact_notMem_marks {s : Schema} {name : String} {sort : Value}
    (hsort : (s.need name >>= (·.need "type")) = .ok sort) (he : sort.isEnum = true) :
    Mark.fact name ∉ s.marks := by
  intro hmem
  obtain ⟨other, -, hother⟩ := List.mem_flatMap.1 hmem
  obtain ⟨rfl, sort', hsort', hno⟩ := fact_of_mem_marksOf hother
  obtain rfl : sort = sort' := by simpa [hsort] using hsort'
  obtain rfl := Value.eq_text_of_beq he
  rcases hno with hbyte | hstruct
  · simp [Value.isByte] at hbyte
  · simp [Value.isStruct] at hstruct

theorem Reached.enum {s₀ s : Schema} (h : s₀.Reached s) {name : String} {sort : Value}
    (hsort : (s₀.need name >>= (·.need "type")) = .ok sort) (he : sort.isEnum = true) (t : Target) :
    EnumModel.build t s name = EnumModel.build t s₀ name := by
  obtain ⟨marks, hmarks, rfl⟩ := h
  refine EnumModel.build_markAll (fun m hm => ?_) t
  rintro rfl
  exact fact_notMem_marks hsort he (hmarks _ hm)

end Schema

namespace Plan

/-- A plan apart from the classes that hold attributes. -/
def bare : Plan → Plan
  | struct m => struct m.bare
  | p => p

theorem modelOf_congr {s s' : Schema} (hs : s.settled = s'.settled) (hc : s.Clear) (hc' : s'.Clear) :
    ({ schema := s } : Draft).Alike { schema := s' } where
  settled := by simp [Draft.settled, hs]
  clear := hc
  clear' := hc'
  plain e he := by simp at he

theorem runOn_ofType? (t : Target) (name : String) (s : Schema) :
    (runOn (ofType? t name) s).1 = s.need name >>= (·.need "type") >>= fun sort =>
      if sort.isByte then
        (runOn (AtomModel.build t name) { schema := s }).1.map fun m => some (atom m)
      else if sort.isEnum then (EnumModel.build t s name).map fun m => some (enum m)
      else if sort.isStruct && !isHidden name then
        (ClassModel.modelOf t s name).map fun m => some (struct m)
      else .ok none := by
  simp only [ofType?, runOn_bind, runOn_get, runOn_lift]
  cases s.need name with
  | error fault => rfl
  | ok declared =>
    simp only [Checked.ok_bind]
    cases declared.need "type" with
    | error fault => rfl
    | ok sort =>
      simp only [Checked.ok_bind]
      split
      · rw [runOn_map, ofAtom, runOn_map, runOn_model]
        cases (runOn (AtomModel.build t name) { schema := s }).1 <;> rfl
      split
      · simp only [runOn_map, ofEnum, runOn_bind, runOn_get, runOn_lift]
        cases EnumModel.build t s name <;> rfl
      split
      · rw [runOn_map, ofStruct, runOn_map, runOn_model, ClassModel.modelOf]
        cases (runOn (ClassModel.build t name) { schema := s }).1 <;> rfl
      · rfl

theorem ofType?_congr {s₀ s s' : Schema} (hc : s₀.Clear) (h : s₀.Reached s) (h' : s₀.Reached s')
    (t : Target) (name : String) :
    (runOn (ofType? t name) s).1.map (·.map bare) =
      (runOn (ofType? t name) s').1.map (·.map bare) := by
  have hs : s.settled = s'.settled := h.settled.trans h'.settled.symm
  have halike := modelOf_congr hs (h.clear hc) (h'.clear hc)
  have hsort : ∀ s : Schema, s₀.Reached s →
      (s.need name >>= (·.need "type")) = s₀.need name >>= (·.need "type") := by
    intro s h
    rw [← Schema.sort_settled, h.settled, Schema.sort_settled]
  rw [runOn_ofType?, runOn_ofType?, hsort s h, hsort s' h']
  cases hsort₀ : s₀.need name >>= (·.need "type") with
  | error fault => rfl
  | ok sort =>
    simp only [Checked.ok_bind]
    split
    · have hatom := (AtomModel.agree_build t name halike).1
      simp only [Except.map_id, id] at hatom
      rw [hatom]
    split
    · rename_i henum
      rw [h.enum hsort₀ henum, h'.enum hsort₀ henum]
    split
    · have hclass := (ClassModel.agree_build t name halike).1
      unfold ClassModel.modelOf
      cases hm : (runOn (ClassModel.build t name) { schema := s }).1 <;>
        cases hm' : (runOn (ClassModel.build t name) { schema := s' }).1 <;>
        simp_all [bare]
    · rfl

theorem reached_ofType? {s₀ s : Schema} (h : s₀.Reached s) (t : Target) {name : String}
    (hn : name ∈ s₀.names) : s₀.Reached (runOn (ofType? t name) s).2 := by
  apply h.along (marking_ofType? t name s)
  intro m hm
  rw [Schema.marksOf_congr h.settled] at hm
  exact List.mem_flatMap.2 ⟨name, hn, hm⟩

theorem ofTypes_congr {s₀ s s' : Schema} (hc : s₀.Clear) (h : s₀.Reached s) (h' : s₀.Reached s')
    (t : Target) (names : List String) (hn : ∀ name ∈ names, name ∈ s₀.names) :
    (runOn (names.mapM (ofType? t)) s).1.map (·.map (·.map bare)) =
      (runOn (names.mapM (ofType? t)) s').1.map (·.map (·.map bare)) := by
  induction names generalizing s s' with
  | nil => rfl
  | cons name names ih =>
    have hplan := ofType?_congr hc h h' t name
    have hnext := reached_ofType? h t (hn name (by simp))
    have hnext' := reached_ofType? h' t (hn name (by simp))
    rw [List.mapM_cons, runOn_bind, runOn_bind]
    rcases hr : runOn (ofType? t name) s with ⟨fault | plan, s₁⟩ <;>
      rcases hr' : runOn (ofType? t name) s' with ⟨fault' | plan', s₁'⟩ <;>
      simp only [hr, hr', Checked.map_error, Checked.map_ok, reduceCtorEq, Except.error.injEq,
        Except.ok.injEq] at hplan hnext hnext'
    · simp [hplan]
    · have hrest := ih hnext hnext' fun n hmem => hn n (by simp [hmem])
      simp only [runOn_bind, runOn_pure]
      rcases hl : runOn (names.mapM (ofType? t)) s₁ with ⟨fault | plans, s₂⟩ <;>
        rcases hl' : runOn (names.mapM (ofType? t)) s₁' with ⟨fault' | plans', s₂'⟩ <;>
        simp_all

/-- Planning has the same outcome in all states that planning leaves. -/
theorem all_congr {s₀ s s' : Schema} (hc : s₀.Clear) (h : s₀.Reached s) (h' : s₀.Reached s')
    (t : Target) :
    (runOn (all t) s).1.map (·.map bare) = (runOn (all t) s').1.map (·.map bare) := by
  have names : ∀ s, s₀.Reached s → s.names = s₀.names := fun s h => Schema.names_congr h.settled
  have hplans := ofTypes_congr hc h h' t s₀.names fun _ hmem => hmem
  have flat : ∀ plans plans' : List (Option Plan), plans.map (·.map bare) = plans'.map (·.map bare) →
      (plans.filterMap id).map bare = (plans'.filterMap id).map bare := by
    intro plans plans' heq
    have hflat := congrArg (·.filterMap id) heq
    simpa [List.filterMap_map, List.map_filterMap] using hflat
  simp only [all, runOn_bind, runOn_get, names s h, names s' h']
  rcases hr : runOn (s₀.names.mapM (ofType? t)) s with ⟨fault | plans, s₁⟩ <;>
    rcases hr' : runOn (s₀.names.mapM (ofType? t)) s' with ⟨fault' | plans', s₁'⟩ <;>
    simp only [hr, hr', Checked.map_error, Checked.map_ok, reduceCtorEq, Except.error.injEq,
      Except.ok.injEq] at hplans
  · simp [hplans]
  · simp only [runOn_pure, Checked.map_ok, List.map_append, flat plans plans' hplans]

end Plan
end SchemaForge
