import SchemaForge.Proofs.ModelsAlike

/-! What the model of an enumeration reads from a schema. Constants in any structure add to the
enumerators, but no mark changes what a constant adds. -/
namespace SchemaForge

theorem filterMapM_modify {α β : Type} {f : α → Checked (Option β)} {change : α → α}
    (h : ∀ a, f (change a) = f a) (l : List α) (index : Nat) :
    (l.modify index change).filterMapM f = l.filterMapM f := by
  have loop : ∀ (l : List α) (index : Nat) (kept : List β),
      List.filterMapM.loop f (l.modify index change) kept = List.filterMapM.loop f l kept := by
    intro l
    induction l with
    | nil => intro index kept; simp
    | cons a l ih =>
      intro index kept
      cases index with
      | zero => simp [List.filterMapM.loop, h]
      | succ index => simp [List.filterMapM.loop, ih]
  exact loop l index []

namespace Value

theorem find_put_ne {key other : String} (h : other ≠ key) (v value : Value) :
    (v.put key value).find (text other) = v.find (text other) := by
  cases v with
  | table entries => exact congrArg Except.ok (Record.get?_set_ne ⟨entries⟩ value h)
  | _ => rfl

theorem lookup_atItem (index : Nat) (key key' : String) (value : Value)
    (entries : List (String × Value)) :
    ∃ changed, Schema.atItem index key value (table entries) = table changed ∧
      changed.lookup key' = if key' = "layout" then
        (entries.lookup key').map (·.modifyItem index (·.put key value)) else entries.lookup key' :=
  ⟨_, rfl, lookup_modifyEntry "layout" key' (fun layout => layout.modifyItem index (·.put key value))
    entries⟩

theorem need_atItem_ne {key' : String} (h : key' ≠ "layout") (index : Nat) (key : String)
    (value v : Value) : (Schema.atItem index key value v).need key' = v.need key' := by
  cases v with
  | table entries =>
    obtain ⟨changed, hchanged, hlookup⟩ := lookup_atItem index key key' value entries
    rw [if_neg h] at hlookup
    rw [hchanged]
    exact congrArg (Checked.require (text key')) hlookup
  | _ => rfl

theorem has_atItem (index : Nat) (key key' : String) (value v : Value) :
    (Schema.atItem index key value v).has key' = v.has key' := by
  cases v with
  | table entries =>
    obtain ⟨changed, hchanged, hlookup⟩ := lookup_atItem index key key' value entries
    have hsome : (changed.lookup key').isSome = (entries.lookup key').isSome := by
      rw [hlookup]
      split <;> simp
    rw [hchanged]
    exact congrArg Except.ok hsome
  | _ => rfl

/-- What is taken from the attributes in a layout without looking at an entry does not depend on it. -/
theorem layout_atItem {α : Type} {f : Value → Checked (Option α)} {key : String} {value : Value}
    (h : ∀ w : Value, f (w.put key value) = f w) (index : Nat) (v : Value) :
    ((Schema.atItem index key value v).layout >>= (·.filterMapM f)) =
      v.layout >>= (·.filterMapM f) := by
  cases v with
  | table entries =>
    obtain ⟨changed, hchanged, hlookup⟩ := lookup_atItem index key "layout" value entries
    rw [if_pos rfl] at hlookup
    have layout : ∀ es : List (String × Value), (table es).layout =
        Checked.require "layout" (es.lookup "layout") >>= items := fun _ => rfl
    rw [hchanged, layout, layout, hlookup]
    cases entries.lookup "layout" with
    | none => rfl
    | some listed =>
      cases listed with
      | list attributes => exact filterMapM_modify h attributes index
      | _ => rfl
  | _ => rfl

end Value

namespace EnumModel

theorem ofConstant_put {key : String} (hd : key ≠ "disposition") (ht : key ≠ "type")
    (hv : key ≠ "value") (type owner : String) (v value : Value) :
    ofConstant type owner (v.put key value) = ofConstant type owner v := by
  simp only [ofConstant, Value.find_put_ne hd.symm, Value.find_put_ne ht.symm,
    Value.need_put_ne hv.symm]

theorem ofStruct_put (type owner : String) (v value : Value) :
    ofStruct type owner (v.put "name" value) = ofStruct type owner v := by
  simp only [ofStruct, Value.layout, Value.has_put_ne (show "layout" ≠ "name" by simp),
    Value.need_put_ne (show "layout" ≠ "name" by simp)]

theorem ofStruct_atItem {key : String} (hd : key ≠ "disposition") (ht : key ≠ "type")
    (hv : key ≠ "value") (type owner : String) (index : Nat) (value v : Value) :
    ofStruct type owner (Schema.atItem index key value v) = ofStruct type owner v := by
  simp only [ofStruct, Value.has_atItem,
    Value.layout_atItem (fun w => ofConstant_put hd ht hv type owner w value)]

/-- A change of one type that adds no constants changes no enumerators. -/
theorem mapM_ofStruct_update {change : Value → Value} {type : String}
    (h : ∀ owner v, ofStruct type owner (change v) = ofStruct type owner v) (s : Schema)
    (name : String) :
    ((s.update name change).types.mapM fun (owner, d) => ofStruct type owner d) =
      s.types.mapM fun (owner, d) => ofStruct type owner d := by
  rw [Schema.update, List.mapM_map]
  apply Checked.mapM_congr
  rintro ⟨owner, d⟩ -
  simp only [Function.comp_apply]
  split
  · exact h owner d
  · rfl

/-- A change of a type that an enumeration does not see. -/
theorem build_update {change : Value → Value} {s : Schema} {name other : String}
    (hadded : ∀ owner v, ofStruct name owner (change v) = ofStruct name owner v)
    (hsettled : (s.update other change).settled = s.settled)
    (hdecl : name = other → ∀ v key, key ≠ "layout" →
      (change v).need key = v.need key ∧ (change v).has key = v.has key) (t : Target) :
    build t (s.update other change) name = build t s name := by
  have hneed : ∃ change' : Value → Value, (s.update other change).need name =
      (s.need name).map change' ∧ ∀ v key, key ≠ "layout" →
        (change' v).need key = v.need key ∧ (change' v).has key = v.has key := by
    rw [Schema.need_text, Schema.need_text, Schema.get?_update]
    by_cases hn : name = other
    · refine ⟨change, ?_, hdecl hn⟩
      rw [if_pos hn]
      cases s.get? name <;> rfl
    · refine ⟨id, ?_, fun _ _ _ => ⟨rfl, rfl⟩⟩
      rw [if_neg hn]
      cases s.get? name <;> rfl
  obtain ⟨change', hneed, hreads⟩ := hneed
  have hclass : ∀ user, (s.update other change).className name (change' user) =
      s.className name user := by
    intro user
    rw [← Schema.className_settled, hsettled, Schema.className_settled]
    simp only [Schema.className, (hreads user "type" (by simp)).1]
  have hdescription : ∀ v, (change' v).description = v.description := by
    intro v
    simp only [Value.description, (hreads v "comments" (by simp)).1, (hreads v "comments" (by simp)).2,
      (hreads v "name" (by simp)).1, (hreads v "name" (by simp)).2]
  unfold build
  rw [hneed, Checked.map_bind]
  congr 1
  funext decl
  simp only [hclass, Value.values, (hreads decl "size" (by simp)).1,
    (hreads decl "values" (by simp)).1, hdescription, mapM_ofStruct_update hadded s other]

/-- The model of an enumeration does not depend on marks, unless one names it. -/
theorem build_mark {s : Schema} {m : Mark} {name : String} (h : m ≠ .fact name) (t : Target) :
    build t (s.mark m) name = build t s name := by
  have entry : ∀ (site : Site) (key : String) (value : Value),
      (s.setEntry site key value).settled = s.settled → key ≠ "disposition" → key ≠ "type" →
        key ≠ "value" → build t (s.setEntry site key value) name = build t s name := by
    intro site key value hsettled hd ht hv
    rw [Schema.setEntry_eq] at hsettled ⊢
    apply build_update (fun owner v => ofStruct_atItem hd ht hv name owner site.index value v) hsettled
    intro _ v key' hkey'
    exact ⟨Value.need_atItem_ne hkey' .., Value.has_atItem ..⟩
  have hsettled := s.settled_mark m
  cases m with
  | fact other =>
    apply build_update (fun owner v => ofStruct_put name owner v _) hsettled
    rintro rfl
    exact absurd rfl h
  | owner site => exact entry site _ _ hsettled (by simp) (by simp) (by simp)
  | name site =>
    rw [Schema.mark_name, Schema.noteName] at hsettled ⊢
    cases hn : s.nameAt? site with
    | none => rfl
    | some named =>
      rw [hn] at hsettled
      exact entry site _ _ hsettled (by simp) (by simp) (by simp)

theorem build_markAll {s : Schema} {marks : List Mark} {name : String}
    (h : ∀ m ∈ marks, m ≠ .fact name) (t : Target) :
    build t (s.markAll marks) name = build t s name := by
  induction marks generalizing s with
  | nil => rfl
  | cons m marks ih =>
    exact (ih (s := s.mark m) fun m' hm' => h m' (by simp [hm'])).trans (build_mark (h m (by simp)) t)

end EnumModel
end SchemaForge
