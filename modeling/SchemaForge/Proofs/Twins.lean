import SchemaForge.Proofs.Aggregates
import SchemaForge.Source.Part

/-! The models of one structure for two targets have the same entries. Only the types under which the
attributes are declared differ. -/
namespace SchemaForge
open Checked

/-- Entries for one attribute in the classes of two targets. -/
structure Entry.Twin (e e' : Entry) : Prop where
  member : e'.toMember = { e.toMember with varType := e'.varType }
  isSuper : e'.isSuper = e.isSuper
  isInline : e'.isInline = e.isInline
  parent : e'.parent = e.parent
  readBefore : e'.readBefore = e.readBefore

namespace Entry.Twin
variable {e e' : Entry}

theorem site (h : Twin e e') : e'.site = e.site := by rw [h.member]

theorem name (h : Twin e e') : e'.name = e.name := by rw [h.member]

theorem kind (h : Twin e e') : e'.kind = e.kind := by rw [h.member]

theorem size (h : Twin e e') : e'.size = e.size := by rw [h.member]

theorem isConditional (h : Twin e e') : e'.isConditional = e.isConditional := by rw [h.member]

end Entry.Twin

namespace ClassModel
variable {s : Schema} {t t' : Target}

theorem memberOf_twin {site : Site} {x x' : Member} (h : memberOf t s site = .ok x)
    (h' : memberOf t' s site = .ok x') : x' = { x with varType := x'.varType } := by
  unfold memberOf at h h'
  obtain ⟨r, hr, h⟩ := bind_eq_ok.1 h
  obtain ⟨declared, hdeclared, h⟩ := bind_eq_ok.1 h
  obtain ⟨layout, hlayout, h⟩ := bind_eq_ok.1 h
  obtain ⟨kind, hkind, h⟩ := bind_eq_ok.1 h
  obtain ⟨comment, hcomment, h⟩ := bind_eq_ok.1 h
  obtain ⟨named, hnamed, h⟩ := bind_eq_ok.1 h
  obtain ⟨name, hname, h⟩ := bind_eq_ok.1 h
  obtain ⟨size, hsize, h⟩ := bind_eq_ok.1 h
  obtain ⟨varType, -, h⟩ := bind_eq_ok.1 h
  obtain ⟨baseType, hbaseType, h⟩ := bind_eq_ok.1 h
  obtain ⟨className, hclass, h⟩ := bind_eq_ok.1 h
  obtain ⟨isReserved, hreserved, h⟩ := bind_eq_ok.1 h
  simp only [hr, hdeclared, hlayout, hkind, hcomment, hnamed, hname, hsize, ok_bind] at h'
  obtain ⟨varType', -, h'⟩ := bind_eq_ok.1 h'
  simp only [hbaseType, hclass, hreserved, ok_bind] at h'
  rw [← Except.ok.inj h, ← Except.ok.inj h']

theorem readBefore_congr {before before' : List Entry} (h : before'.map (·.name) = before.map (·.name))
    (c : Value) : (before'.all fun e => c != .text e.name) = before.all fun e => c != .text e.name := by
  have hall : ∀ l : List Entry, (l.all fun e => c != .text e.name) =
      (l.map (·.name)).all fun name => c != .text name := by
    intro l
    rw [List.all_map]
    rfl
  rw [hall, hall, h]

theorem recordAt_settled_congr {s₁ s₂ : Schema} (h : s₁.settled = s₂.settled) {site : Site}
    {r₁ r₂ : Record} (h₁ : s₁.recordAt site = .ok r₁) (h₂ : s₂.recordAt site = .ok r₂) :
    r₁.settled = r₂.settled := by
  have hr := Schema.recordAt_settled s₁ site
  rw [h, Schema.recordAt_settled, h₁, h₂] at hr
  exact (Except.ok.inj hr).symm

/-- One step of two walks through one structure. -/
theorem entryOf_twin {f f' : Frame} (hname : f'.name = f.name) (hbase : f'.base = f.base)
    {s₁ s₂ : Schema} (hs : s₁.settled = s₂.settled) {before before' : List Entry}
    (hbefore : before'.map (·.name) = before.map (·.name)) {site : Site} (hn₁ : s₁.NamedAt site)
    (hn₂ : s₂.NamedAt site) {aggregate : Option Aggregate} {e e' : Entry}
    (h : entryOf f s₁ before site aggregate = .ok e)
    (h' : entryOf f' s₂ before' site aggregate = .ok e') : Entry.Twin e e' := by
  unfold entryOf at h h'
  obtain ⟨x, hx, h⟩ := bind_eq_ok.1 h
  obtain ⟨r, hr, h⟩ := bind_eq_ok.1 h
  obtain ⟨conditionSite, -, h⟩ := bind_eq_ok.1 h
  obtain ⟨parent, hparent, h⟩ := bind_eq_ok.1 h
  obtain ⟨x', hx', h'⟩ := bind_eq_ok.1 h'
  obtain ⟨r', hr', h'⟩ := bind_eq_ok.1 h'
  obtain ⟨conditionSite', -, h'⟩ := bind_eq_ok.1 h'
  obtain ⟨parent', hparent', h'⟩ := bind_eq_ok.1 h'
  have hmember : x' = { x with varType := x'.varType } := by
    rw [← memberOf_settled _ hn₁, hs] at hx
    rw [← memberOf_settled _ hn₂] at hx'
    exact memberOf_twin hx hx'
  have hrecord := recordAt_settled_congr hs hr hr'
  have hsuper : isInherited f'.base r' aggregate = isInherited f.base r aggregate := by
    rw [hbase, ← isInherited_settled, ← hrecord, isInherited_settled]
  have hcondition : r'.get? "condition" = r.get? "condition" := by
    rw [← Record.get?_settled r' (by decide) (by decide), ← hrecord,
      Record.get?_settled r (by decide) (by decide)]
  have hfound : parent' = parent := by
    have alike := fun s' : Schema => Schema.findSite_settled
      (Schema.fitsAlike (by decide : "size" ≠ "aggregate_class") (by decide) s' x.name) f.name
    have hxname : x'.name = x.name := by rw [hmember]
    rw [hname, hxname, ← alike, ← hs, alike, hparent] at hparent'
    exact (Except.ok.inj hparent').symm
  rw [← Except.ok.inj h, ← Except.ok.inj h']
  exact {
    member := hmember
    isSuper := hsuper
    isInline := by rw [hsuper]
    parent := hfound
    readBefore := by simp only [hcondition, readBefore_congr hbefore] }

theorem twins_of_drawn {f f' : Frame} (hname : f'.name = f.name) (hbase : f'.base = f.base)
    {before before' : List Entry} (hbefore : before'.map (·.name) = before.map (·.name))
    {vs : List Visit} {es es' : List Entry} (h : Drawn f s before vs es)
    (h' : Drawn f' s before' vs es') : List.Forall₂ Entry.Twin es es' := by
  induction h generalizing before' es' with
  | nil before => cases h' with | nil => exact .nil
  | @cons before v e vs es s₁ settled named drawn rest ih =>
    cases h' with
    | @cons _ _ e' _ es' s₂ settled' named' drawn' rest' =>
      have htwin := entryOf_twin hname hbase (settled.trans settled'.symm) hbefore named named' drawn drawn'
      have hnames : (before' ++ [e']).map (·.name) = (before ++ [e]).map (·.name) := by
        simp [hbefore, htwin.name]
      exact .cons htwin (ih hnames rest')

/-- The base class of a structure does not depend on the target. -/
theorem base_eq_of_models {name : String} {m m' : ClassModel} (h : modelOf t s name = .ok m)
    (h' : modelOf t' s name = .ok m') : m'.base = m.base := by
  rw [base_eq h, base_eq h']

theorem twins_of_models {name : String} {m m' : ClassModel} (h : modelOf t s name = .ok m)
    (h' : modelOf t' s name = .ok m') : List.Forall₂ Entry.Twin m.entries m'.entries := by
  have hbase := base_eq_of_models h h'
  obtain ⟨f, -, hname, hf, hdrawn, -, -⟩ := drawn_of_model h
  obtain ⟨f', -, hname', hf', hdrawn', -, -⟩ := drawn_of_model h'
  exact twins_of_drawn (hname'.trans hname.symm) (by rw [hf', hbase, hf]) rfl hdrawn hdrawn'

end ClassModel
end SchemaForge
