import SchemaForge.Proofs.BraceText
import SchemaForge.Proofs.Flattening

/-! Getters that hand on to another object. A class has getters for what the structures that it inlines
contain, and each of them asks the object that stands for the structure. The class of that object, or
one that it is based on, has a getter of the same name. -/
namespace SchemaForge
open Source

namespace ClassModel

/-- The class of a structure, and the classes on its chain of base classes. -/
inductive Lineage (t : Target) (s : Schema) : String → ClassModel → Prop where
  | own {type : String} {m : ClassModel} (made : modelOf t s type = .ok m) : Lineage t s type m
  | base {type base : String} {m m' : ClassModel} (made : modelOf t s type = .ok m)
      (based : m.base = some base) (rest : Lineage t s base m') : Lineage t s type m'

section
variable {t : Target} {s : Schema} {name : String} {m : ClassModel}

/-- Whether the class of every structure can be made that is inlined somewhere and not hidden. -/
def AllMade (t : Target) (s : Schema) : Prop :=
  ∀ owner ∈ s.names, ∀ site ∈ s.sites owner, ∀ type ∈ s.inlined? site, isHidden type = false →
    (modelOf t s type).toOption.isSome = true

instance : Decidable (AllMade t s) :=
  inferInstanceAs (Decidable (∀ owner ∈ s.names, ∀ site ∈ s.sites owner, ∀ type ∈ s.inlined? site,
    isHidden type = false → (modelOf t s type).toOption.isSome = true))

theorem AllMade.exists_model (h : AllMade t s) {site : Site} {type : String}
    (hin : s.inlined? site = some type) (hidden : isHidden type = false) :
    ∃ m, modelOf t s type = .ok m := by
  obtain ⟨r, hr, -⟩ := Option.bind_eq_some_iff.1 hin
  obtain ⟨hname, hsite⟩ := Schema.mem_sites_of_attributeAt? hr
  exact Checked.exists_ok (h site.owner hname site hsite type hin hidden)

/-- Whether anyone can ask for the value of an attribute by its name. -/
def isAsked (x : Member) : Bool :=
  !x.isReserved && !x.isAggregate && x.kind != .sizeField && x.name != "size"

theorem mem_shown {f : BraceTarget} {e : Entry} (he : e ∈ m.entries) (hs : e.isSuper = false)
    (ha : isAsked e.toMember = true) : e ∈ f.shown m := by
  cases f <;> simp_all [BraceTarget.shown, JavaClass.shown, TypeScriptClass.shown, isAsked]

theorem isAsked_of_shown {f : BraceTarget} {e : Entry} (he : e ∈ f.shown m)
    (hi : e.isInline = true) (hn : e.name ≠ "size") :
    e ∈ m.entries ∧ e.isSuper = false ∧ isAsked e.toMember = true := by
  cases f <;> simp_all [BraceTarget.shown, JavaClass.shown, TypeScriptClass.shown, isAsked]

/-- What a structure reaches through an inline attribute with a class, the structure of that attribute
reaches on a shorter way. -/
theorem AllMade.exists_shorter (h : AllMade t s) {v : Visit} (hv : s.Reaches name v) {i : Inline}
    (hi : v.root? = some i) : ∃ m rest, modelOf t s i.type = .ok m ∧ rest.length < v.path.length ∧
      s.Reaches i.type ⟨rest, v.site⟩ := by
  obtain ⟨hclass, path, rest, hpath, -⟩ := List.find?_eq_some_iff_append.1 hi
  obtain ⟨last, hleads, hlast⟩ := hv
  rw [hpath] at hleads
  obtain ⟨-, hinlined, hrest⟩ := hleads.split
  obtain ⟨m, hm⟩ := h.exists_model hinlined (by simpa using hclass)
  refine ⟨m, rest, hm, ?_, last, hrest, hlast⟩
  rw [hpath, List.length_append, List.length_cons]
  omega

/-- What a structure reaches has a getter in its class or in one that the class is based on. -/
theorem exists_getter {f : BraceTarget} (hall : AllMade f.target s)
    (hm : modelOf f.target s name = .ok m) {v : Visit} (hv : s.Reaches name v)
    (hshown : s.isShown v.site = true) {x : Member}
    (hx : memberOf f.target s.settled v.site = .ok x) (ha : isAsked x = true) :
    ∃ m' g, Lineage f.target s name m' ∧ g ∈ f.shown m' ∧ g.toMember = x := by
  -- Every base class stands further down on the way to the attribute.
  induction hn : v.path.length using Nat.strongRecOn generalizing name m v with
  | ind n ih =>
    obtain ⟨h, hf, -, hbase, hdrawn, -, -⟩ := drawn_of_model hm
    have hmem := (mem_visits hm).2 ⟨hv, hshown⟩
    obtain ⟨g, hg, hdepicts⟩ := exists_of_forall₂ (depicts_of_drawn hdrawn) hmem
    have hgx : g.toMember = x := by
      have hmember := hdepicts.member
      rw [hf, hx] at hmember
      exact (Except.ok.inj hmember).symm
    by_cases hsuper : g.isSuper = true
    · have hplain : g.isAggregate = false := by
        rw [hgx]
        simp_all [isAsked]
      obtain ⟨i, hi, hbased⟩ := ((flattens_of_depicts hm hbase hmem hdepicts).isSuper hplain).1 hsuper
      obtain ⟨m₁, rest, hm₁, hshorter, hrest⟩ := hall.exists_shorter hv hi
      obtain ⟨m', g', hline, hg', hgx'⟩ := ih rest.length (hn ▸ hshorter) hm₁ hrest hshown hx rfl
      exact ⟨m', g', .base hm hbased hline, hg', hgx'⟩
    · exact ⟨m, g, .own hm, mem_shown hg (by simpa using hsuper) (by rw [hgx]; exact ha), hgx⟩

/-- A getter that hands on finds its target. It asks the one object of its name, and the class of that
object or one that it is based on has a getter of the same name and type for the same attribute. -/
theorem delegating_getter_resolves {f : BraceTarget} (hall : AllMade f.target s)
    (hm : modelOf f.target s name = .ok m) (hnames : (m.outerEntries.map (·.name)).Nodup) {e : Entry}
    (he : e ∈ f.shown m) (hi : e.isInline = true) (hn : e.name ≠ "size") :
    ∃ a ∈ m.own, a.isAggregate = true ∧ e.aggregateName = some a.name ∧
      (∀ a' ∈ m.outerEntries, a'.name = a.name → a' = a) ∧
      f.Displays m (indent (opened (f.getterHead e.toMember) :: indent [f.handsOn a.name e.name])) ∧
      ∃ type m' g, s.inlined? a.site = some type ∧ Lineage f.target s type m' ∧ g ∈ f.shown m' ∧
        g.site = e.site ∧ g.name = e.name ∧ g.varType = e.varType ∧
        f.Displays m' (indent [opened (f.getterHead e.toMember)]) := by
  obtain ⟨hmem, hsuper, hasked⟩ := isAsked_of_shown he hi hn
  have hreserved : e.isReserved = false := by simp_all [isAsked]
  obtain ⟨h, hf, -, hbase, hdrawn, -, -⟩ := drawn_of_model hm
  obtain ⟨v, hv, hdepicts⟩ := exists_depicted (depicts_of_drawn hdrawn) hmem
  have hflattens := flattens_of_depicts hm hbase hv hdepicts
  obtain ⟨i, hroot, hother⟩ := (hflattens.isInline (by simp_all [isAsked])).1 hi
  obtain ⟨a, ha, hsite, hinlined, haggregate, haname, hnone, hainline, hasuper⟩ :=
    exists_root hm hv hroot
  have hname : e.aggregateName = some a.name := by
    rw [hflattens.aggregateName, hroot, haname]
    rfl
  have houter : ∀ a ∈ m.entries, a.isAggregate = true → a.aggregateName = none → a ∈ m.outerEntries :=
    fun a ha haggregate hnone => List.mem_filter.2 ⟨ha, by simp [haggregate, hnone]⟩
  refine ⟨a, ?_, haggregate, hname, ?_, ?_, ?_⟩
  · have hown : a.isSuper = false := by simpa [hasuper] using hother
    exact List.mem_filter.2 ⟨ha, by simp [hown, hainline]⟩
  · intro a' ha' hsame
    exact List.inj_on_of_nodup_map hnames ha' (houter a ha haggregate hnone) hsame
  · exact BraceTarget.displays_handsOn he hreserved hn hi hname
  · obtain ⟨hreaches, hshown⟩ := (mem_visits hm).1 hv
    obtain ⟨m₁, rest, hm₁, -, hrest⟩ := hall.exists_shorter hreaches hroot
    have hmember := hdepicts.member
    rw [hf] at hmember
    obtain ⟨m', g, hline, hg, hge⟩ := exists_getter hall hm₁ hrest hshown hmember hasked
    have hgreserved : g.isReserved = false := by rw [hge]; exact hreserved
    have hgname : g.name = e.name := congrArg Member.name hge
    refine ⟨i.type, m', g, hsite ▸ hinlined, hline, hg, congrArg Member.site hge, hgname,
      congrArg Member.varType hge, ?_⟩
    rw [← hge]
    exact BraceTarget.displays_getterHead hg hgreserved (by rw [hgname]; exact hn)

end

def parcelSchema : Schema := ⟨[
  ("Amount", .table [("type", "byte"), ("size", .int 8)]),
  ("Stamp", .table [("type", "struct"), ("layout", .list [
    .table [("name", "time"), ("type", "Amount")]])]),
  ("Receipt", .table [("type", "struct"), ("layout", .list [
    .table [("disposition", "inline"), ("type", "Stamp")],
    .table [("name", "fee"), ("type", "Amount")]])]),
  ("Route", .table [("type", "struct"), ("layout", .list [
    .table [("disposition", "inline"), ("type", "Receipt")],
    .table [("name", "target"), ("type", "Amount")]])]),
  ("Label", .table [("type", "struct"), ("layout", .list [
    .table [("name", "owner"), ("type", "Amount")]])]),
  ("Parcel", .table [("type", "struct"), ("layout", .list [
    .table [("disposition", "inline"), ("type", "Label")],
    .table [("disposition", "inline"), ("type", "Route")]])])]⟩

/-- A parcel asks its route for the time of a stamp, which is two base classes above the route. -/
theorem delegating_getter_resolves_parcel : ∃ m e, modelOf .java parcelSchema "Parcel" = .ok m ∧
    e ∈ BraceTarget.java.shown m ∧ e.name = "time" ∧ e.aggregateName = some "route" ∧
    (∃ m', modelOf .java parcelSchema "Route" = .ok m' ∧ m'.base = some "Receipt") ∧
    (∃ m', modelOf .java parcelSchema "Receipt" = .ok m' ∧ m'.base = some "Stamp") ∧
    ∃ a ∈ m.own, a.isAggregate = true ∧ e.aggregateName = some a.name ∧
      (∀ a' ∈ m.outerEntries, a'.name = a.name → a' = a) ∧
      BraceTarget.java.Displays m
        (indent (opened (BraceTarget.java.getterHead e.toMember) ::
          indent [BraceTarget.java.handsOn a.name e.name])) ∧
      ∃ type m' g, parcelSchema.inlined? a.site = some type ∧ Lineage .java parcelSchema type m' ∧
        g ∈ BraceTarget.java.shown m' ∧ g.site = e.site ∧ g.name = e.name ∧ g.varType = e.varType ∧
        BraceTarget.java.Displays m' (indent [opened (BraceTarget.java.getterHead e.toMember)]) := by
  let made := modelOf .java parcelSchema "Parcel"
  obtain ⟨m, hm⟩ : ∃ m, made = .ok m := Checked.exists_ok (by decide +kernel)
  obtain ⟨m₁, hm₁⟩ : ∃ m, modelOf .java parcelSchema "Route" = .ok m :=
    Checked.exists_ok (by decide +kernel)
  obtain ⟨m₂, hm₂⟩ : ∃ m, modelOf .java parcelSchema "Receipt" = .ok m :=
    Checked.exists_ok (by decide +kernel)
  have hall : AllMade BraceTarget.java.target parcelSchema := by decide +kernel
  have hnames : made.toOption.map (fun m => m.outerEntries.map (·.name)) =
      some ["label", "route"] := by decide +kernel
  have hshown : made.toOption.map (fun m => (BraceTarget.java.shown m).map fun e =>
      (e.name, e.aggregateName, e.isInline)) =
      some [("time", some "route", true), ("fee", some "route", true),
        ("target", some "route", true)] := by decide +kernel
  rw [hm, Checked.toOption_ok, Option.map_some, Option.some.injEq] at hnames hshown
  obtain ⟨e, he, hedge⟩ := List.exists_of_mem_map (hshown ▸ List.mem_cons_self)
  simp only [Prod.mk.injEq] at hedge
  obtain ⟨hname, haggregate, hinline⟩ := hedge
  refine ⟨m, e, hm, he, hname, haggregate, ⟨m₁, hm₁, ?_⟩, ⟨m₂, hm₂, ?_⟩, ?_⟩
  · exact (base_eq hm₁).trans (by decide +kernel)
  · exact (base_eq hm₂).trans (by decide +kernel)
  · exact delegating_getter_resolves hall hm (hnames ▸ by decide) he hinline (by simp [hname])

end ClassModel
end SchemaForge
