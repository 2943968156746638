import SchemaForge.Proofs.InlineDepth
import SchemaForge.Proofs.SizeFields

/-! What a search through inlined layouts finds: the first attribute with a value under a key, where an
inline attribute comes before the contents of its structure and these before what stands behind it. -/
namespace SchemaForge

/-- Whether an attribute has a value under a key. -/
def Value.carries (key value v : Value) : Bool :=
  v.record?.any fun r => (key.text?.bind r.get?).any (· == value)

namespace Schema
open Checked
variable {s : Schema}

/-- Whether a value is a record and, if it is inline, has a declared type with a layout. -/
def isLaid (s : Schema) (v : Value) : Bool :=
  v.record?.any fun r => !r.isInline ||
    (r.get? "type").any fun type => (s.need type >>= Value.layout).toOption.isSome

/-- The attributes of a layout and of all that they inline, in the order of a search. -/
inductive Listing (s : Schema) : List Value → List Value → Prop where
  | nil : Listing s [] []
  | plain {r : Record} {rest listing : List Value} (plain : r.isInline = false)
      (more : Listing s rest listing) : Listing s (r.value :: rest) (r.value :: listing)
  | inline {r : Record} {type : String} {layout inner rest listing : List Value}
      (inline : r.isInline = true) (typed : r.get? "type" = some (.text type))
      (declared : (s.need type >>= Value.layout) = .ok layout) (inside : Listing s layout inner)
      (more : Listing s rest listing) : Listing s (r.value :: rest) (r.value :: (inner ++ listing))

theorem fits_eq_carries {key : Value} (hk : key.isKey = true) (value : Value) (r : Record) :
    fits key value r.value = .ok (Value.carries key value r.value) := by
  have hentry : Value.entryIn r.entries key = .ok (key.text?.bind r.get?) := by
    rw [Value.entryIn, Value.asKey, if_pos hk]
    rfl
  have hholds : r.value.holds key = .ok (key.text?.bind r.get?).isSome := by
    change (do return (← Value.entryIn r.entries key).isSome) = _
    rw [hentry]
    rfl
  have hpart : r.value.part key = Checked.require key (key.text?.bind r.get?) := by
    change (do Checked.require key (← Value.entryIn r.entries key)) = _
    rw [hentry]
    rfl
  rw [fits, hholds, hpart]
  change _ = Except.ok ((key.text?.bind r.get?).any (· == value))
  cases key.text?.bind r.get? <;> rfl

/-- A search behind an inline attribute is one among the attributes of its type. -/
theorem exists_seekInside_eq {α : Type} (tag : Site → α) (key value : Value) {r : Record} {type : String}
    {layout : List Value} (typed : r.get? "type" = some (.text type))
    (declared : (s.need type >>= Value.layout) = .ok layout) (depth : Nat) :
    ∃ attributes : List (α × Value), attributes.map (·.2) = layout ∧
      s.seekInside tag key value (depth + 1) r.value = s.seek tag key value depth true attributes := by
  obtain ⟨found, hfound, hlayout⟩ := Checked.bind_eq_ok.1 declared
  refine ⟨(sited type layout).map fun p => (tag p.1, p.2), ?_, ?_⟩
  · rw [List.map_map]
    exact map_snd_sited type layout
  · rw [seekInside, Value.need_record, Record.need_eq_ok.2 typed, ok_bind, hfound, ok_bind, hlayout]
    rfl

/-- A search that does not come to its limit ends at the first attribute of the listing that has the
value. -/
theorem seek_of_listing {α : Type} {tag : Site → α} {key : Value} (hk : key.isKey = true) (value : Value)
    {layout listing : List Value} (h : s.Listing layout listing) {attributes : List (α × Value)}
    (hl : attributes.map (·.2) = layout) {depth : Nat}
    (hends : Ends (s.seek tag key value depth true attributes)) :
    (s.seek tag key value depth true attributes).map (·.map (·.2)) =
      .ok (listing.find? (Value.carries key value)) := by
  induction h generalizing attributes depth with
  | nil =>
    obtain rfl := List.map_eq_nil_iff.1 hl
    rfl
  | @plain r rest listing plain _ ih =>
    obtain ⟨⟨a, v⟩, later, rfl, rfl, hrest⟩ := List.map_eq_cons_iff.1 hl
    rw [seek, seekWith, fits_eq_carries hk, ok_bind] at hends ⊢
    cases hcarries : Value.carries key value r.value with
    | true => rw [List.find?_cons_of_pos hcarries]; rfl
    | false =>
      rw [List.find?_cons_of_neg (by simp [hcarries])]
      rw [hcarries, Value.isInline_record, plain] at hends
      rw [Value.isInline_record, plain]
      exact ih hrest hends
  | @inline r type layout inner rest listing inline typed declared _ _ ihi ihm =>
    obtain ⟨⟨a, v⟩, later, rfl, rfl, hrest⟩ := List.map_eq_cons_iff.1 hl
    rw [seek, seekWith, fits_eq_carries hk, ok_bind] at hends ⊢
    cases hcarries : Value.carries key value r.value with
    | true => rw [List.find?_cons_of_pos hcarries]; rfl
    | false =>
      rw [List.find?_cons_of_neg (by simp [hcarries]), List.find?_append]
      rw [hcarries, Value.isInline_record, inline] at hends
      rw [Value.isInline_record, inline]
      have hinner : Ends (s.seekInside tag key value depth r.value) := Ends.first hends
      cases depth with
      | zero => exact absurd rfl hinner
      | succ depth =>
        obtain ⟨attributes, hattributes, heq⟩ := exists_seekInside_eq tag key value typed declared depth
        rw [heq] at hinner
        have hfound := ihi hattributes hinner
        rw [heq] at hends ⊢
        cases hseek : s.seek tag key value depth true attributes with
        | error fault =>
          rw [hseek] at hfound
          cases hfound
        | ok found =>
          rw [hseek] at hfound hends
          rw [← Except.ok.inj hfound]
          cases found with
          | some hit => rfl
          | none => exact ihm hrest hends

theorem findAttribute_list (s : Schema) (layout : List Value) (key value : Value) (deep : Bool) :
    s.findAttribute (.list layout) key value deep = (s.seek (fun _ => ()) key value s.depthLimit deep
      (layout.map fun v => ((), v))).map (·.map (·.2)) := by
  have hitems : (Value.list layout).items = .ok layout := rfl
  simp only [findAttribute, hitems, ok_bind]
  cases s.seek (fun _ => ()) key value s.depthLimit deep (layout.map fun v => ((), v)) <;> rfl

/-- A layout has a listing if the layouts that it inlines have one. -/
theorem exists_listing_of_inner {layout : List Value} (hlaid : ∀ v ∈ layout, s.isLaid v = true)
    (hinner : ∀ v ∈ layout, v.isInline = .ok true → ∀ (type : String) inner,
      v.need "type" = .ok (.text type) → (s.need type >>= Value.layout) = .ok inner →
        ∃ listing, s.Listing inner listing) : ∃ listing, s.Listing layout listing := by
  induction layout with
  | nil => exact ⟨[], .nil⟩
  | cons v rest ih =>
    obtain ⟨listing, hlisting⟩ := ih (fun w hw => hlaid w (List.mem_cons_of_mem _ hw))
      fun w hw => hinner w (List.mem_cons_of_mem _ hw)
    obtain ⟨r, hr, hplace⟩ := (Option.any_eq_true _ _).1 (hlaid v List.mem_cons_self)
    obtain rfl : v = r.value := Value.eq_of_record? hr
    cases hi : r.isInline with
    | false => exact ⟨_, .plain hi hlisting⟩
    | true =>
      rw [hi, Bool.not_true, Bool.false_or] at hplace
      obtain ⟨type, htype, hlayout⟩ := (Option.any_eq_true _ _).1 hplace
      obtain ⟨inner, hdeclared⟩ := Checked.exists_ok hlayout
      obtain ⟨found, hfound, -⟩ := Checked.bind_eq_ok.1 hdeclared
      obtain ⟨name, rfl⟩ := text_of_need hfound
      obtain ⟨inside, hinside⟩ := hinner r.value List.mem_cons_self (by rw [Value.isInline_record, hi]) name
        inner (Record.need_eq_ok.2 htype) hdeclared
      exact ⟨_, .inline hi htype hdeclared hinside hlisting⟩

section
variable (laid : ∀ (owner : String) layout, (s.need owner >>= Value.layout) = .ok layout →
  ∀ v ∈ layout, s.isLaid v = true)
include laid

theorem exists_listing_of_tour {limit : Nat} {owner : String} {layout : List Value}
    (hl : (s.need owner >>= Value.layout) = .ok layout) (h : Stop.endless ∉ s.tour limit owner) :
    ∃ listing, s.Listing layout listing := by
  induction limit generalizing owner layout with
  | zero => exact absurd (List.mem_singleton_self _) h
  | succ limit ih =>
    refine exists_listing_of_inner (laid owner layout hl) ?_
    intro v hv hi type inner htype hinner
    have hmem : v ∈ (sited owner layout).map (·.2) := by rwa [map_snd_sited]
    obtain ⟨p, hp, rfl⟩ := List.mem_map.1 hmem
    obtain ⟨site, hsite, hin⟩ := inlines_of_sited hl hp hi htype
    exact ih hinner (endless_notMem_inner h hsite hin)

end

end Schema

/-- If no structure inlines itself and everything inline has a layout, each layout has a listing, and a
search through the layout finds the first attribute there that has the value, or nothing if none has it. So
each size field of a class has an attribute that it counts. -/
theorem findAttribute_first {s : Schema} (acyclic : s.Acyclic)
    (laid : ∀ (owner : String) layout, (s.need owner >>= Value.layout) = .ok layout →
      ∀ v ∈ layout, s.isLaid v = true) :
    (∀ layout : List Value, (∀ v ∈ layout, s.isLaid v = true) → (∃ listing, s.Listing layout listing) ∧
      ∀ listing, s.Listing layout listing → ∀ key value : Value, key.isKey = true →
        s.findAttribute (.list layout) key value true = .ok (listing.find? (Value.carries key value))) ∧
    ∀ t name m, ClassModel.modelOf t s name = .ok m → ∀ e ∈ m.entries, e.kind = .sizeField →
      ∃ site, e.parent = some site ∧ s.hasAt "size" e.name site = true := by
  refine ⟨fun layout hlayout => ⟨?_, ?_⟩, ?_⟩
  · refine Schema.exists_listing_of_inner hlayout ?_
    intro v _ _ type inner _ hinner
    exact Schema.exists_listing_of_tour laid hinner (Schema.endless_notMem_of_acyclic acyclic type)
  · intro listing hlisting key value hk
    have hvalues : (layout.map fun v => ((), v)).map (·.2) = layout := by
      rw [List.map_map]
      exact List.map_id layout
    rw [Schema.findAttribute_list]
    exact Schema.seek_of_listing hk value hlisting hvalues
      (Schema.seek_ends acyclic (Nat.lt_succ_self s.size) _)
  · intro t name m hm e he hk
    obtain ⟨own, hown⟩ := ClassModel.exists_own_of_sizeField hm he hk
    have hmem : own ∈ (s.sites e.site.owner).filter (s.hasAt "size" e.name) := by simp [hown]
    obtain ⟨hbeside, hsized⟩ := List.mem_filter.1 hmem
    have hmet := Schema.mem_met_of_sites (ClassModel.mem_met_of_model hm he) hbeside
    obtain ⟨site, hsite⟩ := Option.isSome_iff_exists.1 (List.find?_isSome.2 ⟨own, hmet, hsized⟩)
    exact ⟨site, (ClassModel.parent_eq_find? hm he).trans hsite, List.find?_some hsite⟩

/-- A structure that inlines another one, which inlines a hidden one. -/
def chestSchema : Schema := ⟨[
  ("Amount", .table [("type", "byte"), ("size", .int 8)]),
  ("EntityBody", .table [("type", "struct"), ("layout", .list [
    .table [("name", "itemCount"), ("type", "byte"), ("size", .int 1)],
    .table [("name", "items"), ("type", "Amount"), ("size", "itemCount")]])]),
  ("Tray", .table [("type", "struct"), ("layout", .list [
    .table [("disposition", "inline"), ("type", "EntityBody")],
    .table [("name", "weight"), ("type", "Amount")]])]),
  ("Chest", .table [("type", "struct"), ("layout", .list [
    .table [("disposition", "inline"), ("type", "Tray")],
    .table [("name", "lids"), ("type", "Amount"), ("size", "itemCount")]])])]⟩

theorem findAttribute_first_chest :
    chestSchema.findAttribute (.list [.table [("disposition", "inline"), ("type", "Tray")],
      .table [("name", "lids"), ("type", "Amount"), ("size", "itemCount")]]) "size" "itemCount" true =
      .ok (some (.table [("name", "items"), ("type", "Amount"), ("size", "itemCount")])) ∧
    ∃ m, ClassModel.modelOf .java chestSchema "Chest" = .ok m ∧
      ∃ e ∈ m.entries, e.kind = .sizeField ∧ e.parent ≠ none := by
  have acyclic : chestSchema.Acyclic := Schema.acyclic_of_tours (by decide +kernel)
  have hlisted : ∀ p ∈ chestSchema.types, p.2.layout.toOption.all (·.all chestSchema.isLaid) = true := by
    decide +kernel
  have laid : ∀ (owner : String) layout, (chestSchema.need owner >>= Value.layout) = .ok layout →
      ∀ v ∈ layout, chestSchema.isLaid v = true := by
    intro owner layout hl
    obtain ⟨declared, hdeclared, hlayout⟩ := Checked.bind_eq_ok.1 hl
    have hall := hlisted _ (Schema.mem_types_of_get? (Schema.need_eq_ok.1 hdeclared))
    rw [hlayout] at hall
    exact List.all_eq_true.1 hall
  let tray : Record := ⟨[("disposition", "inline"), ("type", "Tray")]⟩
  let lids : Record := ⟨[("name", "lids"), ("type", "Amount"), ("size", "itemCount")]⟩
  let body : Record := ⟨[("disposition", "inline"), ("type", "EntityBody")]⟩
  let weight : Record := ⟨[("name", "weight"), ("type", "Amount")]⟩
  let count : Record := ⟨[("name", "itemCount"), ("type", "byte"), ("size", .int 1)]⟩
  let items : Record := ⟨[("name", "items"), ("type", "Amount"), ("size", "itemCount")]⟩
  have hbody : chestSchema.Listing [count.value, items.value] [count.value, items.value] :=
    .plain rfl (.plain rfl .nil)
  have htray : chestSchema.Listing [body.value, weight.value]
      [body.value, count.value, items.value, weight.value] :=
    .inline rfl rfl rfl hbody (.plain rfl .nil)
  have hchest : chestSchema.Listing [tray.value, lids.value]
      [tray.value, body.value, count.value, items.value, weight.value, lids.value] :=
    .inline rfl rfl rfl htray (.plain rfl .nil)
  obtain ⟨hsearch, hparent⟩ := findAttribute_first acyclic laid
  refine ⟨(hsearch [tray.value, lids.value] (laid "Chest" _ rfl)).2 _ hchest "size" "itemCount" rfl, ?_⟩
  obtain ⟨m, hm⟩ : ∃ m, ClassModel.modelOf .java chestSchema "Chest" = .ok m :=
    Checked.exists_ok (by decide +kernel)
  have hfields : (ClassModel.modelOf .java chestSchema "Chest").toOption.any
      (·.entries.any (·.kind = .sizeField)) = true := by
    decide +kernel
  rw [hm] at hfields
  obtain ⟨e, he, hkind⟩ := List.any_eq_true.1 hfields
  have hk : e.kind = .sizeField := of_decide_eq_true hkind
  obtain ⟨site, hsite, -⟩ := hparent .java "Chest" m hm e he hk
  exact ⟨m, hm, e, he, hk, by rw [hsite]; exact Option.some_ne_none site⟩

end SchemaForge
