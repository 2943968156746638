import SchemaForge.Proofs.Extents
import SchemaForge.Proofs.Search

/-! Size fields. A size field belongs to the one attribute beside it that has it as its size, but its
class takes the first such attribute on its tour for the array that it counts. -/
namespace SchemaForge
open Source Checked

theorem Checked.filterAuxM_eq_filter {α : Type} {f : α → Checked Bool} {p : α → Bool}
    {l acc kept : List α} (hf : ∀ a ∈ l, ∀ b, f a = .ok b → b = p a)
    (h : l.filterAuxM f acc = .ok kept) : kept = (l.filter p).reverse ++ acc := by
  induction l generalizing acc with
  | nil => exact (Except.ok.inj h).symm
  | cons a l ih =>
    rw [List.filterAuxM] at h
    obtain ⟨b, hb, h⟩ := Checked.bind_eq_ok.1 h
    rw [ih (fun a' ha' => hf a' (List.mem_cons_of_mem _ ha')) h, List.filter_cons,
      ← hf a List.mem_cons_self b hb]
    cases b <;> simp

theorem Checked.filterM_eq_filter {α : Type} {f : α → Checked Bool} {p : α → Bool} {l kept : List α}
    (hf : ∀ a ∈ l, ∀ b, f a = .ok b → b = p a) (h : l.filterM f = .ok kept) : kept = l.filter p := by
  obtain ⟨reversed, hreversed, h⟩ := Checked.bind_eq_ok.1 h
  rw [← Except.ok.inj h, Checked.filterAuxM_eq_filter hf hreversed, List.append_nil,
    List.reverse_reverse]

namespace Value

theorem is_eq_ok {v value : Value} {key : String} {found : Bool} (h : v.is key value = .ok found) :
    found = v.record?.any (·.is key value) := by
  cases v with
  | table entries => exact Except.ok.inj (h.symm.trans (is_record ⟨entries⟩ key value))
  | _ =>
    obtain ⟨held, -, h⟩ := bind_eq_ok.1 h
    cases held with
    | false => exact (Except.ok.inj h).symm
    | true => simp [Value.need] at h

end Value

namespace Schema
variable {s : Schema}

theorem hasAt_settled {key : String} (ho : key ≠ "aggregate_class") (hn : key ≠ "name") (s : Schema)
    (value : Value) : s.settled.hasAt key value = s.hasAt key value := by
  funext site
  rw [hasAt, attributeAt_settled, Record.is_settled _ ho hn, hasAt]

/-- The attributes of a structure with a value under a key are as many as those in its layout. -/
theorem length_filter_hasAt {owner : String} {layout kept : List Value} {key : String} {value : Value}
    (hl : (s.need owner >>= Value.layout) = .ok layout)
    (h : layout.filterM (·.is key value) = .ok kept) :
    ((s.sites owner).filter (s.hasAt key value)).length = kept.length := by
  have hkept := filterM_eq_filter (fun v _ b hb => Value.is_eq_ok hb) h
  have hsame : (sited owner layout).filter (fun p => s.hasAt key value p.1) =
      (sited owner layout).filter fun p => p.2.record?.any (·.is key value) := by
    apply List.filter_congr
    intro p hp
    rw [hasAt, attributeAt, placed_sited hl p hp]
    cases p.2.record? <;> rfl
  rw [hkept, ← map_fst_sited hl]
  nth_rewrite 2 [← map_snd_sited owner layout]
  rw [List.filter_map, List.filter_map, List.length_map, List.length_map]
  exact congrArg List.length hsame

end Schema

/-- The length of an array, and the bytes that it takes, as a number of the type of a size field. -/
def JavaClass.lengths (e : Entry) (getter : String) (padding : Nat) : List String :=
  [s!"({e.varType}) GeneratorUtils.getSize({getter})",
    s!"({e.varType}) GeneratorUtils.getSumSize({getter}, {padding})"]

/-- Lines that write the length of an array, or the bytes that it takes, as a size field. -/
def TypeScriptClass.countings (e : Entry) (held writer : String) (padding : Nat) : List (List String) :=
  [[s!"{bytesOf e}{writer}({held}.length);"],
    [s!"const {e.name} = {paddedSum held padding};", s!"{bytesOf e}{writer}({e.name});"]]

/-- Lines that set a variable to the length of an array, or to the bytes that it takes. -/
def PythonTransaction.countings (array : String) : List (List String) :=
  [[s!"size_value = len(self.{Text.camelToSnake array})"],
    ["# calculate payload size", "size_value = 0", s!"for _ in self.{array}:",
      "    size_value += self._get_size_aligned(_)"]]

namespace ClassForm

/-- Whether code writes the length of the array with a name, or the bytes that it takes, as a size
field. -/
def Counts (s : Schema) (e : Entry) (array : Value) (code : String) : ClassForm → Prop
  | java => ∃ method reverse shown, Width.javaWrite e.size = .ok method ∧
      Width.javaReverse e.size = .ok reverse ∧ array.upperFirst = .ok (.text shown) ∧
      ∃ length ∈ JavaClass.lengths e ("this.get" ++ shown ++ "()") (alignmentOf s e),
        code = Text.strip s!"dataOutputStream.{method}({reverse length});"
  | typescript => ∃ writer, Width.scriptWrite e.size = .ok writer ∧
      ∃ lines ∈ TypeScriptClass.countings e s!"this.{array.spell}" writer (alignmentOf s e),
        code = TypeScriptClass.written lines
  | python => ∃ name length : String, array = .text name ∧
      length = s!"len(self.{PythonClass.getterName name}())" ∧
      code = PythonClass.statements
        [PythonClass.concat (PythonClass.toBuffer length e) ++ "  # kind:SIZE_FIELD"]
  | transaction => ∃ lines ∈ PythonTransaction.countings array.spell,
      code = PythonClass.statements (lines ++
        [PythonClass.concat (PythonClass.toBuffer "size_value" e) ++ "  # kind:SIZE_FIELD"])

end ClassForm

theorem Source.counted_of_parent {s : Schema} {e : Entry} {site : Site} (h : e.parent = some site) :
    counted s e = .ok (s.attributeAt site) := by
  rw [counted, h]
  rfl

section
variable {s : Schema} {m : ClassModel} {e : Entry} {site : Site} {code : String}

theorem JavaClass.counts_of_serialize (hk : e.kind = .sizeField) (hp : e.parent = some site)
    (h : serialize s m e = .ok code) :
    ∃ array, (s.attributeAt site).get? "name" = some array ∧ ClassForm.java.Counts s e array code := by
  simp only [serialize, hk] at h
  obtain ⟨written, hwritten, h⟩ := bind_eq_ok.1 h
  simp only [writeCount, countedGetter, counted_of_parent hp, ok_bind] at hwritten
  obtain ⟨method, hmethod, hwritten⟩ := bind_eq_ok.1 hwritten
  obtain ⟨reverse, hreverse, hwritten⟩ := bind_eq_ok.1 hwritten
  obtain ⟨length, hlength, hwritten⟩ := bind_eq_ok.1 hwritten
  obtain ⟨getter, hgetter, hlength⟩ := bind_eq_ok.1 hlength
  obtain ⟨array, harray, hgetter⟩ := bind_eq_ok.1 hgetter
  obtain ⟨upper, hupper, hgetter⟩ := bind_eq_ok.1 hgetter
  obtain ⟨shown, hshown, hgetter⟩ := bind_eq_ok.1 hgetter
  obtain rfl := Value.eq_text_of_joined hshown
  refine ⟨array, Record.need_eq_ok.1 harray, method, reverse, shown, hmethod, hreverse, hupper, length,
    ?_, ?_⟩
  · rw [← Except.ok.inj hgetter] at hlength
    by_cases hv : (s.attributeAt site).isVar = true
    · simp only [hv, if_true] at hlength
      rw [← Except.ok.inj hlength]
      exact List.mem_cons_of_mem _ List.mem_cons_self
    · simp only [hv, Bool.false_eq_true, if_false] at hlength
      rw [← Except.ok.inj hlength]
      exact List.mem_cons_self
  · rw [← Except.ok.inj h, ← Except.ok.inj hwritten]

theorem TypeScriptClass.counts_of_serialize (hk : e.kind = .sizeField) (hp : e.parent = some site)
    (h : serialize s m e = .ok code) :
    ∃ array, (s.attributeAt site).get? "name" = some array ∧
      ClassForm.typescript.Counts s e array code := by
  obtain ⟨lines, hlines, h⟩ := bind_eq_ok.1 h
  simp only [writeLines, hk, countLines, counted_of_parent hp, ok_bind] at hlines
  by_cases hv : (s.attributeAt site).isVar = true
  · simp only [hv, if_true] at hlines
    obtain ⟨array, harray, hlines⟩ := bind_eq_ok.1 hlines
    obtain ⟨writer, hwriter, hlines⟩ := bind_eq_ok.1 hlines
    refine ⟨array, Record.need_eq_ok.1 harray, writer, hwriter, lines, ?_, (Except.ok.inj h).symm⟩
    rw [← Except.ok.inj hlines]
    exact List.mem_cons_of_mem _ List.mem_cons_self
  · simp only [hv, Bool.false_eq_true, if_false] at hlines
    obtain ⟨writer, hwriter, hlines⟩ := bind_eq_ok.1 hlines
    obtain ⟨array, harray, hlines⟩ := bind_eq_ok.1 hlines
    refine ⟨array, Record.need_eq_ok.1 harray, writer, hwriter, lines, ?_, (Except.ok.inj h).symm⟩
    have hopen : "(this." = "(" ++ "this." := rfl
    rw [← Except.ok.inj hlines]
    apply List.mem_cons.2
    left
    simp only [bytesOf, toString, String.append_assoc, hopen]

theorem PythonClass.counts_of_serialize (hk : e.kind = .sizeField) (hp : e.parent = some site)
    (h : serialize s m e = .ok code) :
    ∃ array, (s.attributeAt site).get? "name" = some array ∧ ClassForm.python.Counts s e array code := by
  simp only [serialize, hk, counted_of_parent hp, ok_bind] at h
  obtain ⟨array, harray, h⟩ := bind_eq_ok.1 h
  obtain ⟨name, hname, h⟩ := bind_eq_ok.1 h
  obtain rfl := Value.eq_text_of_joined hname
  exact ⟨_, Record.need_eq_ok.1 harray, name, _, rfl, rfl, (Except.ok.inj h).symm⟩

theorem PythonTransaction.counts_of_serialize (hk : e.kind = .sizeField) (hp : e.parent = some site)
    (h : serialize s m e = .ok code) :
    ∃ array, (s.attributeAt site).get? "name" = some array ∧
      ClassForm.transaction.Counts s e array code := by
  simp only [serialize, hk] at h
  obtain ⟨counting, hcounting, h⟩ := bind_eq_ok.1 h
  simp only [countLines, counted_of_parent hp, ok_bind] at hcounting
  obtain ⟨array, harray, hcounting⟩ := bind_eq_ok.1 hcounting
  refine ⟨array, Record.need_eq_ok.1 harray, counting, ?_, (Except.ok.inj h).symm⟩
  split at hcounting
  · rw [← Except.ok.inj hcounting]
    exact List.mem_cons_of_mem _ List.mem_cons_self
  · obtain ⟨name, hname, hcounting⟩ := bind_eq_ok.1 hcounting
    rw [← Except.ok.inj hcounting, Value.eq_text_of_joined hname, Value.spell_text]
    exact List.mem_cons_self

theorem ClassForm.counts_of_write {f : ClassForm} (hk : e.kind = .sizeField) (hp : e.parent = some site)
    (h : f.write s m e = .ok code) :
    ∃ array, (s.attributeAt site).get? "name" = some array ∧ f.Counts s e array code := by
  cases f with
  | java => exact JavaClass.counts_of_serialize hk hp h
  | typescript => exact TypeScriptClass.counts_of_serialize hk hp h
  | python => exact PythonClass.counts_of_serialize hk hp h
  | transaction => exact PythonTransaction.counts_of_serialize hk hp h

end

namespace ClassModel
variable {t : Target} {s : Schema} {name : String} {m : ClassModel}

theorem findSite_of_model (hm : modelOf t s name = .ok m) :
    ∀ e ∈ m.entries, s.findSite name "size" e.name = .ok e.parent := by
  obtain ⟨f, -, rfl, -, hdrawn, -, -⟩ := drawn_of_model hm
  refine forall_of_drawn ?_ hdrawn
  intro s' before site aggregate e hs h
  obtain ⟨member, -, h⟩ := bind_eq_ok.1 h
  obtain ⟨r, -, h⟩ := bind_eq_ok.1 h
  obtain ⟨conditionSite, -, h⟩ := bind_eq_ok.1 h
  obtain ⟨parent, hparent, rfl⟩ := return_eq_ok.1 h
  have alike := fun s : Schema => Schema.findSite_settled
    (Schema.fitsAlike (by decide : "size" ≠ "aggregate_class") (by decide) s member.name) f.name
  rw [← alike, ← hs, alike]
  exact hparent

/-- The attribute to which a member belongs is the first one on the tour that has it as its size. -/
theorem parent_eq_find? (hm : modelOf t s name = .ok m) {e : Entry} (he : e ∈ m.entries) :
    e.parent = (s.met s.depthLimit name).find? (s.hasAt "size" e.name) := by
  obtain ⟨-, -, -, -, -, hends, -⟩ := drawn_of_model hm
  have hfound := Schema.findSite_eq_find? (findSite_of_model hm e he)
  rw [hfound, Schema.met, Schema.tour_succ hends, Schema.met]

theorem mem_met_of_model (hm : modelOf t s name = .ok m) {e : Entry} (he : e ∈ m.entries) :
    e.site ∈ s.met s.depthLimit name := by
  obtain ⟨f, -, -, -, hdrawn, -, -⟩ := drawn_of_model hm
  obtain ⟨v, hv, hdepicts⟩ := exists_depicted (depicts_of_drawn hdrawn) he
  obtain ⟨stop, hstop, hvisit⟩ := List.mem_filterMap.1 hv
  refine List.mem_filterMap.2 ⟨stop, hstop, ?_⟩
  rw [depicts_site hdepicts]
  cases stop with
  | meet path site =>
    simp only [Stop.visit?] at hvisit
    split at hvisit
    · rw [← Option.some.inj hvisit]
      rfl
    · cases hvisit
  | _ => cases hvisit

/-- Beside a size field stands exactly one attribute that has it as its size. -/
theorem MemberFrom.exists_own {site : Site} {r : Record} {x : Member} (hx : MemberFrom t s site r x)
    (hk : x.kind = .sizeField) : ∃ own, (s.sites site.owner).filter (s.hasAt "size" x.name) = [own] := by
  obtain ⟨layout, hlayout, hkind⟩ := hx.kind
  obtain ⟨named, hnamed, hname⟩ := bind_eq_ok.1 hx.name
  obtain rfl := Value.eq_text_of_joined hname
  obtain ⟨found, hfound, hcounts⟩ := bind_eq_ok.1 ((Value.kind_cases hkind).2 hk)
  rw [Value.need_record, hnamed] at hfound
  obtain rfl := Except.ok.inj hfound
  obtain ⟨items, hitems, hcounts⟩ := bind_eq_ok.1 hcounts
  obtain rfl : layout = items := Except.ok.inj hitems
  obtain ⟨sized, hsized, hcounts⟩ := bind_eq_ok.1 hcounts
  have hone : sized.length = 1 := by simpa using hcounts
  have hlength := Schema.length_filter_hasAt hlayout hsized
  rw [hone] at hlength
  exact List.length_eq_one_iff.1 hlength

theorem exists_own_of_sizeField (hm : modelOf t s name = .ok m) {e : Entry} (he : e ∈ m.entries)
    (hk : e.kind = .sizeField) :
    ∃ own, (s.sites e.site.owner).filter (s.hasAt "size" e.name) = [own] := by
  obtain ⟨f, -, -, -, hdrawn, -, -⟩ := drawn_of_model hm
  obtain ⟨v, -, hdepicts⟩ := exists_depicted (depicts_of_drawn hdrawn) he
  have hmember := hdepicts.member
  rw [← depicts_site hdepicts] at hmember
  obtain ⟨r, hx⟩ := memberFrom_of_memberOf hmember
  have hown := hx.exists_own hk
  rwa [Schema.sites_settled, Schema.hasAt_settled (by decide) (by decide)] at hown

/-- Beside a size field stands exactly one attribute that has it as its size. The class takes the first
such attribute on its tour for the array that the field counts, and writes the length of that one. It is
the one beside the field exactly when no attribute that comes before on the tour, be it in another
structure, has a size of that name. -/
theorem size_field_counts_first {e : Entry} (hm : modelOf t s name = .ok m) (he : e ∈ m.entries)
    (hk : e.kind = .sizeField) :
    ∃ own found, (s.sites e.site.owner).filter (s.hasAt "size" e.name) = [own] ∧
      e.parent = some found ∧ found ∈ s.met s.depthLimit name ∧
      s.hasAt "size" e.name found = true ∧
      (found = own ↔ ∃ before after, s.met s.depthLimit name = before ++ own :: after ∧
        ∀ site ∈ before, s.hasAt "size" e.name site = false) ∧
      ∀ s₁ code, m.source t s₁ = .ok code → e ∈ m.own → ∃ ms write array,
        (ClassForm.of t m).Shows m ms code ∧ Codes ms.writes e write ∧
        (s₁.attributeAt found).get? "name" = some array ∧
        (ClassForm.of t m).Counts s₁ e array write := by
  obtain ⟨own, hown⟩ := exists_own_of_sizeField hm he hk
  have hparent := parent_eq_find? hm he
  have hmem : own ∈ (s.sites e.site.owner).filter (s.hasAt "size" e.name) := by simp [hown]
  obtain ⟨hbeside, hsized⟩ := List.mem_filter.1 hmem
  have hmet := Schema.mem_met_of_sites (mem_met_of_model hm he) hbeside
  cases hfound : e.parent with
  | none =>
    rw [hfound] at hparent
    have hnot := List.find?_eq_none.1 hparent.symm own hmet
    exact absurd hsized hnot
  | some found =>
    have hfirst : (s.met s.depthLimit name).find? (s.hasAt "size" e.name) = some found := by
      rw [← hparent, hfound]
    refine ⟨own, found, hown, rfl, List.mem_of_find?_eq_some hfirst, List.find?_some hfirst, ?_, ?_⟩
    · have hiff : found = own ↔
          (s.met s.depthLimit name).find? (s.hasAt "size" e.name) = some own := by
        rw [hfirst, Option.some.injEq]
      rw [hiff, List.find?_eq_some_iff_append]
      simp [hsized]
    · intro s₁ code hcode hmine
      obtain ⟨ms, hms, hshows⟩ := shows_of_source hcode
      obtain ⟨-, -, write, -, -, -, -, hwrite, hwritten⟩ := ClassForm.codes_of_methods hms hmine
      obtain ⟨array, harray, hcounts⟩ := ClassForm.counts_of_write hk hfound hwrite
      exact ⟨ms, write, array, hshows, hwritten, harray, hcounts⟩

/-- A structure that has a size field of the same name as its base class. -/
def crateSchema : Schema := ⟨[
  ("Amount", .table [("type", "byte"), ("size", .int 8)]),
  ("Shelf", .table [("type", "struct"), ("layout", .list [
    .table [("name", "itemCount"), ("type", "byte"), ("size", .int 1)],
    .table [("name", "items"), ("type", "Amount"), ("size", "itemCount")]])]),
  ("Crate", .table [("type", "struct"), ("layout", .list [
    .table [("disposition", "inline"), ("type", "Shelf")],
    .table [("name", "itemCount"), ("type", "byte"), ("size", .int 1)],
    .table [("name", "lids"), ("type", "Amount"), ("size", "itemCount")]])])]⟩

theorem size_field_counts_first_crate : ∃ m e own found,
    modelOf .java crateSchema "Crate" = .ok m ∧ e ∈ m.own ∧ e.kind = .sizeField ∧
    (crateSchema.sites e.site.owner).filter (crateSchema.hasAt "size" e.name) = [own] ∧
    e.parent = some found ∧ own = ⟨"Crate", 2⟩ ∧ found = ⟨"Shelf", 1⟩ ∧
    ¬ ∃ before after, crateSchema.met crateSchema.depthLimit "Crate" = before ++ own :: after ∧
      ∀ site ∈ before, crateSchema.hasAt "size" e.name site = false := by
  obtain ⟨m, hm⟩ : ∃ m, modelOf .java crateSchema "Crate" = .ok m :=
    Checked.exists_ok (by decide +kernel)
  have hfields : (modelOf .java crateSchema "Crate").toOption.map (fun m =>
      (m.own.filter (·.kind = .sizeField)).map fun e => (e.name, e.site, e.parent)) =
      some [("itemCount", ⟨"Crate", 1⟩, some ⟨"Shelf", 1⟩)] := by
    decide +kernel
  rw [hm, Checked.toOption_ok, Option.map_some, Option.some.injEq, List.map_eq_cons_iff] at hfields
  obtain ⟨e, _, hlist, hfacts, -⟩ := hfields
  have hmem : e ∈ m.own.filter (·.kind = .sizeField) := by simp [hlist]
  obtain ⟨hmine, hkind⟩ := List.mem_filter.1 hmem
  have hk : e.kind = .sizeField := by simpa using hkind
  obtain ⟨hname, hsite, hparent⟩ : e.name = "itemCount" ∧ e.site = ⟨"Crate", 1⟩ ∧
      e.parent = some ⟨"Shelf", 1⟩ := by
    simpa using hfacts
  obtain ⟨own, found, hown, hfound, -, -, hiff, -⟩ :=
    size_field_counts_first hm (List.mem_filter.1 hmine).1 hk
  have hbeside : (crateSchema.sites "Crate").filter (crateSchema.hasAt "size" "itemCount") =
      [⟨"Crate", 2⟩] := by
    decide +kernel
  have hownSite : own = ⟨"Crate", 2⟩ := by
    have hsame := hown
    rw [hsite, hname, hbeside] at hsame
    exact (List.singleton_inj.1 hsame).symm
  have hfoundSite : found = ⟨"Shelf", 1⟩ := Option.some.inj (hfound.symm.trans hparent)
  refine ⟨m, e, own, found, hm, hmine, hk, hown, hfound, hownSite, hfoundSite, ?_⟩
  rw [← hiff, hownSite, hfoundSite]
  decide

end ClassModel
end SchemaForge
