import SchemaForge.Proofs.Alike

/-! Searches through a structure and what it inlines. A search comes by the attributes in the order of a
walk, so it ends at the first one on the tour that has what is looked for. -/
namespace SchemaForge

/-- The attribute that a walk meets at a stop. -/
def Stop.site? : Stop → Option Site
  | .meet _ site => some site
  | _ => none

theorem Stop.site?_under (outer : List Inline) (stop : Stop) : (stop.under outer).site? = stop.site? := by
  cases stop <;> rfl

namespace Schema
variable {s : Schema}

/-- The attributes of a structure and of what it inlines, in the order in which a walk meets them. -/
def met (s : Schema) (limit : Nat) (owner : String) : List Site :=
  (s.tour limit owner).filterMap Stop.site?

/-- What stands behind an attribute, in the order in which a walk meets it. -/
def behind (s : Schema) (limit : Nat) (site : Site) : List Site :=
  match s.inlined? site with
  | some type => s.met limit type
  | none => []

theorem met_succ (s : Schema) (limit : Nat) (owner : String) :
    s.met (limit + 1) owner = (s.sites owner).flatMap fun site => site :: s.behind limit site := by
  rw [met, tour, List.filterMap_cons_none rfl, List.filterMap_flatMap]
  congr 1
  funext site
  rw [List.filterMap_cons_some (f := Stop.site?) (b := site) rfl, behind]
  cases s.inlined? site with
  | none => rfl
  | some type =>
    have hunder : Stop.site? ∘ Stop.under [⟨site, type⟩] = Stop.site? :=
      funext fun stop => stop.site?_under _
    simp only [List.filterMap_map, hunder, met]

/-- A walk that meets an attribute meets all attributes beside it. -/
theorem mem_met_of_sites {limit : Nat} {owner : String} {site other : Site}
    (h : site ∈ s.met limit owner) (ho : other ∈ s.sites site.owner) : other ∈ s.met limit owner := by
  induction limit generalizing owner with
  | zero => cases h
  | succ limit ih =>
    rw [met_succ, List.mem_flatMap] at h ⊢
    obtain ⟨top, htop, h⟩ := h
    rcases List.mem_cons.1 h with rfl | h
    · rw [owner_of_mem_sites htop] at ho
      exact ⟨other, ho, List.mem_cons_self⟩
    · refine ⟨top, htop, List.mem_cons_of_mem _ ?_⟩
      unfold behind at h ⊢
      cases hi : s.inlined? top with
      | none => simp [hi] at h
      | some type =>
        simp only [hi] at h ⊢
        exact ih h

/-- Whether the attribute at a site has a value under a key. -/
def hasAt (s : Schema) (key : String) (value : Value) (site : Site) : Bool :=
  (s.attributeAt site).is key value

theorem hasAt_of_fits {key : String} {value v : Value} {site : Site} {found : Bool}
    (hplaced : s.attributeAt? site = v.record?) (h : fits key value v = .ok found) :
    s.hasAt key value site = found := by
  unfold hasAt attributeAt
  rw [hplaced]
  cases found with
  | true =>
    obtain ⟨r, rfl, hr⟩ := record_of_fits h
    exact hr
  | false =>
    cases v with
    | table entries => exact Except.ok.inj ((fits_record ⟨entries⟩ key value).symm.trans h)
    | _ => rfl

/-- A search among attributes ends at the first one that fits, if searches behind them do so. -/
theorem seekWith_eq_find? {key : String} {value : Value} {depth : Nat}
    (ih : ∀ site v found, s.attributeAt? site = v.record? → v.isInline = .ok true →
      s.seekInside id key value depth v = .ok found →
      found.map (·.1) = (s.behind depth site).find? (s.hasAt key value))
    {attributes : List (Site × Value)} (hplaced : s.Placed attributes) {found : Option (Site × Value)}
    (h : seekWith (s.seekInside id key value depth) key value true attributes = .ok found) :
    found.map (·.1) = ((attributes.map (·.1)).flatMap fun site => site :: s.behind depth site).find?
      (s.hasAt key value) := by
  induction attributes with
  | nil =>
    obtain rfl := Except.ok.inj h
    rfl
  | cons p rest ihrest =>
    obtain ⟨site, v⟩ := p
    have hsite : s.attributeAt? site = v.record? := hplaced (site, v) List.mem_cons_self
    have hlater : seekWith (s.seekInside id key value depth) key value true rest = .ok found →
        found.map (·.1) = ((rest.map (·.1)).flatMap fun site => site :: s.behind depth site).find?
          (s.hasAt key value) := ihrest fun q hq => hplaced q (List.mem_cons_of_mem _ hq)
    rw [seekWith] at h
    obtain ⟨here, hhere, h⟩ := Checked.bind_eq_ok.1 h
    have hhas := hasAt_of_fits hsite hhere
    rw [List.map_cons, List.flatMap_cons, List.cons_append]
    cases here with
    | true =>
      obtain rfl : some (site, v) = found := by simpa using h
      rw [List.find?_cons_of_pos hhas]
      rfl
    | false =>
      rw [List.find?_cons_of_neg (by simp [hhas]), List.find?_append]
      obtain ⟨inline, hinline, h⟩ := Checked.bind_eq_ok.1 h
      cases inline with
      | false =>
        have hnone : s.behind depth site = [] := by
          rw [behind, inlined?_of_isInline hsite hinline]
          rfl
        rw [hnone, List.find?_nil, Option.none_or]
        exact hlater (by simpa using h)
      | true =>
        obtain ⟨inner, hinner, h⟩ := Checked.bind_eq_ok.1 h
        rw [← ih site v inner hsite hinline hinner]
        cases inner with
        | none => exact hlater h
        | some hit =>
          obtain rfl : some hit = found := by simpa using h
          rfl

/-- A search behind an inline attribute ends at the first attribute that fits. -/
theorem seekInside_eq_find? {key : String} {value v : Value} {depth : Nat} {site : Site}
    {found : Option (Site × Value)} (hplaced : s.attributeAt? site = v.record?)
    (hi : v.isInline = .ok true) (h : s.seekInside id key value depth v = .ok found) :
    found.map (·.1) = (s.behind depth site).find? (s.hasAt key value) := by
  induction depth generalizing site v found with
  | zero => cases h
  | succ depth ih =>
    rw [seekInside] at h
    obtain ⟨type, htype, h⟩ := Checked.bind_eq_ok.1 h
    obtain ⟨declared, hdeclared, h⟩ := Checked.bind_eq_ok.1 h
    obtain ⟨layout, hlayout, h⟩ := Checked.bind_eq_ok.1 h
    obtain ⟨name, rfl⟩ := text_of_need hdeclared
    have hl : (s.need name >>= Value.layout) = .ok layout := by rw [hdeclared]; exact hlayout
    have hbehind : s.behind (depth + 1) site = s.met (depth + 1) name := by
      rw [behind, inlined?_of_isInline hplaced hi, htype]
      rfl
    have hseek : seekWith (s.seekInside id key value depth) key value true (sited name layout) =
        .ok found := by
      simpa using h
    rw [hbehind, met_succ, ← map_fst_sited hl]
    exact seekWith_eq_find? (fun _ _ _ hp hv hf => ih hp hv hf) (placed_sited hl) hseek

/-- A search through a structure ends at the first attribute on its tour that fits. -/
theorem findSite_eq_find? {key owner : String} {value : Value} {found : Option Site}
    (h : s.findSite owner key value = .ok found) :
    found = (s.met (s.depthLimit + 1) owner).find? (s.hasAt key value) := by
  rw [findSite_eq] at h
  obtain ⟨layout, hl, h⟩ := Checked.bind_eq_ok.1 h
  obtain ⟨hit, hhit, rfl⟩ := Checked.map_eq_ok.1 h
  rw [met_succ, ← map_fst_sited hl]
  exact seekWith_eq_find? (fun _ _ _ hp hv hf => seekInside_eq_find? hp hv hf) (placed_sited hl) hhit

end Schema
end SchemaForge
