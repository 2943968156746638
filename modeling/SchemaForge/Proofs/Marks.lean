import SchemaForge.Proofs.Tour
import SchemaForge.Plan

/-! What the making of models writes into a schema. All target languages leave the same marks in the
same order, as far as they come, and a mark that is there already changes nothing. So the state of a
schema after any number of attempts shows only how far the best of them came. -/
namespace SchemaForge

namespace Value

theorem setIn_eq_self {key : String} {x : Value} {es : List (String × Value)} :
    Record.setIn key x es = es ↔ es.lookup key = some x := by
  induction es with
  | nil => simp [Record.setIn]
  | cons e es ih =>
    obtain ⟨k, v⟩ := e
    by_cases hk : k = key
    · simp [Record.setIn, hk, eq_comm]
    · simp [Record.setIn, hk, List.lookup_cons, ih, show (key == k) = false by simpa using Ne.symm hk]

/-- A value that has an entry still has it after another one is put in. -/
theorem put_absorb {key key' : String} {x x' v : Value} (hx : key = key' → x = x')
    (h : v.put key x = v) : (v.put key' x').put key x = v.put key' x' := by
  cases v with
  | table entries =>
    have hlookup := setIn_eq_self.1 (table.inj h)
    apply congrArg table
    rw [setIn_eq_self]
    by_cases hk : key = key'
    · rw [hk, Record.lookup_setIn_self, hx hk]
    · rw [Record.lookup_setIn_ne x' hk, hlookup]
  | _ => rfl

theorem put_put (key : String) (x v : Value) : (v.put key x).put key x = v.put key x := by
  cases v with
  | table entries => exact congrArg table (Record.setIn_setIn key x x entries)
  | _ => rfl

theorem map_absorb {α : Type} {f g : α → α} {l : List α}
    (hfg : ∀ a ∈ l, f a = a → f (g a) = g a) (h : l.map f = l) : (l.map g).map f = l.map g := by
  rw [List.map_map]
  apply List.map_congr_left
  intro a ha
  have hfixed : ∀ a ∈ l, f a = a := by simpa using List.map_eq_map_iff.1 (h.trans (List.map_id l).symm)
  exact hfg a ha (hfixed a ha)

theorem modifyEntry_absorb {key : String} {f g : Value → Value} {v : Value}
    (hfg : ∀ w, f w = w → f (g w) = g w) (h : v.modifyEntry key f = v) :
    (v.modifyEntry key g).modifyEntry key f = v.modifyEntry key g := by
  cases v with
  | table entries =>
    apply congrArg table
    apply map_absorb _ (table.inj h)
    rintro ⟨k, w⟩ - hw
    by_cases hk : k = key <;> simp_all
  | _ => rfl

theorem modifyItem_absorb {i j : Nat} {f g : Value → Value} {v : Value}
    (hfg : i = j → ∀ w, f w = w → f (g w) = g w) (h : v.modifyItem i f = v) :
    (v.modifyItem j g).modifyItem i f = v.modifyItem j g := by
  cases v with
  | list items =>
    have h := list.inj h
    apply congrArg list
    apply List.ext_getElem?
    intro k
    have hk := congrArg (·[k]?) h
    simp only [List.getElem?_modify] at hk ⊢
    by_cases hi : i = k
    · by_cases hj : j = k
      · cases hw : items[k]? with
        | none => simp
        | some w =>
          have hfixed : f w = w := by simpa [hi, hw] using hk
          simp [hi, hj, hfg (hi.trans hj.symm) w hfixed]
      · simpa [hi, hj] using hk
    · simp [hi]
  | _ => rfl

theorem modifyItem_modifyItem {f : Value → Value} (hf : ∀ w, f (f w) = f w) (i : Nat) (v : Value) :
    (v.modifyItem i f).modifyItem i f = v.modifyItem i f := by
  cases v with
  | list items =>
    apply congrArg list
    apply List.ext_getElem?
    intro k
    simp only [List.getElem?_modify]
    by_cases hi : i = k
    · cases items[k]? <;> simp [hi, hf]
    · simp [hi]
  | _ => rfl

theorem modifyEntry_modifyEntry {f : Value → Value} (hf : ∀ w, f (f w) = f w) (key : String)
    (v : Value) : (v.modifyEntry key f).modifyEntry key f = v.modifyEntry key f := by
  cases v with
  | table entries =>
    apply congrArg table
    rw [List.map_map]
    apply List.map_congr_left
    rintro ⟨k, w⟩ -
    by_cases hk : k = key <;> simp [hk, hf]
  | _ => rfl

theorem modifyEntry_put {key key' : String} (hkey : key ≠ key') (x v : Value)
    (f : Value → Value) : (v.put key' x).modifyEntry key f = (v.modifyEntry key f).put key' x := by
  cases v with
  | table entries =>
    apply congrArg table
    induction entries with
    | nil => simp [Record.setIn, hkey.symm]
    | cons e entries ih =>
      obtain ⟨k, w⟩ := e
      by_cases hk' : k = key'
      · simp [Record.setIn, hk', hkey.symm]
      · by_cases hk : k = key
        · simpa [Record.setIn, hk, hkey] using ih
        · simpa [Record.setIn, hk, hk'] using ih
  | _ => rfl

end Value

namespace Schema

theorem update_update {f : Value → Value} (hf : ∀ w, f (f w) = f w) (s : Schema) (name : String) :
    (s.update name f).update name f = s.update name f := by
  apply congrArg Schema.mk
  simp only [update, List.map_map]
  apply List.map_congr_left
  rintro ⟨n, type⟩ -
  by_cases hn : n = name <;> simp [hn, hf]

theorem update_absorb {s : Schema} {name name' : String} {f g : Value → Value}
    (hfg : name = name' → ∀ w, f w = w → f (g w) = g w) (h : s.update name f = s) :
    (s.update name' g).update name f = s.update name' g := by
  apply congrArg Schema.mk
  apply Value.map_absorb _ (congrArg Schema.types h)
  rintro ⟨n, type⟩ - hw
  by_cases hn : n = name <;> by_cases hn' : n = name' <;> simp_all

end Schema

/-- One entry that the making of a model writes into the schema. -/
inductive Mark where
  /-- The name of a type, at the type. -/
  | fact (name : String)
  /-- The structure in which an attribute stands, at the attribute. -/
  | owner (site : Site)
  /-- The name of an inlined structure, at the attribute. -/
  | name (site : Site)

namespace Schema

/-- The change of an entry of an attribute, inside the type that declares it. -/
def atItem (index : Nat) (key : String) (value type : Value) : Value :=
  type.modifyEntry "layout" fun layout => layout.modifyItem index (·.put key value)

theorem setEntry_eq (s : Schema) (site : Site) (key : String) (value : Value) :
    s.setEntry site key value = s.update site.owner (atItem site.index key value) := rfl

theorem atItem_atItem (index : Nat) (key : String) (value type : Value) :
    atItem index key value (atItem index key value type) = atItem index key value type :=
  Value.modifyEntry_modifyEntry
    (Value.modifyItem_modifyItem (fun w => Value.put_put key value w) index) "layout" type

theorem atItem_absorb {index index' : Nat} {key key' : String} {value value' type : Value}
    (hv : index = index' → key = key' → value = value') (h : atItem index key value type = type) :
    atItem index key value (atItem index' key' value' type) = atItem index' key' value' type := by
  apply Value.modifyEntry_absorb _ h
  intro layout
  apply Value.modifyItem_absorb
  intro hi w
  exact Value.put_absorb (hv hi)

theorem setEntry_setEntry (s : Schema) (site : Site) (key : String) (value : Value) :
    (s.setEntry site key value).setEntry site key value = s.setEntry site key value :=
  update_update (atItem_atItem site.index key value) s site.owner

theorem setEntry_absorb {s : Schema} {site site' : Site} {key key' : String} {value value' : Value}
    (hv : site = site' → key = key' → value = value') (h : s.setEntry site key value = s) :
    (s.setEntry site' key' value').setEntry site key value = s.setEntry site' key' value' := by
  apply update_absorb _ h
  intro howner w
  apply atItem_absorb
  intro hindex
  apply hv
  cases site
  cases site'
  simp_all

theorem setEntry_setFact_absorb {s : Schema} {site : Site} {key : String} {value : Value}
    (h : s.setEntry site key value = s) (name : String) (x : Value) :
    (s.setFact name "name" x).setEntry site key value = s.setFact name "name" x := by
  apply update_absorb _ h
  intro _ w hw
  rw [Value.modifyEntry_put (by simp)]
  exact congrArg (·.put "name" x) hw

theorem setFact_setFact_absorb {s : Schema} {name name' : String} {x x' : Value}
    (h : s.setFact name "name" x = s) (hx : name = name' → x = x') :
    (s.setFact name' "name" x').setFact name "name" x = s.setFact name' "name" x' := by
  apply update_absorb _ h
  intro hname w
  exact Value.put_absorb fun _ => hx hname

theorem setFact_setEntry_absorb {s : Schema} {name : String} {x : Value}
    (h : s.setFact name "name" x = s) (site : Site) (key : String) (value : Value) :
    (s.setEntry site key value).setFact name "name" x = s.setEntry site key value := by
  apply update_absorb _ h
  intro _ w hw
  rw [← Value.modifyEntry_put (by simp)]
  exact congrArg (atItem site.index key value) hw

/-- The entry of an attribute that a mark gives it. -/
def entryOf? (s : Schema) : Mark → Option (Site × String × Value)
  | .fact _ => none
  | .owner site => some (site, "aggregate_class", site.owner)
  | .name site => (s.nameAt? site).map fun name => (site, "name", name)

def mark (s : Schema) (m : Mark) : Schema :=
  match m with
  | .fact name => s.setFact name "name" (Text.lowerFirst name)
  | m => match s.entryOf? m with
    | some (site, key, value) => s.setEntry site key value
    | none => s

def markAll (s : Schema) (marks : List Mark) : Schema := marks.foldl mark s

theorem mark_owner (s : Schema) (site : Site) :
    s.mark (.owner site) = s.setEntry site "aggregate_class" site.owner := rfl

theorem mark_name (s : Schema) (site : Site) : s.mark (.name site) = s.noteName site := by
  simp only [mark, entryOf?, noteName]
  cases s.nameAt? site <;> rfl

@[simp] theorem settled_mark (s : Schema) (m : Mark) : (s.mark m).settled = s.settled := by
  cases m with
  | fact name => exact s.settled_setFact name _
  | owner site => exact s.settled_setOwner site _
  | name site => rw [mark_name, settled_noteName]

@[simp] theorem settled_markAll (s : Schema) (marks : List Mark) :
    (s.markAll marks).settled = s.settled := by
  induction marks generalizing s with
  | nil => rfl
  | cons m marks ih => exact (ih (s.mark m)).trans (s.settled_mark m)

theorem entryOf?_settled (s : Schema) (m : Mark) : s.settled.entryOf? m = s.entryOf? m := by
  cases m with
  | name site =>
    simp only [entryOf?, nameAt?, attributeAt?_settled]
    cases s.attributeAt? site <;> simp
  | _ => rfl

@[simp] theorem entryOf?_mark (s : Schema) (m m' : Mark) : (s.mark m').entryOf? m = s.entryOf? m := by
  rw [← entryOf?_settled, settled_mark, entryOf?_settled]

theorem entryOf?_eq_some {s : Schema} {m : Mark} {site : Site} {key : String} {value : Value}
    (h : s.entryOf? m = some (site, key, value)) :
    key = "aggregate_class" ∧ value = site.owner ∨ key = "name" ∧ s.nameAt? site = some value := by
  cases m with
  | fact name => simp [entryOf?] at h
  | owner site' =>
    simp only [entryOf?, Option.some.injEq, Prod.mk.injEq] at h
    obtain ⟨rfl, rfl, rfl⟩ := h
    exact .inl ⟨rfl, rfl⟩
  | name site' =>
    obtain ⟨name, hname, h⟩ := Option.map_eq_some_iff.1 h
    obtain ⟨rfl, rfl, rfl⟩ := by simpa using h
    exact .inr ⟨rfl, hname⟩

/-- Marks that write at the same place write the same. -/
theorem entryOf?_unique {s : Schema} {m m' : Mark} {site site' : Site} {key key' : String}
    {value value' : Value} (h : s.entryOf? m = some (site, key, value))
    (h' : s.entryOf? m' = some (site', key', value')) (hs : site = site') (hk : key = key') :
    value = value' := by
  subst hs hk
  rcases entryOf?_eq_some h with ⟨hkey, rfl⟩ | ⟨hkey, hname⟩ <;>
    rcases entryOf?_eq_some h' with ⟨hkey', rfl⟩ | ⟨hkey', hname'⟩
  · rfl
  · simp [hkey] at hkey'
  · simp [hkey] at hkey'
  · exact Option.some.inj (hname.symm.trans hname')

theorem mark_mark (s : Schema) (m : Mark) : (s.mark m).mark m = s.mark m := by
  cases m with
  | fact name => exact update_update (f := (·.put "name" _)) (Value.put_put "name" _) s name
  | owner site => exact s.setEntry_setEntry site _ _
  | name site =>
    have hsame := s.entryOf?_mark (.name site) (.name site)
    cases hm : s.entryOf? (.name site) with
    | none => simp [mark, hm]
    | some written =>
      obtain ⟨site', key, value⟩ := written
      rw [hm] at hsame
      have hmark : ∀ s' : Schema, s'.entryOf? (.name site) = some (site', key, value) →
          s'.mark (.name site) = s'.setEntry site' key value := by
        intro s' hs'
        simp [mark, hs']
      rw [hmark _ hsame, hmark s hm, setEntry_setEntry]

theorem mark_of_entry {s : Schema} {m : Mark} {site : Site} {key : String} {value : Value}
    (h : s.entryOf? m = some (site, key, value)) : s.mark m = s.setEntry site key value := by
  cases m with
  | fact name => simp [entryOf?] at h
  | _ => simp [mark, h]

/-- A mark writes the name of a type, an entry of an attribute, or nothing. -/
theorem mark_cases (s : Schema) (m : Mark) :
    (∃ name, m = .fact name) ∨ (∃ written, s.entryOf? m = some written) ∨
      ∀ s' : Schema, s'.settled = s.settled → s'.mark m = s' := by
  cases m with
  | fact name => exact .inl ⟨name, rfl⟩
  | owner site => exact .inr (.inl ⟨_, rfl⟩)
  | name site =>
    cases h : s.entryOf? (.name site) with
    | some written => exact .inr (.inl ⟨written, rfl⟩)
    | none =>
      refine .inr (.inr fun s' hs => ?_)
      rw [← entryOf?_settled, ← hs, entryOf?_settled] at h
      simp [mark, h]

/-- A mark that is there stays there when others are made. -/
theorem mark_absorb {s : Schema} {m : Mark} (h : s.mark m = s) (m' : Mark) :
    (s.mark m').mark m = s.mark m' := by
  rcases s.mark_cases m with ⟨name, rfl⟩ | ⟨⟨site, key, value⟩, hm⟩ | hnone
  · rcases s.mark_cases m' with ⟨name', rfl⟩ | ⟨⟨site', key', value'⟩, hm'⟩ | hnone'
    · exact setFact_setFact_absorb h (fun hname => by rw [hname])
    · rw [mark_of_entry hm']
      exact setFact_setEntry_absorb h site' key' value'
    · rw [hnone' s rfl, h]
  · have hm₁ : (s.mark m').entryOf? m = some (site, key, value) := by rw [entryOf?_mark, hm]
    rw [mark_of_entry hm] at h
    rw [mark_of_entry hm₁]
    rcases s.mark_cases m' with ⟨name', rfl⟩ | ⟨⟨site', key', value'⟩, hm'⟩ | hnone'
    · exact setEntry_setFact_absorb h name' _
    · rw [mark_of_entry hm']
      exact setEntry_absorb (entryOf?_unique hm hm') h
    · rw [hnone' s rfl, h]
  · exact hnone _ (s.settled_mark m')

theorem markAll_append (s : Schema) (marks marks' : List Mark) :
    s.markAll (marks ++ marks') = (s.markAll marks).markAll marks' := List.foldl_append

theorem mark_markAll {s : Schema} {m : Mark} (h : s.mark m = s) (marks : List Mark) :
    (s.markAll marks).mark m = s.markAll marks := by
  induction marks generalizing s with
  | nil => exact h
  | cons m' marks ih => exact ih (mark_absorb h m')

/-- Marks that have been made before change nothing. -/
theorem mark_of_mem {s : Schema} {marks : List Mark} {m : Mark} (h : m ∈ marks) :
    (s.markAll marks).mark m = s.markAll marks := by
  induction marks generalizing s with
  | nil => simp at h
  | cons m' marks ih =>
    rcases List.mem_cons.1 h with rfl | hmem
    · exact mark_markAll (mark_mark s m) marks
    · exact ih hmem

theorem markAll_of_subset {s : Schema} {marks marks' : List Mark} (h : ∀ m ∈ marks', m ∈ marks) :
    (s.markAll marks).markAll marks' = s.markAll marks := by
  induction marks' with
  | nil => rfl
  | cons m marks' ih =>
    have hm := mark_of_mem (s := s) (h m (by simp))
    rw [markAll, List.foldl_cons, hm]
    exact ih fun m' hm' => h m' (by simp [hm'])

/-- After two attempts to make all marks the schema is as after the one that came further. -/
theorem markAll_take_take (s : Schema) (marks : List Mark) (n n' : Nat) :
    (s.markAll (marks.take n)).markAll (marks.take n') = s.markAll (marks.take (max n n')) := by
  rcases Nat.le_total n' n with h | h
  · rw [Nat.max_eq_left h]
    exact markAll_of_subset fun m hm => (List.take_prefix_take_left h).subset hm
  · rw [Nat.max_eq_right h]
    have hsplit : marks.take n' = marks.take n ++ (marks.drop n).take (n' - n) := by
      rw [← List.take_add, Nat.add_sub_cancel' h]
    rw [hsplit, markAll_append, markAll_of_subset fun m hm => hm, ← markAll_append]

end Schema

/-- A state of the schema after an attempt to make all of some marks, and whether it succeeded. -/
def Along (s : Schema) (marks : List Mark) (done : Bool) (s' : Schema) : Prop :=
  ∃ n, s' = s.markAll (marks.take n) ∧ (done = true → marks.length ≤ n)

namespace Along
variable {s s' s'' : Schema} {marks marks' : List Mark} {done : Bool}

theorem all (h : Along s marks true s') : s' = s.markAll marks := by
  obtain ⟨n, rfl, hn⟩ := h
  rw [List.take_of_length_le (hn rfl)]

theorem of_all (h : s' = s.markAll marks) : Along s marks done s' :=
  ⟨marks.length, by rw [h, List.take_length], fun _ => Nat.le_refl _⟩

theorem append (h : Along s marks true s') (h' : Along s' marks' done s'') :
    Along s (marks ++ marks') done s'' := by
  obtain rfl := h.all
  obtain ⟨n, rfl, hn⟩ := h'
  refine ⟨marks.length + n, ?_, fun hdone => ?_⟩
  · rw [← Schema.markAll_append, List.take_append, List.take_of_length_le (Nat.le_add_right _ n),
      Nat.add_sub_cancel_left]
  · simpa using hn hdone

theorem stop (h : Along s marks done s') (marks' : List Mark) :
    Along s (marks ++ marks') false s' := by
  obtain ⟨n, rfl, -⟩ := h
  refine ⟨min n marks.length, ?_, by simp⟩
  rw [List.take_append_of_le_length (Nat.min_le_right _ _), ← List.take_take, List.take_length]

theorem settled (h : Along s marks done s') : s'.settled = s.settled := by
  obtain ⟨n, rfl, -⟩ := h
  exact s.settled_markAll _

end Along

section
variable {σ α β : Type}

/-- Steps that leave marks in the schema of their state. -/
def Marking (view : σ → Schema) (steps : ExceptT Fault (StateM σ) α) (x : σ)
    (marks : List Mark) : Prop :=
  Along (view x) marks (runOn steps x).1.isOk (view (runOn steps x).2)

variable {view : σ → Schema} {x : σ} {marks marks' : List Mark}

theorem Marking.of_keeps {steps : ExceptT Fault (StateM σ) α}
    (h : view (runOn steps x).2 = view x) : Marking view steps x [] := .of_all h

theorem Marking.bind {steps : ExceptT Fault (StateM σ) α} {next : α → ExceptT Fault (StateM σ) β}
    (h : Marking view steps x marks)
    (hn : ∀ a x', runOn steps x = (.ok a, x') → Marking view (next a) x' marks') :
    Marking view (steps >>= next) x (marks ++ marks') := by
  unfold Marking at h ⊢
  rw [runOn_bind]
  rcases hr : runOn steps x with ⟨fault | a, x'⟩
  · rw [hr] at h
    exact h.stop marks'
  · rw [hr] at h
    exact h.append (hn a x' hr)

theorem Marking.bind_of_keeps {steps : ExceptT Fault (StateM σ) α}
    {next : α → ExceptT Fault (StateM σ) β} (h : view (runOn steps x).2 = view x)
    (hn : ∀ a x', runOn steps x = (.ok a, x') → Marking view (next a) x' marks) :
    Marking view (steps >>= next) x marks := (Marking.of_keeps h).bind hn

theorem Marking.settled {steps : ExceptT Fault (StateM σ) α} {a : Checked α} {x' : σ}
    (h : Marking view steps x marks) (hr : runOn steps x = (a, x')) :
    (view x').settled = (view x).settled := by
  have hsettled := Along.settled h
  rwa [hr] at hsettled

end
end SchemaForge
