import SchemaForge.Proofs.Sheets
import SchemaForge.Proofs.Slots

/-! Which steps succeed, taken apart one step at a time. -/
namespace SchemaForge

namespace Checked
variable {α β : Type}

def Succeeds (x : Checked α) : Prop := ∃ a, x = .ok a

@[simp] theorem succeeds_ok (a : α) : Succeeds (.ok a : Checked α) := ⟨a, rfl⟩

@[simp] theorem succeeds_error (fault : Fault) : ¬Succeeds (.error fault : Checked α) := by
  simp [Succeeds]

instance : DecidablePred (Succeeds : Checked α → Prop)
  | .ok a => isTrue (succeeds_ok a)
  | .error fault => isFalse (succeeds_error fault)

@[simp] theorem succeeds_bind {x : Checked α} {f : α → Checked β} :
    Succeeds (x >>= f) ↔ Succeeds x ∧ ∀ a, x = .ok a → Succeeds (f a) := by
  cases x <;> simp

@[simp] theorem succeeds_map {x : Checked α} {g : α → β} : Succeeds (g <$> x) ↔ Succeeds x := by
  cases x <;> simp [Functor.map, Except.map]

@[simp] theorem succeeds_exceptMap {x : Checked α} {g : α → β} :
    Succeeds (x.map g) ↔ Succeeds x := by
  cases x <;> simp

@[simp] theorem succeeds_ite {p : Prop} [Decidable p] {x y : Checked α} :
    Succeeds (if p then x else y) ↔ (p → Succeeds x) ∧ (¬p → Succeeds y) := by
  split <;> simp_all

@[simp] theorem succeeds_require {key : Value} {found : Option α} :
    Succeeds (require key found) ↔ found.isSome = true := by
  cases found <;> simp [require]

@[simp] theorem succeeds_mapM {f : α → Checked β} {l : List α} :
    Succeeds (l.mapM f) ↔ ∀ a ∈ l, Succeeds (f a) := by
  induction l with
  | nil => simp
  | cons a l ih =>
    simp only [List.mapM_cons, succeeds_bind, ih, pure_eq_ok, succeeds_ok, implies_true, and_true,
      List.forall_mem_cons]
    constructor
    · rintro ⟨⟨b, hb⟩, hrest⟩
      exact ⟨⟨b, hb⟩, hrest b hb⟩
    · rintro ⟨hfirst, hrest⟩
      exact ⟨hfirst, fun _ _ => hrest⟩

theorem eq_map_of_mapM {f : α → Checked β} {g : α → β} {l : List α} {l' : List β}
    (h : l.mapM f = .ok l') (hg : ∀ a ∈ l, ∀ b, f a = .ok b → b = g a) : l' = l.map g := by
  have heach : ∀ a ∈ l, f a = pure (g a) := by
    intro a ha
    obtain ⟨b, hb⟩ := succeeds_mapM.1 ⟨l', h⟩ a ha
    rw [hb, hg a ha b hb]
    rfl
  rw [mapM_congr heach, List.mapM_pure] at h
  exact (Except.ok.inj h).symm

/-- What holds of every result holds of all results together. -/
theorem exists_mapM {f : α → Checked β} {p : β → Prop} {l : List α}
    (h : ∀ a ∈ l, ∃ b, f a = .ok b ∧ p b) : ∃ l', l.mapM f = .ok l' ∧ ∀ b ∈ l', p b := by
  have hall : Succeeds (l.mapM f) := succeeds_mapM.2 fun a ha => by
    obtain ⟨b, hb, -⟩ := h a ha
    exact ⟨b, hb⟩
  obtain ⟨l', hl'⟩ := hall
  refine ⟨l', hl', fun b hb => ?_⟩
  obtain ⟨a, ha, hfa⟩ := mem_of_mapM hl' hb
  obtain ⟨b', hb', hp⟩ := h a ha
  obtain rfl := Except.ok.inj (hfa.symm.trans hb')
  exact hp

theorem succeeds_filterM {f : α → Checked Bool} {l : List α}
    (h : ∀ a ∈ l, Succeeds (f a)) : Succeeds (l.filterM f) := by
  have haux : ∀ kept, Succeeds (l.filterAuxM f kept) := by
    induction l with
    | nil => exact fun kept => ⟨kept, rfl⟩
    | cons a l ih =>
      intro kept
      obtain ⟨keep, hkeep⟩ := h a List.mem_cons_self
      rw [List.filterAuxM, hkeep]
      exact ih (fun b hb => h b (List.mem_cons_of_mem _ hb)) _
  obtain ⟨kept, hkept⟩ := haux []
  exact ⟨kept.reverse, by rw [List.filterM, hkept]; rfl⟩

theorem succeeds_of_filterM {f : α → Checked Bool} {l kept : List α} (h : l.filterM f = .ok kept) :
    ∀ a ∈ l, Succeeds (f a) := by
  obtain ⟨reversed, hreversed, -⟩ := bind_eq_ok.1 h
  clear h
  generalize ([] : List α) = acc at hreversed
  induction l generalizing acc with
  | nil => simp
  | cons a l ih =>
    rw [List.filterAuxM] at hreversed
    obtain ⟨keep, hkeep, hreversed⟩ := bind_eq_ok.1 hreversed
    intro b hb
    rcases List.mem_cons.1 hb with rfl | hb
    · exact ⟨keep, hkeep⟩
    · exact ih _ hreversed b hb

theorem filterMapM_eq_ok {f : α → Checked (Option β)} {g : α → Option β} {l : List α}
    (h : ∀ a ∈ l, f a = .ok (g a)) : l.filterMapM f = .ok (l.filterMap g) := by
  have hloop : ∀ found, List.filterMapM.loop f l found = .ok (found.reverse ++ l.filterMap g) := by
    induction l with
    | nil => simp [List.filterMapM.loop]
    | cons a l ih =>
      intro found
      have hrest := ih fun b hb => h b (by simp [hb])
      simp only [List.filterMapM.loop, h a (by simp), ok_bind]
      cases hg : g a <;> simp [hrest, hg]
  exact hloop []

theorem succeeds_filterMapM {f : α → Checked (Option β)} {l : List α} (h : ∀ a ∈ l, Succeeds (f a)) :
    Succeeds (l.filterMapM f) := by
  refine ⟨_, @filterMapM_eq_ok _ _ f (fun a => (f a).toOption.join) l fun a ha => ?_⟩
  obtain ⟨found, hfound⟩ := h a ha
  simp [hfound, toOption_ok]

/-- Steps in sequence succeed if the first ones do and the others do after them. -/
theorem succeeds_runOn_bind {σ : Type} {x : ExceptT Fault (StateM σ) α}
    {f : α → ExceptT Fault (StateM σ) β} {s : σ} : Succeeds (runOn (x >>= f) s).1 ↔
      ∃ a s', runOn x s = (.ok a, s') ∧ Succeeds (runOn (f a) s').1 := by
  constructor
  · rintro ⟨b, hb⟩
    obtain ⟨a, s', ha, hf⟩ := runOn_bind_eq_ok.1 (Prod.ext hb rfl)
    exact ⟨a, s', ha, b, by rw [hf]⟩
  · rintro ⟨a, s', ha, hf⟩
    rwa [runOn_bind_of_ok ha]

end Checked

open Checked

@[simp] theorem Value.find_record (r : Record) (key : String) :
    r.value.find (text key) = .ok (r.get? key) := rfl

theorem Record.get?_of_is {r : Record} {key text : String} (h : r.is key (.text text) = true) :
    r.get? key = some (.text text) := by
  obtain ⟨v, hv, hbeq⟩ := (Option.any_eq_true _ _).1 h
  rw [hv, Value.eq_text_of_beq hbeq]

theorem Record.need_of_get? {r : Record} {key : String} {v : Value} (h : r.get? key = some v) :
    r.need key = .ok v := by
  simp [Record.need, h, require]

def Schema.declares (s : Schema) (type : Value) : Bool := type.text?.any fun t => (s.get? t).isSome

namespace Builder

/-- Steps that succeed from an indentation exactly if a condition holds, and then lead to another one. -/
def WritesIff (start stop : Nat) (steps : Writing Unit) (p : Prop) : Prop :=
  ∀ sheet, sheet.indent = .int start →
    (p → ∃ sheet', runOn steps sheet = (.ok (), sheet') ∧ sheet'.indent = .int stop) ∧
      (Succeeds (runOn steps sheet).1 → p)

/-- Steps that succeed from an indentation and come back to it. -/
def Writes (depth : Nat) (steps : Writing Unit) : Prop := WritesIff depth depth steps True

namespace WritesIff
variable {α : Type} {i j k : Nat} {steps next : Writing Unit} {p q : Prop}

theorem congr (h : WritesIff i j steps p) (hpq : p ↔ q) : WritesIff i j steps q := propext hpq ▸ h

theorem seq (h : WritesIff i j steps p) (h' : WritesIff j k next q) :
    WritesIff i k (steps >>= fun _ => next) (p ∧ q) := by
  intro sheet hs
  obtain ⟨hdoes, honly⟩ := h sheet hs
  constructor
  · rintro ⟨hp, hq⟩
    obtain ⟨sheet', hr, hi⟩ := hdoes hp
    rw [runOn_bind_of_ok hr]
    exact (h' sheet' hi).1 hq
  · rintro ⟨⟨⟩, hok⟩
    obtain ⟨⟨⟩, sheet', hr, hnext⟩ := runOn_bind_eq_ok.1 (Prod.ext hok rfl)
    have hp : p := honly ⟨(), by rw [hr]⟩
    obtain ⟨sheet'', hr', hi⟩ := hdoes hp
    obtain rfl : sheet' = sheet'' := (Prod.mk.inj (hr.symm.trans hr')).2
    exact ⟨hp, (h' sheet' hi).2 ⟨(), by rw [hnext]⟩⟩

theorem after (h : WritesIff i j steps True) (h' : WritesIff j k next q) :
    WritesIff i k (steps >>= fun _ => next) q := (seq h h').congr (by simp)

theorem before (h : WritesIff i j steps p) (h' : WritesIff j k next True) :
    WritesIff i k (steps >>= fun _ => next) p := (seq h h').congr (by simp)

/-- What is looked up for the steps decides over their success too. -/
theorem lift {x : Checked α} {rest : α → Writing Unit}
    (h : ∀ a, x = .ok a → WritesIff i j (rest a) q) :
    WritesIff i j (liftM x >>= rest) (Succeeds x ∧ q) := by
  cases x with
  | error fault =>
    intro sheet _
    simp [lift_error_bind]
  | ok a =>
    rw [lift_ok_bind]
    exact (h a rfl).congr (by simp)

theorem lift_ok {x : Checked α} {rest : α → Writing Unit} {a : α} (hx : x = .ok a)
    (h : WritesIff i j (rest a) q) : WritesIff i j (liftM x >>= rest) q := by
  rw [hx, lift_ok_bind]
  exact h

theorem look {rest : Sheet → Writing Unit} (h : ∀ sheet, WritesIff i j (rest sheet) p) :
    WritesIff i j (get >>= rest) p := by
  intro sheet hs
  rw [runOn_bind_of_ok (runOn_get sheet)]
  exact h sheet sheet hs

theorem setIndent (i j : Nat) : WritesIff i j (Builder.setIndent (.int j)) True := fun sheet _ =>
  ⟨fun _ => ⟨{ sheet with indent := .int j }, rfl, rfl⟩, fun _ => trivial⟩

theorem shift {steps : Int} (h : (i : Int) + steps = j) : WritesIff i j (Builder.shift steps) True := by
  intro sheet hs
  refine ⟨fun _ => ⟨_, runOn_shift hs steps, ?_⟩, fun _ => trivial⟩
  exact congrArg Value.int h

theorem deeper {n : Nat} (h : WritesIff (i + n) (i + n) steps p) :
    WritesIff i i (Builder.deeper n steps) p :=
  (shift (by simp)).after (h.before (shift (by omega)))

end WritesIff

namespace Writes
variable {α : Type} {depth : Nat} {steps next : Writing Unit}

theorem nothing : Writes depth (pure ()) := fun sheet hs => ⟨fun _ => ⟨sheet, rfl, hs⟩, fun _ => trivial⟩

theorem seq (h : Writes depth steps) (h' : Writes depth next) :
    Writes depth (steps >>= fun _ => next) := WritesIff.after h h'

theorem lift {x : Checked α} {rest : α → Writing Unit} (hx : Succeeds x)
    (h : ∀ a, x = .ok a → Writes depth (rest a)) : Writes depth (liftM x >>= rest) :=
  (WritesIff.lift h).congr (by simp [hx])

theorem forM {step : α → Writing Unit} {l : List α} (h : ∀ a ∈ l, Writes depth (step a)) :
    Writes depth (l.forM step) := by
  induction l with
  | nil => exact nothing
  | cons a l ih => exact (h a (by simp)).seq (ih fun b hb => h b (by simp [hb]))

theorem deeper {n : Nat} (h : Writes (depth + n) steps) : Writes depth (Builder.deeper n steps) :=
  WritesIff.deeper h

theorem discard {x : Checked α} (hx : Succeeds x) : Writes depth (Functor.discard (liftM x)) := by
  obtain ⟨a, rfl⟩ := hx
  exact nothing

end Writes

variable {b : Builder} {depth : Nat}

theorem filled_of_fillable {line : String} (h : Text.Fillable line.toList) :
    Succeeds (b.filled line) := by
  apply Text.fill_of_fillable h
  intro name hname
  simp only [Text.slotNames, List.mem_cons, List.not_mem_nil, or_false] at hname
  rcases hname with rfl | rfl | rfl | rfl <;> rfl

theorem succeeds_copies {c : Char} (h : depth ≤ 100) : Succeeds ((Value.int depth).copies c 1) := by
  have hcount : ¬(Value.greatestCount < (depth : Int)) ∧
      ¬((depth : Int) < -Value.greatestCount - 1) := by
    unfold Value.greatestCount
    omega
  have hlength : ¬Value.greatestCount < depth ∧ ¬Value.greatestLength < depth := by
    unfold Value.greatestCount Value.greatestLength
    omega
  simp [Value.copies, hcount, hlength]

theorem succeeds_lineCode {line : String} (hd : depth ≤ 100) (h : Text.Fillable line.toList) :
    Succeeds (b.lineCode .null (.int depth) line) := by
  have hextra : extraSlots .null = .ok [] := rfl
  have hfilled := @filled_of_fillable b line h
  simp only [lineCode, hextra, ok_bind, List.nil_append, succeeds_ite, succeeds_bind,
    succeeds_copies hd, pure_eq_ok, succeeds_ok, implies_true, and_true, true_and]
  exact fun _ _ _ => hfilled

/-- Text that is fillable can be written. -/
theorem writes_text {text : String} (hd : depth ≤ 100) (h : Text.Fillable text.toList) :
    Writes depth (b.write text) := by
  apply Writes.forM
  intro line hline
  obtain ⟨code, hcode⟩ := succeeds_lineCode (b := b) hd (Text.fillable_of_mem_splitOn h hline)
  rintro ⟨lines, indent⟩ rfl
  refine ⟨fun _ => ⟨⟨lines ++ [code], .int depth⟩, ?_, rfl⟩, fun _ => trivial⟩
  rw [writeLine, runOn_bind_of_ok (runOn_get _), hcode]
  rfl

theorem writes_lines {lines : List String} (hd : depth ≤ 100)
    (h : ∀ line ∈ lines, Text.Fillable line.toList) : Writes depth (b.writeAll lines) :=
  Writes.forM fun line hline => writes_text hd (h line hline)

end Builder
end SchemaForge
