import SchemaForge.Fault

/-! How steps that can fail act on a state, taken apart one step at a time. -/
namespace SchemaForge

section
variable {σ α β : Type}

/-- The result of steps from a state, with the state that they leave. -/
def runOn (steps : ExceptT Fault (StateM σ) α) (s : σ) : Checked α × σ := steps.run.run s

@[simp] theorem runOn_pure (a : α) (s : σ) :
    runOn (pure a : ExceptT Fault (StateM σ) α) s = (.ok a, s) := rfl

@[simp] theorem runOn_throw (fault : Fault) (s : σ) :
    runOn (throw fault : ExceptT Fault (StateM σ) α) s = (.error fault, s) := rfl

@[simp] theorem runOn_get (s : σ) : runOn (get : ExceptT Fault (StateM σ) σ) s = (.ok s, s) := rfl

@[simp] theorem runOn_set (s s' : σ) :
    runOn (set s' : ExceptT Fault (StateM σ) PUnit) s = (.ok ⟨⟩, s') := rfl

@[simp] theorem runOn_modify (change : σ → σ) (s : σ) :
    runOn (modify change : ExceptT Fault (StateM σ) PUnit) s = (.ok ⟨⟩, change s) := rfl

@[simp] theorem runOn_lift (x : Checked α) (s : σ) :
    runOn (liftM x : ExceptT Fault (StateM σ) α) s = (x, s) := by
  cases x <;> rfl

theorem lift_ok_bind (a : α) (next : α → ExceptT Fault (StateM σ) β) :
    (liftM (Except.ok a : Checked α) : ExceptT Fault (StateM σ) α) >>= next = next a := rfl

theorem lift_error_bind (fault : Fault) (next : α → ExceptT Fault (StateM σ) β) :
    (liftM (Except.error fault : Checked α) : ExceptT Fault (StateM σ) α) >>= next =
      throw fault := rfl

theorem runOn_bind (x : ExceptT Fault (StateM σ) α) (f : α → ExceptT Fault (StateM σ) β) (s : σ) :
    runOn (x >>= f) s = match runOn x s with
      | (.ok a, s') => runOn (f a) s'
      | (.error fault, s') => (.error fault, s') := by
  simp only [runOn, ExceptT.run_bind, StateT.run_bind]
  rcases x.run.run s with ⟨_ | _, s'⟩ <;> rfl

@[simp] theorem runOn_map (g : α → β) (x : ExceptT Fault (StateM σ) α) (s : σ) :
    runOn (g <$> x) s = ((runOn x s).1.map g, (runOn x s).2) := by
  rw [map_eq_pure_bind, runOn_bind]
  rcases runOn x s with ⟨fault | a, s'⟩ <;> rfl

theorem runOn_bind_of_ok {x : ExceptT Fault (StateM σ) α} {f : α → ExceptT Fault (StateM σ) β}
    {s s' : σ} {a : α} (h : runOn x s = (.ok a, s')) : runOn (x >>= f) s = runOn (f a) s' := by
  rw [runOn_bind, h]

theorem runOn_bind_of_error {x : ExceptT Fault (StateM σ) α} {f : α → ExceptT Fault (StateM σ) β}
    {s s' : σ} {fault : Fault} (h : runOn x s = (.error fault, s')) :
    runOn (x >>= f) s = (.error fault, s') := by
  rw [runOn_bind, h]

/-- Steps that do the same, followed by steps that do the same after them. -/
theorem runOn_bind_congr {x y : ExceptT Fault (StateM σ) α} {f g : α → ExceptT Fault (StateM σ) β}
    {s : σ} (hx : runOn x s = runOn y s)
    (h : ∀ a s', runOn x s = (.ok a, s') → runOn (f a) s' = runOn (g a) s') :
    runOn (x >>= f) s = runOn (y >>= g) s := by
  rw [runOn_bind, runOn_bind, ← hx]
  rcases hr : runOn x s with ⟨fault | a, s'⟩
  · rfl
  · exact h a s' hr

/-- Steps in sequence succeed when the first ones do and then the others. -/
theorem runOn_bind_eq_ok {x : ExceptT Fault (StateM σ) α} {f : α → ExceptT Fault (StateM σ) β}
    {s s'' : σ} {b : β} : runOn (x >>= f) s = (.ok b, s'') ↔
      ∃ a s', runOn x s = (.ok a, s') ∧ runOn (f a) s' = (.ok b, s'') := by
  rw [runOn_bind]
  rcases runOn x s with ⟨fault | a, s'⟩
  · simp
  · simp only [Prod.mk.injEq, Except.ok.injEq]
    constructor
    · intro h
      exact ⟨a, s', ⟨rfl, rfl⟩, h⟩
    · rintro ⟨_, _, ⟨rfl, rfl⟩, h⟩
      exact h

end

namespace Checked
variable {α β : Type}

theorem bind_eq_ok {x : Checked α} {f : α → Checked β} {b : β} :
    x >>= f = .ok b ↔ ∃ a, x = .ok a ∧ f a = .ok b := by
  cases x <;> simp [bind, Except.bind]

theorem return_eq_ok {x : Checked α} {g : α → β} {b : β} :
    (x >>= fun a => .ok (g a)) = .ok b ↔ ∃ a, x = .ok a ∧ g a = b := by
  cases x <;> simp [bind, Except.bind]

theorem map_eq_ok {x : Checked α} {g : α → β} {b : β} :
    x.map g = .ok b ↔ ∃ a, x = .ok a ∧ g a = b := by
  cases x <;> simp [Except.map]

theorem exists_ok {x : Checked α} (h : x.toOption.isSome = true) : ∃ a, x = .ok a := by
  cases x with
  | error fault => simp [Except.toOption] at h
  | ok a => exact ⟨a, rfl⟩

instance {x : Checked α} {p : α → Prop} [DecidablePred p] : Decidable (∀ a, x = .ok a → p a) :=
  match x with
  | .ok a => decidable_of_iff (p a) (by simp)
  | .error _ => isTrue (by simp)

theorem toOption_ok (a : α) : (Except.ok a : Checked α).toOption = some a := rfl

@[simp] theorem ok_bind (a : α) (f : α → Checked β) : (Except.ok a : Checked α) >>= f = f a := rfl

@[simp] theorem error_bind (fault : Fault) (f : α → Checked β) :
    (Except.error fault : Checked α) >>= f = .error fault := rfl

@[simp] theorem map_ok (g : α → β) (a : α) : (Except.ok a : Checked α).map g = .ok (g a) := rfl

@[simp] theorem map_error (g : α → β) (fault : Fault) :
    (Except.error fault : Checked α).map g = .error fault := rfl

theorem map_eq_bind (x : Checked α) (g : α → β) : x.map g = x >>= fun a => pure (g a) := by
  cases x <;> rfl

@[simp] theorem map_bind {γ : Type} (x : Checked α) (g : α → β) (f : β → Checked γ) :
    x.map g >>= f = x >>= fun a => f (g a) := by
  cases x <;> rfl

@[simp] theorem pure_eq_ok (a : α) : (pure a : Checked α) = .ok a := rfl

@[simp] theorem throw_eq_error (fault : Fault) : (throw fault : Checked α) = .error fault := rfl

theorem mapM_congr {l : List α} {f g : α → Checked β} (h : ∀ a ∈ l, f a = g a) :
    l.mapM f = l.mapM g := by
  induction l with
  | nil => rfl
  | cons a l ih =>
    rw [List.mapM_cons, List.mapM_cons, h a (by simp), ih fun b hb => h b (by simp [hb])]

theorem mapM_map_result {γ : Type} (l : List α) (f : α → Checked β) (g : β → γ) :
    (l.mapM fun a => (f a).map g) = (l.mapM f).map (·.map g) := by
  induction l with
  | nil => rfl
  | cons a l ih =>
    rw [List.mapM_cons, List.mapM_cons, ih]
    cases f a with
    | error fault => rfl
    | ok b => cases l.mapM f <;> rfl

theorem mem_of_mapM {l : List α} {f : α → Checked β} {l' : List β} (h : l.mapM f = .ok l') {b : β}
    (hb : b ∈ l') : ∃ a ∈ l, f a = .ok b := by
  induction l generalizing l' with
  | nil =>
    obtain rfl : [] = l' := by simpa using h
    simp at hb
  | cons a l ih =>
    rw [List.mapM_cons] at h
    obtain ⟨b', hb', h⟩ := bind_eq_ok.1 h
    obtain ⟨rest, hrest, rfl⟩ := return_eq_ok.1 h
    rcases List.mem_cons.1 hb with rfl | hmem
    · exact ⟨a, by simp, hb'⟩
    · obtain ⟨a', ha', hfa'⟩ := ih hrest hmem
      exact ⟨a', by simp [ha'], hfa'⟩

end Checked
end SchemaForge
