import SchemaForge.Proofs.ScriptLayout

/-! Classes that are built step by step. As long as a workshop is given tidy texts, blocks where it asks
for blocks and functions where it asks for functions, the code of every class in it is well nested. -/
namespace SchemaForge
open Checked
namespace Script
open Text

/-- A line that is a tidy text. -/
def isTidyLine (v : Value) : Bool := v.text?.any isTidy

/-- A constructor's value, with the name of the attribute that gets it. -/
def isTidyPair (pair : Value × Value) : Bool := isTidy pair.1.spell && isTidy pair.2.spell

def Item.isBlock : Item → Bool
  | .block _ => true
  | _ => false

def Item.isFunction : Item → Bool
  | .function _ => true
  | _ => false

namespace Workshop

/-- What a name stands for. -/
def itemOf? (w : Workshop) (id : Value) : Option Item := (w.place id).toOption.bind (w.items[·]?)

/-- Whether a name stands for nothing, or for an item that passes a test. -/
def allows (w : Workshop) (id : Value) (test : Item → Bool) : Bool :=
  (w.place id).toOption.all fun place => w.items[place]?.any test

/-- Whether a step gives tidy names, values, parameters, rules, iterators and lines, takes its block from a
block and its function from a function. -/
def admits (w : Workshop) : Step → Bool
  | .class _ name => isTidy name.spell
  | .wrap _ _ rule iterator => isTidy rule.spell && isTidy iterator.spell
  | .addLines _ lines => lines.items.toOption.all (·.all isTidyLine)
  | .addBlock _ block => w.allows block Item.isBlock
  | .setName _ name => isTidy name.spell
  | .setParams _ params => params.items.toOption.any (·.all isTidyLine)
  | .addConstructor _ values params => (pairsIn values).toOption.all (·.all isTidyPair) &&
      params.items.toOption.any (·.all isTidyLine)
  | .addGetterSetter _ field => field.text?.all isTidy
  | .addFunction _ function => w.allows function Item.isFunction
  | _ => true

/-- The workshop after some steps. -/
def after (w : Workshop) (steps : List Step) : Workshop := steps.foldl (fun w s => (w.step s).2) w

/-- Whether each step is admitted when its turn comes. -/
def admitsAll (w : Workshop) : List Step → Bool
  | [] => true
  | s :: steps => w.admits s && (w.step s).2.admitsAll steps

theorem run_append (w : Workshop) (steps more : List Step) :
    w.run (steps ++ more) = w.run steps ++ (w.after steps).run more := by
  induction steps generalizing w with
  | nil => rfl
  | cons s steps ih => exact congrArg ((w.step s).1 :: ·) (ih (w.step s).2)

/-- The function that a member of a class is. -/
def functionOf? (w : Workshop) : Member → Option Function
  | .made f => some f
  | .shared place => match w.items[place]? with
    | some (.function f) => some f
    | _ => none

end Workshop

/-- What a step makes of the items: nothing new, one item more, or one of them changed. -/
inductive Evolves (w : Workshop) : Step → List Item → Prop where
  | same (s : Step) : Evolves w s w.items
  | block (id : Value) : Evolves w (.block id) (w.items ++ [.block {}])
  | function (id : Value) (spelling : Option Value) (kind : FunctionKind) :
      Evolves w (.function id spelling) (w.items ++ [.function { kind }])
  | class (id name : Value) : Evolves w (.class id name) (w.items ++ [.class name []])
  | change {s : Step} {id : Value} {change : Item → Checked Item} {place : Nat} {item item' : Item}
      (changes : w.changeOf s = some (id, change)) (stands : w.items[place]? = some item)
      (changed : change item = .ok item') : Evolves w s (w.items.set place item')

namespace Workshop
variable {w w' : Workshop}

theorem items_of_add {id : Value} {item : Item} {answer : Option (List Value)}
    (h : (do return (none, ← w.add id item)) = (.ok (answer, w') : Checked (Option (List Value) × _))) :
    w'.items = w.items ++ [item] := by
  obtain ⟨next, hnext, h⟩ := return_eq_ok.1 h
  obtain ⟨key, -, rfl⟩ := return_eq_ok.1 hnext
  rw [← (Prod.mk.inj h).2]

theorem evolves_of_perform {s : Step} {answer : Option (List Value)}
    (h : w.perform s = .ok (answer, w')) : Evolves w s w'.items := by
  have hchanged : ∀ {id change}, w.changeOf s = some (id, change) →
      (do return (none, ← w.update id change)) = (.ok (answer, w') : Checked (Option (List Value) × _)) →
      Evolves w s w'.items := by
    intro id change hof h
    obtain ⟨next, hnext, h⟩ := return_eq_ok.1 h
    obtain ⟨place, -, hnext⟩ := bind_eq_ok.1 hnext
    cases hitem : w.items[place]? with
    | none => simp [hitem] at hnext
    | some item =>
      simp only [hitem] at hnext
      obtain ⟨item', hchange, rfl⟩ := return_eq_ok.1 hnext
      rw [← (Prod.mk.inj h).2]
      exact .change hof hitem hchange
  cases s with
  | block id => exact items_of_add h ▸ .block id
  | function id spelling =>
    cases spelling with
    | none | some =>
      obtain ⟨kind, -, h⟩ := bind_eq_ok.1 h
      exact items_of_add h ▸ .function id _ kind
  | «class» id name => exact items_of_add h ▸ .class id name
  | get | indent =>
    obtain ⟨_, -, h⟩ := bind_eq_ok.1 h
    obtain ⟨code, -, h⟩ := return_eq_ok.1 h
    exact (Prod.mk.inj h).2 ▸ .same _
  | wrap | addLines | addBlock | setName | setParams | addConstructor | addGetterSetter | addFunction =>
    exact hchanged rfl h

end Workshop

/-- A tidy member is a function: one that was made tidy with the class, or one among the items. -/
def Member.Tidy (w : Workshop) : Member → Prop
  | .made f => f.Tidy
  | .shared place => ∃ f, w.items[place]? = some (.function f)

def Item.Tidy (w : Workshop) : Item → Prop
  | .block b => b.Tidy
  | .function f => f.Tidy
  | .class name members => isTidy name.spell = true ∧ ∀ m ∈ members, m.Tidy w

def Workshop.Tidy (w : Workshop) : Prop := ∀ item ∈ w.items, item.Tidy w

/-- Where a workshop has a function, the other one has a function, too. -/
def Workshop.Keeps (w w' : Workshop) : Prop :=
  ∀ (place : Nat) f, w.items[place]? = some (.function f) → ∃ f', w'.items[place]? = some (.function f')

theorem Item.Tidy.mono {w w' : Workshop} (hk : w.Keeps w') {item : Item} (h : item.Tidy w) :
    item.Tidy w' := by
  cases item with
  | block b => exact h
  | function f => exact h
  | «class» name members =>
    refine ⟨h.1, ?_⟩
    intro m hm
    have hmember := h.2 m hm
    cases m with
    | made f => exact hmember
    | shared place =>
      obtain ⟨f, hf⟩ := hmember
      exact hk place f hf

theorem exists_texts_of_tidy {values : List Value} (h : values.all isTidyLine = true) :
    ∃ lines, values = texts lines ∧ ∀ line ∈ lines, isTidy line = true := by
  induction values with
  | nil => exact ⟨[], rfl, by simp⟩
  | cons v values ih =>
    rw [List.all_cons, Bool.and_eq_true_iff] at h
    obtain ⟨lines, rfl, hlines⟩ := ih h.2
    cases v with
    | text line => exact ⟨line :: lines, rfl, List.forall_mem_cons.2 ⟨h.1, hlines⟩⟩
    | _ => simp [isTidyLine, Value.text?] at h

theorem laidOut_of_tidy {values : List Value} (h : values.all isTidyLine = true) : LaidOut values := by
  obtain ⟨lines, rfl, hlines⟩ := exists_texts_of_tidy h
  exact ⟨lines, rfl, .of_tidy hlines⟩

theorem exists_params_of_tidy {params : Value} (h : params.items.toOption.any (·.all isTidyLine) = true) :
    ∃ names, params.items = .ok (texts names) ∧ ∀ name ∈ names, isTidy name = true := by
  cases hitems : params.items with
  | error fault => simp [hitems, Except.toOption] at h
  | ok values =>
    rw [hitems] at h
    obtain ⟨names, rfl, hnames⟩ := exists_texts_of_tidy h
    exact ⟨names, rfl, hnames⟩

theorem isTidyPair_of_mem_assignAll {pairs : List (Value × Value)} (h : ∀ p ∈ pairs, isTidyPair p = true) :
    ∀ p ∈ assignAll pairs, isTidyPair p = true := by
  refine List.foldlRecOn (motive := fun values => ∀ p ∈ values, isTidyPair p = true) pairs _ (by simp) ?_
  rintro values hvalues ⟨name, value⟩ hpair
  have hnew := h _ hpair
  by_cases hold : values.any (·.1 == name)
  · simp only [hold, if_true]
    intro p hp
    obtain ⟨q, hq, rfl⟩ := List.mem_map.1 hp
    have hkept := hvalues q hq
    by_cases hname : q.1 == name
    · simp only [hname, if_true]
      simp only [isTidyPair, Bool.and_eq_true] at hkept hnew ⊢
      exact ⟨hkept.1, hnew.2⟩
    · simpa [hname] using hkept
  · simp only [hold]
    exact List.forall_mem_append.2 ⟨hvalues, by simpa using hnew⟩

/-- What is not named yet is spelled by a tidy word. -/
theorem isTidy_null : isTidy Value.null.spell = true := by
  simp only [Value.spell, Value.quoted]
  rfl

namespace Function

theorem tidy_new (kind : FunctionKind) : Tidy { kind } :=
  ⟨isTidy_null, ⟨[], rfl, by simp⟩, laidOut_of_tidy rfl⟩

theorem tidy_ofValues {values : List (Value × Value)} {params : Value}
    (h : ∀ p ∈ values, isTidyPair p = true) (hp : params.items.toOption.any (·.all isTidyLine) = true) :
    (ofValues values params).Tidy := by
  refine ⟨isTidy_null, exists_params_of_tidy hp, laidOut_of_tidy ?_⟩
  rw [ofValues, List.all_map, List.all_eq_true]
  rintro ⟨name, value⟩ hmem
  obtain ⟨hname, hvalue⟩ := Bool.and_eq_true_iff.1 (h _ hmem)
  show isTidy ("this." ++ name.spell ++ " = " ++ value.spell) = true
  simp only [String.append_assoc]
  refine isTidy_start rfl (by decide) ?_
  simp only [isPlain_append, isPlain_of_isTidy hname, isPlain_of_isTidy hvalue]
  rfl

theorem tidy_getter {field : String} (h : isTidy field = true) : (getter field).Tidy := by
  have hplain := isPlain_of_isTidy h
  have hreturn : isTidy ("return this." ++ field) = true := isTidy_start rfl (by decide) hplain
  refine ⟨isTidy_start rfl (by decide) (isPlain_capitalize hplain), ⟨[], rfl, by simp⟩, ?_⟩
  exact ⟨["return this." ++ field], rfl, .of_tidy (by simpa using hreturn)⟩

theorem tidy_setter {field : String} (h : isTidy field = true) : (setter field).Tidy := by
  have hplain := isPlain_of_isTidy h
  have hassign : isTidy ("this." ++ field ++ " = " ++ field) = true := by
    simp only [String.append_assoc]
    refine isTidy_start rfl (by decide) ?_
    simp only [isPlain_append, hplain]
    rfl
  refine ⟨isTidy_start rfl (by decide) (isPlain_capitalize hplain), ⟨[field], rfl, by simpa using h⟩, ?_⟩
  exact ⟨["this." ++ field ++ " = " ++ field], rfl, .of_tidy (by simpa using hassign)⟩

end Function

/-! Each sort of change keeps an item tidy, and keeps a function a function. -/
namespace Workshop
variable {w : Workshop} {item item' : Item}

theorem tidy_appendLines {lines : Checked (List Value)} (hl : ∀ values, lines = .ok values → LaidOut values)
    (hi : item.Tidy w) (h : appendLines lines item = .ok item') :
    item'.Tidy w ∧ (item.isFunction = true → item'.isFunction = true) := by
  cases item with
  | block b =>
    obtain ⟨values, hvalues, rfl⟩ := return_eq_ok.1 h
    exact ⟨⟨hi.rule, hi.iterator, hi.lines.append (hl values hvalues)⟩, id⟩
  | function f =>
    obtain ⟨values, hvalues, rfl⟩ := return_eq_ok.1 h
    exact ⟨⟨hi.name, hi.params, hi.lines.append (hl values hvalues)⟩, id⟩
  | «class» name members => nomatch h

theorem tidy_changeBlock {change : Block → Checked Block}
    (hc : ∀ b b', b.Tidy → change b = .ok b' → b'.Tidy) (hi : item.Tidy w)
    (h : changeBlock change item = .ok item') :
    item'.Tidy w ∧ (item.isFunction = true → item'.isFunction = true) := by
  cases item with
  | block b =>
    obtain ⟨b', hb', rfl⟩ := return_eq_ok.1 h
    exact ⟨hc b b' hi hb', id⟩
  | function f => nomatch h
  | «class» name members => nomatch h

theorem tidy_changeFunction {change : Function → Function} (hc : ∀ f, f.Tidy → (change f).Tidy)
    (hi : item.Tidy w) (h : changeFunction change item = .ok item') :
    item'.Tidy w ∧ (item.isFunction = true → item'.isFunction = true) := by
  cases item with
  | block b => nomatch h
  | function f =>
    obtain rfl := Except.ok.inj h
    exact ⟨hc f hi, fun _ => rfl⟩
  | «class» name members => nomatch h

theorem tidy_addMembers {members : Checked (List Member)}
    (hm : ∀ more, members = .ok more → ∀ m ∈ more, m.Tidy w) (hi : item.Tidy w)
    (h : addMembers members item = .ok item') :
    item'.Tidy w ∧ (item.isFunction = true → item'.isFunction = true) := by
  cases item with
  | block b => nomatch h
  | function f => nomatch h
  | «class» name old =>
    obtain ⟨more, hmore, rfl⟩ := return_eq_ok.1 h
    exact ⟨⟨hi.1, List.forall_mem_append.2 ⟨hi.2, hm more hmore⟩⟩, id⟩

theorem exists_place_of_itemOf {id : Value} (h : w.itemOf? id = some item) :
    ∃ place, w.place id = .ok place ∧ w.items[place]? = some item := by
  unfold itemOf? at h
  cases hplace : w.place id with
  | error fault => simp [hplace, Except.toOption] at h
  | ok place => exact ⟨place, rfl, by simpa [hplace, Except.toOption] using h⟩

theorem exists_item_of_allows {id : Value} {place : Nat} {test : Item → Bool}
    (h : w.allows id test = true) (hplace : w.place id = .ok place) :
    ∃ item, w.items[place]? = some item ∧ test item = true := by
  rw [allows, hplace] at h
  cases hitem : w.items[place]? with
  | none => simp [hitem, Except.toOption] at h
  | some item => exact ⟨item, rfl, by simpa [hitem, Except.toOption] using h⟩

theorem codeAt_block {place bound : Nat} {b : Block} (h : w.items[place]? = some (.block b)) :
    w.codeAt (bound + 1) place = b.code := by
  rw [codeAt, h]

theorem tidy_change {s : Step} {id : Value} {change : Item → Checked Item} (hw : w.Tidy)
    (hs : w.admits s = true) (hof : w.changeOf s = some (id, change)) (hi : item.Tidy w)
    (h : change item = .ok item') :
    item'.Tidy w ∧ (item.isFunction = true → item'.isFunction = true) := by
  cases s with
  | wrap id kind rule iterator =>
    obtain ⟨hrule, hiterator⟩ := Bool.and_eq_true_iff.1 hs
    cases hof
    refine tidy_changeBlock ?_ hi h
    intro b b' hb hchange
    obtain ⟨kind, -, rfl⟩ := return_eq_ok.1 hchange
    exact ⟨hrule, hiterator, hb.lines⟩
  | addLines id lines =>
    cases hof
    refine tidy_appendLines ?_ hi h
    intro values hvalues
    rw [admits, hvalues] at hs
    exact laidOut_of_tidy hs
  | addBlock id block =>
    cases hof
    refine tidy_appendLines ?_ hi h
    intro values hvalues
    obtain ⟨place, hplace, hcode⟩ := bind_eq_ok.1 hvalues
    obtain ⟨held, hitem, hblock⟩ := exists_item_of_allows hs hplace
    cases held with
    | block b =>
      obtain ⟨lines, hlines, hlaid⟩ := Block.Tidy.code (hw _ (List.mem_of_getElem? hitem))
      rw [code, codeAt_block hitem, hlines] at hcode
      exact ⟨lines, (Except.ok.inj hcode).symm, hlaid⟩
    | function | «class» => nomatch hblock
  | setName id name =>
    cases hof
    refine tidy_changeFunction ?_ hi h
    intro f hf
    exact ⟨hs, hf.params, hf.lines⟩
  | setParams id params =>
    cases hof
    refine tidy_changeFunction ?_ hi h
    intro f hf
    exact ⟨hf.name, exists_params_of_tidy hs, hf.lines⟩
  | addConstructor id values params =>
    obtain ⟨hvalues, hparams⟩ := Bool.and_eq_true_iff.1 hs
    cases hof
    refine tidy_addMembers ?_ hi h
    intro more hmore
    obtain ⟨pairs, hpairs, rfl⟩ := return_eq_ok.1 hmore
    rw [hpairs] at hvalues
    have hassigned := isTidyPair_of_mem_assignAll (List.all_eq_true.1 hvalues)
    exact List.forall_mem_singleton.2 (Function.tidy_ofValues hassigned hparams)
  | addGetterSetter id field =>
    cases hof
    refine tidy_addMembers ?_ hi h
    intro more hmore
    obtain ⟨name, hname, rfl⟩ := return_eq_ok.1 hmore
    cases field with
    | text field =>
      obtain rfl := Except.ok.inj hname
      exact List.forall_mem_cons.2 ⟨Function.tidy_getter hs,
        List.forall_mem_singleton.2 (Function.tidy_setter hs)⟩
    | _ => nomatch hname
  | addFunction id function =>
    cases hof
    refine tidy_addMembers ?_ hi h
    intro more hmore
    obtain ⟨place, hplace, rfl⟩ := return_eq_ok.1 hmore
    refine List.forall_mem_singleton.2 ?_
    obtain ⟨held, hitem, hfunction⟩ := exists_item_of_allows hs hplace
    cases held with
    | function f => exact ⟨f, hitem⟩
    | block | «class» => nomatch hfunction
  | block | function | «class» | get | indent => nomatch hof

theorem Keeps.append {w' : Workshop} {more : List Item} (h : w'.items = w.items ++ more) :
    w.Keeps w' := by
  intro place f hf
  refine ⟨f, ?_⟩
  rw [h, List.getElem?_append_left (List.getElem?_eq_some_iff.1 hf).1, hf]

theorem Keeps.set {w' : Workshop} {place : Nat} (h : w'.items = w.items.set place item')
    (hitem : w.items[place]? = some item) (hsort : item.isFunction = true → item'.isFunction = true) :
    w.Keeps w' := by
  intro p f hf
  rw [h]
  by_cases hp : place = p
  · subst hp
    have hfunction : item'.isFunction = true := hsort (by rw [← Option.some.inj (hf.symm.trans hitem)]; rfl)
    rw [List.getElem?_set_self (List.getElem?_eq_some_iff.1 hf).1]
    cases item' with
    | function f' => exact ⟨f', rfl⟩
    | block | «class» => nomatch hfunction
  · exact ⟨f, by rw [List.getElem?_set_ne hp, hf]⟩

theorem Tidy.append {w' : Workshop} (hw : w.Tidy) (h : w'.items = w.items ++ [item])
    (hnew : item.Tidy w') : w'.Tidy := by
  intro other hmem
  rcases List.mem_append.1 (h ▸ hmem : other ∈ w.items ++ [item]) with hmem | hmem
  · exact (hw other hmem).mono (Keeps.append h)
  · exact List.mem_singleton.1 hmem ▸ hnew

theorem tidy_of_evolves {w' : Workshop} {s : Step} (hw : w.Tidy) (hs : w.admits s = true)
    (h : Evolves w s w'.items) : w'.Tidy := by
  generalize hitems : w'.items = items at h
  cases h with
  | same =>
    intro item hmem
    exact (hw item (hitems ▸ hmem)).mono (Keeps.append (hitems.trans (List.append_nil _).symm))
  | block => exact hw.append hitems ⟨rfl, isTidy_null, laidOut_of_tidy rfl⟩
  | function _ _ kind => exact hw.append hitems (Function.tidy_new kind)
  | «class» => exact hw.append hitems ⟨hs, by simp⟩
  | change hof hitem hchange =>
    obtain ⟨htidy, hsort⟩ := tidy_change hw hs hof (hw _ (List.mem_of_getElem? hitem)) hchange
    have hkeeps := Keeps.set hitems hitem hsort
    intro other hmem
    rcases List.mem_or_eq_of_mem_set (hitems ▸ hmem) with hmem | rfl
    · exact (hw other hmem).mono hkeeps
    · exact htidy.mono hkeeps

theorem tidy_step {s : Step} (hw : w.Tidy) (hs : w.admits s = true) : (w.step s).2.Tidy := by
  unfold step
  cases hperform : w.perform s with
  | error fault => exact hw
  | ok result => exact tidy_of_evolves hw hs (evolves_of_perform hperform)

theorem tidy_after {steps : List Step} (hw : w.Tidy) (h : w.admitsAll steps = true) :
    (w.after steps).Tidy := by
  induction steps generalizing w with
  | nil => exact hw
  | cons s steps ih =>
    obtain ⟨hs, hsteps⟩ := Bool.and_eq_true_iff.1 h
    exact ih (tidy_step hw hs) hsteps

/-- The code of a member of a class. -/
def memberCode (w : Workshop) (bound : Nat) : Member → Checked (List Value)
  | .made f => f.code
  | .shared place => w.codeAt bound place

theorem codeAt_class {place bound : Nat} {name : Value} {members : List Member}
    (h : w.items[place]? = some (.class name members)) :
    w.codeAt (bound + 1) place = (do classCode name (← members.mapM (w.memberCode bound))) := by
  rw [codeAt, h]
  refine congrArg (· >>= classCode name) (congrArg (members.mapM ·) ?_)
  funext m
  cases m <;> rfl

theorem exists_functions {members : List Member} (hw : w.Tidy) (h : ∀ m ∈ members, m.Tidy w)
    (bound : Nat) : ∃ functions, members.mapM w.functionOf? = some functions ∧
      (∀ f ∈ functions, f.Tidy) ∧
      members.mapM (w.memberCode (bound + 1)) = functions.mapM Function.code := by
  induction members with
  | nil => exact ⟨[], rfl, by simp, rfl⟩
  | cons m members ih =>
    obtain ⟨functions, hfunctions, htidy, hcodes⟩ := ih fun other hother => h other (by simp [hother])
    have hfirst : ∃ f, w.functionOf? m = some f ∧ f.Tidy ∧ w.memberCode (bound + 1) m = f.code := by
      have hm := h m (by simp)
      cases m with
      | made f => exact ⟨f, rfl, hm, rfl⟩
      | shared place =>
        obtain ⟨f, hf⟩ := hm
        exact ⟨f, by rw [functionOf?, hf], hw _ (List.mem_of_getElem? hf), by
          rw [memberCode, codeAt, hf]⟩
    obtain ⟨f, hf, hftidy, hcode⟩ := hfirst
    refine ⟨f :: functions, ?_, List.forall_mem_cons.2 ⟨hftidy, htidy⟩, ?_⟩
    · rw [List.mapM_cons, hf, hfunctions]
      rfl
    · rw [List.mapM_cons, List.mapM_cons, hcode, hcodes]

end Workshop

theorem exists_codes {functions : List Function} (h : ∀ f ∈ functions, f.Tidy) :
    ∃ codes : List (List String), functions.mapM Function.code = .ok (codes.map texts) ∧ Laid isPlain 0 codes.flatten ∧
      ((∀ f ∈ functions, f.isNameless = false) → Laid isTidy 0 codes.flatten) ∧
      (∀ f ∈ functions, f.isNameless = true → ∃ rest, " = (" ++ rest ∈ codes.flatten) := by
  induction functions with
  | nil => exact ⟨[], rfl, .nil 0, fun _ => .nil 0, by simp⟩
  | cons f functions ih =>
    obtain ⟨codes, hcodes, hplain, htidy, hnameless⟩ := ih fun other hother => h other (by simp [hother])
    obtain ⟨lines, hlines, hfirst, hfirstTidy, hfirstNameless⟩ := (h f (by simp)).code
    refine ⟨lines :: codes, ?_, hfirst.append hplain, ?_, ?_⟩
    · rw [List.mapM_cons, hlines, hcodes]
      rfl
    · intro hnamed
      exact (hfirstTidy (hnamed f (by simp))).append (htidy fun other hother => hnamed other (by simp [hother]))
    · intro other hother harrow
      rcases List.mem_cons.1 hother with rfl | hother
      · obtain ⟨rest, hrest⟩ := hfirstNameless harrow
        exact ⟨rest, List.mem_append_left _ hrest⟩
      · obtain ⟨rest, hrest⟩ := hnameless other hother harrow
        exact ⟨rest, List.mem_append_right _ hrest⟩

/-- In indented code no line starts with five spaces. -/
theorem not_indented_of_mem {lines : List String} {rest : String} (h : "    " ++ (" = (" ++ rest) ∈ lines) :
    ¬Indented lines := by
  intro hindented
  obtain ⟨before, after, hlines⟩ := List.append_of_mem h
  obtain ⟨depth, -, hleading⟩ := hindented before _ after hlines
  have hfive : leading ("    " ++ (" = (" ++ rest)) = 5 := by simp [leading]
  omega

theorem classCode_laid {name : Value} {functions : List Function} (hname : isTidy name.spell = true)
    (h : ∀ f ∈ functions, f.Tidy) : ∃ codes lines, functions.mapM Function.code = .ok codes ∧
      classCode name codes = .ok (texts lines) ∧ Nested 0 0 lines ∧
      (∀ line ∈ lines, isLine line = true) ∧
      (Indented lines ↔ ∀ f ∈ functions, f.isNameless = false) := by
  obtain ⟨codes, hcodes, hplain, htidy, hnameless⟩ := exists_codes h
  have hhead : isTidy ("class " ++ className name ++ " ") = true := by
    simp only [className, String.append_assoc]
    refine isTidy_start rfl (by decide) ?_
    simp only [isPlain_append, isPlain_of_isTidy hname]
    rfl
  have hlaid := hplain.bracedLines (isPlain_of_isTidy hhead)
  have hnested := hlaid.nested fun s hs => hs
  refine ⟨codes.map texts, _, hcodes, ?_, hnested, hlaid.isLine_of_mem fun s hs => hs, ?_, ?_⟩
  · have hflatten : (codes.map texts).flatten = texts codes.flatten := List.map_flatten.symm
    rw [classCode, hflatten, braced_texts]
  · intro hindented f hf
    by_contra hnot
    obtain ⟨rest, hrest⟩ := hnameless f hf (by simpa using hnot)
    have hmem : "    " ++ (" = (" ++ rest) ∈ codes.flatten.map ("    " ++ ·) := List.mem_map_of_mem hrest
    exact not_indented_of_mem (List.mem_cons_of_mem _ (List.mem_append_left _ hmem)) hindented
  · intro hnamed
    exact indented_of_aligned ((htidy hnamed).bracedLines hhead).aligned hnested

/-- After any steps that are admitted, the code of a class is nested: its braces match, and each line
starts with four spaces for every open brace exactly if no arrow of the class is nameless. -/
theorem class_code_laid_out {steps : List Step} (h : Workshop.admitsAll {} steps = true) {id name : Value}
    {members : List Member} (hid : (Workshop.after {} steps).itemOf? id = some (.class name members)) :
    ∃ functions lines, members.mapM (Workshop.after {} steps).functionOf? = some functions ∧
      Workshop.run {} (steps ++ [.get id]) = Workshop.run {} steps ++ [.ok (some (texts lines))] ∧
      Nested 0 0 lines ∧ (∀ line ∈ lines, isLine line = true) ∧
      (Indented lines ↔ ∀ f ∈ functions, f.isNameless = false) := by
  have hw : (Workshop.after {} steps).Tidy := Workshop.tidy_after (by intro item hitem; simp at hitem) h
  generalize hafter : Workshop.after {} steps = w at *
  obtain ⟨place, hplace, hitem⟩ := Workshop.exists_place_of_itemOf hid
  obtain ⟨hname, hmembers⟩ := hw _ (List.mem_of_getElem? hitem)
  obtain ⟨bound, hbound⟩ : ∃ bound, w.items.length = bound + 1 :=
    Nat.exists_eq_add_one.2 (Nat.zero_lt_of_lt (List.getElem?_eq_some_iff.1 hitem).1)
  obtain ⟨functions, hfunctions, htidy, hcodes⟩ := Workshop.exists_functions hw hmembers bound
  obtain ⟨codes, lines, hmap, hcode, hlaid⟩ := classCode_laid hname htidy
  have hget : w.run [.get id] = [.ok (some (texts lines))] := by
    have hclass : w.code place = .ok (texts lines) := by
      rw [Workshop.code, Workshop.codeAt_class hitem, hbound, hcodes, hmap]
      exact hcode
    have hperform : w.perform (.get id) = .ok (some (texts lines), w) := by
      simp only [Workshop.perform, hplace, hclass, Checked.ok_bind]
      rfl
    simp only [Workshop.run, Workshop.step, hperform]
  exact ⟨functions, lines, hfunctions, by rw [Workshop.run_append, hafter, hget], hlaid⟩

/-- A class with a constructor, accessors, a static function around nested blocks, and an arrow. -/
def counterSteps : List Step :=
  [.block "each", .wrap "each" "FOR" "< n" "i", .addLines "each" (.list ["sum += i"]),
    .block "check", .wrap "check" "IF" "n > 0" "i", .addBlock "check" "each",
    .function "total" (some "STATIC"), .setName "total" "total", .setParams "total" (.list ["n"]),
    .addBlock "total" "check", .addLines "total" (.list ["return sum"]),
    .function "show" (some "ARROW_FUNCTION"), .setName "show" "show",
    .class "counter" "Counter", .addConstructor "counter" (.table [("count", "0")]) (.list ["count"]),
    .addGetterSetter "counter" "count", .addFunction "counter" "total", .addFunction "counter" "show"]

theorem counter_code_laid_out : Workshop.admitsAll {} counterSteps = true ∧ ∃ lines,
    Workshop.run {} (counterSteps ++ [.get "counter"]) =
      Workshop.run {} counterSteps ++ [.ok (some (texts lines))] ∧
    Nested 0 0 lines ∧ (∀ line ∈ lines, isLine line = true) ∧ Indented lines := by
  have hadmits : Workshop.admitsAll {} counterSteps = true := by decide +kernel
  let members : List Member := [.made (.ofValues [("count", "0")] (.list ["count"])), .made (.getter "count"),
    .made (.setter "count"), .shared 2, .shared 3]
  have hcounter : (Workshop.after {} counterSteps).itemOf? "counter" = some (.class "Counter" members) := rfl
  obtain ⟨functions, lines, hfunctions, hrun, hnested, hlines, hindented⟩ :=
    class_code_laid_out hadmits hcounter
  have hnamed : (members.mapM (Workshop.after {} counterSteps).functionOf?).any
      (·.all fun f => !f.isNameless) = true := by decide +kernel
  rw [hfunctions] at hnamed
  refine ⟨hadmits, lines, hrun, hnested, hlines, hindented.2 ?_⟩
  intro f hf
  simpa using List.all_eq_true.1 hnamed f hf

/-- The head of an arrow without a name starts with a space, which stands behind those that the class puts
there. -/
theorem nameless_arrow_not_indented : ∃ steps lines, Workshop.admitsAll {} steps = true ∧
    Workshop.run {} (steps ++ [.get "c"]) = Workshop.run {} steps ++ [.ok (some (texts lines))] ∧
    ¬Indented lines := by
  let steps : List Step := [.function "f" (some "ARROW_FUNCTION"), .setName "f" "", .class "c" "A",
    .addFunction "c" "f"]
  let lines := ["class ABuffer \x7b", "     = () => \x7b", "    \x7d", "\x7d"]
  have hline : "    " ++ (" = (" ++ ") => \x7b") ∈ lines := by decide
  exact ⟨steps, lines, by decide +kernel, rfl, not_indented_of_mem hline⟩

end Script
end SchemaForge
