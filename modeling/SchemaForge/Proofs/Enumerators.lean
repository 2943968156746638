import Mathlib.Data.List.Induction
import SchemaForge.Model.Enum
import SchemaForge.Proofs.FieldTypes
import SchemaForge.Proofs.UpFront

/-! The enumerators of an enumeration. They come from its own values and from the constants of structures,
and one of the same name takes the place of an earlier one. Names of letters and digits give the same
enumerator only if they differ in the case of the first letter and nowhere else, so none gets lost among
names that are different enough. -/
namespace SchemaForge
open Checked
namespace Text

/-- A name of ASCII letters and digits. -/
def isAlphanumeric (name : String) : Bool := !name.isEmpty && name.toList.all Char.isAlphanum

/-- Names that differ at most in the case of their first letter. -/
def AlikeButFirst (s t : String) : Prop :=
  s.toList.head?.map Char.toLower = t.toList.head?.map Char.toLower ∧ s.toList.tail = t.toList.tail

instance (s t : String) : Decidable (AlikeButFirst s t) := inferInstanceAs (Decidable (_ ∧ _))

theorem toNat_lt_of_isAlphanum {c : Char} (h : c.isAlphanum = true) : c.toNat < 128 := by
  have hcases : (c.isUpper = true ∨ c.isLower = true) ∨ c.isDigit = true := by
    rw [← Bool.or_eq_true, ← Bool.or_eq_true]
    exact h
  change c.val < 128
  rcases hcases with (hupper | hlower) | hdigit
  · have hlast : c.val ≤ 'Z'.val := (of_decide_eq_true hupper).2
    exact UInt32.lt_of_le_of_lt hlast (by decide)
  · have hlast : c.val ≤ 'z'.val := of_decide_eq_true (Bool.and_eq_true_iff.1 hlower).2
    exact UInt32.lt_of_le_of_lt hlast (by decide)
  · have hlast : c.val ≤ '9'.val := of_decide_eq_true (Bool.and_eq_true_iff.1 hdigit).2
    exact UInt32.lt_of_le_of_lt hlast (by decide)

/-- What holds of all ASCII characters. -/
theorem of_ascii {p : Char → Prop} (hp : ∀ n < 128, p (Char.ofNat n)) {c : Char} (h : c.toNat < 128) : p c := by
  rw [← Char.ofNat_toNat c]
  exact hp c.toNat h

theorem toLower_toUpper {c : Char} (h : c.toNat < 128) : c.toUpper.toLower = c.toLower :=
  of_ascii (p := fun c => c.toUpper.toLower = c.toLower) (by decide +kernel) h

theorem toUpper_toLower {c : Char} (h : c.toNat < 128) : c.toLower.toUpper = c.toUpper :=
  of_ascii (p := fun c => c.toLower.toUpper = c.toUpper) (by decide +kernel) h

theorem toUpper_eq_iff {c d : Char} (hc : c.toNat < 128) (hd : d.toNat < 128) :
    c.toUpper = d.toUpper ↔ c.toLower = d.toLower := by
  constructor
  · intro h
    rw [← toLower_toUpper hc, h, toLower_toUpper hd]
  · intro h
    rw [← toUpper_toLower hc, h, toUpper_toLower hd]

theorem toUpper_ne_underscore {c : Char} (h : c.isAlphanum = true) : c.toUpper ≠ '_' :=
  of_ascii (p := fun c => c.isAlphanum = true → c.toUpper ≠ '_') (by decide +kernel)
    (toNat_lt_of_isAlphanum h) h

theorem toLower_of_not_isUpper {c : Char} (hc : c.toNat < 128) (h : c.isUpper = false) : c.toLower = c :=
  of_ascii (p := fun c => c.isUpper = false → c.toLower = c) (by decide +kernel) hc h

theorem toUpper_of_isUpper {c : Char} (hc : c.toNat < 128) (h : c.isUpper = true) : c.toUpper = c :=
  of_ascii (p := fun c => c.isUpper = true → c.toUpper = c) (by decide +kernel) hc h

/-- The part of an enumerator's name behind the first letter. -/
def mangled (cs : List Char) : List Char := (underscoreCapitals cs).map Char.toUpper

theorem mangled_cons {c : Char} (hc : c.toNat < 128) (cs : List Char) :
    mangled (c :: cs) = if c.isUpper then '_' :: c :: mangled cs else c.toUpper :: mangled cs := by
  rw [mangled, underscoreCapitals, isCapital_ascii hc]
  cases hu : c.isUpper with
  | true => simp [toUpper_of_isUpper hc hu, mangled]
  | false => simp [mangled]

/-- The underscores and capitals tell the letters, since names have no underscores of their own. -/
theorem mangled_inj {cs ds : List Char} (hc : ∀ c ∈ cs, c.isAlphanum = true)
    (hd : ∀ d ∈ ds, d.isAlphanum = true) (h : mangled cs = mangled ds) : cs = ds := by
  induction cs generalizing ds with
  | nil =>
    cases ds with
    | nil => rfl
    | cons d ds =>
      rw [mangled_cons (toNat_lt_of_isAlphanum (hd d (by simp)))] at h
      split at h <;> cases h
  | cons c cs ih =>
    have hcode := toNat_lt_of_isAlphanum (hc c (by simp))
    cases ds with
    | nil =>
      rw [mangled_cons hcode] at h
      split at h <;> cases h
    | cons d ds =>
      have hcode' := toNat_lt_of_isAlphanum (hd d (by simp))
      have hrest : mangled cs = mangled ds → cs = ds :=
        ih (fun c hmem => hc c (by simp [hmem])) fun d hmem => hd d (by simp [hmem])
      rw [mangled_cons hcode, mangled_cons hcode'] at h
      cases hu : c.isUpper <;> cases hu' : d.isUpper <;> simp only [hu, hu', if_true, Bool.false_eq_true,
        if_false, List.cons.injEq] at h
      · obtain ⟨hfirst, hmore⟩ := h
        have hsmall := (toUpper_eq_iff hcode hcode').1 hfirst
        rw [toLower_of_not_isUpper hcode hu, toLower_of_not_isUpper hcode' hu'] at hsmall
        rw [hsmall, hrest hmore]
      · exact absurd h.1 (toUpper_ne_underscore (hc c (by simp)))
      · exact absurd h.1.symm (toUpper_ne_underscore (hd d (by simp)))
      · rw [h.2.1, hrest h.2.2]

theorem mem_underscoreCapitals {cs : List Char} {c : Char} (h : c ∈ underscoreCapitals cs) :
    c = '_' ∨ c ∈ cs := by
  induction cs with
  | nil => simp [underscoreCapitals] at h
  | cons d cs ih =>
    rw [underscoreCapitals] at h
    split at h <;> simp only [List.mem_cons] at h ⊢
    · rcases h with rfl | rfl | h
      · exact .inl rfl
      · exact .inr (.inl rfl)
      · exact (ih h).imp_right .inr
    · rcases h with rfl | h
      · exact .inr (.inl rfl)
      · exact (ih h).imp_right .inr

theorem flatMap_upperForm {cs : List Char} (h : ∀ c ∈ cs, c.toNat < 128) :
    cs.flatMap upperForm = cs.map Char.toUpper := by
  induction cs with
  | nil => rfl
  | cons c cs ih =>
    rw [List.flatMap_cons, upperForm_ascii (h c (by simp)), ih fun d hd => h d (by simp [hd])]
    rfl

theorem toList_enumName {s : String} {c : Char} {rest : List Char} (hs : s.toList = c :: rest)
    (h : ∀ d ∈ c :: rest, d.isAlphanum = true) : (enumName s).toList = c.toUpper :: mangled rest := by
  have hascii : ∀ d ∈ c :: underscoreCapitals rest, d.toNat < 128 := by
    intro d hd
    rcases List.mem_cons.1 hd with rfl | hd
    · exact toNat_lt_of_isAlphanum (h d (by simp))
    · rcases mem_underscoreCapitals hd with rfl | hd
      · decide
      · exact toNat_lt_of_isAlphanum (h d (by simp [hd]))
  rw [enumName, upper, snakeCase, hs, String.toList_ofList, String.toList_ofList, flatMap_upperForm hascii]
  rfl

theorem exists_cons_of_isAlphanumeric {s : String} (h : isAlphanumeric s = true) :
    ∃ c rest, s.toList = c :: rest ∧ ∀ d ∈ c :: rest, d.isAlphanum = true := by
  simp only [isAlphanumeric, Bool.and_eq_true, Bool.not_eq_true', List.all_eq_true] at h
  cases hs : s.toList with
  | nil =>
    obtain rfl : s = "" := by simpa using hs
    simp at h
  | cons c rest => exact ⟨c, rest, rfl, hs ▸ h.2⟩

/-- Names of letters and digits give the same enumerator exactly if they differ at most in the case of the
first letter. -/
theorem enumName_eq_iff {s t : String} (hs : isAlphanumeric s = true) (ht : isAlphanumeric t = true) :
    enumName s = enumName t ↔ AlikeButFirst s t := by
  obtain ⟨c, cs, hc, hcs⟩ := exists_cons_of_isAlphanumeric hs
  obtain ⟨d, ds, hd, hds⟩ := exists_cons_of_isAlphanumeric ht
  have hfirst := toUpper_eq_iff (toNat_lt_of_isAlphanum (hcs c (by simp)))
    (toNat_lt_of_isAlphanum (hds d (by simp)))
  have hrest : mangled cs = mangled ds ↔ cs = ds :=
    ⟨mangled_inj (fun c hmem => hcs c (by simp [hmem])) fun d hmem => hds d (by simp [hmem]),
      congrArg mangled⟩
  rw [← String.toList_inj, toList_enumName hc hcs, toList_enumName hd hds, List.cons.injEq, hfirst, hrest]
  simp [AlikeButFirst, hc, hd]

end Text

theorem Value.enumName_text (s : String) : (Value.text s).enumName = .ok (Text.enumName s) := by
  by_cases hs : s.isEmpty
  · obtain rfl : s = "" := by simpa using hs
    rfl
  · simp [enumName, snakeCase, isEmpty, hs]
    rfl

namespace EnumModel

/-- The enumerator of a value that the enumeration declares. -/
structure OfValue (v : Value) (e : Enumerator) : Prop where
  name : (v.need "name" >>= Value.enumName) = .ok e.name
  value : v.need "value" = .ok e.value
  comment : v.description = .ok e.comment

/-- The enumerator of a constant in the structure of a name. -/
structure OfConstant (c : String × Value) (e : Enumerator) : Prop where
  name : Text.enumName c.1 = e.name
  value : c.2.need "value" = .ok e.value
  comment : Text.phrase c.1 = .ok e.comment

def isConstantOf (type : String) (v : Value) : Bool :=
  (v.find "disposition").toOption.join.any (· == .text "const") &&
    (v.find "type").toOption.join.any (· == .text type)

/-- The constants of a type in a structure. What has no layout has none. -/
def constantsIn (type : String) (d : Value) : List Value :=
  (d.layout.toOption.getD []).filter (isConstantOf type)

/-- The constants of a type in a schema, each with the name of its structure. -/
def constants (s : Schema) (type : String) : List (String × Value) :=
  s.types.flatMap fun p => (constantsIn type p.2).map (p.1, ·)

/-- The structures with a constant of a type. -/
def holders (s : Schema) (type : String) : List (String × Value) :=
  s.types.filter fun p => !(constantsIn type p.2).isEmpty

section Merging
variable {e : Enumerator} {es l : List Enumerator}

theorem names_put : (put e es).map (·.name) =
    if e.name ∈ es.map (·.name) then es.map (·.name) else es.map (·.name) ++ [e.name] := by
  induction es with
  | nil => rfl
  | cons old rest ih =>
    rw [put]
    by_cases h : old.name = e.name
    · simp [h]
    · rw [if_neg h, List.map_cons, ih]
      simp only [List.map_cons, List.mem_cons, Ne.symm h, false_or]
      split <;> rfl

theorem find_put (name : String) : (put e es).find? (·.name == name) =
    if e.name = name then some e else es.find? (·.name == name) := by
  induction es with
  | nil => by_cases h : e.name = name <;> simp [put, h]
  | cons old rest ih =>
    rw [put]
    by_cases h : old.name = e.name
    · by_cases he : e.name = name <;> simp [h, he]
    · rw [if_neg h, List.find?_cons, ih]
      by_cases ho : old.name = name
      · have he : ¬ e.name = name := fun he => h (ho.trans he.symm)
        simp [ho, he]
      · simp [beq_eq_false_iff_ne.2 ho]

theorem put_of_notMem (h : e.name ∉ es.map (·.name)) : put e es = es ++ [e] := by
  induction es with
  | nil => rfl
  | cons old rest ih =>
    simp only [List.map_cons, List.mem_cons, not_or] at h
    rw [put, if_neg (Ne.symm h.1), ih h.2]
    rfl

/-- Enumerators put one after the other. -/
def merged (l : List Enumerator) : List Enumerator := l.foldl (fun es e => put e es) []

theorem merged_concat : merged (l ++ [e]) = put e (merged l) := by
  rw [merged, List.foldl_append]
  rfl

/-- Each name stands where it first occurs. -/
theorem names_merged (l : List Enumerator) : (merged l).map (·.name) = (l.map (·.name)).eraseDups := by
  induction l using List.reverseRecOn with
  | nil => rfl
  | append_singleton l e ih =>
    rw [merged_concat, names_put, ih, List.map_append, List.eraseDups_append]
    have hnew : [e.name].removeAll (l.map (·.name)) =
        if e.name ∈ l.map (·.name) then [] else [e.name] := by
      by_cases h : e.name ∈ l.map (·.name) <;> simp only [List.removeAll, List.filter_cons,
        List.elem_eq_mem, h, decide_true, decide_false, Bool.not_true, Bool.not_false] <;> rfl
    simp only [List.map_cons, List.map_nil, List.mem_eraseDups, hnew]
    split
    · simp
    · rfl

/-- Under each name stands what has the name last. -/
theorem find_merged (l : List Enumerator) (name : String) :
    (merged l).find? (·.name == name) = (l.filter (·.name == name)).getLast? := by
  induction l using List.reverseRecOn with
  | nil => rfl
  | append_singleton l e ih =>
    rw [merged_concat, find_put, ih, List.filter_append]
    by_cases h : e.name = name <;> simp [h]

theorem merged_eq_self (h : (l.map (·.name)).Nodup) : merged l = l := by
  induction l using List.reverseRecOn with
  | nil => rfl
  | append_singleton l e ih =>
    rw [List.map_append, List.nodup_append] at h
    obtain ⟨hl, -, hnew⟩ := h
    rw [merged_concat, ih hl, put_of_notMem fun hmem => hnew _ hmem _ (by simp) rfl]

theorem getLast_filter_of_mem_merged (h : e ∈ merged l) :
    (l.filter (·.name == e.name)).getLast? = some e := by
  have hnames : ((merged l).map (·.name)).Nodup := by
    rw [names_merged]
    exact (pairwise_eraseDups _).imp fun h heq => by simp [heq] at h
  rw [← find_merged]
  generalize merged l = es at h hnames
  induction es with
  | nil => cases h
  | cons old rest ih =>
    rw [List.map_cons, List.nodup_cons] at hnames
    rcases List.mem_cons.1 h with rfl | h
    · simp
    · have hother : old.name ≠ e.name := fun heq => hnames.1 (heq ▸ List.mem_map_of_mem h)
      rw [List.find?_cons_of_neg (by simpa using hother), ih h hnames.2]

end Merging

section Sources
variable {type owner : String} {v d : Value}

theorem ofValue_eq_ok {e : Enumerator} (h : ofValue v = .ok e) : OfValue v e := by
  obtain ⟨name, hname, h⟩ := bind_eq_ok.1 h
  obtain ⟨value, hvalue, h⟩ := bind_eq_ok.1 h
  obtain ⟨comment, hcomment, h⟩ := bind_eq_ok.1 h
  obtain ⟨text, htext, rfl⟩ := return_eq_ok.1 h
  exact ⟨bind_eq_ok.2 ⟨name, hname, htext⟩, hvalue, hcomment⟩

/-- A constant of the type gives an enumerator, and no other attribute does. -/
theorem ofConstant_eq_ok {e : Option Enumerator} (h : ofConstant type owner v = .ok e) :
    if isConstantOf type v then ∃ e', e = some e' ∧ OfConstant (owner, v) e' else e = none := by
  obtain ⟨disposition, hdisposition, h⟩ := bind_eq_ok.1 h
  cases hconst : disposition.any (· == .text "const") with
  | false =>
    rw [hconst] at h
    obtain rfl := Except.ok.inj h
    simp [isConstantOf, hdisposition, Except.toOption, hconst]
  | true =>
    rw [hconst] at h
    obtain ⟨kind, hkind, h⟩ := bind_eq_ok.1 h
    cases htype : kind.any (· == .text type) with
    | false =>
      rw [htype] at h
      obtain rfl := Except.ok.inj h
      simp [isConstantOf, hkind, Except.toOption, htype]
    | true =>
      rw [htype] at h
      obtain ⟨comment, hcomment, h⟩ := bind_eq_ok.1 h
      obtain ⟨value, hvalue, rfl⟩ := return_eq_ok.1 h
      have hc : isConstantOf type v = true := by
        simp [isConstantOf, hdisposition, hkind, Except.toOption, hconst, htype]
      rw [if_pos hc]
      exact ⟨_, rfl, rfl, hvalue, hcomment⟩

theorem ofConstants_eq_ok {attributes : List Value} {added : List Enumerator}
    (h : attributes.filterMapM (ofConstant type owner) = .ok added) :
    List.Forall₂ (fun v => OfConstant (owner, v)) (attributes.filter (isConstantOf type)) added := by
  induction attributes generalizing added with
  | nil =>
    obtain rfl := Except.ok.inj h
    exact .nil
  | cons v rest ih =>
    rw [List.filterMapM_cons] at h
    obtain ⟨e, he, h⟩ := bind_eq_ok.1 h
    have hv := ofConstant_eq_ok he
    cases hc : isConstantOf type v with
    | false =>
      rw [hc] at hv
      obtain rfl : e = none := hv
      rw [List.filter_cons_of_neg (by simp [hc])]
      exact ih h
    | true =>
      rw [hc] at hv
      obtain ⟨e', rfl, hof⟩ : ∃ e', e = some e' ∧ OfConstant (owner, v) e' := hv
      obtain ⟨more, hmore, rfl⟩ := return_eq_ok.1 h
      rw [List.filter_cons_of_pos hc]
      exact .cons hof (ih hmore)

theorem layout_of_not_has (h : d.has "layout" = .ok false) : d.layout.toOption = none := by
  cases hlayout : d.layout with
  | error => rfl
  | ok attributes =>
    obtain ⟨listed, hlisted, -⟩ := bind_eq_ok.1 hlayout
    have htrue := Value.has_of_need hlisted
    rw [h] at htrue
    cases htrue

theorem ofStruct_eq_ok {added : List Enumerator} (h : ofStruct type owner d = .ok added) :
    List.Forall₂ (fun v => OfConstant (owner, v)) (constantsIn type d) added := by
  obtain ⟨has, hhas, h⟩ := bind_eq_ok.1 h
  cases has with
  | false =>
    obtain rfl := Except.ok.inj h
    rw [constantsIn, layout_of_not_has hhas]
    exact .nil
  | true =>
    obtain ⟨attributes, hattributes, h⟩ := bind_eq_ok.1 h
    rw [constantsIn, hattributes]
    exact ofConstants_eq_ok h

theorem ofStructs_eq_ok {types : List (String × Value)} {added : List (List Enumerator)}
    (h : (types.mapM fun (owner, d) => ofStruct type owner d) = .ok added) :
    List.Forall₂ OfConstant (types.flatMap fun p => (constantsIn type p.2).map (p.1, ·)) added.flatten := by
  have hall := Checked.forall₂_of_mapM h
  clear h
  induction hall with
  | nil => exact .nil
  | cons hfirst _ ih =>
    rw [List.flatMap_cons, List.flatten_cons]
    exact List.rel_append (List.forall₂_map_left_iff.2 (ofStruct_eq_ok hfirst)) ih

/-- With one constant in a structure at most, each of those that have one adds one enumerator. -/
theorem forall₂_holders {types : List (String × Value)} {added : List Enumerator}
    (hone : ∀ p ∈ types, (constantsIn type p.2).length ≤ 1)
    (h : List.Forall₂ OfConstant (types.flatMap fun p => (constantsIn type p.2).map (p.1, ·)) added) :
    List.Forall₂ (fun p e => ∃ v, constantsIn type p.2 = [v] ∧ OfConstant (p.1, v) e)
      (types.filter fun p => !(constantsIn type p.2).isEmpty) added := by
  induction types generalizing added with
  | nil => simpa using h
  | cons p types ih =>
    have hrest := fun added => @ih added fun q hq => hone q (by simp [hq])
    have hp := hone p (by simp)
    rw [List.flatMap_cons] at h
    match hc : constantsIn type p.2 with
    | [] =>
      rw [List.filter_cons_of_neg (by simp [hc])]
      rw [hc] at h
      exact hrest added h
    | [v] =>
      rw [List.filter_cons_of_pos (by simp [hc])]
      rw [hc] at h
      cases h with
      | cons hfirst h => exact .cons ⟨v, hc, hfirst⟩ (hrest _ h)
    | v :: w :: more =>
      rw [hc] at hp
      simp at hp

end Sources

/-- Where the enumerators of a type come from. Each name stands once, at its first place and with what the
last one of the name gives it. -/
structure Collected (s : Schema) (type : String) (values : List Value)
    (declared added es : List Enumerator) : Prop where
  read : (s.need type >>= Value.values) = .ok values
  ofValues : List.Forall₂ OfValue values declared
  ofConstants : List.Forall₂ OfConstant (constants s type) added
  names : es.map (·.name) = ((declared ++ added).map (·.name)).eraseDups
  last : ∀ e ∈ es, ((declared ++ added).filter (·.name == e.name)).getLast? = some e

theorem build_eq_ok {t : Target} {s : Schema} {name : String} {m : EnumModel} (h : build t s name = .ok m) :
    ∃ values declared added, m.enumerators = merged (declared ++ added) ∧
      Collected s name values declared added m.enumerators := by
  obtain ⟨decl, hdecl, h⟩ := bind_eq_ok.1 h
  obtain ⟨_, -, h⟩ := bind_eq_ok.1 h
  obtain ⟨_, -, h⟩ := bind_eq_ok.1 h
  obtain ⟨_, -, h⟩ := bind_eq_ok.1 h
  obtain ⟨values, hvalues, h⟩ := bind_eq_ok.1 h
  obtain ⟨declared, hdeclared, h⟩ := bind_eq_ok.1 h
  obtain ⟨_, -, h⟩ := bind_eq_ok.1 h
  obtain ⟨added, hadded, rfl⟩ := return_eq_ok.1 h
  exact ⟨values, declared, added.flatten, rfl,
    { read := bind_eq_ok.2 ⟨decl, hdecl, hvalues⟩
      ofValues := (Checked.forall₂_of_mapM hdeclared).imp fun _ _ => ofValue_eq_ok
      ofConstants := ofStructs_eq_ok hadded
      names := names_merged _
      last := fun _ => getLast_filter_of_mem_merged }⟩

theorem names_declared {values : List Value} {declared : List Enumerator} {names : List String}
    (hd : List.Forall₂ OfValue values declared)
    (hn : List.Forall₂ (fun v n => v.need "name" = .ok (.text n)) values names) :
    declared.map (·.name) = names.map Text.enumName := by
  induction hd generalizing names with
  | nil =>
    cases hn
    rfl
  | cons hv _ ih =>
    cases hn with
    | cons hname hn =>
      have hfirst := hv.name
      rw [hname, ok_bind, Value.enumName_text] at hfirst
      rw [List.map_cons, List.map_cons, ← Except.ok.inj hfirst, ih hn]

/-- The enumerators of a type are those of its values and of the constants of the type, and none of them is
lost if the names differ in more than the case of the first letter. -/
theorem enumerators_not_lost {t : Target} {s : Schema} {name : String} {m : EnumModel}
    (h : build t s name = .ok m) :
    (∀ a b, Text.isAlphanumeric a = true → Text.isAlphanumeric b = true →
      (Text.enumName a = Text.enumName b ↔ Text.AlikeButFirst a b)) ∧
    ∃ values declared added, Collected s name values declared added m.enumerators ∧
      ∀ names, List.Forall₂ (fun v n => v.need "name" = .ok (.text n)) values names →
        (∀ n ∈ names ++ (holders s name).map (·.1), Text.isAlphanumeric n = true) →
        (names ++ (holders s name).map (·.1)).Pairwise (fun a b => ¬ Text.AlikeButFirst a b) →
        (∀ p ∈ s.types, (constantsIn name p.2).length ≤ 1) →
        m.enumerators = declared ++ added ∧
          List.Forall₂ (fun p e => ∃ v, constantsIn name p.2 = [v] ∧ OfConstant (p.1, v) e)
            (holders s name) added := by
  refine ⟨fun a b => Text.enumName_eq_iff, ?_⟩
  obtain ⟨values, declared, added, hmerged, hcollected⟩ := build_eq_ok h
  refine ⟨values, declared, added, hcollected, ?_⟩
  intro names hnames halnum hdiffer hone
  have hholders := forall₂_holders hone hcollected.ofConstants
  refine ⟨?_, hholders⟩
  have hadded : added.map (·.name) = ((holders s name).map (·.1)).map Text.enumName := by
    rw [List.map_map]
    refine (List.forall₂_eq_eq_eq ▸ List.forall₂_map_left_iff.2 (List.forall₂_map_right_iff.2 ?_))
    exact hholders.flip.imp fun _ _ ⟨_, _, hof⟩ => hof.name.symm
  have hdistinct : ((names ++ (holders s name).map (·.1)).map Text.enumName).Nodup := by
    refine List.pairwise_map.2 (hdiffer.imp_of_mem ?_)
    intro a b ha hb hab heq
    exact hab ((Text.enumName_eq_iff (halnum a ha) (halnum b hb)).1 heq)
  rw [hmerged, merged_eq_self]
  rw [List.map_append, names_declared hcollected.ofValues hnames, hadded, ← List.map_append]
  exact hdistinct

/-- Two kinds of entities besides a value that the enumeration declares. -/
def entitySchema : Schema := ⟨[
  ("EntityType", .table [("type", "enum"), ("size", .int 2), ("signedness", "unsigned"),
    ("comments", "type of an entity"), ("values", .list [
      .table [("name", "reserved"), ("value", .int 0), ("comments", "reserved entity type")]])]),
  ("Amount", .table [("type", "byte"), ("size", .int 8), ("comments", "amount")]),
  ("MosaicMint", .table [("type", "struct"), ("comments", "mint"), ("layout", .list [
    .table [("name", "version"), ("type", "byte"), ("size", .int 1), ("disposition", "const"),
      ("value", .int 1), ("comments", "")],
    .table [("name", "kind"), ("type", "EntityType"), ("disposition", "const"), ("value", .int 16717),
      ("comments", "")]])]),
  ("MosaicBurn", .table [("type", "struct"), ("comments", "burn"), ("layout", .list [
    .table [("name", "amount"), ("type", "Amount"), ("comments", "amount")],
    .table [("name", "kind"), ("type", "EntityType"), ("disposition", "const"), ("value", .int 16973),
      ("comments", "")]])])]⟩

theorem enumerators_not_lost_entities : ∃ m values declared added,
    build .java entitySchema "EntityType" = .ok m ∧
    Collected entitySchema "EntityType" values declared added m.enumerators ∧
    (holders entitySchema "EntityType").map (·.1) = ["MosaicMint", "MosaicBurn"] ∧
    m.enumerators = declared ++ added ∧
    List.Forall₂ (fun p e => ∃ v, constantsIn "EntityType" p.2 = [v] ∧ OfConstant (p.1, v) e)
      (holders entitySchema "EntityType") added := by
  obtain ⟨m, hm⟩ := Checked.exists_ok (x := build .java entitySchema "EntityType") (by decide +kernel)
  obtain ⟨-, values, declared, added, hcollected, hkept⟩ := enumerators_not_lost hm
  have hholders : (holders entitySchema "EntityType").map (·.1) = ["MosaicMint", "MosaicBurn"] := by
    decide +kernel
  obtain rfl : [.table [("name", "reserved"), ("value", .int 0), ("comments", "reserved entity type")]] =
      values := Except.ok.inj hcollected.read
  refine ⟨m, _, declared, added, hm, hcollected, hholders, hkept ["reserved"] (.cons rfl .nil) ?_ ?_ ?_⟩
  · rw [hholders]
    decide +kernel
  · rw [hholders]
    decide +kernel
  · decide +kernel

end EnumModel
end SchemaForge
