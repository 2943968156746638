import SchemaForge.Proofs.BraceText
import SchemaForge.Proofs.Flattening
import SchemaForge.Proofs.Sharing
import SchemaForge.Proofs.Success

/-! Factories. A class whose attributes depend on discriminators by equality has a factory for each value
that a discriminator can have. The factory fixes the discriminator, takes what the value asks for, and
hands on nothing for the rest. -/
namespace SchemaForge
open Source Checked

theorem Value.text_beq_iff {word : String} {v : Value} : (.text word == v) = true ↔ .text word = v := by
  cases v <;> simp [BEq.beq, same, number?]

/-- The names of the values in the enumeration that is the type of an attribute. -/
def Schema.valueNames (s : Schema) (site : Site) : Checked (List Value) := do
  let type ← s.need (← (s.attributeAt site).need "type")
  (← type.values).mapM (·.need "name")

namespace ClassModel

/-- Whether an attribute depends on a discriminator by equality. -/
def isCompared (s : Schema) (e : Entry) : Bool :=
  e.isConditional && !(s.attributeAt e.site).is "condition_operation" "has"

/-- Whether a discriminator `c` on which an attribute depends can have the value `v`. -/
def Offers (s : Schema) (e : Entry) (c v : Value) : Prop :=
  ∃ site names, e.conditionSite = some site ∧ (s.attributeAt site).get? "name" = some c ∧
    s.valueNames site = .ok names ∧ v ∈ names

section
variable {s : Schema} {entries : List Entry} {eqs : List (Entry × Value)}

theorem equalities_eq_ok (h : equalities s entries = .ok eqs) :
    List.Forall₂ (fun e p => p.1 = e ∧ ∃ site, e.conditionSite = some site ∧
      ((s.attributeAt site).need "type" >>= (s.need ·)) = .ok p.2) (entries.filter (isCompared s)) eqs := by
  induction entries generalizing eqs with
  | nil =>
    obtain rfl := Except.ok.inj h
    exact .nil
  | cons e rest ih =>
    rw [equalities] at h
    by_cases hc : e.isConditional = true
    · simp only [hc] at h
      obtain ⟨operation, hoperation, h⟩ := bind_eq_ok.1 h
      have his : (s.attributeAt e.site).is "condition_operation" "has" = (operation == "has") := by
        rw [Record.is, Record.need_eq_ok.1 hoperation, Option.any_some]
      split at h
      · rename_i hhas
        rw [List.filter_cons_of_neg (by simp [isCompared, his, hhas])]
        exact ih (by simpa using h)
      · rename_i hhas
        rw [List.filter_cons_of_pos (by simp [isCompared, his, hhas, hc])]
        cases hsite : e.conditionSite with
        | none => simp [hsite] at h
        | some site =>
          simp only [hsite] at h
          obtain ⟨type, htype, h⟩ := bind_eq_ok.1 h
          obtain ⟨declared, hdeclared, h⟩ := bind_eq_ok.1 h
          obtain ⟨tail, htail, rfl⟩ := return_eq_ok.1 h
          exact .cons ⟨rfl, site, hsite, by simp [htype, hdeclared]⟩ (ih htail)
    · rw [List.filter_cons_of_neg (by simp [isCompared, hc])]
      exact ih (by simpa [hc] using h)

theorem enumerated_eq_ok {p : Entry × Value} {named : List (Entry × Value)}
    (h : enumerated p = .ok named) : ∃ names, (p.2.values >>= (·.mapM (·.need "name"))) = .ok names ∧
      named = names.map fun value => (p.1, value) := by
  obtain ⟨e, type⟩ := p
  obtain ⟨values, hvalues, h⟩ := bind_eq_ok.1 h
  obtain ⟨names, hnames, h⟩ := bind_eq_ok.1 h
  exact ⟨names, by simp [hvalues, hnames], (Except.ok.inj h).symm⟩

theorem asked_eq_ok {q : Entry × Value} {t : Value × Value × Value} (h : asked s q = .ok t) :
    ∃ site, q.1.conditionSite = some site ∧ (s.attributeAt site).get? "name" = some t.1 ∧
      (s.attributeAt q.1.site).get? "condition_value" = some t.2.1 ∧ q.2 = t.2.2 := by
  obtain ⟨e, value⟩ := q
  simp only [asked] at h
  cases hsite : e.conditionSite with
  | none => simp [hsite] at h
  | some site =>
    simp only [hsite] at h
    obtain ⟨name, hname, h⟩ := bind_eq_ok.1 h
    obtain ⟨wanted, hwanted, rfl⟩ := return_eq_ok.1 h
    exact ⟨site, rfl, Record.need_eq_ok.1 hname, Record.need_eq_ok.1 hwanted, rfl⟩

theorem valueNames_eq {site : Site} {declared : Value}
    (h : ((s.attributeAt site).need "type" >>= (s.need ·)) = .ok declared) :
    s.valueNames site = declared.values >>= (·.mapM (·.need "name")) := by
  obtain ⟨type, htype, hdeclared⟩ := bind_eq_ok.1 h
  simp [Schema.valueNames, htype, hdeclared]

/-- Whether a discriminator `c`, a value `a` and a value `v` are such that an attribute which depends on
`c` asks for `a` while `c` can have the value `v`. -/
def Asks (s : Schema) (e : Entry) (t : Value × Value × Value) : Prop :=
  Offers s e t.1 t.2.2 ∧ (s.attributeAt e.site).get? "condition_value" = some t.2.1

section
variable (heqs : equalities s entries = .ok eqs) {named : List (List (Entry × Value))}
  (hnamed : eqs.mapM enumerated = .ok named) {triples : List (Value × Value × Value)}
  (htriples : named.flatten.mapM (asked s) = .ok triples)
include heqs hnamed htriples

theorem asks_of_mem {t : Value × Value × Value} (ht : t ∈ triples) :
    ∃ e ∈ entries, isCompared s e = true ∧ Asks s e t := by
  obtain ⟨q, hq, hasked⟩ := mem_of_mapM htriples ht
  obtain ⟨values, hvalues, hqv⟩ := List.mem_flatten.1 hq
  obtain ⟨p, hp, henumerated⟩ := mem_of_mapM hnamed hvalues
  obtain ⟨e, he, rfl, site, hsite, hdeclared⟩ := exists_of_forall₂ (equalities_eq_ok heqs).flip hp
  obtain ⟨names, hnames, rfl⟩ := enumerated_eq_ok henumerated
  obtain ⟨v, hv, rfl⟩ := List.mem_map.1 hqv
  obtain ⟨site', hsite', hname, hwanted, rfl⟩ := asked_eq_ok hasked
  obtain rfl : site = site' := Option.some.inj (hsite.symm.trans hsite')
  obtain ⟨hmem, hcompared⟩ := List.mem_filter.1 he
  have hvalues : s.valueNames site = .ok names := (valueNames_eq hdeclared).trans hnames
  exact ⟨p.1, hmem, hcompared, ⟨site, names, hsite, hname, hvalues, hv⟩, hwanted⟩

theorem exists_mem_of_offers {e : Entry} (he : e ∈ entries) (hcompared : isCompared s e = true)
    {c v : Value} (h : Offers s e c v) : ∃ a, (c, a, v) ∈ triples ∧ Asks s e (c, a, v) := by
  obtain ⟨site, names, hsite, hname, hvalues, hv⟩ := id h
  obtain ⟨p, hp, rfl, site', hsite', hdeclared⟩ :=
    exists_of_forall₂ (equalities_eq_ok heqs) (List.mem_filter.2 ⟨he, hcompared⟩)
  obtain rfl : site = site' := Option.some.inj (hsite.symm.trans hsite')
  obtain ⟨values, hmem, henumerated⟩ := exists_of_mapM hnamed hp
  obtain ⟨names', hnames', rfl⟩ := enumerated_eq_ok henumerated
  obtain rfl : names = names' :=
    Except.ok.inj (hvalues.symm.trans ((valueNames_eq hdeclared).trans hnames'))
  have hflat : (p.1, v) ∈ named.flatten := List.mem_flatten.2 ⟨_, hmem, List.mem_map_of_mem hv⟩
  obtain ⟨⟨c', a, v'⟩, ht, hasked⟩ := exists_of_mapM htriples hflat
  obtain ⟨site', hsite', hname', hwanted, rfl⟩ := asked_eq_ok hasked
  obtain rfl : site = site' := Option.some.inj (hsite.symm.trans hsite')
  obtain rfl : c = c' := Option.some.inj (hname.symm.trans hname')
  exact ⟨a, ht, h, hwanted⟩

end

/-- The choice of a value, which is known if one of some attributes asks for it. -/
def choiceOf (triples : List (Value × Value × Value)) (t : Value × Value × Value) : Choice where
  discriminator := t.1
  value := t.2.2
  known := (triples.map (·.2.1)).contains t.2.2

theorem choice_eq_ok {t : Value × Value × Value} {wanted : List Value} {c : Choice}
    (h : (do
      let value ← t.2.2.asKey
      let discriminator ← t.1.asKey
      return { discriminator, value, known := wanted.contains value }) = (.ok c : Checked Choice)) :
    t.1.isKey = true ∧ t.2.2.isKey = true ∧ c = ⟨t.1, t.2.2, wanted.contains t.2.2⟩ := by
  obtain ⟨value, hvalue, h⟩ := bind_eq_ok.1 h
  obtain ⟨discriminator, hdiscriminator, rfl⟩ := return_eq_ok.1 h
  obtain ⟨hvkey, rfl⟩ := Value.asKey_eq_ok.1 hvalue
  obtain ⟨hdkey, rfl⟩ := Value.asKey_eq_ok.1 hdiscriminator
  exact ⟨hdkey, hvkey, rfl⟩

theorem choices_eq_ok (heqs : equalities s entries = .ok eqs) {cs : List Choice}
    (h : choices s eqs = .ok cs) :
    ∃ triples : List (Value × Value × Value),
      (∀ t ∈ triples, ∃ e ∈ entries, isCompared s e = true ∧ Asks s e t) ∧
      (∀ e ∈ entries, isCompared s e = true → ∀ c v, Offers s e c v →
        ∃ a, (c, a, v) ∈ triples ∧ Asks s e (c, a, v)) ∧
      (∀ t ∈ triples, t.1.isKey = true ∧ t.2.1.isKey = true ∧ t.2.2.isKey = true) ∧
      cs = (triples.map (choiceOf triples)).eraseDups.mergeSort Choice.before := by
  obtain ⟨named, hnamed, h⟩ := bind_eq_ok.1 h
  obtain ⟨triples, htriples, h⟩ := bind_eq_ok.1 h
  obtain ⟨wanted, hwanted, h⟩ := bind_eq_ok.1 h
  obtain ⟨all, hall, rfl⟩ := return_eq_ok.1 h
  obtain rfl : wanted = triples.map (·.2.1) :=
    Checked.eq_map_of_mapM hwanted fun t _ key hkey => (Value.asKey_eq_ok.1 hkey).2.symm
  refine ⟨triples, fun t ht => asks_of_mem heqs hnamed htriples ht,
    fun e he hcompared c v h => exists_mem_of_offers heqs hnamed htriples he hcompared h, ?_, ?_⟩
  · intro t ht
    obtain ⟨key, -, hkey⟩ := exists_of_mapM hwanted ht
    obtain ⟨c, -, hc⟩ := exists_of_mapM hall ht
    obtain ⟨hdkey, hvkey, -⟩ := choice_eq_ok hc
    exact ⟨hdkey, (Value.asKey_eq_ok.1 hkey).1, hvkey⟩
  · rw [Checked.eq_map_of_mapM hall fun t _ c hc => (choice_eq_ok hc).2.2]
    rfl

theorem Choice.beq_eq (a b : Choice) : (a == b) =
    (a.discriminator == b.discriminator && (a.value == b.value && a.known == b.known)) := rfl

section
variable {triples : List (Value × Value × Value)}
  (hkeys : ∀ t ∈ triples, t.1.isKey = true ∧ t.2.1.isKey = true ∧ t.2.2.isKey = true)
include hkeys

/-- A choice is known by its value alone. -/
theorem choiceOf_beq {t t' : Value × Value × Value} (ht : t ∈ triples) (ht' : t' ∈ triples) :
    (choiceOf triples t == choiceOf triples t') = (t.1 == t'.1 && t.2.2 == t'.2.2) := by
  have hknown : (t.2.2 == t'.2.2) = true →
      (choiceOf triples t).known = (choiceOf triples t').known := by
    intro hvalue
    have hform := (Value.beq_iff_keyForm (hkeys t ht).2.2 (hkeys t' ht').2.2).1 hvalue
    rw [Bool.eq_iff_iff]
    simp only [choiceOf, List.contains_eq_any_beq, List.any_map, List.any_eq_true, Function.comp]
    refine exists_congr fun u => and_congr_right fun hu => ?_
    rw [Value.beq_iff_keyForm (hkeys t ht).2.2 (hkeys u hu).2.1,
      Value.beq_iff_keyForm (hkeys t' ht').2.2 (hkeys u hu).2.1, hform]
  rw [Choice.beq_eq]
  change (t.1 == t'.1 && (t.2.2 == t'.2.2 && _)) = _
  cases hvalue : t.2.2 == t'.2.2 with
  | false => simp
  | true => simp [hknown hvalue]

end

/-- A parameter `e'` as a constructor takes it that gives the discriminator `c` the value `v`. -/
structure Chosen (s : Schema) (entries : List Entry) (c v : Value) (e e' : Entry) : Prop where
  named : c = .text e.name → e' = { e with conditionValue := v }
  apart : c ≠ .text e.name → (s.attributeAt e.site).is "condition" c = false → e' = e
  dependent : c ≠ .text e.name → (s.attributeAt e.site).is "condition" c = true →
    e' = { e with isProvided := e'.isProvided }
  /-- What a discriminator with values activates is taken under the value that it asks for. -/
  provided : c ≠ .text e.name → (s.attributeAt e.site).is "condition" c = true →
    isCompared s e = true → (∃ c' v', Offers s e c' v') →
    (e'.isProvided = true ↔ (s.attributeAt e.site).get? "condition_value" = some v)
  /-- A value counts only if some attribute asks for it whose discriminator has values. -/
  counted : c ≠ .text e.name → (s.attributeAt e.site).is "condition" c = true →
    (e'.isProvided = true ↔ (s.attributeAt e.site).get? "condition_value" = some v ∧
      ∃ e₁ ∈ entries, isCompared s e₁ = true ∧ (∃ c' v', Offers s e₁ c' v') ∧
        (s.attributeAt e₁.site).get? "condition_value" = some v)

/-- What a choice leaves of a parameter. -/
theorem choose_eq_ok {c : Choice} {e e' : Entry} (h : choose s c e = .ok e')
    (he : e.isProvided = true) :
    (c.discriminator = .text e.name ∧ e' = { e with conditionValue := c.value }) ∨
    (c.discriminator ≠ .text e.name ∧ (s.attributeAt e.site).is "condition" c.discriminator = false ∧
      e' = e) ∨
    (c.discriminator ≠ .text e.name ∧ (s.attributeAt e.site).is "condition" c.discriminator = true ∧
      ∃ asked, (s.attributeAt e.site).get? "condition_value" = some asked ∧
        e' = { e with isProvided := asked == if c.known then c.value else .null }) := by
  rw [choose] at h
  by_cases hname : (c.discriminator == .text e.name) = true
  · rw [if_pos hname] at h
    exact .inl ⟨Value.eq_text_of_beq hname, (Except.ok.inj h).symm⟩
  have hother : c.discriminator ≠ .text e.name := fun heq => hname (Value.beq_text_iff.2 heq)
  rw [if_neg hname] at h
  by_cases hcondition : (s.attributeAt e.site).is "condition" c.discriminator = true
  · simp only [hcondition, Bool.not_true, Bool.false_eq_true, if_false] at h
    obtain ⟨asked, hasked, h⟩ := bind_eq_ok.1 h
    refine .inr (.inr ⟨hother, hcondition, asked, Record.need_eq_ok.1 hasked, ?_⟩)
    generalize (if c.known then c.value else .null) = wanted at h ⊢
    cases hwanted : asked == wanted with
    | true =>
      simp only [hwanted, if_true] at h
      rw [← Except.ok.inj h, ← he]
    | false =>
      simp only [hwanted, Bool.false_eq_true, if_false] at h
      exact (Except.ok.inj h).symm
  · rw [Bool.not_eq_true] at hcondition
    simp only [hcondition, Bool.not_false, if_true] at h
    exact .inr (.inl ⟨hother, hcondition, (Except.ok.inj h).symm⟩)

theorem known_choiceOf {triples : List (Value × Value × Value)} {t : Value × Value × Value}
    {word : String} (h : t.2.2 = .text word) :
    (choiceOf triples t).known = true ↔ ∃ u ∈ triples, u.2.1 = .text word := by
  rw [choiceOf, h, List.contains_iff_exists_mem_beq]
  simp only [List.mem_map, Value.text_beq_iff]
  constructor
  · rintro ⟨_, ⟨u, hu, rfl⟩, hasked⟩
    exact ⟨u, hu, hasked.symm⟩
  · rintro ⟨u, hu, hasked⟩
    exact ⟨u.2.1, ⟨u, hu, rfl⟩, hasked.symm⟩

section
variable {triples : List (Value × Value × Value)}
  (hasks : ∀ t ∈ triples, ∃ e ∈ entries, isCompared s e = true ∧ Asks s e t)
  (hoffers : ∀ e ∈ entries, isCompared s e = true → ∀ c v, Offers s e c v →
    ∃ a, (c, a, v) ∈ triples ∧ Asks s e (c, a, v)) {t : Value × Value × Value}
include hasks hoffers

/-- What an attribute asks for is what a choice gives if it is the value of the choice and some attribute
whose discriminator has values asks for it. -/
theorem beq_known_iff {e : Entry} {word : String}
    (h : (s.attributeAt e.site).get? "condition_value" = some (.text word)) :
    (.text word == if (choiceOf triples t).known then t.2.2 else .null) = true ↔
      (s.attributeAt e.site).get? "condition_value" = some t.2.2 ∧
      ∃ e₁ ∈ entries, isCompared s e₁ = true ∧ (∃ c' v', Offers s e₁ c' v') ∧
        (s.attributeAt e₁.site).get? "condition_value" = some t.2.2 := by
  rw [h, Option.some.injEq]
  constructor
  · intro hprovided
    cases hknown : (choiceOf triples t).known with
    | true =>
      simp only [hknown, if_true] at hprovided
      have hvalue := Value.text_beq_iff.1 hprovided
      obtain ⟨u, hu, hword⟩ := (known_choiceOf hvalue.symm).1 hknown
      obtain ⟨e₁, he₁, hcompared, hoffered, hvalue₁⟩ := hasks u hu
      exact ⟨hvalue, e₁, he₁, hcompared, ⟨_, _, hoffered⟩, by rw [hvalue₁, hword, hvalue]⟩
    | false =>
      simp only [hknown, Bool.false_eq_true, if_false] at hprovided
      exact absurd (Value.text_beq_iff.1 hprovided) (by simp)
  · rintro ⟨hvalue, e₁, he₁, hcompared, ⟨c, v, hoffered⟩, hvalue₁⟩
    obtain ⟨a, ht, -, ha⟩ := hoffers e₁ he₁ hcompared c v hoffered
    have hword : a = .text word := (Option.some.inj (ha.symm.trans hvalue₁)).trans hvalue.symm
    simp only [(known_choiceOf hvalue.symm).2 ⟨_, ht, hword⟩, if_true]
    exact Value.text_beq_iff.2 hvalue

theorem chosen_of_choose {e e' : Entry} (hmem : e ∈ entries)
    (htext : ∀ v, (s.attributeAt e.site).get? "condition_value" = some v → ∃ word, v = .text word)
    (he : e.isProvided = true) (h : choose s (choiceOf triples t) e = .ok e') :
    Chosen s entries t.1 t.2.2 e e' := by
  rcases choose_eq_ok h he with ⟨hname, rfl⟩ | ⟨hother, hcondition, rfl⟩ |
    ⟨hother, hcondition, asked, hasked, rfl⟩
  · exact ⟨fun _ => rfl, fun hother => absurd hname hother, fun hother => absurd hname hother,
      fun hother => absurd hname hother, fun hother => absurd hname hother⟩
  · have hnever : ∀ {p : Prop}, (s.attributeAt e'.site).is "condition" t.1 = true → p :=
      fun hdepends => absurd (hcondition.symm.trans hdepends) (by simp)
    exact ⟨fun hname => absurd hname hother, fun _ _ => rfl, fun _ => hnever, fun _ => hnever,
      fun _ => hnever⟩
  · obtain ⟨word, rfl⟩ := htext asked hasked
    have hcounted := beq_known_iff hasks hoffers (t := t) hasked
    refine ⟨fun hname => absurd hname hother,
      fun _ hapart => absurd (hcondition.symm.trans hapart) (by simp), fun _ _ => rfl, ?_,
      fun _ _ => hcounted⟩
    intro _ _ hcompared hoffered
    refine hcounted.trans ⟨fun hboth => hboth.1, fun hvalue => ?_⟩
    exact ⟨hvalue, e, hmem, hcompared, hoffered, hvalue⟩

end

/-- Pairs of a discriminator and a value that are compared among some entries, each pair once. -/
structure Enumerates (s : Schema) (entries : List Entry) (options : List (Value × Value)) : Prop where
  distinct : options.Pairwise fun p q => (p == q) = false
  occurs : ∀ p ∈ options, ∃ e ∈ entries, isCompared s e = true ∧ Offers s e p.1 p.2
  covers : ∀ e ∈ entries, isCompared s e = true → ∀ c v, Offers s e c v →
    ∃ p ∈ options, ((c, v) == p) = true

def Choice.option (c : Choice) : Value × Value := (c.discriminator, c.value)

theorem enumerates_of_choices (heqs : equalities s entries = .ok eqs) {cs : List Choice}
    (h : choices s eqs = .ok cs) : Enumerates s entries (cs.map Choice.option) := by
  obtain ⟨triples, hasks, hoffers, hkeys, rfl⟩ := choices_eq_ok heqs h
  obtain ⟨hdistinct, hoccurs, hcovers⟩ := mergeSort_eraseDups (l := triples.map (choiceOf triples))
    (by
      simp only [List.forall_mem_map]
      intro t ht
      rw [choiceOf_beq hkeys ht ht, Value.beq_self_of_isKey (hkeys t ht).1,
        Value.beq_self_of_isKey (hkeys t ht).2.2, Bool.and_self])
    (by
      simp only [List.forall_mem_map]
      intro t ht t' ht'
      rw [choiceOf_beq hkeys ht ht', choiceOf_beq hkeys ht' ht,
        Value.beq_comm_of_isKey (hkeys t ht).1 (hkeys t' ht').1,
        Value.beq_comm_of_isKey (hkeys t ht).2.2 (hkeys t' ht').2.2])
    Choice.before
  refine ⟨?_, ?_, ?_⟩
  · rw [List.pairwise_map]
    refine hdistinct.imp_of_mem fun ha hb hne => ?_
    obtain ⟨t, ht, rfl⟩ := List.mem_map.1 (hoccurs _ ha)
    obtain ⟨t', ht', rfl⟩ := List.mem_map.1 (hoccurs _ hb)
    exact (choiceOf_beq hkeys ht ht').symm.trans hne
  · intro p hp
    obtain ⟨c, hc, rfl⟩ := List.mem_map.1 hp
    obtain ⟨t, ht, rfl⟩ := List.mem_map.1 (hoccurs _ hc)
    obtain ⟨e, he, hcompared, hoffered, -⟩ := hasks t ht
    exact ⟨e, he, hcompared, hoffered⟩
  · intro e he hcompared c v hoffered
    obtain ⟨a, ht, -⟩ := hoffers e he hcompared c v hoffered
    obtain ⟨choice, hchoice, hsame⟩ := hcovers _ (List.mem_map_of_mem ht)
    obtain ⟨t, ht', rfl⟩ := List.mem_map.1 (hoccurs _ hchoice)
    exact ⟨_, List.mem_map_of_mem hchoice, (choiceOf_beq hkeys ht ht').symm.trans hsame⟩

end

section
variable {t : Target} {name : String} {s₀ : Schema} {d : Draft} {m : ClassModel}

theorem isProvided_of_model (hm : modelOf t s₀ name = .ok m) :
    ∀ e ∈ m.entries, e.isProvided = true := by
  obtain ⟨f, -, -, -, hdrawn, -, -⟩ := drawn_of_model hm
  refine forall_of_drawn (fun s' before site aggregate e _ he => ?_) hdrawn
  obtain ⟨member, -, he⟩ := bind_eq_ok.1 he
  obtain ⟨r, -, he⟩ := bind_eq_ok.1 he
  obtain ⟨conditionSite, -, he⟩ := bind_eq_ok.1 he
  obtain ⟨parent, -, rfl⟩ := return_eq_ok.1 he
  rfl

theorem constructors_of_build (h : runOn (build t name) { schema := s₀ } = (.ok m, d))
    (hsome : ∃ e ∈ m.entries, isCompared d.schema e = true)
    (htext : ∀ e ∈ m.entries, ∀ v, (d.schema.attributeAt e.site).get? "condition_value" = some v →
      ∃ word, v = .text word) :
    ∃ options, Enumerates d.schema m.entries options ∧
      List.Forall₂ (fun p choice => List.Forall₂ (Chosen d.schema m.entries p.1 p.2) m.parameters choice)
        options m.constructors := by
  have hprovided := isProvided_of_model (congrArg Prod.fst h)
  obtain ⟨className, f, comments, -, -, -, hfinish⟩ := build_eq_ok h
  obtain ⟨constructors, hconstructors, rfl⟩ := return_eq_ok.1 hfinish
  obtain ⟨eqs, heqs, hconstructors⟩ := bind_eq_ok.1 hconstructors
  obtain ⟨cs, hcs, hconstructors⟩ := bind_eq_ok.1 hconstructors
  have hne : eqs.isEmpty = false := by
    obtain ⟨e, he, hcompared⟩ := hsome
    obtain ⟨p, hp, -⟩ := exists_of_forall₂ (equalities_eq_ok heqs) (List.mem_filter.2 ⟨he, hcompared⟩)
    exact List.isEmpty_eq_false_iff.2 (List.ne_nil_of_mem hp)
  simp only [hne, Bool.false_eq_true, if_false] at hconstructors
  refine ⟨cs.map Choice.option, enumerates_of_choices heqs hcs, ?_⟩
  obtain ⟨triples, hasks, hoffers, -, rfl⟩ := choices_eq_ok heqs hcs
  rw [List.forall₂_map_left_iff]
  have hchoices : ∀ c ∈ (triples.map (choiceOf triples)).eraseDups.mergeSort Choice.before,
      ∃ t, c = choiceOf triples t := by
    intro c hc
    obtain ⟨t, -, rfl⟩ := List.mem_map.1 (mem_of_mem_eraseDups (List.mem_mergeSort.1 hc))
    exact ⟨t, rfl⟩
  refine ((List.forall₂_and_left _ _).2 ⟨hchoices, Checked.forall₂_of_mapM hconstructors⟩).imp ?_
  rintro _ choice ⟨⟨t, rfl⟩, hchoice⟩
  have hparams : ∀ e ∈ d.entries.filter (isParameter f.target), e ∈ d.entries :=
    fun e he => (List.mem_filter.1 he).1
  refine ((List.forall₂_and_left _ _).2 ⟨hparams, Checked.forall₂_of_mapM hchoice⟩).imp ?_
  rintro e e' ⟨he, hchosen⟩
  exact chosen_of_choose hasks hoffers he (htext e he) (hprovided e he) hchosen

end

section
variable {s : Schema} {entries : List Entry} {c v : Value}

theorem Chosen.toMember {e e' : Entry} (h : Chosen s entries c v e e') : e'.toMember = e.toMember := by
  by_cases hname : c = .text e.name
  · rw [h.named hname]
  · cases hcondition : (s.attributeAt e.site).is "condition" c with
    | true => rw [h.dependent hname hcondition]
    | false => rw [h.apart hname hcondition]

/-- Only what depends on the discriminator can be left out. -/
theorem Chosen.condition {e e' : Entry} (h : Chosen s entries c v e e') (he : e.isProvided = true)
    (he' : e'.isProvided = false) : (s.attributeAt e.site).is "condition" c = true := by
  by_cases hname : c = .text e.name
  · simp [h.named hname, he] at he'
  · cases hcondition : (s.attributeAt e.site).is "condition" c with
    | true => rfl
    | false => simp [h.apart hname hcondition, he] at he'

/-- What a factory that gives `c` the value `v` hands on for a parameter of the constructor: the name of
the parameter, which it takes or declares itself, or nothing if the parameter depends on another value. -/
def Passes (f : BraceTarget) (s : Schema) (entries : List Entry) (c v : Value) (choice : List Entry)
    (e : Entry) (argument : String) : Prop :=
  ∃ e' ∈ choice, Chosen s entries c v e e' ∧
    (argument = e.name ∧ (e.name ∈ (factoryParams choice).map (·.name) ∨
      e.name ∈ (fixedEntries choice).map (·.name)) ∨
    argument = f.absent ∧ (s.attributeAt e.site).is "condition" c = true ∧ e'.isProvided = false)

theorem passes_of_chosen (f : BraceTarget) {m : ClassModel} {choice : List Entry}
    (h : List.Forall₂ (Chosen s entries c v) m.parameters choice)
    (hfixed : ∀ e ∈ m.parameters, isFixed e = false) (hprovided : ∀ e ∈ m.parameters, e.isProvided = true) :
    List.Forall₂ (Passes f s entries c v choice) m.constructorParams (factoryArguments f.absent choice) := by
  have hparams : m.constructorParams = m.parameters.filter isArgument :=
    List.filter_congr fun e he => by simp [hfixed e he]
  have hargument : ∀ {e e' : Entry}, Chosen s entries c v e e' → isArgument e' = isArgument e := by
    intro e e' hchosen
    simp [isArgument, hchosen.toMember]
  have hplain := (List.forall₂_and_left _ _).2 ⟨fun e he => And.intro (hfixed e he) (hprovided e he), h⟩
  have hkept := List.rel_filter (p := isArgument) (q := isArgument)
    (fun e e' hee => Bool.eq_iff_iff.1 (hargument hee.2).symm) hplain
  have hall := ((List.forall₂_and_left _ _).2 ⟨fun e' he' => List.mem_filter.1 he', hkept.flip⟩).flip
  rw [hparams, factoryArguments, List.forall₂_map_right_iff]
  refine hall.imp ?_
  rintro e e' ⟨⟨hmem, harg⟩, ⟨-, hprovided⟩, hchosen⟩
  have hname : e'.name = e.name := congrArg Member.name hchosen.toMember
  refine ⟨e', hmem, hchosen, ?_⟩
  cases hfixed' : isFixed e' with
  | true =>
    refine .inl ⟨by simp [hname], .inr ?_⟩
    exact List.mem_map.2 ⟨e', List.mem_filter.2 ⟨hmem, hfixed'⟩, hname⟩
  | false =>
    cases hprovided' : e'.isProvided with
    | true =>
      have htaken : e' ∈ factoryParams choice :=
        List.mem_filter.2 ⟨hmem, by simp_all [isArgument]⟩
      exact .inl ⟨by simp [hname], .inl (List.mem_map.2 ⟨e', htaken, hname⟩)⟩
    | false => exact .inr ⟨by simp, hchosen.condition hprovided hprovided', rfl⟩

variable {t : Target} {name : String} {s₀ : Schema} {d : Draft} {m : ClassModel}

/-- A class whose attributes depend on discriminators by equality has one factory for each value that
one of the discriminators can have, and what a factory hands on to the constructor is in its scope. -/
theorem factories_cover_choices (h : runOn (build t name) { schema := s₀ } = (.ok m, d))
    (hsome : ∃ e ∈ m.entries, isCompared d.schema e = true)
    (htext : ∀ e ∈ m.entries, ∀ v, (d.schema.attributeAt e.site).get? "condition_value" = some v →
      ∃ word, v = .text word) :
    ∃ options, Enumerates d.schema m.entries options ∧
      List.Forall₂ (fun p choice => List.Forall₂ (Chosen d.schema m.entries p.1 p.2) m.parameters choice ∧
          ∀ (f : BraceTarget) s lines, f.factory s m choice = .ok lines →
            ∃ arguments, f.Creates m choice arguments lines ∧
              List.Forall₂ (Passes f d.schema m.entries p.1 p.2 choice) m.constructorParams arguments)
        options m.constructors ∧
      ∀ (f : BraceTarget) s code, f.source s m = .ok code → ∃ factories lines,
        m.constructors.mapM (f.factory s m) = .ok factories ∧ code = text lines ∧
          (factories.flatMap fun g => "    " :: indent g) <:+: lines := by
  have hm : modelOf t s₀ name = .ok m := congrArg Prod.fst h
  obtain ⟨-, -, -, -, -, -, hparameters⟩ := drawn_of_model hm
  have hmem : ∀ e ∈ m.parameters, e ∈ m.entries := by
    intro e he
    rw [hparameters] at he
    exact (List.mem_filter.1 he).1
  obtain ⟨options, henumerates, hconstructors⟩ := constructors_of_build h hsome htext
  refine ⟨options, henumerates, hconstructors.imp ?_, ?_⟩
  · intro p choice hchosen
    refine ⟨hchosen, fun f s lines hlines => ?_⟩
    refine ⟨_, BraceTarget.creates_of_factory hlines, passes_of_chosen f hchosen ?_ ?_⟩
    · exact fun e he => not_isFixed_of_model hm e (hmem e he)
    · exact fun e he => isProvided_of_model hm e (hmem e he)
  · intro f s code hcode
    obtain ⟨factories, getters, lines, hfactories, -, hlines, before, after, rfl, -⟩ :=
      BraceTarget.methods_of_source hcode
    exact ⟨factories, _, hfactories, hlines, before, after, rfl⟩

end

/-- The steps of a model up to the point at which all attributes of the class are known. -/
def gather (t : Target) (name : String) : Drafting (Frame × String) := do
  let className ← classNameOf (← Drafting.schema) name
  Drafting.writeFact name "name" (Text.lowerFirst name)
  let s ← Drafting.schema
  let (f, comments) ← frameOf t name className s
  walk f s.depthLimit name none 0
  return (f, comments)

theorem build_eq_gather (t : Target) (name : String) :
    build t name = (gather t name >>= fun p => do finish p.1 p.2 (← get)) := by
  simp [build, gather]

/-- Whether every condition in a draft asks for a text, and choices can be made. -/
def isReady (d : Draft) : Bool :=
  (equalities d.schema d.entries >>= choices d.schema).toOption.isSome && d.entries.all fun e =>
    !(d.schema.attributeAt e.site).has "condition" && !(d.schema.attributeAt e.site).has "condition_value" ||
      ((d.schema.attributeAt e.site).get? "condition_value").any Value.isText

/-- The order in which the choices stand does not matter for whether a model can be made. -/
theorem exists_build {t : Target} {name : String} {s₀ : Schema} {p : Frame × String} {d : Draft}
    (hgather : runOn (gather t name) { schema := s₀ } = (.ok p, d)) (hready : isReady d = true) :
    ∃ m, runOn (build t name) { schema := s₀ } = (.ok m, d) ∧ m.entries = d.entries ∧
      ∀ e ∈ m.entries, ∀ v, (d.schema.attributeAt e.site).get? "condition_value" = some v →
        ∃ word, v = .text word := by
  rw [isReady, Bool.and_eq_true, List.all_eq_true] at hready
  obtain ⟨hchoices, hasked⟩ := hready
  obtain ⟨cs, hcs⟩ := exists_ok hchoices
  obtain ⟨eqs, heqs, hcs⟩ := bind_eq_ok.1 hcs
  have hchoose : ∀ c, ∀ e ∈ d.entries, Checked.Succeeds (choose d.schema c e) := by
    intro c e he
    simp only [choose, Record.need, Checked.succeeds_ite, Checked.succeeds_bind, Checked.succeeds_require,
      pure_eq_ok, Checked.succeeds_ok, implies_true, true_and, and_true]
    intro _ hdepends
    have hvalue := hasked e he
    cases hcondition : (d.schema.attributeAt e.site).get? "condition" with
    | none => simp [Record.is, hcondition] at hdepends
    | some _ =>
      cases hfound : (d.schema.attributeAt e.site).get? "condition_value" with
      | none => simp [Record.has, hcondition, hfound] at hvalue
      | some _ => rfl
  have hconstructors : Checked.Succeeds
      (constructorsOf d.schema d.entries (d.entries.filter (isParameter p.1.target))) := by
    simp only [constructorsOf, heqs, hcs, ok_bind]
    split
    · exact Checked.succeeds_ok _
    · simp only [Checked.succeeds_mapM]
      exact fun c _ e he => hchoose c e (List.mem_filter.1 he).1
  obtain ⟨constructors, hconstructors⟩ := hconstructors
  obtain ⟨m, hfinish⟩ : ∃ m, finish p.1 p.2 d = .ok m := by simp [finish, hconstructors]
  have hentries : m.entries = d.entries := (finish_eq_ok hfinish).2.2.1
  refine ⟨m, ?_, hentries, fun e he v hv => ?_⟩
  · simp only [build_eq_gather, runOn_bind, hgather, runOn_get, runOn_lift, hfinish]
  · have hvalue := hasked e (hentries ▸ he)
    cases v with
    | text word => exact ⟨word, rfl⟩
    | _ => simp [Record.has, hv, Value.isText, Value.text?] at hvalue

def renewalSchema : Schema := ⟨[
  ("Amount", .table [("type", "byte"), ("size", .int 8)]),
  ("Stage", .table [("type", "enum"), ("size", .int 1), ("values", .list [
    .table [("name", "root"), ("value", .int 0)], .table [("name", "child"), ("value", .int 1)],
    .table [("name", "orphan"), ("value", .int 2)]])]),
  ("Lease", .table [("type", "struct"), ("layout", .list [
    .table [("name", "duration"), ("type", "Amount"), ("condition", "stage"),
      ("condition_operation", "equals"), ("condition_value", "root")],
    .table [("name", "origin"), ("type", "Amount"), ("condition", "stage"),
      ("condition_operation", "equals"), ("condition_value", "child")],
    .table [("name", "stage"), ("type", "Stage")]])]),
  ("Renewal", .table [("type", "struct"), ("layout", .list [
    .table [("disposition", "inline"), ("type", "Lease")],
    .table [("name", "phase"), ("type", "Stage")],
    .table [("name", "fee"), ("type", "Amount"), ("condition", "phase"),
      ("condition_operation", "equals"), ("condition_value", "root")]])])]⟩

/-- The three values of each of two discriminators, one of them inherited. -/
theorem factories_cover_choices_renewal : ∃ m d,
    runOn (build .typescript "Renewal") { schema := renewalSchema } = (.ok m, d) ∧
    (m.entries.filter (isCompared d.schema)).map (·.name) = ["duration", "origin", "fee"] ∧
    ∃ options, Enumerates d.schema m.entries options ∧
      List.Forall₂ (fun p choice => List.Forall₂ (Chosen d.schema m.entries p.1 p.2) m.parameters choice ∧
          ∀ (f : BraceTarget) s lines, f.factory s m choice = .ok lines →
            ∃ arguments, f.Creates m choice arguments lines ∧
              List.Forall₂ (Passes f d.schema m.entries p.1 p.2 choice) m.constructorParams arguments)
        options m.constructors ∧
      ∀ (f : BraceTarget) s code, f.source s m = .ok code → ∃ factories lines,
        m.constructors.mapM (f.factory s m) = .ok factories ∧ code = text lines ∧
          (factories.flatMap fun g => "    " :: indent g) <:+: lines := by
  let made := runOn (gather .typescript "Renewal") { schema := renewalSchema }
  have hmade : runOn (gather .typescript "Renewal") { schema := renewalSchema } = made := rfl
  obtain ⟨hdone, hready, hcompared⟩ : made.1.toOption.isSome = true ∧ isReady made.2 = true ∧
      (made.2.entries.filter (isCompared made.2.schema)).map (·.name) =
        ["duration", "origin", "fee"] := by decide +kernel
  obtain ⟨p, hp⟩ := Checked.exists_ok hdone
  clear_value made
  obtain ⟨result, d⟩ := made
  obtain rfl : result = .ok p := hp
  obtain ⟨m, hm, hentries, htext⟩ := exists_build hmade hready
  rw [← hentries] at hcompared
  refine ⟨m, d, hm, hcompared, factories_cover_choices hm ?_ htext⟩
  obtain ⟨e, he, -⟩ := List.mem_map.1 (hcompared ▸ List.mem_cons_self)
  exact ⟨e, List.mem_filter.1 he⟩

/-- A lease whose mode stands beside an inlined structure with the same name, which lists no values. -/
def strayLeaseSchema : Schema := ⟨[
  ("Amount", .table [("type", "byte"), ("size", .int 8), ("signedness", "unsigned"),
    ("comments", "amount")]),
  ("LeaseMode", .table [("type", "enum"), ("size", .int 1), ("signedness", "unsigned"),
    ("comments", "mode"), ("values", .list [
      .table [("name", "root"), ("value", .int 0), ("comments", "root")],
      .table [("name", "child"), ("value", .int 1), ("comments", "child")]])]),
  ("Mode", .table [("type", "struct"), ("comments", ""), ("values", .list []), ("layout", .list [
    .table [("name", "version"), ("type", "byte"), ("size", .int 1), ("signedness", "unsigned"),
      ("comments", "version")]])]),
  ("Lease", .table [("type", "struct"), ("comments", "lease"), ("layout", .list [
    .table [("name", "duration"), ("type", "Amount"), ("condition", "mode"),
      ("condition_operation", "equals"), ("condition_value", "root"), ("comments", "duration")],
    .table [("type", "Mode"), ("disposition", "inline"), ("comments", "")],
    .table [("name", "origin"), ("type", "Amount"), ("condition", "mode"),
      ("condition_operation", "equals"), ("condition_value", "child"), ("comments", "origin")],
    .table [("name", "mode"), ("type", "LeaseMode"), ("comments", "mode")]])])]⟩

/-- An attribute is left out under the very value that it asks for, if its own discriminator lists no
values and no other attribute asks for the value. -/
theorem factory_leaves_out_origin : ∃ m d,
    runOn (build .java "Lease") { schema := strayLeaseSchema } = (.ok m, d) ∧
    (∀ e ∈ m.entries, ∀ v, (d.schema.attributeAt e.site).get? "condition_value" = some v →
      ∃ word, v = .text word) ∧
    (∃ e ∈ m.entries, isCompared d.schema e = true ∧ Offers d.schema e (.text "mode") (.text "child")) ∧
    ∃ choice ∈ m.constructors, (∀ x ∈ choice, x.name = "mode" → x.conditionValue = .text "child") ∧
      ∃ e ∈ m.parameters, ∃ e' ∈ choice, e'.site = e.site ∧ e.name = "origin" ∧
        isCompared d.schema e = true ∧
        (d.schema.attributeAt e.site).get? "condition" = some (.text "mode") ∧
        (d.schema.attributeAt e.site).get? "condition_value" = some (.text "child") ∧
        e'.isProvided = false := by
  let made := runOn (gather .java "Lease") { schema := strayLeaseSchema }
  have hmade : runOn (gather .java "Lease") { schema := strayLeaseSchema } = made := rfl
  obtain ⟨hdone, hready, hduration, horigin⟩ : made.1.toOption.isSome = true ∧ isReady made.2 = true ∧
      (made.2.entries.filter (isCompared made.2.schema)).map (fun e => (e.site, e.conditionSite)) =
        [(⟨"Lease", 0⟩, some ⟨"Lease", 3⟩), (⟨"Lease", 2⟩, some ⟨"Lease", 1⟩)] ∧
      (made.2.entries.filter (isParameter .java)).any (fun e => e.name == "origin" &&
        e.site == ⟨"Lease", 2⟩ && isCompared made.2.schema e) = true := by decide +kernel
  obtain ⟨hname, hroot, hcondition, hvalue, hnames⟩ :
      (made.2.schema.attributeAt ⟨"Lease", 3⟩).is "name" "mode" = true ∧
      (made.2.schema.attributeAt ⟨"Lease", 0⟩).is "condition_value" "child" = false ∧
      (made.2.schema.attributeAt ⟨"Lease", 2⟩).is "condition" "mode" = true ∧
      (made.2.schema.attributeAt ⟨"Lease", 2⟩).is "condition_value" "child" = true ∧
      (made.2.schema.valueNames ⟨"Lease", 3⟩).toOption.any (·.any (· == .text "child")) = true ∧
      (made.2.schema.valueNames ⟨"Lease", 1⟩).toOption.any (·.isEmpty) = true := by decide +kernel
  obtain ⟨p, hp⟩ := Checked.exists_ok hdone
  clear_value made
  obtain ⟨result, d⟩ := made
  obtain rfl : result = .ok p := hp
  obtain ⟨m, hm, hentries, htext⟩ := exists_build hmade hready
  obtain ⟨-, -, -, -, -, -, hparameters⟩ := drawn_of_model (congrArg Prod.fst hm)
  rw [← hentries] at hduration horigin
  rw [← hparameters] at horigin
  have hoffered : ∃ e ∈ m.entries, isCompared d.schema e = true ∧
      Offers d.schema e (.text "mode") (.text "child") := by
    obtain ⟨e, he, hsites⟩ := List.mem_map.1 (hduration ▸ List.mem_cons_self)
    obtain ⟨hmem, hcompared⟩ := List.mem_filter.1 he
    refine ⟨e, hmem, hcompared, ⟨"Lease", 3⟩, ?_⟩
    cases hlisted : d.schema.valueNames ⟨"Lease", 3⟩ with
    | error fault => simp [hlisted, Except.toOption] at hnames
    | ok names =>
      simp only [hlisted, Checked.toOption_ok, Option.any_some, List.any_eq_true] at hnames
      obtain ⟨v, hv, hchild⟩ := hnames.1
      obtain rfl := Value.eq_text_of_beq hchild
      exact ⟨names, (Prod.mk.inj hsites).2, (Record.is_text_iff _).1 hname, rfl, hv⟩
  obtain ⟨e₀, he₀, hcompared₀, hoffers⟩ := id hoffered
  obtain ⟨e, he, hfacts⟩ := List.any_eq_true.1 horigin
  simp only [Bool.and_eq_true, beq_iff_eq] at hfacts
  obtain ⟨⟨hown, hsite⟩, hcompared⟩ := hfacts
  obtain ⟨options, henumerates, hconstructors⟩ := constructors_of_build hm ⟨e₀, he₀, hcompared₀⟩ htext
  obtain ⟨⟨c, v⟩, hoption, hsame⟩ := henumerates.covers e₀ he₀ hcompared₀ _ _ hoffers
  obtain ⟨rfl, rfl⟩ : .text "mode" = c ∧ .text "child" = v := by
    rw [← Value.text_beq_iff, ← Value.text_beq_iff, ← Bool.and_eq_true]
    exact hsame
  obtain ⟨choice, hchoice, hchosen⟩ := exists_of_forall₂ hconstructors hoption
  obtain ⟨e', he', hone⟩ := exists_of_forall₂ hchosen he
  refine ⟨m, d, hm, htext, hoffered, choice, hchoice, ?_, e, he, e', he',
    congrArg Member.site hone.toMember, hown, hcompared, hsite ▸ (Record.is_text_iff _).1 hcondition,
    hsite ▸ (Record.is_text_iff _).1 hvalue, ?_⟩
  · intro x' hx' hmode
    obtain ⟨x, -, hfixed⟩ := exists_of_forall₂ hchosen.flip hx'
    have hxname : x.name = "mode" := (congrArg Member.name hfixed.toMember).symm.trans hmode
    rw [hfixed.named (by rw [hxname])]
  · cases hprovided : e'.isProvided with
    | false => rfl
    | true =>
      obtain ⟨-, e₁, he₁, hcompared₁, ⟨_, _, site, names, hsite₁, -, hlisted, hv⟩, hvalue₁⟩ :=
        (hone.counted (by simp [hown]) (hsite ▸ hcondition)).1 hprovided
      have hsites := List.mem_map_of_mem (f := fun e : Entry => (e.site, e.conditionSite))
        (List.mem_filter.2 ⟨he₁, hcompared₁⟩)
      simp only [hduration, List.mem_cons, Prod.mk.injEq, List.not_mem_nil, or_false] at hsites
      rcases hsites with ⟨hduration₁, -⟩ | ⟨-, horigin₁⟩
      · rw [hduration₁] at hvalue₁
        exact absurd (hroot.symm.trans ((Record.is_text_iff _).2 hvalue₁)) (by simp)
      · obtain rfl := Option.some.inj (hsite₁.symm.trans horigin₁)
        simp only [hlisted, Checked.toOption_ok, Option.any_some, List.isEmpty_iff] at hnames
        simp [hnames.2] at hv

end ClassModel
end SchemaForge
