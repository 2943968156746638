import SchemaForge.Proofs.Methods
import SchemaForge.Proofs.Twins

/-! What a class reads before its attributes. An attribute that stands before the discriminator on which
it depends can only be read after it, so the class reads the discriminator first. -/
namespace SchemaForge
open Checked

section Repetitions
variable {α : Type} [BEq α]

/-- Induction along the removal of repetitions: behind an item stand those that differ from it. -/
theorem eraseDups_induction {motive : List α → Prop} (nil : motive [])
    (cons : ∀ a l, motive (l.filter fun b => !b == a) → motive (a :: l)) (l : List α) : motive l := by
  induction hn : l.length using Nat.strongRecOn generalizing l with
  | ind n ih =>
    cases l with
    | nil => exact nil
    | cons a l =>
      have hlength := List.length_filter_le (fun b => !b == a) l
      rw [List.length_cons] at hn
      exact cons a l (ih _ (by omega) _ rfl)

theorem mem_of_mem_eraseDups {l : List α} {a : α} (h : a ∈ l.eraseDups) : a ∈ l := by
  induction l using eraseDups_induction with
  | nil => simp at h
  | cons b l ih =>
    rw [List.eraseDups_cons] at h
    rcases List.mem_cons.1 h with rfl | h
    · exact List.mem_cons_self
    · exact List.mem_cons_of_mem _ (List.mem_filter.1 (ih h)).1

theorem exists_mem_eraseDups {l : List α} {a : α} (h : a ∈ l) :
    ∃ b ∈ l.eraseDups, a = b ∨ (a == b) = true := by
  induction l using eraseDups_induction with
  | nil => simp at h
  | cons b l ih =>
    rw [List.eraseDups_cons]
    by_cases hb : (a == b) = true
    · exact ⟨b, List.mem_cons_self, .inr hb⟩
    rcases List.mem_cons.1 h with rfl | h
    · exact ⟨a, List.mem_cons_self, .inl rfl⟩
    · have hkept : a ∈ l.filter fun c => !c == b := List.mem_filter.2 ⟨h, by simpa using hb⟩
      obtain ⟨c, hc, hac⟩ := ih hkept
      exact ⟨c, List.mem_cons_of_mem _ hc, hac⟩

theorem pairwise_eraseDups (l : List α) : l.eraseDups.Pairwise fun a b => (b == a) = false := by
  induction l using eraseDups_induction with
  | nil => simp
  | cons a l ih =>
    rw [List.eraseDups_cons, List.pairwise_cons]
    refine ⟨?_, ih⟩
    intro b hb
    simpa using (List.mem_filter.1 (mem_of_mem_eraseDups hb)).2

/-- Each item of a list once, in some order, if items count as the same both ways or not at all. -/
theorem mergeSort_eraseDups {l : List α} (hself : ∀ a ∈ l, (a == a) = true)
    (hcomm : ∀ a ∈ l, ∀ b ∈ l, (a == b) = (b == a)) (le : α → α → Bool) :
    ((l.eraseDups.mergeSort le).Pairwise fun a b => (a == b) = false) ∧
      (∀ a ∈ l.eraseDups.mergeSort le, a ∈ l) ∧
      ∀ a ∈ l, ∃ b ∈ l.eraseDups.mergeSort le, (a == b) = true := by
  have hperm := List.mergeSort_perm l.eraseDups le
  refine ⟨?_, fun a ha => mem_of_mem_eraseDups (hperm.mem_iff.1 ha), ?_⟩
  · -- The order does not matter for what differs both ways.
    have hboth : l.eraseDups.Pairwise fun a b => (a == b) = false ∧ (b == a) = false := by
      refine (pairwise_eraseDups l).imp_of_mem ?_
      intro a b ha hb hba
      exact ⟨(hcomm a (mem_of_mem_eraseDups ha) b (mem_of_mem_eraseDups hb)).trans hba, hba⟩
    have hsorted := (hperm.pairwise_iff (fun hab => ⟨hab.2, hab.1⟩)).2 hboth
    exact hsorted.imp fun hab => hab.1
  · intro a ha
    obtain ⟨b, hb, hab⟩ := exists_mem_eraseDups ha
    refine ⟨b, hperm.mem_iff.2 hb, ?_⟩
    rcases hab with rfl | hab
    · exact hself a ha
    · exact hab

end Repetitions

namespace Value
variable {a b : Value}

theorem beq_self_of_isKey (h : a.isKey = true) : (a == a) = true := by
  cases a <;> simp_all [isKey, BEq.beq, same, number?]

theorem beq_comm_of_isKey (ha : a.isKey = true) (hb : b.isKey = true) : (a == b) = (b == a) := by
  cases a <;> cases b <;> simp_all [isKey, BEq.beq, same, number?] <;> grind

theorem asKey_eq_ok {key : Value} : a.asKey = .ok key ↔ a.isKey = true ∧ a = key := by
  unfold asKey
  cases a.isKey <;> simp

end Value

theorem Checked.mapM_eq_of_forall₂ {α β γ : Type} {f : α → Checked γ} {g : β → Checked γ} {l : List α}
    {l' : List β} (h : List.Forall₂ (fun a b => g b = f a) l l') : l'.mapM g = l.mapM f := by
  induction h with
  | nil => rfl
  | cons hab _ ih => rw [List.mapM_cons, List.mapM_cons, hab, ih]

theorem Checked.exists_of_mapM {α β : Type} {f : α → Checked β} {l : List α} {bs : List β}
    (h : l.mapM f = .ok bs) {a : α} (ha : a ∈ l) : ∃ b ∈ bs, f a = .ok b := by
  have hall := Checked.forall₂_of_mapM h
  clear h
  induction hall with
  | nil => simp at ha
  | cons hab _ ih =>
    rcases List.mem_cons.1 ha with rfl | ha
    · exact ⟨_, List.mem_cons_self, hab⟩
    · obtain ⟨b, hb, hfb⟩ := ih ha
      exact ⟨b, List.mem_cons_of_mem _ hb, hfb⟩

namespace Entry

/-- Whether an attribute stands before the discriminator on which it depends. -/
def isEarly (e : Entry) : Bool := e.readBefore && e.isConditional

theorem Twin.isEarly {e e' : Entry} (h : Twin e e') : e'.isEarly = e.isEarly := by
  rw [Entry.isEarly, h.readBefore, h.isConditional, Entry.isEarly]

end Entry

namespace Source
variable {s : Schema} {entries : List Entry} {pairs : List (Value × Value)}

/-- Whether pairs of a condition and a size are those of the early attributes among some entries, each
pair once. -/
structure Collects (s : Schema) (entries : List Entry) (pairs : List (Value × Value)) : Prop where
  distinct : pairs.Pairwise fun p q => (p == q) = false
  occurs : ∀ p ∈ pairs, ∃ e ∈ entries, e.isEarly = true ∧
    (s.attributeAt e.site).get? "condition" = some p.1 ∧ e.size = p.2
  covers : ∀ e ∈ entries, e.isEarly = true → ∃ p ∈ pairs, ∃ c,
    (s.attributeAt e.site).get? "condition" = some c ∧ ((c, e.size) == p) = true

/-- The condition of an early attribute, with the size of the attribute. -/
def conditionPair (s : Schema) (e : Entry) : Checked (Value × Value) := do
  return (← (← (s.attributeAt e.site).need "condition").asKey, ← e.size.asKey)

def isKeyPair (p : Value × Value) : Bool := p.1.isKey && p.2.isKey

theorem conditionPair_eq_ok {e : Entry} {p : Value × Value} (h : conditionPair s e = .ok p) :
    (s.attributeAt e.site).get? "condition" = some p.1 ∧ e.size = p.2 ∧ isKeyPair p = true := by
  obtain ⟨c, hc, h⟩ := bind_eq_ok.1 h
  obtain ⟨key, hkey, h⟩ := bind_eq_ok.1 h
  obtain ⟨size, hsize, rfl⟩ := return_eq_ok.1 h
  obtain ⟨hck, rfl⟩ := Value.asKey_eq_ok.1 hkey
  obtain ⟨hsk, rfl⟩ := Value.asKey_eq_ok.1 hsize
  exact ⟨Record.need_eq_ok.1 hc, rfl, by simp [isKeyPair, hck, hsk]⟩

theorem beq_self_of_isKeyPair {p : Value × Value} (h : isKeyPair p = true) : (p == p) = true := by
  have hkeys : p.1.isKey = true ∧ p.2.isKey = true := by simpa [isKeyPair] using h
  change (p.1 == p.1 && p.2 == p.2) = true
  rw [Value.beq_self_of_isKey hkeys.1, Value.beq_self_of_isKey hkeys.2, Bool.and_self]

theorem beq_comm_of_isKeyPair {p q : Value × Value} (hp : isKeyPair p = true)
    (hq : isKeyPair q = true) : (p == q) = (q == p) := by
  have hpk : p.1.isKey = true ∧ p.2.isKey = true := by simpa [isKeyPair] using hp
  have hqk : q.1.isKey = true ∧ q.2.isKey = true := by simpa [isKeyPair] using hq
  change (p.1 == q.1 && p.2 == q.2) = (q.1 == p.1 && q.2 == p.2)
  rw [Value.beq_comm_of_isKey hpk.1 hqk.1, Value.beq_comm_of_isKey hpk.2 hqk.2]

theorem conditionReads_eq (s : Schema) (entries : List Entry) :
    conditionReads s entries = (do
      let reads ← (entries.filter Entry.isEarly).mapM (conditionPair s)
      return reads.eraseDups.mergeSort fun a b =>
        a.1.spell < b.1.spell || a.1.spell == b.1.spell && a.2.spell ≤ b.2.spell) := rfl

theorem collects_conditionReads (h : conditionReads s entries = .ok pairs) :
    Collects s entries pairs := by
  rw [conditionReads_eq] at h
  obtain ⟨reads, hreads, h⟩ := bind_eq_ok.1 h
  have hkeys : ∀ p ∈ reads, isKeyPair p = true := by
    intro p hp
    obtain ⟨e, -, he⟩ := mem_of_mapM hreads hp
    exact (conditionPair_eq_ok he).2.2
  obtain ⟨hdistinct, hoccurs, hcovers⟩ := mergeSort_eraseDups
    (fun p hp => beq_self_of_isKeyPair (hkeys p hp))
    (fun p hp q hq => beq_comm_of_isKeyPair (hkeys p hp) (hkeys q hq))
    fun a b => a.1.spell < b.1.spell || a.1.spell == b.1.spell && a.2.spell ≤ b.2.spell
  rw [Except.ok.inj h] at hdistinct hoccurs hcovers
  refine ⟨hdistinct, ?_, ?_⟩
  · intro p hp
    obtain ⟨e, he, hpair⟩ := mem_of_mapM hreads (hoccurs p hp)
    obtain ⟨hmem, hearly⟩ := List.mem_filter.1 he
    obtain ⟨hcondition, hsize, -⟩ := conditionPair_eq_ok hpair
    exact ⟨e, hmem, hearly, hcondition, hsize⟩
  · intro e he hearly
    have hmem : e ∈ entries.filter Entry.isEarly := List.mem_filter.2 ⟨he, hearly⟩
    obtain ⟨q, hq, hpair⟩ := exists_of_mapM hreads hmem
    obtain ⟨hcondition, hsize, -⟩ := conditionPair_eq_ok hpair
    obtain ⟨p, hp, hqp⟩ := hcovers q hq
    exact ⟨p, hp, q.1, hcondition, hsize ▸ hqp⟩

theorem conditionPair_congr {s' : Schema} (hs : s'.settled = s.settled) {e e' : Entry}
    (h : Entry.Twin e e') : conditionPair s' e' = conditionPair s e := by
  have hneed : ∀ s : Schema, (s.settled.attributeAt e.site).need "condition" =
      (s.attributeAt e.site).need "condition" := by
    intro s
    rw [Schema.attributeAt_settled, Record.need_settled _ (by decide) (by decide)]
  unfold conditionPair
  rw [h.site, h.size, ← hneed s', hs, hneed]

/-- What is read first does not depend on the target. -/
theorem conditionReads_congr {s' : Schema} (hs : s'.settled = s.settled) {entries' : List Entry}
    (h : List.Forall₂ Entry.Twin entries entries') :
    conditionReads s' entries' = conditionReads s entries := by
  have hearly : List.Forall₂ Entry.Twin (entries.filter Entry.isEarly)
      (entries'.filter Entry.isEarly) := by
    refine List.rel_filter ?_ h
    intro e e' hee
    simp [hee.isEarly]
  rw [conditionReads_eq, conditionReads_eq,
    Checked.mapM_eq_of_forall₂ (hearly.imp fun e e' hee => conditionPair_congr hs hee)]

end Source

theorem Target.sized_eq_ok {table : List (Int × String)} {size : Value} {written : String}
    (h : sized table size = .ok written) :
    ∃ n, size.number? = some n ∧ (n, written) ∈ table := by
  obtain ⟨key, hkey, h⟩ := bind_eq_ok.1 h
  obtain ⟨-, rfl⟩ := Value.asKey_eq_ok.1 hkey
  cases hn : size.number? with
  | none => simp [hn, Checked.require] at h
  | some n =>
    cases hl : table.lookup n with
    | none => simp [hn, hl, Checked.require] at h
    | some out =>
      obtain rfl : out = written := by simpa [hn, hl, Checked.require] using h
      obtain ⟨before, after, htable, -⟩ := List.lookup_eq_some_iff.1 hl
      exact ⟨n, rfl, by simp [htable]⟩

namespace ClassForm
open Source
variable {s : Schema} {m : ClassModel}

/-- The numbers that a Java class can read, by the bytes that they take from the stream. -/
def javaNumbers : List (Int × String × String) := [
  (1, "byte", "stream.readByte()"),
  (2, "short", "Short.reverseBytes(stream.readShort())"),
  (4, "int", "Integer.reverseBytes(stream.readInt())"),
  (8, "long", "Long.reverseBytes(stream.readLong())")]

/-- Whether lines read a condition and pass over as many bytes as its size says. -/
def ReadsCondition : ClassForm → Value × Value → List String → Prop
  | java, (name, size), lines => ∃ n type read, (n, type, read) ∈ javaNumbers ∧
      size.number? = some n ∧ lines = [s!"final {type} {name.spell}Condition = {read};"]
  | typescript, (name, size), lines => ∃ read, Width.scriptRead size "byteArray" = .ok read ∧
      lines = [s!"const {name.spell}Condition = {read};", s!"byteArray.splice(0,  {size.spell});"]
  | _, (name, size), lines => lines = [s!"{name.spell}Condition = bytes_[0:{size.spell}]",
      s!"bytes_ = bytes_[{size.spell}:]"]

/-- The entries whose conditions a class reads first. A TypeScript class counts those of its base class
among its own. -/
def readers (m : ClassModel) : ClassForm → List Entry
  | typescript => m.entries.filter (!·.isInline)
  | _ => m.own

theorem javaNumber_of_sized {size : Value} {type read : String}
    (ht : Target.numberType .java size = .ok type) (hr : Width.javaLoad size = .ok read) :
    ∃ n, (n, type, read) ∈ javaNumbers ∧ size.number? = some n := by
  obtain ⟨n, hn, htype⟩ := Target.sized_eq_ok ht
  refine ⟨n, ?_, hn⟩
  simp only [List.mem_cons, Prod.mk.injEq, List.not_mem_nil, or_false] at htype
  cases size with
  | int k =>
    obtain rfl : k = n := Option.some.inj hn
    rcases htype with ⟨rfl, rfl⟩ | ⟨rfl, rfl⟩ | ⟨rfl, rfl⟩ | ⟨rfl, rfl⟩
    all_goals
      rw [← Except.ok.inj hr]
      decide
  | bool b =>
    cases b with
    | false =>
      obtain rfl : 0 = n := Option.some.inj hn
      omega
    | true =>
      obtain rfl : 1 = n := Option.some.inj hn
      obtain rfl : type = "byte" := by simpa using htype
      rw [← Except.ok.inj hr]
      decide
  | _ => cases hn

theorem upFront_eq_ok {f : ClassForm} {reads : List String} (h : f.upFront s m = .ok reads) :
    ∃ pairs groups, conditionReads s (f.readers m) = .ok pairs ∧
      List.Forall₂ f.ReadsCondition pairs groups ∧ reads = groups.flatten := by
  cases f with
  | java =>
    obtain ⟨pairs, hpairs, h⟩ := bind_eq_ok.1 h
    refine ⟨pairs, reads.map fun line => [line], hpairs, ?_, by rw [← List.flatMap_def]; simp⟩
    rw [List.forall₂_map_right_iff]
    apply (Checked.forall₂_of_mapM h).imp
    rintro ⟨name, size⟩ line hline
    obtain ⟨type, htype, hline⟩ := bind_eq_ok.1 hline
    obtain ⟨read, hread, hline⟩ := bind_eq_ok.1 hline
    obtain ⟨n, hn, hsize⟩ := javaNumber_of_sized htype hread
    exact ⟨n, type, read, hn, hsize, by rw [← Except.ok.inj hline]⟩
  | typescript =>
    obtain ⟨pairs, hpairs, h⟩ := bind_eq_ok.1 h
    obtain ⟨groups, hgroups, h⟩ := bind_eq_ok.1 h
    refine ⟨pairs, groups, hpairs, ?_, (Except.ok.inj h).symm⟩
    apply (Checked.forall₂_of_mapM hgroups).imp
    rintro ⟨name, size⟩ lines hlines
    obtain ⟨read, hread, hlines⟩ := bind_eq_ok.1 hlines
    exact ⟨read, hread, (Except.ok.inj hlines).symm⟩
  | python | transaction =>
    obtain ⟨pairs, hpairs, h⟩ := bind_eq_ok.1 h
    refine ⟨pairs, pairs.map fun pair => [s!"{pair.1.spell}Condition = bytes_[0:{pair.2.spell}]",
      s!"bytes_ = bytes_[{pair.2.spell}:]"], hpairs, ?_, ?_⟩
    · rw [List.forall₂_map_right_iff]
      exact List.forall₂_same.2 fun pair _ => rfl
    · rw [← Except.ok.inj h, List.flatMap_def]
      rfl

/-- Whether the text of a class reads some conditions, and nothing else, before its attributes. -/
def ReadsFirst (f : ClassForm) (s : Schema) (m : ClassModel) (pairs : List (Value × Value))
    (code : String) : Prop :=
  ∃ ms groups, f.methods s m = .ok ms ∧ f.Shows m ms code ∧
    List.Forall₂ f.ReadsCondition pairs groups ∧ ms.reads = groups.flatten

end ClassForm

namespace ClassModel
open Source

/-- Whether an attribute of the base class stands before the discriminator on which it depends. -/
def hasEarlyBase (m : ClassModel) : Bool := m.entries.any fun e => e.isSuper && e.isEarly

theorem reads_first {t : Target} {s : Schema} {m : ClassModel} {code : String}
    (h : m.source t s = .ok code) :
    ∃ pairs, conditionReads s ((ClassForm.of t m).readers m) = .ok pairs ∧
      (ClassForm.of t m).ReadsFirst s m pairs code := by
  obtain ⟨ms, hms, hshows⟩ := shows_of_source h
  obtain ⟨pairs, groups, hpairs, hgroups, hreads⟩ :=
    ClassForm.upFront_eq_ok (ClassForm.methods_eq_ok.1 hms).1
  exact ⟨pairs, hpairs, ms, groups, hms, hshows, hgroups, hreads⟩

/-- Without early attributes in the base class, only own attributes count. -/
theorem conditionReads_readers {t : Target} {m : ClassModel}
    (h : t = .typescript → m.hasEarlyBase = false) (s : Schema) :
    conditionReads s ((ClassForm.of t m).readers m) = conditionReads s m.own := by
  cases t with
  | java => rfl
  | python =>
    unfold ClassForm.of
    by_cases ht : Target.isTransactional m.name = true <;> simp [ht, ClassForm.readers]
  | typescript =>
    have hearly : (m.entries.filter (!·.isInline)).filter Entry.isEarly =
        m.own.filter Entry.isEarly := by
      unfold own
      rw [List.filter_filter, List.filter_filter]
      apply List.filter_congr
      intro e he
      have hbase : (e.isSuper && e.isEarly) = false := by
        have hnone := h rfl
        simp only [hasEarlyBase, List.any_eq_false] at hnone
        simpa using hnone e he
      revert hbase
      cases e.isSuper <;> cases e.isEarly <;> simp
    simp only [conditionReads_eq, ClassForm.of, ClassForm.readers, hearly]

theorem own_twins {m m' : ClassModel} (h : List.Forall₂ Entry.Twin m.entries m'.entries) :
    List.Forall₂ Entry.Twin m.own m'.own := by
  refine List.rel_filter ?_ h
  intro e e' hee
  simp [hee.isSuper, hee.isInline]

theorem hasEarlyBase_twins {m m' : ClassModel} (h : List.Forall₂ Entry.Twin m.entries m'.entries) :
    m'.hasEarlyBase = m.hasEarlyBase := by
  unfold hasEarlyBase
  generalize m.entries = es at h ⊢
  generalize m'.entries = es' at h ⊢
  induction h with
  | nil => rfl
  | cons hee _ ih => rw [List.any_cons, List.any_cons, hee.isSuper, hee.isEarly, ih]

/-- The classes of a structure for two targets read, before their attributes, one condition for each pair
of a condition and a size among the early attributes that they hold themselves, and nothing else; so
they read the same bytes. The exception is a TypeScript class whose base class has early attributes:
it reads their conditions again. -/
theorem conditions_read_first {t t' : Target} {s s₁ s₂ : Schema} {name : String} {m m' : ClassModel}
    {code code' : String} (hm : modelOf t s name = .ok m) (hm' : modelOf t' s name = .ok m')
    (hs₁ : s₁.settled = s.settled) (hs₂ : s₂.settled = s.settled)
    (hcode : m.source t s₁ = .ok code) (hcode' : m'.source t' s₂ = .ok code') :
    ∃ pairs pairs',
      Collects s₁ ((ClassForm.of t m).readers m) pairs ∧
      (ClassForm.of t m).ReadsFirst s₁ m pairs code ∧
      Collects s₂ ((ClassForm.of t' m').readers m') pairs' ∧
      (ClassForm.of t' m').ReadsFirst s₂ m' pairs' code' ∧
      ((t = .typescript ∨ t' = .typescript → m.hasEarlyBase = false) →
        pairs' = pairs ∧ Collects s₁ m.own pairs ∧ Collects s₂ m'.own pairs) := by
  have htwins := twins_of_models hm hm'
  obtain ⟨pairs, hpairs, hfirst⟩ := reads_first hcode
  obtain ⟨pairs', hpairs', hfirst'⟩ := reads_first hcode'
  refine ⟨pairs, pairs', collects_conditionReads hpairs, hfirst, collects_conditionReads hpairs',
    hfirst', ?_⟩
  intro hbase
  have hown : conditionReads s₁ m.own = .ok pairs := by
    rw [← hpairs, conditionReads_readers fun ht => hbase (.inl ht)]
  have hown' : conditionReads s₂ m'.own = .ok pairs' := by
    have hbase' : t' = .typescript → m'.hasEarlyBase = false := by
      intro ht
      rw [hasEarlyBase_twins htwins]
      exact hbase (.inr ht)
    rw [← hpairs', conditionReads_readers hbase']
  have hsame : pairs' = pairs := by
    rw [conditionReads_congr (hs₂.trans hs₁.symm) (own_twins htwins), hown] at hown'
    exact (Except.ok.inj hown').symm
  subst hsame
  exact ⟨rfl, collects_conditionReads hown, collects_conditionReads hown'⟩

/-- A structure with a base class and two attributes in front of the flags on which they depend. -/
def leaseSchema : Schema := ⟨[
  ("Amount", .table [("type", "byte"), ("size", .int 8)]),
  ("LeaseFlags", .table [("type", "enum"), ("size", .int 1), ("values", .list [
    .table [("name", "limited"), ("value", .int 1)],
    .table [("name", "derived"), ("value", .int 2)]])]),
  ("Header", .table [("type", "struct"), ("layout", .list [
    .table [("name", "version"), ("type", "byte"), ("size", .int 1)]])]),
  ("Lease", .table [("type", "struct"), ("layout", .list [
    .table [("disposition", "inline"), ("type", "Header")],
    .table [("name", "duration"), ("type", "Amount"), ("condition", "flags"),
      ("condition_operation", "has"), ("condition_value", "limited")],
    .table [("name", "origin"), ("type", "Amount"), ("condition", "flags"),
      ("condition_operation", "has"), ("condition_value", "derived")],
    .table [("name", "flags"), ("type", "LeaseFlags")],
    .table [("name", "feeCount"), ("type", "byte"), ("size", .int 1)],
    .table [("name", "fees"), ("type", "Amount"), ("size", "feeCount")]])])]⟩

/-- The model of a structure with its text, in a schema without marks. -/
def rendered (t : Target) (s : Schema) (name : String) : Checked (ClassModel × String) := do
  let m ← modelOf t s name
  return (m, ← m.source t s)

theorem rendered_eq_ok {t : Target} {s : Schema} {name : String} {m : ClassModel} {code : String}
    (h : rendered t s name = .ok (m, code)) :
    modelOf t s name = .ok m ∧ m.source t s = .ok code := by
  obtain ⟨m₁, hm, h⟩ := bind_eq_ok.1 h
  obtain ⟨code₁, hcode, h⟩ := bind_eq_ok.1 h
  obtain ⟨rfl, rfl⟩ := Prod.mk.inj (Except.ok.inj h)
  exact ⟨hm, hcode⟩

theorem exists_rendered_lease (t : Target) : ∃ p, rendered t leaseSchema "Lease" = .ok p := by
  cases t <;> exact exists_ok (by decide +kernel)

theorem conditions_read_first_lease : ∃ m code m' code',
    rendered .java leaseSchema "Lease" = .ok (m, code) ∧
    rendered .typescript leaseSchema "Lease" = .ok (m', code') ∧
    (m.own.filter Entry.isEarly).map (·.name) = ["duration", "origin"] ∧
    ∃ pairs, Collects leaseSchema m.own pairs ∧
      ClassForm.java.ReadsFirst leaseSchema m pairs code ∧
      ClassForm.typescript.ReadsFirst leaseSchema m' pairs code' := by
  obtain ⟨⟨m, code⟩, hp⟩ := exists_rendered_lease .java
  obtain ⟨⟨m', code'⟩, hp'⟩ := exists_rendered_lease .typescript
  have hearly : (rendered .java leaseSchema "Lease").toOption.map (fun p =>
      ((p.1.own.filter Entry.isEarly).map (·.name), p.1.hasEarlyBase)) =
      some (["duration", "origin"], false) := by
    decide +kernel
  rw [hp, Checked.toOption_ok, Option.map_some, Option.some.injEq, Prod.mk.injEq] at hearly
  obtain ⟨hm, hcode⟩ := rendered_eq_ok hp
  obtain ⟨hm', hcode'⟩ := rendered_eq_ok hp'
  obtain ⟨pairs, pairs', -, hfirst, -, hfirst', hsame⟩ :=
    conditions_read_first hm hm' rfl rfl hcode hcode'
  obtain ⟨rfl, hcollects, -⟩ := hsame fun _ => hearly.2
  exact ⟨m, code, m', code', hp, hp', hearly.1, pairs', hcollects, hfirst, hfirst'⟩

end ClassModel

end SchemaForge
