import SchemaForge.Proofs.BuilderLines
import SchemaForge.Proofs.Conclusive
import SchemaForge.Proofs.Success

/-! The fields of a well formed body. Each has a kind, a type and a setter, and all that is made of them
is text without braces. -/
namespace SchemaForge
open Checked

namespace Value

/-- A text without braces. -/
def isBraceless : Value → Bool
  | text s => Text.isBraceless s
  | _ => false

theorem isBraceless_iff {v : Value} :
    v.isBraceless = true ↔ ∃ t, v = text t ∧ Text.isBraceless t = true := by
  cases v <;> simp [isBraceless]

def isInt : Value → Bool
  | int _ => true
  | _ => false

end Value

namespace Hints

def isFillable : Value → Bool
  | .text s => Text.isFillable s
  | _ => false

/-- A table all of whose values pass a test. -/
def isTableOf (test : Value → Bool) : Value → Bool
  | .table entries => entries.all (test ·.2)
  | _ => false

/-- Hints that name a plugin, and with which the lines of a builder can be written. -/
def isUsable : Hints → Bool
  | .table topics =>
    (topics.lookup "plugin").any Value.isBraceless && (topics.lookup "includes").all isPlainList &&
      (topics.lookup "namespaces").all (isTableOf Value.isBraceless) &&
      (topics.lookup "rewrites").isNone && (topics.lookup "setters").all (isTableOf isFillable)
  | _ => false

/-- The hints for each transaction that has a plugin can be used. -/
theorem usable_of_plugin {name : String} (h : name ∈ Hint.plugins.map (·.1)) :
    ∃ hints, ofTransaction name = .ok hints ∧ isUsable hints = true := by
  have hall : (collect (Hint.topics.map (·.1))).toOption.any (fun all =>
      (Hint.plugins.map (·.1)).all fun name => (all.lookup name).any isUsable) = true := by decide +kernel
  unfold ofTransaction
  cases hc : collect (Hint.topics.map (·.1)) with
  | error fault => simp [hc, Except.toOption] at hall
  | ok all =>
    simp only [hc, Except.toOption, Option.any_some] at hall
    obtain ⟨hints, hl, husable⟩ := (Option.any_eq_true _ _).1 (List.all_eq_true.1 hall name h)
    exact ⟨hints, by simp [hl, require], husable⟩

theorem entry_eq_ok {topics : List (String × Value)} {topic : String} {test : Value → Bool}
    (h : (topics.lookup topic).all (isTableOf test) = true) (hempty : test "" = true) (key : String) :
    ∃ v, entry (.table topics) topic (.text key) = .ok v ∧ test v = true := by
  rw [entry_table]
  cases hl : topics.lookup topic with
  | none => exact ⟨"", rfl, hempty⟩
  | some table =>
    rw [hl] at h
    cases table with
    | table entries =>
      refine ⟨(entries.lookup key).getD "", rfl, ?_⟩
      cases hk : entries.lookup key with
      | none => exact hempty
      | some v =>
        obtain ⟨before, after, rfl, -⟩ := List.lookup_eq_some_iff.1 hk
        exact List.all_eq_true.1 h (key, v) (by simp)
    | _ => cases h

section
variable {hints : Hints} (h : isUsable hints = true)
include h

theorem exists_topics : ∃ topics, hints = .table topics ∧
    (topics.lookup "plugin").any Value.isBraceless = true ∧
    (topics.lookup "includes").all isPlainList = true ∧
    (topics.lookup "namespaces").all (isTableOf Value.isBraceless) = true ∧
    topics.lookup "rewrites" = none ∧ (topics.lookup "setters").all (isTableOf isFillable) = true := by
  cases hints with
  | table topics =>
    simp only [isUsable, Bool.and_eq_true, Option.isNone_iff_eq_none] at h
    exact ⟨topics, rfl, h.1.1.1.1, h.1.1.1.2, h.1.1.2, h.1.2, h.2⟩
  | _ => cases h

theorem plugin_eq_ok : ∃ plugin, hints.plugin = .ok (.text plugin) ∧
    Text.isBraceless plugin = true := by
  obtain ⟨topics, rfl, hplugin, -⟩ := exists_topics h
  obtain ⟨v, hv, hb⟩ := (Option.any_eq_true _ _).1 hplugin
  obtain ⟨plugin, rfl, hp⟩ := Value.isBraceless_iff.1 hb
  exact ⟨plugin, Checked.require_eq_ok.2 hv, hp⟩

theorem entry_namespaces_eq_ok (type : String) : ∃ space,
    hints.entry "namespaces" (.text type) = .ok (.text space) ∧ Text.isBraceless space = true := by
  obtain ⟨topics, rfl, -, -, hspaces, -⟩ := exists_topics h
  obtain ⟨v, hv, hb⟩ := entry_eq_ok hspaces rfl type
  obtain ⟨space, rfl, hs⟩ := Value.isBraceless_iff.1 hb
  exact ⟨space, hv, hs⟩

theorem entry_setters_eq_ok (name : String) : ∃ value,
    hints.entry "setters" (.text name) = .ok (.text value) ∧ Text.Fillable value.toList := by
  obtain ⟨topics, rfl, -, -, -, -, hsetters⟩ := exists_topics h
  obtain ⟨v, hv, hf⟩ := entry_eq_ok hsetters rfl name
  cases v with
  | text value => exact ⟨value, hv, Text.fillable_of_check hf⟩
  | _ => cases hf

theorem entry_rewrites_eq_ok (name : Value) : hints.entry "rewrites" name = .ok "" := by
  obtain ⟨topics, rfl, -, -, -, hrewrites, -⟩ := exists_topics h
  rw [entry_table, hrewrites]
  rfl

theorem items_includes_eq_ok : ∃ files, hints.items "includes" = .ok files ∧
    ∀ file ∈ files, isPlainText file = true := by
  obtain ⟨topics, rfl, -, hincludes, -⟩ := exists_topics h
  rw [items_table]
  cases hl : topics.lookup "includes" with
  | none => exact ⟨[], rfl, by simp⟩
  | some listed =>
    rw [hl] at hincludes
    cases listed with
    | list files =>
      exact ⟨files, rfl, List.all_eq_true.1 hincludes⟩
    | _ => cases hincludes

end
end Hints

namespace Schema

/-- The types are numbers and enumerations of given sizes, and structures. -/
def isTyped (s : Schema) : Bool := s.types.all fun e => e.2.record?.any fun r =>
  r.is "type" "struct" ||
    (r.is "type" "byte" || r.is "type" "enum") && (r.get? "size").any Value.isInt

end Schema

namespace Builder

/-- The size of a field goes with its type: a value of a declared type, a number, a buffer or a list. -/
def isSized (s : Schema) (r : Record) : Bool :=
  match r.get? "size" with
  | none => (r.get? "type").any s.declares
  | some (.int n) => r.is "type" "byte" && [1, 2, 4, 8].contains n && r.has "signedness"
  | some (.text size) =>
    if r.is "type" "byte" then Text.endsWith "Size" size
    else (r.get? "type").any s.declares && Text.endsWith "Count" size
  | some _ => false

/-- A field of a body with all that its lines are made of. -/
def isSound (s : Schema) (fields : List Value) (v : Value) : Bool := v.record?.any fun r =>
  (["name", "type", "comments"].all fun key => (r.get? key).any Value.isBraceless) && isSized s r &&
    ((r.get? "condition").all fun c =>
      fields.any (·.isNamed c) && (r.get? "condition_value").any Value.isBraceless) &&
    (r.get? "sort_key").all Value.isBraceless

/-- Whether the builder has the field, and the field has a counter of this name. -/
def isBuiltWith (counter v : Value) : Bool := v.record?.any fun r =>
  ((r.get? "name").bind (·.text?)).any isBuilt && (r.get? "size").any (· == counter)

/-- A counter that the implementation can set: it has at most four bytes, and belongs to a field that
the builder has. -/
def isCountable (fields : List Value) (v : Value) : Bool := v.record?.any fun r =>
  (r.get? "name").any fun name => (r.get? "size").any fun size =>
    [1, 2, 4].any (fun n => size == .int n) && fields.any (isBuiltWith name)

/-- Whether a field is a counter by its name. -/
def isCounting (v : Value) : Bool := ((v.need "name").toOption.bind (·.text?)).any isCounter

/-- The fields that the implementation sets before the first one of varying size. -/
def fixedPart (fields : List Value) : List Value :=
  fields.takeWhile fun v => isCounting v || v.isFixed

/-- How the size of a field can go with its type. -/
inductive Sized (s : Schema) (r : Record) : Prop where
  | single {t : String} (hs : r.get? "size" = none) (ht : r.get? "type" = some (.text t))
    (hd : (s.get? t).isSome = true)
  | number {n : Int} (hs : r.get? "size" = some (.int n)) (ht : r.get? "type" = some (.text "byte"))
    (hn : n ∈ [1, 2, 4, 8]) (hsigned : r.has "signedness" = true)
  | buffer {size : String} (hs : r.get? "size" = some (.text size))
    (ht : r.get? "type" = some (.text "byte"))
    (he : Text.endsWith "Size" size = true)
  | vector {size t : String} (hs : r.get? "size" = some (.text size))
    (ht : r.get? "type" = some (.text t)) (hd : (s.get? t).isSome = true)
    (he : Text.endsWith "Count" size = true)

theorem sized_of_isSized {s : Schema} {r : Record} (h : isSized s r = true) : Sized s r := by
  have hdeclared : (r.get? "type").any s.declares = true →
      ∃ t, r.get? "type" = some (.text t) ∧ (s.get? t).isSome = true := by
    intro hd
    obtain ⟨v, hv, hd⟩ := (Option.any_eq_true _ _).1 hd
    obtain ⟨t, ht, hd⟩ := (Option.any_eq_true _ _).1 hd
    cases v with
    | text t' =>
      obtain rfl : t' = t := Option.some.inj ht
      exact ⟨t', hv, hd⟩
    | _ => cases ht
  unfold isSized at h
  split at h
  · rename_i hs
    obtain ⟨t, ht, hd⟩ := hdeclared h
    exact .single hs ht hd
  · rename_i n hs
    simp only [Bool.and_eq_true, List.contains_iff_mem] at h
    exact .number hs (Record.get?_of_is h.1.1) h.1.2 h.2
  · rename_i size hs
    split at h
    · rename_i hbyte
      exact .buffer hs (Record.get?_of_is hbyte) h
    · simp only [Bool.and_eq_true] at h
      obtain ⟨t, ht, hd⟩ := hdeclared h.1
      exact .vector hs ht hd h.2
  · cases h

/-- What is known of a sound field. -/
structure Sound (s : Schema) (fields : List Value) (r : Record) : Prop where
  name : ∃ n, r.get? "name" = some (.text n) ∧ Text.isBraceless n = true
  type : ∃ t, r.get? "type" = some (.text t) ∧ Text.isBraceless t = true
  comments : ∃ c, r.get? "comments" = some (.text c) ∧ Text.isBraceless c = true
  sized : Sized s r
  condition : ∀ c, r.get? "condition" = some c → (∃ w ∈ fields, w.isNamed c = true) ∧
    ∃ t, r.get? "condition_value" = some (.text t) ∧ Text.isBraceless t = true
  sortKey : ∀ k, r.get? "sort_key" = some k → ∃ t, k = .text t ∧ Text.isBraceless t = true

theorem exists_sound {s : Schema} {fields : List Value} {v : Value} (h : isSound s fields v = true) :
    ∃ r : Record, v = r.value ∧ Sound s fields r := by
  obtain ⟨r, hr, hall⟩ := (Option.any_eq_true _ _).1 h
  obtain rfl : v = r.value := by
    cases v with
    | table entries => rw [← Option.some.inj hr]; rfl
    | _ => cases hr
  simp only [List.all_cons, List.all_nil, Bool.and_true, Bool.and_eq_true] at hall
  obtain ⟨⟨⟨⟨hname, htype, hcomments⟩, hsized⟩, hcondition⟩, hkey⟩ := hall
  have htext : ∀ key, (r.get? key).any Value.isBraceless = true →
      ∃ t, r.get? key = some (.text t) ∧ Text.isBraceless t = true := by
    intro key hkey
    obtain ⟨v, hv, hb⟩ := (Option.any_eq_true _ _).1 hkey
    obtain ⟨t, rfl, ht⟩ := Value.isBraceless_iff.1 hb
    exact ⟨t, hv, ht⟩
  refine ⟨r, rfl, htext _ hname, htext _ htype, htext _ hcomments, sized_of_isSized hsized, ?_, ?_⟩
  · intro c hc
    simp only [hc, Option.all_some, Bool.and_eq_true, List.any_eq_true] at hcondition
    exact ⟨hcondition.1, htext _ hcondition.2⟩
  · intro k hk
    rw [hk] at hkey
    exact Value.isBraceless_iff.1 hkey

theorem endsWith_size_of_count {s : String} (h : Text.endsWith "Count" s = true) :
    Text.endsWith "Size" s = false := by
  unfold Text.endsWith List.isSuffixOf at *
  have hcount : "Count".toList.reverse = ['t', 'n', 'u', 'o', 'C'] := rfl
  have hsize : "Size".toList.reverse = ['e', 'z', 'i', 'S'] := rfl
  rw [hcount] at h
  rw [hsize]
  cases hs : s.toList.reverse with
  | nil => rfl
  | cons c rest =>
    rw [hs] at h
    obtain rfl : 't' = c := by
      simp only [List.isPrefixOf, Bool.and_eq_true, beq_iff_eq] at h
      exact h.1
    rfl

/-- A builder whose hints can be used, for a body of sound fields. -/
structure Ready (b : Builder) (fields : List Value) : Prop where
  hints : Hints.isUsable b.hints = true
  typed : b.schema.isTyped = true
  body : b.fields = .ok fields
  sound : ∀ v ∈ fields, isSound b.schema fields v = true

variable {b : Builder} {fields : List Value} {r : Record}

theorem qualified_text (hr : Ready b fields) {t : String} (ht : Text.isBraceless t = true) :
    ∃ name, b.qualified (.text t) = .ok name ∧ Text.isBraceless name = true := by
  obtain ⟨space, hspace, hs⟩ := Hints.entry_namespaces_eq_ok hr.hints t
  refine ⟨(if space.isEmpty then "" else space ++ "::") ++ t, by simp [qualified, hspace], ?_⟩
  split
  · simpa using ht
  · rw [Text.isBraceless_append, Text.isBraceless_append, hs, ht]
    rfl

/-- A declared type is a record with a sort, and with a size if it is a number. -/
theorem declared_eq_ok (hr : Ready b fields) {t : String} (hd : (b.schema.get? t).isSome = true) :
    ∃ q : Record, b.schema.need (.text t) = .ok q.value ∧ ∃ sort, q.get? "type" = some sort ∧
      (sort.isByte = true → ∃ n, q.get? "size" = some (.int n)) := by
  obtain ⟨declared, hdeclared⟩ := Option.isSome_iff_exists.1 hd
  obtain ⟨before, after, htypes, -⟩ := List.lookup_eq_some_iff.1 hdeclared
  have htyped := List.all_eq_true.1 hr.typed (t, declared) (by rw [htypes]; simp)
  obtain ⟨q, hq, hsort⟩ := (Option.any_eq_true _ _).1 htyped
  obtain rfl : declared = q.value := by
    cases declared with
    | table entries => rw [← Option.some.inj hq]; rfl
    | _ => cases hq
  refine ⟨q, by rw [Schema.need_text, hdeclared]; rfl, ?_⟩
  rcases Bool.or_eq_true_iff.1 hsort with hstruct | hnumber
  · exact ⟨_, Record.get?_of_is hstruct, fun hbyte => by cases hbyte⟩
  · rw [Bool.and_eq_true, Bool.or_eq_true] at hnumber
    obtain ⟨size, hsize, hint⟩ := (Option.any_eq_true _ _).1 hnumber.2
    have hn : ∃ n, q.get? "size" = some (.int n) := by
      cases size with
      | int n => exact ⟨n, hsize⟩
      | _ => cases hint
    rcases hnumber.1 with hbyte | henum
    · exact ⟨_, Record.get?_of_is hbyte, fun _ => hn⟩
    · exact ⟨_, Record.get?_of_is henum, fun _ => hn⟩

theorem paramType_declared (hr : Ready b fields) {t : String} (ht : Text.isBraceless t = true)
    (hd : (b.schema.get? t).isSome = true) {size signedness : Value}
    (hplain : isPlainNumber (.text t) size = .ok false) :
    ∃ type, b.paramType (.text t) size signedness = .ok type ∧ Text.isBraceless type = true := by
  obtain ⟨q, hq, sort, hsort, hsize⟩ := declared_eq_ok hr hd
  obtain ⟨name, hname, hn⟩ := qualified_text hr ht
  have hsucceeds : Succeeds (b.paramType (.text t) size signedness) := by
    simp only [paramType, hplain, ok_bind, Bool.false_eq_true, if_false, hq, hname,
      Value.need_record, Record.need_of_get? hsort, succeeds_ite, pure_eq_ok, succeeds_ok,
      implies_true, and_true]
    intro hbyte
    obtain ⟨n, hint⟩ := hsize hbyte
    simp [Record.need_of_get? hint, isMachineNumber, hbyte]
  obtain ⟨type, htype⟩ := hsucceeds
  refine ⟨type, htype, ?_⟩
  rcases passes_of_paramType hplain hname htype with rfl | rfl
  · exact hn
  · rw [Text.isBraceless_append, Text.isBraceless_append, hn]
    rfl

theorem machineType_eq_ok {n : Int} (hn : n ∈ [1, 2, 4, 8]) (signedness : Value) :
    ∃ type, machineType (.int n) signedness = .ok type ∧ Text.isBraceless type = true := by
  have hsucceeds : Succeeds (machineType (.int n) signedness) := by
    simp only [List.mem_cons, List.not_mem_nil, or_false] at hn
    rcases hn with rfl | rfl | rfl | rfl <;> exact ⟨_, rfl⟩
  obtain ⟨type, htype⟩ := hsucceeds
  exact ⟨type, htype, all_machineType Text.isMark_of_brace htype⟩

theorem isMachineNumber_byte {n : Int} (hn : n ∈ [1, 2, 4, 8]) :
    isMachineNumber "byte" (.int n) = .ok true ∧ isPlainNumber "byte" (.int n) = .ok true := by
  simp only [List.mem_cons, List.not_mem_nil, or_false] at hn
  rcases hn with rfl | rfl | rfl | rfl <;> exact ⟨rfl, rfl⟩

theorem valueType_declared (hr : Ready b fields) (h : Sound b.schema fields r) {t : String}
    (ht : r.get? "type" = some (.text t)) (hd : (b.schema.get? t).isSome = true)
    (hplain : isPlainNumber (.text t) ((r.get? "size").getD (.int 0)) = .ok false) :
    ∃ type, b.valueType r.value = .ok type ∧ Text.isBraceless type = true := by
  obtain ⟨t', ht', hb⟩ := h.type
  obtain rfl : t' = t := by simpa [ht'] using ht
  obtain ⟨type, htype, hbraceless⟩ :=
    @paramType_declared b fields hr t' hb hd _ ((r.get? "signedness").getD "") hplain
  exact ⟨type, by simp [valueType, Record.need_of_get? ht, htype], hbraceless⟩

/-- A sound field is a single value, a buffer or a list, and what its setter takes can be written. -/
inductive Kinded (b : Builder) (r : Record) : Prop where
  | simple (hk : r.value.fieldKind = .ok .simple) (hs : ∀ size, r.get? "size" ≠ some (.text size))
    (ht : ∃ type, b.valueType r.value = .ok type ∧ Text.isBraceless type = true)
  | buffer (hk : r.value.fieldKind = .ok .buffer) (hs : ∃ size, r.get? "size" = some (.text size))
    (ht : r.get? "type" = some (.text "byte"))
  | vector (hk : r.value.fieldKind = .ok .vector) (hs : ∃ size, r.get? "size" = some (.text size))
    (ht : ∃ type, b.valueType r.value = .ok type ∧ Text.isBraceless type = true)

theorem kinded_of_sound (hr : Ready b fields) (h : Sound b.schema fields r) : Kinded b r := by
  have hhas : r.value.has "size" = .ok (r.get? "size").isSome := rfl
  cases h.sized with
  | single hs ht hd =>
    refine .simple ?_ (by simp [hs]) (valueType_declared hr h ht hd (by rw [hs]; rfl))
    simp [Value.fieldKind, hhas, hs]
  | number hs ht hn hsigned =>
    obtain ⟨hmachine, hplain⟩ := isMachineNumber_byte hn
    obtain ⟨type, htype, hb⟩ := machineType_eq_ok hn ((r.get? "signedness").getD "")
    refine .simple ?_ (by simp [hs]) ⟨type, ?_, hb⟩
    · simp [Value.fieldKind, hhas, Record.need_of_get? hs, hs, Record.need_of_get? ht, hmachine]
    · simp [valueType, Record.need_of_get? ht, hs, paramType, htype, hplain]
  | buffer hs ht he =>
    refine .buffer ?_ ⟨_, hs⟩ ht
    simp [Value.fieldKind, hhas, Record.need_of_get? hs, hs, he]
  | vector hs ht hd he =>
    refine .vector ?_ ⟨_, hs⟩ (valueType_declared hr h ht hd (by rw [hs]; rfl))
    simp [Value.fieldKind, hhas, Record.need_of_get? hs, hs, he, endsWith_size_of_count he]

theorem heldType_of_sound (hr : Ready b fields) (h : Sound b.schema fields r) :
    ∃ type, b.heldType r.value = .ok type ∧ Text.isBraceless type = true := by
  obtain ⟨t, ht, hb⟩ := h.type
  have hplain : isSizedNumber (.text t) (r.get? "size") = .ok false →
      ∃ type, b.heldType r.value = .ok type ∧ Text.isBraceless type = true := by
    intro hnumber
    obtain ⟨name, hname, hbraceless⟩ := qualified_text hr hb
    exact ⟨name, by simp [heldType, Record.need_of_get? ht, hnumber, hname], hbraceless⟩
  cases h.sized with
  | single hs => exact hplain (by rw [hs]; rfl)
  | buffer hs | vector hs => exact hplain (by rw [hs]; rfl)
  | number hs hbyte hn hsigned =>
    obtain ⟨signedness, hsigned⟩ := Option.isSome_iff_exists.1 hsigned
    obtain ⟨machine, hmachine, hbraceless⟩ := machineType_eq_ok hn signedness
    obtain ⟨name, hname, hbraceless⟩ := qualified_text hr hbraceless
    refine ⟨name, ?_, hbraceless⟩
    simp [heldType, Record.need_of_get? hbyte, hs, isSizedNumber, (isMachineNumber_byte hn).1,
      Record.need_of_get? hsigned, hmachine, hname]

theorem memberType_of_sound (hr : Ready b fields) (h : Sound b.schema fields r) :
    ∃ type, b.memberType r.value = .ok type ∧ Text.isBraceless type = true := by
  obtain ⟨held, hheld, hb⟩ := heldType_of_sound hr h
  cases kinded_of_sound hr h with
  | simple hk => exact ⟨held, by simp [memberType, hk, hheld], hb⟩
  | buffer hk => exact ⟨"std::vector<uint8_t>", by simp [memberType, hk, hheld], rfl⟩
  | vector hk =>
    refine ⟨"std::vector<" ++ held ++ ">", by simp [memberType, hk, hheld]; rfl, ?_⟩
    rw [Text.isBraceless_append, Text.isBraceless_append, hb]
    rfl

/-- Every sound field has a setter, made of texts without braces. -/
theorem setter_of_sound (hr : Ready b fields) (h : Sound b.schema fields r) :
    ∃ kind setter param, r.value.fieldKind = .ok kind ∧ b.setter kind r.value = .ok setter ∧
      setter.param = .text param ∧ Text.isBraceless param = true ∧
      Text.isBraceless setter.type = true ∧ Text.isBraceless setter.verb = true := by
  obtain ⟨n, hn, hname⟩ := h.name
  have hneed := Record.need_of_get? hn
  have hset : Text.isBraceless "set" = true := by decide
  have hadd : Text.isBraceless "add" = true := by decide
  have hraw : Text.isBraceless "const RawBuffer&" = true := by decide
  cases kinded_of_sound hr h with
  | simple hk _ ht =>
    obtain ⟨type, htype, hb⟩ := ht
    exact ⟨.simple, ⟨"set", type, .text n⟩, n, hk, by simp [setter, htype, hneed], rfl, hname, hb,
      hset⟩
  | buffer hk _ ht =>
    have hbyte : (Value.text "byte").isByte = true := rfl
    exact ⟨.buffer, ⟨"set", "const RawBuffer&", .text n⟩, n, hk,
      by simp [setter, Record.need_of_get? ht, hneed, hbyte], rfl, hname, hraw, hset⟩
  | vector hk _ ht =>
    obtain ⟨type, htype, hb⟩ := ht
    exact ⟨.vector, ⟨"add", type, .text (Text.singular n)⟩, Text.singular n, hk,
      by simp [setter, htype, hneed], rfl, Text.isBraceless_singular hname, hb, hadd⟩

theorem signature_eq_ok {verb type param : String} (hv : Text.isBraceless verb = true)
    (ht : Text.isBraceless type = true) (hp : Text.isBraceless param = true) :
    ∃ text, signature verb type (.text param) = .ok text ∧ Text.isBraceless text = true := by
  refine ⟨_, by simp only [signature, methodName, Value.upperFirst_text]; rfl, ?_⟩
  simp only [toString, Value.spell_text, Text.isBraceless_append, hv, ht, hp,
    Text.isBraceless_upperFirst hp, Bool.true_and, Bool.and_true]
  decide

/-- A field can be found by its name among sound ones. -/
theorem findNamed_eq_ok {s : Schema} {name : Value} {all l : List Value}
    (hl : ∀ v ∈ l, isSound s all v = true) (h : ∃ w ∈ l, w.isNamed name = true) :
    ∃ v ∈ l, findNamed name l = .ok v := by
  induction l with
  | nil => simp at h
  | cons v rest ih =>
    obtain ⟨r, rfl, hsound⟩ := exists_sound (hl v (by simp))
    obtain ⟨n, hn, -⟩ := hsound.name
    have hneed : r.value.need "name" = .ok (.text n) := Record.need_of_get? hn
    by_cases hname : (Value.text n == name) = true
    · exact ⟨r.value, by simp, by simp [findNamed, hneed, hname]⟩
    · obtain ⟨w, hw, hnamed⟩ := h
      have hrest : w ∈ rest := by
        rcases List.mem_cons.1 hw with rfl | hw
        · simp [Value.isNamed, hneed, Except.toOption, hname] at hnamed
        · exact hw
      obtain ⟨v, hv, hfound⟩ := ih (fun v hv => hl v (by simp [hv])) ⟨w, hrest, hnamed⟩
      exact ⟨v, by simp [hv], by simp [findNamed, hneed, hname, hfound]⟩

theorem text_of_isNamed {s : Schema} {name : Value} (hr : ∀ v ∈ fields, isSound s fields v = true)
    (h : ∃ w ∈ fields, w.isNamed name = true) : ∃ t, name = .text t ∧ Text.isBraceless t = true := by
  obtain ⟨w, hw, hnamed⟩ := h
  obtain ⟨r, rfl, hsound⟩ := exists_sound (hr w hw)
  obtain ⟨n, hn, hb⟩ := hsound.name
  have hneed : r.value.need "name" = .ok (.text n) := Record.need_of_get? hn
  have hbeq : (Value.text n == name) = true := by
    simpa [Value.isNamed, hneed, Except.toOption] using hnamed
  cases name with
  | text t =>
    obtain rfl : n = t := by simpa using hbeq
    exact ⟨n, rfl, hb⟩
  | _ => cases hbeq

/-- The field on which another one depends has a setter. -/
theorem setterOf_of_condition (hr : Ready b fields) {c : Value}
    (h : ∃ w ∈ fields, w.isNamed c = true) : ∃ (q : Record) (setter : Setter) (name param : String),
      b.setterOf c = .ok (q.value, setter) ∧ q.get? "name" = some (.text name) ∧
      Text.isBraceless name = true ∧ setter.param = .text param ∧ Text.isBraceless param = true ∧
      Text.isBraceless setter.type = true := by
  obtain ⟨v, hv, hfound⟩ := findNamed_eq_ok hr.sound h
  obtain ⟨q, rfl, hsound⟩ := exists_sound (hr.sound v hv)
  obtain ⟨name, hname, hb⟩ := hsound.name
  obtain ⟨kind, setter, param, hkind, hsetter, hparam, hp, ht, -⟩ := setter_of_sound hr hsound
  refine ⟨q, setter, name, param, ?_, hname, hb, hparam, hp, ht⟩
  simp [setterOf, field, hr.body, hfound, hkind, hsetter]

theorem remark_of_sound (hr : Ready b fields) (h : Sound b.schema fields r) :
    ∃ text, remark r.value = .ok text ∧ Text.isBraceless text = true := by
  have hconditional : r.value.isConditional = .ok (r.get? "condition").isSome :=
    Value.isConditional_record r
  cases hc : r.get? "condition" with
  | none => exact ⟨"", by simp [remark, hconditional, hc], rfl⟩
  | some c =>
    obtain ⟨hnamed, value, hvalue, hv⟩ := h.condition c hc
    obtain ⟨t, rfl, ht⟩ := text_of_isNamed hr.sound hnamed
    refine ⟨" and " ++ t ++ " to `" ++ value ++ "`", ?_, ?_⟩
    · simp [remark, hconditional, hc, bound, Record.need_of_get? hc, Record.need_of_get? hvalue]
      rfl
    · simp only [Text.isBraceless_append, ht, hv, Bool.and_true]
      decide

end Builder
end SchemaForge
