import SchemaForge.Proofs.Rows
import SchemaForge.Proofs.UpFront

/-! What stands under the condition of an attribute in the methods of a Python class. It is what the same
attribute has without a condition, moved to the right, unless there is a loop in it: the body of a loop
loses its place. -/
namespace SchemaForge
open Source Checked Text

/-- The texts that are shown in the code for an attribute are words. -/
structure Entry.Worded (s : Schema) (m : ClassModel) (e : Entry) : Prop where
  name : Text.isWord e.name = true
  className : Text.isWord e.className = true
  varType : Text.isWord e.varType = true
  size : Text.isWord e.size.spell = true
  model : Text.isWord m.className = true
  condition : Text.isWord (((s.attributeAt e.site).get? "condition").getD .null).spell = true
  type : ((s.attributeAt e.site).need "type").toOption.all (Text.isWord ·.spell) = true
  counted : (counted s e >>= fun r => r.need "name").toOption.all (Text.isWord ·.spell) = true

namespace Entry.Worded
variable {s : Schema} {m : ClassModel} {e : Entry}

instance : Decidable (e.Worded s m) :=
  decidable_of_iff (_ ∧ _ ∧ _ ∧ _ ∧ _ ∧ _ ∧ _ ∧ _)
    ⟨fun ⟨h₁, h₂, h₃, h₄, h₅, h₆, h₇, h₈⟩ => ⟨h₁, h₂, h₃, h₄, h₅, h₆, h₇, h₈⟩,
      fun ⟨h₁, h₂, h₃, h₄, h₅, h₆, h₇, h₈⟩ => ⟨h₁, h₂, h₃, h₄, h₅, h₆, h₇, h₈⟩⟩

theorem isWord_type (h : e.Worded s m) {type : Value}
    (ht : (s.attributeAt e.site).need "type" = .ok type) : isWord type.spell = true := by
  simpa [ht, Except.toOption] using h.type

theorem isWord_counted (h : e.Worded s m) {r : Record} {name : Value}
    (hr : Source.counted s e = .ok r) (hn : r.need "name" = .ok name) : isWord name.spell = true := by
  simpa [hr, hn, Except.toOption] using h.counted

end Entry.Worded

/-- The attribute as it would be without its condition. -/
def Entry.freed (e : Entry) : Entry := { e with isConditional := false, readBefore := false }

namespace PythonClass
variable {s : Schema} {m : ClassModel} {e : Entry} {code : String}

theorem isTrim_advance {size : String} (h : isUnbroken size = true) :
    isTrim (advance size) = true := ((opens_ofList rfl).append h).closeLit rfl

theorem opens_fromBuffer (h : isWord e.size.spell = true) : Opens (fromBuffer e) :=
  ((opens_ofList rfl).word h).lit rfl

theorem opens_toBuffer {value : String} (hv : isUnbroken value = true)
    (h : isWord e.size.spell = true) : Opens (toBuffer value e) :=
  ((((opens_ofList rfl).append hv).lit rfl).word h).lit rfl

theorem opens_concat {bytes : String} (h : isUnbroken bytes = true) : Opens (concat bytes) :=
  ((opens_ofList rfl).append h).lit rfl

theorem isTrim_concat {bytes : String} (h : isUnbroken bytes = true) :
    isTrim (concat bytes) = true := ((opens_ofList rfl).append h).closeLit rfl

theorem isWord_valueName (hw : e.Worded s m) {name : String} (h : valueName s e = .ok name) :
    isWord name = true := by
  obtain ⟨type, htype, h⟩ := bind_eq_ok.1 h
  obtain ⟨lower, hlower, h⟩ := bind_eq_ok.1 h
  obtain rfl := Value.eq_text_of_joined h
  cases type with
  | text t =>
    obtain rfl : Text.lowerFirst t = name := by simpa using hlower
    exact isWord_lowerFirst (hw.isWord_type htype)
  | _ =>
    unfold Value.lowerFirst Value.changeFirst at hlower
    split at hlower
    · cases hlower
    · obtain ⟨first, -, hlower⟩ := bind_eq_ok.1 hlower
      obtain ⟨text, -, hlower⟩ := bind_eq_ok.1 hlower
      cases hlower

/-- A loop that reads the items of an array, behind the line that makes it. -/
theorem laidOut_items {first count item name value : String} (hf : isTrim first = true)
    (hc : isWord count = true) (hi : isUnbroken item = true) (hn : isWord name = true)
    (hv : isUnbroken value = true) : ∃ rest,
      LaidOut (statements [first, "for _ in range(" ++ count ++ "):", "    item = " ++ item ++ "(bytes_)",
        "    " ++ name ++ ".append(" ++ value ++ ")", "    " ++ advance "item.get_size()"]) first rest ∧
      rest.any Row.inner = true := by
  refine ⟨[⟨false, "for _ in range(" ++ count ++ "):"⟩, ⟨true, "item = " ++ item ++ "(bytes_)"⟩,
    ⟨true, name ++ ".append(" ++ value ++ ")"⟩, ⟨true, advance "item.get_size()"⟩], ⟨?_, hf, ?_⟩, rfl⟩
  · have hopen : "    item = " = "    " ++ "item = " := rfl
    simp only [List.map_cons, List.map_nil, Row.line, if_true, Bool.false_eq_true, if_false, hopen,
      String.append_assoc]
  · simp only [List.forall_mem_cons, List.not_mem_nil, false_implies, implies_true, and_true]
    exact ⟨((opens_ofList rfl).word hc).closeLit rfl, ((opens_ofList rfl).append hi).closeLit rfl,
      (((opens_word hn).lit rfl).append hv).closeLit rfl,
      isTrim_advance (isUnbroken_ofList rfl)⟩

/-- The code that reads an attribute has a loop if it is an array. -/
theorem laidOut_load (hw : e.Worded s m) (h : load s m e = .ok code) :
    ∃ first rest, LaidOut code first rest ∧ rest.any Row.inner = (e.kind == .array) ∧
      (e.kind = .custom → (rest = [] ↔ e.readBefore = true)) := by
  have hn := opens_word hw.name
  have hitem : Opens (e.className ++ ".load_from_binary") := (opens_word hw.className).lit rfl
  have hadvance : ∀ line ∈ [advance e.size.spell], isTrim line = true :=
    List.forall_mem_singleton.2 (isTrim_advance (isUnbroken_of_isWord hw.size))
  obtain rfl := Except.ok.inj h
  cases hk : e.kind with
  | simple | sizeField =>
    exact ⟨_, _, .flat (((hn.lit rfl).append (opens_fromBuffer hw.size).unbroken).closeLit rfl)
      hadvance, rfl, by simp⟩
  | buffer => exact ⟨_, _, .flat (((hn.lit rfl).word hw.size).closeLit rfl) hadvance, rfl, by simp⟩
  | flags =>
    exact ⟨_, _, .flat (((((hn.lit rfl).word hw.className).lit rfl).word hw.size).closeLit rfl)
      hadvance, rfl, by simp⟩
  | array =>
    have hcall : "    " ++ e.name ++ ".append(item)" = "    " ++ e.name ++ ".append(" ++ "item" ++ ")" := by
      simp only [String.append_assoc]
      rfl
    have hfirst : isTrim (e.name ++ ": " ++ e.varType ++ " = []  # kind:ARRAY") = true :=
      ((hn.lit rfl).word hw.varType).closeLit rfl
    obtain ⟨rest, hrest, hloop⟩ := @laidOut_items _ _ _ _ "item" hfirst hw.size hitem.unbroken hw.name
      (isUnbroken_ofList rfl)
    rw [← hcall] at hrest
    exact ⟨_, rest, hrest, hloop, by simp⟩
  | custom =>
    simp only
    split
    · rename_i hbefore
      exact ⟨_, [], .flat (((((hn.lit rfl).append hitem.unbroken).lit rfl).word hw.condition).closeLit rfl)
        (by simp), rfl, by simpa using hbefore⟩
    · rename_i hbefore
      have hmark : isWord (if e.baseType.isEnum then "CUSTOM2" else "CUSTOM1") = true := by
        split <;> rfl
      exact ⟨_, _, .flat ((((hn.lit rfl).append hitem.unbroken).lit rfl).closeWord hmark)
        (List.forall_mem_singleton.2 (isTrim_advance (hn.lit rfl).unbroken)), rfl,
        by simpa using hbefore⟩
  | fillArray =>
    exact ⟨_, _, .flat (((hn.lit rfl).word hw.className).closeLit rfl) (List.forall_mem_singleton.2
      (((((opens_ofList rfl).word hw.className).lit rfl).word hw.name).closeLit rfl)), rfl,
      by simp⟩
  | varArray =>
    exact ⟨_, _, .flat (((opens_ofList rfl).word hw.className).closeLit rfl)
      (List.forall_mem_singleton.2
        (((((opens_ofList rfl).word hw.model).lit rfl).word hw.size).closeLit rfl)), rfl, by simp⟩
  | unknown => exact ⟨_, [], .flat (isTrim_ofList rfl) (by simp), rfl, by simp⟩

/-- A loop over what an object holds, with a single statement in it. -/
theorem laidOut_loop {head line body : String} (hl : line = "    " ++ body)
    (hh : isTrim head = true) (hb : isTrim body = true) :
    LaidOut (statements [head, line]) head [⟨true, body⟩] :=
  ⟨hl ▸ rfl, hh, by simpa using hb⟩

/-- The code that measures an attribute has a loop if it is an array of any kind. -/
theorem laidOut_size (hw : e.Worded s m) (h : size e = .ok code) :
    ∃ first rest, LaidOut code first rest ∧ rest.any Row.inner = e.kind.isArray := by
  obtain rfl := Except.ok.inj h
  have hnone : ∀ line ∈ ([] : List String), isTrim line = true := by simp
  cases hk : e.kind with
  | simple | sizeField | flags =>
    exact ⟨_, _, .flat ((((opens_ofList rfl).word hw.size).lit rfl).closeWord hw.name) hnone, rfl⟩
  | buffer | custom | unknown =>
    exact ⟨_, _, .flat (((opens_ofList rfl).word hw.name).closeLit rfl) hnone, rfl⟩
  | varArray =>
    exact ⟨_, _, @laidOut_loop _ _ "size += self._get_size_aligned(_)" rfl
      (((opens_ofList rfl).word hw.name).closeLit rfl) (isTrim_ofList rfl), rfl⟩
  | array | fillArray =>
    exact ⟨_, _, @laidOut_loop _ _ "size += _.get_size()" rfl
      (((opens_ofList rfl).word hw.name).closeLit rfl) (isTrim_ofList rfl), rfl⟩

theorem isWord_kind (k : Kind) : isWord k.spell = true := by
  cases k <;> rfl

theorem isTrim_ignored {name : String} (h : isWord name = true) :
    isTrim (ignored name e) = true :=
  ((((opens_ofList rfl).word h).lit rfl).closeWord (isWord_kind e.kind))

/-- The code that writes an attribute has a loop if it is an array of any kind. -/
theorem laidOut_serialize (hw : e.Worded s m) (h : serialize s m e = .ok code) :
    ∃ first rest, LaidOut code first rest ∧ rest.any Row.inner = e.kind.isArray := by
  have hnone : ∀ line ∈ ([] : List String), isTrim line = true := by simp
  have hgetter : ∀ {name}, isWord name = true → isUnbroken (getterName name) = true :=
    fun hname => ((opens_ofList rfl).word (isWord_camelToSnake hname)).unbroken
  have hself : isUnbroken ("self." ++ getterName e.name ++ "()") = true :=
    (((opens_ofList rfl).append (hgetter hw.name)).lit rfl).unbroken
  unfold serialize at h
  generalize e.kind = k at h ⊢
  cases k with
  | simple =>
    obtain rfl := Except.ok.inj h
    split
    · exact ⟨_, _, .flat (isTrim_concat (opens_toBuffer (isUnbroken_ofList rfl) hw.size).unbroken)
        hnone, rfl⟩
    · split
      · exact ⟨_, _, .flat (isTrim_ignored hw.name) hnone, rfl⟩
      · exact ⟨_, _, .flat ((opens_concat (opens_toBuffer hself hw.size).unbroken).closeLit rfl)
          hnone, rfl⟩
  | buffer =>
    obtain rfl := Except.ok.inj h
    exact ⟨_, _, .flat ((opens_concat ((opens_ofList rfl).word hw.name).unbroken).closeLit rfl)
      hnone, rfl⟩
  | sizeField =>
    obtain ⟨r, hr, h⟩ := bind_eq_ok.1 h
    obtain ⟨named, hnamed, h⟩ := bind_eq_ok.1 h
    obtain ⟨array, harray, rfl⟩ := return_eq_ok.1 h
    obtain rfl := Value.eq_text_of_joined harray
    have hlength : Opens ("len(self." ++ getterName array ++ "())") :=
      ((opens_ofList rfl).append (hgetter (hw.isWord_counted hr hnamed))).lit rfl
    exact ⟨_, _, .flat ((opens_concat (opens_toBuffer hlength.unbroken hw.size).unbroken).closeLit rfl)
      hnone, rfl⟩
  | array | fillArray | varArray =>
    obtain rfl := Except.ok.inj h
    exact ⟨_, _, laidOut_loop rfl (((opens_ofList rfl).word hw.name).closeLit rfl)
      (isTrim_concat (isUnbroken_ofList rfl)), rfl⟩
  | custom =>
    obtain rfl := Except.ok.inj h
    have hbytes : Opens ("self." ++ e.name ++ ".serialize()") :=
      ((opens_ofList rfl).word hw.name).lit rfl
    exact ⟨_, _, .flat ((opens_concat hbytes.unbroken).closeLit rfl) hnone, rfl⟩
  | flags =>
    obtain rfl := Except.ok.inj h
    have hflags : Opens (e.className ++ ".flagsToInt(" ++
        ("self." ++ getterName e.name ++ "()") ++ ")") :=
      (((opens_word hw.className).lit rfl).append hself).lit rfl
    exact ⟨_, _, .flat ((opens_concat (opens_toBuffer hflags.unbroken hw.size).unbroken).closeLit rfl)
      hnone, rfl⟩
  | unknown =>
    obtain rfl := Except.ok.inj h
    exact ⟨_, _, .flat (isTrim_ignored hw.name) hnone, rfl⟩

end PythonClass

namespace PythonTransaction
open PythonClass
variable {s : Schema} {m : ClassModel} {e : Entry} {code : String}

theorem isWord_snakeName (hw : e.Worded s m) : isWord (snakeName e) = true :=
  isWord_camelToSnake hw.name

theorem isWord_countVariable (hw : e.Worded s m) {count : String} (h : countVariable e = .ok count) :
    isWord count = true := by
  obtain ⟨size, hsize, rfl⟩ := return_eq_ok.1 h
  have hspell := hw.size
  rw [Value.eq_text_of_joined hsize] at hspell
  exact isWord_camelToSnake hspell

theorem opens_restored (hw : e.Worded s m) {value : String} (hv : isUnbroken value = true) :
    Opens (restored e value) := by
  unfold restored
  have hclass := opens_word hw.className
  split
  · exact ((hclass.lit rfl).append hv).lit rfl
  · exact ((hclass.lit rfl).append hv).lit rfl

theorem opens_loadItem (hw : e.Worded s m) : Opens (e.className ++ ".load_from_binary") :=
  (opens_word hw.className).lit rfl

theorem laidOut_loadArray (hw : e.Worded s m) (hk : e.kind = .array) (h : load s m e = .ok code) :
    ∃ first rest, LaidOut code first rest ∧ rest.any Row.inner = true := by
  have hword := isWord_snakeName hw
  obtain ⟨count, value, hcount, hvalue, rfl⟩ := loadArray_eq_ok hk h
  have hunbroken : isUnbroken value = true := by
    rcases hvalue with rfl | rfl | ⟨held, hheld, rfl⟩
    · exact isUnbroken_ofList rfl
    · exact isUnbroken_ofList rfl
    · exact ((opens_ofList rfl).word (isWord_valueName hw hheld)).unbroken
  have hfirst : isTrim (snakeName e ++ " = []  # kind:ARRAY") = true := (opens_word hword).closeLit rfl
  obtain ⟨rest, hrest, hloop⟩ := laidOut_items hfirst (isWord_countVariable hw hcount)
    (opens_loadItem hw).unbroken hword hunbroken
  exact ⟨_, rest, hrest, hloop⟩

/-- An object takes one line if it is made of what was read before. -/
theorem laidOut_loadCustom (hw : e.Worded s m) (hk : e.kind = .custom) (h : load s m e = .ok code) :
    ∃ first rest, LaidOut code first rest ∧ rest.any Row.inner = false ∧
      (rest = [] ↔ e.readBefore = true) := by
  have hword := isWord_snakeName hw
  have hn := opens_word hword
  have hitem := (opens_loadItem hw).unbroken
  obtain ⟨hbefore, held, hheld, rfl⟩ | ⟨hbefore, hlines⟩ := loadCustom_eq_ok hk h
  · exact ⟨_, [], .flat (((((((hn.lit rfl).append hitem).lit rfl).word hw.condition).lit
      rfl).word (isWord_valueName hw hheld)).closeLit rfl) (by simp), rfl, by simpa using hbefore⟩
  rcases hlines with ⟨mark, member, hmember, rfl⟩ | rfl | rfl
  · have hwords : isWord mark = true ∧ isWord member = true := by
      rcases hmember with ⟨rfl, rfl⟩ | ⟨rfl, hheld⟩
      · exact ⟨rfl, rfl⟩
      · exact ⟨rfl, isWord_valueName hw hheld⟩
    exact ⟨_, _, .flat ((((hn.lit rfl).append hitem).lit rfl).closeWord hwords.1)
      (List.forall_mem_cons.2 ⟨(((hn.lit rfl).word hword).lit rfl).closeWord hwords.2,
        List.forall_mem_singleton.2 (isTrim_advance (hn.lit rfl).unbroken)⟩), rfl, by simp [hbefore]⟩
  · exact ⟨_, _, .flat (((opens_ofList rfl).append hitem).closeLit rfl)
      (List.forall_mem_singleton.2 (isTrim_advance (isUnbroken_ofList rfl))), rfl, by simp [hbefore]⟩
  · exact ⟨_, _, .flat (((hn.lit rfl).append hitem).closeLit rfl)
      (List.forall_mem_cons.2 ⟨isTrim_advance (hn.lit rfl).unbroken,
        List.forall_mem_singleton.2 (((hn.lit rfl).word hword).closeLit rfl)⟩), rfl, by simp [hbefore]⟩

/-- The code that reads an attribute has a loop if it is an array. -/
theorem laidOut_load (hw : e.Worded s m) (h : load s m e = .ok code) :
    ∃ first rest, LaidOut code first rest ∧ rest.any Row.inner = (e.kind == .array) ∧
      (e.kind = .custom → (rest = [] ↔ e.readBefore = true)) := by
  have hword := isWord_snakeName hw
  have hn := opens_word hword
  have hadvance : ∀ {size}, isWord size = true → ∀ line ∈ [advance size], isTrim line = true :=
    fun hsize => List.forall_mem_singleton.2 (isTrim_advance (isUnbroken_of_isWord hsize))
  cases hk : e.kind with
  | array =>
    obtain ⟨first, rest, hlaid, hloop⟩ := laidOut_loadArray hw hk h
    exact ⟨first, rest, hlaid, hloop, by simp⟩
  | custom =>
    obtain ⟨first, rest, hlaid, hflat, hempty⟩ := laidOut_loadCustom hw hk h
    exact ⟨first, rest, hlaid, hflat, fun _ => hempty⟩
  | simple | sizeField =>
    simp only [load, hk] at h
    obtain rfl := Except.ok.inj h
    exact ⟨_, _, .flat (((hn.lit rfl).append (opens_fromBuffer hw.size).unbroken).closeLit rfl)
      (hadvance hw.size), rfl, by simp⟩
  | buffer =>
    simp only [load, hk] at h
    obtain ⟨count, hcount, rfl⟩ := return_eq_ok.1 h
    have hcount := isWord_countVariable hw hcount
    exact ⟨_, _, .flat (((hn.lit rfl).word hcount).closeLit rfl) (hadvance hcount), rfl, by simp⟩
  | flags =>
    simp only [load, hk] at h
    obtain rfl := Except.ok.inj h
    exact ⟨_, _, .flat (((((hn.lit rfl).word hw.className).lit rfl).word hw.size).closeLit rfl)
      (hadvance hw.size), rfl, by simp⟩
  | fillArray =>
    simp only [load, hk] at h
    obtain rfl := Except.ok.inj h
    have hload : isTrim ("bytes_ = GeneratorUtils.load_from_binary(" ++ e.className ++ ", " ++
        snakeName e ++ "_, bytes_, len(bytes_))") = true :=
      ((((opens_ofList rfl).word hw.className).lit rfl).word hword).closeLit rfl
    have hlist : isTrim (snakeName e ++ " = list(map(lambda e: e.as_tuple(), " ++ snakeName e ++
        "_))") = true := ((hn.lit rfl).word hword).closeLit rfl
    exact ⟨_, _, .flat (hn.closeLit rfl)
      (List.forall_mem_cons.2 ⟨hload, List.forall_mem_singleton.2 hlist⟩), rfl, by simp⟩
  | varArray =>
    simp only [load, hk] at h
    obtain ⟨count, hcount, rfl⟩ := return_eq_ok.1 h
    exact ⟨_, _, .flat (isTrim_ofList rfl) (List.forall_mem_singleton.2
      (((((opens_ofList rfl).word hw.model).lit rfl).word
        (isWord_countVariable hw hcount)).closeLit rfl)), rfl, by simp⟩
  | unknown =>
    simp only [load, hk] at h
    obtain rfl := Except.ok.inj h
    exact ⟨_, [], .flat (isTrim_ofList rfl) (by simp), rfl, by simp⟩

/-- The code that measures an attribute has a loop if it is an array of any kind. -/
theorem laidOut_size (hw : e.Worded s m) (h : size e = .ok code) :
    ∃ first rest, LaidOut code first rest ∧ rest.any Row.inner = e.kind.isArray := by
  have hword := isWord_snakeName hw
  have hnone : ∀ line ∈ ([] : List String), isTrim line = true := by simp
  obtain rfl := Except.ok.inj h
  cases hk : e.kind with
  | simple | sizeField | flags =>
    exact ⟨_, _, .flat ((((opens_ofList rfl).word hw.size).lit rfl).closeWord hword) hnone, rfl⟩
  | buffer => exact ⟨_, _, .flat (((opens_ofList rfl).word hword).closeLit rfl) hnone, rfl⟩
  | custom | unknown =>
    simp only
    split
    · exact ⟨_, _, .flat (isTrim_ofList rfl) hnone, rfl⟩
    · have hself : Opens ("self." ++ snakeName e) := (opens_ofList rfl).word hword
      exact ⟨_, _, .flat (((opens_ofList rfl).append
        (opens_restored hw hself.unbroken).unbroken).closeLit rfl) hnone, rfl⟩
  | varArray =>
    exact ⟨_, _, @laidOut_loop _ _ "size += self._get_size_aligned(_)" rfl
      (((opens_ofList rfl).word hword).closeLit rfl) (isTrim_ofList rfl), rfl⟩
  | array | fillArray =>
    have hitem := (opens_restored hw (show isUnbroken "_" = true from rfl)).unbroken
    have hbody : "    size += " ++ restored e "_" ++ ".get_size()" =
        "    " ++ ("size += " ++ restored e "_" ++ ".get_size()") := by
      have hopen : "    size += " = "    " ++ "size += " := rfl
      simp only [hopen, String.append_assoc]
    exact ⟨_, _, laidOut_loop hbody (((opens_ofList rfl).word hword).closeLit rfl)
      (((opens_ofList rfl).append hitem).closeLit rfl), rfl⟩

/-- Whether the code counts the bytes of the transactions inside an aggregate. -/
def countsBytes (m : ClassModel) (e : Entry) : Bool :=
  e.kind == .sizeField && isAggregateBody m && e.name == "payloadSize"

/-- The code that writes an attribute has a loop if it is an array of any kind, or if it counts bytes. -/
theorem laidOut_serialize (hw : e.Worded s m) (h : serialize s m e = .ok code) :
    ∃ first rest, LaidOut code first rest ∧
      rest.any Row.inner = (e.kind.isArray || countsBytes m e) := by
  have hword := isWord_snakeName hw
  have hself : Opens ("self." ++ snakeName e) := (opens_ofList rfl).word hword
  have hnone : ∀ line ∈ ([] : List String), isTrim line = true := by simp
  unfold serialize at h
  unfold countsBytes
  generalize e.kind = k at h ⊢
  cases k with
  | simple =>
    obtain rfl := Except.ok.inj h
    split
    · exact ⟨_, _, .flat (isTrim_concat (opens_toBuffer (isUnbroken_ofList rfl) hw.size).unbroken)
        hnone, rfl⟩
    · have hvalue : isUnbroken
          (if e.name == "size" then "self.get_size()" else "self." ++ snakeName e) = true := by
        split
        · rfl
        · exact hself.unbroken
      exact ⟨_, _, .flat ((opens_concat (opens_toBuffer hvalue hw.size).unbroken).closeLit rfl) hnone, rfl⟩
  | buffer =>
    obtain rfl := Except.ok.inj h
    exact ⟨_, _, .flat ((opens_concat hself.unbroken).closeLit rfl) hnone, rfl⟩
  | sizeField =>
    have hwrite : isTrim (concat (toBuffer "size_value" e) ++ "  # kind:SIZE_FIELD") = true :=
      (opens_concat (opens_toBuffer (isUnbroken_ofList rfl) hw.size).unbroken).closeLit rfl
    obtain ⟨counting, hcounting, rfl⟩ := return_eq_ok.1 h
    obtain ⟨r, hr, hcounting⟩ := bind_eq_ok.1 hcounting
    obtain ⟨named, hnamed, hcounting⟩ := bind_eq_ok.1 hcounting
    have hnamed := hw.isWord_counted hr hnamed
    split at hcounting
    · rename_i hbytes
      obtain rfl := Except.ok.inj hcounting
      refine ⟨"# calculate payload size", [⟨false, "size_value = 0"⟩,
        ⟨false, "for _ in self." ++ named.spell ++ ":"⟩,
        ⟨true, "size_value += self._get_size_aligned(_)"⟩,
        ⟨false, concat (toBuffer "size_value" e) ++ "  # kind:SIZE_FIELD"⟩],
        ⟨?_, isTrim_ofList rfl, ?_⟩, by simpa [Kind.isArray] using hbytes⟩
      · have hline : "    size_value += self._get_size_aligned(_)" =
            "    " ++ "size_value += self._get_size_aligned(_)" := rfl
        simp only [List.map_cons, List.map_nil, Row.line, if_true, Bool.false_eq_true, if_false, toString,
          hline, List.cons_append, List.nil_append]
      · simp only [List.forall_mem_cons, List.not_mem_nil, false_implies, implies_true, and_true]
        exact ⟨isTrim_ofList rfl, ((opens_ofList rfl).word hnamed).closeLit rfl,
          isTrim_ofList rfl, hwrite⟩
    · rename_i hbytes
      obtain ⟨array, harray, rfl⟩ := return_eq_ok.1 hcounting
      obtain rfl := Value.eq_text_of_joined harray
      exact ⟨_, _, .flat (((opens_ofList rfl).word (isWord_camelToSnake hnamed)).closeLit rfl)
        (List.forall_mem_singleton.2 hwrite), by simpa [Kind.isArray] using hbytes⟩
  | array | fillArray =>
    obtain rfl := Except.ok.inj h
    have hitem : Opens (restored e "_" ++ ".serialize()") :=
      (opens_restored hw (show isUnbroken "_" = true from rfl)).lit rfl
    exact ⟨_, _, laidOut_loop rfl (((opens_ofList rfl).append hself.unbroken).closeLit rfl)
      (isTrim_concat hitem.unbroken), rfl⟩
  | varArray =>
    obtain rfl := Except.ok.inj h
    exact ⟨_, _, laidOut_loop rfl (((opens_ofList rfl).append hself.unbroken).closeLit rfl)
      (isTrim_concat (isUnbroken_ofList rfl)), rfl⟩
  | custom =>
    obtain rfl := Except.ok.inj h
    have hvalue : Opens (if holdsBody e then "self.body" else restored e ("self." ++ snakeName e)) := by
      split
      · exact opens_ofList rfl
      · exact opens_restored hw hself.unbroken
    exact ⟨_, _, .flat ((opens_concat (hvalue.lit rfl).unbroken).closeLit rfl) hnone, rfl⟩
  | flags =>
    obtain rfl := Except.ok.inj h
    have hflags : Opens (e.className ++ ".flagsToInt(" ++ ("self." ++ snakeName e) ++ ")") :=
      (((opens_word hw.className).lit rfl).append hself.unbroken).lit rfl
    exact ⟨_, _, .flat ((opens_concat (opens_toBuffer hflags.unbroken hw.size).unbroken).closeLit rfl)
      hnone, rfl⟩
  | unknown =>
    obtain rfl := Except.ok.inj h
    exact ⟨_, _, .flat (isTrim_ignored hword) hnone, rfl⟩

end PythonTransaction

/-- The methods that go through the attributes of a class. -/
inductive Method where
  | load
  | size
  | write
  deriving DecidableEq, Repr

def Methods.parts (ms : Methods) : Method → List Part
  | .load => ms.loads
  | .size => ms.sizes
  | .write => ms.writes

namespace ClassForm
open PythonClass
variable {f : ClassForm} {s : Schema} {m : ClassModel} {e : Entry} {written : String} {method : Method}

/-- The condition of an attribute in a method. -/
def test (f : ClassForm) (s : Schema) : Method → Entry → Checked String
  | .load => f.loadTest s
  | .size | .write => f.heldTest s

/-- The code for an attribute in a method. -/
def code (f : ClassForm) (s : Schema) (m : ClassModel) : Method → Entry → Checked String
  | .load => f.load s m
  | .size => f.size s
  | .write => f.write s m

/-- The lines of a part in a method. -/
def lines (f : ClassForm) : Method → Part → List String
  | .load => f.loadLines
  | .size => f.sizeLines
  | .write => f.writeLines

/-- What stands in front of a condition. What is not read without it is unset. -/
def unset (f : ClassForm) : Method → Entry → List String
  | .load => fun e => [(if f == .transaction then PythonTransaction.snakeName e else e.name) ++ " = None"]
  | .size | .write => fun _ => []

/-- Whether the code for an attribute has a loop. -/
def loops (f : ClassForm) (m : ClassModel) (e : Entry) : Method → Bool
  | .load => e.kind == .array
  | .size => e.kind.isArray
  | .write => e.kind.isArray || f == .transaction && PythonTransaction.countsBytes m e

/-- Whether an attribute is made from bytes that were read before, for its condition. -/
def rereads (e : Entry) : Method → Bool
  | .load => e.kind == .custom && e.readBefore
  | .size | .write => false

theorem laidOut_code (hf : f = .python ∨ f = .transaction) (hw : e.Worded s m)
    (h : f.code s m method e = .ok written) :
    ∃ first rest, LaidOut written first rest ∧ rest.any Row.inner = f.loops m e method ∧
      (method = .load → e.kind = .custom → (rest = [] ↔ e.readBefore = true)) := by
  rcases hf with rfl | rfl
  · cases method with
    | load =>
      obtain ⟨first, rest, hlaid, hloops, hcustom⟩ := PythonClass.laidOut_load hw h
      exact ⟨first, rest, hlaid, hloops, fun _ => hcustom⟩
    | size =>
      obtain ⟨first, rest, hlaid, hloops⟩ := PythonClass.laidOut_size hw h
      exact ⟨first, rest, hlaid, hloops, by simp⟩
    | write =>
      have hform : (ClassForm.python == .transaction) = false := rfl
      obtain ⟨first, rest, hlaid, hloops⟩ := PythonClass.laidOut_serialize hw h
      exact ⟨first, rest, hlaid, by simpa [loops, hform] using hloops, by simp⟩
  · cases method with
    | load =>
      obtain ⟨first, rest, hlaid, hloops, hcustom⟩ := PythonTransaction.laidOut_load hw h
      exact ⟨first, rest, hlaid, hloops, fun _ => hcustom⟩
    | size =>
      obtain ⟨first, rest, hlaid, hloops⟩ := PythonTransaction.laidOut_size hw h
      exact ⟨first, rest, hlaid, hloops, by simp⟩
    | write =>
      obtain ⟨first, rest, hlaid, hloops⟩ := PythonTransaction.laidOut_serialize hw h
      exact ⟨first, rest, hlaid, by simpa [loops] using hloops, by simp⟩

theorem worded_freed (hw : e.Worded s m) : e.freed.Worded s m :=
  ⟨hw.name, hw.className, hw.varType, hw.size, hw.model, hw.condition, hw.type, hw.counted⟩

/-- The code depends on the condition only where the attribute is made from other bytes. -/
theorem code_freed (hf : f = .python ∨ f = .transaction) (hr : rereads e method = false) :
    f.code s m method e.freed = f.code s m method e := by
  have hload : method = .load → e.kind = .custom → e.readBefore = false := by
    rintro rfl hk
    simpa [rereads, hk] using hr
  obtain ⟨member, isSuper, aggregateName, aggregateClass, isInline, parent, conditionSite,
    conditionValue, isProvided, readBefore⟩ := e
  cases member with
  | mk site kind name comment baseType varType isFinal className size isConditional =>
    rcases hf with rfl | rfl
    · cases method with
      | load =>
        cases kind with
        | custom =>
          obtain rfl : readBefore = false := hload rfl rfl
          rfl
        | _ => rfl
      | size => rfl
      | write => rfl
    · cases method with
      | load =>
        cases kind with
        | custom =>
          obtain rfl : readBefore = false := hload rfl rfl
          rfl
        | _ => rfl
      | size => rfl
      | write => rfl

/-- Without its condition the attribute has a code too. -/
theorem exists_code_freed (hf : f = .python ∨ f = .transaction)
    (h : f.code s m method e = .ok written) : ∃ free, f.code s m method e.freed = .ok free := by
  cases hr : rereads e method with
  | false => exact ⟨written, (code_freed hf hr).trans h⟩
  | true =>
    cases method with
    | load =>
      simp only [rereads, Bool.and_eq_true, beq_iff_eq] at hr
      rcases hf with rfl | rfl
      · exact ⟨_, rfl⟩
      · have hkind : e.freed.kind = .custom := hr.1
        have hbefore : e.freed.readBefore = false := rfl
        have hname : valueName s e.freed = valueName s e := rfl
        change PythonTransaction.load s m e = .ok written at h
        simp only [PythonTransaction.load, hr.1, hr.2, if_true] at h
        obtain ⟨held, hheld, -⟩ := bind_eq_ok.1 h
        change ∃ free, PythonTransaction.load s m e.freed = .ok free
        simp only [PythonTransaction.load, hkind, hbefore, Bool.false_eq_true, if_false, hname, hheld,
          ok_bind]
        split
        · exact ⟨_, rfl⟩
        · split
          · exact ⟨_, rfl⟩
          · split <;> exact ⟨_, rfl⟩
    | size => cases hr
    | write => cases hr

/-- The lines under the condition are those without it, moved to the right, exactly if the code has no loop
and does not depend on the condition. -/
theorem movedRight_iff (hf : f = .python ∨ f = .transaction) (hw : e.Worded s m)
    (h : f.code s m method e = .ok written) {free : String} (hfree : f.code s m method e.freed = .ok free) :
    MovedRight (freeBlock free) (guardedBlock written) ↔
      f.loops m e method = false ∧ rereads e method = false := by
  obtain ⟨first, rest, hlaid, hloops, hcustom⟩ := laidOut_code hf hw h
  cases hr : rereads e method with
  | false =>
    obtain rfl : written = free := Except.ok.inj (h.symm.trans ((code_freed hf hr).symm.trans hfree))
    rw [hlaid.movedRight_iff, hloops]
    simp
  | true =>
    -- what is made from bytes that were read before has one line, and otherwise there are more
    obtain ⟨first', rest', hlaid', -, hcustom'⟩ := laidOut_code hf (worded_freed hw) hfree
    cases method with
    | load =>
      simp only [rereads, Bool.and_eq_true, beq_iff_eq] at hr
      obtain rfl := (hcustom rfl hr.1).2 hr.2
      have hmore : rest' ≠ [] := by
        intro hnone
        cases (hcustom' rfl hr.1).1 hnone
      simp only [Bool.true_eq_false, and_false, iff_false]
      intro hmoved
      have hlength := hmoved.length_eq
      rw [hlaid.guardedBlock_eq, hlaid'.freeBlock_eq] at hlength
      exact hmore (by simpa using hlength)
    | size => cases hr
    | write => cases hr

theorem lines_eq (hf : f = .python ∨ f = .transaction) (method : Method) :
    f.lines method = inMethod (f.unset method) := by
  rcases hf with rfl | rfl <;> cases method <;> rfl

theorem isPart_of_methods {ms : Methods} (h : f.methods s m = .ok ms) (method : Method) :
    ∃ entries, (∀ e, e ∈ entries ↔ e ∈ m.own) ∧
      List.Forall₂ (IsPart (f.test s method) (f.code s m method)) entries (ms.parts method) := by
  obtain ⟨-, hloads, hsizes, hwrites⟩ := methods_eq_ok.1 h
  cases method with
  | load =>
    refine ⟨_, ?_, isPart_of_readingParts hloads⟩
    intro e
    cases hb : e.readBefore <;> simp [hb]
  | size => exact ⟨m.own, fun e => Iff.rfl, isPart_of_parts hsizes⟩
  | write => exact ⟨m.own, fun e => Iff.rfl, isPart_of_parts hwrites⟩

theorem isPart_of_mem {condition code : Entry → Checked String} {entries : List Entry} {ps : List Part}
    (h : List.Forall₂ (IsPart condition code) entries ps) {p : Part} (hp : p ∈ ps) :
    IsPart condition code p.entry p := by
  induction h with
  | nil => cases hp
  | cons hq _ ih =>
    rcases List.mem_cons.1 hp with rfl | hp
    · obtain rfl := hq.entry
      exact hq
    · exact ih hp

/-- The lines of a part in a method: behind its condition they all stand at one depth. So its code is only
moved to the right exactly if there is no loop in it. It is then also the code of the attribute without its
condition, unless it is made from bytes that were read before. -/
def Flattens (f : ClassForm) (s : Schema) (m : ClassModel) (method : Method) (p : Part) : Prop :=
  ∃ free test block, partOf (f.test s method) (f.code s m method) p.entry.freed = .ok free ∧
    p.guard = some test ∧
    f.lines method p = (f.unset method p.entry).map ("        " ++ ·) ++
      ("        if " ++ test ++ ":") :: block ∧
    (∀ line ∈ block, ∃ text, Text.isTrim text = true ∧ line = "            " ++ text) ∧
    (MovedRight (freeBlock p.code) block ↔ f.loops m p.entry method = false) ∧
    (MovedRight ((f.lines method free).flatMap Text.lines) block ↔
      f.loops m p.entry method = false ∧ rereads p.entry method = false)

theorem flattens_of_isPart (hf : f = .python ∨ f = .transaction) (hw : e.Worded s m)
    (hc : e.isConditional = true) {p : Part} (hp : IsPart (f.test s method) (f.code s m method) e p) :
    f.Flattens s m method p := by
  obtain ⟨rfl, hcode, hguard⟩ := hp
  rw [if_pos hc] at hguard
  obtain ⟨test, -, hguard⟩ := hguard
  obtain ⟨code, hfree⟩ := exists_code_freed hf hcode
  have hlines := lines_eq hf method
  obtain ⟨first, rest, hlaid, hloops, -⟩ := laidOut_code hf hw hcode
  refine ⟨⟨p.entry.freed, none, code⟩, test, guardedBlock p.code, ?_, hguard, ?_, ?_, ?_, ?_⟩
  · simp only [Source.partOf, hfree]
    rfl
  · simp only [hlines, inMethod, hguard, toString, List.append_assoc, List.cons_append, List.nil_append,
      guardedBlock]
  · rw [hlaid.guardedBlock_eq]
    intro line hline
    rcases List.mem_cons.1 hline with rfl | hline
    · exact ⟨first, hlaid.first, rfl⟩
    · obtain ⟨r, hr, rfl⟩ := List.mem_map.1 hline
      exact ⟨r.text, hlaid.rest r hr, rfl⟩
  · rw [hlaid.movedRight_iff, hloops]
  · rw [hlines]
    simpa [inMethod, freeBlock] using movedRight_iff hf hw hcode hfree

end ClassForm

namespace ClassModel
open ClassForm
variable {s : Schema} {m : ClassModel}

/-- In each of the three methods of a Python class, what stands under the condition of an attribute is what
the attribute has without it, moved to the right, exactly if there is no loop in it. -/
theorem guarded_block_moved_iff {code : String} (h : m.source .python s = .ok code) :
    ∃ ms, (ClassForm.of .python m).Shows m ms code ∧
      ∀ e ∈ m.own, e.isConditional = true → e.Worded s m → ∀ method,
        (∃ p ∈ ms.parts method, p.entry = e) ∧
        ∀ p ∈ ms.parts method, p.entry = e → (ClassForm.of .python m).Flattens s m method p := by
  have hf : ClassForm.of .python m = .python ∨ ClassForm.of .python m = .transaction := by
    simp only [ClassForm.of]
    split <;> simp
  obtain ⟨ms, hms, hshows⟩ := shows_of_source h
  refine ⟨ms, hshows, ?_⟩
  intro e he hc hw method
  obtain ⟨entries, hentries, hparts⟩ := isPart_of_methods hms method
  obtain ⟨-, -, hfound, -⟩ := codes_of_isPart hparts ((hentries e).2 he)
  refine ⟨hfound, ?_⟩
  rintro p hp rfl
  exact flattens_of_isPart hf hw hc (isPart_of_mem hparts hp)

/-- A structure with an array under a condition. -/
def listedSchema : Schema := ⟨[
  ("Amount", .table [("type", "byte"), ("size", .int 8)]),
  ("LeaseFlags", .table [("type", "enum"), ("size", .int 1), ("values", .list [
    .table [("name", "paid"), ("value", .int 1)]])]),
  ("Lease", .table [("type", "struct"), ("layout", .list [
    .table [("name", "flags"), ("type", "LeaseFlags")],
    .table [("name", "amountCount"), ("type", "byte"), ("size", .int 1)],
    .table [("name", "amounts"), ("type", "Amount"), ("size", "amountCount"), ("condition", "flags"),
      ("condition_operation", "has"), ("condition_value", "paid")]])])]⟩

theorem guarded_block_moved_iff_amounts : ∃ m code ms,
    rendered .python listedSchema "Lease" = .ok (m, code) ∧ ClassForm.python.Shows m ms code ∧
    ∃ p ∈ ms.loads, p.entry.name = "amounts" ∧ p.entry.isConditional = true ∧
      p.entry.Worded listedSchema m ∧ ∃ free block,
        partOf (ClassForm.python.loadTest listedSchema) (ClassForm.python.load listedSchema m)
          p.entry.freed = .ok free ∧
        (∃ before, ClassForm.python.loadLines p = before ++ block) ∧
        ¬ PythonClass.MovedRight ((ClassForm.python.loadLines free).flatMap Text.lines) block := by
  obtain ⟨⟨m, code⟩, hp⟩ : ∃ p, rendered .python listedSchema "Lease" = .ok p :=
    Checked.exists_ok (by decide +kernel)
  have hfacts : (rendered .python listedSchema "Lease").toOption.map (fun p => (p.1.name,
      p.1.own.getLast?.map fun e =>
        (e.name, e.kind, e.isConditional, decide (e.Worded listedSchema p.1)))) =
      some ("Lease", some ("amounts", .array, true, true)) := by
    decide +kernel
  rw [hp, Checked.toOption_ok, Option.map_some, Option.some.injEq, Prod.mk.injEq] at hfacts
  obtain ⟨hmodel, hlast⟩ := hfacts
  obtain ⟨e, he, hentry⟩ := Option.map_eq_some_iff.1 hlast
  simp only [Prod.mk.injEq, decide_eq_true_eq] at hmodel hentry
  obtain ⟨hname, hkind, hc, hw⟩ := hentry
  have hform : ClassForm.of .python m = .python := by
    simp only [ClassForm.of, hmodel]
    rfl
  obtain ⟨ms, hshows, hall⟩ := guarded_block_moved_iff (rendered_eq_ok hp).2
  obtain ⟨⟨p, hpart, rfl⟩, hflat⟩ := hall e (List.mem_of_getLast? he) hc hw .load
  obtain ⟨free, test, block, hfree, -, hlines, -, -, hmoved⟩ := hflat p hpart rfl
  rw [hform] at hshows hfree hlines hmoved
  refine ⟨m, code, ms, hp, hshows, p, hpart, hname, hc, hw, free, block, hfree,
    ⟨_, hlines.trans (List.append_cons _ _ _)⟩, ?_⟩
  intro hright
  obtain ⟨hloops, -⟩ := hmoved.1 hright
  simp [ClassForm.loops, hkind] at hloops

end ClassModel
end SchemaForge
