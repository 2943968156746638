import SchemaForge.Proofs.BuilderSuccess

/-! The two files of a builder. The header declares a setter and a member for the fields of the body,
and the implementation defines and initialises the same ones in the same order. -/
namespace SchemaForge
open Checked
namespace Builder

/-- A field as the files of a builder show it. -/
structure Shown where
  field : Value
  kind : FieldKind
  name : String
  /-- The type of the member that holds the field. -/
  type : String
  /-- The setter with its signature, unless a hint gives the value of the field. -/
  setter : Option (Setter × String)

def shownSetter (b : Builder) (kind : FieldKind) (v : Value) :
    Checked (Option (Setter × String)) := do
  if (← b.hints.entry "setters" (← v.need "name")).isEmpty then
    let setter ← b.setter kind v
    return some (setter, ← signature setter.verb setter.type setter.param)
  else return none

def shown (b : Builder) (v : Value) : Checked Shown := do
  let name ← (← v.need "name").asText
  let kind ← v.fieldKind
  let type ← b.memberType v
  return { field := v, kind, name, type, setter := ← b.shownSetter kind v }

/-- The fields that the builder has, in the order of the layout. -/
def shownFields (b : Builder) : Checked (List Shown) := do
  ((← b.fields).filter hasField).mapM b.shown

namespace Shown

/-- The line that declares the member. -/
def member (m : Shown) : String := "\t\t" ++ m.type ++ " m_" ++ m.name ++ ";"

/-- The line that initialises the member. -/
def initialiser (m : Shown) : String := "\t\t\t, m_" ++ m.name ++ "()"

/-- What is written for the setter of a field, if it has one. -/
def Writes (form : Value → String → List String → Prop) (m : Shown) (lines : List String) : Prop :=
  match m.setter with
  | none => lines = []
  | some (_, signature) => form m.field signature lines

/-- A setter takes the type of the member that holds the field, or the type of its elements. -/
def Fits (m : Shown) : Prop :=
  match m.kind with
  | .simple => ∀ s ∈ m.setter, Passes s.1.type m.type
  | .vector => ∃ held, m.type = "std::vector<" ++ held ++ ">" ∧
      ∀ s ∈ m.setter, Passes s.1.type held
  | _ => True

end Shown

variable {b : Builder} {v : Value} {m : Shown}

theorem shownSetter_eq_some {kind : FieldKind} {setter : Setter} {text : String}
    (h : b.shownSetter kind v = .ok (some (setter, text))) :
    b.setter kind v = .ok setter ∧ signature setter.verb setter.type setter.param = .ok text := by
  obtain ⟨name, -, h⟩ := bind_eq_ok.1 h
  obtain ⟨hint, -, h⟩ := bind_eq_ok.1 h
  split at h
  · obtain ⟨found, hfound, h⟩ := bind_eq_ok.1 h
    obtain ⟨written, hwritten, h⟩ := bind_eq_ok.1 h
    obtain ⟨rfl, rfl⟩ : found = setter ∧ written = text := by simpa using h
    exact ⟨hfound, hwritten⟩
  · simp at h

theorem shown_eq_ok : b.shown v = .ok m ↔ m.field = v ∧ v.need "name" = .ok (.text m.name) ∧
    v.fieldKind = .ok m.kind ∧ b.memberType v = .ok m.type ∧
      b.shownSetter m.kind v = .ok m.setter := by
  constructor
  · intro h
    obtain ⟨named, hnamed, h⟩ := bind_eq_ok.1 h
    obtain ⟨name, hname, h⟩ := bind_eq_ok.1 h
    obtain ⟨kind, hkind, h⟩ := bind_eq_ok.1 h
    obtain ⟨type, htype, h⟩ := bind_eq_ok.1 h
    obtain ⟨setter, hsetter, rfl⟩ := return_eq_ok.1 h
    obtain rfl := Value.eq_text_of_asText hname
    exact ⟨rfl, hnamed, hkind, htype, hsetter⟩
  · rintro ⟨rfl, hname, hkind, htype, hsetter⟩
    simp [shown, hname, hkind, htype, hsetter]

/-- A setter takes what the member of its field holds. -/
theorem fits_of_shown (hb : Hints.isRegular b.transaction b.hints = true) (h : b.shown v = .ok m) :
    m.Fits := by
  obtain ⟨-, hname, hkind, htype, hsetter⟩ := shown_eq_ok.1 h
  obtain ⟨kind, held, hkind', hheld, hcases⟩ := memberType_eq_ok htype
  obtain rfl := Except.ok.inj (hkind.symm.trans hkind')
  have hpasses : m.kind = .simple ∨ m.kind = .vector → ∀ s ∈ m.setter, Passes s.1.type held := by
    rintro hk ⟨setter, text⟩ hs
    rw [Option.mem_def.1 hs] at hsetter
    rcases setter_eq_ok hname (shownSetter_eq_some hsetter).1 with
      ⟨-, ht, -⟩ | ⟨hbuffer, -⟩ | ⟨-, ht, -⟩
    · exact passes_of_heldType hb hheld ht
    · simp [hbuffer] at hk
    · exact passes_of_heldType hb hheld ht
  unfold Shown.Fits
  rcases hcases with ⟨hk, rfl⟩ | ⟨hk, -⟩ | ⟨hk, hvector⟩
  · rw [hk]
    exact hpasses (.inl hk)
  · rw [hk]
    trivial
  · rw [hk]
    exact ⟨held, hvector, hpasses (.inr hk)⟩

/-- What is written for the setter of a field, before it is known what the files show of it. -/
def SetterLines (b : Builder) (form : Value → String → List String → Prop) (v : Value)
    (lines : List String) : Prop :=
  ∃ setter, (∀ kind, v.fieldKind = .ok kind → b.shownSetter kind v = .ok setter) ∧
    match setter with
    | none => lines = []
    | some (_, signature) => form v signature lines

theorem writes_of_setterLines {form : Value → String → List String → Prop} {lines : List String}
    (h : b.SetterLines form v lines) (hm : b.shown v = .ok m) : m.Writes form lines := by
  obtain ⟨hfield, -, hkind, -, hsetter⟩ := shown_eq_ok.1 hm
  obtain ⟨setter, hs, hlines⟩ := h
  obtain rfl := Except.ok.inj ((hs _ hkind).symm.trans hsetter)
  unfold Shown.Writes
  rw [hfield]
  exact hlines

theorem adds_forSetters {depth : Nat} {step : FieldKind → Value → Setter → String → Writing Unit}
    {form : Value → String → List String → Prop}
    (h : ∀ fields, b.fields = .ok fields → ∀ v ∈ fields, ∀ name kind setter text,
      v.need "name" = .ok (.text name) → b.setter kind v = .ok setter →
        signature setter.verb setter.type setter.param = .ok text →
          Adds depth (step kind v setter text) (form v text)) :
    Adds depth (b.forSetters step) (b.FieldLines (b.SetterLines form)) := by
  apply adds_forFields
  intro fields hfields v hv name hname
  apply Adds.lift
  intro named hnamed
  apply Adds.lift
  intro hint hhint
  split
  · rename_i hempty
    apply Adds.lift
    intro kind hkind
    apply Adds.lift
    intro setter hsetter
    apply Adds.lift
    intro text htext
    apply (h fields hfields v hv name kind setter text hname hsetter htext).mono
    intro lines hlines
    refine ⟨some (setter, text), ?_, hlines⟩
    intro kind' hkind'
    obtain rfl := Except.ok.inj (hkind.symm.trans hkind')
    simp [shownSetter, hnamed, hhint, hempty, hsetter, htext]
  · rename_i hempty
    apply Adds.nothing.mono
    rintro _ rfl
    exact ⟨none, fun kind _ => by simp [shownSetter, hnamed, hhint, hempty], rfl⟩

/-- The names and the types of the fields have neither braces nor line breaks. -/
def PlainNames (b : Builder) : Prop :=
  ∀ fields, b.fields = .ok fields → ∀ v ∈ fields, v.PlainNamed

theorem adds_headerSetters (hb : Hints.isRegular b.transaction b.hints = true) (hp : b.PlainNames) :
    Adds 1 b.headerSetters fun lines => ∃ declared,
      b.FieldLines (b.SetterLines Declaration) declared ∧ lines = "\tpublic:" :: declared := by
  have hopen : Adds 1 (b.write "public:") (· = ["\tpublic:"]) := adds_write_plain rfl (by decide)
  have hsetters : Adds 1 (deeper 1 (b.forSetters b.headerSetter))
      (b.FieldLines (b.SetterLines Declaration)) := by
    apply Adds.deeper
    apply adds_forSetters
    intro fields hf v hv name kind setter text hn hs ht
    have hplain := isPlain_signature hb (hp fields hf v hv) hn hs ht
    exact adds_headerSetter hplain.1 hplain.2
  apply (hopen.seq hsetters).mono
  rintro _ ⟨_, declared, rfl, hdeclared, rfl⟩
  exact ⟨declared, hdeclared, rfl⟩

theorem adds_codeSetters (hb : Hints.isRegular b.transaction b.hints = true) (hp : b.PlainNames) :
    Adds 1 b.codeSetters (b.FieldLines (b.SetterLines (Definition b.name))) := by
  apply adds_forSetters
  intro fields hf v hv name kind setter text hn hs ht
  exact adds_codeSetter (isPlain_signature hb (hp fields hf v hv) hn hs ht).1

theorem adds_headerMembers (hb : Hints.isRegular b.transaction b.hints = true) (hp : b.PlainNames) :
    Adds 1 b.headerMembers fun lines => ∃ members,
      b.FieldLines b.Member members ∧ lines = "\tprivate:" :: members := by
  have hopen : Adds 1 (b.write "private:") (· = ["\tprivate:"]) := adds_write_plain rfl (by decide)
  have hmembers : Adds 1 (deeper 1 (b.forFields b.headerMember)) (b.FieldLines b.Member) := by
    apply Adds.deeper
    apply adds_forFields
    intro fields hf v hv name hn
    exact adds_headerMember hb (hp fields hf v hv) hn
  apply (hopen.seq hmembers).mono
  rintro _ ⟨_, members, rfl, hmembers, rfl⟩
  exact ⟨members, hmembers, rfl⟩

/-- The constructor: a line that names it, the members, and an empty block. -/
theorem adds_codeConstructor (hb : Hints.isRegular b.transaction b.hints = true)
    (hp : b.PlainNames) :
    Adds 1 b.codeConstructor fun lines => ∃ front members, Each (fun line => !isVoid 1 line) front ∧
      b.FieldLines Initialiser members ∧
      lines = front ++ "\t\t\t: TransactionBuilder(networkIdentifier, signer)" :: members ++
        ["\t\x7b\x7d", ""] := by
  have hbase : Adds 3 (b.write ": TransactionBuilder(networkIdentifier, signer)")
      (· = ["\t\t\t: TransactionBuilder(networkIdentifier, signer)"]) :=
    adds_write_plain rfl (by decide)
  have hmembers : Adds 3 (b.forFields b.codeMember) (b.FieldLines Initialiser) := by
    apply adds_forFields
    intro fields hf v hv name hn
    exact adds_codeMember (hp fields hf v hv) hn
  have hblock : b.filled "\x7b\x7b\x7d\x7d" = .ok "\x7b\x7d" := by
    have hline : "\x7b\x7b\x7d\x7d" = "\x7b\x7b" ++ ("\x7d\x7d" ++ "") := rfl
    rw [hline, filled, Text.fill_open, Text.fill_close, Text.fill_of_isPlain rfl]
    rfl
  have hend : Adds 1 (b.writeAll ["\x7b\x7b\x7d\x7d", ""]) (· = ["\t\x7b\x7d", ""]) :=
    adds_writeAll_cons (adds_write_line rfl (by decide) hblock)
      (adds_writeAll_cons adds_write_empty Adds.nothing)
  have hfront : Adds 1 (b.write ("\x7bBUILDER_NAME\x7d::\x7bBUILDER_NAME\x7d(" ++
      "model::NetworkIdentifier networkIdentifier, const Key& signer)"))
      (Each fun line => !isVoid 1 line) := each_write_fixed hb (by decide +kernel)
  apply (hfront.seq ((Adds.deeper (hbase.seq hmembers)).seq hend)).mono
  rintro _ ⟨front, _, hfront, ⟨_, _, ⟨_, members, rfl, hmembers, rfl⟩, rfl, rfl⟩, rfl⟩
  exact ⟨front, members, hfront, hmembers, by simp⟩

/-- A header: its setters in the second section for everyone, its members at the end. -/
def HeaderShows (opening : List String) (shown : List Shown) (code : List String) : Prop :=
  ∃ front declared middle,
    code = opening ++ front ++ "\tpublic:" :: declared.flatten ++ middle ++
      "\tprivate:" :: shown.map Shown.member ++ ["\t\x7d;", "\x7d\x7d"] ∧
    List.Forall₂ (Shown.Writes Declaration) shown declared ∧
    Each (fun line => !isVoid 2 line) (front ++ middle)

/-- An implementation: its members in the constructor, and its setters behind that. -/
def CodeShows (builder : String) (opening : List String) (shown : List Shown)
    (code : List String) : Prop :=
  ∃ front defined rest,
    code = opening ++ front ++ "\t\t\t: TransactionBuilder(networkIdentifier, signer)" ::
      shown.map Shown.initialiser ++ ["\t\x7b\x7d", ""] ++ defined.flatten ++ rest ∧
    List.Forall₂ (Shown.Writes (Definition builder)) shown defined ∧
    Each (fun line => !isVoid 1 line) (front ++ rest)

theorem shown_of_lines {built : List Value} {declared members : List (List String)}
    (hs : List.Forall₂ (b.SetterLines Declaration) built declared)
    (hm : List.Forall₂ b.Member built members) :
    ∃ shown, built.mapM b.shown = .ok shown ∧
      List.Forall₂ (Shown.Writes Declaration) shown declared ∧
        members.flatten = shown.map Shown.member := by
  induction hs generalizing members with
  | nil =>
    cases hm
    exact ⟨[], rfl, .nil, rfl⟩
  | @cons v lines built declared hv _ ih =>
    cases hm with
    | cons hmember hrest =>
      obtain ⟨shown, hshown, hdeclared, hmembers⟩ := ih hrest
      obtain ⟨name, type, hname, htype, rfl⟩ := hmember
      obtain ⟨kind, held, hkind, -⟩ := memberType_eq_ok htype
      obtain ⟨setter, hsetter, -⟩ := id hv
      have hm : b.shown v = .ok { field := v, kind, name, type, setter } :=
        shown_eq_ok.2 ⟨rfl, hname, hkind, htype, hsetter kind hkind⟩
      refine ⟨_ :: shown, ?_, .cons (writes_of_setterLines hv hm) hdeclared, ?_⟩
      · rw [List.mapM_cons, hm, hshown]
        rfl
      · simp [hmembers, Shown.member]

theorem shown_of_code {built : List Value} {shown : List Shown} {defined members : List (List String)}
    (h : built.mapM b.shown = .ok shown)
    (hs : List.Forall₂ (b.SetterLines (Definition b.name)) built defined)
    (hm : List.Forall₂ Initialiser built members) :
    List.Forall₂ (Shown.Writes (Definition b.name)) shown defined ∧
      members.flatten = shown.map Shown.initialiser := by
  induction hs generalizing shown members with
  | nil =>
    cases hm
    obtain rfl : [] = shown := Except.ok.inj h
    exact ⟨.nil, rfl⟩
  | @cons v lines built defined hv _ ih =>
    rw [List.mapM_cons] at h
    obtain ⟨m, hmv, h⟩ := bind_eq_ok.1 h
    obtain ⟨rest, hrest, rfl⟩ := return_eq_ok.1 h
    cases hm with
    | cons hmember hmembers =>
      obtain ⟨hdefined, hflat⟩ := ih hrest hmembers
      obtain ⟨name, hname, rfl⟩ := hmember
      obtain ⟨-, hname', -⟩ := shown_eq_ok.1 hmv
      obtain rfl : m.name = name := by simpa using hname'.symm.trans hname
      exact ⟨.cons (writes_of_setterLines hv hmv) hdefined, by simp [hflat, Shown.initialiser]⟩

theorem header_shows (hb : Hints.isRegular b.transaction b.hints = true) (hp : b.PlainNames)
    {opening : List String} {sheet : Sheet}
    (h : runOn (header b) { code := opening } = (.ok (), sheet)) :
    ∃ shown, b.shownFields = .ok shown ∧ HeaderShows opening shown sheet.code := by
  have hend : Adds 1 (b.write "\x7d\x7d;") (· = ["\t\x7d;"]) := by
    have hline : b.filled "\x7d\x7d;" = .ok "\x7d;" := by
      have hparts : "\x7d\x7d;" = "\x7d\x7d" ++ ";" := rfl
      rw [hparts, filled, Text.fill_close, Text.fill_of_isPlain rfl]
      rfl
    exact adds_write_line rfl (by decide) hline
  obtain ⟨includes, front, _, builds, _, _, hi, hf, ⟨_, ⟨fields, declared, hfields, hd, rfl⟩, rfl⟩, hbuilds,
    ⟨_, ⟨fields', members, hfields', hm, rfl⟩, rfl⟩, rfl, hcode⟩ :=
    runOn_sections h (each_headerIncludes hb) (each_headerClass hb) (adds_headerSetters hb hp)
      (each_headerBuilds hb) (adds_headerMembers hb hp) hend
  obtain rfl := Except.ok.inj (hfields.symm.trans hfields')
  obtain ⟨shown, hshown, hdeclared, hmembers⟩ := shown_of_lines hd hm
  refine ⟨shown, ?_, includes ++ ["namespace catapult \x7b namespace builders \x7b", ""] ++ front,
    declared, builds, ?_, hdeclared, ?_⟩
  · rw [shownFields, hfields]
    exact hshown
  · rw [hcode, hmembers]
    simp
  · simp only [each_append]
    exact ⟨⟨⟨hi, by decide⟩, hf⟩, hbuilds⟩

theorem code_shows (hb : Hints.isRegular b.transaction b.hints = true) (hp : b.PlainNames)
    {shown : List Shown} (hs : b.shownFields = .ok shown) {opening : List String} {sheet : Sheet}
    (h : runOn (implementation b) { code := opening } = (.ok (), sheet)) :
    CodeShows b.name opening shown sheet.code := by
  have htypes : Adds 1 b.codeMemberTypes (Each fun line => !isVoid 1 line) := by
    apply each_forFields
    intro v
    apply (Adds.discard _).mono
    rintro _ rfl
    decide
  obtain ⟨includes, _, _, builds, types, _, hi, ⟨front, _, hf, ⟨fields, members, hfields, hm, rfl⟩, rfl⟩,
    ⟨fields', defined, hfields', hd, rfl⟩, hbuilds, htypes, rfl, hcode⟩ :=
    runOn_sections h (each_codeIncludes hb) (adds_codeConstructor hb hp) (adds_codeSetters hb hp)
      (each_codeBuilds hb) htypes Adds.nothing
  obtain rfl := Except.ok.inj (hfields.symm.trans hfields')
  rw [shownFields, hfields] at hs
  obtain ⟨hdefined, hmembers⟩ := shown_of_code hs hd hm
  refine ⟨includes ++ ["namespace catapult \x7b namespace builders \x7b", ""] ++ front, defined,
    builds ++ types ++ ["\x7d\x7d"], ?_, hdefined, ?_⟩
  · rw [hcode, hmembers]
    simp
  · simp only [each_append]
    exact ⟨⟨⟨hi, by decide⟩, hf⟩, ⟨hbuilds, htypes⟩, by decide⟩

/-- A body whose first field depends on the second one. That one has no setter of its own, since a hint
gives its value. -/
def registration : Schema := ⟨[
  ("NamespaceRegistrationType", .table [("type", "enum"), ("size", .int 1)]),
  ("NamespaceRegistrationTransactionBody", .table [("type", "struct"), ("layout", .list [
    .table [("name", "duration"), ("type", "byte"), ("size", .int 8), ("signedness", "unsigned"),
      ("comments", "duration"), ("condition", "registrationType"), ("condition_value", "root")],
    .table [("name", "registrationType"), ("type", "NamespaceRegistrationType"),
      ("comments", "type")]])]),
  ("NamespaceRegistrationTransaction", .table [("type", "struct"), ("layout", .list [])])]⟩

theorem exists_ready_registration : ∃ b fields,
    ofTransaction registration "NamespaceRegistrationTransaction" = .ok b ∧ Ready b fields ∧
      ∀ v ∈ fixedPart fields, isCounting v = true → isCountable fields v = true := by
  obtain ⟨b, hb, hready⟩ := @exists_ready registration "NamespaceRegistrationTransaction" _ _
    (by decide +kernel) (by decide +kernel) rfl rfl (by decide +kernel)
  exact ⟨b, _, hb, hready, by decide +kernel⟩

theorem exists_header_registration :
    ∃ h, headerFile registration .absent "NamespaceRegistrationTransaction" = .ok h := by
  obtain ⟨b, fields, hb, hready, -⟩ := exists_ready_registration
  exact (fileOf_iff hb rfl (writes_header hready)).2 trivial

theorem exists_code_registration :
    ∃ c, codeFile registration .absent "NamespaceRegistrationTransaction" = .ok c := by
  obtain ⟨b, fields, hb, hready, hcounts⟩ := exists_ready_registration
  exact (fileOf_iff hb rfl (writesIff_implementation hready)).2 hcounts

end Builder
end SchemaForge
