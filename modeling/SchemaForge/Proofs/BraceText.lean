import SchemaForge.Proofs.UpFront

/-! Getters and factories in the text of a class whose code stands in braces. -/
namespace SchemaForge
open Source ClassModel Checked

/-- The target languages whose code stands in braces. -/
inductive BraceTarget where
  | java
  | typescript
  deriving DecidableEq, Repr

namespace BraceTarget
variable {f : BraceTarget} {s : Schema} {m : ClassModel} {lines : List String}

def target : BraceTarget → Target
  | java => .java
  | typescript => .typescript

def source : BraceTarget → Schema → ClassModel → Checked String
  | java => JavaClass.source
  | typescript => TypeScriptClass.source

def factory : BraceTarget → Schema → ClassModel → List Entry → Checked (List String)
  | java => JavaClass.factory
  | typescript => TypeScriptClass.factory

def getter : BraceTarget → Schema → Entry → Checked (List String)
  | java => JavaClass.getter
  | typescript => TypeScriptClass.getter

/-- The attributes with a getter. -/
def shown : BraceTarget → ClassModel → List Entry
  | java => JavaClass.shown
  | typescript => TypeScriptClass.shown

def getterName : BraceTarget → String → String
  | java => JavaClass.getterName
  | typescript => TypeScriptClass.getterName

/-- How a getter opens, with its name and the type of what it returns. -/
def getterHead : BraceTarget → Member → String
  | java, x => s!"public {x.varType} {getterName java x.name}()"
  | typescript, x => s!"public {getterName typescript x.name}(): {x.varType} "

/-- How a getter hands on to the getter of another object. -/
def handsOn (f : BraceTarget) (object name : String) : String :=
  let result := s!"{object}.{f.getterName name}()"
  s!"return this.{result};"

/-- How a method takes a parameter. -/
def parameter : BraceTarget → Entry → String
  | java, e => s!"{e.varType} {e.name}"
  | typescript, e => s!"{e.name}: {e.varType}"

/-- How a factory opens. The values that it fixes are a part of its name. -/
def factoryHead (f : BraceTarget) (m : ClassModel) (fixed : String) (params : List Entry) : String :=
  let taken := commas (params.map f.parameter)
  match f with
  | java => s!"public static {m.className} create{fixed}({taken})"
  | typescript => s!"public static create{m.className}{fixed}({taken}): {m.className}"

/-- How a method declares a name for a value of an enumeration. -/
def declaration : BraceTarget → String → String → String → String
  | java, name, type, value => s!"{type} {name} = {type}.{value};"
  | typescript, name, type, value => s!"const {name} = {type}.{value};"

/-- What stands for an argument that is left out. -/
def absent : BraceTarget → String
  | java => "null"
  | typescript => "undefined"

/-- Whether lines stand one behind the other in the text of a class, whenever it is written. -/
def Displays (f : BraceTarget) (m : ClassModel) (stretch : List String) : Prop :=
  ∀ s code, f.source s m = .ok code → ∃ lines, code = text lines ∧ stretch <:+: lines

theorem methods_of_source {code : String} (h : f.source s m = .ok code) :
    ∃ factories getters lines, m.constructors.mapM (f.factory s m) = .ok factories ∧
      (f.shown m).mapM (f.getter s) = .ok getters ∧ code = text lines ∧
      InTurn [factories.flatMap fun g => "    " :: indent g, getters.flatMap fun g => indent g ++ [""]]
        lines := by
  cases f with
  | java =>
    obtain ⟨load, -, h⟩ := bind_eq_ok.1 h
    obtain ⟨constructor, -, h⟩ := bind_eq_ok.1 h
    obtain ⟨factories, hfactories, h⟩ := bind_eq_ok.1 h
    obtain ⟨getters, hgetters, h⟩ := bind_eq_ok.1 h
    obtain ⟨size, -, h⟩ := bind_eq_ok.1 h
    obtain ⟨write, -, h⟩ := bind_eq_ok.1 h
    refine ⟨factories, getters, _, hfactories, hgetters, (Except.ok.inj h).symm, ?_⟩
    simp only [List.append_assoc]
    exact .skip _ <| .skip _ <| .skip _ <| .skip _ <| .skip _ <| .skip _ <| .skip _ <|
      .take List.infix_rfl <| .skip _ <| .take List.infix_rfl trivial
  | typescript =>
    obtain ⟨constructor, -, h⟩ := bind_eq_ok.1 h
    obtain ⟨load, -, h⟩ := bind_eq_ok.1 h
    obtain ⟨factories, hfactories, h⟩ := bind_eq_ok.1 h
    obtain ⟨getters, hgetters, h⟩ := bind_eq_ok.1 h
    obtain ⟨size, -, h⟩ := bind_eq_ok.1 h
    obtain ⟨write, -, h⟩ := bind_eq_ok.1 h
    refine ⟨factories, getters, _, hfactories, hgetters, (Except.ok.inj h).symm, ?_⟩
    simp only [List.append_assoc]
    exact .skip _ <| .skip _ <| .skip _ <| .skip _ <| .skip _ <| .skip _ <| .skip _ <| .skip _ <|
      .skip _ <| .skip _ <| .take List.infix_rfl <| .skip _ <| .take List.infix_rfl trivial

/-- What stands in a getter stands in the text of the class, one step to the right. -/
theorem displays_of_getter {e : Entry} (he : e ∈ f.shown m) {stretch : List String}
    (h : ∀ s lines, f.getter s e = .ok lines → stretch <:+: lines) : f.Displays m (indent stretch) := by
  intro s code hcode
  obtain ⟨factories, getters, lines, -, hgetters, rfl, first, rest, rfl, before, after, rfl, -⟩ :=
    methods_of_source hcode
  refine ⟨_, rfl, ?_⟩
  obtain ⟨getter, hmem, hgetter⟩ := exists_of_mapM hgetters he
  have hinner : indent stretch <:+: indent getter ++ [""] :=
    ((h s getter hgetter).map moved).trans (List.prefix_append ..).isInfix
  have hall : indent getter ++ [""] <:+: getters.flatMap fun g => indent g ++ [""] :=
    List.infix_of_mem_flatten (List.mem_map_of_mem hmem)
  exact ((hinner.trans hall).trans (List.infix_append ..)).trans (List.suffix_append ..).isInfix

/-- A getter that anyone may call opens with its name and the type of what it returns. That of an
attribute which another object holds does nothing but hand on. -/
theorem getter_eq_ok {e : Entry} (hr : e.isReserved = false) (hn : e.name ≠ "size")
    (h : f.getter s e = .ok lines) :
    ∃ remarks check answer, lines =
      doc remarks ++ block (f.getterHead e.toMember) (check ++ [answer]) ∧
      ∀ object, e.isInline = true → e.aggregateName = some object →
        check = [] ∧ answer = f.handsOn object e.name := by
  cases f with
  | java =>
    simp only [getter, JavaClass.getter, hr, beq_eq_false_iff_ne.2 hn, Bool.false_eq_true, if_false] at h
    split at h
    · rename_i hguarded
      obtain ⟨test, -, h⟩ := bind_eq_ok.1 h
      obtain ⟨discriminator, -, h⟩ := bind_eq_ok.1 h
      obtain ⟨asked, -, h⟩ := bind_eq_ok.1 h
      obtain ⟨value, -, h⟩ := bind_eq_ok.1 h
      refine ⟨_, _, _, (Except.ok.inj h).symm, fun object hi => ?_⟩
      simp [hi] at hguarded
    · refine ⟨_, _, _, (Except.ok.inj h).symm, fun object hi ha => ⟨rfl, ?_⟩⟩
      simp only [hi, ha]
      rfl
  | typescript =>
    simp only [getter, TypeScriptClass.getter] at h
    split at h
    · rename_i hguarded
      obtain ⟨test, -, h⟩ := bind_eq_ok.1 h
      obtain ⟨discriminator, -, h⟩ := bind_eq_ok.1 h
      obtain ⟨asked, -, h⟩ := bind_eq_ok.1 h
      obtain ⟨value, -, h⟩ := bind_eq_ok.1 h
      refine ⟨_, _, _, (Except.ok.inj h).symm, fun object hi => ?_⟩
      simp [hi] at hguarded
    · refine ⟨_, _, _, (Except.ok.inj h).symm, fun object hi ha => ⟨rfl, ?_⟩⟩
      simp only [hi, ha]
      rfl

section
variable {e : Entry} (he : e ∈ f.shown m) (hr : e.isReserved = false) (hn : e.name ≠ "size")
include he hr hn

theorem displays_getterHead : f.Displays m (indent [opened (f.getterHead e.toMember)]) := by
  refine displays_of_getter he fun s lines hlines => ?_
  obtain ⟨remarks, check, answer, rfl, -⟩ := getter_eq_ok hr hn hlines
  refine ⟨doc remarks, indent (check ++ [answer]) ++ [closeBrace], ?_⟩
  simp [block, blockWith, opened]

theorem displays_handsOn {object : String} (hi : e.isInline = true) (ha : e.aggregateName = some object) :
    f.Displays m (indent (opened (f.getterHead e.toMember) :: indent [f.handsOn object e.name])) := by
  refine displays_of_getter he fun s lines hlines => ?_
  obtain ⟨remarks, check, answer, rfl, hanswer⟩ := getter_eq_ok hr hn hlines
  obtain ⟨rfl, rfl⟩ := hanswer object hi ha
  exact ⟨doc remarks, [closeBrace], by simp [block, blockWith, opened]⟩

end

/-- Whether lines are a factory for a choice: it declares the values that it fixes, and makes the object
from some arguments. -/
def Creates (f : BraceTarget) (m : ClassModel) (choice : List Entry) (arguments lines : List String) :
    Prop :=
  ∃ remarks fixed locals, lines = doc remarks ++ block (f.factoryHead m fixed (factoryParams choice))
      (locals ++ [s!"return new {m.className}({commas arguments});"]) ∧
    List.Forall₂ (fun e line => ∃ type value, line = f.declaration e.name type value)
      (fixedEntries choice) locals

theorem creates_of_factory {choice : List Entry} (h : f.factory s m choice = .ok lines) :
    f.Creates m choice (factoryArguments f.absent choice) lines := by
  have declared : ∀ {e : Entry} {write : String → String → String} {line : String},
      (do let r := s.attributeAt e.site
          let type ← s.className (← r.need "type") r
          return write type (← e.conditionValue.enumName)) = (.ok line : Checked String) →
        ∃ type value, line = write type value := by
    intro e write line hline
    obtain ⟨named, -, hline⟩ := bind_eq_ok.1 hline
    obtain ⟨type, -, hline⟩ := bind_eq_ok.1 hline
    obtain ⟨value, -, hline⟩ := bind_eq_ok.1 hline
    exact ⟨type, value, (Except.ok.inj hline).symm⟩
  cases f with
  | java =>
    obtain ⟨fixed, -, h⟩ := bind_eq_ok.1 h
    obtain ⟨locals, hlocals, h⟩ := bind_eq_ok.1 h
    exact ⟨_, fixed, locals, (Except.ok.inj h).symm,
      (Checked.forall₂_of_mapM hlocals).imp fun e line hline => declared hline⟩
  | typescript =>
    obtain ⟨fixed, -, h⟩ := bind_eq_ok.1 h
    obtain ⟨locals, hlocals, h⟩ := bind_eq_ok.1 h
    exact ⟨_, fixed, locals, (Except.ok.inj h).symm,
      (Checked.forall₂_of_mapM hlocals).imp fun e line hline => declared hline⟩

end BraceTarget
end SchemaForge
