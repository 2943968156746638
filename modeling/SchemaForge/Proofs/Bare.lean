import SchemaForge.Proofs.PlansAlike

/-! No text of a class shows the classes that hold its attributes, so models that differ in nothing else
give the same text. -/
namespace SchemaForge
open Checked

theorem filter_bare {p : Entry → Bool} (h : ∀ e, p e.bare = p e) (l : List Entry) :
    (l.map Entry.bare).filter p = (l.filter p).map Entry.bare := by
  rw [List.filter_map, show p ∘ Entry.bare = p from funext h]

theorem map_bare {α : Type} {f : Entry → α} (h : ∀ e, f e.bare = f e) (l : List Entry) :
    (l.map Entry.bare).map f = l.map f := by
  rw [List.map_map, show f ∘ Entry.bare = f from funext h]

theorem mapM_bare {α : Type} {f : Entry → Checked α} (h : ∀ e, f e.bare = f e) (l : List Entry) :
    (l.map Entry.bare).mapM f = l.mapM f := by
  rw [List.mapM_map, show f ∘ Entry.bare = f from funext h]

theorem mapIdx_bare {α : Type} {f : Nat → Entry → α} (h : ∀ i e, f i e.bare = f i e)
    (l : List Entry) : (l.map Entry.bare).mapIdx f = l.mapIdx f := by
  apply List.ext_getElem?
  intro i
  simp [List.getElem?_mapIdx, h, Function.comp_def]

theorem flatMap_bare {α : Type} {f : Entry → List α} (h : ∀ e, f e.bare = f e) (l : List Entry) :
    (l.map Entry.bare).flatMap f = l.flatMap f := by
  rw [List.flatMap_map, funext h]

namespace Source

def Part.bare (p : Part) : Part := { p with entry := p.entry.bare }

theorem partOf_bare {condition code : Entry → Checked String} {e : Entry}
    (hc : condition e.bare = condition e) (hk : code e.bare = code e) :
    partOf condition code e.bare = (partOf condition code e).map Part.bare := by
  have he : e.bare.isConditional = e.isConditional := rfl
  unfold partOf
  rw [hc, hk, he]
  generalize (if e.isConditional then some <$> condition e else pure none) = guard
  cases guard with
  | error fault => rfl
  | ok guard => cases code e <;> rfl

theorem parts_bare {condition code : Entry → Checked String}
    (hc : ∀ e, condition e.bare = condition e) (hk : ∀ e, code e.bare = code e) (l : List Entry) :
    parts condition code (l.map Entry.bare) = (parts condition code l).map (·.map Part.bare) := by
  unfold parts
  rw [List.mapM_map, ← mapM_map_result]
  exact mapM_congr fun e _ => partOf_bare (hc e) (hk e)

theorem conditionReads_bare (s : Schema) (l : List Entry) :
    conditionReads s (l.map Entry.bare) = conditionReads s l := by
  unfold conditionReads
  rw [filter_bare fun _ => rfl, mapM_bare fun _ => rfl]

end Source

namespace ClassModel

theorem bare_parameters (m : ClassModel) : m.bare.parameters = m.parameters.map Entry.bare := rfl

theorem bare_entries (m : ClassModel) : m.bare.entries = m.entries.map Entry.bare := rfl

theorem bare_constructors (m : ClassModel) :
    m.bare.constructors = m.constructors.map (·.map Entry.bare) := rfl

theorem own_bare (m : ClassModel) : m.bare.own = m.own.map Entry.bare := filter_bare (fun _ => rfl) _

theorem constructorParams_bare (m : ClassModel) :
    m.bare.constructorParams = m.constructorParams.map Entry.bare := filter_bare (fun _ => rfl) _

theorem superArguments_bare (m : ClassModel) :
    m.bare.superArguments = m.superArguments.map Entry.bare := filter_bare (fun _ => rfl) _

theorem factoryParams_bare (choice : List Entry) :
    factoryParams (choice.map Entry.bare) = (factoryParams choice).map Entry.bare :=
  filter_bare (fun _ => rfl) _

theorem fixedEntries_bare (choice : List Entry) :
    fixedEntries (choice.map Entry.bare) = (fixedEntries choice).map Entry.bare :=
  filter_bare (fun _ => rfl) _

theorem factoryArguments_bare (absent : String) (choice : List Entry) :
    factoryArguments absent (choice.map Entry.bare) = factoryArguments absent choice := by
  unfold factoryArguments
  rw [filter_bare fun _ => rfl, map_bare fun _ => rfl]

theorem factorySuffix_bare (choice : List Entry) :
    factorySuffix (choice.map Entry.bare) = factorySuffix choice := by
  unfold factorySuffix
  rw [fixedEntries_bare, mapM_bare fun _ => rfl]

open Source in
theorem readingParts_bare {condition load : Entry → Checked String}
    (hc : ∀ e, condition e.bare = condition e) (hk : ∀ e, load e.bare = load e) (m : ClassModel) :
    m.bare.readingParts condition load = (m.readingParts condition load).map (·.map Part.bare) := by
  unfold readingParts
  rw [own_bare, filter_bare fun _ => rfl, filter_bare fun _ => rfl, parts_bare hc hk, parts_bare hc hk]
  cases parts condition load (m.own.filter (!·.readBefore)) with
  | error fault => rfl
  | ok first => cases parts condition load (m.own.filter (·.readBefore)) <;> simp

end ClassModel

namespace JavaClass
open Source ClassModel

theorem streamConstructor_bare (s : Schema) (m : ClassModel) :
    streamConstructor s m.bare = streamConstructor s m := by
  unfold streamConstructor loadParts upFront
  rw [own_bare, conditionReads_bare, readingParts_bare (fun _ => rfl) fun _ => rfl]
  simp only [map_bind, List.flatMap_map]
  rfl

theorem constructor_bare (s : Schema) (m : ClassModel) : constructor s m.bare = constructor s m := by
  simp only [constructor, constructorParams_bare, superArguments_bare, bare_parameters,
    List.filter_map, List.map_map, aggregateArguments, signature]
  rw [parts_bare (fun _ => rfl) fun _ => rfl]
  simp only [map_bind, List.flatMap_map]
  rfl

theorem factory_bare (s : Schema) (m : ClassModel) (choice : List Entry) :
    factory s m.bare (choice.map Entry.bare) = factory s m choice := by
  simp only [factory, factoryParams_bare, factorySuffix_bare, fixedEntries_bare,
    factoryArguments_bare, List.filter_map, List.map_map, List.mapM_map, signature]
  rfl

theorem sizeMethod_bare (s : Schema) (m : ClassModel) : sizeMethod s m.bare = sizeMethod s m := by
  unfold sizeMethod sizeParts
  rw [own_bare, parts_bare (fun _ => rfl) fun _ => rfl]
  simp only [map_bind, List.flatMap_map]
  rfl

theorem serializeMethod_bare (s : Schema) (m : ClassModel) :
    serializeMethod s m.bare = serializeMethod s m := by
  unfold serializeMethod serializeParts
  rw [own_bare, parts_bare (fun _ => rfl) fun _ => rfl]
  simp only [map_bind, List.flatMap_map]
  rfl

theorem source_bare (s : Schema) (m : ClassModel) : source s m.bare = source s m := by
  unfold source shown fields
  rw [streamConstructor_bare, constructor_bare, sizeMethod_bare, serializeMethod_bare]
  simp only [bare_constructors, bare_entries, own_bare, List.filter_map, List.mapM_map,
    List.flatMap_map, Function.comp_def, factory_bare]
  rfl

end JavaClass

namespace TypeScriptClass
open Source ClassModel

theorem constructor_bare (s : Schema) (m : ClassModel) : constructor s m.bare = constructor s m := by
  simp only [constructor, constructorParams_bare, superArguments_bare, bare_parameters,
    List.filter_map, List.map_map, aggregateArguments]
  rw [parts_bare (fun _ => rfl) fun _ => rfl]
  simp only [map_bind, List.flatMap_map]
  rfl

theorem fromBinary_bare (s : Schema) (m : ClassModel) : fromBinary s m.bare = fromBinary s m := by
  unfold fromBinary loadParts upFront
  rw [bare_entries, filter_bare fun _ => rfl, conditionReads_bare,
    readingParts_bare (fun _ => rfl) fun _ => rfl]
  simp only [map_bind, List.flatMap_map, bare_parameters, List.filter_map, List.map_map]
  rfl

theorem factory_bare (s : Schema) (m : ClassModel) (choice : List Entry) :
    factory s m.bare (choice.map Entry.bare) = factory s m choice := by
  simp only [factory, factoryParams_bare, factorySuffix_bare, fixedEntries_bare,
    factoryArguments_bare, List.filter_map, List.map_map, List.mapM_map]
  rfl

theorem sizeMethod_bare (s : Schema) (m : ClassModel) : sizeMethod s m.bare = sizeMethod s m := by
  unfold sizeMethod sizeParts
  rw [own_bare, parts_bare (fun _ => rfl) fun _ => rfl]
  simp only [map_bind, List.flatMap_map]
  rfl

theorem serializeMethod_bare (s : Schema) (m : ClassModel) :
    serializeMethod s m.bare = serializeMethod s m := by
  unfold serializeMethod serializeParts
  rw [own_bare, parts_bare (fun _ => rfl) fun _ => rfl]
  simp only [map_bind, List.flatMap_map]
  rfl

theorem source_bare (s : Schema) (m : ClassModel) : source s m.bare = source s m := by
  unfold source shown fields
  rw [constructor_bare, fromBinary_bare, sizeMethod_bare, serializeMethod_bare]
  simp only [bare_constructors, bare_entries, own_bare, List.filter_map, List.mapM_map,
    List.flatMap_map, Function.comp_def, factory_bare]
  rfl

end TypeScriptClass

namespace PythonClass
open Source ClassModel

theorem assigned_bare (m : ClassModel) : assigned m.bare = (assigned m).map Entry.bare :=
  filter_bare (fun _ => rfl) _

theorem stored_bare (m : ClassModel) : stored m.bare = (stored m).map Entry.bare := by
  rw [stored, own_bare, filter_bare fun _ => rfl, stored]

theorem upFront_bare (s : Schema) (m : ClassModel) : upFront s m.bare = upFront s m := by
  rw [upFront, own_bare, conditionReads_bare, upFront]

theorem constructor_bare (m : ClassModel) : constructor m.bare = constructor m := by
  simp only [constructor, constructorParams_bare, assigned_bare, bare_parameters,
    List.filter_map, List.map_map, aggregateArguments, List.isEmpty_map]
  rfl

theorem tuples_bare (s : Schema) (m : ClassModel) : tuples s m.bare = tuples s m := by
  unfold tuples
  rw [assigned_bare, List.length_map, mapIdx_bare fun _ _ => rfl, mapM_bare fun _ => rfl]
  rfl

theorem fromBinary_bare (s : Schema) (m : ClassModel) : fromBinary s m.bare = fromBinary s m := by
  unfold fromBinary loadParts
  rw [bare_constructors, upFront_bare, readingParts_bare (fun _ => rfl) fun _ => rfl]
  cases m.constructors with
  | nil => rfl
  | cons first rest =>
    simp only [List.map_cons, map_bind, List.flatMap_map, List.filter_map, List.map_map]
    rfl

theorem source_bare (s : Schema) (m : ClassModel) : source s m.bare = source s m := by
  unfold source shown sizeParts serializeParts
  rw [tuples_bare, fromBinary_bare, constructor_bare, stored_bare, own_bare,
    parts_bare (fun _ => rfl) fun _ => rfl, parts_bare (fun _ => rfl) fun _ => rfl]
  simp only [bare_entries, List.filter_map, List.mapM_map, List.map_map, map_bind,
    List.flatMap_map]
  rfl

end PythonClass

namespace PythonTransaction
open Source ClassModel PythonClass

theorem find?_bare {p : Entry → Bool} (h : ∀ e, p e.bare = p e) (l : List Entry) :
    (l.map Entry.bare).find? p = (l.find? p).map Entry.bare := by
  rw [List.find?_map, show p ∘ Entry.bare = p from funext h]

theorem hints_bare (m : ClassModel) : hints m.bare = hints m := by
  unfold hints
  rw [bare_entries, filter_bare fun _ => rfl]
  simp only [List.filterMap_map]
  rfl

theorem constructor_bare (s : Schema) (m : ClassModel) : constructor s m.bare = constructor s m := by
  have hbody : bodyConstructor s m.bare = bodyConstructor s m := by
    rw [bodyConstructor, stored_bare, mapM_bare fun _ => rfl, bodyConstructor]
  have htransaction : transactionConstructor m.bare = transactionConstructor m := by
    rw [transactionConstructor, bare_entries, find?_bare fun _ => rfl, transactionConstructor]
    cases m.entries.find? (·.name == "signature") <;> rfl
  have hconcrete : concreteConstructor m.bare = concreteConstructor m := by
    rw [concreteConstructor, bare_entries, find?_bare fun _ => rfl, concreteConstructor]
    cases m.entries.find? holdsBody <;> rfl
  rw [constructor, hbody, htransaction, hconcrete]
  rfl

theorem result_bare (m : ClassModel) : result m.bare = result m := by
  unfold result
  rw [stored_bare, map_bare fun _ => rfl]
  rfl

theorem fromBinary_bare (s : Schema) (m : ClassModel) : fromBinary s m.bare = fromBinary s m := by
  unfold fromBinary loadParts
  rw [upFront_bare, result_bare, readingParts_bare (fun _ => rfl) fun _ => rfl]
  simp only [map_bind, List.flatMap_map]
  rfl

theorem source_bare (s : Schema) (m : ClassModel) : source s m.bare = source s m := by
  unfold source sizeParts serializeParts printParts properties
  rw [constructor_bare, fromBinary_bare, hints_bare, stored_bare, own_bare, bare_entries,
    filter_bare fun _ => rfl, flatMap_bare fun _ => rfl, map_bare fun _ => rfl,
    parts_bare (fun _ => rfl) fun _ => rfl, parts_bare (fun _ => rfl) fun _ => rfl,
    parts_bare (fun _ => rfl) fun _ => rfl]
  simp only [map_bind, List.flatMap_map]
  rfl

end PythonTransaction

theorem ClassModel.source_bare (t : Target) (s : Schema) (m : ClassModel) :
    m.bare.source t s = m.source t s := by
  cases t with
  | java => exact JavaClass.source_bare s m
  | typescript => exact TypeScriptClass.source_bare s m
  | python =>
    have hname : m.bare.name = m.name := rfl
    simp only [source, hname, PythonTransaction.source_bare, PythonClass.source_bare]

/-- A file does not show the classes that hold attributes. -/
theorem Plan.write_bare (t : Target) (notice : Notice) (s : Schema) (p : Plan) :
    p.bare.write t notice s = p.write t notice s := by
  cases p with
  | struct m =>
    have hbody : (Plan.struct m).bare.body t s = (Plan.struct m).body t s := m.source_bare t s
    have hname : (Plan.struct m).bare.fileName t = (Plan.struct m).fileName t := rfl
    unfold write writeCopies
    rw [hbody, hname]
  | _ => rfl

end SchemaForge
