import ObjectFlow.Proofs.Program.Legible
import ObjectFlow.Proofs.Solver.Failures
import ObjectFlow.Proofs.Solver.HeapTyping
import ObjectFlow.Proofs.Solver.Limits

/-!
# Descriptions of nodes and objects

Every node and every object that a run finds has a description: its variables
and methods are in their tables, and its slots are fields that the hierarchy has.
In a legible program the descriptions tell nodes apart, and objects too.
-/

namespace ObjectFlow

/-! ## The fields of a type -/

namespace Hierarchy

variable {hierarchy : Hierarchy} {type : TypeId} {id : FieldId} {field : Field}

private theorem Linked.hasType_of_owner (linked : hierarchy.Linked)
    (isField : hierarchy.field? id = some field)
    (isSubtype : hierarchy.isSubtype? type field.declaring = some true) :
    hierarchy.HasType type := by
  unfold isSubtype? subtypeWithin at isSubtype
  split at isSubtype
  · next same => exact same ▸ (linked.hasType_of_field? isField).2
  · obtain ⟨_, isKind, _⟩ := Option.bind_eq_some_iff.mp isSubtype
    exact .of_kind? isKind

private theorem Linked.not_isSubtype?_of_array (linked : hierarchy.Linked) {element : TypeId}
    (isArray : hierarchy.kind? type = some (.array element))
    (isField : hierarchy.field? id = some field) :
    hierarchy.isSubtype? type field.declaring ≠ some true := by
  intro isSubtype
  obtain ⟨_, info, isClass, listed⟩ := linked.table.fields id field isField
  have isDeclared : hierarchy.kind? field.declaring = some (.declared info) :=
    TypeTable.kind?_of_classInfo? isClass
  have differ : type ≠ field.declaring := by
    intro same
    rw [← same, isArray] at isDeclared
    cases isDeclared
  have inRange : type < hierarchy.table.types.length := HasType.of_kind? isArray
  have isSuper : field.declaring ∈ hierarchy.table.supertypesOf type := by
    simpa [isSubtype?, subtypeWithin, differ, isArray, isDeclared, linked.supertypes, inRange]
      using isSubtype
  have isObject : field.declaring = TypeTable.objectType := by
    have isArray : hierarchy.table.kind? type = some (.array element) := isArray
    simpa [TypeTable.supertypesOf, isArray, differ.symm] using isSuper
  rw [((linked.table.classes _ info isClass).root isObject).2] at listed
  cases listed

end Hierarchy

/-! ## Places by name -/

def Place.moment : Place → String
  | .localAt _ point => s!" at {renderPoint point}"
  | _ => ""

namespace Program

variable {program : Program} {place other : Place} {name : String}

theorem placeName?_of_replica {replica : Replica} (isReplica : place.replica? = some replica)
    (found : program.placeName? place = some name) : ∃ own,
    program.describeVariable? replica.variableId = some own ∧
      name.toList =
        own.toList ++ ' ' :: (replica.context.render.toList ++ place.moment.toList) := by
  cases place with
  | «local» _ =>
      cases isReplica
      obtain ⟨own, isOwn, isName⟩ := Option.bind_eq_some_iff.mp found
      cases isName
      exact ⟨own, isOwn, by simp [Place.moment]⟩
  | localAt _ point =>
      cases isReplica
      obtain ⟨own, isOwn, isName⟩ := Option.bind_eq_some_iff.mp found
      cases isName
      exact ⟨own, isOwn, by simp [Place.moment]⟩
  | field _ _ _ => cases isReplica

theorem placeName?_of_field {object : HeapObject} {key : FieldKey} {type : TypeId}
    (found : program.placeName? (.field object key type) = some name) : ∃ owner slot,
    program.objectName? object = some owner ∧ program.slotName? key = some slot ∧
      name.toList = '(' :: ((owner.toList ++ [')']) ++ '.' :: slot.toList) := by
  obtain ⟨owner, isOwner, found⟩ := Option.bind_eq_some_iff.mp found
  obtain ⟨slot, isSlot, isName⟩ := Option.bind_eq_some_iff.mp found
  cases isName
  exact ⟨owner, slot, isOwner, isSlot, by simp⟩

namespace Legible

private theorem slot_eq (legible : program.Legible) (linked : program.hierarchy.Linked)
    {owner : TypeId} {key key' : FieldKey} {type type' : TypeId}
    (slot : program.hierarchy.Slot owner key type) (slot' : program.hierarchy.Slot owner key' type')
    (isName : program.slotName? key = some name) (isName' : program.slotName? key' = some name) :
    key = key' := by
  cases slot with
  | contents isArray =>
      cases slot' with
      | contents _ => rfl
      | named isField isSubtype =>
          exact absurd isSubtype (linked.not_isSubtype?_of_array isArray isField)
  | @named id field isField isSubtype =>
      cases slot' with
      | contents isArray => exact absurd isSubtype (linked.not_isSubtype?_of_array isArray isField)
      | @named id' field' isField' isSubtype' =>
          have here := legible.unshadowed owner
            (List.mem_range.mpr (linked.hasType_of_owner isField isSubtype))
          have sameName : field.name = field'.name := by
            rw [slotName?, isField, Option.map_some] at isName
            rw [slotName?, isField', Option.map_some, ← isName] at isName'
            exact (Option.some.inj isName').symm
          obtain ⟨inRange, isEntry⟩ := List.getElem?_eq_some_iff.mp isField
          obtain ⟨inRange', isEntry'⟩ := List.getElem?_eq_some_iff.mp isField'
          rw [List.pairwise_iff_getElem] at here
          rcases Nat.lt_trichotomy id id' with before | rfl | after
          · have apart := here id id' inRange inRange' before
            rw [isEntry, isEntry'] at apart
            exact absurd sameName (apart isSubtype isSubtype')
          · rfl
          · have apart := here id' id inRange' inRange after
            rw [isEntry, isEntry'] at apart
            exact absurd sameName.symm (apart isSubtype' isSubtype)

private theorem slotName?_free (legible : program.Legible) {key : FieldKey}
    (found : program.slotName? key = some name) : '.' ∉ name.toList := by
  cases key with
  | arrayContents =>
      cases found
      decide
  | named id =>
      obtain ⟨field, isField, rfl⟩ := Option.map_eq_some_iff.mp found
      exact legible.fields field (List.mem_of_getElem? isField) '.' (by simp)

private theorem eq_of_replica (legible : program.Legible) (linked : program.hierarchy.Linked)
    {replica replica' : Replica} (isReplica : place.replica? = some replica)
    (isReplica' : other.replica? = some replica') (found : program.placeName? place = some name)
    (found' : program.placeName? other = some name) : place = other := by
  obtain ⟨own, isOwn, parts⟩ := placeName?_of_replica isReplica found
  obtain ⟨own', isOwn', parts'⟩ := placeName?_of_replica isReplica' found'
  obtain ⟨sameOwn, rests⟩ := Text.split_first (legible.describeVariable?_free isOwn).1
    (legible.describeVariable?_free isOwn').1 (parts.symm.trans parts')
  obtain ⟨sameContext, sameMoment⟩ := Context.split_render rests
  rw [String.toList_inj.mp sameOwn] at isOwn
  have sameReplica : replica = replica' := by
    have sameId := legible.describeVariable?_injective linked isOwn isOwn'
    cases replica
    cases replica'
    cases sameId
    cases sameContext
    rfl
  subst sameReplica
  cases place <;> cases other <;> cases isReplica <;> cases isReplica'
  case local.local => rfl
  case localAt.localAt => simpa [Place.moment, renderPoint] using sameMoment
  all_goals simp [Place.moment] at sameMoment

private theorem not_replica_of_field (legible : program.Legible) {object : HeapObject}
    {key : FieldKey} {type : TypeId} {replica : Replica} (isReplica : other.replica? = some replica)
    (found : program.placeName? (.field object key type) = some name)
    (found' : program.placeName? other = some name) : False := by
  obtain ⟨_, _, _, _, parts⟩ := placeName?_of_field found
  obtain ⟨own, isOwn, parts'⟩ := placeName?_of_replica isReplica found'
  have free := (legible.describeVariable?_free isOwn).2
  have same := parts.symm.trans parts'
  cases isText : own.toList with
  | nil => simp [isText] at same
  | cons c _ =>
      rw [isText] at free same
      exact free (congrArg some (List.cons.inj same).1.symm)

/-- Places whose slots are those of their objects have different descriptions. -/
theorem placeName?_injective (legible : program.Legible) (linked : program.hierarchy.Linked)
    (typed : (Fact.node place).Typed program.hierarchy)
    (typed' : (Fact.node other).Typed program.hierarchy)
    (found : program.placeName? place = some name)
    (found' : program.placeName? other = some name) : place = other := by
  cases isReplica : place.replica? with
  | some replica =>
      cases isReplica' : other.replica? with
      | some replica' => exact legible.eq_of_replica linked isReplica isReplica' found found'
      | none =>
          cases other with
          | field _ _ _ => exact (legible.not_replica_of_field isReplica found' found).elim
          | _ => cases isReplica'
  | none =>
      cases place with
      | field object key type =>
          cases isReplica' : other.replica? with
          | some replica' => exact (legible.not_replica_of_field isReplica' found found').elim
          | none =>
              cases other with
              | field object' key' type' =>
                  obtain ⟨owner, slot, isOwner, isSlot, parts⟩ := placeName?_of_field found
                  obtain ⟨owner', slot', isOwner', isSlot', parts'⟩ := placeName?_of_field found'
                  have texts := (List.cons.inj (parts.symm.trans parts')).2
                  obtain ⟨sameOwner, sameSlot⟩ := Text.split_last (legible.slotName?_free isSlot)
                    (legible.slotName?_free isSlot') texts
                  have owners := List.append_cancel_right sameOwner
                  rw [String.toList_inj.mp owners] at isOwner
                  rw [String.toList_inj.mp sameSlot] at isSlot
                  obtain rfl := legible.objectName?_injective linked isOwner isOwner'
                  have typed : program.hierarchy.Slot object.type key type := typed
                  have typed' : program.hierarchy.Slot object.type key' type' := typed'
                  obtain rfl := legible.slot_eq linked typed typed' isSlot isSlot'
                  rw [typed.type_eq typed']
              | _ => cases isReplica'
      | _ => cases isReplica

end Legible

end Program

/-! ## What a run finds -/

def Fact.Named (program : Program) : Fact → Prop
  | .node place => ∀ replica, place.replica? = some replica →
      ∃ name, program.describeVariable? replica.variableId = some name
  | _ => True

namespace Frame

variable {frame : Frame} {statement : Statement} {known : Set Fact} {place : Place}
  {replica : Replica} {declared : Declaration.Program}

private theorem Targets.named (sourced : frame.program.Sourced declared)
    (member : statement ∈ frame.program.statements) (targets : frame.Targets statement known place)
    (isReplica : place.replica? = some replica) :
    ∃ name, frame.program.describeVariable? replica.variableId = some name := by
  cases targets with
  | own written found =>
      obtain ⟨point, isWrite⟩ := Statement.exists_write written
      have named := sourced.exists_describeVariable? (sourced.writes statement member _ isWrite)
      rcases written?_cases found with rfl | ⟨_, _, rfl⟩ <;> cases isReplica <;> exact named
  | formal _ isSummary listed _ =>
      have described := sourced.summaries _ _ isSummary
      cases isReplica
      exact sourced.exists_describeVariable?
        (described.plain sourced.tidy (List.mem_append_left _ listed)).1
  | slot _ _ found =>
      obtain ⟨_, _, rfl⟩ := slot?_eq_field found
      cases isReplica

private theorem Visits.named (sourced : frame.program.Sourced declared)
    (member : statement ∈ frame.program.statements) (visits : frame.Visits statement known place)
    (isReplica : place.replica? = some replica) :
    ∃ name, frame.program.describeVariable? replica.variableId = some name := by
  cases visits with
  | target targets => exact targets.named sourced member isReplica
  | source used found listed =>
      have named := sourced.exists_describeVariable? (sourced.reads statement member _ used)
      rcases sources?_cases found listed with same | ⟨_, same⟩ <;> rw [same] at isReplica <;>
        cases isReplica <;> exact named
  | callee _ isSummary listed _ =>
      have described := sourced.summaries _ _ isSummary
      cases isReplica
      exact sourced.exists_describeVariable? (described.plain sourced.tidy listed).1

end Frame

namespace SolverState

variable {analysis : Analysis} {kind : SetKind} {state : SolverState} {config : Config}
  {declared : Declaration.Program}

private theorem Reachable.named (loaded : declared.load = .ok analysis.program)
    (pure : analysis.abstraction.policy.IsPure) (reachable : Reachable analysis kind state)
    {fact : Fact} (said : fact ∈ state.graph.facts 0) : fact.Named analysis.program := by
  have sourced := Declaration.load_sourced loaded
  refine reachable.facts_subset_of_origins pure {fact | fact.Named analysis.program}
    (fun place => trivial) (fun method => trivial) (fun key statement found fact origin => ?_) 0
    said
  cases origin with
  | node visits =>
      have sourced : (analysis.frame key 0).program.Sourced declared := sourced
      exact fun replica isReplica =>
        visits.named sourced (List.mem_of_getElem? found) isReplica
  | _ => trivial

theorem Reachable.exists_objectName? (loaded : declared.load = .ok analysis.program)
    (chosen : HeapAbstraction.ofConfig config = .ok analysis.abstraction)
    (reachable : Reachable analysis kind state) {id : ObjectId} {object : HeapObject}
    (found : state.graph.object? id = some object) :
    ∃ name, analysis.program.objectName? object = some name := by
  have sourced := Declaration.load_sourced loaded
  have hasType : analysis.program.hierarchy.HasType object.type :=
    reachable.facts_covered loaded chosen 0 (show Fact.object object ∈ _ from ⟨id, found⟩)
  obtain ⟨typeName, isType⟩ := hasType.exists_typeName?
  obtain ⟨statement, member, sameMethod⟩ :=
    Program.exists_statement_of_site ((reachable.limited chosen).objects id object found).1
  obtain ⟨_, isMethod⟩ := sourced.exists_method? member
  obtain ⟨owner, isOwner⟩ := sourced.linked.names_of_method? isMethod
  have isOwner : analysis.program.describeMethod? object.site.method = some owner :=
    sameMethod ▸ isOwner
  refine ⟨object.label owner typeName, ?_⟩
  unfold Program.objectName?
  rw [show analysis.program.hierarchy.typeName? object.site.type = some typeName from isType,
    isOwner]
  rfl

theorem Reachable.exists_placeName? (loaded : declared.load = .ok analysis.program)
    (chosen : HeapAbstraction.ofConfig config = .ok analysis.abstraction)
    (reachable : Reachable analysis kind state) {id : NodeId} {place : Place}
    (found : state.graph.place? id = some place) :
    ∃ name, analysis.program.placeName? place = some name := by
  have pure := HeapAbstraction.isPure_of_config chosen
  have said : Fact.node place ∈ state.graph.facts 0 := ⟨id, found⟩
  have named := reachable.named loaded pure said
  cases place with
  | «local» replica =>
      obtain ⟨name, isName⟩ := named replica rfl
      exact ⟨_, by rw [Program.placeName?, isName]; rfl⟩
  | localAt replica point =>
      obtain ⟨name, isName⟩ := named replica rfl
      exact ⟨_, by rw [Program.placeName?, isName]; rfl⟩
  | field object key type =>
      have slot : analysis.program.hierarchy.Slot object.type key type :=
        reachable.typed loaded pure (HeapAbstraction.confined_of_config chosen) said
      obtain ⟨owner, isOwner⟩ : ∃ owner, analysis.program.objectName? object = some owner := by
        obtain ⟨key, _, located⟩ := Graph.node?_of_place? found
        cases key with
        | field owner slot type =>
            obtain ⟨object, isObject, same⟩ := Option.map_eq_some_iff.mp located
            cases same
            exact reachable.exists_objectName? loaded chosen isObject
        | _ => cases located
      obtain ⟨slotName, isSlot⟩ : ∃ name, analysis.program.slotName? key = some name := by
        cases slot with
        | contents _ => exact ⟨_, rfl⟩
        | named isField _ => exact ⟨_, by rw [Program.slotName?, isField]; rfl⟩
      exact ⟨_, by rw [Program.placeName?, isOwner, isSlot]; rfl⟩

end SolverState

namespace Results

open SolverState

variable {results : Results}

theorem describeObject?_eq (results : Results) (id : ObjectId) :
    results.describeObject? id = (results.graph.object? id).bind results.program.objectName? :=
  rfl

theorem describeNode?_eq (results : Results) (id : NodeId) :
    results.describeNode? id = (results.graph.place? id).bind results.program.placeName? := by
  unfold describeNode? Graph.place?
  cases results.graph.node? id with
  | none => rfl
  | some node =>
      cases node with
      | field object key type =>
          cases isObject : results.graph.object? object with
          | none => simp [describeObject?_eq, Graph.placeOf?, isObject]
          | some owner =>
              cases key <;> simp [describeObject?_eq, Graph.placeOf?, isObject,
                Program.placeName?, Program.slotName?]
      | _ => rfl

end Results

end ObjectFlow
