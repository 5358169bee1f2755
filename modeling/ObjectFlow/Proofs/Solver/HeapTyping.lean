import ObjectFlow.Proofs.Hierarchy.Ranges
import ObjectFlow.Proofs.Program.Provenance
import ObjectFlow.Proofs.Solver.Answers
import ObjectFlow.Proofs.Solver.Soundness

/-!
# The types of slots

A slot of an object is one that its type has: the contents of an array, or a
field that a supertype declares.  Stores ask for the type of the slot, an array
of an allocation lies in one of its type, and clones and summaries have the type
of what is copied into them.  So whatever a slot holds is of the slot's type, in
every state that a run goes through.
-/

namespace ObjectFlow

open Demand

/-- Objects of the owner's type have the slot, and it is of the type. -/
inductive Hierarchy.Slot (hierarchy : Hierarchy) (owner : TypeId) : FieldKey → TypeId → Prop where
  | contents {element : TypeId} : hierarchy.kind? owner = some (.array element) →
      Slot hierarchy owner .arrayContents element
  | named {id : FieldId} {field : Field} : hierarchy.field? id = some field →
      hierarchy.isSubtype? owner field.declaring = some true →
      Slot hierarchy owner (.named id) field.type

theorem Hierarchy.Slot.type_eq {hierarchy : Hierarchy} {owner type type' : TypeId} {key : FieldKey}
    (slot : hierarchy.Slot owner key type) (slot' : hierarchy.Slot owner key type') :
    type = type' := by
  cases slot with
  | contents found =>
      cases slot' with
      | contents found' =>
          cases found.symm.trans found'
          rfl
  | named found _ =>
      cases slot' with
      | named found' _ =>
          cases found.symm.trans found'
          rfl

/-- A node of a slot is one that its object has, and what it holds is of its type. -/
def Fact.Typed (hierarchy : Hierarchy) : Fact → Prop
  | .node (.field owner key type) => hierarchy.Slot owner.type key type
  | .edge (.field _ _ type) held => hierarchy.isSubtype? held.type type = some true
  | _ => True

/-! ## What statements demand -/

namespace Frame

variable {frame : Frame} {statement : Statement} {known : Set Fact} {depth heapDepth : Nat}
  {owner source : HeapObject} {key : FieldKey} {type : TypeId}

theorem Records.type_eq (confined : frame.abstraction.policy.Confined depth heapDepth)
    (records : frame.Records type owner) : owner.type = type := by
  obtain ⟨site, rfl, recorded⟩ := records
  obtain ⟨_, _, rfl⟩ := Option.map_eq_some_iff.mp recorded
  exact congrArg AllocationSite.type (confined.site site _)

theorem Twin.type_eq (confined : frame.abstraction.policy.Confined depth heapDepth)
    (twin : frame.Twin source owner) : owner.type = source.type := by
  rcases twin with records | isSummary
  · exact records.type_eq confined
  · exact congrArg AllocationSite.type (confined.summary isSummary).1

theorem slot_of_array {element : TypeId}
    (isArray : frame.hierarchy.kind? owner.type = some (.array element))
    (typed : frame.slotType? owner .arrayContents = some type) :
    frame.hierarchy.Slot owner.type .arrayContents type := by
  simp only [slotType?, Hierarchy.elementType?, isArray, Option.map_some, TypeKind.element?,
    Option.getD_some, Option.some.injEq] at typed
  exact .contents (typed ▸ isArray)

private theorem slot_of_checked (hasSlot : frame.hasSlot? owner key = some true)
    (typed : frame.slotType? owner key = some type) : frame.hierarchy.Slot owner.type key type := by
  cases key with
  | arrayContents =>
      obtain ⟨kind, isKind, isArray⟩ := Option.map_eq_some_iff.mp hasSlot
      cases kind with
      | array element => exact slot_of_array isKind typed
      | _ => cases isArray
  | named id =>
      obtain ⟨field, isField, isSubtype⟩ := Option.bind_eq_some_iff.mp hasSlot
      obtain ⟨_, isField', rfl⟩ := Option.map_eq_some_iff.mp typed
      cases isField.symm.trans isField'
      exact .named isField isSubtype

private theorem slot_of_listed (linked : frame.hierarchy.Linked) {keys : List FieldKey}
    (found : frame.slots? source = some keys) (member : key ∈ keys)
    (sameType : owner.type = source.type) (typed : frame.slotType? owner key = some type) :
    frame.hierarchy.Slot owner.type key type := by
  obtain ⟨kind, isKind, found⟩ := Option.bind_eq_some_iff.mp found
  have declared : ∀ fields, frame.hierarchy.instanceFields? source.type = some fields →
      referenceKeys? frame.hierarchy fields = some keys →
      frame.hierarchy.Slot owner.type key type := by
    intro fields isFields isKeys
    obtain ⟨id, listed, rfl⟩ := Hierarchy.mem_referenceKeys? isKeys member
    obtain ⟨field, isField, isSubtype⟩ := linked.isSubtype?_of_instanceField isFields listed
    obtain ⟨_, isField', rfl⟩ := Option.map_eq_some_iff.mp typed
    cases isField.symm.trans isField'
    exact .named isField (sameType ▸ isSubtype)
  cases kind with
  | array element =>
      obtain ⟨holds, _, rfl⟩ := Option.map_eq_some_iff.mp found
      cases holds with
      | false => cases member
      | true =>
          obtain rfl := List.mem_singleton.mp member
          exact slot_of_array (sameType ▸ isKind) typed
  | primitive _ =>
      obtain ⟨fields, isFields, isKeys⟩ := Option.bind_eq_some_iff.mp found
      exact declared fields isFields isKeys
  | declared _ =>
      obtain ⟨fields, isFields, isKeys⟩ := Option.bind_eq_some_iff.mp found
      exact declared fields isFields isKeys

private theorem Offers.slot (linked : frame.hierarchy.Linked)
    (confined : frame.abstraction.policy.Confined depth heapDepth) (offers : frame.Offers owner key)
    (typed : frame.slotType? owner key = some type) :
    frame.hierarchy.Slot owner.type key type := by
  cases offers with
  | checked hasSlot => exact slot_of_checked hasSlot typed
  | listed slots member => exact slot_of_listed linked slots member rfl typed
  | shared twin slots member =>
      exact slot_of_listed linked slots member (twin.type_eq confined) typed
  | nested records isArray =>
      obtain ⟨kind, isKind, isElement⟩ := Option.map_eq_some_iff.mp isArray
      rw [← records.type_eq confined] at isKind
      cases kind with
      | array element => exact slot_of_array isKind typed
      | _ => cases isElement

theorem slot?_eq_field {place : Place} (found : frame.slot? owner key = some place) :
    ∃ type, frame.slotType? owner key = some type ∧ place = .field owner key type := by
  obtain ⟨type, typed, rfl⟩ := Option.map_eq_some_iff.mp found
  exact ⟨type, typed, rfl⟩

theorem written?_ne_field {declared : Variable} {point : Option PointId} :
    frame.written? declared point ≠ some (.field owner key type) := by
  intro found
  rcases written?_cases found with same | ⟨_, _, same⟩ <;> cases same

theorem sources?_cases {declared : Variable} {point : Option PointId} {sources : List Source}
    {source : Source} (found : frame.sources? declared point = some sources)
    (member : source ∈ sources) : source.place = .local (frame.replica declared) ∨
      ∃ kill, source.place = .localAt (frame.replica declared) kill := by
  unfold sources? at found
  split at found
  · obtain ⟨point, _, rfl⟩ := Option.map_eq_some_iff.mp found
    obtain ⟨kill, _, rfl⟩ := List.mem_map.mp member
    exact .inr ⟨kill, rfl⟩
  · cases found
    obtain rfl := List.mem_singleton.mp member
    exact .inl rfl

private theorem Targets.hasSlot (linked : frame.hierarchy.Linked)
    (confined : frame.abstraction.policy.Confined depth heapDepth)
    (targets : frame.Targets statement known (.field owner key type)) :
    frame.hierarchy.Slot owner.type key type := by
  generalize same : Place.field owner key type = place at targets
  cases targets with
  | own _ found => exact absurd (same ▸ found) written?_ne_field
  | formal _ _ _ _ => cases same
  | slot _ offers found =>
      obtain ⟨type, typed, rfl⟩ := slot?_eq_field found
      cases same
      exact offers.slot linked confined typed

/-- What goes to a slot is of its type, if that holds of what is already there. -/
theorem Flow.typed (confined : frame.abstraction.policy.Confined depth heapDepth)
    (typed : ∀ fact ∈ known, fact.Typed frame.hierarchy) {held : HeapObject}
    (flow : frame.Flow statement known (.field owner key type) held) :
    frame.hierarchy.isSubtype? held.type type = some true := by
  generalize same : Place.field owner key type = place at flow
  cases flow with
  | assigned _ found _ => exact absurd (same ▸ found) written?_ne_field
  | escaped _ found _ _ => exact absurd (same ▸ found) written?_ne_field
  | passed _ _ _ _ _ _ _ _ => cases same
  | received _ _ _ _ _ _ => cases same
  | stored _ _ _ _ isSubtype =>
      cases same
      exact isSubtype
  | nested _ outer isArray found _ inner =>
      obtain ⟨_, isType, rfl⟩ := slot?_eq_field found
      cases same
      rw [slotType?, outer.type_eq confined, isArray] at isType
      cases isType
      rw [inner.type_eq confined]
      exact Hierarchy.isSubtype?_refl _
  | @copied source _ _ _ _ _ _ _ twin _ _ isHere isThere edge =>
      obtain ⟨_, typeHere, rfl⟩ := slot?_eq_field isHere
      obtain ⟨_, typeThere, rfl⟩ := slot?_eq_field isThere
      cases same
      have sameType : frame.slotType? owner key = frame.slotType? source key := by
        unfold slotType?
        rw [twin.type_eq confined]
      rw [typeThere, typeHere] at sameType
      cases sameType
      exact typed _ edge

private theorem Origin.typed (linked : frame.hierarchy.Linked)
    (confined : frame.abstraction.policy.Confined depth heapDepth)
    (typed : ∀ fact ∈ known, fact.Typed frame.hierarchy) {fact : Fact}
    (origin : frame.Origin statement known fact) : fact.Typed frame.hierarchy := by
  cases origin with
  | @node place visits =>
      cases place with
      | field owner key type =>
          generalize same : Place.field owner key type = place at visits
          cases visits with
          | target targets =>
              subst same
              exact targets.hasSlot linked confined
          | source _ found member =>
              rcases sources?_cases found member with isPlace | ⟨_, isPlace⟩ <;>
                cases same.trans isPlace
          | callee _ _ _ _ => cases same
      | _ => trivial
  | @edge place held flow =>
      cases place with
      | field owner key type => exact flow.typed confined typed
      | _ => trivial
  | _ => trivial

end Frame

namespace SolverState

variable {analysis : Analysis} {kind : SetKind} {state : SolverState}

theorem Reachable.typed {declared : Declaration.Program} {depth heapDepth : Nat}
    (loaded : declared.load = .ok analysis.program) (pure : analysis.abstraction.policy.IsPure)
    (confined : analysis.abstraction.policy.Confined depth heapDepth)
    (reachable : Reachable analysis kind state) {fact : Fact}
    (said : fact ∈ state.graph.facts 0) : fact.Typed analysis.program.hierarchy := by
  have linked := (Declaration.load_sourced loaded).linked
  refine reachable.facts_subset_of_origins pure {fact | fact.Typed analysis.program.hierarchy}
    (fun place => trivial) (fun method => trivial) (fun key statement found fact origin => ?_) 0
    said
  have linked : (analysis.frame key 0).hierarchy.Linked := linked
  exact origin.typed linked confined fun _ typed => typed

end SolverState

namespace Results

open SolverState

variable {results : Results} {kind : SetKind} {config : Config} {declared : Declaration.Program}

/-- In every state, the node of a slot is one that its object has, what it holds is of its type, and
it is the only node of the slot. -/
theorem heap_typed (loaded : declared.load = .ok results.program)
    (chosen : HeapAbstraction.ofConfig config = .ok results.analysis.abstraction)
    (reachable : Reachable results.analysis kind results.state) {node : NodeId} {owner : ObjectId}
    {key : FieldKey} {type : TypeId}
    (isNode : results.graph.node? node = some (.field owner key type)) :
    ∃ object objects, results.graph.object? owner = some object ∧
      results.graph.pointsTo? node = some objects ∧
      results.program.hierarchy.Slot object.type key type ∧
      (∀ id ∈ objects, ∃ held, results.graph.object? id = some held ∧
        results.program.hierarchy.isSubtype? held.type type = some true) ∧
      (∀ other otherType, results.graph.node? other = some (.field owner key otherType) →
        other = node) ∧
      results.fieldPointsTo owner key = objects := by
  have pure := HeapAbstraction.isPure_of_config chosen
  have confined := HeapAbstraction.confined_of_config chosen
  have valid : results.graph.Valid := (reachable.invariant pure).valid
  obtain ⟨object, named⟩ := valid.owner node owner key type isNode
  obtain ⟨data, isData⟩ := Graph.payload?_of_node? isNode
  have holds : results.graph.pointsTo? node = some data.pointsTo.snapshot := by
    simp [Graph.pointsTo?, isData]
  have located : ∀ {other otherType},
      results.graph.node? other = some (.field owner key otherType) →
      results.graph.place? other = some (.field object key otherType) := by
    intro other otherType isNode
    simp [Graph.place?, isNode, Graph.placeOf?, named]
  have slot : ∀ {other otherType},
      results.graph.node? other = some (.field owner key otherType) →
      results.program.hierarchy.Slot object.type key otherType := by
    intro other otherType isNode
    exact reachable.typed loaded pure confined (show Fact.node _ ∈ _ from ⟨other, located isNode⟩)
  have unique : ∀ other otherType,
      results.graph.node? other = some (.field owner key otherType) → other = node := by
    intro other otherType isOther
    obtain rfl := (slot isOther).type_eq (slot isNode)
    exact Interner.key?_injective isOther isNode
  refine ⟨object, data.pointsTo.snapshot, named, holds, slot isNode, fun id member => ?_, unique,
    ?_⟩
  · have edge : results.graph.HasEdge node id := ⟨_, holds, member⟩
    obtain ⟨held, isHeld⟩ := valid.target node id edge
    refine ⟨held, isHeld, ?_⟩
    exact reachable.typed loaded pure confined
      (show Fact.edge _ _ ∈ _ from ⟨node, id, located isNode, isHeld, edge⟩)
  · refine OrderedSet.ext fun id => mem_fieldPointsTo_iff.trans ⟨?_, fun member => ?_⟩
    · rintro ⟨otherType, other, isOther, objects, found, member⟩
      obtain rfl := unique other otherType isOther
      cases holds.symm.trans found
      exact member
    · exact ⟨type, node, isNode, _, holds, member⟩

end Results

def covariantProgram : Declaration.Program :=
  ⟨"Main.main",
    [⟨"A", none, none, false, []⟩, ⟨"B", none, none, false, []⟩,
      ⟨"Main", none, none, false,
        [.method ⟨"main", none, true, false, false,
          [.local ⟨"rows", "A[][]", false⟩, .local ⟨"row", "A[]", false⟩,
            .local ⟨"any", "Object[]", false⟩, .local ⟨"a", "A", false⟩, .local ⟨"b", "B", false⟩,
            .statement .newArray { target := some "rows", type := some "A", dims := some 2 },
            .statement .arrayLoad { target := some "row", base := some "rows" },
            .statement .copy { target := some "any", source := some "row" },
            .statement .new { target := some "a", type := some "A" },
            .statement .new { target := some "b", type := some "B" },
            .statement .arrayStore { base := some "any", source := some "a" },
            .statement .arrayStore { base := some "any", source := some "b" }]⟩]⟩]⟩

theorem heap_typed_covariant : ∃ results : Results,
    covariantProgram.load = .ok results.program ∧
      HeapAbstraction.ofConfig plainSettings = .ok results.analysis.abstraction ∧
      SolverState.Reachable results.analysis .hashed results.state ∧
      results.graph.node? 6 = some (.field 1 .arrayContents 10) ∧
      2 ∈ results.fieldPointsTo 1 .arrayContents ∧
      ∃ object, results.graph.object? 1 = some object ∧
        results.program.hierarchy.Slot object.type .arrayContents 10 ∧
        ∀ id ∈ results.fieldPointsTo 1 .arrayContents, ∃ held,
          results.graph.object? id = some held ∧
            results.program.hierarchy.isSubtype? held.type 10 = some true := by
  obtain ⟨results, loaded, chosen, solved, _, isNode, stored⟩ :=
    covariantProgram.exists_finished plainSettings (fun results =>
      results.graph.node? 6 = some (.field 1 .arrayContents 10) ∧
        2 ∈ results.fieldPointsTo 1 .arrayContents) (by decide +kernel)
  have reachable := Analysis.solve_reachable solved
  obtain ⟨object, objects, named, _, slot, typed, _, same⟩ :=
    Results.heap_typed loaded chosen reachable isNode
  exact ⟨results, loaded, chosen, reachable, isNode, stored, object, named, slot,
    fun id member => typed id (same ▸ member)⟩

end ObjectFlow
