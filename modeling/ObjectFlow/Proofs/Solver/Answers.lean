import ObjectFlow.Proofs.Graph.Fact
import ObjectFlow.Solver.Results

/-!
# Answers by what ids name

The questions that results answer are about ids.  Here the answers are put in
terms of facts: an id is in a points-to set if the graph says that the place
holds the object that the id names.
-/

namespace ObjectFlow

namespace Graph

variable {graph : Graph}

private theorem node?_of_place?_local {node : NodeId} {replica : Replica}
    (located : graph.place? node = some (.local replica)) :
    graph.node? node = some (.local replica) := by
  obtain ⟨key, found, same⟩ := node?_of_place? located
  rw [found, placeOf?_injective same (show graph.placeOf? (.local replica) = _ from rfl)]

private theorem node?_of_place?_field {node : NodeId} {owner : ObjectId} {object : HeapObject}
    {key : FieldKey} {type : TypeId} (located : graph.place? node = some (.field object key type))
    (named : graph.object? owner = some object) :
    graph.node? node = some (.field owner key type) := by
  obtain ⟨found, held, same⟩ := node?_of_place? located
  have here : graph.placeOf? (.field owner key type) = some (.field object key type) := by
    rw [placeOf?, named]
    rfl
  rw [held, placeOf?_injective same here]

end Graph

namespace Results

variable {results : Results} {id : ObjectId} {object : HeapObject}

theorem mem_unionOf {nodes : List Node} : id ∈ results.unionOf nodes ↔
    ∃ key ∈ nodes, ∃ node, results.graph.node? node = some key ∧ results.graph.HasEdge node id := by
  unfold unionOf
  rw [OrderedSet.mem_foldl_union]
  constructor
  · rintro (inside | ⟨objects, member, inside⟩)
    · exact absurd inside (OrderedSet.not_mem_empty id)
    · obtain ⟨node, listed, found⟩ := List.mem_filterMap.mp member
      obtain ⟨key, among, looked⟩ := List.mem_filterMap.mp listed
      exact ⟨key, among, node, Interner.lookup_eq_some_iff.mp looked, objects, found, inside⟩
  · rintro ⟨key, among, node, named, objects, found, inside⟩
    refine .inr ⟨objects, List.mem_filterMap.mpr ⟨node, ?_, found⟩, inside⟩
    exact List.mem_filterMap.mpr ⟨key, among, Interner.lookup_eq_some_iff.mpr named⟩

theorem named_of_mem_unionOf (valid : results.graph.Valid) {nodes : List Node}
    (member : id ∈ results.unionOf nodes) : ∃ object, results.graph.object? id = some object := by
  obtain ⟨_, _, node, _, held⟩ := mem_unionOf.mp member
  exact valid.target node id held

theorem named_of_mem_pointsTo (valid : results.graph.Valid) {declared : Variable}
    {context : Context} (member : id ∈ results.pointsTo declared context) :
    ∃ object, results.graph.object? id = some object := by
  unfold pointsTo at member
  split at member <;> exact named_of_mem_unionOf valid member

theorem mem_pointsTo (reader : SubscriberId) {declared : Variable} {context : Context}
    (plain : declared.flowSensitive = false) (named : results.graph.object? id = some object) :
    id ∈ results.pointsTo declared context ↔
      .edge (.local (declared.replica context results.initialContext)) object ∈
        results.graph.facts reader := by
  unfold pointsTo
  simp only [plain, Bool.false_eq_true, if_false, mem_unionOf, List.mem_singleton]
  constructor
  · rintro ⟨_, rfl, node, found, held⟩
    refine ⟨node, id, ?_, named, held⟩
    rw [Graph.place?, found]
    rfl
  · rintro ⟨node, other, located, named', held⟩
    obtain rfl := Graph.object?_injective named named'
    exact ⟨_, rfl, node, Graph.node?_of_place?_local located, held⟩

theorem edge_of_mem_pointsTo (reader : SubscriberId) {declared : Variable} {context : Context}
    (named : results.graph.object? id = some object)
    (member : id ∈ results.pointsTo declared context) :
    ∃ place, .edge place object ∈ results.graph.facts reader ∧
      (place = .local (declared.replica context results.initialContext) ∨
        ∃ kill, place = .localAt (declared.replica context results.initialContext) kill) := by
  cases sensitive : declared.flowSensitive with
  | false => exact ⟨_, (mem_pointsTo reader sensitive named).mp member, .inl rfl⟩
  | true =>
      unfold pointsTo at member
      rw [sensitive] at member
      obtain ⟨_, isWrite, node, found, held⟩ := mem_unionOf.mp member
      obtain ⟨kill, _, rfl⟩ := List.mem_map.mp isWrite
      refine ⟨_, ⟨node, id, ?_, named, held⟩, .inr ⟨kill, rfl⟩⟩
      rw [Graph.place?, found]
      rfl

theorem mem_fieldPointsTo_iff {owner : ObjectId} {key : FieldKey} :
    id ∈ results.fieldPointsTo owner key ↔ ∃ type node,
      results.graph.node? node = some (.field owner key type) ∧ results.graph.HasEdge node id := by
  unfold fieldPointsTo
  rw [mem_unionOf]
  constructor
  · rintro ⟨slot, member, node, found, held⟩
    obtain ⟨_, isSlot⟩ := List.mem_filter.mp member
    cases slot with
    | field object' key' type =>
        simp only [Bool.and_eq_true, decide_eq_true_eq] at isSlot
        obtain ⟨rfl, rfl⟩ := isSlot
        exact ⟨type, node, found, held⟩
    | «local» replica => cases isSlot
    | localAt replica point => cases isSlot
  · rintro ⟨type, node, found, held⟩
    refine ⟨_, List.mem_filter.mpr ⟨Interner.mem_keys_iff.mpr ⟨node, found⟩, ?_⟩, node, found, held⟩
    simp

theorem mem_fieldPointsTo (reader : SubscriberId) {owner : ObjectId} {holder : HeapObject}
    {key : FieldKey} (isOwner : results.graph.object? owner = some holder)
    (named : results.graph.object? id = some object) :
    id ∈ results.fieldPointsTo owner key ↔
      ∃ type, .edge (.field holder key type) object ∈ results.graph.facts reader := by
  rw [mem_fieldPointsTo_iff]
  constructor
  · rintro ⟨type, node, found, held⟩
    refine ⟨type, node, id, ?_, named, held⟩
    rw [Graph.place?, found, Option.bind_some, Graph.placeOf?, isOwner]
    rfl
  · rintro ⟨type, node, other, located, named', held⟩
    obtain rfl := Graph.object?_injective named named'
    exact ⟨type, node, Graph.node?_of_place?_field located isOwner, held⟩

end Results

end ObjectFlow
