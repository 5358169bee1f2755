import ObjectFlow.Proofs.Graph.Fact

/-!
# Graphs that gain objects

A graph may come to name objects that it does not point to.  If that is all it
gains, its nodes and calls keep their ids and every node points to what it did.
-/

namespace ObjectFlow.Graph

section PointsTo

variable {graph : Graph} {node : NodeId}

private theorem pointsTo?_of_some {key : Node} (found : graph.node? node = some key) :
    ∃ objects, graph.pointsTo? node = some objects ∧
      ∀ id, id ∈ objects ↔ graph.HasEdge node id := by
  obtain ⟨data, payload⟩ := payload?_of_node? found
  have isSet : graph.pointsTo? node = some data.pointsTo.snapshot := by
    rw [pointsTo?, payload]
    rfl
  refine ⟨_, isSet, fun id => ⟨fun member => ⟨_, isSet, member⟩, ?_⟩⟩
  rintro ⟨objects, found, member⟩
  cases isSet.symm.trans found
  exact member

private theorem pointsTo?_of_none (absent : graph.node? node = none) :
    graph.pointsTo? node = none := by
  refine Option.eq_none_iff_forall_ne_some.mpr fun objects found => ?_
  obtain ⟨data, payload, _⟩ := Option.map_eq_some_iff.mp found
  obtain ⟨key, named⟩ := node?_of_payload? payload
  rw [absent] at named
  cases named

end PointsTo

structure GainsObjects (more : Set HeapObject) (graph grown : Graph) : Prop where
  extend : graph.Extends grown
  valid : grown.Valid
  facts : ∀ reader, grown.facts reader ⊆ graph.facts reader ∪ Fact.object '' more

namespace GainsObjects

variable {more : Set HeapObject} {graph grown last : Graph}

theorem refl (valid : graph.Valid) : GainsObjects more graph graph :=
  ⟨.refl graph, valid, fun _ => Set.subset_union_left⟩

theorem trans (first : GainsObjects more graph grown) (second : GainsObjects more grown last) :
    GainsObjects more graph last where
  extend := first.extend.trans second.extend
  valid := second.valid
  facts reader := (second.facts reader).trans
    (Set.union_subset (first.facts reader) Set.subset_union_right)

variable (gains : GainsObjects more graph grown)

include gains

theorem mono {larger : Set HeapObject} (subset : more ⊆ larger) :
    GainsObjects larger graph grown where
  extend := gains.extend
  valid := gains.valid
  facts reader :=
    (gains.facts reader).trans (Set.union_subset_union_right _ (Set.image_mono subset))

theorem said {reader : SubscriberId} {fact : Fact} (said : grown.Says reader fact)
    (other : ∀ object, fact ≠ .object object) : graph.Says reader fact :=
  (gains.facts reader said).resolve_right fun ⟨object, _, same⟩ => other object same.symm

private theorem object_cases {id : ObjectId} {object : HeapObject}
    (named : grown.object? id = some object) :
    graph.object? id = some object ∨ object ∈ more := by
  have said : .object object ∈ grown.facts 0 := ⟨id, named⟩
  rcases gains.facts 0 said with ⟨earlier, named'⟩ | ⟨_, member, same⟩
  · rw [object?_injective named (gains.extend.object named')]
    exact .inl named'
  · cases same
    exact .inr member

theorem place?_eq (node : NodeId) : grown.place? node = graph.place? node := by
  refine Option.ext fun place => ⟨fun located => ?_, gains.extend.place⟩
  obtain ⟨node', located'⟩ :=
    gains.said (show grown.Says 0 (.node place) from ⟨node, located⟩) (by simp)
  rw [place?_injective located (gains.extend.place located')]
  exact located'

theorem node?_eq (node : NodeId) : grown.node? node = graph.node? node := by
  refine Option.ext fun key => ⟨fun found => ?_, gains.extend.node⟩
  obtain ⟨place, located⟩ := gains.valid.place?_of_node? found
  rw [gains.place?_eq] at located
  obtain ⟨key', found', _⟩ := node?_of_place? located
  rw [found', ← found, ← gains.extend.node found']

theorem hasEdge_iff {node : NodeId} {id : ObjectId} :
    grown.HasEdge node id ↔ graph.HasEdge node id := by
  refine ⟨fun held => ?_, gains.extend.edge⟩
  obtain ⟨place, located⟩ := gains.valid.place?_of_hasEdge held
  obtain ⟨object, named⟩ := gains.valid.target node id held
  obtain ⟨node', id', located', named', held'⟩ :=
    gains.said (show grown.Says 0 (.edge place object) from ⟨node, id, located, named, held⟩)
      (by simp)
  rw [place?_injective located (gains.extend.place located'),
    object?_injective named (gains.extend.object named')]
  exact held'

private theorem call?_eq (id : CallId) : grown.call? id = graph.call? id := by
  refine Option.ext fun edge => ⟨fun found => ?_, gains.extend.call⟩
  obtain ⟨id', found'⟩ := gains.said (show grown.Says 0 (.call edge) from ⟨id, found⟩) (by simp)
  rw [Interner.key?_injective found (gains.extend.call found')]
  exact found'

theorem pointsTo?_eq (node : NodeId) : grown.pointsTo? node = graph.pointsTo? node := by
  cases found : graph.node? node with
  | none => rw [pointsTo?_of_none found, pointsTo?_of_none ((gains.node?_eq node).trans found)]
  | some key =>
      obtain ⟨objects, isSet, members⟩ := pointsTo?_of_some found
      obtain ⟨objects', isSet', members'⟩ :=
        pointsTo?_of_some ((gains.node?_eq node).trans found)
      rw [isSet, isSet']
      exact congrArg some (OrderedSet.ext fun id =>
        (members' id).trans (gains.hasEdge_iff.trans (members id).symm))

theorem nodes_eq : grown.nodes.keys = graph.nodes.keys := by
  refine List.ext_getElem? fun id => ?_
  rw [← Interner.key?_eq, ← Interner.key?_eq]
  exact gains.node?_eq id

theorem callEdges_eq : grown.callEdges = graph.callEdges := by
  refine List.ext_getElem? fun id => ?_
  rw [callEdges, callEdges, ← Interner.key?_eq, ← Interner.key?_eq]
  exact gains.call?_eq id

theorem exists_added : ∃ added, grown.objects.keys = graph.objects.keys ++ added ∧
    ∀ object ∈ added, object ∈ more ∧ object ∉ graph.objects.keys := by
  obtain ⟨added, same⟩ : graph.objects.keys <+: grown.objects.keys := by
    refine List.prefix_iff_getElem?.mpr fun id inside => ?_
    have named : graph.object? id = some graph.objects.keys[id] := by
      rw [object?, Interner.key?_eq]
      exact List.getElem?_eq_getElem inside
    rw [← Interner.key?_eq]
    exact gains.extend.object named
  refine ⟨added, same.symm, fun object isAdded => ?_⟩
  have distinct : (graph.objects.keys ++ added).Nodup := same ▸ grown.objects.distinct
  have isNew : object ∉ graph.objects.keys := fun earlier =>
    (List.nodup_append.mp distinct).2.2 object earlier object isAdded rfl
  obtain ⟨id, named⟩ := Interner.mem_keys_iff.mp
    (show object ∈ grown.objects.keys from same ▸ List.mem_append_right _ isAdded)
  refine ⟨(gains.object_cases named).resolve_left fun earlier => ?_, isNew⟩
  exact isNew (Interner.mem_keys_iff.mpr ⟨id, earlier⟩)

end GainsObjects

end ObjectFlow.Graph
