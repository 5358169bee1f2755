import ObjectFlow.Proofs.Effect
import ObjectFlow.Proofs.Graph.Fact

/-!
# What the operations on a graph add

Each operation on a valid graph that is given ids with a meaning succeeds,
leaves a valid graph, adds just the facts it is meant to add, and answers
exactly what it added.
-/

namespace ObjectFlow.Graph

open Effect

/-- A change for the sake of one reader: what it answered, and the facts it may have added. -/
structure Adds (reader : SubscriberId) (graph grown : Graph) (delta : Delta) (new : Set Fact) :
    Prop where
  growth : Growth reader graph grown delta
  valid : grown.Valid
  facts : grown.facts reader ⊆ graph.facts reader ∪ new

/-- Whatever ids it is given, a change that succeeds adds just what it says, and keeps the sets
sound. -/
def Gains {α : Type} (reader : SubscriberId) (update : Update α) (told : α → Delta) : Prop :=
  ∀ graph : Graph, graph.SetsValid → ∀ value grown, update graph = (.ok value, grown) →
    grown.SetsValid ∧ Growth reader graph grown (told value)

section

variable {graph : Graph} {reader : SubscriberId}

theorem Adds.refl (valid : graph.Valid) (new : Set Fact) : Adds reader graph graph ∅ new :=
  ⟨.refl reader graph, valid, Set.subset_union_left⟩

theorem hasEdge_iff {node : NodeId} {id : ObjectId} :
    graph.HasEdge node id ↔
      ∃ data, graph.nodes.payload? node = some data ∧ id ∈ data.pointsTo.snapshot := by
  simp only [HasEdge, pointsTo?, Option.map_eq_some_iff]
  constructor
  · rintro ⟨objects, ⟨data, found, rfl⟩, member⟩
    exact ⟨data, found, member⟩
  · rintro ⟨data, found, member⟩
    exact ⟨_, ⟨data, found, rfl⟩, member⟩

theorem watched_iff {node : NodeId} {other : SubscriberId} :
    graph.Watched node other ↔
      ∃ data, graph.nodes.payload? node = some data ∧ other ∈ data.subscribers.snapshot := by
  simp only [Watched, subscribers?, Option.map_eq_some_iff]
  constructor
  · rintro ⟨readers, ⟨data, found, rfl⟩, member⟩
    exact ⟨data, found, member⟩
  · rintro ⟨data, found, member⟩
    exact ⟨_, ⟨data, found, rfl⟩, member⟩

end

/-! ## Nodes -/

section Node

variable {graph : Graph} {node : Node} {nodes : Interner Node NodeData}

private def withNodes (graph : Graph) (nodes : Interner Node NodeData) : Graph :=
  { graph with nodes := nodes }

variable (entries : nodes.entries = graph.nodes.entries ++ [(node, ⟨.empty graph.setKind, .empty⟩)])
include entries

private theorem payload?_withNode_cases {id : NodeId} {data : NodeData}
    (found : (withNodes graph nodes).nodes.payload? id = some data) :
    graph.nodes.payload? id = some data ∨ data = ⟨.empty graph.setKind, .empty⟩ := by
  obtain ⟨entry, held, rfl⟩ := Option.map_eq_some_iff.mp found
  rcases Interner.entry?_append_cases entries held with earlier | ⟨_, rfl⟩
  · exact .inl (by simp [Interner.payload?, earlier])
  · exact .inr rfl

private theorem payload?_withNode {id : NodeId} {data : NodeData}
    (found : graph.nodes.payload? id = some data) :
    (withNodes graph nodes).nodes.payload? id = some data := by
  obtain ⟨entry, held, rfl⟩ := Option.map_eq_some_iff.mp found
  simp [withNodes, Interner.payload?, Interner.entry?_append_of_some entries held]

private theorem node?_withNode {id : NodeId} {key : Node} (found : graph.node? id = some key) :
    (withNodes graph nodes).node? id = some key := by
  obtain ⟨entry, held, rfl⟩ := Option.map_eq_some_iff.mp found
  simp [withNodes, node?, Interner.key?, Interner.entry?_append_of_some entries held]

private theorem node?_withNode_cases {id : NodeId} {key : Node}
    (found : (withNodes graph nodes).node? id = some key) :
    graph.node? id = some key ∨ key = node := by
  obtain ⟨entry, held, rfl⟩ := Option.map_eq_some_iff.mp found
  rcases Interner.entry?_append_cases entries held with earlier | ⟨_, rfl⟩
  · exact .inl (by simp [node?, Interner.key?, earlier])
  · exact .inr rfl

private theorem hasEdge_withNode {id : NodeId} {object : ObjectId} :
    (withNodes graph nodes).HasEdge id object ↔ graph.HasEdge id object := by
  rw [hasEdge_iff, hasEdge_iff]
  constructor
  · rintro ⟨data, found, member⟩
    rcases payload?_withNode_cases entries found with earlier | rfl
    · exact ⟨data, earlier, member⟩
    · exact absurd member (KeySet.not_mem_snapshot_empty _ _)
  · rintro ⟨data, found, member⟩
    exact ⟨data, payload?_withNode entries found, member⟩

private theorem watched_withNode {id : NodeId} {other : SubscriberId} :
    (withNodes graph nodes).Watched id other ↔ graph.Watched id other := by
  rw [watched_iff, watched_iff]
  constructor
  · rintro ⟨data, found, member⟩
    rcases payload?_withNode_cases entries found with earlier | rfl
    · exact ⟨data, earlier, member⟩
    · exact absurd member (KeySet.not_mem_snapshot_empty .hashed other)
  · rintro ⟨data, found, member⟩
    exact ⟨data, payload?_withNode entries found, member⟩

private theorem growth_withNode (reader : SubscriberId) :
    Growth reader graph (withNodes graph nodes) ∅ where
  node held := node?_withNode entries held
  object := id
  call := id
  edge held := (hasEdge_withNode entries).mpr held
  initialized := id
  watched held := (watched_withNode entries).mpr held
  subscription held := .inl ((watched_withNode entries).mp held)
  edges _ _ := iff_of_false (EdgeMap.not_mem_empty _) fun both =>
    both.2 ((hasEdge_withNode entries).mp both.1)
  calls _ := iff_of_false (OrderedSet.not_mem_empty _) fun both => both.2 both.1
  initializers _ := iff_of_false (OrderedSet.not_mem_empty _) fun both => both.2 both.1

private theorem setsValid_withNode (sets : graph.SetsValid) :
    (withNodes graph nodes).SetsValid where
  pointsTo id data found := by
    rcases payload?_withNode_cases entries found with earlier | rfl
    · exact sets.pointsTo id data earlier
    · exact KeySet.valid_empty _
  subscribers id data found := by
    rcases payload?_withNode_cases entries found with earlier | rfl
    · exact sets.subscribers id data earlier
    · exact HashedSet.valid_empty

private theorem valid_withNode {place : Place} (valid : graph.Valid)
    (meaning : graph.placeOf? node = some place) : (withNodes graph nodes).Valid where
  toSetsValid := setsValid_withNode entries valid.toSetsValid
  owner id object slot type found := by
    rcases node?_withNode_cases entries found with earlier | rfl
    · exact valid.owner id object slot type earlier
    · obtain ⟨owner, named, _⟩ := Option.map_eq_some_iff.mp meaning
      exact ⟨owner, named⟩
  target id object held := valid.target id object ((hasEdge_withNode entries).mp held)

private theorem place?_withNode_cases {id : NodeId} {place other : Place}
    (meaning : graph.placeOf? node = some place)
    (located : (withNodes graph nodes).place? id = some other) :
    graph.place? id = some other ∨ other = place := by
  obtain ⟨key, held, here⟩ := node?_of_place? located
  have here : graph.placeOf? key = some other := here
  rcases node?_withNode_cases entries held with earlier | rfl
  · exact .inl (by rw [place?, earlier, Option.bind_some, here])
  · exact .inr (Option.some.inj (here.symm.trans meaning))

private theorem facts_withNode {place : Place} (valid : graph.Valid)
    (meaning : graph.placeOf? node = some place) (reader : SubscriberId) :
    (withNodes graph nodes).facts reader ⊆ graph.facts reader ∪ {.node place} := by
  have growth := growth_withNode entries reader
  intro fact said
  cases fact with
  | object object => exact .inl said
  | node other =>
      obtain ⟨id, located⟩ := said
      rcases place?_withNode_cases entries meaning located with earlier | rfl
      · exact .inl ⟨id, earlier⟩
      · exact .inr rfl
  | edge other object =>
      obtain ⟨id, target, located, named, held⟩ := said
      have held := (hasEdge_withNode entries).mp held
      obtain ⟨earlier, was⟩ := valid.place?_of_hasEdge held
      obtain rfl := Option.some.inj ((growth.place was).symm.trans located)
      exact .inl ⟨id, target, was, named, held⟩
  | call edge => exact .inl said
  | initializer method => exact .inl said
  | watch other =>
      obtain ⟨id, located, held⟩ := said
      have held := (watched_withNode entries).mp held
      obtain ⟨data, found, _⟩ := watched_iff.mp held
      obtain ⟨key, named⟩ := node?_of_payload? found
      obtain ⟨earlier, was⟩ := valid.place?_of_node? named
      obtain rfl := Option.some.inj ((growth.place was).symm.trans located)
      exact .inl ⟨id, was, held⟩
  | failure => exact said.elim

end Node

theorem node_gains (reader : SubscriberId) (node : Node) :
    Gains reader (Graph.node node) fun _ => ∅ := by
  intro graph sets value grown run
  have result : (Except.ok (graph.nodes.intern node ⟨.empty graph.setKind, .empty⟩).1.1,
      withNodes graph (graph.nodes.intern node ⟨.empty graph.setKind, .empty⟩).2) =
      (Except.ok value, grown) := run
  cases result
  rcases Interner.intern_cases graph.nodes node ⟨.empty graph.setKind, .empty⟩ with
    ⟨id, _, same⟩ | ⟨_, nodes, fresh, entries⟩
  · rw [same]
    exact ⟨sets, .refl reader graph⟩
  · rw [fresh]
    exact ⟨setsValid_withNode entries sets, growth_withNode entries reader⟩

theorem node_run {graph : Graph} {node : Node} {place : Place} (reader : SubscriberId)
    (valid : graph.Valid) (meaning : graph.placeOf? node = some place) :
    ∃ id grown, Graph.node node graph = (.ok id, grown) ∧
      Adds reader graph grown ∅ {.node place} ∧ grown.place? id = some place := by
  rcases Interner.intern_cases graph.nodes node ⟨.empty graph.setKind, .empty⟩ with
    ⟨id, found, same⟩ | ⟨_, nodes, fresh, entries⟩
  · refine ⟨id, graph, ?_, .refl valid _, ?_⟩
    · show (Except.ok (graph.nodes.intern node _).1.1,
        { graph with nodes := (graph.nodes.intern node _).2 }) = _
      rw [same]
    · rw [place?, node?, found, Option.bind_some, meaning]
  · refine ⟨graph.nodes.size, withNodes graph nodes, ?_, ?_, ?_⟩
    · show (Except.ok (graph.nodes.intern node _).1.1,
        { graph with nodes := (graph.nodes.intern node _).2 }) = _
      rw [fresh]
      rfl
    · exact ⟨growth_withNode entries reader, valid_withNode entries valid meaning,
        facts_withNode entries valid meaning reader⟩
    · have held : (withNodes graph nodes).node? graph.nodes.size = some node := by
        simp [node?, withNodes, Interner.key?, Interner.entry?_append_size entries]
      rw [place?, held, Option.bind_some]
      exact meaning

/-! ## Objects -/

section Object

variable {graph : Graph} {object : HeapObject} {objects : Interner HeapObject Unit}

private def withObjects (graph : Graph) (objects : Interner HeapObject Unit) : Graph :=
  { graph with objects := objects }

variable (entries : objects.entries = graph.objects.entries ++ [(object, ())])
include entries

private theorem object?_withObject {id : ObjectId} {other : HeapObject}
    (found : graph.object? id = some other) :
    (withObjects graph objects).object? id = some other := by
  obtain ⟨entry, held, rfl⟩ := Option.map_eq_some_iff.mp found
  simp [withObjects, object?, Interner.key?, Interner.entry?_append_of_some entries held]

private theorem object?_withObject_cases {id : ObjectId} {other : HeapObject}
    (found : (withObjects graph objects).object? id = some other) :
    graph.object? id = some other ∨ other = object := by
  obtain ⟨entry, held, rfl⟩ := Option.map_eq_some_iff.mp found
  rcases Interner.entry?_append_cases entries held with earlier | ⟨_, rfl⟩
  · exact .inl (by simp [object?, Interner.key?, earlier])
  · exact .inr rfl

private theorem growth_withObject (reader : SubscriberId) :
    Growth reader graph (withObjects graph objects) ∅ where
  node := id
  object held := object?_withObject entries held
  call := id
  edge := id
  initialized := id
  watched := id
  subscription := .inl
  edges _ _ := iff_of_false (EdgeMap.not_mem_empty _) fun both => both.2 both.1
  calls _ := iff_of_false (OrderedSet.not_mem_empty _) fun both => both.2 both.1
  initializers _ := iff_of_false (OrderedSet.not_mem_empty _) fun both => both.2 both.1

/-- All owners of fields have a name already, so no node changes its meaning. -/
private theorem place?_withObject {id : NodeId} {place : Place} (valid : graph.Valid)
    (located : (withObjects graph objects).place? id = some place) :
    graph.place? id = some place := by
  obtain ⟨key, held, _⟩ := node?_of_place? located
  obtain ⟨earlier, was⟩ := valid.place?_of_node? (show graph.node? id = some key from held)
  rw [was, ← located]
  exact ((growth_withObject entries 0).place was).symm

private theorem adds_withObject (valid : graph.Valid) (reader : SubscriberId) :
    Adds reader graph (withObjects graph objects) ∅ {.object object} where
  growth := growth_withObject entries reader
  valid :=
    { toSetsValid := ⟨valid.pointsTo, valid.subscribers⟩
      owner id other slot type found := by
        obtain ⟨owner, named⟩ := valid.owner id other slot type found
        exact ⟨owner, object?_withObject entries named⟩
      target id other held := by
        obtain ⟨target, named⟩ := valid.target id other held
        exact ⟨target, object?_withObject entries named⟩ }
  facts := by
    intro fact said
    cases fact with
    | object other =>
        obtain ⟨id, named⟩ := said
        rcases object?_withObject_cases entries named with earlier | rfl
        · exact .inl ⟨id, earlier⟩
        · exact .inr rfl
    | node place =>
        obtain ⟨id, located⟩ := said
        exact .inl ⟨id, place?_withObject entries valid located⟩
    | edge place other =>
        obtain ⟨node, id, located, named, held⟩ := said
        obtain ⟨target, was⟩ := valid.target node id held
        obtain rfl := Option.some.inj ((object?_withObject entries was).symm.trans named)
        exact .inl ⟨node, id, place?_withObject entries valid located, was, held⟩
    | call edge => exact .inl said
    | initializer method => exact .inl said
    | watch place =>
        obtain ⟨node, located, held⟩ := said
        exact .inl ⟨node, place?_withObject entries valid located, held⟩
    | failure => exact said.elim

end Object

theorem object_gains (reader : SubscriberId) (object : HeapObject) :
    Gains reader (Graph.object object) fun _ => ∅ := by
  intro graph sets value grown run
  have result : (Except.ok (graph.objects.intern object ()).1.1,
      withObjects graph (graph.objects.intern object ()).2) = (Except.ok value, grown) := run
  cases result
  rcases Interner.intern_cases graph.objects object () with
    ⟨id, _, same⟩ | ⟨_, objects, fresh, entries⟩
  · rw [same]
    exact ⟨sets, .refl reader graph⟩
  · rw [fresh]
    exact ⟨⟨sets.pointsTo, sets.subscribers⟩, growth_withObject entries reader⟩

theorem object_run {graph : Graph} (reader : SubscriberId) (valid : graph.Valid)
    (object : HeapObject) :
    ∃ id grown, Graph.object object graph = (.ok id, grown) ∧
      Adds reader graph grown ∅ {.object object} ∧ grown.object? id = some object := by
  rcases Interner.intern_cases graph.objects object () with
    ⟨id, found, same⟩ | ⟨_, objects, fresh, entries⟩
  · refine ⟨id, graph, ?_, .refl valid _, found⟩
    show (Except.ok (graph.objects.intern object ()).1.1,
      { graph with objects := (graph.objects.intern object ()).2 }) = _
    rw [same]
  · refine ⟨graph.objects.size, withObjects graph objects, ?_,
      adds_withObject entries valid reader, ?_⟩
    · show (Except.ok (graph.objects.intern object ()).1.1,
        { graph with objects := (graph.objects.intern object ()).2 }) = _
      rw [fresh]
      rfl
    · simp [object?, withObjects, Interner.key?, Interner.entry?_append_size entries]

/-! ## Subscriptions and edges -/

section Payload

variable {graph : Graph} (node : NodeId) (change : NodeData → NodeData)

private def changed (graph : Graph) (node : NodeId) (change : NodeData → NodeData) : Graph :=
  { graph with nodes := graph.nodes.modify node change }

private theorem payload?_changed (id : NodeId) :
    (changed graph node change).nodes.payload? id =
      (graph.nodes.payload? id).map fun data => if node = id then change data else data :=
  Interner.payload?_modify graph.nodes node id change

private theorem node?_changed (id : NodeId) :
    (changed graph node change).node? id = graph.node? id :=
  Interner.key?_modify graph.nodes node id change

private theorem place?_changed (id : NodeId) :
    (changed graph node change).place? id = graph.place? id := by
  unfold place?
  rw [node?_changed]
  rfl

end Payload

section Subscription

variable {graph : Graph} {node : NodeId} {data : NodeData} (reader : SubscriberId)

private def withReader (graph : Graph) (node : NodeId) (reader : SubscriberId) : Graph :=
  changed graph node fun data => { data with subscribers := (data.subscribers.add reader).2 }

private theorem subscribe_eq (held : graph.nodes.payload? node = some data) :
    Graph.subscribe node reader graph = (.ok (), withReader graph node reader) := by
  simp only [subscribe, run_bind, run_get, held, run_inRange_some, run_set]
  rfl

private theorem pointsTo?_withReader (id : NodeId) :
    (withReader graph node reader).pointsTo? id = graph.pointsTo? id := by
  unfold pointsTo?
  rw [withReader, payload?_changed, Option.map_map]
  congr 1
  funext data
  simp only [Function.comp_apply]
  split <;> rfl

private theorem hasEdge_withReader {id : NodeId} {object : ObjectId} :
    (withReader graph node reader).HasEdge id object ↔ graph.HasEdge id object := by
  unfold HasEdge
  rw [pointsTo?_withReader]

variable {reader} (sets : graph.SetsValid) (held : graph.nodes.payload? node = some data)

include sets

private theorem setsValid_withReader : (withReader graph node reader).SetsValid where
  pointsTo id data found := by
    rw [withReader, payload?_changed] at found
    obtain ⟨old, was, rfl⟩ := Option.map_eq_some_iff.mp found
    split <;> exact sets.pointsTo id old was
  subscribers id data found := by
    rw [withReader, payload?_changed] at found
    obtain ⟨old, was, rfl⟩ := Option.map_eq_some_iff.mp found
    split
    · exact (sets.subscribers id old was).add reader
    · exact sets.subscribers id old was

include held

private theorem watched_withReader {id : NodeId} {other : SubscriberId} :
    (withReader graph node reader).Watched id other ↔
      graph.Watched id other ∨ (id = node ∧ other = reader) := by
  simp only [watched_iff, withReader, payload?_changed, Option.map_eq_some_iff]
  constructor
  · rintro ⟨_, ⟨data, found, rfl⟩, member⟩
    split at member
    · next here =>
        rcases (sets.subscribers id data found).mem_add.mp member with same | earlier
        · exact .inr ⟨here.symm, same⟩
        · exact .inl ⟨data, found, earlier⟩
    · exact .inl ⟨data, found, member⟩
  · rintro (⟨data, found, member⟩ | ⟨rfl, rfl⟩)
    · refine ⟨_, ⟨data, found, rfl⟩, ?_⟩
      split
      · exact (sets.subscribers id data found).mem_add.mpr (.inr member)
      · exact member
    · refine ⟨_, ⟨data, held, rfl⟩, ?_⟩
      simp only [if_true]
      exact (sets.subscribers id data held).mem_add.mpr (.inl rfl)

private theorem growth_withReader : Growth reader graph (withReader graph node reader) ∅ where
  node found := (node?_changed node _ _).trans found
  object := id
  call := id
  edge := (hasEdge_withReader reader).mpr
  initialized := id
  watched found := (watched_withReader sets held).mpr (.inl found)
  subscription found := ((watched_withReader sets held).mp found).imp_right And.right
  edges _ _ := iff_of_false (EdgeMap.not_mem_empty _) fun both =>
    both.2 ((hasEdge_withReader reader).mp both.1)
  calls _ := iff_of_false (OrderedSet.not_mem_empty _) fun both => both.2 both.1
  initializers _ := iff_of_false (OrderedSet.not_mem_empty _) fun both => both.2 both.1

end Subscription

theorem subscribe_gains (reader : SubscriberId) (node : NodeId) :
    Gains reader (Graph.subscribe node reader) fun _ => ∅ := by
  intro graph sets value grown run
  cases held : graph.nodes.payload? node with
  | none =>
      simp only [subscribe, run_bind, run_get, held, run_inRange_none] at run
      cases run
  | some data =>
      rw [subscribe_eq reader held] at run
      cases run
      exact ⟨setsValid_withReader sets, growth_withReader sets held⟩

private theorem subscribe_run {graph : Graph} {node : NodeId} {place : Place}
    (reader : SubscriberId) (valid : graph.Valid) (located : graph.place? node = some place) :
    ∃ grown, Graph.subscribe node reader graph = (.ok (), grown) ∧
      Adds reader graph grown ∅ {.watch place} ∧ grown.Watched node reader ∧
      ∀ id, grown.pointsTo? id = graph.pointsTo? id := by
  obtain ⟨data, held⟩ := payload?_of_place? located
  have sets := valid.toSetsValid
  refine ⟨withReader graph node reader, subscribe_eq reader held,
    ⟨growth_withReader sets held, ⟨setsValid_withReader sets, ?_, ?_⟩, ?_⟩,
    (watched_withReader sets held).mpr (.inr ⟨rfl, rfl⟩), pointsTo?_withReader reader⟩
  · intro id object slot type found
    rw [withReader, node?_changed] at found
    exact valid.owner id object slot type found
  · intro id object found
    exact valid.target id object ((hasEdge_withReader reader).mp found)
  · intro fact said
    cases fact with
    | object other => exact .inl said
    | node other =>
        obtain ⟨id, found⟩ := said
        rw [withReader, place?_changed] at found
        exact .inl ⟨id, found⟩
    | edge other object =>
        obtain ⟨id, target, found, named, edge⟩ := said
        rw [withReader, place?_changed] at found
        exact .inl ⟨id, target, found, named, (hasEdge_withReader reader).mp edge⟩
    | call edge => exact .inl said
    | initializer method => exact .inl said
    | watch other =>
        obtain ⟨id, found, watched⟩ := said
        rw [withReader, place?_changed] at found
        rcases (watched_withReader sets held).mp watched with earlier | ⟨rfl, _⟩
        · exact .inl ⟨id, found, earlier⟩
        · exact .inr (by rw [Option.some.inj (found.symm.trans located)]; rfl)
    | failure => exact said.elim

theorem read_run {graph : Graph} {node : NodeId} {place : Place} (reader : SubscriberId)
    (valid : graph.Valid) (located : graph.place? node = some place) :
    ∃ objects grown, Graph.read node reader graph = (.ok objects, grown) ∧
      Adds reader graph grown ∅ {.watch place} ∧ grown.Watched node reader ∧
      ∀ id, id ∈ objects ↔ graph.HasEdge node id := by
  obtain ⟨grown, run, adds, watched, sets⟩ := subscribe_run reader valid located
  obtain ⟨data, held⟩ := payload?_of_place? located
  have shown : graph.pointsTo? node = some data.pointsTo.snapshot := by simp [pointsTo?, held]
  refine ⟨data.pointsTo.snapshot, grown, ?_, adds, watched, fun id => ?_⟩
  · simp only [read, run_bind, run, run_get, sets, shown, run_inRange_some]
  · unfold HasEdge
    rw [shown]
    constructor
    · intro member
      exact ⟨_, rfl, member⟩
    · rintro ⟨_, same, member⟩
      rw [Option.some.inj same]
      exact member

def edgesTo (graph : Graph) (place : Place) (ids : IdSet) : Set Fact :=
  {fact | ∃ id ∈ ids, ∃ object, graph.object? id = some object ∧ fact = .edge place object}

section Edges

variable {graph : Graph} {node : NodeId} {data : NodeData} (ids : IdSet)

private def withObjectsAt (graph : Graph) (node : NodeId) (pointsTo : KeySet) : Graph :=
  changed graph node fun data => { data with pointsTo := pointsTo }

private theorem addEdges_eq (held : graph.nodes.payload? node = some data)
    (nonempty : ¬ ids.isEmpty = true) :
    Graph.addEdges node ids graph = (.ok (.ofEdges node (addAll data.pointsTo ids).1),
      withObjectsAt graph node (addAll data.pointsTo ids).2) := by
  rw [addEdges, if_neg nonempty]
  simp only [run_bind, run_get, held, run_inRange_some, run_set, run_pure]
  rfl

variable (sets : graph.SetsValid) (held : graph.nodes.payload? node = some data)

include sets held

private theorem setsValid_withObjectsAt :
    (withObjectsAt graph node (addAll data.pointsTo ids).2).SetsValid where
  pointsTo id old found := by
    rw [withObjectsAt, payload?_changed] at found
    obtain ⟨old, was, rfl⟩ := Option.map_eq_some_iff.mp found
    split
    · exact ((sets.pointsTo node data held).addAll ids).1
    · exact sets.pointsTo id old was
  subscribers id old found := by
    rw [withObjectsAt, payload?_changed] at found
    obtain ⟨old, was, rfl⟩ := Option.map_eq_some_iff.mp found
    split <;> exact sets.subscribers id old was

private theorem hasEdge_withObjectsAt {id : NodeId} {object : ObjectId} :
    (withObjectsAt graph node (addAll data.pointsTo ids).2).HasEdge id object ↔
      graph.HasEdge id object ∨ (id = node ∧ object ∈ ids) := by
  obtain ⟨_, grows, _⟩ := (sets.pointsTo node data held).addAll ids
  simp only [hasEdge_iff, withObjectsAt, payload?_changed, Option.map_eq_some_iff]
  constructor
  · rintro ⟨_, ⟨old, found, rfl⟩, member⟩
    split at member
    · next here =>
        subst here
        rcases (grows object).mp member with added | earlier
        · exact .inr ⟨rfl, added⟩
        · exact .inl ⟨data, held, earlier⟩
    · exact .inl ⟨old, found, member⟩
  · rintro (⟨old, found, member⟩ | ⟨rfl, member⟩)
    · refine ⟨_, ⟨old, found, rfl⟩, ?_⟩
      split
      · next here =>
          subst here
          obtain rfl := Option.some.inj (held.symm.trans found)
          exact (grows object).mpr (.inr member)
      · exact member
    · refine ⟨_, ⟨data, held, rfl⟩, ?_⟩
      simp only [if_true]
      exact (grows object).mpr (.inl member)

omit sets held in
private theorem watched_withObjectsAt {pointsTo : KeySet} {id : NodeId} {other : SubscriberId} :
    (withObjectsAt graph node pointsTo).Watched id other ↔ graph.Watched id other := by
  simp only [watched_iff, withObjectsAt, payload?_changed, Option.map_eq_some_iff]
  constructor
  · rintro ⟨_, ⟨old, found, rfl⟩, member⟩
    split at member <;> exact ⟨old, found, member⟩
  · rintro ⟨old, found, member⟩
    refine ⟨_, ⟨old, found, rfl⟩, ?_⟩
    split <;> exact member

private theorem growth_withObjectsAt (reader : SubscriberId) :
    Growth reader graph (withObjectsAt graph node (addAll data.pointsTo ids).2)
      (.ofEdges node (addAll data.pointsTo ids).1) where
  node found := (node?_changed node _ _).trans found
  object := id
  call := id
  edge found := (hasEdge_withObjectsAt ids sets held).mpr (.inl found)
  initialized := id
  watched := watched_withObjectsAt.mpr
  subscription found := .inl (watched_withObjectsAt.mp found)
  edges id object := by
    obtain ⟨_, _, new⟩ := (sets.pointsTo node data held).addAll ids
    rw [Delta.mem_ofEdges, hasEdge_withObjectsAt ids sets held]
    constructor
    · rintro ⟨rfl, listed⟩
      obtain ⟨member, absent⟩ := (new object).mp listed
      refine ⟨.inr ⟨rfl, member⟩, fun earlier => ?_⟩
      obtain ⟨old, found, present⟩ := hasEdge_iff.mp earlier
      obtain rfl := Option.some.inj (held.symm.trans found)
      exact absent present
    · rintro ⟨before | ⟨rfl, member⟩, earlier⟩
      · exact absurd before earlier
      · refine ⟨rfl, (new object).mpr ⟨member, fun present => ?_⟩⟩
        exact earlier (hasEdge_iff.mpr ⟨data, held, present⟩)
  calls _ := iff_of_false (OrderedSet.not_mem_empty _) fun both => both.2 both.1
  initializers _ := iff_of_false (OrderedSet.not_mem_empty _) fun both => both.2 both.1

end Edges

theorem addEdges_gains (reader : SubscriberId) (node : NodeId) (ids : IdSet) :
    Gains reader (Graph.addEdges node ids) id := by
  intro graph sets delta grown run
  by_cases isEmpty : ids.isEmpty = true
  · rw [addEdges, if_pos isEmpty] at run
    cases run
    exact ⟨sets, .refl reader graph⟩
  cases held : graph.nodes.payload? node with
  | none =>
      rw [addEdges, if_neg isEmpty] at run
      simp only [run_bind, run_get, held, run_inRange_none] at run
      cases run
  | some data =>
      rw [addEdges_eq ids held isEmpty] at run
      cases run
      exact ⟨setsValid_withObjectsAt ids sets held, growth_withObjectsAt ids sets held reader⟩

theorem addEdges_run {graph : Graph} {node : NodeId} {place : Place} {ids : IdSet}
    (reader : SubscriberId) (valid : graph.Valid) (located : graph.place? node = some place)
    (named : ∀ id ∈ ids, ∃ object, graph.object? id = some object) :
    ∃ delta grown, Graph.addEdges node ids graph = (.ok delta, grown) ∧
      Adds reader graph grown delta (graph.edgesTo place ids) ∧
      ∀ id ∈ ids, grown.HasEdge node id := by
  obtain ⟨data, held⟩ := payload?_of_place? located
  by_cases isEmpty : ids.isEmpty = true
  · refine ⟨∅, graph, ?_, .refl valid _, ?_⟩
    · simp only [addEdges, isEmpty, if_true, run_pure]
    · exact fun id member => absurd member (OrderedSet.isEmpty_iff.mp isEmpty id)
  have sets := valid.toSetsValid
  refine ⟨_, _, addEdges_eq ids held isEmpty, ⟨growth_withObjectsAt ids sets held reader,
    ⟨setsValid_withObjectsAt ids sets held, ?_, ?_⟩, ?_⟩,
    fun id member => (hasEdge_withObjectsAt ids sets held).mpr (.inr ⟨rfl, member⟩)⟩
  · intro id object slot type found
    rw [withObjectsAt, node?_changed] at found
    exact valid.owner id object slot type found
  · intro id object found
    rcases (hasEdge_withObjectsAt ids sets held).mp found with earlier | ⟨_, member⟩
    · exact valid.target id object earlier
    · exact named object member
  · intro fact said
    cases fact with
    | object other => exact .inl said
    | node other =>
        obtain ⟨id, found⟩ := said
        rw [withObjectsAt, place?_changed] at found
        exact .inl ⟨id, found⟩
    | edge other object =>
        obtain ⟨id, target, found, isNamed, edge⟩ := said
        rw [withObjectsAt, place?_changed] at found
        rcases (hasEdge_withObjectsAt ids sets held).mp edge with earlier | ⟨rfl, member⟩
        · exact .inl ⟨id, target, found, isNamed, earlier⟩
        · refine .inr ⟨target, member, object, isNamed, ?_⟩
          rw [Option.some.inj (found.symm.trans located)]
    | call edge => exact .inl said
    | initializer method => exact .inl said
    | watch other =>
        obtain ⟨id, found, watched⟩ := said
        rw [withObjectsAt, place?_changed] at found
        exact .inl ⟨id, found, watched_withObjectsAt.mp watched⟩
    | failure => exact said.elim

/-! ## Calls and initializers -/

section Call

variable {graph : Graph} {edge : CallEdge} {calls : Interner CallEdge Unit}

private def withCalls (graph : Graph) (calls : Interner CallEdge Unit) : Graph :=
  { graph with calls := calls }

variable (entries : calls.entries = graph.calls.entries ++ [(edge, ())])
include entries

private theorem call?_withCall {id : CallId} {other : CallEdge}
    (found : graph.call? id = some other) : (withCalls graph calls).call? id = some other := by
  obtain ⟨entry, held, rfl⟩ := Option.map_eq_some_iff.mp found
  simp [withCalls, call?, Interner.key?, Interner.entry?_append_of_some entries held]

private theorem call?_withCall_size :
    (withCalls graph calls).call? graph.calls.size = some edge := by
  simp [withCalls, call?, Interner.key?, Interner.entry?_append_size entries]

private theorem call?_withCall_cases {id : CallId} {other : CallEdge}
    (found : (withCalls graph calls).call? id = some other) :
    graph.call? id = some other ∨ (id = graph.calls.size ∧ other = edge) := by
  obtain ⟨entry, held, rfl⟩ := Option.map_eq_some_iff.mp found
  rcases Interner.entry?_append_cases entries held with was | ⟨last, rfl⟩
  · exact .inl (by simp [call?, Interner.key?, was])
  · exact .inr ⟨last, rfl⟩

private theorem growth_withCall (reader : SubscriberId) :
    Growth reader graph (withCalls graph calls) (.ofCall graph.calls.size) where
  node := id
  object := id
  call := call?_withCall entries
  edge := id
  initialized := id
  watched := id
  subscription := .inl
  edges _ _ := iff_of_false (EdgeMap.not_mem_empty _) fun both => both.2 both.1
  calls id := by
    rw [Delta.mem_ofCall]
    constructor
    · rintro rfl
      refine ⟨⟨edge, call?_withCall_size entries⟩, ?_⟩
      rintro ⟨other, found⟩
      exact absurd (Interner.key?_lt found) (Nat.lt_irrefl _)
    · rintro ⟨⟨other, found⟩, none⟩
      rcases call?_withCall_cases entries found with was | ⟨rfl, _⟩
      · exact absurd ⟨other, was⟩ none
      · rfl
  initializers _ := iff_of_false (OrderedSet.not_mem_empty _) fun both => both.2 both.1

end Call

theorem addCall_cases (graph : Graph) (edge : CallEdge) :
    (∃ id, graph.call? id = some edge ∧ Graph.addCall edge graph = (.ok ∅, graph)) ∨
      ∃ calls : Interner CallEdge Unit, calls.entries = graph.calls.entries ++ [(edge, ())] ∧
        Graph.addCall edge graph =
          (.ok (.ofCall graph.calls.size), { graph with calls := calls }) := by
  rcases Interner.intern_cases graph.calls edge () with
    ⟨id, found, same⟩ | ⟨_, calls, fresh, entries⟩
  · refine .inl ⟨id, found, ?_⟩
    simp only [addCall, run_bind, run_get, same, run_set, run_pure]
    rfl
  · refine .inr ⟨calls, entries, ?_⟩
    simp only [addCall, run_bind, run_get, fresh, run_set, run_pure]
    rfl

theorem addCall_gains (reader : SubscriberId) (edge : CallEdge) :
    Gains reader (Graph.addCall edge) id := by
  intro graph sets delta grown run
  rcases addCall_cases graph edge with ⟨id, _, same⟩ | ⟨calls, entries, fresh⟩
  · rw [same] at run
    cases run
    exact ⟨sets, .refl reader graph⟩
  · rw [fresh] at run
    cases run
    exact ⟨⟨sets.pointsTo, sets.subscribers⟩, growth_withCall entries reader⟩

theorem addCall_run {graph : Graph} (reader : SubscriberId) (valid : graph.Valid)
    (edge : CallEdge) :
    ∃ delta grown, Graph.addCall edge graph = (.ok delta, grown) ∧
      Adds reader graph grown delta {.call edge} ∧ Fact.call edge ∈ grown.facts reader := by
  rcases addCall_cases graph edge with ⟨id, found, same⟩ | ⟨calls, entries, fresh⟩
  · exact ⟨∅, graph, same, .refl valid _, id, found⟩
  · refine ⟨_, _, fresh, ⟨growth_withCall entries reader,
      ⟨⟨valid.pointsTo, valid.subscribers⟩, valid.owner, valid.target⟩, ?_⟩,
      graph.calls.size, call?_withCall_size entries⟩
    intro fact said
    cases fact with
    | call other =>
        obtain ⟨id, found⟩ := said
        rcases call?_withCall_cases entries found with was | ⟨_, rfl⟩
        · exact .inl ⟨id, was⟩
        · exact .inr rfl
    | object other => exact .inl said
    | node other => exact .inl said
    | edge other object => exact .inl said
    | initializer method => exact .inl said
    | watch other => exact .inl said
    | failure => exact said.elim

section Initializers

variable (graph : Graph) (methods : List MethodId)

private def withInitializers : Graph :=
  { graph with initialized := (addEach methods graph.initialized).2 }

private theorem addInitializers_eq : Graph.addInitializers methods graph =
    (.ok (.ofInitializers (addEach methods graph.initialized).1),
      withInitializers graph methods) := by
  simp only [addInitializers, run_bind, run_get, run_set, run_pure]
  rfl

variable {graph methods}

private theorem isInitialized_withInitializers {method : MethodId} :
    (withInitializers graph methods).isInitialized method = true ↔
      method ∈ methods ∨ graph.isInitialized method = true := by
  obtain ⟨_, grows, _⟩ := BitVectorSet.lawful.addEach methods graph.initialized trivial
  unfold isInitialized withInitializers
  rw [← BitVectorSet.mem_snapshot]
  exact (grows method).trans (or_congr_right BitVectorSet.mem_snapshot)

private theorem growth_withInitializers (reader : SubscriberId) :
    Growth reader graph (withInitializers graph methods)
      (.ofInitializers (addEach methods graph.initialized).1) where
  node := id
  object := id
  call := id
  edge := id
  initialized held := isInitialized_withInitializers.mpr (.inr held)
  watched := id
  subscription := .inl
  edges _ _ := by
    rw [Delta.ofInitializers_eq]
    exact iff_of_false (EdgeMap.not_mem_empty _) fun both => both.2 both.1
  calls _ := by
    rw [Delta.ofInitializers_eq]
    exact iff_of_false (OrderedSet.not_mem_empty _) fun both => both.2 both.1
  initializers method := by
    obtain ⟨_, _, new⟩ := BitVectorSet.lawful.addEach methods graph.initialized trivial
    simp only [Delta.mem_ofInitializers, new, isInitialized_withInitializers]
    constructor
    · rintro ⟨member, absent⟩
      exact ⟨.inl member, fun held => absent (BitVectorSet.mem_snapshot.mpr held)⟩
    · rintro ⟨member | held, earlier⟩
      · exact ⟨member, fun held => earlier (BitVectorSet.mem_snapshot.mp held)⟩
      · exact absurd held earlier

end Initializers

theorem addInitializers_gains (reader : SubscriberId) (methods : List MethodId) :
    Gains reader (Graph.addInitializers methods) id := by
  intro graph sets delta grown run
  rw [addInitializers_eq] at run
  cases run
  exact ⟨⟨sets.pointsTo, sets.subscribers⟩, growth_withInitializers reader⟩

theorem addInitializers_run {graph : Graph} (reader : SubscriberId) (valid : graph.Valid)
    (methods : List MethodId) :
    ∃ delta grown, Graph.addInitializers methods graph = (.ok delta, grown) ∧
      Adds reader graph grown delta {fact | ∃ method ∈ methods, fact = .initializer method} ∧
      ∀ method ∈ methods, grown.isInitialized method = true := by
  refine ⟨_, _, addInitializers_eq graph methods, ⟨growth_withInitializers reader,
    ⟨⟨valid.pointsTo, valid.subscribers⟩, valid.owner, valid.target⟩, ?_⟩,
    fun method member => isInitialized_withInitializers.mpr (.inl member)⟩
  intro fact said
  cases fact with
  | initializer method =>
      rcases isInitialized_withInitializers.mp said with member | held
      · exact .inr ⟨method, member, rfl⟩
      · exact .inl held
  | call other => exact .inl said
  | object other => exact .inl said
  | node other => exact .inl said
  | edge other object => exact .inl said
  | watch other => exact .inl said
  | failure => exact said.elim

/-! ## Combined changes -/

namespace Gains

variable {α β : Type} {reader : SubscriberId} {update : Update α} {told : β → Delta}

theorem bind {next : α → Update β} (first : Gains reader update fun _ => ∅)
    (second : ∀ value, Gains reader (next value) told) : Gains reader (update >>= next) told := by
  intro graph sets answer last run
  rw [run_bind] at run
  split at run
  · next value grown ran =>
      obtain ⟨sets', growth⟩ := first graph sets value grown ran
      obtain ⟨sets'', growth'⟩ := second value grown sets' answer last run
      rw [← Delta.empty_join (told answer)]
      exact ⟨sets'', growth.trans growth'⟩
  · cases run

theorem bind_get {next : Graph → Update β} (rest : ∀ graph, Gains reader (next graph) told) :
    Gains reader (get >>= next) told :=
  fun graph sets answer last run => rest graph graph sets answer last run

private theorem bind_inRange {value : Option α} {next : α → Update β}
    (rest : ∀ found, Gains reader (next found) told) :
    Gains reader (inRange value >>= next) told := by
  intro graph sets answer last run
  cases value with
  | none => cases run
  | some found => exact rest found graph sets answer last run

end Gains

theorem read_gains (reader : SubscriberId) (node : NodeId) :
    Gains reader (Graph.read node reader) fun _ => ∅ := by
  refine (subscribe_gains reader node).bind fun _ => .bind_get fun graph => ?_
  intro grown sets value last run
  cases found : graph.pointsTo? node with
  | none =>
      rw [found] at run
      cases run
  | some objects =>
      rw [found] at run
      cases run
      exact ⟨sets, .refl reader grown⟩

theorem addEdgesFiltered_gains (reader : SubscriberId) (hierarchy : Hierarchy) (node : NodeId)
    (objects : IdSet) (filter : TypeFilter) :
    Gains reader (Graph.addEdgesFiltered hierarchy node objects filter) id :=
  .bind_get fun _ => .bind_inRange fun _ => addEdges_gains reader node _

theorem copyEdges_gains (reader : SubscriberId) (source target : NodeId) :
    Gains reader (Graph.copyEdges source target reader) id :=
  (read_gains reader source).bind fun _ => addEdges_gains reader target _

/-! ## Filters -/

section Filter

variable {graph : Graph}

private theorem accepted?_cases (hierarchy : Hierarchy) (filter : TypeFilter) (list : List ObjectId)
    (named : ∀ id ∈ list, ∃ object, graph.object? id = some object) :
    (∃ kept, graph.accepted? hierarchy filter list = some kept ∧
      (∀ id, id ∈ kept ↔ id ∈ list ∧ ∃ object, graph.object? id = some object ∧
        filter.accepts? hierarchy object.type = some true) ∧
      ∀ id ∈ list, ∀ object, graph.object? id = some object →
        ∃ answer, filter.accepts? hierarchy object.type = some answer) ∨
    graph.accepted? hierarchy filter list = none ∧
      ∃ id ∈ list, ∃ object, graph.object? id = some object ∧
        filter.accepts? hierarchy object.type = none := by
  induction list with
  | nil => exact .inl ⟨[], rfl, by simp, by simp⟩
  | cons first rest ih =>
      obtain ⟨object, isNamed⟩ := named first List.mem_cons_self
      have type : graph.objectType? first = some object.type := by simp [objectType?, isNamed]
      cases answer : filter.accepts? hierarchy object.type with
      | none =>
          refine .inr ⟨?_, first, List.mem_cons_self, object, isNamed, answer⟩
          simp [accepted?, type, answer]
      | some keep =>
          rcases ih fun id member => named id (List.mem_cons_of_mem _ member) with
            ⟨kept, found, members, answered⟩ | ⟨found, id, member, other, isNamed', refused⟩
          · refine .inl ⟨if keep then first :: kept else kept, ?_, fun id => ?_, ?_⟩
            · simp [accepted?, type, answer, found]
            · cases keep with
              | false =>
                  simp only [Bool.false_eq_true, if_false, members, List.mem_cons]
                  constructor
                  · rintro ⟨member, rest⟩
                    exact ⟨.inr member, rest⟩
                  · rintro ⟨rfl | member, other, isNamed', accepted⟩
                    · obtain rfl := Option.some.inj (isNamed.symm.trans isNamed')
                      rw [answer] at accepted
                      cases accepted
                    · exact ⟨member, other, isNamed', accepted⟩
              | true =>
                  simp only [if_true, List.mem_cons, members]
                  constructor
                  · rintro (rfl | ⟨member, rest⟩)
                    · exact ⟨.inl rfl, object, isNamed, answer⟩
                    · exact ⟨.inr member, rest⟩
                  · rintro ⟨rfl | member, rest⟩
                    · exact .inl rfl
                    · exact .inr ⟨member, rest⟩
            · intro id member other isNamed'
              rcases List.mem_cons.mp member with rfl | later
              · obtain rfl := Option.some.inj (isNamed.symm.trans isNamed')
                exact ⟨keep, answer⟩
              · exact answered id later other isNamed'
          · refine .inr ⟨?_, id, List.mem_cons_of_mem _ member, other, isNamed', refused⟩
            simp [accepted?, type, found]

theorem filter?_cases (hierarchy : Hierarchy) (filter : TypeFilter) (ids : IdSet)
    (named : ∀ id ∈ ids, ∃ object, graph.object? id = some object) :
    (∃ kept, graph.filter? hierarchy filter ids = some kept ∧
      (∀ id, id ∈ kept ↔ id ∈ ids ∧ ∃ object, graph.object? id = some object ∧
        filter.accepts? hierarchy object.type = some true) ∧
      ∀ id ∈ ids, ∀ object, graph.object? id = some object →
        ∃ answer, filter.accepts? hierarchy object.type = some answer) ∨
    graph.filter? hierarchy filter ids = none ∧
      ∃ id ∈ ids, ∃ object, graph.object? id = some object ∧
        filter.accepts? hierarchy object.type = none := by
  rcases accepted?_cases hierarchy filter ids.toList named with
    ⟨kept, found, members, answered⟩ | ⟨found, refused⟩
  · refine .inl ⟨OrderedSet.ofList kept, by simp [filter?, found], fun id => ?_, answered⟩
    rw [OrderedSet.mem_ofList, members]
    rfl
  · exact .inr ⟨by simp [filter?, found], refused⟩

end Filter

/-! ## Graphs that come about -/

/-- A change of a graph by whomever, with any ids. -/
inductive Change where
  | node (key : Node)
  | object (allocated : HeapObject)
  | subscribe (target : NodeId) (subscriber : SubscriberId)
  | addEdges (target : NodeId) (objects : IdSet)
  | addCall (edge : CallEdge)
  | addInitializers (methods : List MethodId)

def Change.run : Change → Update Unit
  | .node key => do let _ ← Graph.node key
  | .object allocated => do let _ ← Graph.object allocated
  | .subscribe target subscriber => Graph.subscribe target subscriber
  | .addEdges target objects => do let _ ← Graph.addEdges target objects
  | .addCall edge => do let _ ← Graph.addCall edge
  | .addInitializers methods => do let _ ← Graph.addInitializers methods

def after (setKind : SetKind) (changes : List Change) : Graph :=
  changes.foldl (fun graph change => (change.run graph).2) (empty setKind)

private theorem Gains.keeps {α : Type} {reader : SubscriberId} {graph : Graph} {update : Update α}
    {told : α → Delta} (gains : Gains reader update told) (sets : graph.SetsValid)
    (unchanged : ∀ failure grown, update graph = (.error failure, grown) → grown = graph) :
    (update graph).2.SetsValid ∧ graph.Extends (update graph).2 := by
  cases run : update graph with
  | mk outcome grown =>
      cases outcome with
      | ok value =>
          obtain ⟨sets, growth⟩ := gains graph sets value grown run
          exact ⟨sets, growth.toExtends⟩
      | error failure =>
          obtain rfl := unchanged failure grown run
          exact ⟨sets, .refl _⟩

private theorem change_keeps {graph : Graph} (sets : graph.SetsValid) (change : Change) :
    (change.run graph).2.SetsValid ∧ graph.Extends (change.run graph).2 := by
  cases change with
  | node key =>
      rw [show ((Change.node key).run graph).2 = _ from state_discard _ graph]
      exact (node_gains 0 key).keeps sets fun _ _ run => by cases run
  | object allocated =>
      rw [show ((Change.object allocated).run graph).2 = _ from state_discard _ graph]
      exact (object_gains 0 allocated).keeps sets fun _ _ run => by cases run
  | subscribe node subscriber =>
      refine (subscribe_gains subscriber node).keeps sets fun failure grown run => ?_
      cases held : graph.nodes.payload? node with
      | none =>
          simp only [subscribe, run_bind, run_get, held, run_inRange_none] at run
          exact (Prod.mk.inj run).2.symm
      | some data =>
          rw [subscribe_eq subscriber held] at run
          cases run
  | addEdges node objects =>
      rw [show ((Change.addEdges node objects).run graph).2 = _ from state_discard _ graph]
      refine (addEdges_gains 0 node objects).keeps sets fun failure grown run => ?_
      by_cases isEmpty : objects.isEmpty = true
      · rw [addEdges, if_pos isEmpty] at run
        cases run
      cases held : graph.nodes.payload? node with
      | none =>
          rw [addEdges, if_neg isEmpty] at run
          simp only [run_bind, run_get, held, run_inRange_none] at run
          exact (Prod.mk.inj run).2.symm
      | some data =>
          rw [addEdges_eq objects held isEmpty] at run
          cases run
  | addCall edge =>
      rw [show ((Change.addCall edge).run graph).2 = _ from state_discard _ graph]
      exact (addCall_gains 0 edge).keeps sets fun _ _ run => by cases run
  | addInitializers methods =>
      rw [show ((Change.addInitializers methods).run graph).2 = _ from state_discard _ graph]
      exact (addInitializers_gains 0 methods).keeps sets fun _ _ run => by cases run

private theorem changes_keep {graph : Graph} (sets : graph.SetsValid) (changes : List Change) :
    let grown := changes.foldl (fun graph change => (change.run graph).2) graph
    grown.SetsValid ∧ graph.Extends grown := by
  induction changes generalizing graph with
  | nil => exact ⟨sets, .refl graph⟩
  | cons change changes ih =>
      obtain ⟨sets, growth⟩ := change_keeps sets change
      obtain ⟨sets, rest⟩ := ih sets
      exact ⟨sets, growth.trans rest⟩

theorem setsValid_after (setKind : SetKind) (changes : List Change) :
    (after setKind changes).SetsValid :=
  (changes_keep (valid_empty setKind).toSetsValid changes).1

theorem extends_after (setKind : SetKind) (changes more : List Change) :
    (after setKind changes).Extends (after setKind (changes ++ more)) := by
  rw [after, after, List.foldl_append]
  exact (changes_keep (setsValid_after setKind changes) more).2

def isNamed (graph : Graph) : Bool :=
  graph.nodes.entries.all fun (key, data) =>
    (match key with
      | .field object _ _ => (graph.object? object).isSome
      | _ => true) &&
    data.pointsTo.snapshot.toList.all fun id => (graph.object? id).isSome

theorem valid_of_isNamed {graph : Graph} (sets : graph.SetsValid) (named : graph.isNamed = true) :
    graph.Valid := by
  have each : ∀ {id : NodeId} {entry}, graph.nodes.entries[id]? = some entry → _ :=
    fun found => List.all_eq_true.mp named _ (List.mem_of_getElem? found)
  simp only [Bool.and_eq_true, List.all_eq_true, Option.isSome_iff_exists] at each
  refine { toSetsValid := sets, owner := fun id object key type found => ?_,
           target := fun node id held => ?_ }
  · obtain ⟨⟨_, data⟩, isEntry, rfl⟩ := Option.map_eq_some_iff.mp found
    simpa [Option.isSome_iff_exists] using (each isEntry).1
  · obtain ⟨objects, found, member⟩ := held
    obtain ⟨data, payload, rfl⟩ := Option.map_eq_some_iff.mp found
    obtain ⟨entry, isEntry, rfl⟩ := Option.map_eq_some_iff.mp payload
    exact (each isEntry).2 id member

end ObjectFlow.Graph
