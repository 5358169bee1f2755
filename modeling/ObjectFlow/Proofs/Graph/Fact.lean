import Mathlib.Data.Set.Lattice
import ObjectFlow.Graph.Basic
import ObjectFlow.Proofs.Graph.Delta
import ObjectFlow.Proofs.Interning
import ObjectFlow.Proofs.KeySet.Membership

/-!
# What a points-to graph says

The ids in a graph depend on the order in which things were met.  A `Fact` is
what a graph says without them: its nodes are places, which name the object of
a field by the object itself.  A graph is valid if every id in it names
something; then ids and what they name correspond one to one.
-/

namespace ObjectFlow

/-- A node by what it stands for. -/
inductive Place where
  | local (replica : Replica)
  | localAt (replica : Replica) (point : PointId)
  | field (object : HeapObject) (key : FieldKey) (type : TypeId)
  deriving DecidableEq

inductive Fact where
  | object (object : HeapObject)
  | node (place : Place)
  | edge (place : Place) (object : HeapObject)
  | call (edge : CallEdge)
  | initializer (method : MethodId)
  /-- The reader in question depends on the node. -/
  | watch (place : Place)
  /-- Holds of no graph; an evaluation that cannot go on demands it. -/
  | failure
  deriving DecidableEq

def Fact.IsListed : Fact → Prop
  | .edge _ _ | .call _ | .initializer _ => True
  | _ => False

namespace Graph

def placeOf? (graph : Graph) : Node → Option Place
  | .local replica => some (.local replica)
  | .localAt replica point => some (.localAt replica point)
  | .field object key type => (graph.object? object).map fun owner => .field owner key type

def place? (graph : Graph) (id : NodeId) : Option Place :=
  (graph.node? id).bind graph.placeOf?

def HasEdge (graph : Graph) (node : NodeId) (object : ObjectId) : Prop :=
  ∃ objects, graph.pointsTo? node = some objects ∧ object ∈ objects

instance (graph : Graph) (node : NodeId) (object : ObjectId) :
    Decidable (graph.HasEdge node object) :=
  decidable_of_iff ((graph.pointsTo? node).any fun objects => decide (object ∈ objects)) <| by
    simp [HasEdge, Option.any_eq_true]

def Watched (graph : Graph) (node : NodeId) (reader : SubscriberId) : Prop :=
  ∃ readers, graph.subscribers? node = some readers ∧ reader ∈ readers

def Says (graph : Graph) (reader : SubscriberId) : Fact → Prop
  | .object object => ∃ id, graph.object? id = some object
  | .node place => ∃ id, graph.place? id = some place
  | .edge place object =>
      ∃ node id, graph.place? node = some place ∧ graph.object? id = some object ∧
        graph.HasEdge node id
  | .call edge => ∃ id, graph.call? id = some edge
  | .initializer method => graph.isInitialized method = true
  | .watch place => ∃ node, graph.place? node = some place ∧ graph.Watched node reader
  | .failure => False

def facts (graph : Graph) (reader : SubscriberId) : Set Fact := {fact | graph.Says reader fact}

theorem failure_notMem_facts (graph : Graph) (reader : SubscriberId) :
    Fact.failure ∉ graph.facts reader :=
  fun impossible => impossible

theorem says_of_ne_watch {graph : Graph} {reader other : SubscriberId} {fact : Fact}
    (plain : ∀ place, fact ≠ .watch place) (said : graph.Says reader fact) :
    graph.Says other fact := by
  cases fact with
  | watch place => exact absurd rfl (plain place)
  | _ => exact said

structure SetsValid (graph : Graph) : Prop where
  pointsTo : ∀ id data, graph.nodes.payload? id = some data → data.pointsTo.Valid
  subscribers : ∀ id data, graph.nodes.payload? id = some data → data.subscribers.Valid

/-- Every id in the graph names something. -/
structure Valid (graph : Graph) : Prop extends SetsValid graph where
  owner : ∀ id object key type, graph.node? id = some (.field object key type) →
    ∃ owner, graph.object? object = some owner
  target : ∀ node id, graph.HasEdge node id → ∃ object, graph.object? id = some object

section Names

variable {graph : Graph} {node other : NodeId} {place : Place}

theorem node?_of_payload? {data : NodeData} (found : graph.nodes.payload? node = some data) :
    ∃ key, graph.node? node = some key := by
  unfold Interner.payload? at found
  obtain ⟨entry, held, _⟩ := Option.map_eq_some_iff.mp found
  exact ⟨entry.1, by simp [node?, Interner.key?, held]⟩

theorem payload?_of_node? {key : Node} (found : graph.node? node = some key) :
    ∃ data, graph.nodes.payload? node = some data := by
  unfold node? Interner.key? at found
  obtain ⟨entry, held, _⟩ := Option.map_eq_some_iff.mp found
  exact ⟨entry.2, by simp [Interner.payload?, held]⟩

theorem node?_of_place? (found : graph.place? node = some place) :
    ∃ key, graph.node? node = some key ∧ graph.placeOf? key = some place :=
  Option.bind_eq_some_iff.mp found

theorem payload?_of_place? (found : graph.place? node = some place) :
    ∃ data, graph.nodes.payload? node = some data := by
  obtain ⟨key, held, _⟩ := node?_of_place? found
  exact payload?_of_node? held

theorem Valid.place?_of_node? (valid : graph.Valid) {key : Node}
    (found : graph.node? node = some key) : ∃ place, graph.place? node = some place := by
  unfold place?
  rw [found, Option.bind_some]
  cases key with
  | «local» replica => exact ⟨_, rfl⟩
  | localAt replica point => exact ⟨_, rfl⟩
  | field object slot type =>
      obtain ⟨owner, named⟩ := valid.owner node object slot type found
      exact ⟨_, by rw [placeOf?, named]; rfl⟩

theorem Valid.place?_of_hasEdge (valid : graph.Valid) {id : ObjectId}
    (held : graph.HasEdge node id) : ∃ place, graph.place? node = some place := by
  obtain ⟨objects, found, _⟩ := held
  obtain ⟨data, payload, _⟩ := Option.map_eq_some_iff.mp found
  obtain ⟨key, named⟩ := node?_of_payload? payload
  exact valid.place?_of_node? named

theorem object?_injective {id again : ObjectId} {object : HeapObject}
    (found : graph.object? id = some object) (found' : graph.object? again = some object) :
    id = again :=
  Interner.key?_injective found found'

theorem placeOf?_injective {key key' : Node} (found : graph.placeOf? key = some place)
    (found' : graph.placeOf? key' = some place) : key = key' := by
  cases key with
  | «local» replica =>
      obtain rfl := Option.some.inj found
      cases key' with
      | «local» replica' => cases found'; rfl
      | localAt replica' point => cases found'
      | field object slot type =>
          obtain ⟨owner, _, same⟩ := Option.map_eq_some_iff.mp found'
          cases same
  | localAt replica point =>
      obtain rfl := Option.some.inj found
      cases key' with
      | «local» replica' => cases found'
      | localAt replica' point' => cases found'; rfl
      | field object slot type =>
          obtain ⟨owner, _, same⟩ := Option.map_eq_some_iff.mp found'
          cases same
  | field object slot type =>
      obtain ⟨owner, named, rfl⟩ := Option.map_eq_some_iff.mp found
      cases key' with
      | «local» replica' => cases found'
      | localAt replica' point' => cases found'
      | field object' slot' type' =>
          obtain ⟨owner', named', same⟩ := Option.map_eq_some_iff.mp found'
          cases same
          rw [object?_injective named named']

theorem place?_injective (found : graph.place? node = some place)
    (found' : graph.place? other = some place) : node = other := by
  obtain ⟨key, held, here⟩ := node?_of_place? found
  obtain ⟨key', held', there⟩ := node?_of_place? found'
  obtain rfl := placeOf?_injective here there
  exact Interner.key?_injective held held'

theorem Watched.lt_size {reader : SubscriberId} (watched : graph.Watched node reader) :
    node < graph.nodes.size := by
  obtain ⟨_, found, _⟩ := watched
  obtain ⟨_, payload, _⟩ := Option.map_eq_some_iff.mp found
  obtain ⟨_, isEntry, _⟩ := Option.map_eq_some_iff.mp payload
  exact (List.getElem?_eq_some_iff.mp isEntry).1

theorem watched_of_watch {reader : SubscriberId} (said : graph.Says reader (.watch place))
    (located : graph.place? node = some place) : graph.Watched node reader := by
  obtain ⟨node', located', held⟩ := said
  rw [place?_injective located located']
  exact held

end Names

/-! ## The empty graph -/

theorem valid_empty (kind : SetKind) : (empty kind).Valid where
  pointsTo _ _ found := by cases found
  subscribers _ _ found := by cases found
  owner _ _ _ _ found := by cases found
  target _ _ held := by
    obtain ⟨_, found, _⟩ := held
    cases found

theorem not_says_empty (kind : SetKind) (reader : SubscriberId) (fact : Fact) :
    ¬ (empty kind).Says reader fact := by
  intro said
  cases fact with
  | object object => obtain ⟨_, found⟩ := said; cases found
  | node place => obtain ⟨_, found⟩ := said; cases found
  | edge place object => obtain ⟨_, _, found, _⟩ := said; cases found
  | call edge => obtain ⟨_, found⟩ := said; cases found
  | initializer method =>
      have said : BitVectorSet.empty.contains method = true := said
      simp [BitVectorSet.empty, BitVectorSet.withCapacity, BitVectorSet.contains,
        BitVectorSet.wordBits] at said
  | watch place => obtain ⟨_, found, _⟩ := said; cases found
  | failure => exact said

section Listing

variable {graph : Graph} {reader : SubscriberId}

def listing (graph : Graph) : List Fact :=
  (graph.nodes.keys.filterMap graph.placeOf?).flatMap (fun place =>
      graph.objects.keys.map (.edge place)) ++
    graph.callEdges.map .call ++ graph.initialized.snapshot.toList.map .initializer

theorem mem_listing {fact : Fact} (said : graph.Says reader fact) (isListed : fact.IsListed) :
    fact ∈ graph.listing := by
  unfold listing
  simp only [List.mem_append, List.mem_flatMap, List.mem_filterMap, List.mem_map]
  cases fact with
  | edge place object =>
      obtain ⟨node, id, located, named, _⟩ := said
      obtain ⟨key, isNode, isPlace⟩ := node?_of_place? located
      exact .inl (.inl ⟨place, ⟨key, Interner.mem_keys_iff.mpr ⟨node, isNode⟩, isPlace⟩, object,
        Interner.mem_keys_iff.mpr ⟨id, named⟩, rfl⟩)
  | call edge => exact .inl (.inr ⟨edge, Interner.mem_keys_iff.mpr said, rfl⟩)
  | initializer method => exact .inr ⟨method, BitVectorSet.mem_snapshot.mpr said, rfl⟩
  | _ => exact isListed.elim

end Listing

/-! ## Growing graphs -/

structure Extends (graph grown : Graph) : Prop where
  node : ∀ {id key}, graph.node? id = some key → grown.node? id = some key
  object : ∀ {id object}, graph.object? id = some object → grown.object? id = some object
  call : ∀ {id edge}, graph.call? id = some edge → grown.call? id = some edge
  edge : ∀ {node id}, graph.HasEdge node id → grown.HasEdge node id
  initialized : ∀ {method}, graph.isInitialized method = true → grown.isInitialized method = true
  watched : ∀ {node other}, graph.Watched node other → grown.Watched node other

namespace Extends

variable {graph grown last : Graph}

theorem refl (graph : Graph) : graph.Extends graph :=
  ⟨id, id, id, id, id, id⟩

theorem trans (first : graph.Extends grown) (second : grown.Extends last) :
    graph.Extends last where
  node held := second.node (first.node held)
  object held := second.object (first.object held)
  call held := second.call (first.call held)
  edge held := second.edge (first.edge held)
  initialized held := second.initialized (first.initialized held)
  watched held := second.watched (first.watched held)

theorem place (growth : graph.Extends grown) {node : NodeId} {place : Place}
    (located : graph.place? node = some place) : grown.place? node = some place := by
  obtain ⟨key, held, here⟩ := node?_of_place? located
  unfold Graph.place?
  rw [growth.node held, Option.bind_some]
  cases key with
  | «local» replica => exact here
  | localAt replica point => exact here
  | field object slot type =>
      obtain ⟨owner, named, rfl⟩ := Option.map_eq_some_iff.mp here
      rw [placeOf?, growth.object named]
      rfl

theorem stillSays (growth : graph.Extends grown) {other : SubscriberId} {fact : Fact}
    (said : graph.Says other fact) : grown.Says other fact := by
  cases fact with
  | object object =>
      obtain ⟨id, named⟩ := said
      exact ⟨id, growth.object named⟩
  | node place =>
      obtain ⟨id, located⟩ := said
      exact ⟨id, growth.place located⟩
  | edge place object =>
      obtain ⟨node, id, located, named, held⟩ := said
      exact ⟨node, id, growth.place located, growth.object named, growth.edge held⟩
  | call edge =>
      obtain ⟨id, named⟩ := said
      exact ⟨id, growth.call named⟩
  | initializer method => exact growth.initialized said
  | watch place =>
      obtain ⟨node, located, held⟩ := said
      exact ⟨node, growth.place located, growth.watched held⟩
  | failure => exact said

theorem facts_subset (growth : graph.Extends grown) (other : SubscriberId) :
    graph.facts other ⊆ grown.facts other :=
  fun _ said => growth.stillSays said

theorem names_of_hasEdge (growth : graph.Extends grown) (valid : graph.Valid)
    {node : NodeId} {id : ObjectId} {place : Place} {object : HeapObject}
    (earlier : graph.HasEdge node id) (located : grown.place? node = some place)
    (named : grown.object? id = some object) :
    graph.place? node = some place ∧ graph.object? id = some object := by
  obtain ⟨place', located'⟩ := valid.place?_of_hasEdge earlier
  obtain rfl := Option.some.inj (located.symm.trans (growth.place located'))
  obtain ⟨object', named'⟩ := valid.target node id earlier
  obtain rfl := Option.some.inj (named.symm.trans (growth.object named'))
  exact ⟨located', named'⟩

end Extends

/-- The second graph is the first with more in it, namely what the delta lists; the only
subscriptions added are those of one reader. -/
structure Growth (reader : SubscriberId) (graph grown : Graph) (delta : Delta) : Prop
    extends Extends graph grown where
  subscription : ∀ {node other}, grown.Watched node other →
    graph.Watched node other ∨ other = reader
  edges : ∀ node id, ⟨node, id⟩ ∈ delta.edges ↔ grown.HasEdge node id ∧ ¬ graph.HasEdge node id
  calls : ∀ id, id ∈ delta.calls ↔
    (∃ edge, grown.call? id = some edge) ∧ ¬ ∃ edge, graph.call? id = some edge
  initializers : ∀ method, method ∈ delta.initializers ↔
    grown.isInitialized method = true ∧ ¬ graph.isInitialized method = true

namespace Growth

variable {reader : SubscriberId} {graph grown last : Graph} {delta more : Delta}

theorem refl (reader : SubscriberId) (graph : Graph) : Growth reader graph graph ∅ where
  toExtends := .refl graph
  subscription := .inl
  edges _ _ := iff_of_false (EdgeMap.not_mem_empty _) fun both => both.2 both.1
  calls _ := iff_of_false (OrderedSet.not_mem_empty _) fun both => both.2 both.1
  initializers _ := iff_of_false (OrderedSet.not_mem_empty _) fun both => both.2 both.1

/-- What is new after two changes is what the one or the other added. -/
private theorem join_iff {before between after : Prop} (first : before → between)
    (second : between → after) :
    (between ∧ ¬ before) ∨ (after ∧ ¬ between) ↔ after ∧ ¬ before := by
  constructor
  · rintro (⟨now, earlier⟩ | ⟨now, earlier⟩)
    · exact ⟨second now, earlier⟩
    · exact ⟨now, fun held => earlier (first held)⟩
  · rintro ⟨now, earlier⟩
    by_cases held : between
    · exact .inl ⟨held, earlier⟩
    · exact .inr ⟨now, held⟩

theorem trans (first : Growth reader graph grown delta) (second : Growth reader grown last more) :
    Growth reader graph last (delta.join more) where
  toExtends := first.toExtends.trans second.toExtends
  subscription held := by
    rcases second.subscription held with earlier | same
    · exact first.subscription earlier
    · exact .inr same
  edges node id := by
    rw [show (⟨node, id⟩ : Edge) ∈ (delta.join more).edges ↔ _ from EdgeMap.mem_union,
      first.edges, second.edges]
    exact join_iff first.edge second.edge
  calls id := by
    rw [show id ∈ (delta.join more).calls ↔ _ from OrderedSet.mem_union, first.calls,
      second.calls]
    exact join_iff (fun ⟨edge, held⟩ => ⟨edge, first.call held⟩)
      (fun ⟨edge, held⟩ => ⟨edge, second.call held⟩)
  initializers method := by
    rw [show method ∈ (delta.join more).initializers ↔ _ from OrderedSet.mem_union,
      first.initializers, second.initializers]
    exact join_iff first.initialized second.initialized

theorem delta_eq_empty (growth : Growth reader graph grown delta) (valid : grown.Valid)
    (within : ∀ fact ∈ grown.facts reader, fact.IsListed → fact ∈ graph.facts reader) :
    delta = ∅ := by
  have edges : delta.edges = ∅ := by
    refine EdgeMap.ext fun edge => iff_of_false ?_ (EdgeMap.not_mem_empty edge)
    intro listed
    obtain ⟨held, isNew⟩ := (growth.edges edge.node edge.object).mp listed
    obtain ⟨place, located⟩ := valid.place?_of_hasEdge held
    obtain ⟨object, named⟩ := valid.target edge.node edge.object held
    obtain ⟨node, id, located', named', earlier⟩ :=
      within (.edge place object) ⟨_, _, located, named, held⟩ trivial
    obtain rfl := place?_injective (growth.place located') located
    obtain rfl := object?_injective (growth.object named') named
    exact isNew earlier
  have calls : delta.calls = ∅ := by
    refine OrderedSet.ext fun id => iff_of_false ?_ (OrderedSet.not_mem_empty id)
    intro listed
    obtain ⟨⟨edge, named⟩, isNew⟩ := (growth.calls id).mp listed
    obtain ⟨other, named'⟩ := within (.call edge) ⟨id, named⟩ trivial
    obtain rfl := Interner.key?_injective (growth.call named') named
    exact isNew ⟨edge, named'⟩
  have initializers : delta.initializers = ∅ := by
    refine OrderedSet.ext fun method => iff_of_false ?_ (OrderedSet.not_mem_empty method)
    intro listed
    obtain ⟨triggered, isNew⟩ := (growth.initializers method).mp listed
    exact isNew (within (.initializer method) triggered trivial)
  obtain ⟨_, _, _⟩ := delta
  cases edges
  cases calls
  cases initializers
  rfl

theorem edge_of_empty (growth : Growth reader graph grown ∅) (valid : graph.Valid)
    {other : SubscriberId} {place : Place} {object : HeapObject}
    (said : .edge place object ∈ grown.facts other) : .edge place object ∈ graph.facts other := by
  obtain ⟨node, id, located, named, held⟩ := said
  have earlier : graph.HasEdge node id := by
    by_contra isNew
    exact EdgeMap.not_mem_empty _ ((growth.edges node id).mpr ⟨held, isNew⟩)
  obtain ⟨located, named⟩ := growth.names_of_hasEdge valid earlier located named
  exact ⟨node, id, located, named, earlier⟩

theorem listed_of_empty (growth : Growth reader graph grown ∅) (valid : graph.Valid)
    {other : SubscriberId} {fact : Fact} (isListed : fact.IsListed)
    (said : fact ∈ grown.facts other) : fact ∈ graph.facts other := by
  cases fact with
  | edge place object => exact growth.edge_of_empty valid said
  | call edge =>
      obtain ⟨id, named⟩ := said
      by_contra isNew
      refine OrderedSet.not_mem_empty id ((growth.calls id).mpr ⟨⟨edge, named⟩, ?_⟩)
      rintro ⟨other, named'⟩
      obtain rfl := Option.some.inj ((growth.call named').symm.trans named)
      exact isNew ⟨id, named'⟩
  | initializer method =>
      by_contra isNew
      exact OrderedSet.not_mem_empty method ((growth.initializers method).mpr ⟨said, isNew⟩)
  | _ => exact isListed.elim

theorem facts_within (growth : Growth reader graph grown delta) {more : Set Fact}
    (noNode : ∀ place, .node place ∉ more) (noWatch : ∀ place, .watch place ∉ more)
    (within : grown.facts reader ⊆ graph.facts reader ∪ more) (other : SubscriberId) :
    grown.facts other ⊆ graph.facts other ∪ more := by
  intro fact said
  by_cases isWatch : ∃ place, fact = .watch place
  · obtain ⟨place, rfl⟩ := isWatch
    obtain ⟨node, located, watched⟩ := said
    rcases growth.subscription watched with earlier | rfl
    · obtain ⟨node', located'⟩ :=
        (within (show Fact.node place ∈ _ from ⟨node, located⟩)).resolve_right (noNode place)
      obtain rfl := place?_injective (growth.place located') located
      exact .inl ⟨node', located', earlier⟩
    · exact .inl ((within (show Fact.watch place ∈ _ from ⟨node, located, watched⟩)).resolve_right
        (noWatch place))
  · have plain : ∀ place, fact ≠ .watch place := fun place same => isWatch ⟨place, same⟩
    exact (within (says_of_ne_watch plain said)).imp_left (says_of_ne_watch plain)

theorem facts_eq (growth : Growth reader graph grown delta)
    (within : grown.facts reader ⊆ graph.facts reader) (other : SubscriberId) :
    grown.facts other = graph.facts other := by
  refine Set.Subset.antisymm ?_ (growth.facts_subset other)
  rw [← Set.union_empty (graph.facts other)]
  exact growth.facts_within (fun _ => Set.notMem_empty _) (fun _ => Set.notMem_empty _)
    (by rwa [Set.union_empty]) other

end Growth

end Graph

end ObjectFlow
