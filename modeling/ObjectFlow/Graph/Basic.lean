import ObjectFlow.Graph.Node
import ObjectFlow.KeySet.Basic

/-!
# Points-to graphs

A graph numbers the nodes, objects and call edges it has met, keeps the set of
objects each node points to, and for each node the subscribers that read it.
Nothing is ever taken away.  Every operation that may add something answers
with the delta of what it added.
-/

namespace ObjectFlow

abbrev SubscriberId := Nat

structure NodeData where
  pointsTo : KeySet
  subscribers : HashedSet
  deriving DecidableEq, Repr

structure Graph where
  setKind : SetKind
  nodes : Interner Node NodeData
  objects : Interner HeapObject Unit
  calls : Interner CallEdge Unit
  initialized : BitVectorSet

/-- Objects of a type but of none of the excluded types. -/
structure TypeFilter where
  type : TypeId
  excluded : List TypeId
  deriving DecidableEq, Repr

namespace TypeFilter

def avoids? (hierarchy : Hierarchy) (type : TypeId) : List TypeId → Option Bool
  | [] => some true
  | excluded :: rest => do
      if ← hierarchy.isSubtype? type excluded then pure false
      else avoids? hierarchy type rest

def accepts? (filter : TypeFilter) (hierarchy : Hierarchy) (type : TypeId) : Option Bool := do
  if ← hierarchy.isSubtype? type filter.type then avoids? hierarchy type filter.excluded
  else pure false

end TypeFilter

namespace Graph

def empty (setKind : SetKind) : Graph := ⟨setKind, ∅, ∅, ∅, .empty⟩

/-! ## Reading -/

def node? (graph : Graph) (id : NodeId) : Option Node := graph.nodes.key? id

def object? (graph : Graph) (id : ObjectId) : Option HeapObject := graph.objects.key? id

def describeNode? (graph : Graph) (id : NodeId) : Option String := do
  match ← graph.node? id with
  | .field object key _ => do
      let owner ← graph.object? object
      pure s!"({owner.render}){key.render}"
  | node => pure node.render

def objectType? (graph : Graph) (id : ObjectId) : Option TypeId :=
  (graph.object? id).map HeapObject.type

def call? (graph : Graph) (id : CallId) : Option CallEdge := graph.calls.key? id

def pointsTo? (graph : Graph) (node : NodeId) : Option IdSet :=
  (graph.nodes.payload? node).map fun data => data.pointsTo.snapshot

def subscribers? (graph : Graph) (node : NodeId) : Option IdSet :=
  (graph.nodes.payload? node).map fun data => data.subscribers.snapshot

def isInitialized (graph : Graph) (method : MethodId) : Bool :=
  graph.initialized.contains method

def callEdges (graph : Graph) : List CallEdge := graph.calls.keys

def edgeCount (graph : Graph) : Nat :=
  (graph.nodes.entries.map fun entry => entry.2.pointsTo.size).foldl (· + ·) 0

def accepted? (graph : Graph) (hierarchy : Hierarchy) (filter : TypeFilter) :
    List ObjectId → Option (List ObjectId)
  | [] => some []
  | object :: rest => do
      let type ← graph.objectType? object
      let keep ← filter.accepts? hierarchy type
      let others ← accepted? graph hierarchy filter rest
      pure (if keep then object :: others else others)

def filter? (graph : Graph) (hierarchy : Hierarchy) (filter : TypeFilter) (objects : IdSet) :
    Option IdSet :=
  (graph.accepted? hierarchy filter objects.toList).map OrderedSet.ofList

/-! ## Growing -/

abbrev Update (α : Type) := ExceptT Failure (StateM Graph) α

def node (node : Node) : Update NodeId := do
  let graph ← get
  let ((id, _), nodes) := graph.nodes.intern node ⟨.empty graph.setKind, .empty⟩
  set { graph with nodes := nodes }
  pure id

def object (object : HeapObject) : Update ObjectId := do
  let graph ← get
  let ((id, _), objects) := graph.objects.intern object ()
  set { graph with objects := objects }
  pure id

def subscribe (node : NodeId) (subscriber : SubscriberId) : Update Unit := do
  let graph ← get
  let _ ← inRange (graph.nodes.payload? node)
  set { graph with
    nodes := graph.nodes.modify node fun data =>
      { data with subscribers := (data.subscribers.add subscriber).2 } }

def read (node : NodeId) (subscriber : SubscriberId) : Update IdSet := do
  subscribe node subscriber
  inRange ((← get).pointsTo? node)

def addEdges (node : NodeId) (objects : IdSet) : Update Delta := do
  if objects.isEmpty then
    pure ∅
  else
    let graph ← get
    let data ← inRange (graph.nodes.payload? node)
    let (added, pointsTo) := addAll data.pointsTo objects
    set { graph with
      nodes := graph.nodes.modify node fun data => { data with pointsTo := pointsTo } }
    pure (.ofEdges node added)

def addEdge (node : NodeId) (object : ObjectId) : Update Delta :=
  addEdges node (OrderedSet.singleton object)

def addEdgesFiltered (hierarchy : Hierarchy) (node : NodeId) (objects : IdSet)
    (filter : TypeFilter) : Update Delta := do
  addEdges node (← inRange ((← get).filter? hierarchy filter objects))

/-- Let one node point to what another points to, subscribing to the other. -/
def copyEdges (source target : NodeId) (subscriber : SubscriberId) : Update Delta := do
  addEdges target (← read source subscriber)

def copyEdgesFiltered (hierarchy : Hierarchy) (source target : NodeId) (filter : TypeFilter)
    (subscriber : SubscriberId) : Update Delta := do
  addEdgesFiltered hierarchy target (← read source subscriber) filter

def addCall (edge : CallEdge) : Update Delta := do
  let graph ← get
  let ((id, new), calls) := graph.calls.intern edge ()
  set { graph with calls := calls }
  pure (if new then .ofCall id else ∅)

def addInitializers (methods : List MethodId) : Update Delta := do
  let graph ← get
  let (added, initialized) := addEach methods graph.initialized
  set { graph with initialized := initialized }
  pure (.ofInitializers added)

end Graph

end ObjectFlow
