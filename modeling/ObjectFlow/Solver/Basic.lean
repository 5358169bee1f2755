import ObjectFlow.Evaluation.Statement

/-!
# The worklist solver

Work is pending for statements in contexts: a full evaluation, or the
evaluation of a delta that has come up since the last one.  A step picks any
pending item, evaluates it and hands what it produced to the subscribers of
the nodes that grew; callees of new calls and newly triggered initializers
become reachable.  When nothing is pending the graph is a fixpoint.
-/

namespace ObjectFlow

structure Analysis where
  program : Program
  abstraction : HeapAbstraction

structure WorkItem where
  subscriber : SubscriberId
  view : View

structure SolverState where
  graph : Graph
  requests : Requests
  subscribers : Interner (StatementId × Context) Unit
  reached : Interner MethodContext Unit
  /-- At most one item for each subscriber. -/
  pending : List WorkItem

namespace View

/-- What is to be seen when two views come together: all growth, or everything. -/
def join : View → View → View
  | .delta growth, .delta other => .delta (growth.join other)
  | _, _ => .full

end View

namespace SolverState

def empty (setKind : SetKind) : SolverState := ⟨.empty setKind, ⟨0, 0⟩, ∅, ∅, []⟩

/-- Schedule a subscriber.  If it is pending already, the views are joined. -/
def enqueue (state : SolverState) (item : WorkItem) : SolverState :=
  if state.pending.any fun queued => queued.subscriber = item.subscriber then
    { state with
      pending := state.pending.map fun queued =>
        if queued.subscriber = item.subscriber then
          { queued with view := queued.view.join item.view }
        else
          queued }
  else
    { state with pending := state.pending ++ [item] }

def subscriber (state : SolverState) (statement : StatementId) (context : Context) :
    SubscriberId × SolverState :=
  let ((id, _), subscribers) := state.subscribers.intern (statement, context) ()
  (id, { state with subscribers := subscribers })

def schedule (context : Context) (state : SolverState) (statement : StatementId) : SolverState :=
  let (subscriber, state) := state.subscriber statement context
  state.enqueue ⟨subscriber, .full⟩

/-- Make a method reachable in a context.  The first time its statements are scheduled. -/
def reach (program : Program) (state : SolverState) (node : MethodContext) : SolverState :=
  let ((_, new), reached) := state.reached.intern node ()
  if new then
    (program.statementsOf node.method).foldl (schedule node.context)
      { state with reached := reached }
  else
    state

/-! ## Propagation -/

/-- The work that a delta makes: each subscriber of a node that grew sees the growth of all such
nodes that it subscribes to. -/
def notifications? (graph : Graph) (delta : Delta) : Option (List WorkItem) := do
  let growth ← delta.nodes.toList.mapM fun node => do
    let subscribers ← graph.subscribers? node
    pure (node, subscribers)
  let subscribers := (growth.map Prod.snd).foldl OrderedSet.union (∅ : IdSet)
  pure <| subscribers.toList.map fun subscriber =>
    let nodes := (growth.filter fun entry => entry.2.contains subscriber).map Prod.fst
    let seen := delta.edges.restrict fun node => nodes.contains node
    ⟨subscriber, .delta ⟨seen, ∅, ∅⟩⟩

def propagate? (analysis : Analysis) (state : SolverState) (delta : Delta) :
    Option SolverState := do
  let work ← notifications? state.graph delta
  let calls ← delta.calls.toList.mapM state.graph.call?
  let _ ← delta.initializers.toList.mapM analysis.program.describeMethod?
  let state := work.foldl enqueue state
  let state := (calls.map CallEdge.target).foldl (reach analysis.program) state
  let initial := analysis.abstraction.initialContext
  pure ((delta.initializers.toList.map fun method => ⟨method, initial⟩).foldl
    (reach analysis.program) state)

/-! ## Steps -/

/-- The start: the entry point is reachable, and before it the initializers of its class. -/
def seed (analysis : Analysis) (setKind : SetKind) : SolverState :=
  let initial := analysis.abstraction.initialContext
  let state := empty setKind
  let (triggered, initialized) :=
    addEach analysis.program.initializers state.graph.initialized
  let state := { state with graph := { state.graph with initialized := initialized } }
  let first := (OrderedSet.ofList triggered).toList ++ [analysis.program.entry]
  (first.map fun method => ⟨method, initial⟩).foldl (reach analysis.program) state

abbrev Solve (α : Type) := ExceptT Failure (StateM SolverState) α

def onGraph {α : Type} (evaluation : Eval α) : Solve (α × Delta) := do
  let state ← get
  let (outcome, after) := evaluation ⟨state.graph, state.requests, ∅⟩
  set { state with graph := after.graph, requests := after.requests }
  match outcome with
  | .ok value => pure (value, after.produced)
  | .error failure => throw failure

def inFrame {α : Type} (analysis : Analysis) (subscriber : SubscriberId)
    (evaluation : Frame → Statement → Eval α) : Solve (α × Delta) := do
  let (id, context) ← inRange ((← get).subscribers.key? subscriber)
  let statement ← inRange (analysis.program.statement? id)
  onGraph (evaluation ⟨analysis.program, analysis.abstraction, context, id, subscriber⟩ statement)

def evaluate (analysis : Analysis) (item : WorkItem) : Solve Delta := do
  let (_, produced) ← inFrame analysis item.subscriber fun frame statement =>
    frame.evaluate statement item.view
  pure produced

/-- Run the pending item at a position and hand on what it produced. -/
def step (analysis : Analysis) (state : SolverState) (position : Nat) :
    Except Failure SolverState := do
  let item ← inRange state.pending[position]?
  let (outcome, state) :=
    evaluate analysis item { state with pending := state.pending.eraseIdx position }
  inRange (propagate? analysis state (← outcome))

/-- Run pending items, the oldest first, until none is left or the limit is reached. -/
def run (analysis : Analysis) : (limit : Nat) → SolverState → Except Failure SolverState
  | 0, state => .ok state
  | limit + 1, state =>
      if state.pending.isEmpty then .ok state
      else
        match step analysis state 0 with
        | .ok state => run analysis limit state
        | .error failure => .error failure

end SolverState

/-! ## Whole runs -/

structure SolverStats where
  nodes : Nat
  objects : Nat
  edges : Nat
  callEdges : Nat
  reachable : Nat
  deriving DecidableEq, Repr

def SolverState.stats (state : SolverState) : SolverStats :=
  ⟨state.graph.nodes.size, state.graph.objects.size, state.graph.edgeCount,
    state.graph.calls.size, state.reached.size⟩

/-- How many steps a time limit allows: none for a limit of no time, practically any number
otherwise. -/
def Config.stepLimit (config : Config) : Nat :=
  if config.timeoutMs = some 0 then 0 else 1 <<< 62

def Analysis.solve (analysis : Analysis) (config : Config) : Except Failure SolverState :=
  SolverState.run analysis config.stepLimit (.seed analysis config.setKind)

end ObjectFlow
