import ObjectFlow.Solver.Basic

/-!
# Results of an analysis

`Results` answers questions about a solved program, by id or by readable
names.  Looking at a flow-sensitive variable at a moment may name a summary
object for the first time, and checking the fixpoint evaluates statements, so
these two work on the results as a state.
-/

namespace ObjectFlow

structure Results where
  analysis : Analysis
  state : SolverState
  stats : SolverStats
  timedOut : Bool

namespace Results

def solve (analysis : Analysis) (config : Config) : Except Failure Results := do
  let state ← analysis.solve config
  pure ⟨analysis, state, state.stats, !state.pending.isEmpty⟩

def program (results : Results) : Program := results.analysis.program

def graph (results : Results) : Graph := results.state.graph

def initialContext (results : Results) : Context := results.analysis.abstraction.initialContext

def reachable (results : Results) : List MethodContext := results.state.reached.keys

/-! ## Points-to sets -/

def unionOf (results : Results) (nodes : List Node) : IdSet :=
  ((nodes.filterMap results.graph.nodes.lookup).filterMap results.graph.pointsTo?).foldl
    OrderedSet.union ∅

/-- The objects of a variable in a context; for a flow-sensitive one, those of all its writes. -/
def pointsTo (results : Results) (declared : Variable) (context : Context) : IdSet :=
  let replica := declared.replica context results.initialContext
  if declared.flowSensitive then
    let flow := results.program.flow
    let kills := (List.range flow.size).filter (flow.writes declared.id)
    results.unionOf (kills.map fun point => .localAt replica point)
  else
    results.unionOf [.local replica]

def fieldPointsTo (results : Results) (object : ObjectId) (key : FieldKey) : IdSet :=
  results.unionOf <| results.graph.nodes.keys.filter fun
    | .field owner slot _ => owner = object && slot = key
    | _ => false

abbrev Query (α : Type) := ExceptT Failure (StateM Results) α

def onState {α : Type} (change : SolverState.Solve α) : Query α := do
  let results ← get
  let (outcome, state) := change results.state
  set { results with state := state }
  match outcome with
  | .ok value => pure value
  | .error failure => throw failure

/-- The objects that a variable may hold at a moment, aged since they were written. -/
def pointsToAt (declared : Variable) (context : Context) (moment : Moment) : Query IdSet := do
  let results ← get
  if declared.flowSensitive then
    let replica := declared.replica context results.initialContext
    let kills := results.program.flow.reachingKills declared.id moment
    let observed ← kills.toList.mapM fun kill => do
      let written := (← get).unionOf [.localAt replica kill]
      let (aged, _) ← onState (SolverState.onGraph (Frame.ageObjects results.program
        results.analysis.abstraction context ⟨declared.id, kill, moment⟩ written))
      pure aged
    pure (observed.foldl OrderedSet.union ∅)
  else
    pure (results.pointsTo declared context)

/-! ## Reachability and calls -/

def callGraph (results : Results) : CallGraph :=
  .build results.reachable results.graph.callEdges

def contextsOf (results : Results) (method : MethodId) : List Context :=
  (results.reachable.filter fun node => node.method = method).map MethodContext.context

def contexts (results : Results) : List Context :=
  (results.reachable.map MethodContext.context).eraseDups

def isReachable (results : Results) (method : MethodId) : Bool :=
  results.reachable.any fun node => node.method = method

/-! ## Names -/

def describeObject? (results : Results) (id : ObjectId) : Option String := do
  let object ← results.graph.object? id
  let typeName ← results.program.hierarchy.typeName? object.site.type
  let owner ← results.program.describeMethod? object.site.method
  let made := match object.site.kind with
    | .new => s!"new {typeName}"
    | .dimension depth => s!"new {typeName} (dim {depth})"
    | .clone => s!"clone {typeName}"
  pure (s!"{owner}#{object.site.site}: {made} in {object.context.render}" ++ object.recency.mark)

def describeNode? (results : Results) (id : NodeId) : Option String := do
  match ← results.graph.node? id with
  | .local replica => do
      let name ← results.program.describeVariable? replica.variableId
      pure s!"{name} {replica.context.render}"
  | .localAt replica point => do
      let name ← results.program.describeVariable? replica.variableId
      pure s!"{name} {replica.context.render} at {renderPoint point}"
  | .field object key _ => do
      let owner ← results.describeObject? object
      let slot ← match key with
        | .named field => (results.program.hierarchy.field? field).map Field.name
        | .arrayContents => some "[]"
      pure s!"({owner}).{slot}"

/-- The slots of an object with readable names: array contents, and the instance fields of its
type. -/
def slots? (results : Results) (object : ObjectId) : Option (List (FieldKey × String)) := do
  let hierarchy := results.program.hierarchy
  let type ← results.graph.objectType? object
  let named ← (← hierarchy.instanceFields? type).mapM fun id => do
    let field ← hierarchy.field? id
    let owner ← hierarchy.typeName? field.declaring
    pure (.named id, s!"{owner}.{field.name}")
  pure ((.arrayContents, "[]") :: named)

def namedNode? (results : Results) (id : NodeId) : Option (String × List String) := do
  let objects ← results.graph.pointsTo? id
  pure (← results.describeNode? id, ← objects.toList.mapM results.describeObject?)

def namedNodes? (results : Results) : Option (List (String × List String)) :=
  (List.range results.graph.nodes.size).mapM results.namedNode?

def namedObjects? (results : Results) : Option (List (String × HeapObject)) :=
  results.graph.objects.keys.zipIdx.mapM fun (object, id) => do
    pure (← results.describeObject? id, object)

def namedSlots? (results : Results) (object : ObjectId) :
    Option (List (String × String × List String)) := do
  let owner ← results.describeObject? object
  let held ← (← results.slots? object).mapM fun (key, slot) => do
    let objects := results.fieldPointsTo object key
    pure (owner, slot, ← objects.toList.mapM results.describeObject?)
  pure (held.filter fun (_, _, objects) => !objects.isEmpty)

def namedFields? (results : Results) : Option (List (String × String × List String)) := do
  pure (← (List.range results.graph.objects.size).mapM results.namedSlots?).flatten

def reachableNames? (results : Results) : Option (List String) :=
  results.reachable.mapM fun node => do
    let method ← results.program.describeMethod? node.method
    pure s!"{method} {node.context.render}"

def initializedNames? (results : Results) : Option (List String) :=
  (results.program.hierarchy.methodIds.filter results.graph.isInitialized).mapM
    results.program.describeMethod?

/-- Put an entry into a list sorted by name, in place of another with that name. -/
def insertNamed {α : Type} (name : String) (value : α) : List (String × α) → List (String × α)
  | [] => [(name, value)]
  | entry :: rest =>
      match compare name entry.1 with
      | .lt => (name, value) :: entry :: rest
      | .eq => (name, value) :: rest
      | .gt => entry :: insertNamed name value rest

/-- Every node that points to something with its objects, all by name and sorted by name.  Of two
nodes with one name the later counts. -/
def canonical? (results : Results) : Option (List (String × OrderedSet String)) := do
  let ids := (List.range results.graph.nodes.size).filter fun id =>
    (results.graph.pointsTo? id).any (!·.isEmpty)
  let named ← ids.mapM results.namedNode?
  pure (named.foldl
    (fun entries (name, objects) => insertNamed name (OrderedSet.ofList objects) entries) [])

/-! ## Checking the fixpoint -/

def checkScheduled (analysis : Analysis) :
    (StatementId × Context) × SubscriberId → Query (Option String)
  | ((id, context), subscriber) => do
      let produced ← onState (SolverState.evaluate analysis ⟨subscriber, .full⟩)
      if produced.isEmpty then
        pure none
      else do
        let description ← inRange (analysis.program.describeStatement? id)
        pure (some s!"{description} in {context.render}")

/-- Evaluate every scheduled statement in full.  Answers those that added something, which are
none at a fixpoint. -/
def checkFixpoint : Query (List String) := do
  let results ← get
  let growing ← results.state.subscribers.keys.zipIdx.mapM (checkScheduled results.analysis)
  pure (growing.filterMap (·))

end Results

end ObjectFlow
