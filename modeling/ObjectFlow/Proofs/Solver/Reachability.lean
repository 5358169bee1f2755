import ObjectFlow.Proofs.Solver.CallGraph

/-!
# Reachable methods and the call graph

Which methods are reachable is kept apart from the calls and the triggered
initializers that make them so.  However far a run has come, the two agree: a
method is reachable in a context just if a path of calls leads to it from the
entry point or from a class initializer that has been triggered.  So the call
graph needs no nodes but the reachable methods.  When the run is finished, the
initializers of all classes that reachable elements use are among them.
-/

namespace ObjectFlow

open Demand

/-! ## Building the call graph -/

namespace CallGraph

private theorem addNode_of_mem {graph : CallGraph} {node : MethodContext}
    (member : node ∈ graph.nodes) : graph.addNode node = graph :=
  if_pos member

private theorem foldl_addNode {roots seen : List MethodContext}
    {edges : List (MethodContext × MethodContext × CallSite)}
    (distinct : (seen ++ roots).Nodup) :
    roots.foldl addNode ⟨seen, edges⟩ = ⟨seen ++ roots, edges⟩ := by
  induction roots generalizing seen with
  | nil => simp
  | cons root roots ih =>
      have new : root ∉ seen := fun member =>
        (List.nodup_append.mp distinct).2.2 root member root List.mem_cons_self rfl
      rw [List.foldl_cons, addNode, if_neg new, ih (by simpa using distinct)]
      simp

private theorem addCall_of_mem {graph : CallGraph} {edge : CallEdge}
    (source : edge.source ∈ graph.nodes) (target : edge.target ∈ graph.nodes) : graph.addCall edge =
      { graph with edges := graph.edges ++ [(edge.source, edge.target, edge.site)] } := by
  rw [addCall, addNode_of_mem source, addNode_of_mem target]

private theorem build_eq {roots : List MethodContext} {calls : List CallEdge}
    (distinct : roots.Nodup) (ends : ∀ edge ∈ calls, edge.source ∈ roots ∧ edge.target ∈ roots) :
    build roots calls =
      ⟨roots, calls.map fun edge => (edge.source, edge.target, edge.site)⟩ := by
  have added : ∀ edges, calls.foldl addCall ⟨roots, edges⟩ =
      ⟨roots, edges ++ calls.map fun edge => (edge.source, edge.target, edge.site)⟩ := by
    induction calls with
    | nil => simp
    | cons edge calls ih =>
        intro edges
        obtain ⟨source, target⟩ := ends edge List.mem_cons_self
        rw [List.foldl_cons, addCall_of_mem source target,
          ih fun other member => ends other (List.mem_cons_of_mem _ member)]
        simp
  rw [build, foldl_addNode (by simpa using distinct), List.nil_append, added, List.nil_append]

end CallGraph

/-! ## Paths of calls -/

def Graph.Calls (graph : Graph) (caller callee : MethodContext) : Prop :=
  ∃ edge ∈ graph.callEdges, edge.source = caller ∧ edge.target = callee

theorem Graph.mem_callEdges {graph : Graph} {edge : CallEdge} (reader : SubscriberId) :
    edge ∈ graph.callEdges ↔ .call edge ∈ graph.facts reader :=
  Interner.mem_keys_iff

private theorem Graph.Growth.calls_mono {reader : SubscriberId} {graph grown : Graph}
    {delta : Delta} (growth : Graph.Growth reader graph grown delta) {caller callee : MethodContext}
    (calls : graph.Calls caller callee) : grown.Calls caller callee := by
  obtain ⟨edge, member, ends⟩ := calls
  rw [Graph.mem_callEdges reader] at member
  exact ⟨edge, (Graph.mem_callEdges reader).mpr (growth.facts_subset reader member), ends⟩

def Analysis.IsRoot (analysis : Analysis) (graph : Graph) (node : MethodContext) : Prop :=
  node.context = analysis.abstraction.initialContext ∧
    (node.method = analysis.program.entry ∨ graph.isInitialized node.method = true)

/-- A path of calls leads from a root to the method. -/
def Analysis.Rooted (analysis : Analysis) (graph : Graph) (node : MethodContext) : Prop :=
  ∃ root, analysis.IsRoot graph root ∧ Relation.ReflTransGen graph.Calls root node

namespace Analysis

variable {analysis : Analysis} {graph grown : Graph} {reader : SubscriberId} {delta : Delta}
  {node : MethodContext}

theorem IsRoot.rooted (isRoot : analysis.IsRoot graph node) : analysis.Rooted graph node :=
  ⟨node, isRoot, .refl⟩

private theorem Rooted.call (rooted : analysis.Rooted graph node) {callee : MethodContext}
    (calls : graph.Calls node callee) : analysis.Rooted graph callee := by
  obtain ⟨root, isRoot, path⟩ := rooted
  exact ⟨root, isRoot, path.tail calls⟩

private theorem Rooted.grow (rooted : analysis.Rooted graph node)
    (growth : Graph.Growth reader graph grown delta) : analysis.Rooted grown node := by
  obtain ⟨root, ⟨inContext, isRoot⟩, path⟩ := rooted
  exact ⟨root, ⟨inContext, isRoot.imp_right growth.initialized⟩,
    Relation.ReflTransGen.mono (fun _ _ => growth.calls_mono) _ _ path⟩

end Analysis

namespace SolverState

variable {analysis : Analysis} {kind : SetKind} {state next : SolverState} {position : Nat}

structure Grounded (analysis : Analysis) (state : SolverState) : Prop where
  sources : ∀ edge ∈ state.graph.callEdges, edge.source ∈ state.reached.keys
  rooted : ∀ node ∈ state.reached.keys, analysis.Rooted state.graph node

private theorem Invariant.caller (invariant : Invariant analysis state) {subscriber : SubscriberId}
    {key : StatementId × Context} {statement : Statement}
    (scheduled : state.subscribers.key? subscriber = some key)
    (found : analysis.program.statement? key.1 = some statement) :
    ⟨statement.method, key.2⟩ ∈ state.reached.keys := by
  obtain ⟨node, _, reached, member, inContext, _⟩ := invariant.statement scheduled
  obtain ⟨statement', found', isMethod⟩ := statement?_of_mem member
  cases found.symm.trans found'
  rw [isMethod, inContext]
  exact reached

private theorem StepOf.source_of_call (pure : analysis.abstraction.policy.IsPure)
    (invariant : Invariant analysis state) {item : WorkItem} {key : StatementId × Context}
    {statement : Statement} {after : EvalState}
    (stepOf : StepOf analysis state position item key statement after next) {edge : CallEdge}
    (member : edge ∈ after.graph.callEdges) :
    edge ∈ state.graph.callEdges ∨ edge.source = ⟨statement.method, key.2⟩ := by
  let bound : Set Fact := {fact | ∀ edge, fact = .call edge →
    edge ∈ state.graph.callEdges ∨ edge.source = ⟨statement.method, key.2⟩}
  have inside : state.graph.facts item.subscriber ⊆ bound := by
    rintro _ said edge rfl
    exact .inl ((Graph.mem_callEdges _).mpr said)
  have closed : analysis.demand key bound ⊆ bound := by
    rw [analysis.demand_eq stepOf.isStatement 0]
    rintro _ demanded edge rfl
    cases Frame.demand_subset_origins _ _ _ demanded with
    | call _ _ => exact .inr rfl
  obtain ⟨_, inside', _⟩ := stepOf.evaluated pure invariant inside closed
  exact inside'.facts ((Graph.mem_callEdges _).mp member) edge rfl

private theorem step_grounded (pure : analysis.abstraction.policy.IsPure)
    (invariant : Invariant analysis state) (grounded : Grounded analysis state)
    (stepped : step analysis state position = .ok next) : Grounded analysis next := by
  obtain ⟨item, key, statement, after, stepOf⟩ := step_spec invariant stepped
  obtain ⟨growth, _, _⟩ := stepOf.evaluated pure invariant (Set.subset_univ _) (Set.subset_univ _)
  obtain ⟨advances, _, reached, _⟩ := stepOf.propagation invariant growth
  have sameGraph : next.graph = after.graph := advances.graph
  have sources : ∀ edge ∈ after.graph.callEdges, edge.source ∈ state.reached.keys := by
    intro edge member
    rcases stepOf.source_of_call pure invariant member with earlier | isCaller
    · exact grounded.sources edge earlier
    · rw [isCaller]
      exact invariant.caller stepOf.scheduled stepOf.isStatement
  refine ⟨fun edge member => ?_, fun node isReached => ?_⟩
  · exact (reached _).mpr (.inl (sources edge (sameGraph ▸ member)))
  · rw [sameGraph]
    rcases (reached node).mp isReached with earlier | ⟨id, _, edge, isCall, rfl⟩ |
      ⟨method, isNew, rfl⟩
    · exact (grounded.rooted node earlier).grow growth
    · have member : edge ∈ after.graph.callEdges := Interner.mem_keys_iff.mpr ⟨id, isCall⟩
      have rooted := (grounded.rooted _ (sources edge member)).grow growth
      exact rooted.call ⟨edge, member, rfl, rfl⟩
    · exact Analysis.IsRoot.rooted ⟨rfl, .inr ((growth.initializers method).mp isNew).1⟩

private theorem seed_grounded (analysis : Analysis) (kind : SetKind) :
    Grounded analysis (seed analysis kind) := by
  have sameGraph : (seed analysis kind).graph = initialGraph analysis kind :=
    (reachAll_spec analysis.program _ _).1.graph
  refine ⟨fun edge member => ?_, fun node isReached => ?_⟩
  · rw [Graph.mem_callEdges 0, sameGraph, initialGraph_facts] at member
    obtain ⟨_, _, same⟩ := member
    cases same
  · rw [(seed_invariant analysis kind).reached, sameGraph, reaches_initialGraph] at isReached
    obtain ⟨inContext, isTriggered | isEntry⟩ := isReached
    · refine Analysis.IsRoot.rooted ⟨inContext, .inr ?_⟩
      exact (seed_invariant analysis kind).initialized _ isTriggered
    · exact Analysis.IsRoot.rooted ⟨inContext, .inl isEntry⟩

theorem Reachable.grounded (pure : analysis.abstraction.policy.IsPure)
    (reachable : Reachable analysis kind state) : Grounded analysis state := by
  induction reachable with
  | seed => exact seed_grounded analysis kind
  | step reachable stepped ih => exact step_grounded pure (reachable.invariant pure) ih stepped

theorem Invariant.target_reached (invariant : Invariant analysis state) {edge : CallEdge}
    (member : edge ∈ state.graph.callEdges) : edge.target ∈ state.reached.keys :=
  (invariant.reached _).mpr (.inr (.inr ⟨edge, (Graph.mem_callEdges 0).mp member, rfl⟩))

private theorem Invariant.root_reached (invariant : Invariant analysis state) {node : MethodContext}
    (isRoot : analysis.IsRoot state.graph node) : node ∈ state.reached.keys := by
  obtain ⟨method, context⟩ := node
  obtain ⟨rfl, rfl | triggered⟩ := isRoot
  · exact (invariant.reached _).mpr (.inl rfl)
  · exact (invariant.reached _).mpr (.inr (.inl ⟨method, triggered, rfl⟩))

/-- A method is reachable just if a path of calls leads to it from a root. -/
theorem Reachable.reached_iff (pure : analysis.abstraction.policy.IsPure)
    (reachable : Reachable analysis kind state) {node : MethodContext} :
    node ∈ state.reached.keys ↔ analysis.Rooted state.graph node := by
  have invariant := reachable.invariant pure
  refine ⟨(reachable.grounded pure).rooted node, ?_⟩
  rintro ⟨root, isRoot, path⟩
  induction path with
  | refl => exact invariant.root_reached isRoot
  | tail _ calls _ =>
      obtain ⟨edge, member, _, rfl⟩ := calls
      exact invariant.target_reached member

end SolverState

/-! ## Triggered initializers -/

private theorem Statement.Sourced.isInitializer {declared : Declaration.Program}
    {hierarchy : Hierarchy} {table : VariableTable} {statement : Statement}
    (sourced : statement.Sourced declared hierarchy table) {method : MethodId}
    (triggered : method ∈ statement.action.triggered) : hierarchy.IsInitializer method := by
  rcases sourced.meant with ⟨_, _, _, _, _, means⟩ | ⟨_, _, _, isRaise⟩
  · generalize statement.action = action at means triggered
    cases means with
    | getStatic _ triggers => exact Hierarchy.isInitializer_of_mem triggers triggered
    | putStatic _ triggers => exact Hierarchy.isInitializer_of_mem triggers triggered
    | classInit _ _ triggers => exact Hierarchy.isInitializer_of_mem triggers triggered
    | _ => cases triggered
  · rw [isRaise] at triggered
    cases triggered

private theorem SolverState.Reachable.isInitializer {analysis : Analysis} {kind : SetKind}
    {state : SolverState} {declared : Declaration.Program}
    (sourced : analysis.program.Sourced declared)
    (pure : analysis.abstraction.policy.IsPure) (reachable : Reachable analysis kind state)
    {method : MethodId} (triggered : state.graph.isInitialized method = true) :
    analysis.program.hierarchy.IsInitializer method := by
  let bound : Set Fact := {fact | ∀ method, fact = .initializer method →
    analysis.program.hierarchy.IsInitializer method}
  have closed : analysis.Closed bound := by
    refine ⟨fun place => nofun, fun method listed => ?_, fun node _ id member => ?_⟩
    · rintro _ ⟨⟩
      exact sourced.initializers method listed
    · obtain ⟨statement, found, _⟩ := statement?_of_mem member
      rw [analysis.demand_eq found 0]
      rintro _ demanded method rfl
      cases Frame.demand_subset_origins _ _ _ demanded with
      | listed isListed =>
          exact (sourced.statements statement (List.mem_of_getElem? found)).isInitializer isListed
      | used _ triggers isListed => exact Hierarchy.isInitializer_of_mem triggers isListed
  exact reachable.facts_subset pure closed 0 (show Fact.initializer method ∈ _ from triggered)
    method rfl

/-- The class that an element uses, if it is one that runs class initializers. -/
def Declaration.Operands.usedClass? (hierarchy : Hierarchy) (operands : Declaration.Operands) :
    Declaration.Element → Option TypeId
  | .new => operands.type.bind hierarchy.lookupType
  | .getStatic | .putStatic => do
      let type ← hierarchy.lookupType (← operands.className)
      let number ← (hierarchy.lookupField type (← operands.field)).toOption
      (hierarchy.field? number).map Field.declaring
  | .classInit => operands.className.bind hierarchy.lookupType
  | _ => none

private theorem Declaration.Operands.Accesses.usedClass? {hierarchy : Hierarchy}
    {table : VariableTable} {operands : Declaration.Operands} {made : Variable} {declaring : TypeId}
    (accesses : operands.Accesses hierarchy table made declaring) :
    operands.usedClass? hierarchy .getStatic = some declaring := by
  obtain ⟨className, fieldName, type, number, field, isClass, isName, isType, isNumber, isField,
    rfl, _⟩ := accesses
  simp [Operands.usedClass?, isClass, isName, isType, isNumber, isField, Except.toOption]

namespace Frame

variable {frame : Frame} {statement : Statement} {facts : Set Fact}

private theorem triggered_of_met (met : frame.demand statement facts ⊆ facts) {method : MethodId}
    (listed : method ∈ statement.action.triggered) : .initializer method ∈ facts := by
  unfold demand at met
  generalize statement.action = action at met listed
  cases action with
  | static _ _ _ _ => exact (both_closed met).1 ⟨method, listed, rfl⟩
  | classInit _ => exact met ⟨method, listed, rfl⟩
  | _ => cases listed

private theorem triggered_of_new (safe : .failure ∉ facts)
    (met : frame.demand statement facts ⊆ facts) {target : Variable} {type : TypeId}
    (isNew : statement.action = .new target type) :
    ∃ initializers, frame.hierarchy.classInitializersFor? type = some initializers ∧
      ∀ method ∈ initializers, .initializer method ∈ facts := by
  unfold demand at met
  rw [isNew] at met
  obtain ⟨_, _, met⟩ := orFail_met safe met
  obtain ⟨_, _, met⟩ := orFail_met safe (both_closed met).2
  obtain ⟨initializers, found, met⟩ := orFail_met safe (both_closed met).2
  exact ⟨initializers, found, fun method listed => (both_closed met).1 ⟨method, listed, rfl⟩⟩

private theorem triggered_of_means (safe : .failure ∉ facts)
    (met : frame.demand statement facts ⊆ facts) {table : VariableTable} {id : MethodId}
    {body : Declaration.Method} {site : Nat} {operands : Declaration.Operands}
    {element : Declaration.Element}
    (means : statement.action.Means frame.hierarchy table id body site operands element)
    (uses : element ∈ [.new, .getStatic, .putStatic, .classInit]) :
    ∃ type initializers, operands.usedClass? frame.hierarchy element = some type ∧
      frame.hierarchy.classInitializersFor? type = some initializers ∧
      ∀ method ∈ initializers, .initializer method ∈ facts := by
  have listed : ∀ method ∈ statement.action.triggered, .initializer method ∈ facts :=
    fun _ => triggered_of_met met
  generalize isAction : statement.action = action at means listed
  cases means with
  | new isName isType =>
      obtain ⟨initializers, triggers, all⟩ := triggered_of_new safe met isAction
      refine ⟨_, initializers, ?_, triggers, all⟩
      simp [Declaration.Operands.usedClass?, isName, isType]
  | getStatic accesses triggers => exact ⟨_, _, accesses.usedClass?, triggers, listed⟩
  | putStatic accesses triggers => exact ⟨_, _, accesses.usedClass?, triggers, listed⟩
  | classInit isName isType triggers =>
      refine ⟨_, _, ?_, triggers, listed⟩
      simp [Declaration.Operands.usedClass?, isName, isType]
  | _ => simp at uses

end Frame

/-! ## Agreement -/

namespace Results

open SolverState

variable {results : Results} {kind : SetKind}

/-- When a run is finished, the initializers of the classes above one that a reachable element uses
are reachable. -/
theorem initializers_reachable {declared : Declaration.Program}
    (sourced : results.program.Sourced declared)
    (pure : results.analysis.abstraction.policy.IsPure)
    (reachable : Reachable results.analysis kind results.state)
    (done : results.state.pending = []) {id : MethodId} {body : Declaration.Method} {site : Nat}
    {element : Declaration.Element} {operands : Declaration.Operands} {context : Context}
    (isBody : (id, body) ∈ declared.bodies results.program.hierarchy)
    (declares : body.Declares site element operands)
    (uses : element ∈ [.new, .getStatic, .putStatic, .classInit])
    (isReached : ⟨id, context⟩ ∈ results.reachable) :
    ∃ type, operands.usedClass? results.program.hierarchy element = some type ∧
      ∀ sup info method, results.program.hierarchy.Above type sup →
        results.program.hierarchy.table.classInfo? sup = some info →
        info.classInitializer = some method →
        ⟨method, results.initialContext⟩ ∈ results.reachable := by
  have invariant := reachable.invariant pure
  have other : element ≠ .return := by
    rintro rfl
    simp at uses
  obtain ⟨point, action, member, means, _⟩ :=
    sourced.elements id body isBody site element operands declares other
  obtain ⟨number, runs⟩ := exists_runs member isReached
  have safe := Graph.failure_notMem_watching results.graph
  obtain ⟨type, initializers, isUsed, triggers, triggered⟩ :=
    Frame.triggered_of_means safe (runs.met invariant done) means uses
  refine ⟨type, isUsed, fun sup info method above isClass isInitializer => ?_⟩
  have listed := Hierarchy.mem_classInitializersFor?_of_above triggers above isClass isInitializer
  refine (invariant.reached _).mpr (Analysis.reaches_watching.mp ?_)
  exact .inr (.inl ⟨method, triggered method listed, rfl⟩)

/-- However far a run has come, its reachable methods are those that calls lead to from the entry
point and the triggered class initializers, and they are the nodes of the call graph.  When it is
finished, the initializers of all used classes are among them. -/
theorem reachability_agrees {declared : Declaration.Program} {config : Config}
    (loaded : declared.load = .ok results.program)
    (chosen : HeapAbstraction.ofConfig config = .ok results.analysis.abstraction)
    (reachable : Reachable results.analysis kind results.state) :
    (∀ edge ∈ results.graph.callEdges,
      edge.source ∈ results.reachable ∧ edge.target ∈ results.reachable) ∧
    (∀ node, node ∈ results.reachable ↔ ∃ root, results.analysis.IsRoot results.graph root ∧
      Relation.ReflTransGen results.graph.Calls root node) ∧
    (∀ method, results.graph.isInitialized method = true →
      results.program.hierarchy.IsInitializer method) ∧
    results.reachable.Nodup ∧ results.graph.callEdges.Nodup ∧
    results.callGraph = ⟨results.reachable, results.graph.callEdges.map fun edge =>
      (edge.source, edge.target, edge.site)⟩ ∧
    (results.state.pending = [] →
      ∀ id body, (id, body) ∈ declared.bodies results.program.hierarchy →
      ∀ site element operands, body.Declares site element operands →
        element ∈ [.new, .getStatic, .putStatic, .classInit] →
        ∀ context, ⟨id, context⟩ ∈ results.reachable →
          ∃ type, operands.usedClass? results.program.hierarchy element = some type ∧
            ∀ sup info method, results.program.hierarchy.Above type sup →
              results.program.hierarchy.table.classInfo? sup = some info →
              info.classInitializer = some method →
              ⟨method, results.initialContext⟩ ∈ results.reachable) := by
  have sourced := Declaration.load_sourced loaded
  have pure := HeapAbstraction.isPure_of_config chosen
  have ends : ∀ edge ∈ results.graph.callEdges,
      edge.source ∈ results.reachable ∧ edge.target ∈ results.reachable :=
    fun edge member => ⟨(reachable.grounded pure).sources edge member,
      (reachable.invariant pure).target_reached member⟩
  refine ⟨ends, fun node => reachable.reached_iff pure,
    fun method triggered => reachable.isInitializer sourced pure triggered,
    results.state.reached.distinct, results.graph.calls.distinct,
    CallGraph.build_eq results.state.reached.distinct ends, ?_⟩
  intro done id body isBody site element operands declares uses context isReached
  exact initializers_reachable sourced pure reachable done isBody declares uses isReached

end Results

def sharedReader : Declaration.Method :=
  ⟨"load", none, true, false, false,
    [.local ⟨"value", "Object", false⟩,
      .statement .getStatic
        { target := some "value", className := some "B", field := some "shared" }]⟩

def initializingProgram : Declaration.Program :=
  ⟨"Main.main",
    [⟨"A", none, none, false,
        [.method ⟨"<clinit>", none, true, false, false,
          [.statement .call { kind := some "static", method := some "Main.log" }]⟩]⟩,
      ⟨"B", some "A", none, false,
        [.field ⟨"shared", "Object", true⟩,
          .method ⟨"<clinit>", none, true, false, false, []⟩]⟩,
      ⟨"Main", none, none, false,
        [.method ⟨"log", none, true, false, false, []⟩, .method sharedReader,
          .method ⟨"main", none, true, false, false,
            [.statement .call { kind := some "static", method := some "Main.load" }]⟩]⟩]⟩

theorem reachability_agrees_initializing : ∃ results : Results,
    initializingProgram.load = .ok results.program ∧
      HeapAbstraction.ofConfig plainSettings = .ok results.analysis.abstraction ∧
      SolverState.Reachable results.analysis .hashed results.state ∧ results.state.pending = [] ∧
      results.callGraph.nodes.length = 5 ∧ results.callGraph.edges.length = 2 ∧
      ⟨1, .empty⟩ ∈ results.reachable ∧
      ∃ root, results.analysis.IsRoot results.graph root ∧
        Relation.ReflTransGen results.graph.Calls root ⟨3, .empty⟩ := by
  obtain ⟨results, loaded, chosen, solved, done, isBody, isReached, isUsed, isSuper, isFirst,
      isLogged, nodes, edges, isInitial⟩ :=
    initializingProgram.exists_finished plainSettings (fun results =>
      (4, sharedReader) ∈ initializingProgram.bodies results.program.hierarchy ∧
        ⟨4, .empty⟩ ∈ results.reachable ∧
        (Declaration.Operands.usedClass? results.program.hierarchy
          { target := some "value", className := some "B", field := some "shared" }
          .getStatic) = some 11 ∧
        results.program.hierarchy.superclass? 11 = some 10 ∧
        (results.program.hierarchy.table.classInfo? 10).bind ClassInfo.classInitializer = some 1 ∧
        ⟨3, .empty⟩ ∈ results.reachable ∧ results.reachable.length = 5 ∧
        results.graph.callEdges.length = 2 ∧ results.initialContext = .empty) (by decide +kernel)
  have reachable := Analysis.solve_reachable solved
  obtain ⟨_, rooted, _, _, _, isGraph, used⟩ := Results.reachability_agrees loaded chosen reachable
  obtain ⟨info, isClass, isInitializer⟩ := Option.bind_eq_some_iff.mp isFirst
  obtain ⟨type, isType, triggered⟩ := used done 4 sharedReader isBody 0 .getStatic _
    (List.mem_singleton_self _) (by decide) .empty isReached
  cases isUsed.symm.trans isType
  rw [isInitial] at triggered
  refine ⟨results, loaded, chosen, reachable, done, ?_, ?_,
    triggered 10 info 1 (.single isSuper) isClass isInitializer, (rooted _).mp isLogged⟩
  · rw [isGraph]
    exact nodes
  · rw [isGraph, List.length_map]
    exact edges

end ObjectFlow
