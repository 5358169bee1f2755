import ObjectFlow.Proofs.Solver.Finished

/-!
# The call graph of a finished run

A call without a receiver has one edge, to the method that it names.  A call on
a receiver has an edge for each object that it reads there and that is of the
class of the named method, unless the object's type picks the native `clone`.
When a run is finished these are all the edges that there are.
-/

namespace ObjectFlow

open Demand

/-- The method that a call runs on an object of a type, given the method that it names. -/
def Call.target? (call : Call) (hierarchy : Hierarchy) (named : Method) (type : TypeId) :
    Option MethodId :=
  match call.kind with
  | .virtual => (hierarchy.resolveMethod? type named.selector).join
  | .special | .static => some call.callee

/-- The call can be made on objects of the type, and runs the target on them. -/
def Call.Invokes (call : Call) (hierarchy : Hierarchy) (type : TypeId) (target : MethodId) : Prop :=
  ∃ named, hierarchy.method? call.callee = some named ∧
    hierarchy.isSubtype? type named.declaring = some true ∧
    call.target? hierarchy named type = some target

/-! ## What calls demand -/

namespace Frame

variable {frame : Frame} {statement : Statement} {call : Call} {facts : Set Fact}

theorem callee?_eq (call : Call) (named : Method) (receiver : HeapObject) :
    frame.callee? call named receiver = call.target? frame.hierarchy named receiver.type := by
  unfold callee? Call.target?
  cases call.kind <;> rfl

theorem linking_of_met {receiver : Variable} (safe : .failure ∉ facts)
    (met : frame.calling statement call facts ⊆ facts)
    (isReceiver : call.receiver = some receiver) :
    ∃ sources named, frame.sources? receiver statement.point = some sources ∧
      looks sources facts ⊆ facts ∧ frame.hierarchy.method? call.callee = some named ∧
      ∀ object ∈ shown sources facts, frame.linking statement call named object facts ⊆ facts := by
  unfold calling at met
  rw [isReceiver] at met
  obtain ⟨named, isNamed, met⟩ := orFail_met safe (both_closed met).2
  obtain ⟨sources, found, looked, linked⟩ := observed_of_met safe met
  exact ⟨sources, named, found, looked, isNamed, linked⟩

theorem target_of_met {named : Method} {object : HeapObject} (safe : .failure ∉ facts)
    (met : frame.linking statement call named object facts ⊆ facts)
    (accepted : frame.hierarchy.isSubtype? object.type named.declaring = some true) :
    ∃ target, call.target? frame.hierarchy named object.type = some target ∧
      (target ≠ TypeTable.cloneMethod →
        frame.linkingMethod statement call target (some object) facts ⊆ facts) := by
  rw [← TypeFilter.accepts?_any] at accepted
  obtain ⟨target, isTarget, met⟩ := orFail_met safe (provided_met accepted met)
  refine ⟨target, callee?_eq call named object ▸ isTarget, fun other => ?_⟩
  rwa [if_neg other] at met

private theorem links_iff_of_none {callee : MethodId} {receiver : Option HeapObject}
    (noReceiver : call.receiver = none) :
    frame.Links statement facts call callee receiver ↔ callee = call.callee ∧ receiver = none := by
  constructor
  · intro links
    cases links with
    | named _ => exact ⟨rfl, rfl⟩
    | dispatched isReceiver _ _ _ _ _ _ => cases noReceiver.symm.trans isReceiver
  · rintro ⟨rfl, rfl⟩
    exact .named noReceiver

theorem links_iff_of_some {callee : MethodId} {receiver : Option HeapObject} {declared : Variable}
    {sources : List Source} (isReceiver : call.receiver = some declared)
    (found : frame.sources? declared statement.point = some sources) :
    frame.Links statement facts call callee receiver ↔ ∃ object ∈ shown sources facts,
      receiver = some object ∧ call.Invokes frame.hierarchy object.type callee ∧
        callee ≠ TypeTable.cloneMethod := by
  constructor
  · intro links
    cases links with
    | named noReceiver => cases noReceiver.symm.trans isReceiver
    | dispatched isReceiver' found' seen isNamed accepted isCallee other =>
        cases isReceiver.symm.trans isReceiver'
        cases found.symm.trans found'
        rw [callee?_eq] at isCallee
        exact ⟨_, seen, rfl, ⟨_, isNamed, accepted, isCallee⟩, other⟩
  · rintro ⟨object, seen, rfl, ⟨named, isNamed, accepted, isCallee⟩, other⟩
    rw [← callee?_eq] at isCallee
    exact .dispatched isReceiver found seen isNamed accepted isCallee other

theorem linkingMethod_of_met {callee : MethodId} {receiver : Option HeapObject}
    (safe : .failure ∉ facts) (met : frame.calling statement call facts ⊆ facts)
    (links : frame.Links statement facts call callee receiver) :
    frame.linkingMethod statement call callee receiver facts ⊆ facts := by
  cases links with
  | named noReceiver =>
      unfold calling at met
      rwa [noReceiver] at met
  | dispatched isReceiver found seen isNamed accepted isCallee other =>
      obtain ⟨sources, named, found', _, isNamed', linked⟩ := linking_of_met safe met isReceiver
      cases found.symm.trans found'
      cases isNamed.symm.trans isNamed'
      obtain ⟨target, isTarget, link⟩ := target_of_met safe (linked _ seen) accepted
      rw [callee?_eq] at isCallee
      cases isCallee.symm.trans isTarget
      exact link other

theorem called_of_met {callee : MethodId} {receiver : Option HeapObject} (safe : .failure ∉ facts)
    (met : frame.linkingMethod statement call callee receiver facts ⊆ facts) :
    .call ⟨statement.callSite, frame.context, callee, frame.calleeContext statement receiver⟩ ∈
      facts := by
  obtain ⟨_, _, met⟩ := orFail_met safe met
  exact (both_closed met).1 rfl

theorem exchanged_of_met {callee : MethodId} {receiver : Option HeapObject} {method : Method}
    {summary : MethodSummary} (safe : .failure ∉ facts)
    (met : frame.linkingMethod statement call callee receiver facts ⊆ facts)
    (found : frame.program.summary? callee = some summary)
    (isMethod : frame.hierarchy.method? callee = some method) :
    (method.isStatic = false →
      frame.receiving (frame.calleeContext statement receiver) summary.formals receiver facts ⊆
        facts) ∧
    frame.exchanging statement call summary (frame.calleeContext statement receiver)
      (summary.formals.drop (if method.isStatic then 0 else 1)) facts ⊆ facts := by
  obtain ⟨_, _, met⟩ := orFail_met safe met
  have met := (both_closed met).2
  rw [found, isMethod] at met
  cases isStatic : method.isStatic with
  | true =>
      refine ⟨nofun, ?_⟩
      simpa [orFail, isStatic] using met
  | false =>
      simp only [orFail, isStatic, Bool.false_eq_true, if_false] at met ⊢
      obtain ⟨received, exchanged⟩ := both_closed met
      exact ⟨fun _ => received, exchanged⟩

end Frame

/-! ## Edges -/

namespace Results

open SolverState

variable {results : Results} {kind : SetKind} {context : Context} {id : StatementId}
  {statement : Statement} {call : Call}

theorem call_mem_watching {edge : CallEdge} :
    .call edge ∈ watching results.graph.content ↔ edge ∈ results.graph.callEdges := by
  constructor
  · rintro (⟨named, _⟩ | ⟨_, same⟩)
    · exact Interner.mem_keys_iff.mpr named
    · cases same
  · intro member
    exact .inl ⟨Interner.mem_keys_iff.mp member, nofun⟩

def frameOf (results : Results) (id : StatementId) (context : Context) : Frame :=
  results.analysis.frame (id, context) 0

theorem calling_met (invariant : Invariant results.analysis results.state)
    (done : results.state.pending = []) (runs : Runs results.analysis results.state id context
      statement) (isCall : statement.action = .call call) :
    (results.frameOf id context).calling statement call (watching results.graph.content) ⊆
      watching results.graph.content := by
  have met := runs.met invariant done
  unfold Frame.demand at met
  rw [isCall] at met
  exact met

theorem call_cases (pure : results.analysis.abstraction.policy.IsPure)
    (reachable : Reachable results.analysis kind results.state)
    (done : results.state.pending = []) {edge : CallEdge}
    (member : edge ∈ results.graph.callEdges) :
    ∃ id statement call receiver,
      Runs results.analysis results.state id edge.callerContext statement ∧
      statement.action = .call call ∧
      (results.frameOf id edge.callerContext).Links statement (watching results.graph.content) call
        edge.callee receiver ∧
      edge = ⟨statement.callSite, edge.callerContext, edge.callee,
        (results.frameOf id edge.callerContext).calleeContext statement receiver⟩ := by
  have said : Fact.call edge ∈ results.graph.content :=
    ⟨Interner.mem_keys_iff.mp member, nofun⟩
  rcases reachable.origin pure done said with ⟨_, _, same⟩ | ⟨id, context, statement, runs, origin⟩
  · cases same
  · cases origin with
    | call isCall links => exact ⟨id, statement, _, _, runs, isCall, links, rfl⟩

def edgesAt (results : Results) (site : CallSite) (context : Context) : List CallEdge :=
  results.graph.callEdges.filter fun edge => edge.site = site ∧ edge.callerContext = context

theorem mem_edgesAt {declared : Declaration.Program} (sourced : results.program.Sourced declared)
    (pure : results.analysis.abstraction.policy.IsPure)
    (reachable : Reachable results.analysis kind results.state)
    (done : results.state.pending = [])
    (runs : Runs results.analysis results.state id context statement)
    (isCall : statement.action = .call call) {edge : CallEdge} :
    edge ∈ results.edgesAt statement.callSite context ↔ ∃ callee receiver,
      (results.frameOf id context).Links statement (watching results.graph.content) call callee
        receiver ∧
      edge = ⟨statement.callSite, context, callee,
        (results.frameOf id context).calleeContext statement receiver⟩ := by
  unfold edgesAt
  rw [List.mem_filter, decide_eq_true_iff]
  constructor
  · rintro ⟨member, isSite, rfl⟩
    obtain ⟨id', statement', call', receiver, runs', isCall', links, same⟩ :=
      call_cases pure reachable done member
    rw [same] at isSite
    obtain rfl : statement' = statement :=
      sourced.eq_of_site runs'.mem runs.mem isSite
    obtain rfl : id' = id := by
      have found := sourced.idAt?_of_found runs.found
      rw [sourced.idAt?_of_found runs'.found] at found
      exact Option.some.inj found
    cases isCall.symm.trans isCall'
    exact ⟨edge.callee, receiver, links, same⟩
  · rintro ⟨callee, receiver, links, rfl⟩
    have safe := Graph.failure_notMem_watching results.graph
    have met := calling_met (reachable.invariant pure) done runs isCall
    have linked := Frame.linkingMethod_of_met safe met links
    exact ⟨call_mem_watching.mp (Frame.called_of_met safe linked), rfl, rfl⟩

/-- The context that a call runs its callee in. -/
def calleeContext (results : Results) (site : CallSite) (receiver : Option HeapObject)
    (context : Context) : Context :=
  results.analysis.abstraction.policy.merge 0 site receiver context

section Exact

variable {declared : Declaration.Program} (sourced : results.program.Sourced declared)
  (pure : results.analysis.abstraction.policy.IsPure)
  (reachable : Reachable results.analysis kind results.state) (done : results.state.pending = [])
  (runs : Runs results.analysis results.state id context statement)
  (isCall : statement.action = .call call)

include sourced pure reachable done runs isCall

private theorem edgesAt_of_none (noReceiver : call.receiver = none) :
    results.edgesAt statement.callSite context =
      [⟨statement.callSite, context, call.callee,
        results.calleeContext statement.callSite none context⟩] := by
  have distinct : (results.edgesAt statement.callSite context).Nodup :=
    List.Nodup.filter _ results.graph.calls.distinct
  refine List.perm_singleton.mp ((List.perm_ext_iff_of_nodup distinct
    (List.nodup_singleton _)).mpr fun edge => ?_)
  rw [mem_edgesAt sourced pure reachable done runs isCall, List.mem_singleton]
  simp only [Frame.links_iff_of_none noReceiver]
  constructor
  · rintro ⟨_, _, ⟨rfl, rfl⟩, rfl⟩
    rfl
  · rintro rfl
    exact ⟨_, _, ⟨rfl, rfl⟩, rfl⟩

private theorem edgesAt_of_some {receiver : Variable} (isReceiver : call.receiver = some receiver) :
    ∃ receivers named, results.readAt? statement.callSite context receiver = some receivers ∧
      results.program.hierarchy.method? call.callee = some named ∧
      (∀ id ∈ receivers, ∃ object, results.graph.object? id = some object ∧
        (results.program.hierarchy.isSubtype? object.type named.declaring = some true →
          ∃ target, call.Invokes results.program.hierarchy object.type target)) ∧
      ∀ edge, edge ∈ results.edgesAt statement.callSite context ↔
        ∃ id ∈ receivers, ∃ object target, results.graph.object? id = some object ∧
          call.Invokes results.program.hierarchy object.type target ∧
          target ≠ TypeTable.cloneMethod ∧
          edge = ⟨statement.callSite, context, target,
            results.calleeContext statement.callSite (some object) context⟩ := by
  have invariant := reachable.invariant pure
  have safe := Graph.failure_notMem_watching results.graph
  obtain ⟨sources, named, found, looked, isNamed, linked⟩ :=
    Frame.linking_of_met safe (calling_met invariant done runs isCall) isReceiver
  obtain ⟨receivers, isRead, members⟩ := readAt?_spec sourced pure invariant runs found looked
  refine ⟨receivers, named, isRead, isNamed, fun id member => ?_, fun edge => ?_⟩
  · obtain ⟨object, seen, isObject⟩ := (members id).mp member
    refine ⟨object, isObject, fun accepted => ?_⟩
    obtain ⟨target, isTarget, _⟩ := Frame.target_of_met safe (linked object seen) accepted
    exact ⟨target, named, isNamed, accepted, isTarget⟩
  · rw [mem_edgesAt sourced pure reachable done runs isCall]
    simp only [Frame.links_iff_of_some isReceiver found]
    constructor
    · rintro ⟨target, _, ⟨object, seen, rfl, invokes, other⟩, rfl⟩
      obtain ⟨isObject, _⟩ | ⟨_, same⟩ := looked (.object seen)
      · obtain ⟨id, isObject⟩ := isObject
        exact ⟨id, (members id).mpr ⟨object, seen, isObject⟩, object, target, isObject, invokes,
          other, rfl⟩
      · cases same
    · rintro ⟨id, member, object, target, isObject, invokes, other, rfl⟩
      obtain ⟨object', seen, isObject'⟩ := (members id).mp member
      cases isObject.symm.trans isObject'
      exact ⟨target, _, ⟨object, seen, rfl, invokes, other⟩, rfl⟩

end Exact

/-- When a run is finished, the call graph has the edges that the calls of the reachable methods
have for the receivers that they read, and no others. -/
theorem callGraph_exact {declared : Declaration.Program} {config : Config}
    (loaded : declared.load = .ok results.program)
    (chosen : HeapAbstraction.ofConfig config = .ok results.analysis.abstraction)
    (reachable : Reachable results.analysis kind results.state)
    (done : results.state.pending = []) :
    (∀ edge ∈ results.graph.callEdges, edge.source ∈ results.reachable ∧
      ∃ statement ∈ results.program.statements, ∃ call, statement.action = .call call ∧
        edge.site = statement.callSite) ∧
    ∀ node ∈ results.reachable, ∀ statement ∈ results.program.statements,
      statement.method = node.method → ∀ call, statement.action = .call call →
        match call.receiver with
        | none => results.edgesAt statement.callSite node.context =
            [⟨statement.callSite, node.context, call.callee,
              results.calleeContext statement.callSite none node.context⟩]
        | some receiver => ∃ receivers named,
            results.readAt? statement.callSite node.context receiver = some receivers ∧
            results.program.hierarchy.method? call.callee = some named ∧
            (∀ id ∈ receivers, ∃ object, results.graph.object? id = some object ∧
              (results.program.hierarchy.isSubtype? object.type named.declaring = some true →
                ∃ target, call.Invokes results.program.hierarchy object.type target)) ∧
            ∀ edge, edge ∈ results.edgesAt statement.callSite node.context ↔
              ∃ id ∈ receivers, ∃ object target, results.graph.object? id = some object ∧
                call.Invokes results.program.hierarchy object.type target ∧
                target ≠ TypeTable.cloneMethod ∧
                edge = ⟨statement.callSite, node.context, target,
                  results.calleeContext statement.callSite (some object) node.context⟩ := by
  have sourced := Declaration.load_sourced loaded
  have pure := HeapAbstraction.isPure_of_config chosen
  constructor
  · intro edge member
    obtain ⟨id, statement, call, receiver, runs, isCall, _, same⟩ :=
      call_cases pure reachable done member
    rw [same]
    exact ⟨runs.reached, statement, runs.mem, call, isCall, rfl⟩
  · rintro ⟨method, context⟩ isReached statement member rfl call isCall
    obtain ⟨id, runs⟩ := exists_runs member isReached
    cases isReceiver : call.receiver with
    | none => exact edgesAt_of_none sourced pure reachable done runs isCall isReceiver
    | some receiver => exact edgesAt_of_some sourced pure reachable done runs isCall isReceiver

end Results

def dispatchingProgram : Declaration.Program :=
  ⟨"Main.main",
    [⟨"E", some "Throwable", none, false, []⟩, ⟨"F", some "Throwable", none, false, []⟩,
      ⟨"A", none, none, false,
        [.method ⟨"run", none, false, false, false,
          [.param ⟨"count", "int"⟩, .param ⟨"given", "Object"⟩, .local ⟨"thrown", "E", false⟩,
            .statement .new { target := some "thrown", type := some "E" },
            .statement .throw { source := some "thrown" }]⟩]⟩,
      ⟨"B", some "A", none, false,
        [.method ⟨"run", none, false, false, false,
          [.param ⟨"count", "int"⟩, .param ⟨"given", "Object"⟩, .local ⟨"thrown", "F", false⟩,
            .statement .new { target := some "thrown", type := some "F" },
            .statement .throw { source := some "thrown" }]⟩]⟩,
      ⟨"Main", none, none, false,
        [.method ⟨"stop", none, true, false, false, [.param ⟨"given", "Object"⟩]⟩,
          .method ⟨"main", none, true, false, false,
            [.local ⟨"target", "A", false⟩, .local ⟨"value", "Object", false⟩,
              .local ⟨"caught", "E", false⟩, .catch ⟨"E", "caught"⟩,
              .statement .new { target := some "target", type := some "A" },
              .statement .new { target := some "target", type := some "B" },
              .statement .new { target := some "value", type := some "Object" },
              .statement .call
                { receiver := some "target", method := some "A.run", args := some "_, value" },
              .statement .call
                { kind := some "static", method := some "Main.stop", args := some "value" }]⟩]⟩]⟩

theorem callGraph_exact_dispatching : ∃ (results : Results) (statement : Statement) (call : Call)
    (receiver : Variable), dispatchingProgram.load = .ok results.program ∧
      HeapAbstraction.ofConfig plainSettings = .ok results.analysis.abstraction ∧
      SolverState.Reachable results.analysis .hashed results.state ∧ results.state.pending = [] ∧
      statement ∈ results.program.statements ∧ statement.action = .call call ∧
      call.receiver = some receiver ∧
      (∀ callee ∈ [1, 2], ⟨statement.callSite, .empty, callee, .empty⟩ ∈
        results.edgesAt statement.callSite .empty) ∧
      ∃ receivers, results.readAt? statement.callSite .empty receiver = some receivers ∧
        ∀ callee ∈ [1, 2], ∃ id ∈ receivers, ∃ object, results.graph.object? id = some object ∧
          call.Invokes results.program.hierarchy object.type callee := by
  let receiver : Variable := ⟨11, 12, false, false⟩
  let call : Call := ⟨.virtual, 1, some receiver, [none, some ⟨12, 8, false, false⟩], none,
    ⟨14, 9, false, false⟩⟩
  let statement : Statement := ⟨4, 3, some 15, .call call⟩
  obtain ⟨results, loaded, chosen, solved, done, member, isReached, edges⟩ :=
    dispatchingProgram.exists_finished plainSettings (fun results =>
      statement ∈ results.program.statements ∧ ⟨4, .empty⟩ ∈ results.reachable ∧
        ∀ callee ∈ [1, 2], ⟨statement.callSite, .empty, callee, .empty⟩ ∈
          results.edgesAt statement.callSite .empty) (by decide +kernel)
  have reachable := Analysis.solve_reachable solved
  obtain ⟨receivers, _, isRead, _, _, exact⟩ :=
    (Results.callGraph_exact loaded chosen reachable done).2 _ isReached statement member rfl call
      rfl
  refine ⟨results, statement, call, receiver, loaded, chosen, reachable, done, member, rfl, rfl,
    edges, receivers, isRead, fun callee listed => ?_⟩
  obtain ⟨id, isRead, object, target, isObject, invokes, _, same⟩ :=
    (exact _).mp (edges callee listed)
  obtain rfl : callee = target := congrArg CallEdge.callee same
  exact ⟨id, isRead, object, isObject, invokes⟩

end ObjectFlow
