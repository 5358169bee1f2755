import ObjectFlow.Proofs.Solver.CallGraph

/-!
# Where exceptions go

What is raised in a method goes to the first of its handlers that takes objects
of its type.  If there is none it escapes, provided that it can be thrown at all,
and is raised again wherever the method is called.  So an object that escapes is
one that no handler of the method takes, in every state that a run goes through,
and when a run is finished no exception is lost on its way.
-/

namespace ObjectFlow

open Demand

namespace TypeFilter

variable {hierarchy : Hierarchy} {type : TypeId}

theorem avoids?_eq_true_iff {excluded : List TypeId} :
    avoids? hierarchy type excluded = some true ↔
      ∀ other ∈ excluded, hierarchy.isSubtype? type other = some false := by
  induction excluded with
  | nil => simp [avoids?]
  | cons first rest ih =>
      cases answer : hierarchy.isSubtype? type first with
      | none => simp [avoids?, answer]
      | some holds => cases holds <;> simp [avoids?, answer, ih]

theorem accepts?_eq_true_iff {filter : TypeFilter} :
    filter.accepts? hierarchy type = some true ↔
      hierarchy.isSubtype? type filter.type = some true ∧
        ∀ other ∈ filter.excluded, hierarchy.isSubtype? type other = some false := by
  rw [← avoids?_eq_true_iff, accepts?]
  cases hierarchy.isSubtype? type filter.type with
  | none => simp
  | some holds => cases holds <;> simp

end TypeFilter

/-! ## Handlers -/

namespace Declaration.Program

variable (declared : Program) (program : ObjectFlow.Program) (method : MethodId)

/-- The handlers of the body that is bound to a method, in the order in which they are tried. -/
def handlersOf : List Handler :=
  ((declared.bodies program.hierarchy).lookup method).elim [] fun body =>
    body.catches.filterMap (body.handler? program.hierarchy program.variableTable method)

/-- No two bodies are bound to one method. -/
def BoundOnce : Prop := ((declared.bodies program.hierarchy).map Prod.fst).Nodup

instance : Decidable (declared.BoundOnce program) := inferInstanceAs (Decidable (List.Nodup _))

/-- Objects of the type can be thrown, and no handler of the method takes them. -/
def Escapes (type : TypeId) : Prop :=
  program.hierarchy.isSubtype? type TypeTable.throwableType = some true ∧
    ∀ handler ∈ declared.handlersOf program method,
      program.hierarchy.isSubtype? type handler.type = some false

end Declaration.Program

namespace Program.Sourced

variable {declared : Declaration.Program} {program : Program} {statement : Statement}
  {raised summary : Variable} {handlers : List Handler}

theorem handlersOf_eq (sourced : program.Sourced declared)
    (once : declared.BoundOnce program)
    (member : statement ∈ program.statements)
    (isRaise : statement.action = .raise raised handlers summary) :
    declared.handlersOf program statement.method = handlers := by
  obtain ⟨_, body, isBody, caught⟩ :=
    (sourced.statements statement member).raise raised handlers summary isRaise
  unfold Declaration.Program.handlersOf
  rw [lookup_of_mem once isBody, Option.elim_some]
  clear isRaise
  generalize body.catches = catches at caught
  induction caught with
  | nil => rfl
  | cons isHandler _ ih => rw [List.filterMap_cons_some isHandler, ih]

private theorem summary_of_raise (sourced : program.Sourced declared)
    (member : statement ∈ program.statements)
    (isRaise : statement.action = .raise raised handlers summary) :
    ∃ found, program.summary? statement.method = some found ∧ found.exception = summary := by
  obtain ⟨isSummary, body, isBody, _⟩ :=
    (sourced.statements statement member).raise raised handlers summary isRaise
  obtain ⟨_, isMethod⟩ := Declaration.Program.method?_of_body isBody
  obtain ⟨found, isFound⟩ := sourced.exists_summary isMethod
  have isException := (sourced.summaries _ found isFound).exception
  exact ⟨found, isFound, Option.some.inj (isException.symm.trans isSummary)⟩

end Program.Sourced

/-! ## What raising demands -/

namespace Frame

variable {frame : Frame} {statement : Statement} {facts : Set Fact} {object : HeapObject}

theorem written?_none {declared : Variable} {place : Place}
    (found : frame.written? declared none = some place) :
    declared.flowSensitive = false ∧ place = .local (frame.replica declared) := by
  unfold written? at found
  split at found
  · cases found
  · next plain => exact ⟨Bool.eq_false_of_not_eq_true plain, (Option.some.inj found).symm⟩

private theorem returned_of_met {place : Place} {target : Variable} {point : Option PointId}
    (safe : .failure ∉ facts) (met : frame.returning place target point facts ⊆ facts)
    (edge : .edge place object ∈ facts) :
    ∃ goal, frame.written? target point = some goal ∧ .edge goal object ∈ facts := by
  obtain ⟨goal, found, met⟩ := orFail_met safe (both_closed met).2
  refine ⟨goal, found, (both_closed met).2 (.inl ⟨object, ?_, rfl⟩)⟩
  rw [shown_direct]
  exact edge

private theorem moved_of_met {place : Place} {filter : TypeFilter}
    (met : frame.moving place (some filter) object facts ⊆ facts)
    (accepted : filter.accepts? frame.hierarchy object.type = some true) :
    .edge place object ∈ facts :=
  provided_met accepted met rfl

/-- A raised object goes to the first handler that takes it, or else escapes. -/
theorem raised_of_met {summary : Variable} {caught : List TypeId} {handlers : List Handler}
    (safe : .failure ∉ facts)
    (met : frame.raising summary object caught handlers facts ⊆ facts)
    (avoided : ∀ type ∈ caught, frame.hierarchy.isSubtype? object.type type = some false) :
    match handlers.find? fun handler =>
      frame.hierarchy.isSubtype? object.type handler.type = some true with
    | some handler => ∃ place, frame.written? handler.target none = some place ∧
        .edge place object ∈ facts
    | none => frame.hierarchy.isSubtype? object.type TypeTable.throwableType = some true →
        ∃ place, frame.written? summary none = some place ∧ .edge place object ∈ facts := by
  induction handlers generalizing caught with
  | nil =>
      intro isThrowable
      obtain ⟨place, found, met⟩ := orFail_met safe met
      refine ⟨place, found, moved_of_met (both_closed met).2 ?_⟩
      exact TypeFilter.accepts?_eq_true_iff.mpr ⟨isThrowable, avoided⟩
  | cons handler handlers ih =>
      obtain ⟨place, found, met⟩ := orFail_met safe met
      obtain ⟨moved, rest⟩ := both_closed (both_closed met).2
      cases answer : frame.hierarchy.isSubtype? object.type handler.type with
      | none =>
          obtain ⟨_, asked, _⟩ := orFail_met safe moved
          simp [TypeFilter.accepts?, answer] at asked
      | some holds =>
          cases holds with
          | true =>
              rw [List.find?_cons_of_pos (by simp [answer])]
              exact ⟨place, found, moved_of_met moved
                (TypeFilter.accepts?_eq_true_iff.mpr ⟨answer, avoided⟩)⟩
          | false =>
              rw [List.find?_cons_of_neg (by simp [answer])]
              refine ih rest fun type member => ?_
              rcases List.mem_append.mp member with earlier | here
              · exact avoided type earlier
              · rwa [List.mem_singleton.mp here]

/-- What a method lets escape is no object that one of its handlers takes. -/
theorem Flow.escapes {declared : Declaration.Program} (sourced : frame.program.Sourced declared)
    (once : declared.BoundOnce frame.program)
    (member : statement ∈ frame.program.statements) {method : MethodId} {summary : Variable}
    (isSummary : frame.program.variableTable.find? (.exception method) = some summary)
    {replica : Replica} (sameId : summary.id = replica.variableId)
    (flow : frame.Flow statement facts (.local replica) object) :
    declared.Escapes frame.program method object.type := by
  rcases flow.local_cases sourced member isSummary sameId with assigned |
    ⟨isException, _, handlers, isRaise, accepted⟩ | ⟨_, _, isFormal, _⟩
  · obtain ⟨_, found, other⟩ := (sourced.statements statement member).assigned _ assigned
    exact absurd (sourced.tidy.origin_eq found isSummary rfl) (other method)
  · cases isException
    obtain ⟨isThrowable, avoided⟩ := TypeFilter.accepts?_eq_true_iff.mp accepted
    refine ⟨isThrowable, fun handler listed => avoided handler.type (List.mem_map_of_mem ?_)⟩
    rwa [sourced.handlersOf_eq once member isRaise] at listed
  · cases isFormal

end Frame

def Fact.Escaped (declared : Declaration.Program) (program : Program) : Fact → Prop
  | .edge (.local replica) held => ∀ method summary,
      program.variableTable.find? (.exception method) = some summary →
      summary.id = replica.variableId → declared.Escapes program method held.type
  | _ => True

private theorem Frame.Origin.escaped {frame : Frame} {statement : Statement} {facts : Set Fact}
    {declared : Declaration.Program} (sourced : frame.program.Sourced declared)
    (once : declared.BoundOnce frame.program)
    (member : statement ∈ frame.program.statements) {fact : Fact}
    (origin : frame.Origin statement facts fact) : fact.Escaped declared frame.program := by
  cases origin with
  | @edge place object flow =>
      cases place with
      | «local» replica =>
          exact fun method summary isSummary sameId =>
            flow.escapes sourced once member isSummary sameId
      | _ => trivial
  | _ => trivial

private theorem SolverState.Reachable.escaped {analysis : Analysis} {kind : SetKind}
    {state : SolverState} {declared : Declaration.Program}
    (sourced : analysis.program.Sourced declared) (once : declared.BoundOnce analysis.program)
    (pure : analysis.abstraction.policy.IsPure) (reachable : Reachable analysis kind state)
    {fact : Fact} (said : fact ∈ state.graph.facts 0) : fact.Escaped declared analysis.program := by
  refine reachable.facts_subset_of_origins pure {fact | fact.Escaped declared analysis.program}
    (fun place => trivial) (fun method => trivial) (fun key statement found fact origin => ?_) 0
    said
  have sourced : (analysis.frame key 0).program.Sourced declared := sourced
  exact origin.escaped sourced once (List.mem_of_getElem? found)

/-! ## Exceptions of a finished run -/

namespace Results

open SolverState

variable {results : Results} {kind : SetKind} {declared : Declaration.Program} {context : Context}
  {id : ObjectId}

def exceptions (results : Results) (method : MethodId) (context : Context) : IdSet :=
  (results.program.summary? method).elim ∅ fun summary => results.pointsTo summary.exception context

/-- The object is in the variable of the first handler of the method that takes it, or else, if it
can be thrown, in the exception summary. -/
def Routed (results : Results) (declared : Declaration.Program) (node : MethodContext)
    (id : ObjectId) : Prop :=
  ∃ object, results.graph.object? id = some object ∧
    match (declared.handlersOf results.program node.method).find? fun handler =>
      results.program.hierarchy.isSubtype? object.type handler.type = some true with
    | some handler => id ∈ results.pointsTo handler.target node.context
    | none =>
        results.program.hierarchy.isSubtype? object.type TypeTable.throwableType = some true →
          id ∈ results.exceptions node.method node.context

theorem mem_exceptions_iff {method : MethodId} : id ∈ results.exceptions method context ↔
    ∃ summary, results.program.summary? method = some summary ∧
      id ∈ results.pointsTo summary.exception context := by
  unfold exceptions
  cases results.program.summary? method with
  | none => simp [OrderedSet.not_mem_empty]
  | some summary => simp

theorem plain_of_exception (sourced : results.program.Sourced declared) {method : MethodId}
    {summary : MethodSummary} (found : results.program.summary? method = some summary) :
    summary.exception.flowSensitive = false := by
  obtain ⟨_, suits⟩ := sourced.tidy.suits (sourced.summaries method summary found).exception
  exact suits.plain rfl

private theorem escapes_of_mem_exceptions (sourced : results.program.Sourced declared)
    (once : declared.BoundOnce results.program)
    (pure : results.analysis.abstraction.policy.IsPure)
    (reachable : Reachable results.analysis kind results.state) {method : MethodId}
    (member : id ∈ results.exceptions method context) :
    ∃ object, results.graph.object? id = some object ∧
      declared.Escapes results.program method object.type := by
  obtain ⟨summary, found, member⟩ := mem_exceptions_iff.mp member
  obtain ⟨object, named⟩ := named_of_mem_pointsTo (reachable.invariant pure).valid member
  have edge := (mem_pointsTo 0 (plain_of_exception sourced found) named).mp member
  exact ⟨object, named, reachable.escaped sourced once pure edge method summary.exception
    (sourced.summaries method summary found).exception rfl⟩

section Routing

variable {key : StatementId} {statement : Statement} {raised summary : Variable}
  {handlers : List Handler}

theorem raising_met (pure : results.analysis.abstraction.policy.IsPure)
    (reachable : Reachable results.analysis kind results.state) (done : results.state.pending = [])
    (runs : Runs results.analysis results.state key context statement)
    (isRaise : statement.action = .raise raised handlers summary) :
    ∃ sources, (results.frameOf key context).sources? raised statement.point = some sources ∧
      looks sources (watching results.graph.content) ⊆ watching results.graph.content ∧
      ∀ object ∈ shown sources (watching results.graph.content),
        (results.frameOf key context).raising summary object [] handlers
          (watching results.graph.content) ⊆ watching results.graph.content := by
  have met := runs.met (reachable.invariant pure) done
  unfold Frame.demand at met
  rw [isRaise] at met
  exact Frame.observed_of_met (Graph.failure_notMem_watching _) met

variable (sourced : results.program.Sourced declared)
  (once : declared.BoundOnce results.program)
  (pure : results.analysis.abstraction.policy.IsPure)
  (reachable : Reachable results.analysis kind results.state)

include sourced once pure reachable

theorem routed_of_raising (runs : Runs results.analysis results.state key context statement)
    (isRaise : statement.action = .raise raised handlers summary) {object : HeapObject}
    (named : results.graph.object? id = some object)
    (met : (results.frameOf key context).raising summary object [] handlers
      (watching results.graph.content) ⊆ watching results.graph.content) :
    results.Routed declared ⟨statement.method, context⟩ id := by
  have held : ∀ {target : Variable} {place : Place},
      (results.frameOf key context).written? target none = some place →
      .edge place object ∈ watching results.graph.content →
      id ∈ results.pointsTo target context := by
    intro target place written edge
    obtain ⟨plain, rfl⟩ := Frame.written?_none written
    exact (mem_pointsTo_iff (reachable.invariant pure).valid plain).mpr ⟨object, named, edge⟩
  have raised := Frame.raised_of_met (Graph.failure_notMem_watching _) met (by simp)
  rw [show (results.frameOf key context).hierarchy = results.program.hierarchy from rfl] at raised
  refine ⟨object, named, ?_⟩
  rw [sourced.handlersOf_eq once runs.mem isRaise]
  generalize handlers.find? _ = taker at raised ⊢
  cases taker with
  | some handler =>
      obtain ⟨place, written, edge⟩ := raised
      exact held written edge
  | none =>
      intro isThrowable
      obtain ⟨place, written, edge⟩ := raised isThrowable
      obtain ⟨found, isFound, rfl⟩ := sourced.summary_of_raise runs.mem isRaise
      exact mem_exceptions_iff.mpr ⟨found, isFound, held written edge⟩

variable (done : results.state.pending = [])

include done

private theorem routed_of_raise (runs : Runs results.analysis results.state key context statement)
    (isRaise : statement.action = .raise raised handlers summary) :
    ∃ ids, results.readAt? statement.callSite context raised = some ids ∧
      ∀ id ∈ ids, results.Routed declared ⟨statement.method, context⟩ id := by
  obtain ⟨sources, read, looked, met⟩ := raising_met pure reachable done runs isRaise
  obtain ⟨ids, isRead, members⟩ :=
    readAt?_spec sourced pure (reachable.invariant pure) runs read looked
  refine ⟨ids, isRead, fun id member => ?_⟩
  obtain ⟨object, seen, named⟩ := (members id).mp member
  exact routed_of_raising sourced once pure reachable runs isRaise named (met object seen)

private theorem routed_of_callee {edge : CallEdge} (member : edge ∈ results.graph.callEdges)
    (thrown : id ∈ results.exceptions edge.callee edge.calleeContext) :
    results.Routed declared edge.source id := by
  have invariant := reachable.invariant pure
  have safe := Graph.failure_notMem_watching results.graph
  obtain ⟨key, statement, call, receiver, runs, isCall, links, same⟩ :=
    call_cases pure reachable done member
  obtain ⟨found, isFound, thrown⟩ := mem_exceptions_iff.mp thrown
  obtain ⟨object, named, thrown⟩ :=
    (mem_pointsTo_iff invariant.valid (plain_of_exception sourced isFound)).mp thrown
  obtain ⟨method, isMethod, _⟩ := (sourced.summaries _ found isFound).formals
  have linked := Frame.linkingMethod_of_met safe (calling_met invariant done runs isCall) links
  have exchanged := (Frame.exchanged_of_met safe linked isFound isMethod).2
  rw [congrArg CallEdge.calleeContext same] at thrown
  obtain ⟨goal, written, received⟩ :=
    Frame.returned_of_met safe (both_closed (both_closed exchanged).2).2 thrown
  obtain ⟨plain, rfl⟩ := Frame.written?_none written
  obtain ⟨body, operands, isBody, isCallAt, _⟩ := sourced.call_described runs.mem isCall
  obtain ⟨_, handlers, summary, isRouting⟩ :=
    sourced.described_of_callAt? runs.mem isCall isBody isCallAt
  obtain ⟨key', runs'⟩ := exists_runs isRouting runs.reached
  obtain ⟨sources, read, _, met⟩ := raising_met pure reachable done runs' rfl
  have isDirect : sources = [.direct (.local ((results.frameOf key' edge.callerContext).replica
      call.exception))] := by
    unfold Frame.sources? at read
    rw [plain] at read
    exact (Option.some.inj read).symm
  have seen : object ∈ shown sources (watching results.graph.content) := by
    rw [isDirect, shown_direct]
    exact received
  have routed := routed_of_raising sourced once pure reachable runs' rfl named (met object seen)
  rwa [same]

end Routing

/-- In every state, what escapes from a method can be thrown and is taken by none of its handlers.
When a run is finished, what a method raises and what escapes from the methods that it calls goes to
the first handler that takes it, and else escapes. -/
theorem exceptions_routed {config : Config} (loaded : declared.load = .ok results.program)
    (once : declared.BoundOnce results.program)
    (chosen : HeapAbstraction.ofConfig config = .ok results.analysis.abstraction)
    (reachable : Reachable results.analysis kind results.state) :
    (∀ method context, ∀ id ∈ results.exceptions method context, ∃ object,
      results.graph.object? id = some object ∧
        declared.Escapes results.program method object.type) ∧
    (results.state.pending = [] → ∀ node ∈ results.reachable,
      (∀ statement ∈ results.program.statements, statement.method = node.method →
        ∀ raised handlers summary, statement.action = .raise raised handlers summary →
          ∃ ids, results.readAt? statement.callSite node.context raised = some ids ∧
            ∀ id ∈ ids, results.Routed declared node id) ∧
      ∀ edge ∈ results.graph.callEdges, edge.source = node →
        ∀ id ∈ results.exceptions edge.callee edge.calleeContext,
          results.Routed declared node id) := by
  have sourced := Declaration.load_sourced loaded
  have pure := HeapAbstraction.isPure_of_config chosen
  refine ⟨fun method context id member => ?_, fun done node isReached => ⟨?_, ?_⟩⟩
  · exact escapes_of_mem_exceptions sourced once pure reachable member
  · rintro statement member isMethod raised handlers summary isRaise
    obtain ⟨_, context⟩ := node
    obtain rfl : statement.method = _ := isMethod
    obtain ⟨key, runs⟩ := exists_runs member isReached
    exact routed_of_raise sourced once pure reachable done runs isRaise
  · rintro edge member rfl id thrown
    exact routed_of_callee sourced once pure reachable done member thrown

end Results

theorem exceptions_routed_dispatching : ∃ results : Results,
    dispatchingProgram.load = .ok results.program ∧
      dispatchingProgram.BoundOnce results.program ∧
      HeapAbstraction.ofConfig plainSettings = .ok results.analysis.abstraction ∧
      SolverState.Reachable results.analysis .hashed results.state ∧ results.state.pending = [] ∧
      (dispatchingProgram.handlersOf results.program 4).length = 1 ∧
      (∀ thrown ∈ [(1, 3), (2, 4)], thrown.2 ∈ results.exceptions thrown.1 .empty ∧
        results.Routed dispatchingProgram ⟨4, .empty⟩ thrown.2) ∧
      4 ∈ results.exceptions 4 .empty ∧ ∃ object, results.graph.object? 4 = some object ∧
        dispatchingProgram.Escapes results.program 4 object.type := by
  let main : MethodContext := ⟨4, .empty⟩
  let edgeTo (callee : MethodId) : CallEdge := ⟨⟨4, 3⟩, .empty, callee, .empty⟩
  let thrown : List (MethodId × ObjectId) := [(1, 3), (2, 4)]
  obtain ⟨results, loaded, chosen, solved, done, once, handled, isReached, raised, escaped⟩ :=
    dispatchingProgram.exists_finished plainSettings (fun results =>
      dispatchingProgram.BoundOnce results.program ∧
        (dispatchingProgram.handlersOf results.program 4).length = 1 ∧ main ∈ results.reachable ∧
        (∀ entry ∈ thrown, edgeTo entry.1 ∈ results.graph.callEdges ∧
          entry.2 ∈ results.exceptions entry.1 .empty) ∧
        4 ∈ results.exceptions 4 .empty) (by decide +kernel)
  have reachable := Analysis.solve_reachable solved
  obtain ⟨escapes, routed⟩ := Results.exceptions_routed loaded once chosen reachable
  refine ⟨results, loaded, once, chosen, reachable, done, handled, fun entry listed => ?_, escaped,
    escapes 4 .empty 4 escaped⟩
  obtain ⟨isEdge, isThrown⟩ := raised entry listed
  exact ⟨isThrown, (routed done main isReached).2 _ isEdge rfl entry.2 isThrown⟩

end ObjectFlow
