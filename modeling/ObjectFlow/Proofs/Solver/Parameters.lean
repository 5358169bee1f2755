import ObjectFlow.Proofs.Solver.CallGraph

/-!
# What callers bind to parameters

The variable of a parameter belongs to one position of one method.  If no
statement and no handler assigns it, only calls of the method fill it: the
receiver goes to position 0 of an instance method, and the listed arguments
follow in order.  So when a run is finished, a parameter holds what the
arguments of the calls into its method read.
-/

namespace ObjectFlow

open Demand

def Program.Unassigned (program : Program) (declared : Variable) : Prop :=
  ∀ statement ∈ program.statements,
    statement.action.defined? ≠ some declared ∧ declared ∉ statement.action.handled

instance (program : Program) (declared : Variable) : Decidable (program.Unassigned declared) :=
  inferInstanceAs (Decidable (∀ statement ∈ program.statements, _))

namespace Program.Sourced

variable {declared : Declaration.Program} {program : Program} {statement : Statement}
  {callee : MethodId} {number : Nat} {param : Variable}

private theorem notMem_assigned (sourced : program.Sourced declared)
    (isParam : program.variableTable.find? (.formal callee number) = some param)
    (unassigned : program.Unassigned param) (member : statement ∈ program.statements) :
    param ∉ statement.action.assigned := by
  intro assigned
  have isSourced := sourced.statements statement member
  have only : ∀ origin, program.variableTable.find? origin = some param →
      origin = .formal callee number :=
    fun origin found => sourced.tidy.origin_eq found isParam rfl
  rcases Action.assigned_cases assigned with isDefined | isHandled | ⟨source, isReturn⟩ |
    ⟨call, isCall, rfl⟩
  · exact (unassigned statement member).1 isDefined
  · exact (unassigned statement member).2 isHandled
  · cases only _ (isSourced.returned source param isReturn)
  · obtain ⟨_, _, _, _, described⟩ := sourced.call_described member isCall
    cases only _ described.exception

private theorem exists_formal (sourced : program.Sourced declared) {method : Method}
    (isMethod : program.hierarchy.method? callee = some method)
    (isOrigin : (program.hierarchy.formalOrigins callee method)[number]? =
      some (some (.formal callee number))) :
    ∃ summary param, program.summary? callee = some summary ∧
      summary.formals[number]? = some (some param) ∧
      program.variableTable.find? (.formal callee number) = some param := by
  obtain ⟨summary, found⟩ := sourced.exists_summary isMethod
  obtain ⟨_, isMethod', finds⟩ := (sourced.summaries callee summary found).formals
  cases isMethod.symm.trans isMethod'
  obtain ⟨formal, isFormal, isParam⟩ := forall₂_getElem?_left finds isOrigin
  cases formal with
  | none => cases isParam
  | some param => exact ⟨summary, param, found, isFormal, isParam⟩

theorem plain_of_formal (sourced : program.Sourced declared)
    (isParam : program.variableTable.find? (.formal callee number) = some param) :
    param.flowSensitive = false ∧ param.singleton = false := by
  obtain ⟨_, suits⟩ := sourced.tidy.suits isParam
  exact ⟨suits.plain rfl, suits.singleton⟩

end Program.Sourced

/-! ## What calls bind -/

namespace Frame

variable {frame : Frame} {statement : Statement} {facts : Set Fact}

private theorem passed_of_met {point : Option PointId} {context : Context}
    {args formals : List (Option Variable)} {index : Nat} {arg formal : Variable}
    (safe : .failure ∉ facts) (met : frame.passing point context args formals facts ⊆ facts)
    (isArg : args[index]? = some (some arg)) (isFormal : formals[index]? = some (some formal)) :
    ∃ sources, frame.sources? arg point = some sources ∧ looks sources facts ⊆ facts ∧
      ∀ object ∈ shown sources facts, .edge (frame.calleePlace context formal) object ∈ facts := by
  induction args generalizing formals index with
  | nil => cases isArg
  | cons first args ih =>
      cases formals with
      | nil => cases isFormal
      | cons opposite formals =>
          cases index with
          | zero =>
              cases isArg
              cases isFormal
              obtain ⟨sources, found, looked, flows⟩ := observed_of_met safe (both_closed met).1
              exact ⟨sources, found, looked, fun object seen => flows object seen rfl⟩
          | succ index =>
              have met : frame.passing point context args formals facts ⊆ facts := by
                cases first with
                | none => simpa only [passing] using met
                | some first =>
                    cases opposite with
                    | none => simpa only [passing] using met
                    | some opposite => exact (both_closed (both_closed met).2).2
              exact ih met isArg isFormal

theorem argument_of_met {call : Call} {callee : MethodId} {receiver : Option HeapObject}
    {method : Method} {summary : MethodSummary} {index : Nat} {arg formal : Variable}
    (safe : .failure ∉ facts) (met : frame.calling statement call facts ⊆ facts)
    (links : frame.Links statement facts call callee receiver)
    (found : frame.program.summary? callee = some summary)
    (isMethod : frame.hierarchy.method? callee = some method)
    (isArg : call.args[index]? = some (some arg))
    (isFormal : summary.formals[index + if method.isStatic then 0 else 1]? = some (some formal)) :
    ∃ sources, frame.sources? arg statement.point = some sources ∧
      looks sources facts ⊆ facts ∧ ∀ object ∈ shown sources facts,
        .edge (frame.calleePlace (frame.calleeContext statement receiver) formal) object ∈
          facts := by
  have linked := linkingMethod_of_met safe met links
  have exchanged := (exchanged_of_met safe linked found isMethod).2
  rw [Nat.add_comm, ← List.getElem?_drop] at isFormal
  exact passed_of_met safe (both_closed exchanged).1 isArg isFormal

section Parameter

variable {declared : Declaration.Program} {callee : MethodId} {number : Nat} {param : Variable}
  {context : Context} {object : HeapObject}

private theorem Flow.binds (sourced : frame.program.Sourced declared)
    (member : statement ∈ frame.program.statements)
    (isParam : frame.program.variableTable.find? (.formal callee number) = some param)
    (unassigned : frame.program.Unassigned param)
    (flow : frame.Flow statement facts (frame.calleePlace context param) object) :
    frame.Binds statement facts callee context number object := by
  have only : (param.replica context frame.abstraction.initialContext).context = context := by
    rw [Variable.replica, (sourced.plain_of_formal isParam).2]
    rfl
  rcases flow.local_cases sourced member isParam rfl with assigned | ⟨isException, _⟩ |
    ⟨_, _, isFormal, binds⟩
  · exact absurd assigned (sourced.notMem_assigned isParam unassigned member)
  · cases isException
  · cases isFormal
    rwa [only] at binds

private theorem Binds.edge {summary : MethodSummary} (safe : .failure ∉ facts)
    (met : ∀ call, statement.action = .call call → frame.calling statement call facts ⊆ facts)
    (found : frame.program.summary? callee = some summary)
    (isFormal : summary.formals[number]? = some (some param))
    (binds : frame.Binds statement facts callee context number object) :
    .edge (frame.calleePlace context param) object ∈ facts := by
  cases binds with
  | passed isCall links isContext isMethod isArg read seen =>
      subst isContext
      obtain ⟨sources, read', _, flows⟩ :=
        argument_of_met safe (met _ isCall) links found isMethod isArg isFormal
      cases read.symm.trans read'
      exact flows _ seen
  | received isCall links isContext isMethod isInstance =>
      subst isContext
      have linked := linkingMethod_of_met safe (met _ isCall) links
      have received := (exchanged_of_met safe linked found isMethod).1 isInstance
      unfold receiving at received
      rw [List.head?_eq_getElem?, isFormal] at received
      exact received (.inr rfl)

end Parameter

end Frame

/-! ## What parameters hold -/

private theorem Call.Invokes.isSubtype {call : Call} {hierarchy : Hierarchy} {type : TypeId}
    {target : MethodId} {method : Method} (invokes : call.Invokes hierarchy type target)
    (linked : hierarchy.Linked) (isMethod : hierarchy.method? target = some method) :
    hierarchy.isSubtype? type method.declaring = some true := by
  obtain ⟨named, isNamed, accepted, isTarget⟩ := invokes
  unfold Call.target? at isTarget
  split at isTarget
  · obtain ⟨_, isMethod', _, isSubtype⟩ :=
      linked.resolveMethod?_spec (Option.join_eq_some_iff.mp isTarget)
    cases isMethod.symm.trans isMethod'
    exact isSubtype
  all_goals
    cases isTarget
    cases isMethod.symm.trans isNamed
    exact accepted

namespace Results

open SolverState

variable {results : Results} {kind : SetKind} {declared : Declaration.Program}

/-- What a call reads, in the context of the caller, for a parameter of the method that it names:
nothing if no argument is listed. -/
def passed? (results : Results) (declared : Declaration.Program) (site : CallSite)
    (context : Context) (index : Nat) : Option IdSet :=
  match declared.argument? results.program site index with
  | none => some ∅
  | some arg => results.readAt? site context arg

/-- A reachable call reads the object as its receiver, and runs the callee on it in the context. -/
def Receives (results : Results) (callee : MethodId) (context : Context) (id : ObjectId) : Prop :=
  ∃ object call, results.graph.object? id = some object ∧
    call.Invokes results.program.hierarchy object.type callee ∧
    ∃ caller ∈ results.reachable, ∃ statement ∈ results.program.statements,
      statement.method = caller.method ∧ statement.action = .call call ∧
      results.calleeContext statement.callSite (some object) caller.context = context ∧
      ∃ receiver ids, call.receiver = some receiver ∧
        results.readAt? statement.callSite caller.context receiver = some ids ∧ id ∈ ids

section Bound

variable {callee : MethodId} {method : Method} {summary : MethodSummary} {number index : Nat}
  {param : Variable} {context : Context} {id : ObjectId}
  (sourced : results.program.Sourced declared)
  (pure : results.analysis.abstraction.policy.IsPure)
  (reachable : Reachable results.analysis kind results.state) (done : results.state.pending = [])

include sourced pure reachable done

/-- A parameter that nothing assigns holds the objects that calls bind to it. -/
theorem mem_pointsTo_iff_binds (unassigned : results.program.Unassigned param)
    (found : results.program.summary? callee = some summary)
    (isFormal : summary.formals[number]? = some (some param)) :
    id ∈ results.pointsTo param context ↔ ∃ object, results.graph.object? id = some object ∧
      ∃ key caller statement, Runs results.analysis results.state key caller statement ∧
        (results.frameOf key caller).Binds statement (watching results.graph.content) callee context
          number object := by
  have invariant := reachable.invariant pure
  have isParam := sourced.find?_formal found isFormal
  rw [mem_pointsTo_iff invariant.valid (sourced.plain_of_formal isParam).1]
  refine exists_congr fun object => and_congr_right fun _ => ⟨fun edge => ?_, ?_⟩
  · rcases edge with said | ⟨_, same⟩
    · rcases reachable.origin pure done said with ⟨_, _, same⟩ |
        ⟨key, caller, statement, runs, origin⟩
      · cases same
      · cases origin with
        | edge flow =>
            exact ⟨key, caller, statement, runs,
              Frame.Flow.binds sourced runs.mem isParam unassigned flow⟩
    · cases same
  · rintro ⟨key, caller, statement, runs, binds⟩
    exact binds.edge (Graph.failure_notMem_watching _)
      (fun call isCall => calling_met invariant done runs isCall) found isFormal

theorem passed?_spec {key : StatementId} {statement : Statement} {call : Call}
    {receiver : Option HeapObject}
    (runs : Runs results.analysis results.state key context statement)
    (isCall : statement.action = .call call)
    (links : (results.frameOf key context).Links statement (watching results.graph.content) call
      callee receiver)
    (isMethod : results.program.hierarchy.method? callee = some method)
    (found : results.program.summary? callee = some summary)
    (isFormal : summary.formals[index + if method.isStatic then 0 else 1]? = some (some param)) :
    ∃ ids, results.passed? declared statement.callSite context index = some ids ∧
      ∀ id, id ∈ ids ↔ ∃ arg sources, call.args[index]? = some (some arg) ∧
        (results.frameOf key context).sources? arg statement.point = some sources ∧
        ∃ object ∈ shown sources (watching results.graph.content),
          results.graph.object? id = some object := by
  have invariant := reachable.invariant pure
  have safe := Graph.failure_notMem_watching results.graph
  have listed := sourced.argument?_eq runs.mem isCall index
  cases isArg : call.args[index]?.join with
  | none =>
      refine ⟨∅, by simp only [passed?, listed, isArg], fun id => ⟨fun member => ?_, ?_⟩⟩
      · exact absurd member (OrderedSet.not_mem_empty id)
      · rintro ⟨arg, _, isArg', _⟩
        rw [isArg'] at isArg
        cases isArg
  | some arg =>
      rw [Option.join_eq_some_iff] at isArg
      obtain ⟨sources, read, looked, _⟩ := Frame.argument_of_met safe
        (calling_met invariant done runs isCall) links found isMethod isArg isFormal
      obtain ⟨ids, isRead, members⟩ := readAt?_spec sourced pure invariant runs read looked
      refine ⟨ids, by simp [passed?, listed, isArg, isRead], fun id => (members id).trans ?_⟩
      constructor
      · rintro ⟨object, seen, named⟩
        exact ⟨arg, sources, isArg, read, object, seen, named⟩
      · rintro ⟨_, _, isArg', read', object, seen, named⟩
        cases isArg.symm.trans isArg'
        cases read.symm.trans read'
        exact ⟨object, seen, named⟩

/-- A parameter that nothing assigns holds what the calls of its method pass for it. -/
theorem mem_pointsTo_param (isMethod : results.program.hierarchy.method? callee = some method)
    (unassigned : results.program.Unassigned param)
    (found : results.program.summary? callee = some summary)
    (isFormal : summary.formals[index + if method.isStatic then 0 else 1]? = some (some param)) :
    id ∈ results.pointsTo param context ↔ ∃ edge ∈ results.graph.callEdges,
      edge.target = ⟨callee, context⟩ ∧
      ∃ ids, results.passed? declared edge.site edge.callerContext index = some ids ∧ id ∈ ids := by
  rw [mem_pointsTo_iff_binds sourced pure reachable done unassigned found isFormal]
  constructor
  · rintro ⟨object, named, key, caller, statement, runs, binds⟩
    generalize isNumber : (index + if method.isStatic then 0 else 1) = number at binds
    cases binds with
    | @passed call receiver method' index' arg sources _ isCall links isContext isMethod' isArg read
        seen =>
        cases isMethod.symm.trans isMethod'
        obtain rfl : index = index' := Nat.add_right_cancel isNumber
        have safe := Graph.failure_notMem_watching results.graph
        have met := calling_met (reachable.invariant pure) done runs isCall
        have called := Frame.called_of_met safe (Frame.linkingMethod_of_met safe met links)
        obtain ⟨ids, isPassed, members⟩ :=
          passed?_spec sourced pure reachable done runs isCall links isMethod found isFormal
        refine ⟨_, call_mem_watching.mp called, ?_, ids, isPassed, (members id).mpr ?_⟩
        · exact congrArg (MethodContext.mk callee) isContext
        · exact ⟨arg, sources, isArg, read, object, seen, named⟩
    | received _ _ _ isMethod' isInstance =>
        cases isMethod.symm.trans isMethod'
        simp [isInstance] at isNumber
  · rintro ⟨edge, member, isTarget, ids, isPassed, isIn⟩
    obtain ⟨key, statement, call, receiver, runs, isCall, links, same⟩ :=
      call_cases pure reachable done member
    obtain ⟨rfl, rfl⟩ := MethodContext.mk.inj isTarget
    obtain ⟨ids', isPassed', members⟩ :=
      passed?_spec sourced pure reachable done runs isCall links isMethod found isFormal
    obtain rfl : ids' = ids := by
      rw [congrArg CallEdge.site same] at isPassed
      exact Option.some.inj (isPassed'.symm.trans isPassed)
    obtain ⟨arg, sources, isArg, read, object, seen, named⟩ := (members id).mp isIn
    refine ⟨object, named, key, edge.callerContext, statement, runs, ?_⟩
    exact .passed isCall links (congrArg CallEdge.calleeContext same).symm isMethod isArg read seen

private theorem mem_pointsTo_this
    (isMethod : results.program.hierarchy.method? callee = some method)
    (isInstance : method.isStatic = false) (other : callee ≠ TypeTable.cloneMethod)
    (unassigned : results.program.Unassigned param)
    (found : results.program.summary? callee = some summary)
    (isFormal : summary.formals[0]? = some (some param)) :
    id ∈ results.pointsTo param context ↔ results.Receives callee context id := by
  have invariant := reachable.invariant pure
  have safe := Graph.failure_notMem_watching results.graph
  rw [mem_pointsTo_iff_binds sourced pure reachable done unassigned found isFormal]
  constructor
  · rintro ⟨object, named, key, caller, statement, runs, binds⟩
    generalize isNumber : 0 = number at binds
    cases binds with
    | @passed _ _ method' index _ _ _ _ _ _ isMethod' _ _ _ =>
        cases isMethod.symm.trans isMethod'
        simp [isInstance] at isNumber
    | @received call _ _ isCall links isContext _ _ =>
        cases links with
        | dispatched isReceiver read seen isNamed accepted isCallee _ =>
            obtain ⟨_, _, read', looked, _⟩ :=
              Frame.linking_of_met safe (calling_met invariant done runs isCall) isReceiver
            cases read.symm.trans read'
            obtain ⟨ids, isRead, members⟩ := readAt?_spec sourced pure invariant runs read looked
            rw [Frame.callee?_eq] at isCallee
            exact ⟨object, call, named, ⟨_, isNamed, accepted, isCallee⟩,
              ⟨statement.method, caller⟩, runs.reached, statement, runs.mem, rfl, isCall, isContext,
              _, ids, isReceiver, isRead, (members id).mpr ⟨object, seen, named⟩⟩
  · rintro ⟨object, call, named, invokes, ⟨_, caller⟩, isReached, statement, member, rfl, isCall,
      isContext, receiver, ids, isReceiver, isRead, isIn⟩
    obtain ⟨key, runs⟩ := exists_runs member isReached
    obtain ⟨sources, _, read, looked, _⟩ :=
      Frame.linking_of_met safe (calling_met invariant done runs isCall) isReceiver
    obtain ⟨ids', isRead', members⟩ := readAt?_spec sourced pure invariant runs read looked
    cases isRead.symm.trans isRead'
    obtain ⟨object', seen, named'⟩ := (members id).mp isIn
    cases named.symm.trans named'
    refine ⟨object, named, key, caller, statement, runs, .received isCall ?_ isContext isMethod
      isInstance⟩
    exact (Frame.links_iff_of_some isReceiver read).mpr ⟨object, seen, rfl, invokes, other⟩

end Bound

/-- When a run is finished, a parameter that nothing assigns holds, in each context, what the calls
into its method pass at its position, and a receiver the objects that calls run its method on. -/
theorem parameters_bound {config : Config} (loaded : declared.load = .ok results.program)
    (chosen : HeapAbstraction.ofConfig config = .ok results.analysis.abstraction)
    (reachable : Reachable results.analysis kind results.state)
    (done : results.state.pending = []) {callee : MethodId} {method : Method}
    (isMethod : results.program.hierarchy.method? callee = some method)
    (other : callee ≠ TypeTable.cloneMethod) :
    (∀ index type, method.params[index]? = some type →
      results.program.hierarchy.isReference? type = some true →
      ∃ param, results.program.variableTable.find?
          (.formal callee (index + if method.isStatic then 0 else 1)) = some param ∧
        ∀ context, (∀ edge ∈ results.graph.callEdges, edge.target = ⟨callee, context⟩ →
            (results.passed? declared edge.site edge.callerContext index).isSome) ∧
          (results.program.Unassigned param → ∀ id, id ∈ results.pointsTo param context ↔
            ∃ edge ∈ results.graph.callEdges, edge.target = ⟨callee, context⟩ ∧
              ∃ ids, results.passed? declared edge.site edge.callerContext index = some ids ∧
                id ∈ ids)) ∧
    (method.isStatic = false →
      ∃ this, results.program.variableTable.find? (.formal callee 0) = some this ∧
        (results.program.Unassigned this → ∀ context,
          (∀ id, id ∈ results.pointsTo this context ↔ results.Receives callee context id) ∧
          ∀ id ∈ results.pointsTo this context, ∃ object, results.graph.object? id = some object ∧
            results.program.hierarchy.isSubtype? object.type method.declaring = some true)) := by
  have sourced := Declaration.load_sourced loaded
  have pure := HeapAbstraction.isPure_of_config chosen
  constructor
  · intro index type isType isReference
    obtain ⟨summary, param, found, isFormal, isParam⟩ :=
      sourced.exists_formal isMethod (Hierarchy.getElem?_formalOrigins_param isType isReference)
    refine ⟨param, isParam, fun context => ⟨?_, fun unassigned id => ?_⟩⟩
    · intro edge member isTarget
      obtain ⟨key, statement, call, receiver, runs, isCall, links, same⟩ :=
        call_cases pure reachable done member
      obtain ⟨rfl, rfl⟩ := MethodContext.mk.inj isTarget
      obtain ⟨ids, isPassed, _⟩ :=
        passed?_spec sourced pure reachable done runs isCall links isMethod found isFormal
      rw [congrArg CallEdge.site same, isPassed]
      rfl
    · exact mem_pointsTo_param sourced pure reachable done isMethod unassigned found isFormal
  · intro isInstance
    obtain ⟨summary, this, found, isFormal, isParam⟩ :=
      sourced.exists_formal isMethod (Hierarchy.getElem?_formalOrigins_receiver isInstance)
    refine ⟨this, isParam, fun unassigned context => ?_⟩
    have received : ∀ id, id ∈ results.pointsTo this context ↔ results.Receives callee context id :=
      fun id => mem_pointsTo_this sourced pure reachable done isMethod isInstance other
        unassigned found isFormal
    refine ⟨received, fun id member => ?_⟩
    obtain ⟨object, call, named, invokes, _⟩ := (received id).mp member
    exact ⟨object, named, invokes.isSubtype sourced.linked isMethod⟩

end Results

theorem parameters_bound_dispatching : ∃ (results : Results) (method : Method)
    (param this : Variable), dispatchingProgram.load = .ok results.program ∧
      HeapAbstraction.ofConfig plainSettings = .ok results.analysis.abstraction ∧
      SolverState.Reachable results.analysis .hashed results.state ∧ results.state.pending = [] ∧
      results.program.hierarchy.method? 2 = some method ∧
      results.program.Unassigned param ∧ 2 ∈ results.pointsTo param .empty ∧
      results.program.Unassigned this ∧ 1 ∈ results.pointsTo this .empty ∧
      (∃ edge ∈ results.graph.callEdges, edge.target = ⟨2, .empty⟩ ∧ ∃ ids,
        results.passed? dispatchingProgram edge.site edge.callerContext 1 = some ids ∧ 2 ∈ ids) ∧
      results.Receives 2 .empty 1 := by
  let param : Variable := ⟨5, 8, false, false⟩
  let this : Variable := ⟨4, 13, false, false⟩
  let method : Method := ⟨13, "run", [4, 8], none, false, false, false⟩
  obtain ⟨results, loaded, chosen, solved, done, isMethod, isReference, isParam, isThis, unassigned,
      unassigned', held, held'⟩ :=
    dispatchingProgram.exists_finished plainSettings (fun results =>
      results.program.hierarchy.method? 2 = some method ∧
        results.program.hierarchy.isReference? 8 = some true ∧
        results.program.variableTable.find? (.formal 2 2) = some param ∧
        results.program.variableTable.find? (.formal 2 0) = some this ∧
        results.program.Unassigned param ∧ results.program.Unassigned this ∧
        2 ∈ results.pointsTo param .empty ∧ 1 ∈ results.pointsTo this .empty) (by decide +kernel)
  have reachable := Analysis.solve_reachable solved
  obtain ⟨params, receiver⟩ :=
    Results.parameters_bound loaded chosen reachable done isMethod (by decide)
  obtain ⟨param', isParam', bound⟩ := params 1 8 rfl isReference
  obtain ⟨this', isThis', received⟩ := receiver rfl
  cases isParam.symm.trans isParam'
  cases isThis.symm.trans isThis'
  exact ⟨results, method, param, this, loaded, chosen, reachable, done, isMethod, unassigned, held,
    unassigned', held', ((bound .empty).2 unassigned 2).mp held,
    ((received unassigned' .empty).1 1).mp held'⟩

end ObjectFlow
