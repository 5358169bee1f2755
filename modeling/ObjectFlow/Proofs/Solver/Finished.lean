import ObjectFlow.Proofs.Program.Provenance
import ObjectFlow.Proofs.Solver.Answers
import ObjectFlow.Proofs.Solver.Soundness

/-!
# What a finished run has found

When nothing is pending, the statements of the reachable methods have all that
they demand, and nothing has been found that none of them demands.  So what a
finished run has found can be read off its statements: each fact has an origin
in one of them, and reading a variable at one gives what its sources show.
-/

namespace ObjectFlow

open Demand

namespace Frame

variable {frame : Frame} {facts : Set Fact}

theorem observed_of_met {declared : Variable} {point : Option PointId} {body : HeapObject → Demand}
    (safe : .failure ∉ facts) (met : frame.observing declared point body facts ⊆ facts) :
    ∃ sources, frame.sources? declared point = some sources ∧ looks sources facts ⊆ facts ∧
      ∀ object ∈ shown sources facts, body object facts ⊆ facts := by
  obtain ⟨sources, found, met⟩ := orFail_met safe met
  obtain ⟨bodies, looked⟩ := Set.union_subset_iff.mp met
  exact ⟨sources, found, looked, fun object seen fact demanded =>
    bodies ⟨object, seen, demanded⟩⟩

theorem provided_met {answer : Option Bool} {body : Demand} (yes : answer = some true)
    (met : provided answer body facts ⊆ facts) : body facts ⊆ facts := by
  subst yes
  exact met

end Frame

/-! ## What goes to variables -/

theorem Program.Sourced.find?_formal {declared : Declaration.Program} {program : Program}
    (sourced : program.Sourced declared) {id : MethodId} {number : Nat} {summary : MethodSummary}
    {formal : Variable} (found : program.summary? id = some summary)
    (isFormal : summary.formals[number]? = some (some formal)) :
    program.variableTable.find? (.formal id number) = some formal := by
  obtain ⟨method, _, finds⟩ := (sourced.summaries id summary found).formals
  obtain ⟨origin, isOrigin, found⟩ := forall₂_getElem?_right finds isFormal
  cases origin with
  | none => cases found
  | some origin =>
      cases Hierarchy.getElem?_formalOrigins isOrigin
      exact found

namespace Frame

variable {frame : Frame} {statement : Statement} {known : Set Fact}

/-- The ways in which a call binds an object to a position of a callee. -/
inductive Binds (frame : Frame) (statement : Statement) (known : Set Fact) (callee : MethodId)
    (context : Context) : Nat → HeapObject → Prop where
  | passed {call : Call} {receiver : Option HeapObject} {method : Method} {index : Nat}
      {arg : Variable} {sources : List Source} {object : HeapObject} :
      statement.action = .call call → frame.Links statement known call callee receiver →
      frame.calleeContext statement receiver = context →
      frame.hierarchy.method? callee = some method → call.args[index]? = some (some arg) →
      frame.sources? arg statement.point = some sources → object ∈ shown sources known →
      Binds frame statement known callee context (index + if method.isStatic then 0 else 1) object
  | received {call : Call} {method : Method} {object : HeapObject} :
      statement.action = .call call → frame.Links statement known call callee (some object) →
      frame.calleeContext statement (some object) = context →
      frame.hierarchy.method? callee = some method → method.isStatic = false →
      Binds frame statement known callee context 0 object

/-- What goes to the place of a variable is assigned to it, escapes in it or is bound to it. -/
theorem Flow.local_cases {source : Declaration.Program} (sourced : frame.program.Sourced source)
    (member : statement ∈ frame.program.statements) {origin : VariableOrigin} {declared : Variable}
    (found : frame.program.variableTable.find? origin = some declared) {replica : Replica}
    (sameId : declared.id = replica.variableId) {object : HeapObject}
    (flow : frame.Flow statement known (.local replica) object) :
    declared ∈ statement.action.assigned ∨
      (origin = .exception statement.method ∧ ∃ raised handlers,
        statement.action = .raise raised handlers declared ∧
        (⟨TypeTable.throwableType, handlers.map Handler.type⟩ : TypeFilter).accepts? frame.hierarchy
          object.type = some true) ∨
      ∃ callee number, origin = .formal callee number ∧
        frame.Binds statement known callee replica.context number object := by
  have identified : ∀ {origin' declared'},
      frame.program.variableTable.find? origin' = some declared' →
      declared'.id = replica.variableId → origin = origin' ∧ declared = declared' := by
    intro origin' declared' found' sameId'
    obtain rfl := sourced.tidy.origin_eq found found' (sameId.trans sameId'.symm)
    exact ⟨rfl, Option.some.inj (found.symm.trans found')⟩
  have bound : ∀ {callee number summary formal context},
      frame.program.summary? callee = some summary →
      summary.formals[number]? = some (some formal) →
      Place.local replica = frame.calleePlace context formal →
      origin = .formal callee number ∧ context = replica.context := by
    intro callee number summary formal context isSummary isFormal isPlace
    cases isPlace
    have found' := sourced.find?_formal isSummary isFormal
    obtain ⟨_, suits⟩ := sourced.tidy.suits found'
    refine ⟨(identified found' rfl).1, ?_⟩
    rw [Variable.replica, show formal.singleton = false from suits.singleton]
    rfl
  have isSourced := sourced.statements statement member
  generalize isPlace : Place.local replica = place at flow
  cases flow with
  | assigned assigned written _ =>
      obtain ⟨_, found', _⟩ := isSourced.assigned _ assigned
      rcases written?_cases written with rfl | ⟨_, _, rfl⟩
      · cases isPlace
        obtain ⟨_, rfl⟩ := identified found' rfl
        exact .inl assigned
      · cases isPlace
  | escaped isRaise written _ accepted =>
      rcases written?_cases written with rfl | ⟨_, _, rfl⟩
      · cases isPlace
        obtain ⟨rfl, rfl⟩ := identified (isSourced.raise _ _ _ isRaise).1 rfl
        exact .inr (.inl ⟨rfl, _, _, isRaise, accepted⟩)
      · cases isPlace
  | passed isCall links isSummary isMethod isArg isFormal read seen =>
      obtain ⟨isOrigin, isContext⟩ := bound isSummary isFormal isPlace
      exact .inr (.inr ⟨_, _, isOrigin, .passed isCall links isContext isMethod isArg read seen⟩)
  | received isCall links isSummary isMethod isInstance isFormal =>
      obtain ⟨isOrigin, isContext⟩ := bound isSummary isFormal isPlace
      exact .inr (.inr ⟨_, _, isOrigin, .received isCall links isContext isMethod isInstance⟩)
  | stored _ _ _ _ _ => cases isPlace
  | nested _ _ _ isSlot _ _ =>
      obtain ⟨_, _, rfl⟩ := Option.map_eq_some_iff.mp isSlot
      cases isPlace
  | copied _ _ _ _ _ isSlot _ =>
      obtain ⟨_, _, rfl⟩ := Option.map_eq_some_iff.mp isSlot
      cases isPlace

end Frame

/-! ## Statements of a run -/

private theorem Program.mem_statementsOf {program : Program} {id : StatementId}
    {statement : Statement} (found : program.statement? id = some statement) :
    id ∈ program.statementsOf statement.method := by
  refine List.mem_map.mpr ⟨(statement, id), List.mem_filter.mpr ⟨?_, by simp⟩, rfl⟩
  exact List.mem_zipIdx_iff_getElem?.mpr found

namespace SolverState

/-- The statement is one of a reachable method, in a context in which that is reachable. -/
structure Runs (analysis : Analysis) (state : SolverState) (id : StatementId) (context : Context)
    (statement : Statement) : Prop where
  found : analysis.program.statement? id = some statement
  reached : ⟨statement.method, context⟩ ∈ state.reached.keys

variable {analysis : Analysis} {kind : SetKind} {state : SolverState} {id : StatementId}
  {context : Context} {statement : Statement}

theorem Runs.mem (runs : Runs analysis state id context statement) :
    statement ∈ analysis.program.statements :=
  List.mem_of_getElem? runs.found

theorem exists_runs (member : statement ∈ analysis.program.statements)
    (reached : ⟨statement.method, context⟩ ∈ state.reached.keys) :
    ∃ id, Runs analysis state id context statement := by
  obtain ⟨id, found⟩ := List.mem_iff_getElem?.mp member
  exact ⟨id, found, reached⟩

/-- When a run is finished, all that its statements demand is there. -/
theorem Runs.met (runs : Runs analysis state id context statement)
    (invariant : Invariant analysis state) (done : state.pending = []) :
    (analysis.frame (id, context) 0).demand statement (watching state.graph.content) ⊆
      watching state.graph.content := by
  have reaches := Analysis.reaches_watching.mpr ((invariant.reached _).mp runs.reached)
  rw [← analysis.demand_eq runs.found 0]
  exact (invariant.closed done).demands _ reaches id (Program.mem_statementsOf runs.found)

/-- When a run is finished, whatever it found comes from a statement of a reachable method, the
first initializers apart. -/
theorem Reachable.origin (pure : analysis.abstraction.policy.IsPure)
    (reachable : Reachable analysis kind state) (done : state.pending = []) {fact : Fact}
    (said : fact ∈ state.graph.content) :
    (∃ method ∈ analysis.program.initializers, fact = .initializer method) ∨
      ∃ id context statement, Runs analysis state id context statement ∧
        (analysis.frame (id, context) 0).Origin statement (watching state.graph.content) fact := by
  have invariant := reachable.invariant pure
  have closed := invariant.closed done
  let supported : Set Fact := {fact | (∃ place, fact = .watch place) ∨
    (∃ method ∈ analysis.program.initializers, fact = .initializer method) ∨
    ∃ id context statement, Runs analysis state id context statement ∧
      (analysis.frame (id, context) 0).Origin statement (watching state.graph.content) fact}
  have holds : analysis.Closed (watching state.graph.content ∩ supported) := by
    refine ⟨fun place => ⟨closed.watch place, .inl ⟨place, rfl⟩⟩, fun method listed =>
      ⟨closed.initializers method listed, .inr (.inl ⟨method, listed, rfl⟩)⟩, ?_⟩
    intro node reaches id member
    obtain ⟨statement, found, same⟩ := statement?_of_mem member
    have reaches := reaches.mono Set.inter_subset_left
    have demanded := (analysis.demand_degree (id, node.context)).mono
      (Set.inter_subset_left : watching state.graph.content ∩ supported ⊆ _)
    refine Set.subset_inter (demanded.trans (closed.demands node reaches id member)) ?_
    refine demanded.trans fun fact isDemanded => .inr (.inr ⟨id, node.context, statement, ?_, ?_⟩)
    · refine ⟨found, (invariant.reached _).mpr ?_⟩
      rw [same]
      exact Analysis.reaches_watching.mp reaches
    · rw [analysis.demand_eq found 0] at isDemanded
      exact Frame.demand_subset_origins _ _ _ isDemanded
  have inside := reachable.facts_subset pure holds 0
  rcases (inside (Graph.content_subset_facts _ 0 said)).2 with ⟨place, same⟩ | rest
  · exact absurd same (said.2 place)
  · exact rest

theorem Invariant.read_spec (pure : analysis.abstraction.policy.IsPure)
    (invariant : Invariant analysis state) {key : StatementId × Context} {declared : Variable}
    {point : Option PointId} {sources : List Source}
    (found : (analysis.frame key 0).sources? declared point = some sources)
    (looked : looks sources (watching state.graph.content) ⊆ watching state.graph.content) :
    ∃ ids, ((analysis.frame key 0).read .full declared point state.evalState).1 = .ok ids ∧
      ∀ id, id ∈ ids ↔ ∃ object ∈ shown sources (watching state.graph.content),
        state.graph.object? id = some object := by
  have inside : Inside 0 (watching state.graph.content) state.evalState :=
    ⟨invariant.valid, Graph.facts_subset_watching _ 0⟩
  have meets := Frame.read_meets pure inside
    (View.shows_full 0 fun _ _ edge => Graph.edge_of_watching edge 0) found looked
  unfold Meets at meets
  split at meets
  · next ids after run =>
      obtain ⟨grows, _, reads⟩ := meets
      have named : ∀ object ∈ shown sources (watching state.graph.content),
          ∃ id, state.graph.object? id = some object := by
        intro object seen
        obtain ⟨isNamed, _⟩ | ⟨_, same⟩ := looked (.object seen)
        · exact isNamed
        · cases same
      refine ⟨ids, congrArg Prod.fst run, fun id => ⟨fun member => ?_, ?_⟩⟩
      · obtain ⟨object, seen, isObject⟩ := reads.names.sound id member
        obtain ⟨other, isOther⟩ := named object seen
        obtain rfl := Graph.object?_injective (grows.object isOther) isObject
        exact ⟨object, seen, isOther⟩
      · rintro ⟨object, seen, isObject⟩
        obtain ⟨other, member, isOther⟩ := reads.names.complete object seen
        obtain rfl := Graph.object?_injective (grows.object isObject) isOther
        exact member
  · exact absurd meets (Graph.failure_notMem_watching _)

end SolverState

/-! ## What variables hold -/

namespace Results

open SolverState

variable {results : Results} {context : Context}

/-- A variable that is not flow-sensitive points to the objects that its place holds. -/
theorem mem_pointsTo_iff (valid : results.graph.Valid) {declared : Variable} {id : ObjectId}
    (plain : declared.flowSensitive = false) :
    id ∈ results.pointsTo declared context ↔ ∃ object, results.graph.object? id = some object ∧
      .edge (.local (declared.replica context results.initialContext)) object ∈
        watching results.graph.content := by
  constructor
  · intro member
    obtain ⟨object, named⟩ := named_of_mem_pointsTo valid member
    exact ⟨object, named, Graph.facts_subset_watching _ 0 ((mem_pointsTo 0 plain named).mp member)⟩
  · rintro ⟨object, named, edge⟩
    exact (mem_pointsTo 0 plain named).mpr (Graph.edge_of_watching edge 0)

def answer? {α : Type} (results : Results) (evaluation : Eval α) : Option α :=
  (evaluation results.state.evalState).1.toOption

theorem answer?_eq {α : Type} {evaluation : Eval α} {value : Option α}
    (run : evaluation results.state.evalState =
      (inRange value : Eval α) results.state.evalState) : results.answer? evaluation = value := by
  unfold answer?
  rw [run]
  cases value <;> rfl

/-- What the statement of a site reads from a variable in a context. -/
def readAt? (results : Results) (site : CallSite) (context : Context) (declared : Variable) :
    Option IdSet := do
  let id ← results.program.idAt? site
  let statement ← results.program.statement? id
  results.answer? ((results.analysis.frame (id, context) 0).read .full declared statement.point)

theorem readAt?_spec {declared : Declaration.Program} (sourced : results.program.Sourced declared)
    (pure : results.analysis.abstraction.policy.IsPure)
    (invariant : Invariant results.analysis results.state) {id : StatementId}
    {statement : Statement} (runs : Runs results.analysis results.state id context statement)
    {read : Variable} {sources : List Source}
    (found : (results.analysis.frame (id, context) 0).sources? read statement.point = some sources)
    (looked : looks sources (watching results.graph.content) ⊆ watching results.graph.content) :
    ∃ ids, results.readAt? statement.callSite context read = some ids ∧
      ∀ object, object ∈ ids ↔ ∃ seen ∈ shown sources (watching results.graph.content),
        results.graph.object? object = some seen := by
  obtain ⟨ids, isRead, members⟩ := invariant.read_spec pure found looked
  refine ⟨ids, ?_, members⟩
  unfold readAt?
  rw [sourced.idAt?_of_found runs.found]
  show (results.program.statement? id).bind _ = _
  rw [show results.program.statement? id = some statement from runs.found]
  exact toOption_eq_some.mpr isRead

end Results

end ObjectFlow
