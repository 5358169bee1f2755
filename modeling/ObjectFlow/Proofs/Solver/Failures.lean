import ObjectFlow.Proofs.Evaluation.Failing
import ObjectFlow.Proofs.Program.Provenance
import ObjectFlow.Proofs.Solver.Soundness

/-!
# How runs fail

In a loaded program every id that a statement goes by is in its table, and what
the nodes hold is of types that the table has.  So there is no step that looks
for something that is not there.  A step fails only where a receiver lacks the
method that is called on it, or where an exception comes to a handler whose
variable is flow-sensitive, whatever order the steps come in.
-/

namespace ObjectFlow

open Effect

/-! ## Loaded statements -/

namespace Program.Sourced

variable {declared : Declaration.Program} {program : Program} {statement : Statement}

theorem handlers_described (sourced : program.Sourced declared)
    (member : statement ∈ program.statements) {source summary : Variable} {handlers : List Handler}
    (isRaise : statement.action = .raise source handlers summary) :
    ∀ handler ∈ handlers, program.hierarchy.HasType handler.type ∧
      ∃ name, program.describeVariable? handler.target.id = some name := by
  intro handler listed
  obtain ⟨_, body, _, caught⟩ := (sourced.statements statement member).raise _ _ _ isRaise
  obtain ⟨index, isHere⟩ := List.mem_iff_getElem?.mp listed
  obtain ⟨caught, _, isHandler⟩ := forall₂_getElem?_right caught isHere
  obtain ⟨origin, isTarget, _⟩ := Declaration.Method.assignable_of_handler? isHandler
  refine ⟨?_, sourced.exists_describeVariable? (VariableTable.holds_of_find? isTarget)⟩
  obtain ⟨type, isType, isHandler⟩ := Option.bind_eq_some_iff.mp isHandler
  obtain ⟨_, _, same⟩ := Option.bind_eq_some_iff.mp isHandler
  cases same
  exact .of_lookupType isType

private theorem action_covered (sourced : program.Sourced declared)
    (member : statement ∈ program.statements) : statement.action.Covered program.hierarchy := by
  have here := sourced.statements statement member
  rcases here.meant with ⟨body, element, operands, isBody, _, means⟩ | ⟨_, _, _, isRaise⟩
  · have triggered := here.triggered
    have handled := fun source handlers summary =>
      @sourced.handlers_described _ _ _ member source summary handlers
    generalize statement.action = action at means triggered handled
    cases means with
    | new _ isType => exact .of_lookupType isType
    | newArray _ _ isType => exact .of_lookupType isType
    | copy isCast =>
        intro type cast
        obtain ⟨_, isType⟩ := isCast type cast
        exact .of_lookupType isType
    | load isField => exact ⟨_, isField⟩
    | store isField => exact ⟨_, isField⟩
    | getStatic _ _ => exact triggered
    | putStatic _ _ => exact triggered
    | call described =>
        obtain ⟨_, method, _, _, isMethod, _⟩ := described.args
        exact ⟨method, isMethod⟩
    | throw => exact fun handler listed => (handled _ _ _ rfl handler listed).1
    | classInit _ _ _ => exact triggered
    | phi => trivial
    | arrayLoad => trivial
    | arrayStore => trivial
    | «return» => trivial
  · rw [isRaise]
    exact fun handler listed => (sourced.handlers_described member isRaise handler listed).1

end Program.Sourced

namespace Analysis

variable {analysis : Analysis} {declared : Declaration.Program} {config : Config}

/-- What the statements of a loaded program ask for is there, but for the points of handlers. -/
theorem covers_of_loaded (loaded : declared.load = .ok analysis.program)
    (chosen : HeapAbstraction.ofConfig config = .ok analysis.abstraction)
    {key : StatementId × Context} {statement : Statement}
    (found : analysis.program.statement? key.1 = some statement) (reader : SubscriberId) :
    (analysis.frame key reader).Covers statement := by
  have sourced := Declaration.load_sourced loaded
  have placed := Declaration.load_placed loaded
  have member : statement ∈ analysis.program.statements := List.mem_of_getElem? found
  exact {
    linked := sourced.linked
    confined := ⟨_, _, HeapAbstraction.confined_of_config chosen⟩
    described := sourced.exists_describeStatement? found
    points := placed.points
    reads := fun declared used => (placed.reads statement member declared used).2
    writes := fun write listed => (placed.writes statement member write listed).2
    action := sourced.action_covered member }

theorem closed_covered (loaded : declared.load = .ok analysis.program)
    (chosen : HeapAbstraction.ofConfig config = .ok analysis.abstraction) :
    analysis.Closed (insert .failure analysis.program.hierarchy.covered) where
  watch _ := .inr trivial
  initializers method listed := by
    have sourced := Declaration.load_sourced loaded
    exact .inr (sourced.linked.names_of_isInitializer (sourced.initializers method listed))
  demands node _ id member := by
    obtain ⟨statement, found, _⟩ := SolverState.statement?_of_mem member
    rw [analysis.demand_eq found 0]
    have covers := @covers_of_loaded _ _ _ loaded chosen (id, node.context) _ found 0
    exact covers.demand_subset (Hierarchy.types_of_subset subset_rfl) (Set.subset_insert _ _)
      (fun _ _ _ _ _ => .inl rfl) fun _ _ _ _ => .inl rfl

end Analysis

namespace SolverState

variable {analysis : Analysis} {kind : SetKind} {state : SolverState} {config : Config}
  {declared : Declaration.Program}

theorem Reachable.facts_covered (loaded : declared.load = .ok analysis.program)
    (chosen : HeapAbstraction.ofConfig config = .ok analysis.abstraction)
    (reachable : Reachable analysis kind state) (reader : SubscriberId) :
    state.graph.facts reader ⊆ analysis.program.hierarchy.covered := by
  have pure := HeapAbstraction.isPure_of_config chosen
  intro fact said
  refine (reachable.facts_subset pure (Analysis.closed_covered loaded chosen) reader
    said).resolve_left ?_
  rintro rfl
  exact Graph.failure_notMem_facts _ _ said

private theorem shows_of_onGraph {view : View} {graph : Graph} (onGraph : view.OnGraph graph) :
    view.Shows graph ∅ := by
  refine ⟨fun node id has => ?_, nofun⟩
  cases view with
  | full => exact has
  | delta growth => exact onGraph growth rfl _ has

/-- An evaluation that fails looks for a method that a receiver lacks, or comes to a handler whose
variable is flow-sensitive. -/
theorem FailureOf.explained (loaded : declared.load = .ok analysis.program)
    (chosen : HeapAbstraction.ofConfig config = .ok analysis.abstraction)
    (reachable : Reachable analysis kind state) {position : Nat} {item : WorkItem}
    {key : StatementId × Context} {statement : Statement} {failure : Failure} {after : EvalState}
    (failed : FailureOf analysis state position item key statement failure after) :
    (∃ call, statement.action = .call call ∧
      (analysis.frame key item.subscriber).Unresolved statement call failure after) ∨
    ∃ source handlers summary, statement.action = .raise source handlers summary ∧
      (analysis.frame key item.subscriber).Unplaced statement source handlers failure after := by
  have pure := HeapAbstraction.isPure_of_config chosen
  have sourced := Declaration.load_sourced loaded
  have invariant := reachable.invariant pure
  have covers := Analysis.covers_of_loaded loaded chosen failed.isStatement item.subscriber
  have inside := reachable.facts_covered loaded chosen item.subscriber
  have starts : Inside item.subscriber analysis.program.hierarchy.covered
      (state.erase position).evalState := ⟨invariant.valid, inside⟩
  have shows := shows_of_onGraph (invariant.queued item (List.mem_of_getElem? failed.found)).2
  by_cases isRaise : ∃ source handlers summary, statement.action = .raise source handlers summary
  · obtain ⟨source, handlers, summary, isRaise⟩ := isRaise
    have member : statement ∈ analysis.program.statements := List.mem_of_getElem? failed.isStatement
    have isSummary := ((sourced.statements statement member).raise _ _ _ isRaise).1
    have plain := (sourced.tidy.holdsPlain isSummary rfl).2
    exact .inr ⟨source, handlers, summary, isRaise, Frame.raise_failsOnly pure covers isRaise plain
      (fun handler listed => (sourced.handlers_described member isRaise handler listed).2)
      starts shows failure after failed.run⟩
  by_cases isCall : ∃ call receiver, statement.action = .call call ∧ call.receiver = some receiver
  · obtain ⟨call, receiver, isCall, isReceiver⟩ := isCall
    have run := failed.run
    rw [show (analysis.frame key item.subscriber).evaluate statement item.view =
      (analysis.frame key item.subscriber).evaluateCall statement call item.view by
        rw [Frame.evaluate, isCall]] at run
    exact .inl ⟨call, isCall,
      Frame.evaluateCall_failsOnly pure covers isCall isReceiver starts shows failure after run⟩
  · have closed : analysis.demand key analysis.program.hierarchy.covered ⊆
        analysis.program.hierarchy.covered := by
      rw [analysis.demand_eq failed.isStatement item.subscriber]
      exact covers.demand_subset (Frame.types_covered _) subset_rfl
        (fun call receiver action isReceiver _ =>
          absurd ⟨call, receiver, action, isReceiver⟩ isCall)
        fun source handlers summary action => absurd ⟨source, handlers, summary, action⟩ isRaise
    have meets := evaluateItem_meets pure invariant failed.found failed.scheduled failed.isStatement
      inside closed
    unfold Meets at meets
    rw [failed.run] at meets
    exact absurd meets (Frame.failure_notMem_covered _)

/-- Whatever order steps come in, they fail only for a virtual call on a receiver without a concrete
method and for an exception that comes to a flow-sensitive variable of a handler, and never with an
id out of range.  All other writes of flow-sensitive variables go to the point of their
statement. -/
theorem failures_explained (loaded : declared.load = .ok analysis.program)
    (chosen : HeapAbstraction.ofConfig config = .ok analysis.abstraction)
    (reachable : Reachable analysis kind state) :
    (∀ position failure, position < state.pending.length →
      step analysis state position = .error failure → ∃ item key statement after,
        FailureOf analysis state position item key statement failure after ∧
          ((∃ call, statement.action = .call call ∧
            (analysis.frame key item.subscriber).Unresolved statement call failure after) ∨
          ∃ source handlers summary, statement.action = .raise source handlers summary ∧
            (analysis.frame key item.subscriber).Unplaced statement source handlers failure
              after)) ∧
    ∀ key statement reader, analysis.program.statement? key.1 = some statement →
      ∀ write ∈ statement.writes, write.1.flowSensitive = true →
        write.1 ∉ statement.action.handled → ∃ point,
          statement.kill? = some (point, write.1.id) ∧
            (analysis.frame key reader).target write.1 write.2 = Eval.onGraph
              (Graph.node (.localAt ((analysis.frame key reader).replica write.1) point)) := by
  have pure := HeapAbstraction.isPure_of_config chosen
  constructor
  · intro position failure pending failed
    obtain ⟨_, item, key, statement, after, failed⟩ := step_failed pure (reachable.invariant pure)
      (Analysis.closed_covered loaded chosen)
      (reachable.facts_subset pure (Analysis.closed_covered loaded chosen))
      (fun method named _ => named.resolve_left nofun) pending failed
    exact ⟨item, key, statement, after, failed, failed.explained loaded chosen reachable⟩
  · intro key statement reader found write listed sensitive other
    exact (Analysis.covers_of_loaded loaded chosen found reader).exists_kill listed sensitive other

end SolverState

def failingProgram : Declaration.Program :=
  ⟨"Main.main",
    [⟨"Shape", none, none, false, [.method ⟨"draw", none, false, false, true, []⟩]⟩,
      ⟨"Main", none, none, false,
        [.method ⟨"main", none, true, false, false,
          [.local ⟨"shape", "Shape", false⟩, .local ⟨"thrown", "Throwable", false⟩,
            .local ⟨"caught", "Throwable", true⟩, .catch ⟨"Throwable", "caught"⟩,
            .statement .new { target := some "shape", type := some "Shape" },
            .statement .new { target := some "thrown", type := some "Throwable" },
            .statement .call { receiver := some "shape", method := some "Shape.draw" },
            .statement .throw { source := some "thrown" }]⟩]⟩]⟩

private theorem SolverState.pending_of_step_error {analysis : Analysis} {state : SolverState}
    {position : Nat} {cause : Error}
    (failed : step analysis state position = .error (.error cause)) :
    position < state.pending.length := by
  by_contra outside
  unfold step at failed
  rw [List.getElem?_eq_none (Nat.le_of_not_lt outside)] at failed
  cases failed

/-- How the steps at two positions fail, after some steps of a program that take the oldest pending
item first. -/
def failuresAfter? (declared : Declaration.Program) (config : Config) (limit first second : Nat) :
    Option (Failure × Failure) := do
  let program ← declared.load.toOption
  let abstraction ← (HeapAbstraction.ofConfig config).toOption
  let analysis : Analysis := ⟨program, abstraction⟩
  let state ← (SolverState.run analysis limit (.seed analysis config.setKind)).toOption
  match SolverState.step analysis state first, SolverState.step analysis state second with
  | .error failure, .error other => some (failure, other)
  | _, _ => none

private theorem failuresAfter?_spec {declared : Declaration.Program} {config : Config}
    {limit first second : Nat} {failure other : Failure}
    (found : failuresAfter? declared config limit first second = some (failure, other)) :
    ∃ (analysis : Analysis) (state : SolverState), declared.load = .ok analysis.program ∧
      HeapAbstraction.ofConfig config = .ok analysis.abstraction ∧
      SolverState.Reachable analysis config.setKind state ∧
      SolverState.step analysis state first = .error failure ∧
      SolverState.step analysis state second = .error other := by
  obtain ⟨program, loaded, found⟩ := Option.bind_eq_some_iff.mp found
  obtain ⟨abstraction, chosen, found⟩ := Option.bind_eq_some_iff.mp found
  obtain ⟨state, ran, found⟩ := Option.bind_eq_some_iff.mp found
  refine ⟨⟨program, abstraction⟩, state, toOption_eq_some.mp loaded, toOption_eq_some.mp chosen,
    SolverState.Reachable.seed.run (toOption_eq_some.mp ran), ?_⟩
  split at found
  · next isFirst isSecond =>
      cases found
      exact ⟨isFirst, isSecond⟩
  · cases found

theorem failures_explained_failing : ∃ (analysis : Analysis) (state : SolverState),
    failingProgram.load = .ok analysis.program ∧
      HeapAbstraction.ofConfig plainSettings = .ok analysis.abstraction ∧
      SolverState.Reachable analysis .hashed state ∧
      (∃ item key statement after call, SolverState.FailureOf analysis state 0 item key statement
          (.error (.unresolvedTarget "draw/0" "Shape" "Main.main#2: v3.m1()" "[]")) after ∧
        (analysis.frame key item.subscriber).Unresolved statement call
          (.error (.unresolvedTarget "draw/0" "Shape" "Main.main#2: v3.m1()" "[]")) after) ∧
      ∃ item key statement after source handlers,
        SolverState.FailureOf analysis state 2 item key statement (.error (.missingProgramPoint
          "Main.main:caught" "Main.main#4: raise v4 catch(t9 v5)" "[]")) after ∧
        (analysis.frame key item.subscriber).Unplaced statement source handlers
          (.error (.missingProgramPoint "Main.main:caught" "Main.main#4: raise v4 catch(t9 v5)"
            "[]")) after := by
  obtain ⟨analysis, state, loaded, chosen, reachable, isFirst, isSecond⟩ :=
    failuresAfter?_spec (show failuresAfter? failingProgram plainSettings 2 0 2 = some
      (.error (.unresolvedTarget "draw/0" "Shape" "Main.main#2: v3.m1()" "[]"),
        .error (.missingProgramPoint "Main.main:caught" "Main.main#4: raise v4 catch(t9 v5)" "[]"))
      by decide +kernel)
  have explained := (SolverState.failures_explained loaded chosen reachable).1
  refine ⟨analysis, state, loaded, chosen, reachable, ?_, ?_⟩
  · obtain ⟨item, key, statement, after, failed, ⟨call, _, unresolved⟩ | ⟨_, _, _, _, unplaced⟩⟩ :=
      explained 0 _ (SolverState.pending_of_step_error isFirst) isFirst
    · exact ⟨item, key, statement, after, call, failed, unresolved⟩
    · obtain ⟨_, _, _, _, _, _, _, _, _, _, _, same⟩ := unplaced
      cases same
  · obtain ⟨item, key, statement, after, failed,
        ⟨_, _, unresolved⟩ | ⟨source, handlers, _, _, unplaced⟩⟩ :=
      explained 2 _ (SolverState.pending_of_step_error isSecond) isSecond
    · obtain ⟨_, _, _, _, _, _, _, _, _, lacks⟩ := unresolved
      obtain ⟨_, _, _, _, same⟩ := lacks.reported
      cases same
    · exact ⟨item, key, statement, after, source, handlers, failed, unplaced⟩

end ObjectFlow
