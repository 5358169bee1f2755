import ObjectFlow.Proofs.Solver.Universe

/-!
# Limits of a run

Contexts are made from objects, and objects from contexts, while a run goes on.
The facts that an analysis can find bound both at once: whatever order steps
come in, every context and every object that turns up is on the list, and a
step leaves less to come.
-/

namespace ObjectFlow

def Node.replica? : Node → Option Replica
  | .local replica => some replica
  | .localAt replica _ => some replica
  | .field _ _ _ => none

namespace SolverState

/-- Every context and every object in the state is made of sites of the program, up to the depths
of the settings. -/
structure Limited (program : Program) (config : Config) (state : SolverState) : Prop where
  reached : ∀ node ∈ state.reached.keys, node.context.Over program.contextElements config.depth
  scheduled : ∀ key ∈ state.subscribers.keys, key.2.Over program.contextElements config.depth
  calls : ∀ id edge, state.graph.call? id = some edge →
    edge.callerContext.Over program.contextElements config.depth ∧
      edge.calleeContext.Over program.contextElements config.depth
  nodes : ∀ id node replica, state.graph.node? id = some node → node.replica? = some replica →
    replica.context.Over program.contextElements config.depth
  objects : ∀ id object, state.graph.object? id = some object →
    object.site ∈ program.allocationSites ∧
      object.context.Over program.contextElements (min config.depth config.heapDepth)

variable {analysis : Analysis} {kind : SetKind} {state : SolverState} {config : Config}

theorem Reachable.limited
    (chosen : HeapAbstraction.ofConfig config = .ok analysis.abstraction)
    (reachable : Reachable analysis kind state) : state.Limited analysis.program config := by
  have pure := HeapAbstraction.isPure_of_config chosen
  have confined := HeapAbstraction.confined_of_config chosen
  have invariant := reachable.invariant pure
  have inside := reachable.facts_subset pure (analysis.closed_bounded confined) 0
  have reached : ∀ node ∈ state.reached.keys,
      node.context.Over analysis.program.contextElements config.depth := by
    intro node member
    exact (((invariant.reached node).mp member).mono inside).limited confined
  refine ⟨reached, ?_, ?_, ?_, ?_⟩
  · intro key scheduled
    obtain ⟨node, member, _, same⟩ := (invariant.consistent key).mp scheduled
    rw [same]
    exact reached node member
  · intro id edge found
    have said : Fact.call edge ∈ state.graph.facts 0 := ⟨id, found⟩
    have listed := Program.call_mem_facts.mp (inside said)
    simp only [Program.callEdges, Program.contexts, List.mem_flatMap, List.mem_map] at listed
    obtain ⟨_, _, _, caller, _, _, _, callee, rfl⟩ := listed
    exact ⟨Context.mem_upTo.mp caller, Context.mem_upTo.mp callee⟩
  · intro id node replica found isReplica
    cases node with
    | field object key type => cases isReplica
    | «local» replica =>
        have said : Fact.node (.local replica) ∈ state.graph.facts 0 :=
          ⟨id, by rw [Graph.place?, found]; rfl⟩
        exact inside said _ isReplica
    | localAt replica point =>
        have said : Fact.node (.localAt replica point) ∈ state.graph.facts 0 :=
          ⟨id, by rw [Graph.place?, found]; rfl⟩
        exact inside said _ isReplica
  · intro id object found
    have said : Fact.object object ∈ state.graph.facts 0 := ⟨id, found⟩
    exact Program.mem_objects.mp (inside said)

/-- Whichever pending item each step picks, contexts and objects stay within the limits and there
is no endless run. -/
theorem runs_limited (chosen : HeapAbstraction.ofConfig config = .ok analysis.abstraction)
    (kind : SetKind) :
    (∀ state, Reachable analysis kind state → state.Limited analysis.program config) ∧
      ∀ run : ℕ → SolverState, run 0 = seed analysis kind →
        ¬ ∀ n, ∃ position, step analysis (run n) position = .ok (run (n + 1)) := by
  refine ⟨fun state reachable => reachable.limited chosen, fun run start => ?_⟩
  exact no_endless_run (HeapAbstraction.isPure_of_config chosen)
    (HeapAbstraction.confined_of_config chosen) run start

end SolverState

def layeredProgram : Declaration.Program :=
  ⟨"Main.main",
    [⟨"Inner", none, none, false,
        [.method ⟨"get", none, false, false, false, []⟩]⟩,
      ⟨"Outer", none, none, false,
        [.method ⟨"make", none, false, false, false,
          [.local ⟨"inner", "Inner", false⟩,
            .statement .new { target := some "inner", type := some "Inner" },
            .statement .call { receiver := some "inner", method := some "Inner.get" }]⟩]⟩,
      ⟨"Main", none, none, false,
        [.method ⟨"main", none, true, false, false,
          [.local ⟨"outer", "Outer", false⟩,
            .statement .new { target := some "outer", type := some "Outer" },
            .statement .call { receiver := some "outer", method := some "Outer.make" }]⟩]⟩]⟩

def layeredSettings : Config :=
  { Config.default with policy := "object", depth := 2, heapDepth := 1 }

theorem runs_limited_layered : ∃ results : Results,
    layeredProgram.load = .ok results.program ∧
      HeapAbstraction.ofConfig layeredSettings = .ok results.analysis.abstraction ∧
      (∃ node ∈ results.state.reached.keys, node.context.length = 2) ∧
      (∃ id object, results.state.graph.object? id = some object ∧ object.context.length = 1) ∧
      results.state.Limited results.program layeredSettings := by
  obtain ⟨results, loaded, chosen, solved, done, deep, heap⟩ :=
    layeredProgram.exists_finished layeredSettings (fun results =>
      (∃ node ∈ results.state.reached.keys, node.context.length = 2) ∧
        (results.state.graph.object? 1).any fun object => object.context.length = 1)
      (by decide +kernel)
  obtain ⟨object, found, length⟩ := Option.any_eq_true _ _ |>.mp heap
  exact ⟨results, loaded, chosen, deep, ⟨1, object, found, of_decide_eq_true length⟩,
    (SolverState.runs_limited chosen .hashed).1 _ (Analysis.solve_reachable solved)⟩

end ObjectFlow
