import ObjectFlow.Proofs.Evaluation.Origin
import ObjectFlow.Proofs.Solver.Fixpoint

/-!
# Runs stay within closed sets

Whatever order its steps come in, a run only finds facts that lie in every
closed set, and it fails only if the closed sets contain `failure`.  When a run
is finished, what it found is such a set itself: the least one.
-/

namespace ObjectFlow

open Effect

def watching (facts : Set Fact) : Set Fact := facts ∪ {fact | ∃ place, fact = .watch place}

private theorem watching_mono {facts more : Set Fact} (subset : facts ⊆ more) :
    watching facts ⊆ watching more :=
  Set.union_subset_union_left _ subset

namespace Graph

/-- What a graph says without regard to subscriptions. -/
def content (graph : Graph) : Set Fact := unwatched (graph.facts 0)

variable {graph : Graph}

theorem content_subset_facts (graph : Graph) (reader : SubscriberId) :
    graph.content ⊆ graph.facts reader :=
  fun _ ⟨said, plain⟩ => says_of_ne_watch plain said

theorem facts_subset_watching (graph : Graph) (reader : SubscriberId) :
    graph.facts reader ⊆ watching graph.content := by
  intro fact said
  by_cases isWatch : ∃ place, fact = .watch place
  · exact .inr isWatch
  · have plain : ∀ place, fact ≠ .watch place := fun place same => isWatch ⟨place, same⟩
    exact .inl ⟨says_of_ne_watch plain said, plain⟩

theorem content_subset {other : Graph} {reader : SubscriberId}
    (inside : graph.facts reader ⊆ watching other.content) : graph.content ⊆ other.content := by
  intro fact said
  rcases inside (content_subset_facts graph reader said) with here | ⟨place, same⟩
  · exact here
  · exact absurd same (said.2 place)

theorem edge_of_watching {place : Place} {object : HeapObject}
    (member : .edge place object ∈ watching graph.content) (reader : SubscriberId) :
    .edge place object ∈ graph.facts reader := by
  rcases member with said | ⟨_, same⟩
  · exact content_subset_facts graph reader said
  · cases same

theorem failure_notMem_watching (graph : Graph) : .failure ∉ watching graph.content := by
  rintro (⟨said, _⟩ | ⟨_, same⟩)
  · exact said
  · cases same

private theorem facts_subset_of_reader {reader : SubscriberId} {bound : Set Fact}
    (watch : ∀ place, .watch place ∈ bound) (inside : graph.facts reader ⊆ bound)
    (other : SubscriberId) : graph.facts other ⊆ bound := by
  refine (facts_subset_watching graph other).trans (Set.union_subset ?_ ?_)
  · exact (content_subset_facts graph reader).trans inside
  · rintro _ ⟨place, rfl⟩
    exact watch place

end Graph

namespace Analysis

variable {analysis : Analysis} {graph : Graph}

theorem reaches_watching {node : MethodContext} :
    analysis.Reaches (watching graph.content) node ↔ analysis.Reaches (graph.facts 0) node := by
  constructor
  · rintro (entry | ⟨method, member | ⟨_, same⟩, isNode⟩ | ⟨edge, member | ⟨_, same⟩, isNode⟩)
    · exact .inl entry
    · exact .inr (.inl ⟨method, member.1, isNode⟩)
    · cases same
    · exact .inr (.inr ⟨edge, member.1, isNode⟩)
    · cases same
  · exact fun reaches => reaches.mono (Graph.facts_subset_watching graph 0)

theorem Reaches.of_content {other : Graph} {node : MethodContext}
    (reaches : analysis.Reaches (graph.facts 0) node) (subset : graph.content ⊆ other.content) :
    analysis.Reaches (other.facts 0) node :=
  reaches_watching.mp ((reaches_watching.mpr reaches).mono (watching_mono subset))

theorem Closed.inter {bound more : Set Fact} (first : analysis.Closed bound)
    (second : analysis.Closed more) : analysis.Closed (bound ∩ more) where
  watch place := ⟨first.watch place, second.watch place⟩
  initializers method listed :=
    ⟨first.initializers method listed, second.initializers method listed⟩
  demands node reaches id member := by
    have mono := fun {known facts : Set Fact} (subset : known ⊆ facts) =>
      (analysis.demand_degree (id, node.context)).mono subset
    refine Set.subset_inter ?_ ?_
    · exact (mono Set.inter_subset_left).trans
        (first.demands node (reaches.mono Set.inter_subset_left) id member)
    · exact (mono Set.inter_subset_right).trans
        (second.demands node (reaches.mono Set.inter_subset_right) id member)

/-- A graph that meets the demands of all statements it makes reachable is a closed set. -/
theorem closed_of_met (initializers : ∀ method ∈ analysis.program.initializers,
      graph.isInitialized method = true)
    (met : ∀ node, analysis.Reaches (graph.facts 0) node →
      ∀ id ∈ analysis.program.statementsOf node.method, ∃ known reader,
        (∀ place object, .edge place object ∈ graph.facts 0 → .edge place object ∈ known) ∧
          analysis.demand (id, node.context) known ⊆ graph.facts reader) :
    analysis.Closed (watching graph.content) where
  watch place := .inr ⟨place, rfl⟩
  initializers method listed := Graph.facts_subset_watching graph 0 (initializers method listed)
  demands node reaches id member := by
    obtain ⟨known, reader, edges, demanded⟩ := met node (reaches_watching.mp reaches) id member
    refine (analysis.demand_degree _).isLocal (fun place object edge _ => ?_)
      (demanded.trans (Graph.facts_subset_watching graph reader))
    exact edges place object (Graph.edge_of_watching edge 0)

end Analysis

namespace SolverState

variable {analysis : Analysis} {kind : SetKind} {state next : SolverState} {position : Nat}
  {bound : Set Fact}

theorem Invariant.closed (invariant : Invariant analysis state) (done : state.pending = []) :
    analysis.Closed (watching state.graph.content) := by
  refine Analysis.closed_of_met invariant.initialized fun node reaches id member => ?_
  have scheduled : (id, node.context) ∈ state.subscribers.keys :=
    (invariant.consistent _).mpr ⟨node, (invariant.reached node).mpr reaches, member, rfl⟩
  obtain ⟨subscriber, found⟩ := Interner.mem_keys_iff.mp scheduled
  exact ⟨state.graph.facts subscriber, subscriber, fun _ _ edge => edge,
    (invariant.atRest done).met found⟩

/-- The demand of a scheduled statement stays within a closed set that holds what was found. -/
theorem Invariant.demand_subset (invariant : Invariant analysis state)
    (closed : analysis.Closed bound) (inside : ∀ reader, state.graph.facts reader ⊆ bound)
    {subscriber : SubscriberId} {key : StatementId × Context}
    (scheduled : state.subscribers.key? subscriber = some key) :
    analysis.demand key bound ⊆ bound := by
  obtain ⟨node, _, reached, member, same, _⟩ := invariant.statement scheduled
  have reaches := ((invariant.reached node).mp reached).mono (inside 0)
  rw [show key = (key.1, node.context) from Prod.ext rfl same]
  exact closed.demands node reaches key.1 member

theorem Reachable.facts_subset (pure : analysis.abstraction.policy.IsPure)
    (closed : analysis.Closed bound) (reachable : Reachable analysis kind state)
    (reader : SubscriberId) : state.graph.facts reader ⊆ bound := by
  induction reachable generalizing reader with
  | seed =>
      have sameGraph : (SolverState.seed analysis kind).graph = initialGraph analysis kind :=
        (reachAll_spec analysis.program _ _).1.graph
      rw [sameGraph, initialGraph_facts]
      rintro _ ⟨method, listed, rfl⟩
      exact closed.initializers method listed
  | step reachable stepped ih =>
      have invariant := reachable.invariant pure
      obtain ⟨item, key, statement, after, stepOf⟩ := step_spec invariant stepped
      obtain ⟨growth, inside, _⟩ := stepOf.evaluated pure invariant (ih item.subscriber)
        (invariant.demand_subset closed ih stepOf.scheduled)
      have sameGraph := (stepOf.propagation invariant growth).1.graph
      rw [sameGraph]
      exact Graph.facts_subset_of_reader closed.watch inside.facts reader

/-- What a run finds has every property that statements pass on from the facts they see to those
they demand. -/
theorem Reachable.facts_subset_of_origins (pure : analysis.abstraction.policy.IsPure)
    (reachable : Reachable analysis kind state) (property : Set Fact)
    (watch : ∀ place, .watch place ∈ property)
    (initializer : ∀ method, .initializer method ∈ property)
    (preserved : ∀ key statement, analysis.program.statement? key.1 = some statement →
      (analysis.frame key 0).origins statement property ⊆ property) (reader : SubscriberId) :
    state.graph.facts reader ⊆ property := by
  refine reachable.facts_subset pure ⟨watch, fun method _ => initializer method, ?_⟩ reader
  intro node _ id member
  obtain ⟨statement, found, _⟩ := statement?_of_mem member
  rw [analysis.demand_eq found 0]
  exact (Frame.demand_subset_origins _ _ _).trans
    (preserved (id, node.context) statement found)

theorem Reachable.content_subset_of_origins (pure : analysis.abstraction.policy.IsPure)
    (reachable : Reachable analysis kind state) (done : state.pending = []) {property : Set Fact}
    (watch : ∀ place, .watch place ∈ property)
    (initializer : ∀ method, .initializer method ∈ property)
    (preserved : ∀ key statement, analysis.program.statement? key.1 = some statement →
      analysis.demand key (watching state.graph.content) ⊆ watching state.graph.content →
      (analysis.frame key 0).origins statement (watching state.graph.content ∩ property) ⊆
        property) :
    state.graph.content ⊆ property := by
  have closed := (reachable.invariant pure).closed done
  have holds : analysis.Closed (watching state.graph.content ∩ property) := by
    refine ⟨fun place => ⟨closed.watch place, watch place⟩,
      fun method listed => ⟨closed.initializers method listed, initializer method⟩, ?_⟩
    intro node reaches id member
    obtain ⟨statement, found, _⟩ := statement?_of_mem member
    have met := closed.demands node (reaches.mono Set.inter_subset_left) id member
    refine Set.subset_inter (((analysis.demand_degree _).mono Set.inter_subset_left).trans met) ?_
    rw [analysis.demand_eq found 0]
    exact (Frame.demand_subset_origins _ _ _).trans
      (preserved (id, node.context) statement found met)
  exact (Graph.content_subset_facts state.graph 0).trans
    ((reachable.facts_subset pure holds 0).trans Set.inter_subset_right)

structure FailureOf (analysis : Analysis) (state : SolverState) (position : Nat) (item : WorkItem)
    (key : StatementId × Context) (statement : Statement) (failure : Failure)
    (after : EvalState) : Prop where
  found : state.pending[position]? = some item
  scheduled : state.subscribers.key? item.subscriber = some key
  isStatement : analysis.program.statement? key.1 = some statement
  run : (analysis.frame key item.subscriber).evaluate statement item.view
    (state.erase position).evalState = (.error failure, after)

theorem step_failed (pure : analysis.abstraction.policy.IsPure)
    (invariant : Invariant analysis state) (closed : analysis.Closed bound)
    (inside : ∀ reader, state.graph.facts reader ⊆ bound)
    (described : ∀ method, .initializer method ∈ bound → state.graph.isInitialized method = false →
      ∃ name, analysis.program.describeMethod? method = some name)
    {failure : Failure} (pending : position < state.pending.length)
    (failed : step analysis state position = .error failure) :
    .failure ∈ bound ∧ ∃ item key statement after,
      FailureOf analysis state position item key statement failure after := by
  obtain ⟨item, found⟩ : ∃ item, state.pending[position]? = some item :=
    ⟨_, List.getElem?_eq_getElem pending⟩
  obtain ⟨key, scheduled⟩ := (invariant.queued item (List.mem_of_getElem? found)).1
  obtain ⟨_, statement, _, _, _, isStatement⟩ := invariant.statement scheduled
  have meets := evaluateItem_meets pure invariant found scheduled isStatement
    (inside item.subscriber) (invariant.demand_subset closed inside scheduled)
  unfold Meets at meets
  rw [step_run found, evaluate_run (show (state.erase position).subscribers.key? item.subscriber =
    some key from scheduled) isStatement] at failed
  split at meets
  · next value after run =>
      obtain ⟨⟨delta, growth, collected⟩, inside', _⟩ := meets
      obtain rfl : after.produced = delta := collected.trans (Delta.empty_join delta)
      obtain ⟨target, propagates, _⟩ := propagate?_of_growth invariant scheduled growth
      have all : ∀ method ∈ after.produced.initializers.toList,
          ∃ name, analysis.program.describeMethod? method = some name := by
        intro method listed
        obtain ⟨triggered, isNew⟩ := (growth.initializers method).mp listed
        exact described method (inside'.facts triggered) (Bool.not_eq_true _ ▸ isNew)
      obtain ⟨names, found', _⟩ := mapM_option all
      rw [run] at failed
      dsimp only at failed
      rw [propagates, found'] at failed
      cases failed
  · next other after run =>
      rw [run] at failed
      cases failed
      exact ⟨meets, item, key, statement, after, found, scheduled, isStatement, run⟩

end SolverState

end ObjectFlow
