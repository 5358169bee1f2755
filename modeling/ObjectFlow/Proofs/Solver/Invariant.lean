import ObjectFlow.Program.Loader
import ObjectFlow.Proofs.Evaluation.Statement
import ObjectFlow.Proofs.Solver.Queue
import ObjectFlow.Solver.Results

/-!
# The invariant of the solver

Whatever pending item a step picks, the demand of every scheduled statement
stays met by the edges that the statement is not still to be shown.  This rests
on three things: an evaluation brings about what its statement demands, what
it adds is handed to everyone who watches the nodes that grew, and growth of
nodes that nobody watches makes no demand.
-/

namespace ObjectFlow

open Effect Demand

namespace Analysis

variable (analysis : Analysis)

def frame (key : StatementId × Context) (reader : SubscriberId) : Frame :=
  ⟨analysis.program, analysis.abstraction, key.2, key.1, reader⟩

def demand (key : StatementId × Context) : Demand :=
  orFail (analysis.program.statement? key.1) (analysis.frame key 0).demand

theorem demand_degree (key : StatementId × Context) : DegreeAtMost 2 (analysis.demand key) :=
  .orFail fun _ _ => (analysis.frame key 0).demand_degree _

theorem demand_eq {key : StatementId × Context} {statement : Statement}
    (found : analysis.program.statement? key.1 = some statement) (reader : SubscriberId) :
    analysis.demand key = (analysis.frame key reader).demand statement := by
  unfold demand
  rw [found]
  exact (Frame.demand_withReader (analysis.frame key reader) 0 statement)

def Reaches (facts : Set Fact) (node : MethodContext) : Prop :=
  node = ⟨analysis.program.entry, analysis.abstraction.initialContext⟩ ∨
    (∃ method, .initializer method ∈ facts ∧
      node = ⟨method, analysis.abstraction.initialContext⟩) ∨
    ∃ edge, .call edge ∈ facts ∧ node = edge.target

variable {analysis} in
theorem Reaches.mono {facts more : Set Fact} {node : MethodContext}
    (reaches : analysis.Reaches facts node) (subset : facts ⊆ more) :
    analysis.Reaches more node := by
  rcases reaches with entry | ⟨method, triggered, same⟩ | ⟨edge, called, same⟩
  · exact .inl entry
  · exact .inr (.inl ⟨method, subset triggered, same⟩)
  · exact .inr (.inr ⟨edge, subset called, same⟩)

/-- Facts that meet all demands of the statements they make reachable. -/
structure Closed (facts : Set Fact) : Prop where
  watch : ∀ place, .watch place ∈ facts
  initializers : ∀ method ∈ analysis.program.initializers, .initializer method ∈ facts
  demands : ∀ node, analysis.Reaches facts node → ∀ id ∈ analysis.program.statementsOf node.method,
    analysis.demand (id, node.context) facts ⊆ facts

end Analysis

namespace SolverState

variable {analysis : Analysis} {kind : SetKind} {state next : SolverState} {position : Nat}

/-! ## What a step does -/

def evalState (state : SolverState) : EvalState := ⟨state.graph, state.requests, ∅⟩

def withEval (state : SolverState) (after : EvalState) : SolverState :=
  { state with graph := after.graph, requests := after.requests }

def erase (state : SolverState) (position : Nat) : SolverState :=
  { state with pending := state.pending.eraseIdx position }

theorem evaluate_run {item : WorkItem} {key : StatementId × Context} {statement : Statement}
    (scheduled : state.subscribers.key? item.subscriber = some key)
    (found : analysis.program.statement? key.1 = some statement) :
    evaluate analysis item state =
      match (analysis.frame key item.subscriber).evaluate statement item.view state.evalState with
      | (.ok _, after) => (.ok after.produced, state.withEval after)
      | (.error failure, after) => (.error failure, state.withEval after) := by
  have same : (⟨analysis.program, analysis.abstraction, key.2, key.1, item.subscriber⟩ : Frame) =
      analysis.frame key item.subscriber := rfl
  simp only [evaluate, inFrame, onGraph, run_bind, run_get, scheduled, run_inRange_some, found,
    same]
  unfold evalState
  cases (analysis.frame key item.subscriber).evaluate statement item.view
    ⟨state.graph, state.requests, ∅⟩ with
  | mk outcome after => cases outcome <;> rfl

theorem step_run {item : WorkItem} (found : state.pending[position]? = some item) :
    step analysis state position =
      match evaluate analysis item (state.erase position) with
      | (.ok delta, between) => inRange (propagate? analysis between delta)
      | (.error failure, _) => .error failure := by
  unfold step
  rw [found]
  show (do inRange (propagate? analysis (evaluate analysis item (state.erase position)).2
    (← (evaluate analysis item (state.erase position)).1))) = _
  cases evaluate analysis item (state.erase position) with
  | mk outcome between => cases outcome <;> rfl

private theorem step_cases (stepped : step analysis state position = .ok next) :
    ∃ item delta between, state.pending[position]? = some item ∧
      evaluate analysis item (state.erase position) = (.ok delta, between) ∧
      propagate? analysis between delta = some next := by
  cases found : state.pending[position]? with
  | none =>
      unfold step at stepped
      rw [found] at stepped
      cases stepped
  | some item =>
      rw [step_run found] at stepped
      split at stepped
      · next delta between run =>
          cases propagated : propagate? analysis between delta with
          | none => rw [propagated] at stepped; cases stepped
          | some after =>
              rw [propagated] at stepped
              obtain rfl : after = next := Except.ok.inj stepped
              exact ⟨item, delta, between, rfl, run, propagated⟩
      · cases stepped

/-! ## What subscribers have seen -/

def Owes (state : SolverState) (subscriber : SubscriberId) (edge : Edge) : Prop :=
  ∃ growth : Delta, edge ∈ growth.edges ∧ state.Due subscriber (.delta growth)

/-- The edges that the subscriber is not still to be shown. -/
def seen (state : SolverState) (subscriber : SubscriberId) : Set Fact :=
  {fact | ∃ node id place object, fact = .edge place object ∧
    state.graph.place? node = some place ∧ state.graph.object? id = some object ∧
    state.graph.HasEdge node id ∧ ¬ state.Owes subscriber ⟨node, id⟩}

private theorem seen_subset_facts (state : SolverState) (subscriber reader : SubscriberId) :
    state.seen subscriber ⊆ state.graph.facts reader := by
  rintro _ ⟨node, id, place, object, rfl, located, named, held, _⟩
  exact ⟨node, id, located, named, held⟩

theorem due_erase_or {item : WorkItem} {subscriber : SubscriberId} {view : View}
    (found : state.pending[position]? = some item) (due : state.Due subscriber view) :
    (state.erase position).Due subscriber view ∨
      item.subscriber = subscriber ∧ view.Within item.view := by
  obtain ⟨other, member, same, within⟩ := due
  obtain ⟨index, here⟩ := List.mem_iff_getElem?.mp member
  by_cases chosen : index = position
  · subst chosen
    obtain rfl := Option.some.inj (found.symm.trans here)
    exact .inr ⟨same, within⟩
  · exact .inl ⟨other, List.mem_eraseIdx_iff_getElem?.mpr ⟨index, chosen, here⟩, same, within⟩

private theorem seen_erase_subset {subscriber : SubscriberId} {growth : Delta}
    (found : state.pending[position]? = some ⟨subscriber, .delta growth⟩) :
    (state.erase position).seen subscriber ⊆
      state.seen subscriber ∪ View.shownBy state.graph growth := by
  rintro _ ⟨node, id, place, object, rfl, located, named, held, free⟩
  by_cases listed : (⟨node, id⟩ : Edge) ∈ growth.edges
  · exact .inr ⟨node, id, place, object, rfl, located, named, listed⟩
  · refine .inl ⟨node, id, place, object, rfl, located, named, held, ?_⟩
    rintro ⟨more, isEdge, due⟩
    rcases due_erase_or found due with due | ⟨_, within⟩
    · exact free ⟨more, isEdge, due⟩
    · exact listed (within _ isEdge)

/-! ## The invariant -/

structure Invariant (analysis : Analysis) (state : SolverState) : Prop where
  valid : state.graph.Valid
  queued : ∀ item ∈ state.pending, state.Queued item
  watchers : ∀ node subscriber, state.graph.Watched node subscriber →
    ∃ key, state.subscribers.key? subscriber = some key
  consistent : Consistent analysis.program state
  reached : ∀ node, node ∈ state.reached.keys ↔ analysis.Reaches (state.graph.facts 0) node
  initialized : ∀ method ∈ analysis.program.initializers, state.graph.isInitialized method = true
  settled : ∀ {subscriber key}, state.subscribers.key? subscriber = some key →
    ¬ state.Due subscriber .full →
    analysis.demand key (state.seen subscriber) ⊆ state.graph.facts subscriber

/-- An evaluation catches up with all that its subscriber was to be shown. -/
theorem evaluateItem_meets (pure : analysis.abstraction.policy.IsPure)
    (invariant : Invariant analysis state) {item : WorkItem} {key : StatementId × Context}
    {statement : Statement} {bound : Set Fact} (found : state.pending[position]? = some item)
    (scheduled : state.subscribers.key? item.subscriber = some key)
    (isStatement : analysis.program.statement? key.1 = some statement)
    (inside : state.graph.facts item.subscriber ⊆ bound)
    (closed : analysis.demand key bound ⊆ bound) :
    Meets item.subscriber bound
      ((analysis.frame key item.subscriber).evaluate statement item.view)
      (state.erase position).evalState fun _ after =>
        ¬ (state.erase position).Due item.subscriber .full →
        analysis.demand key ((state.erase position).seen item.subscriber) ⊆
          after.graph.facts item.subscriber := by
  have queued := invariant.queued item (List.mem_of_getElem? found)
  have settled := invariant.settled scheduled
  rw [analysis.demand_eq isStatement item.subscriber] at closed settled ⊢
  obtain ⟨subscriber, view⟩ := item
  let frame := analysis.frame key subscriber
  have starts : Inside frame.subscriber bound (state.erase position).evalState :=
    ⟨invariant.valid, inside⟩
  cases view with
  | full =>
      have shows : (View.full).Shows state.graph ((state.erase position).seen subscriber) :=
        View.shows_full subscriber fun place object edge =>
          seen_subset_facts (state.erase position) subscriber subscriber edge
      have met : Meets frame.subscriber bound (frame.evaluate statement .full) _ _ :=
        Frame.evaluate_settles pure starts shows closed
      exact met.mono fun _ _ _ _ settles _ => settles
  | delta growth =>
      have within : ∀ node id, (⟨node, id⟩ : Edge) ∈ growth.edges → state.graph.HasEdge node id :=
        fun node id => queued.2 growth rfl ⟨node, id⟩
      have met : Meets frame.subscriber bound (frame.evaluate statement (.delta growth)) _ _ :=
        Frame.evaluate_catchesUp pure starts (View.shows_delta within)
          (View.shows_union within (seen_subset_facts state subscriber subscriber)) closed
      refine met.mono ?_
      intro _ after grows _ catches free
      -- the item is of a delta, so taking it off the queue frees no full evaluation
      have notFull : ¬ state.Due subscriber .full := by
        intro due
        rcases due_erase_or found due with due | ⟨_, within⟩
        · exact free due
        · exact within
      have met := catches _ subset_rfl ((settled notFull).trans (grows.facts subscriber))
      exact ((frame.demand_degree statement).mono (seen_erase_subset found)).trans met

/-! ## Steps keep the invariant -/

theorem statement?_of_mem {program : Program} {method : MethodId} {id : StatementId}
    (member : id ∈ program.statementsOf method) :
    ∃ statement, program.statement? id = some statement ∧ statement.method = method := by
  obtain ⟨⟨statement, index⟩, listed, rfl⟩ := List.mem_map.mp member
  obtain ⟨isIndexed, same⟩ := List.mem_filter.mp listed
  refine ⟨statement, ?_, of_decide_eq_true same⟩
  exact (List.mem_zipIdx_iff_getElem?.mp isIndexed)

theorem Invariant.statement (invariant : Invariant analysis state) {subscriber : SubscriberId}
    {key : StatementId × Context} (scheduled : state.subscribers.key? subscriber = some key) :
    ∃ node statement, node ∈ state.reached.keys ∧
      key.1 ∈ analysis.program.statementsOf node.method ∧ key.2 = node.context ∧
      analysis.program.statement? key.1 = some statement := by
  obtain ⟨node, reached, member, same⟩ :=
    (invariant.consistent key).mp (Interner.mem_keys_iff.mpr ⟨subscriber, scheduled⟩)
  obtain ⟨statement, found, _⟩ := statement?_of_mem member
  exact ⟨node, statement, reached, member, same, found⟩

/-- The evaluation that a step makes, and what comes of it. -/
structure StepOf (analysis : Analysis) (state : SolverState) (position : Nat) (item : WorkItem)
    (key : StatementId × Context) (statement : Statement) (after : EvalState)
    (next : SolverState) : Prop where
  found : state.pending[position]? = some item
  scheduled : state.subscribers.key? item.subscriber = some key
  isStatement : analysis.program.statement? key.1 = some statement
  run : (analysis.frame key item.subscriber).evaluate statement item.view
    (state.erase position).evalState = (.ok (), after)
  propagated : propagate? analysis ((state.erase position).withEval after) after.produced =
    some next

theorem step_spec (invariant : Invariant analysis state)
    (stepped : step analysis state position = .ok next) :
    ∃ item key statement after, StepOf analysis state position item key statement after next := by
  obtain ⟨item, delta, between, found, run, propagated⟩ := step_cases stepped
  obtain ⟨key, scheduled⟩ := (invariant.queued item (List.mem_of_getElem? found)).1
  obtain ⟨_, statement, _, _, _, isStatement⟩ := invariant.statement scheduled
  rw [evaluate_run (show (state.erase position).subscribers.key? item.subscriber = some key from
    scheduled) isStatement] at run
  split at run
  · next value after evaluated =>
      cases run
      exact ⟨item, key, statement, after, found, scheduled, isStatement, evaluated, propagated⟩
  · cases run

theorem StepOf.evaluated (pure : analysis.abstraction.policy.IsPure)
    (invariant : Invariant analysis state) {item : WorkItem} {key : StatementId × Context}
    {statement : Statement} {after : EvalState} {bound : Set Fact}
    (stepOf : StepOf analysis state position item key statement after next)
    (inside : state.graph.facts item.subscriber ⊆ bound)
    (closed : analysis.demand key bound ⊆ bound) :
    Graph.Growth item.subscriber state.graph after.graph after.produced ∧
      Inside item.subscriber bound after ∧
      (¬ (state.erase position).Due item.subscriber .full →
        analysis.demand key ((state.erase position).seen item.subscriber) ⊆
          after.graph.facts item.subscriber) := by
  have meets := evaluateItem_meets pure invariant stepOf.found stepOf.scheduled stepOf.isStatement
    inside closed
  unfold Meets at meets
  rw [stepOf.run] at meets
  obtain ⟨⟨delta, growth, collected⟩, inside', met⟩ := meets
  have produced : after.produced = delta := collected.trans (Delta.empty_join delta)
  exact ⟨produced ▸ growth, inside', met⟩

theorem reaches_growth {reader : SubscriberId} {graph grown : Graph} {delta : Delta}
    (growth : Graph.Growth reader graph grown delta) (node : MethodContext) :
    analysis.Reaches (grown.facts 0) node ↔
      analysis.Reaches (graph.facts 0) node ∨ Opens analysis grown delta node := by
  constructor
  · rintro (entry | ⟨method, triggered, same⟩ | ⟨edge, ⟨id, named⟩, same⟩)
    · exact .inl (.inl entry)
    · by_cases earlier : graph.isInitialized method = true
      · exact .inl (.inr (.inl ⟨method, earlier, same⟩))
      · exact .inr (.inr ⟨method, (growth.initializers method).mpr ⟨triggered, earlier⟩, same⟩)
    · by_cases earlier : ∃ edge, graph.call? id = some edge
      · obtain ⟨other, named'⟩ := earlier
        obtain rfl := Option.some.inj (named.symm.trans (growth.call named'))
        exact .inl (.inr (.inr ⟨edge, ⟨id, named'⟩, same⟩))
      · exact .inr (.inl ⟨id, (growth.calls id).mpr ⟨⟨edge, named⟩, earlier⟩, edge, named, same⟩)
  · rintro (reaches | ⟨id, _, edge, named, same⟩ | ⟨method, isNew, same⟩)
    · exact reaches.mono (growth.facts_subset 0)
    · exact .inr (.inr ⟨edge, ⟨id, named⟩, same⟩)
    · exact .inr (.inl ⟨method, ((growth.initializers method).mp isNew).1, same⟩)

theorem propagate?_of_growth (invariant : Invariant analysis state) {reader : SubscriberId}
    {key : StatementId × Context} {after : EvalState}
    (scheduled : state.subscribers.key? reader = some key)
    (growth : Graph.Growth reader state.graph after.graph after.produced) :
    ∃ target, propagate? analysis ((state.erase position).withEval after) after.produced =
        (after.produced.initializers.toList.mapM analysis.program.describeMethod?).map
          (fun _ => target) ∧
      Advances ((state.erase position).withEval after) target ∧
      (∀ edge ∈ after.produced.edges, ∀ subscriber, after.graph.Watched edge.node subscriber →
        target.Owes subscriber edge) ∧
      (∀ node, node ∈ target.reached.keys ↔
        node ∈ state.reached.keys ∨ Opens analysis after.graph after.produced node) ∧
      Consistent analysis.program target := by
  have edges : ∀ edge ∈ after.produced.edges,
      ((state.erase position).withEval after).graph.HasEdge edge.node edge.object :=
    fun edge listed => ((growth.edges edge.node edge.object).mp listed).1
  have calls : ∀ id ∈ after.produced.calls, ∃ edge, after.graph.call? id = some edge :=
    fun id listed => ((growth.calls id).mp listed).1
  have watchers : ∀ node subscriber, after.graph.Watched node subscriber →
      ∃ key, state.subscribers.key? subscriber = some key := by
    intro node subscriber watched
    rcases growth.subscription watched with earlier | rfl
    · exact invariant.watchers node subscriber earlier
    · exact ⟨key, scheduled⟩
  obtain ⟨target, propagates, advances, notified, reached, consistent⟩ :=
    propagate?_spec analysis edges calls watchers
  exact ⟨target, propagates, advances, notified, reached, consistent invariant.consistent⟩

theorem StepOf.propagation (invariant : Invariant analysis state) {item : WorkItem}
    {key : StatementId × Context} {statement : Statement} {after : EvalState}
    (stepOf : StepOf analysis state position item key statement after next)
    (growth : Graph.Growth item.subscriber state.graph after.graph after.produced) :
    Advances ((state.erase position).withEval after) next ∧
      (∀ edge ∈ after.produced.edges, ∀ subscriber, after.graph.Watched edge.node subscriber →
        next.Owes subscriber edge) ∧
      (∀ node, node ∈ next.reached.keys ↔
        node ∈ state.reached.keys ∨ Opens analysis after.graph after.produced node) ∧
      Consistent analysis.program next := by
  obtain ⟨target, propagates, rest⟩ := propagate?_of_growth invariant stepOf.scheduled growth
  rw [stepOf.propagated] at propagates
  obtain ⟨_, _, rfl⟩ := Option.map_eq_some_iff.mp propagates.symm
  exact rest

private theorem seen_of_watched {subscriber reader : SubscriberId} {after : EvalState}
    {place : Place} {object : HeapObject} (valid : state.graph.Valid)
    (growth : Graph.Growth reader state.graph after.graph after.produced)
    (advances : Advances ((state.erase position).withEval after) next)
    (notified : ∀ edge ∈ after.produced.edges, ∀ subscriber,
      after.graph.Watched edge.node subscriber → next.Owes subscriber edge)
    (isSeen : .edge place object ∈ next.seen subscriber)
    (watched : .watch place ∈ next.graph.facts subscriber) :
    .edge place object ∈ (state.erase position).seen subscriber := by
  have sameGraph : next.graph = after.graph := advances.graph
  obtain ⟨node, id, _, _, same, located, named, held, free⟩ := isSeen
  cases same
  have watches : next.graph.Watched node subscriber := Graph.watched_of_watch watched located
  rw [sameGraph] at located named held watches
  have earlier : state.graph.HasEdge node id := by
    by_contra isNew
    exact free (notified ⟨node, id⟩ ((growth.edges node id).mpr ⟨held, isNew⟩) subscriber watches)
  obtain ⟨located, named⟩ := growth.names_of_hasEdge valid earlier located named
  refine ⟨node, id, place, object, rfl, located, named, earlier, ?_⟩
  rintro ⟨growth, isEdge, due⟩
  exact free ⟨growth, isEdge, advances.carries _ _ due⟩

private theorem step_invariant (pure : analysis.abstraction.policy.IsPure)
    (invariant : Invariant analysis state) (stepped : step analysis state position = .ok next) :
    Invariant analysis next := by
  obtain ⟨item, key, statement, after, stepOf⟩ := step_spec invariant stepped
  obtain ⟨growth, inside, met⟩ := stepOf.evaluated pure invariant (Set.subset_univ _)
    (Set.subset_univ _)
  obtain ⟨advances, notified, reached, consistent⟩ := stepOf.propagation invariant growth
  have sameGraph : next.graph = after.graph := advances.graph
  refine ⟨?_, ?_, ?_, consistent, ?_, ?_, ?_⟩
  · rw [sameGraph]
    exact inside.valid
  · refine advances.queued fun other member => ?_
    obtain ⟨isScheduled, within⟩ := invariant.queued other (List.mem_of_mem_eraseIdx member)
    exact ⟨isScheduled, fun more same edge listed => growth.edge (within more same edge listed)⟩
  · intro node subscriber watched
    rw [sameGraph] at watched
    rcases growth.subscription watched with earlier | rfl
    · obtain ⟨other, found⟩ := invariant.watchers node subscriber earlier
      exact ⟨other, advances.subscriber found⟩
    · exact ⟨key, advances.subscriber stepOf.scheduled⟩
  · intro node
    rw [reached, sameGraph, reaches_growth growth, invariant.reached]
  · intro method listed
    rw [sameGraph]
    exact growth.initialized (invariant.initialized method listed)
  · intro subscriber other scheduled notFull
    have scheduled : state.subscribers.key? subscriber = some other :=
      (advances.fresh scheduled).resolve_right notFull
    have notFull : ¬ (state.erase position).Due subscriber .full :=
      fun due => notFull (advances.carries _ _ due)
    refine (analysis.demand_degree other).isLocal (fun place object isSeen watched =>
      seen_of_watched invariant.valid growth advances notified isSeen watched) ?_
    rw [sameGraph]
    by_cases evaluated : subscriber = item.subscriber
    · subst evaluated
      obtain rfl := Option.some.inj (scheduled.symm.trans stepOf.scheduled)
      exact met notFull
    · have same : (state.erase position).seen subscriber ⊆ state.seen subscriber := by
        rintro _ ⟨node, id, place, object, rfl, located, named, held, free⟩
        refine ⟨node, id, place, object, rfl, located, named, held, ?_⟩
        rintro ⟨more, isEdge, due⟩
        rcases due_erase_or stepOf.found due with due | ⟨isItem, _⟩
        · exact free ⟨more, isEdge, due⟩
        · exact evaluated isItem.symm
      have notFull : ¬ state.Due subscriber .full := by
        intro due
        rcases due_erase_or stepOf.found due with due | ⟨isItem, _⟩
        · exact notFull due
        · exact evaluated isItem.symm
      exact ((analysis.demand_degree other).mono same).trans
        ((invariant.settled scheduled notFull).trans (growth.facts_subset subscriber))

/-! ## Runs -/

/-- The states that running pending items in any order leads to. -/
inductive Reachable (analysis : Analysis) (kind : SetKind) : SolverState → Prop where
  | seed : Reachable analysis kind (seed analysis kind)
  | step {state next : SolverState} {position : Nat} : Reachable analysis kind state →
      step analysis state position = .ok next → Reachable analysis kind next

def initialGraph (analysis : Analysis) (kind : SetKind) : Graph :=
  { Graph.empty kind with
    initialized := (addEach analysis.program.initializers (Graph.empty kind).initialized).2 }

theorem initialGraph_adds (analysis : Analysis) (kind : SetKind) (reader : SubscriberId) :
    ∃ delta, Graph.Adds reader (Graph.empty kind) (initialGraph analysis kind) delta
        {fact | ∃ method ∈ analysis.program.initializers, fact = .initializer method} ∧
      ∀ method ∈ analysis.program.initializers,
        (initialGraph analysis kind).isInitialized method = true := by
  obtain ⟨delta, grown, run, adds, triggered⟩ := Graph.addInitializers_run reader
    (Graph.valid_empty kind) analysis.program.initializers
  cases run
  exact ⟨_, adds, triggered⟩

theorem initialGraph_facts (analysis : Analysis) (kind : SetKind) (reader : SubscriberId) :
    (initialGraph analysis kind).facts reader =
      {fact | ∃ method ∈ analysis.program.initializers, fact = .initializer method} := by
  obtain ⟨delta, adds, triggered⟩ := initialGraph_adds analysis kind reader
  apply Set.Subset.antisymm
  · intro fact said
    exact (adds.facts said).resolve_left (Graph.not_says_empty kind reader fact)
  · rintro _ ⟨method, listed, rfl⟩
    exact triggered method listed

private theorem initialGraph_notWatched (analysis : Analysis) (kind : SetKind) (node : NodeId)
    (reader : SubscriberId) : ¬ (initialGraph analysis kind).Watched node reader := by
  obtain ⟨delta, adds, _⟩ := initialGraph_adds analysis kind (reader + 1)
  intro watched
  rcases adds.growth.subscription watched with ⟨_, found, _⟩ | same
  · cases found
  · exact Nat.succ_ne_self reader same.symm

theorem reaches_initialGraph (analysis : Analysis) (kind : SetKind) (node : MethodContext) :
    analysis.Reaches ((initialGraph analysis kind).facts 0) node ↔
      node.context = analysis.abstraction.initialContext ∧
        (node.method ∈ analysis.program.initializers ∨ node.method = analysis.program.entry) := by
  rw [initialGraph_facts]
  obtain ⟨method, context⟩ := node
  constructor
  · rintro (entry | ⟨other, ⟨_, listed, same⟩, isNode⟩ | ⟨edge, ⟨_, _, same⟩, _⟩)
    · cases entry
      exact ⟨rfl, .inr rfl⟩
    · cases same
      cases isNode
      exact ⟨rfl, .inl listed⟩
    · cases same
  · rintro ⟨same, listed | isEntry⟩
    · obtain rfl : context = _ := same
      exact .inr (.inl ⟨method, ⟨method, listed, rfl⟩, rfl⟩)
    · obtain rfl : context = _ := same
      obtain rfl : method = _ := isEntry
      exact .inl rfl

theorem seed_invariant (analysis : Analysis) (kind : SetKind) :
    Invariant analysis (seed analysis kind) := by
  let start : SolverState := { empty kind with graph := initialGraph analysis kind }
  let triggered := (addEach analysis.program.initializers (Graph.empty kind).initialized).1
  let first := (OrderedSet.ofList triggered).toList ++ [analysis.program.entry]
  have same : seed analysis kind = (first.map fun method =>
      ⟨method, analysis.abstraction.initialContext⟩).foldl (reach analysis.program) start := rfl
  obtain ⟨advances, reached, consistent⟩ := reachAll_spec analysis.program (first.map fun method =>
    ⟨method, analysis.abstraction.initialContext⟩) start
  rw [← same] at advances reached consistent
  have listed : ∀ method, method ∈ first ↔
      method ∈ analysis.program.initializers ∨ method = analysis.program.entry := by
    intro method
    obtain ⟨_, _, new⟩ := BitVectorSet.lawful.addEach analysis.program.initializers
      (Graph.empty kind).initialized trivial
    have fresh : method ∉ KeyView.snapshot (Graph.empty kind).initialized := fun held =>
      Graph.not_says_empty kind 0 (.initializer method) (BitVectorSet.mem_snapshot.mp held)
    rw [List.mem_append, List.mem_singleton, ← OrderedSet.mem_iff, OrderedSet.mem_ofList, new]
    exact or_congr_left (and_iff_left fresh)
  have noPending : ∀ item ∈ start.pending, start.Queued item := by
    intro item member
    cases member
  have sameGraph : (seed analysis kind).graph = initialGraph analysis kind := advances.graph
  refine ⟨?_, advances.queued noPending, ?_, consistent ?_, ?_, ?_, ?_⟩
  · rw [sameGraph]
    obtain ⟨_, adds, _⟩ := initialGraph_adds analysis kind 0
    exact adds.valid
  · intro node subscriber watched
    rw [sameGraph] at watched
    exact absurd watched (initialGraph_notWatched analysis kind node subscriber)
  · intro key
    constructor
    · intro member
      cases member
    · rintro ⟨node, member, _⟩
      cases member
  · intro node
    rw [sameGraph, reaches_initialGraph, reached, List.mem_map]
    constructor
    · rintro (member | ⟨method, member, rfl⟩)
      · cases member
      · exact ⟨rfl, (listed method).mp member⟩
    · rintro ⟨same, member⟩
      exact .inr ⟨node.method, (listed node.method).mpr member, same ▸ rfl⟩
  · intro method member
    rw [sameGraph]
    obtain ⟨_, _, triggered⟩ := initialGraph_adds analysis kind 0
    exact triggered method member
  · intro subscriber key scheduled notFull
    rcases advances.fresh scheduled with earlier | due
    · cases earlier
    · exact absurd due notFull

theorem Reachable.invariant (pure : analysis.abstraction.policy.IsPure)
    (reachable : Reachable analysis kind state) : Invariant analysis state := by
  induction reachable with
  | seed => exact seed_invariant analysis kind
  | step _ stepped ih => exact step_invariant pure ih stepped

theorem Reachable.run (reachable : Reachable analysis kind state) {limit : Nat}
    (ran : run analysis limit state = .ok next) : Reachable analysis kind next := by
  induction limit generalizing state with
  | zero =>
      obtain rfl : state = next := Except.ok.inj ran
      exact reachable
  | succ limit ih =>
      unfold SolverState.run at ran
      split at ran
      · obtain rfl : state = next := Except.ok.inj ran
        exact reachable
      · split at ran
        · next between stepped => exact ih (.step reachable stepped) ran
        · cases ran

end SolverState

theorem Analysis.solve_reachable {analysis : Analysis} {config : Config} {state : SolverState}
    (solved : analysis.solve config = .ok state) :
    SolverState.Reachable analysis config.setKind state :=
  SolverState.Reachable.seed.run solved

namespace Declaration.Program

/-- The results of a declared program, if it can be loaded and solved. -/
def results? (declared : Declaration.Program) (config : Config) : Option Results := do
  let program ← declared.load.toOption
  let abstraction ← (HeapAbstraction.ofConfig config).toOption
  (Results.solve ⟨program, abstraction⟩ config).toOption

private theorem results?_spec {declared : Declaration.Program} {config : Config} {results : Results}
    (found : declared.results? config = some results) :
    declared.load = .ok results.program ∧
      HeapAbstraction.ofConfig config = .ok results.analysis.abstraction ∧
      results.analysis.solve config = .ok results.state := by
  obtain ⟨program, loaded, found⟩ := Option.bind_eq_some_iff.mp found
  obtain ⟨abstraction, chosen, found⟩ := Option.bind_eq_some_iff.mp found
  have loaded := toOption_eq_some.mp loaded
  have chosen := toOption_eq_some.mp chosen
  obtain ⟨state, solved, rfl⟩ : ∃ state, Analysis.solve ⟨program, abstraction⟩ config = .ok state ∧
      ⟨⟨program, abstraction⟩, state, state.stats, !state.pending.isEmpty⟩ = results := by
    have found := toOption_eq_some.mp found
    unfold Results.solve at found
    cases solved : Analysis.solve ⟨program, abstraction⟩ config with
    | error failure => rw [solved] at found; cases found
    | ok state => rw [solved] at found; exact ⟨state, rfl, Except.ok.inj found⟩
  exact ⟨loaded, chosen, solved⟩

theorem exists_finished (declared : Declaration.Program) (config : Config)
    (property : Results → Prop) [DecidablePred property]
    (checked : (declared.results? config).any (fun results =>
      results.state.pending.isEmpty ∧ property results) = true) :
    ∃ results : Results, declared.load = .ok results.program ∧
      HeapAbstraction.ofConfig config = .ok results.analysis.abstraction ∧
      results.analysis.solve config = .ok results.state ∧ results.state.pending = [] ∧
      property results := by
  obtain ⟨results, found, checked⟩ := (Option.any_eq_true _ _).mp checked
  obtain ⟨done, holds⟩ := of_decide_eq_true checked
  obtain ⟨loaded, chosen, solved⟩ := results?_spec found
  exact ⟨results, loaded, chosen, solved, List.isEmpty_iff.mp done, holds⟩

end Declaration.Program

end ObjectFlow
