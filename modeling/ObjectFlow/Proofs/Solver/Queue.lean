import ObjectFlow.Proofs.Evaluation.Reading
import ObjectFlow.Solver.Basic

/-!
# Scheduling

Scheduling never loses work: what was pending for a subscriber stays pending,
perhaps joined with more (`Carries`).  Making methods reachable keeps the tables
of the solver in step with each other (`Consistent`): the scheduled statements
are those of the reachable methods.
-/

namespace ObjectFlow

namespace View

def Within : View → View → Prop
  | _, .full => True
  | .delta growth, .delta more => ∀ edge ∈ growth.edges, edge ∈ more.edges
  | .full, .delta _ => False

theorem Within.refl (view : View) : view.Within view := by
  cases view with
  | full => trivial
  | delta growth => exact fun _ member => member

theorem Within.trans {view more most : View} (first : view.Within more)
    (second : more.Within most) : view.Within most := by
  cases most with
  | full => cases view <;> trivial
  | delta last =>
      cases more with
      | full => exact second.elim
      | delta growth =>
          cases view with
          | full => exact first.elim
          | delta start => exact fun edge member => second edge (first edge member)

private theorem within_join_left (view other : View) : view.Within (view.join other) := by
  cases view <;> cases other
  · trivial
  · trivial
  · trivial
  · exact fun _ member => EdgeMap.mem_union.mpr (.inl member)

private theorem within_join_right (view other : View) : other.Within (view.join other) := by
  cases view <;> cases other
  · trivial
  · trivial
  · trivial
  · exact fun _ member => EdgeMap.mem_union.mpr (.inr member)

def OnGraph (view : View) (graph : Graph) : Prop :=
  ∀ growth, view = .delta growth → ∀ edge ∈ growth.edges, graph.HasEdge edge.node edge.object

private theorem OnGraph.join {graph : Graph} {view other : View} (here : view.OnGraph graph)
    (there : other.OnGraph graph) : (view.join other).OnGraph graph := by
  intro growth same edge member
  cases view with
  | full => cases same
  | delta first =>
      cases other with
      | full => cases same
      | delta second =>
          cases same
          rcases EdgeMap.mem_union.mp member with found | found
          · exact here first rfl edge found
          · exact there second rfl edge found

end View

namespace SolverState

variable {program : Program} {state next last : SolverState}

def Due (state : SolverState) (subscriber : SubscriberId) (view : View) : Prop :=
  ∃ item ∈ state.pending, item.subscriber = subscriber ∧ view.Within item.view

def Carries (state next : SolverState) : Prop :=
  ∀ subscriber view, state.Due subscriber view → next.Due subscriber view

/-! ## Enqueueing -/

private theorem mem_enqueue {item other : WorkItem}
    (member : other ∈ (state.enqueue item).pending) :
    other ∈ state.pending ∨ other.subscriber = item.subscriber ∧ (other.view = item.view ∨
      ∃ queued ∈ state.pending, queued.subscriber = item.subscriber ∧
        other.view = queued.view.join item.view) := by
  unfold enqueue at member
  split at member
  · obtain ⟨queued, listed, rfl⟩ := List.mem_map.mp member
    split
    · next same => exact .inr ⟨same, .inr ⟨queued, listed, same, rfl⟩⟩
    · exact .inl listed
  · rcases List.mem_append.mp member with listed | added
    · exact .inl listed
    · obtain rfl := List.mem_singleton.mp added
      exact .inr ⟨rfl, .inl rfl⟩

private theorem enqueue_carries (state : SolverState) (item : WorkItem) :
    Carries state (state.enqueue item) := by
  rintro subscriber view ⟨queued, listed, rfl, within⟩
  unfold enqueue Due
  split
  · by_cases same : queued.subscriber = item.subscriber
    · refine ⟨_, List.mem_map_of_mem listed, ?_, ?_⟩
      · simp only [same, if_true]
      · simp only [same, if_true]
        exact within.trans (View.within_join_left _ _)
    · refine ⟨_, List.mem_map_of_mem listed, ?_, ?_⟩
      · simp only [same, if_false]
      · simp only [same, if_false]
        exact within
  · exact ⟨queued, List.mem_append_left _ listed, rfl, within⟩

theorem enqueue_due (state : SolverState) (item : WorkItem) :
    (state.enqueue item).Due item.subscriber item.view := by
  unfold enqueue Due
  split
  · next found =>
      obtain ⟨queued, listed, same⟩ := List.any_eq_true.mp found
      have same : queued.subscriber = item.subscriber := of_decide_eq_true same
      refine ⟨_, List.mem_map_of_mem listed, ?_, ?_⟩
      · simp only [same, if_true]
      · simp only [same, if_true]
        exact View.within_join_right _ _
  · exact ⟨item, List.mem_append_right _ (List.mem_singleton_self item), rfl, .refl _⟩

@[simp] theorem enqueue_graph (state : SolverState) (item : WorkItem) :
    (state.enqueue item).graph = state.graph := by
  unfold enqueue
  split <;> rfl

@[simp] theorem enqueue_subscribers (state : SolverState) (item : WorkItem) :
    (state.enqueue item).subscribers = state.subscribers := by
  unfold enqueue
  split <;> rfl

@[simp] theorem enqueue_reached (state : SolverState) (item : WorkItem) :
    (state.enqueue item).reached = state.reached := by
  unfold enqueue
  split <;> rfl

/-! ## Scheduling more -/

def Queued (state : SolverState) (item : WorkItem) : Prop :=
  (∃ key, state.subscribers.key? item.subscriber = some key) ∧ item.view.OnGraph state.graph

/-- The second state has more work than the first, on the same graph.  Subscribers that are new
are to be evaluated in full. -/
structure Advances (state next : SolverState) : Prop where
  graph : next.graph = state.graph
  carries : Carries state next
  subscriber : ∀ {id key}, state.subscribers.key? id = some key →
    next.subscribers.key? id = some key
  fresh : ∀ {id key}, next.subscribers.key? id = some key →
    state.subscribers.key? id = some key ∨ next.Due id .full
  queued : (∀ item ∈ state.pending, state.Queued item) → ∀ item ∈ next.pending, next.Queued item

namespace Advances

theorem refl (state : SolverState) : Advances state state :=
  ⟨rfl, fun _ _ due => due, id, .inl, id⟩

theorem trans (first : Advances state next) (second : Advances next last) :
    Advances state last where
  graph := second.graph.trans first.graph
  carries subscriber view due := second.carries subscriber view (first.carries subscriber view due)
  subscriber found := second.subscriber (first.subscriber found)
  fresh found := by
    rcases second.fresh found with earlier | due
    · rcases first.fresh earlier with earliest | due
      · exact .inl earliest
      · exact .inr (second.carries _ _ due)
    · exact .inr due
  queued all := second.queued (first.queued all)

private theorem foldl {α : Type} {change : SolverState → α → SolverState} {items : List α}
    (each : ∀ item ∈ items, ∀ state, Advances state (change state item)) :
    Advances state (items.foldl change state) := by
  induction items generalizing state with
  | nil => exact refl state
  | cons item items ih =>
      exact (each item List.mem_cons_self state).trans
        (ih fun other member => each other (List.mem_cons_of_mem _ member))

end Advances

private theorem enqueue_queued {item : WorkItem} (all : ∀ item ∈ state.pending, state.Queued item)
    (new : state.Queued item) :
    ∀ other ∈ (state.enqueue item).pending, (state.enqueue item).Queued other := by
  intro other member
  unfold Queued
  rw [enqueue_subscribers, enqueue_graph]
  rcases mem_enqueue member with listed | ⟨same, here | ⟨queued, listed, _, joined⟩⟩
  · exact all other listed
  · rw [same, here]
    exact new
  · rw [same, joined]
    exact ⟨new.1, (all queued listed).2.join new.2⟩

theorem enqueue_advances {item : WorkItem} (new : state.Queued item) :
    Advances state (state.enqueue item) where
  graph := enqueue_graph state item
  carries := enqueue_carries state item
  subscriber found := by rw [enqueue_subscribers]; exact found
  fresh found := by rw [enqueue_subscribers] at found; exact .inl found
  queued all := enqueue_queued all new

private theorem schedule_advances (context : Context) (state : SolverState)
    (statement : StatementId) : Advances state (state.schedule context statement) := by
  let key := (statement, context)
  let id := (state.subscribers.intern key ()).1.1
  let named : SolverState := { state with subscribers := (state.subscribers.intern key ()).2 }
  have interned : named.subscribers.key? id = some key := Interner.key?_intern_self
  have new : named.Queued ⟨id, .full⟩ := ⟨⟨key, interned⟩, fun _ same => by cases same⟩
  have rest : Advances named (named.enqueue ⟨id, .full⟩) := enqueue_advances new
  have due : (named.enqueue ⟨id, .full⟩).Due id .full := enqueue_due named ⟨id, .full⟩
  show Advances state (named.enqueue ⟨id, .full⟩)
  exact
    { graph := rest.graph
      carries := rest.carries
      subscriber := fun found => rest.subscriber (Interner.key?_intern found)
      fresh := by
        intro other key' found
        rcases rest.fresh found with earlier | due'
        · rcases Interner.key?_intern_cases earlier with earliest | ⟨rfl, _⟩
          · exact .inl earliest
          · exact .inr due
        · exact .inr due'
      queued := by
        intro all
        refine rest.queued fun item member => ?_
        obtain ⟨⟨key', found⟩, within⟩ := all item member
        exact ⟨⟨key', Interner.key?_intern found⟩, within⟩ }

private theorem mem_keys_schedule {context : Context} {statement : StatementId}
    {key : StatementId × Context} :
    key ∈ (state.schedule context statement).subscribers.keys ↔
      key ∈ state.subscribers.keys ∨ key = (statement, context) := by
  show key ∈ (enqueue _ _).subscribers.keys ↔ _
  rw [enqueue_subscribers]
  exact Interner.mem_keys_intern

private theorem schedule_reached (context : Context) (state : SolverState)
    (statement : StatementId) : (state.schedule context statement).reached = state.reached := by
  show (enqueue _ _).reached = _
  rw [enqueue_reached]

/-! ## Reaching methods -/

def StatementOf (program : Program) (nodes : List MethodContext) (key : StatementId × Context) :
    Prop :=
  ∃ node ∈ nodes, key.1 ∈ program.statementsOf node.method ∧ key.2 = node.context

def Consistent (program : Program) (state : SolverState) : Prop :=
  ∀ key, key ∈ state.subscribers.keys ↔ StatementOf program state.reached.keys key

private theorem mem_keys_foldl_schedule {context : Context} {ids : List StatementId}
    {key : StatementId × Context} :
    key ∈ (ids.foldl (schedule context) state).subscribers.keys ↔
      key ∈ state.subscribers.keys ∨ key.1 ∈ ids ∧ key.2 = context := by
  induction ids generalizing state with
  | nil => simp
  | cons id ids ih =>
      rw [List.foldl_cons, ih, mem_keys_schedule, List.mem_cons, Prod.ext_iff]
      tauto

private theorem foldl_schedule_reached {context : Context} {ids : List StatementId} :
    (ids.foldl (schedule context) state).reached = state.reached := by
  induction ids generalizing state with
  | nil => rfl
  | cons id ids ih => rw [List.foldl_cons, ih, schedule_reached]

private theorem reach_advances (program : Program) (state : SolverState) (node : MethodContext) :
    Advances state (state.reach program node) := by
  unfold reach
  dsimp only
  split
  · have start : Advances state { state with reached := (state.reached.intern node ()).2 } :=
      ⟨rfl, fun _ _ due => due, id, .inl, id⟩
    exact start.trans (.foldl fun id _ state => schedule_advances node.context state id)
  · exact .refl state

theorem mem_reached_reach {node other : MethodContext} :
    other ∈ (state.reach program node).reached.keys ↔
      other ∈ state.reached.keys ∨ other = node := by
  unfold reach
  dsimp only
  split
  · rw [foldl_schedule_reached]
    exact Interner.mem_keys_intern
  · next known =>
      rw [Interner.intern_new_iff, not_not] at known
      exact (or_iff_left_of_imp fun same => same ▸ known).symm

private theorem reach_consistent (consistent : Consistent program state) (node : MethodContext) :
    Consistent program (state.reach program node) := by
  intro key
  unfold StatementOf
  simp only [mem_reached_reach]
  unfold reach
  dsimp only
  split
  · rw [mem_keys_foldl_schedule]
    refine (or_congr_left (consistent key)).trans ?_
    constructor
    · rintro (⟨other, member, rest⟩ | rest)
      · exact ⟨other, .inl member, rest⟩
      · exact ⟨node, .inr rfl, rest⟩
    · rintro ⟨other, member | rfl, rest⟩
      · exact .inl ⟨other, member, rest⟩
      · exact .inr rest
  · next known =>
      rw [Interner.intern_new_iff, not_not] at known
      refine (consistent key).trans ?_
      constructor
      · rintro ⟨other, member, rest⟩
        exact ⟨other, .inl member, rest⟩
      · rintro ⟨other, member | rfl, rest⟩
        · exact ⟨other, member, rest⟩
        · exact ⟨other, known, rest⟩

theorem reachAll_spec (program : Program) (nodes : List MethodContext) (state : SolverState) :
    Advances state (nodes.foldl (reach program) state) ∧
      (∀ other, other ∈ (nodes.foldl (reach program) state).reached.keys ↔
        other ∈ state.reached.keys ∨ other ∈ nodes) ∧
      (Consistent program state → Consistent program (nodes.foldl (reach program) state)) := by
  induction nodes generalizing state with
  | nil => exact ⟨.refl state, by simp, id⟩
  | cons node nodes ih =>
      obtain ⟨advances, members, consistent⟩ := ih (state.reach program node)
      refine ⟨(reach_advances program state node).trans advances, fun other => ?_, fun start => ?_⟩
      · rw [List.foldl_cons, members, mem_reached_reach, List.mem_cons, or_assoc]
      · exact consistent (reach_consistent start node)

/-! ## Propagation -/

/-- Every subscriber of a node that grew is told of the growth, and nobody of anything else. -/
theorem notifications?_spec {graph : Graph} {delta : Delta}
    (edges : ∀ edge ∈ delta.edges, graph.HasEdge edge.node edge.object) :
    ∃ work, notifications? graph delta = some work ∧
      (∀ item ∈ work, (∃ node, graph.Watched node item.subscriber) ∧
        ∃ growth, item.view = .delta growth ∧ ∀ edge ∈ growth.edges, edge ∈ delta.edges) ∧
      ∀ edge ∈ delta.edges, ∀ subscriber, graph.Watched edge.node subscriber →
        ∃ growth, ⟨subscriber, .delta growth⟩ ∈ work ∧ edge ∈ growth.edges := by
  let look := fun node => (graph.subscribers? node).map fun subscribers => (node, subscribers)
  have found : ∀ node ∈ delta.nodes.toList, ∃ entry, look node = some entry := by
    intro node member
    obtain ⟨edge, listed, rfl⟩ := Delta.mem_nodes.mp member
    obtain ⟨objects, held, _⟩ := edges edge listed
    obtain ⟨data, payload, _⟩ := Option.map_eq_some_iff.mp held
    exact ⟨(edge.node, data.subscribers.snapshot), by simp [look, Graph.subscribers?, payload]⟩
  obtain ⟨growth, looked, sound, complete⟩ := mapM_option found
  -- `look` is the body of the loop as a function, which `mapM_option` can be applied to
  have same : (delta.nodes.toList.mapM fun node => do
      let subscribers ← graph.subscribers? node
      pure (node, subscribers)) = some growth := by
    rw [← looked]
    congr 1
    funext node
    cases held : graph.subscribers? node <;> simp [look, held]
  refine ⟨_, by simp only [notifications?, same]; rfl, ?_, ?_⟩
  · intro item member
    obtain ⟨subscriber, listed, rfl⟩ := List.mem_map.mp member
    refine ⟨?_, _, rfl, fun edge member => (EdgeMap.mem_restrict.mp member).1⟩
    rcases OrderedSet.mem_foldl_union.mp listed with nothing | ⟨set, isSet, member⟩
    · exact absurd nothing (OrderedSet.not_mem_empty subscriber)
    · obtain ⟨entry, isEntry, rfl⟩ := List.mem_map.mp isSet
      obtain ⟨node, _, looks⟩ := sound entry isEntry
      obtain ⟨readers, held, rfl⟩ := Option.map_eq_some_iff.mp looks
      exact ⟨node, readers, held, member⟩
  · rintro edge listed subscriber ⟨readers, held, member⟩
    obtain ⟨entry, isEntry, looks⟩ := complete edge.node (Delta.mem_nodes.mpr ⟨edge, listed, rfl⟩)
    obtain ⟨readers', held', rfl⟩ := Option.map_eq_some_iff.mp looks
    obtain rfl := Option.some.inj (held.symm.trans held')
    refine ⟨_, List.mem_map.mpr ⟨subscriber, ?_, rfl⟩, EdgeMap.mem_restrict.mpr ⟨listed, ?_⟩⟩
    · exact OrderedSet.mem_foldl_union.mpr
        (.inr ⟨readers, List.mem_map.mpr ⟨_, isEntry, rfl⟩, member⟩)
    · rw [List.contains_iff_mem]
      exact List.mem_map.mpr ⟨_, List.mem_filter.mpr ⟨isEntry,
        OrderedSet.contains_iff.mpr member⟩, rfl⟩

private theorem enqueueAll_spec {work : List WorkItem}
    (queued : ∀ item ∈ work, state.Queued item) :
    Advances state (work.foldl enqueue state) ∧
      (work.foldl enqueue state).subscribers = state.subscribers ∧
      (work.foldl enqueue state).reached = state.reached ∧
      ∀ item ∈ work, (work.foldl enqueue state).Due item.subscriber item.view := by
  induction work generalizing state with
  | nil => exact ⟨.refl state, rfl, rfl, by simp⟩
  | cons item work ih =>
      have here := queued item List.mem_cons_self
      have first := enqueue_advances here
      have rest : ∀ other ∈ work, (state.enqueue item).Queued other := by
        intro other member
        have there := queued other (List.mem_cons_of_mem _ member)
        unfold Queued
        rw [enqueue_subscribers, enqueue_graph]
        exact there
      obtain ⟨advances, subscribers, reached, due⟩ := ih rest
      refine ⟨first.trans advances, ?_, ?_, ?_⟩
      · rw [List.foldl_cons, subscribers, enqueue_subscribers]
      · rw [List.foldl_cons, reached, enqueue_reached]
      · intro other member
        rcases List.mem_cons.mp member with rfl | member
        · exact advances.carries _ _ (enqueue_due state other)
        · exact due other member

def Opens (analysis : Analysis) (graph : Graph) (delta : Delta) (node : MethodContext) : Prop :=
  (∃ id ∈ delta.calls, ∃ edge, graph.call? id = some edge ∧ node = edge.target) ∨
    ∃ method ∈ delta.initializers, node = ⟨method, analysis.abstraction.initialContext⟩

theorem propagate?_spec (analysis : Analysis) {delta : Delta}
    (edges : ∀ edge ∈ delta.edges, state.graph.HasEdge edge.node edge.object)
    (calls : ∀ id ∈ delta.calls, ∃ edge, state.graph.call? id = some edge)
    (watchers : ∀ node subscriber, state.graph.Watched node subscriber →
      ∃ key, state.subscribers.key? subscriber = some key) :
    ∃ next, propagate? analysis state delta =
        (delta.initializers.toList.mapM analysis.program.describeMethod?).map (fun _ => next) ∧
      Advances state next ∧
      (∀ edge ∈ delta.edges, ∀ subscriber, state.graph.Watched edge.node subscriber →
        ∃ growth, edge ∈ growth.edges ∧ next.Due subscriber (.delta growth)) ∧
      (∀ node, node ∈ next.reached.keys ↔
        node ∈ state.reached.keys ∨ Opens analysis state.graph delta node) ∧
      (Consistent analysis.program state → Consistent analysis.program next) := by
  obtain ⟨work, notified, sound, complete⟩ := notifications?_spec edges
  obtain ⟨targets, called, callSound, callComplete⟩ :=
    mapM_option (show ∀ id ∈ delta.calls.toList, _ from calls)
  have queued : ∀ item ∈ work, state.Queued item := by
    intro item member
    obtain ⟨⟨node, watched⟩, growth, same, within⟩ := sound item member
    refine ⟨watchers node item.subscriber watched, ?_⟩
    rw [same]
    rintro _ ⟨⟩ edge isEdge
    exact edges edge (within edge isEdge)
  obtain ⟨enqueued, subscribers, reached, due⟩ := enqueueAll_spec queued
  obtain ⟨first, firstReached, firstConsistent⟩ :=
    reachAll_spec analysis.program (targets.map CallEdge.target) (work.foldl enqueue state)
  obtain ⟨second, secondReached, secondConsistent⟩ := reachAll_spec analysis.program
    (delta.initializers.toList.map fun method => ⟨method, analysis.abstraction.initialContext⟩)
    ((targets.map CallEdge.target).foldl (reach analysis.program) (work.foldl enqueue state))
  refine ⟨_, ?_, enqueued.trans (first.trans second), ?_, ?_, ?_⟩
  · simp only [propagate?, notified, called]
    cases delta.initializers.toList.mapM analysis.program.describeMethod? <;> rfl
  · intro edge member subscriber watched
    obtain ⟨growth, listed, isEdge⟩ := complete edge member subscriber watched
    exact ⟨growth, isEdge, second.carries _ _ (first.carries _ _ (due _ listed))⟩
  · intro node
    rw [secondReached, firstReached, reached, or_assoc]
    refine or_congr_right (or_congr ?_ ?_)
    · rw [List.mem_map]
      constructor
      · rintro ⟨edge, listed, rfl⟩
        obtain ⟨id, isCall, named⟩ := callSound edge listed
        exact ⟨id, isCall, edge, named, rfl⟩
      · rintro ⟨id, isCall, edge, named, rfl⟩
        obtain ⟨edge', listed, named'⟩ := callComplete id isCall
        obtain rfl := Option.some.inj (named.symm.trans named')
        exact ⟨edge, listed, rfl⟩
    · rw [List.mem_map]
      constructor
      · rintro ⟨method, isNew, rfl⟩
        exact ⟨method, isNew, rfl⟩
      · rintro ⟨method, isNew, rfl⟩
        exact ⟨method, isNew, rfl⟩
  · intro consistent
    refine secondConsistent (firstConsistent fun key => ?_)
    rw [subscribers, reached]
    exact consistent key

end SolverState

end ObjectFlow
