import ObjectFlow.Proofs.Evaluation.Finite
import ObjectFlow.Proofs.Evaluation.Produce
import ObjectFlow.Proofs.Evaluation.Rounds

/-!
# Incremental evaluation

A statement is done with a graph, and then others make the graph grow.  It is
enough to evaluate the statement on what its nodes have got since, and then on
what it adds to them itself: this fails exactly if full evaluations fail, and
leads to the same graph.
-/

namespace ObjectFlow

open Effect Demand

namespace Frame

variable {frame : Frame} {statement : Statement} {graph grown : Graph} {growth : Delta}

/-- A full evaluation on the graph adds nothing and reads no node that the statement does not
subscribe to already. -/
def DoneWith (frame : Frame) (statement : Statement) (graph : Graph) : Prop :=
  ∃ requests after, frame.evaluate statement .full ⟨graph, requests, ∅⟩ = (.ok (), after) ∧
    after.produced = ∅ ∧
    ∀ node, after.graph.Watched node frame.subscriber → graph.Watched node frame.subscriber

/-- For the nodes that the statement subscribes to the delta holds what the grown graph adds. -/
structure Renews (frame : Frame) (graph grown : Graph) (growth : Delta) : Prop where
  extend : graph.Extends grown
  within : ∀ node, ∀ id ∈ growth.objectsOf node, grown.HasEdge node id
  exact : ∀ node, graph.Watched node frame.subscriber → ∀ id,
    id ∈ growth.objectsOf node ↔ grown.HasEdge node id ∧ ¬ graph.HasEdge node id

private theorem facts_of_adds_nothing {reader : SubscriberId} (valid : graph.Valid)
    (growth : Graph.Growth reader graph grown ∅)
    (subscribed : ∀ node, grown.Watched node reader → graph.Watched node reader) :
    grown.facts reader ⊆ graph.facts reader ∪ mentions := by
  intro fact said
  cases fact with
  | object object => exact .inr trivial
  | node place => exact .inr trivial
  | edge place object => exact .inl (growth.listed_of_empty valid trivial said)
  | call edge => exact .inl (growth.listed_of_empty valid trivial said)
  | initializer method => exact .inl (growth.listed_of_empty valid trivial said)
  | watch place =>
      obtain ⟨node, located, watched⟩ := said
      have watched := subscribed node watched
      obtain ⟨readers, found, _⟩ := id watched
      obtain ⟨data, payload, _⟩ := Option.map_eq_some_iff.mp found
      obtain ⟨key, isNode⟩ := Graph.node?_of_payload? payload
      obtain ⟨place', located'⟩ := valid.place?_of_node? isNode
      obtain rfl := Option.some.inj ((growth.place located').symm.trans located)
      exact .inl ⟨node, located', watched⟩
  | failure => exact said.elim

private theorem DoneWith.settled (done : frame.DoneWith statement graph)
    (pure : frame.abstraction.policy.IsPure) (valid : graph.Valid) :
    frame.Settled statement graph := by
  obtain ⟨requests, after, run, addsNothing, subscribed⟩ := done
  have ready : frame.Ready statement .full graph := trivial
  obtain ⟨pass, _⟩ := evaluate_passes pure valid ready (Set.subset_univ _) (Set.subset_univ _) run
  have growth := pass.growth
  rw [addsNothing] at growth
  refine pass.met.trans (Set.union_subset ?_ Set.subset_union_right)
  exact facts_of_adds_nothing valid growth subscribed

private theorem Renews.ready (renews : frame.Renews graph grown growth) (valid : graph.Valid)
    (settled : frame.Settled statement graph) :
    frame.Ready statement (.delta growth) grown := by
  have extend := renews.extend
  refine ready_of_watched settled
    (Set.union_subset_union_left _ (extend.facts_subset _)) (renews.within · ·) ?_
  intro node id place object located named held unlisted watched
  obtain ⟨node', located', watched⟩ := watched.resolve_right fun mention => mention.elim
  obtain rfl := Graph.place?_injective (extend.place located') located
  have earlier : graph.HasEdge node' id := by
    by_contra isNew
    exact unlisted ((renews.exact node' watched id).mpr ⟨held, isNew⟩)
  obtain ⟨located, named⟩ := extend.names_of_hasEdge valid earlier located named
  exact ⟨node', id, located, named, earlier⟩

/-- Evaluating what is new, round by round, ends exactly if evaluating in full again and again
does.  Both then fail, or lead to graphs with the same edges, calls and initializers.  Under a tame
policy they always end. -/
theorem incremental_agrees_with_full (pure : frame.abstraction.policy.IsPure)
    (valid : graph.Valid) (grownValid : grown.Valid) (done : frame.DoneWith statement graph)
    (renews : frame.Renews graph grown growth) (requests requests' : Requests) :
    let incremental := fun limit =>
      frame.rounds statement frame.followGrowth limit (.delta growth) ⟨grown, requests, ∅⟩
    let full := fun limit =>
      frame.rounds statement followAll limit .full ⟨grown, requests', ∅⟩
    (∀ limit limit' outcome outcome', incremental limit = some outcome →
      full limit' = some outcome' → Alike outcome outcome') ∧
    ((∃ limit outcome, incremental limit = some outcome) ↔
      ∃ limit outcome, full limit = some outcome) ∧
    (frame.abstraction.policy.Tame → ∃ limit outcome, full limit = some outcome) := by
  intro incremental full
  have poised : frame.Poised statement (.delta growth, ⟨grown, requests, ∅⟩) :=
    ⟨grownValid, renews.ready valid (done.settled pure valid)⟩
  have poised' : frame.Poised statement (.full, ⟨grown, requests', ∅⟩) := ⟨grownValid, trivial⟩
  have thorough := frame.followGrowth_thorough statement
  have thorough' := frame.followAll_thorough statement
  refine ⟨fun limit limit' outcome outcome' ends ends' => ?_, ⟨fun ends => ?_, fun ends => ?_⟩,
    fun tame => ?_⟩
  · exact rounds_alike pure thorough thorough' poised poised' rfl ends ends'
  · exact ends_of_ends pure thorough thorough' poised poised' rfl ends
  · exact ends_of_ends pure thorough' thorough poised' poised rfl ends
  · obtain ⟨bound, inside, closed, finite⟩ :=
      exists_bound tame statement grown frame.subscriber
    exact ends_of_finite pure thorough' poised' inside closed finite

end Frame

/-! ## Walking down a growing chain -/

private theorem chain_done : chainFrame.DoneWith chainStatement (.after .hashed chainStart) := by
  let start : EvalState := ⟨.after .hashed chainStart, ⟨0, 0⟩, ∅⟩
  have checked : (chainFrame.evaluate chainStatement .full start).1.toOption = some () ∧
      (chainFrame.evaluate chainStatement .full start).2.produced = ∅ ∧
      (chainFrame.evaluate chainStatement .full start).2.graph.nodes.size = 2 := by
    decide +kernel
  have readers : ∀ node < 2, start.graph.subscribers? node = some (.singleton 0) := by
    decide +kernel
  cases run : chainFrame.evaluate chainStatement .full start with
  | mk outcome after =>
      rw [run] at checked
      obtain ⟨ok, addsNothing, size⟩ := checked
      cases toOption_eq_some.mp ok
      refine ⟨⟨0, 0⟩, after, run, addsNothing, fun node watched => ?_⟩
      have below : node < 2 := size ▸ watched.lt_size
      exact ⟨_, readers node below, OrderedSet.mem_singleton.mpr rfl⟩

private theorem chain_renews :
    chainFrame.Renews (.after .hashed chainStart) chainGraph (.ofEdges 1 (.singleton 1)) where
  extend := Graph.extends_after _ _ _
  within node id listed := by
    obtain ⟨isNode, isObject⟩ := Delta.mem_ofEdges.mp (Delta.mem_objectsOf.mp listed)
    obtain rfl : node = 1 := isNode
    obtain rfl : id = 1 := OrderedSet.mem_singleton.mp isObject
    decide +kernel
  exact node watched id := by
    have size : (Graph.after .hashed chainStart).nodes.size = 2 := by decide +kernel
    have held : (Graph.after .hashed chainStart).pointsTo? 0 = some (.singleton 0) ∧
        chainGraph.pointsTo? 0 = some (.singleton 0) ∧
        (Graph.after .hashed chainStart).pointsTo? 1 = some ∅ ∧
        chainGraph.pointsTo? 1 = some (.singleton 1) := by decide +kernel
    obtain ⟨first, first', second, second'⟩ := held
    have below : node < 2 := size ▸ watched.lt_size
    rw [Delta.mem_objectsOf, Delta.mem_ofEdges]
    rcases Nat.le_one_iff_eq_zero_or_eq_one.mp (Nat.le_of_lt_succ below) with rfl | rfl
    · simp [Graph.HasEdge, first, first']
    · simp [Graph.HasEdge, second, second', OrderedSet.not_mem_empty]

theorem incremental_agrees_with_full_chained : ∃ last last',
    HeapAbstraction.ofConfig { Config.default with policy := "insensitive" } =
      .ok chainFrame.abstraction ∧
    chainFrame.abstraction.policy.Tame ∧
    (∃ limit outcome, chainFrame.rounds chainStatement Frame.followAll limit .full
      ⟨chainGraph, ⟨0, 0⟩, ∅⟩ = some outcome) ∧
    chainFrame.rounds chainStatement chainFrame.followGrowth 4
      (.delta (.ofEdges 1 (.singleton 1))) ⟨chainGraph, ⟨0, 0⟩, ∅⟩ = some (.ok last) ∧
    chainFrame.rounds chainStatement Frame.followAll 4 .full ⟨chainGraph, ⟨0, 0⟩, ∅⟩ =
      some (.ok last') ∧
    last.HasEdge 0 2 ∧ Frame.Alike (.ok last) (.ok last') := by
  have named : (Graph.after .hashed chainStart).isNamed ∧ chainGraph.isNamed := by decide +kernel
  have chosen : HeapAbstraction.ofConfig { Config.default with policy := "insensitive" } =
      .ok chainFrame.abstraction := rfl
  have tame := HeapAbstraction.tame_of_config chosen
  have agrees := Frame.incremental_agrees_with_full (HeapAbstraction.isPure_of_config chosen)
    (Graph.valid_of_isNamed (Graph.setsValid_after _ _) named.1)
    (Graph.valid_of_isNamed (Graph.setsValid_after _ _) named.2)
    chain_done chain_renews ⟨0, 0⟩ ⟨0, 0⟩
  have checked :
      ((chainFrame.rounds chainStatement chainFrame.followGrowth 4
        (.delta (.ofEdges 1 (.singleton 1))) ⟨chainGraph, ⟨0, 0⟩, ∅⟩).bind Except.toOption).any
          (·.HasEdge 0 2) = true ∧
      ((chainFrame.rounds chainStatement Frame.followAll 4 .full
        ⟨chainGraph, ⟨0, 0⟩, ∅⟩).bind Except.toOption).isSome = true := by
    decide +kernel
  obtain ⟨last, found, held⟩ := (Option.any_eq_true _ _).mp checked.1
  obtain ⟨last', found'⟩ := Option.isSome_iff_exists.mp checked.2
  obtain ⟨outcome, incremental, isLast⟩ := Option.bind_eq_some_iff.mp found
  obtain ⟨outcome', full, isLast'⟩ := Option.bind_eq_some_iff.mp found'
  rw [toOption_eq_some] at isLast isLast'
  subst isLast isLast'
  exact ⟨last, last', chosen, tame, agrees.2.2 tame, incremental, full, of_decide_eq_true held,
    agrees.1 4 4 _ _ incremental full⟩

end ObjectFlow
