import ObjectFlow.Proofs.Evaluation.Degree
import ObjectFlow.Proofs.Evaluation.Logic

/-!
# The operations of an evaluation

What the single operations of an evaluation meet: naming nodes and objects,
adding edges, asking the policy.  An evaluation handles ids; `Names` says for
which objects the ids in a set stand.
-/

namespace ObjectFlow

open Effect Eval

structure Names (graph : Graph) (ids : IdSet) (least most : Set HeapObject) : Prop where
  sound : ∀ id ∈ ids, ∃ object ∈ most, graph.object? id = some object
  complete : ∀ object ∈ least, ∃ id ∈ ids, graph.object? id = some object

namespace Names

variable {reader : SubscriberId} {graph : Graph} {ids : IdSet} {least most : Set HeapObject}

theorem stable (ids : IdSet) (least most : Set HeapObject) :
    Stable reader fun state => Names state.graph ids least most := by
  intro state after grows names
  constructor
  · intro id member
    obtain ⟨object, allowed, named⟩ := names.sound id member
    exact ⟨object, allowed, grows.object named⟩
  · intro object wanted
    obtain ⟨id, member, named⟩ := names.complete object wanted
    exact ⟨id, member, grows.object named⟩

theorem named (names : Names graph ids least most) (id : ObjectId) (member : id ∈ ids) :
    ∃ object, graph.object? id = some object := by
  obtain ⟨object, _, found⟩ := names.sound id member
  exact ⟨object, found⟩

private theorem singleton {id : ObjectId} {object : HeapObject}
    (named : graph.object? id = some object) :
    Names graph (OrderedSet.singleton id) {object} {object} where
  sound other member := by
    obtain rfl := OrderedSet.mem_singleton.mp member
    exact ⟨object, rfl, named⟩
  complete other same := by
    obtain rfl := same
    exact ⟨id, OrderedSet.mem_singleton.mpr rfl, named⟩

theorem named_before {state after : EvalState} {id : ObjectId} {object : HeapObject}
    (names : Names state.graph ids least most) (member : id ∈ ids)
    (grows : Grows reader state after) (named : after.graph.object? id = some object) :
    state.graph.object? id = some object := by
  obtain ⟨other, _, named'⟩ := names.sound id member
  exact Option.some.inj (named.symm.trans (grows.object named')) ▸ named'

theorem listed (names : Names graph ids least most) :
    Names graph ids {object | ∃ id ∈ ids, graph.object? id = some object} most :=
  ⟨names.sound, fun _ found => found⟩

theorem without (names : Names graph ids least most) (others : IdSet) :
    Names graph (ids.filter fun id => !others.contains id)
      {object | ∃ id ∈ ids, graph.object? id = some object ∧ id ∉ others} most := by
  constructor
  · exact fun id member => names.sound id (OrderedSet.mem_filter.mp member).1
  · rintro object ⟨id, member, named, other⟩
    have keeps : (!others.contains id) = true := by simp [OrderedSet.contains, other]
    exact ⟨id, OrderedSet.mem_filter.mpr ⟨member, keeps⟩, named⟩

end Names

variable {α : Type} {reader : SubscriberId} {bound : Set Fact} {state : EvalState}

namespace Meets

variable {goal : α → EvalState → Prop} {new : Set Fact}

theorem onGraph {update : Graph.Update α} {value : α} {grown : Graph}
    (inside : Inside reader bound state) (run : update state.graph = (.ok value, grown))
    (adds : Graph.Adds reader state.graph grown ∅ new) (allowed : new ⊆ bound)
    (reached : goal value { state with graph := grown }) :
    Meets reader bound (onGraph update) state goal := by
  have result : Eval.onGraph update state = (.ok value, { state with graph := grown }) := by
    simp only [Eval.onGraph, run_bind, run_get, run, run_set, run_pure]
  unfold Meets
  rw [result]
  refine ⟨⟨∅, adds.growth, (Delta.join_empty _).symm⟩, ⟨adds.valid, ?_⟩, reached⟩
  exact adds.facts.trans (Set.union_subset inside.facts allowed)

theorem grow {update : Graph.Update Delta} {delta : Delta} {grown : Graph}
    {goal : Unit → EvalState → Prop} (inside : Inside reader bound state)
    (run : update state.graph = (.ok delta, grown))
    (adds : Graph.Adds reader state.graph grown delta new) (allowed : new ⊆ bound)
    (reached : ∀ after : EvalState, after.graph = grown → goal () after) :
    Meets reader bound (grow update) state goal := by
  let after : EvalState := { state with graph := grown, produced := state.produced.join delta }
  have result : Eval.grow update state = (.ok (), after) := by
    simp only [Eval.grow, Eval.onGraph, run_bind, run_get, run, run_set, run_pure, run_modify]
    rfl
  unfold Meets
  rw [result]
  refine ⟨⟨delta, adds.growth, rfl⟩, ⟨adds.valid, ?_⟩, reached after rfl⟩
  exact adds.facts.trans (Set.union_subset inside.facts allowed)

private theorem grow_congr {update other : Graph.Update Delta} {goal : Unit → EvalState → Prop}
    (same : update state.graph = other state.graph)
    (meets : Meets reader bound (Eval.grow other) state goal) :
    Meets reader bound (Eval.grow update) state goal := by
  have result : Eval.grow update state = Eval.grow other state := by
    simp only [Eval.grow, Eval.onGraph, run_bind, run_get, same]
  unfold Meets
  rw [result]
  exact meets

private theorem grow_of_error {update : Graph.Update Delta} {failure : Failure} {grown : Graph}
    {goal : Unit → EvalState → Prop} (run : update state.graph = (.error failure, grown))
    (allowed : .failure ∈ bound) : Meets reader bound (Eval.grow update) state goal := by
  have result : Eval.grow update state = (.error failure, { state with graph := grown }) := by
    simp only [Eval.grow, Eval.onGraph, run_bind, run_get, run, run_set, run_throw]
  unfold Meets
  rw [result]
  exact allowed

theorem ask {question : Ask α} {value : α} {requests : Requests}
    (inside : Inside reader bound state) (run : question state.requests = (.ok value, requests))
    (reached : ∀ after : EvalState, after.graph = state.graph → goal value after) :
    Meets reader bound (ask question) state goal := by
  have result : Eval.ask question state = (.ok value, { state with requests := requests }) := by
    simp only [Eval.ask, run_bind, run_get, run, run_set, run_pure]
  unfold Meets
  rw [result]
  exact ⟨⟨∅, .refl reader state.graph, (Delta.join_empty _).symm⟩, ⟨inside.valid, inside.facts⟩,
    reached _ rfl⟩

end Meets

theorem Meets.forEach {ids : IdSet} {least most : Set HeapObject} {body : ObjectId → Eval PUnit}
    (reached : ObjectId → HeapObject → EvalState → Prop)
    (stable : ∀ id object, Stable reader (reached id object)) (inside : Inside reader bound state)
    (names : Names state.graph ids least most)
    (each : ∀ id ∈ ids, ∀ object ∈ most, ∀ after, Grows reader state after →
      Inside reader bound after → after.graph.object? id = some object →
      Meets reader bound (body id) after fun _ => reached id object) :
    Meets reader bound (ids.toList.forM body) state fun _ after =>
      ∀ id ∈ ids, ∀ object, after.graph.object? id = some object → reached id object after := by
  refine (Meets.forM (fun id after => ∀ object, state.graph.object? id = some object →
    reached id object after) ?_ inside ?_).mono ?_
  · exact fun id after last grows met object named => stable id object grows (met object named)
  · intro id member after grows inside'
    obtain ⟨object, allowed, named⟩ := names.sound id member
    refine (each id member object allowed after grows inside' (grows.object named)).mono ?_
    intro _ last _ _ met object' named'
    obtain rfl := Option.some.inj (named.symm.trans named')
    exact met
  · intro _ last grows _ met id member object named
    exact met id member object (names.named_before member grows named)

/-! ## Nodes, objects and edges -/

theorem node_meets {node : Node} {place : Place} (inside : Inside reader bound state)
    (meaning : state.graph.placeOf? node = some place) (allowed : .node place ∈ bound) :
    Meets reader bound (onGraph (Graph.node node)) state fun id after =>
      after.graph.place? id = some place := by
  obtain ⟨id, grown, run, adds, located⟩ := Graph.node_run reader inside.valid meaning
  exact .onGraph inside run adds (Set.singleton_subset_iff.mpr allowed) located

theorem object_meets {object : HeapObject} (inside : Inside reader bound state)
    (allowed : .object object ∈ bound) :
    Meets reader bound (onGraph (Graph.object object)) state fun id after =>
      after.graph.object? id = some object := by
  obtain ⟨id, grown, run, adds, named⟩ := Graph.object_run reader inside.valid object
  exact .onGraph inside run adds (Set.singleton_subset_iff.mpr allowed) named

section Edges

variable {node : NodeId} {place : Place} {ids : IdSet} {least most : Set HeapObject}

theorem addEdges_meets (inside : Inside reader bound state)
    (located : state.graph.place? node = some place) (names : Names state.graph ids least most)
    (allowed : ∀ object ∈ most, .edge place object ∈ bound) :
    Meets reader bound (grow (Graph.addEdges node ids)) state fun _ after =>
      ∀ object ∈ least, .edge place object ∈ after.graph.facts reader := by
  obtain ⟨delta, grown, run, adds, edges⟩ :=
    Graph.addEdges_run reader inside.valid located names.named
  refine .grow inside run adds ?_ ?_
  · rintro fact ⟨id, member, object, named, rfl⟩
    obtain ⟨other, isAllowed, named'⟩ := names.sound id member
    obtain rfl := Option.some.inj (named.symm.trans named')
    exact allowed object isAllowed
  · rintro after rfl object wanted
    obtain ⟨id, member, named⟩ := names.complete object wanted
    exact ⟨node, id, adds.growth.place located, adds.growth.object named, edges id member⟩

theorem addEdge_meets {id : ObjectId} {object : HeapObject} (inside : Inside reader bound state)
    (located : state.graph.place? node = some place)
    (named : state.graph.object? id = some object) (allowed : .edge place object ∈ bound) :
    Meets reader bound (grow (Graph.addEdge node id)) state fun _ after =>
      .edge place object ∈ after.graph.facts reader := by
  refine (addEdges_meets inside located (.singleton named) ?_).mono ?_
  · rintro _ rfl
    exact allowed
  · exact fun _ _ _ _ edges => edges object rfl

theorem filter_names (hierarchy : Hierarchy) (filter : TypeFilter) {graph : Graph}
    (names : Names graph ids least most) :
    (∃ kept, graph.filter? hierarchy filter ids = some kept ∧
      Names graph kept {object | object ∈ least ∧ filter.accepts? hierarchy object.type = some true}
        {object | object ∈ most ∧ filter.accepts? hierarchy object.type = some true} ∧
      ∀ object ∈ least, ∃ answer, filter.accepts? hierarchy object.type = some answer) ∨
    graph.filter? hierarchy filter ids = none ∧
      ∃ object ∈ most, filter.accepts? hierarchy object.type = none := by
  rcases Graph.filter?_cases hierarchy filter ids names.named with
    ⟨kept, found, members, answered⟩ | ⟨found, id, member, object, named, refused⟩
  · refine .inl ⟨kept, found, ⟨?_, ?_⟩, ?_⟩
    · intro id member
      obtain ⟨listed, object, named, accepted⟩ := (members id).mp member
      obtain ⟨other, allowed, named'⟩ := names.sound id listed
      obtain rfl := Option.some.inj (named.symm.trans named')
      exact ⟨object, ⟨allowed, accepted⟩, named⟩
    · rintro object ⟨wanted, accepted⟩
      obtain ⟨id, listed, named⟩ := names.complete object wanted
      exact ⟨id, (members id).mpr ⟨listed, object, named, accepted⟩, named⟩
    · intro object wanted
      obtain ⟨id, listed, named⟩ := names.complete object wanted
      exact answered id listed object named
  · obtain ⟨other, allowed, named'⟩ := names.sound id member
    obtain rfl := Option.some.inj (named.symm.trans named')
    exact .inr ⟨found, object, allowed, refused⟩

theorem addEdgesFiltered_meets {frame : Frame} {filter : TypeFilter}
    (inside : Inside reader bound state) (located : state.graph.place? node = some place)
    (names : Names state.graph ids least most)
    (closed : ∀ object ∈ most, frame.moving place (some filter) object bound ⊆ bound)
    (known : Set Fact) :
    Meets reader bound (grow (Graph.addEdgesFiltered frame.hierarchy node ids filter)) state
      fun _ after => ∀ object ∈ least,
        frame.moving place (some filter) object known ⊆ after.graph.facts reader := by
  rcases filter_names frame.hierarchy filter names with
    ⟨kept, found, names', answered⟩ | ⟨found, object, allowed, refused⟩
  · have same : (Graph.addEdgesFiltered frame.hierarchy node ids filter) state.graph =
        Graph.addEdges node kept state.graph := by
      simp only [Graph.addEdgesFiltered, run_bind, run_get, found, run_inRange_some]
    refine .grow_congr same ((addEdges_meets inside located names' ?_).mono ?_)
    · rintro object ⟨allowed, accepted⟩
      have moved := closed object allowed
      simp only [Frame.moving, Option.elim_some, accepted] at moved
      exact moved rfl
    · intro _ after _ _ edges object wanted
      obtain ⟨answer, answers⟩ := answered object wanted
      simp only [Frame.moving, Option.elim_some, answers]
      cases answer with
      | false => exact Set.empty_subset _
      | true => exact Set.singleton_subset_iff.mpr (edges object ⟨wanted, answers⟩)
  · have failed : (Graph.addEdgesFiltered frame.hierarchy node ids filter) state.graph =
        (.error .outOfRange, state.graph) := by
      simp only [Graph.addEdgesFiltered, run_bind, run_get, found, run_inRange_none]
    have moved := closed object allowed
    simp only [Frame.moving, Option.elim_some, refused] at moved
    exact .grow_of_error failed (moved rfl)

end Edges

theorem addCall_meets {edge : CallEdge} (inside : Inside reader bound state)
    (allowed : .call edge ∈ bound) :
    Meets reader bound (grow (Graph.addCall edge)) state fun _ after =>
      .call edge ∈ after.graph.facts reader := by
  obtain ⟨delta, grown, run, adds, said⟩ := Graph.addCall_run reader inside.valid edge
  refine .grow inside run adds (Set.singleton_subset_iff.mpr allowed) ?_
  rintro after rfl
  exact said

theorem addInitializers_meets {methods : List MethodId} (inside : Inside reader bound state)
    (closed : Frame.triggering methods bound ⊆ bound) (known : Set Fact) :
    Meets reader bound (grow (Graph.addInitializers methods)) state fun _ after =>
      Frame.triggering methods known ⊆ after.graph.facts reader := by
  obtain ⟨delta, grown, run, adds, triggered⟩ :=
    Graph.addInitializers_run reader inside.valid methods
  refine .grow inside run adds closed ?_
  rintro after rfl fact ⟨method, member, rfl⟩
  exact triggered method member

/-! ## The policy -/

section Policy

variable {abstraction : HeapAbstraction}

theorem HeapAbstraction.merge_run (pure : abstraction.policy.IsPure) (site : CallSite)
    (receiver : Option HeapObject) (caller : Context) (origin : String) (requests : Requests) :
    ∃ after, abstraction.merge site receiver caller origin requests =
      (.ok (abstraction.policy.merge 0 site receiver caller), after) := by
  unfold merge
  simp only [askMerge, run_bind, run_get, run_set, run_pure, pure.1]
  cases abstraction.verify with
  | false => exact ⟨_, rfl⟩
  | true =>
      simp only [if_true, run_bind, run_get, run_set, run_pure, ne_eq, not_true, if_false]
      exact ⟨_, rfl⟩

theorem HeapAbstraction.record_run (pure : abstraction.policy.IsPure) (site : AllocationSite)
    (context : Context) (origin : String) (requests : Requests) :
    ∃ after, abstraction.record site context origin requests =
      (.ok (abstraction.policy.record 0 site context), after) := by
  unfold record
  simp only [askRecord, run_bind, run_get, run_set, run_pure, pure.2]
  cases abstraction.verify with
  | false => exact ⟨_, rfl⟩
  | true =>
      simp only [if_true, run_bind, run_get, run_set, run_pure, ne_eq, not_true, if_false]
      exact ⟨_, rfl⟩

theorem HeapAbstraction.isRecentIn_run (pure : abstraction.policy.IsPure) (object : HeapObject)
    (context : Context) (requests : Requests) :
    ∃ after, abstraction.isRecentIn object context requests =
      (.ok (decide (object.recency = .mostRecent ∧
        abstraction.policy.record 0 object.site context = object)), after) := by
  unfold isRecentIn
  by_cases recent : object.recency = .mostRecent
  · simp only [recent, if_true, askRecord, run_bind, run_get, run_set, run_pure, pure.2, true_and]
    exact ⟨_, rfl⟩
  · simp only [recent, if_false, false_and, decide_false]
    exact ⟨_, rfl⟩

end Policy

end ObjectFlow
