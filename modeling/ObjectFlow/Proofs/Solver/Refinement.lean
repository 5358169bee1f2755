import ObjectFlow.Proofs.Evaluation.Simulation
import ObjectFlow.Proofs.Solver.Saturation

/-!
# Finer analyses

Two analyses whose frames agree up to a projection can be compared: the facts
that are projected into a closed set of the coarser analysis are a closed set of
the finer one.  So when the coarser analysis comes to an end, every run of the
finer one ends as well, and what it finds is projected into what the coarser one
found.
-/

namespace ObjectFlow

/-! ## What is compared -/

structure Program.Projects (projection : Projection) (fine coarse : Program) : Prop where
  hierarchy : coarse.hierarchy = fine.hierarchy
  statements : coarse.statements = fine.statements.map projection.onStatement
  summaries : coarse.summaries =
    fine.summaries.map fun entry => (entry.1, projection.onSummary entry.2)
  entry : coarse.entry = fine.entry
  initializers : coarse.initializers = fine.initializers

/-- The answers of the policies are projections of one another. -/
structure Policy.Projects (projection : Projection) (bound : Set Fact) (fine coarse : Policy) :
    Prop where
  initial : coarse.initialContext = projection.onContext fine.initialContext
  merge : ∀ site receiver caller,
    coarse.merge 0 site (receiver.map projection.onObject) (projection.onContext caller) =
      projection.onContext (fine.merge 0 site receiver caller)
  record : ∀ site context, coarse.record 0 site (projection.onContext context) =
    projection.onObject (fine.record 0 site context)
  summaryOf : ∀ {recent older}, fine.summaryOf recent = some older →
    projection.onObject older = projection.onObject recent ∧ .failure ∈ bound

namespace Program

variable {projection : Projection} {fine coarse program : Program}

theorem projects_self (points : projection.flat = false) :
    program.Projects projection program where
  hierarchy := rfl
  statements := by simp [Projection.onStatement_eq points]
  summaries := by simp [Projection.onSummary_eq points]
  entry := rfl
  initializers := rfl

theorem Projects.statement? (projects : fine.Projects projection coarse) (id : StatementId) :
    coarse.statement? id = (fine.statement? id).map projection.onStatement := by
  unfold Program.statement?
  rw [projects.statements, List.getElem?_map]

private theorem Projects.statementsOf (projects : fine.Projects projection coarse)
    (method : MethodId) : coarse.statementsOf method = fine.statementsOf method := by
  unfold Program.statementsOf statementIds
  rw [projects.statements, List.zipIdx_map, List.filter_map, List.map_map]
  rfl

private theorem Projects.summary? (projects : fine.Projects projection coarse) (method : MethodId) :
    coarse.summary? method = (fine.summary? method).map projection.onSummary := by
  unfold Program.summary?
  rw [projects.summaries]
  exact lookup_map_snd _ _ _

private theorem Projects.described (projects : fine.Projects projection coarse) (id : StatementId) :
    (coarse.describeStatement? id).isSome = (fine.describeStatement? id).isSome := by
  unfold describeStatement? describeMethod?
  rw [projects.statement?, projects.hierarchy]
  cases fine.statement? id with
  | none => rfl
  | some statement =>
      show Option.isSome (Option.bind (fine.hierarchy.describeMethod? statement.method) _) =
        Option.isSome (Option.bind (fine.hierarchy.describeMethod? statement.method) _)
      cases fine.hierarchy.describeMethod? statement.method <;> rfl

end Program

namespace Analysis

variable {projection : Projection} {bound : Set Fact} {fine coarse : Analysis}

/-- The finer analysis goes the way of the coarser one. -/
structure Projects (projection : Projection) (bound : Set Fact) (fine coarse : Analysis) :
    Prop where
  program : fine.program.Projects projection coarse.program
  policy : fine.abstraction.policy.Projects projection bound coarse.abstraction.policy
  follows : ∀ id statement context, fine.program.statement? id = some statement →
    Frame.Follows projection bound (fine.frame (id, context) 0)
      (coarse.frame (id, projection.onContext context) 0) statement

theorem frame_projects (program : fine.program.Projects projection coarse.program)
    (policy : fine.abstraction.policy.Projects projection bound coarse.abstraction.policy)
    (id : StatementId) (context : Context) :
    Frame.Projects projection bound (fine.frame (id, context) 0)
      (coarse.frame (id, projection.onContext context) 0) where
  hierarchy := program.hierarchy
  summary := program.summary?
  described := program.described id
  context := rfl
  initial := policy.initial
  merge site receiver := policy.merge site receiver context
  record site := policy.record site context
  summaryOf := policy.summaryOf

theorem Projects.of_policy (points : projection.flat = false)
    (program : coarse.program = fine.program)
    (policy : fine.abstraction.policy.Projects projection bound coarse.abstraction.policy)
    (undivided : ∀ object, coarse.abstraction.summaryOf object = none) :
    fine.Projects projection bound coarse := by
  have same : fine.program.Projects projection coarse.program :=
    program ▸ Program.projects_self points
  refine ⟨same, policy, fun id statement context _ => ?_⟩
  have flow : coarse.program.flow = fine.program.flow := by rw [program]
  exact (frame_projects same policy id context).follows_of_flow flow points undivided statement

namespace Projects

variable (projects : fine.Projects projection bound coarse)
include projects

theorem reaches {node : MethodContext} (reaches : fine.Reaches (projection.within bound) node) :
    coarse.Reaches bound (projection.onMethod node) := by
  have initial := projects.policy.initial.symm
  rcases reaches with rfl | ⟨method, triggered, rfl⟩ | ⟨edge, called, rfl⟩
  · exact .inl (congr (congrArg MethodContext.mk projects.program.entry.symm) initial)
  · exact .inr (.inl ⟨method, triggered, congrArg (MethodContext.mk method) initial⟩)
  · exact .inr (.inr ⟨projection.onCall edge, called, rfl⟩)

theorem closed_within (closed : coarse.Closed bound) : fine.Closed (projection.within bound) where
  watch _ := trivial
  initializers method listed :=
    closed.initializers method (projects.program.initializers.symm ▸ listed)
  demands node reaches id member := by
    obtain ⟨statement, found, _⟩ := SolverState.statement?_of_mem member
    have found' : coarse.program.statement? id = some (projection.onStatement statement) := by
      rw [projects.program.statement?, found]
      rfl
    have demanded := closed.demands _ (projects.reaches reaches) id
      (projects.program.statementsOf node.method ▸ member)
    rw [coarse.demand_eq found' 0] at demanded
    rw [fine.demand_eq found 0]
    exact Frame.demand_simulated (projects.follows id statement node.context found)
      (frame_projects projects.program projects.policy id node.context) demanded

end Projects

theorem Closed.insert_failure (closed : fine.Closed bound) :
    fine.Closed (insert .failure bound) where
  watch place := .inr (closed.watch place)
  initializers method listed := .inr (closed.initializers method listed)
  demands node reaches id member := by
    have reaches : fine.Reaches bound node := by
      rcases reaches with rfl | ⟨method, same | triggered, rfl⟩ | ⟨edge, same | called, rfl⟩
      · exact .inl rfl
      · cases same
      · exact .inr (.inl ⟨method, triggered, rfl⟩)
      · cases same
      · exact .inr (.inr ⟨edge, called, rfl⟩)
    refine (fine.demand_degree _).isLocal (fun place object edge _ => ?_)
      ((closed.demands node reaches id member).trans (Set.subset_insert _ _))
    rcases edge with same | edge
    · cases same
    · exact edge

end Analysis

/-! ## Runs -/

namespace SolverState

variable {projection : Projection} {analysis fine coarse : Analysis} {kind : SetKind}
  {state final : SolverState}

/-- What the state holds is projected into what the other one holds. -/
structure MapsInto (projection : Projection) (state final : SolverState) : Prop where
  edges : ∀ place object, .edge place object ∈ state.graph.content →
    .edge (projection.onPlace place) (projection.onObject object) ∈ final.graph.content
  calls : ∀ edge, .call edge ∈ state.graph.content →
    .call (projection.onCall edge) ∈ final.graph.content
  initializers : ∀ method, .initializer method ∈ state.graph.content →
    .initializer method ∈ final.graph.content
  reached : ∀ node ∈ state.reached.keys, projection.onMethod node ∈ final.reached.keys

/-- From every state that can be reached, pending items can be run to an end. -/
theorem Reachable.exists_ends {depth heapDepth : Nat} (pure : analysis.abstraction.policy.IsPure)
    (confined : analysis.abstraction.policy.Confined depth heapDepth)
    (reachable : Reachable analysis kind state) : ∃ outcome, Ends analysis state outcome := by
  induction rest : state.remaining analysis depth heapDepth using WellFoundedLT.induction
    generalizing state with
  | _ rest ih =>
      subst rest
      cases none : state.pending with
      | nil => exact ⟨_, .done none⟩
      | cons item items =>
          have pending : 0 < state.pending.length := by simp [none]
          cases stepped : SolverState.step analysis state 0 with
          | error failure => exact ⟨_, .failed pending stepped⟩
          | ok next =>
              have less := step_remaining pure confined reachable stepped
              obtain ⟨outcome, ends⟩ := ih _ less (.step reachable stepped) rfl
              exact ⟨outcome, .step stepped ends⟩

theorem Ends.finished {outcome : Except Failure SolverState}
    (ends : Ends analysis (seed analysis kind) outcome) {final : SolverState}
    (same : outcome = .ok final) : Reachable analysis kind final ∧ final.pending = [] := by
  rcases ends.cases .seed with ⟨last, isLast, reachable, done⟩ | ⟨_, _, _, failed, _⟩
  · cases same.symm.trans isLast
    exact ⟨reachable, done⟩
  · cases same.symm.trans failed

private theorem content_of_insert {fact : Fact} (listed : fact.IsListed)
    (member : fact ∈ insert .failure (watching final.graph.content)) :
    fact ∈ final.graph.content := by
  rcases member with rfl | found | ⟨_, rfl⟩
  · exact listed.elim
  · exact found
  · exact listed.elim

section Refines

variable {bound : Set Fact} {other : SetKind} (pure : fine.abstraction.policy.IsPure)
  (projects : fine.Projects projection bound coarse) (closed : coarse.Closed bound)
include pure projects closed

/-- What a finer analysis ever holds is projected into what the coarser one ends with. -/
theorem Reachable.mapsInto (invariant : Invariant coarse final)
    (found : bound ⊆ insert .failure (watching final.graph.content))
    (reachable : Reachable fine other state) : state.MapsInto projection final := by
  have inside := reachable.facts_subset pure (projects.closed_within closed) 0
  have included := (Graph.content_subset_facts state.graph 0).trans inside
  have known : ∀ fact : Fact, fact.IsListed → fact ∈ bound → fact ∈ final.graph.content :=
    fun fact listed member => content_of_insert listed (found member)
  refine ⟨fun place object said => known (.edge _ _) trivial (included said),
    fun edge said => known (.call _) trivial (included said),
    fun method said => known (.initializer _) trivial (included said), fun node member => ?_⟩
  have reaches :=
    projects.reaches ((((reachable.invariant pure).reached node).mp member).mono inside)
  refine (invariant.reached _).mpr ?_
  rcases reaches with entry | ⟨method, triggered, same⟩ | ⟨edge, called, same⟩
  · exact .inl entry
  · exact .inr (.inl ⟨method, (known (.initializer method) trivial triggered).1, same⟩)
  · exact .inr (.inr ⟨edge, (known (.call edge) trivial called).1, same⟩)

end Refines

/-- In whatever order items are run, the analysis comes to an end without failing, and what it finds
is projected into the other state. -/
def EndsWithin (projection : Projection) (analysis : Analysis) (kind : SetKind)
    (final : SolverState) : Prop :=
  (∃ outcome, Ends analysis (seed analysis kind) outcome) ∧
    ∀ outcome, Ends analysis (seed analysis kind) outcome →
      ∃ last, outcome = .ok last ∧ last.MapsInto projection final

/-- A finer analysis of a loaded program that fails nowhere but where the coarser one does comes to
an end if that one did. -/
theorem endsWithin {declared : Declaration.Program} {depth heapDepth : Nat}
    (loaded : declared.load = .ok fine.program) (pure : fine.abstraction.policy.IsPure)
    (confined : fine.abstraction.policy.Confined depth heapDepth)
    (invariant : Invariant coarse final) (done : final.pending = [])
    (projects : fine.Projects projection (watching final.graph.content) coarse)
    (kind : SetKind) : EndsWithin projection fine kind final := by
  have closed := invariant.closed done
  refine ⟨Reachable.exists_ends pure confined .seed, fun outcome ends => ?_⟩
  rcases ends.cases .seed with ⟨last, same, reachable, _⟩ |
    ⟨_, _, _, _, reachable, pending, failed⟩
  · refine ⟨last, same, ?_⟩
    exact reachable.mapsInto pure projects closed invariant (Set.subset_insert _ _)
  · have impossible := reachable.failure_of_error loaded pure (projects.closed_within closed)
      pending failed
    exact absurd impossible (Graph.failure_notMem_watching final.graph)

end SolverState

end ObjectFlow
