import ObjectFlow.Proofs.Solver.Universe

/-!
# The solver and its reference

The reference solver knows neither deltas nor subscriptions.  It evaluates the
statements of all methods that are reachable so far in full, and does so again
until nothing is added.  Both solvers stay within every closed set and both end
with a closed set, so in whatever order the worklist is run, it ends with what
the reference finds.
-/

namespace ObjectFlow

open Effect

/-! ## The reference -/

namespace Analysis

variable (analysis : Analysis)

def reachableFrom (graph : Graph) : List MethodContext :=
  let initial := analysis.abstraction.initialContext
  ⟨analysis.program.entry, initial⟩ ::
    (graph.initialized.snapshot.toList.map (fun method => ⟨method, initial⟩) ++
      graph.callEdges.map CallEdge.target)

/-- Evaluate all statements that are reachable so far in full. -/
def sweep : Eval Unit := do
  let state ← get
  (analysis.reachableFrom state.graph).forM fun node =>
    (analysis.program.statementsOf node.method).forM fun id => do
      let statement ← inRange (analysis.program.statement? id)
      (analysis.frame (id, node.context) 0).evaluate statement .full

/-- Sweeping until nothing is added comes to a graph, or fails. -/
inductive Saturates : EvalState → Except Failure Graph → Prop where
  | fails {state after : EvalState} {failure : Failure} :
      analysis.sweep state = (.error failure, after) → Saturates state (.error failure)
  | settles {state after : EvalState} :
      analysis.sweep state = (.ok (), after) → after.produced = ∅ →
      Saturates state (.ok after.graph)
  | again {state after : EvalState} {outcome : Except Failure Graph} :
      analysis.sweep state = (.ok (), after) → after.produced ≠ ∅ →
      Saturates { after with produced := ∅ } outcome → Saturates state outcome

def unsaturated (kind : SetKind) : EvalState := ⟨SolverState.initialGraph analysis kind, ⟨0, 0⟩, ∅⟩

variable {analysis} {graph : Graph} {state after : EvalState} {bound : Set Fact} {kind : SetKind}
  {depth heapDepth : Nat}

theorem mem_reachableFrom {node : MethodContext} :
    node ∈ analysis.reachableFrom graph ↔ analysis.Reaches (graph.facts 0) node := by
  unfold reachableFrom Reaches
  rw [List.mem_cons, List.mem_append, List.mem_map, List.mem_map]
  refine or_congr_right (or_congr ?_ ?_)
  · constructor
    · rintro ⟨method, listed, rfl⟩
      exact ⟨method, BitVectorSet.mem_snapshot.mp listed, rfl⟩
    · rintro ⟨method, triggered, rfl⟩
      exact ⟨method, BitVectorSet.mem_snapshot.mpr triggered, rfl⟩
  · constructor
    · rintro ⟨edge, listed, rfl⟩
      exact ⟨edge, Interner.mem_keys_iff.mp listed, rfl⟩
    · rintro ⟨edge, called, rfl⟩
      exact ⟨edge, Interner.mem_keys_iff.mpr called, rfl⟩

theorem sweep_meets (pure : analysis.abstraction.policy.IsPure) (closed : analysis.Closed bound)
    (inside : Inside 0 bound state) :
    Meets 0 bound analysis.sweep state fun _ after =>
      ∀ node, analysis.Reaches (state.graph.facts 0) node →
        ∀ id ∈ analysis.program.statementsOf node.method,
          analysis.demand (id, node.context) (state.graph.facts 0) ⊆ after.graph.facts 0 := by
  refine .bind_get ?_
  refine (Meets.forM (fun node after => ∀ id ∈ analysis.program.statementsOf node.method,
    analysis.demand (id, node.context) (state.graph.facts 0) ⊆ after.graph.facts 0) ?_ inside
    ?_).mono ?_
  · exact fun node _ _ grows met id member => (met id member).trans (grows.facts 0)
  · intro node listed between grows inside'
    have reaches := (mem_reachableFrom.mp listed).mono inside.facts
    refine Meets.forM (fun id after => analysis.demand (id, node.context) (state.graph.facts 0) ⊆
      after.graph.facts 0) (fun id => stable_subset_facts 0 _) inside' ?_
    intro id member now grows' inside''
    obtain ⟨statement, found, _⟩ := SolverState.statement?_of_mem member
    rw [found]
    have demanded := closed.demands node reaches id member
    rw [analysis.demand_eq found 0] at demanded ⊢
    have shows : (View.full).Shows now.graph (state.graph.facts 0) :=
      View.shows_full 0 fun _ _ edge => (grows.trans grows').facts 0 edge
    exact (analysis.frame (id, node.context) 0).evaluate_settles pure inside'' shows demanded
  · exact fun _ _ _ _ met node reaches id member =>
      met node (mem_reachableFrom.mpr reaches) id member

theorem sweep_spec (pure : analysis.abstraction.policy.IsPure) (closed : analysis.Closed bound)
    (inside : Inside 0 bound state) (start : state.produced = ∅)
    (swept : analysis.sweep state = (.ok (), after)) :
    Graph.Growth 0 state.graph after.graph after.produced ∧ Inside 0 bound after ∧
      ∀ node, analysis.Reaches (state.graph.facts 0) node →
        ∀ id ∈ analysis.program.statementsOf node.method,
          analysis.demand (id, node.context) (state.graph.facts 0) ⊆ after.graph.facts 0 := by
  have meets := sweep_meets pure closed inside
  unfold Meets at meets
  rw [swept] at meets
  obtain ⟨⟨delta, growth, collected⟩, inside', met⟩ := meets
  have produced : after.produced = delta := by rw [collected, start, Delta.empty_join]
  exact ⟨produced ▸ growth, inside', met⟩

def Within (bound : Set Fact) : Except Failure Graph → Prop
  | .ok graph => graph.facts 0 ⊆ bound
  | .error _ => .failure ∈ bound

namespace Saturates

/-- The reference stays within every closed set, too. -/
theorem within (pure : analysis.abstraction.policy.IsPure) (closed : analysis.Closed bound)
    (inside : Inside 0 bound state) (start : state.produced = ∅) {outcome : Except Failure Graph}
    (saturates : analysis.Saturates state outcome) : Within bound outcome := by
  induction saturates with
  | fails swept =>
      have meets := sweep_meets pure closed inside
      unfold Meets at meets
      rw [swept] at meets
      exact meets
  | settles swept _ => exact (sweep_spec pure closed inside start swept).2.1.facts
  | again swept _ _ ih =>
      obtain ⟨_, inside', _⟩ := sweep_spec pure closed inside start swept
      exact ih ⟨inside'.valid, inside'.facts⟩ rfl

private theorem closed (pure : analysis.abstraction.policy.IsPure) (valid : state.graph.Valid)
    (start : state.produced = ∅) (initialized : ∀ method ∈ analysis.program.initializers,
      state.graph.isInitialized method = true)
    (saturates : analysis.Saturates state (.ok graph)) :
    analysis.Closed (watching graph.content) := by
  have all : analysis.Closed Set.univ :=
    ⟨fun _ => trivial, fun _ _ => trivial, fun _ _ _ _ => Set.subset_univ _⟩
  generalize isOk : Except.ok graph = outcome at saturates
  induction saturates with
  | fails _ => cases isOk
  | @settles before after swept unchanged =>
      cases isOk
      obtain ⟨growth, inside, met⟩ := sweep_spec pure all ⟨valid, Set.subset_univ _⟩ start swept
      rw [unchanged] at growth
      refine closed_of_met (fun method listed => growth.initialized (initialized method listed)) ?_
      intro node reaches id member
      have earlier : analysis.Reaches (before.graph.facts 0) node := by
        rcases (SolverState.reaches_growth growth node).mp reaches with earlier | opens
        · exact earlier
        · rcases opens with ⟨id, listed, _⟩ | ⟨method, listed, _⟩
          · exact absurd listed (OrderedSet.not_mem_empty id)
          · exact absurd listed (OrderedSet.not_mem_empty method)
      exact ⟨_, 0, fun _ _ edge => growth.edge_of_empty valid edge, met node earlier id member⟩
  | again swept _ _ ih =>
      obtain ⟨growth, inside, _⟩ := sweep_spec pure all ⟨valid, Set.subset_univ _⟩ start swept
      exact ih inside.valid rfl (fun method listed =>
        growth.initialized (initialized method listed)) isOk

theorem closed_of_unsaturated (pure : analysis.abstraction.policy.IsPure)
    (saturates : analysis.Saturates (analysis.unsaturated kind) (.ok graph)) :
    analysis.Closed (watching graph.content) := by
  obtain ⟨_, adds, triggered⟩ := SolverState.initialGraph_adds analysis kind 0
  exact saturates.closed pure adds.valid rfl triggered

end Saturates

private theorem exists_saturates (pure : analysis.abstraction.policy.IsPure)
    (confined : analysis.abstraction.policy.Confined depth heapDepth) {state : EvalState}
    (inside : Inside 0 (analysis.program.bounded depth heapDepth) state)
    (start : state.produced = ∅) :
    ∃ outcome, analysis.Saturates state outcome := by
  have closed := analysis.closed_bounded confined
  induction many : (analysis.program.missing depth heapDepth state.graph).ncard using
    Nat.strong_induction_on generalizing state with
  | _ many ih =>
      subst many
      cases swept : analysis.sweep state with
      | mk outcome after =>
          cases outcome with
          | error failure => exact ⟨_, .fails swept⟩
          | ok value =>
              obtain ⟨growth, inside', _⟩ := sweep_spec pure closed inside start swept
              by_cases unchanged : after.produced = ∅
              · exact ⟨_, .settles swept unchanged⟩
              · have fewer := missing_lt growth inside'.valid inside'.facts unchanged
                have rest : Inside 0 (analysis.program.bounded depth heapDepth)
                    { after with produced := ∅ } :=
                  ⟨inside'.valid, inside'.facts⟩
                obtain ⟨outcome, saturates⟩ := ih _ fewer rest rfl rfl
                exact ⟨outcome, .again swept unchanged saturates⟩

/-! ## Names of initializers -/

def named (analysis : Analysis) : Set Fact :=
  {fact | ∀ method, fact = .initializer method →
    method ∈ analysis.program.initializers ∨ analysis.program.hierarchy.Names method}

private theorem closed_named {declared : Declaration.Program}
    (loaded : declared.load = .ok analysis.program) : analysis.Closed analysis.named where
  watch _ _ same := by cases same
  initializers method listed _ same := by
    cases same
    exact .inl listed
  demands node _ id member := by
    obtain ⟨statement, found, _⟩ := SolverState.statement?_of_mem member
    obtain ⟨classes, statements⟩ := Declaration.load_names loaded
    rw [analysis.demand_eq found 0]
    refine (Frame.demand_subset_origins _ _ _).trans ?_
    rintro _ origin method rfl
    cases origin with
    | listed isListed =>
        exact .inr (statements statement (List.mem_of_getElem? found) method isListed)
    | used _ used isUsed => exact .inr (classes _ _ used method isUsed)

theorem inside_unsaturated (kind : SetKind) (closed : analysis.Closed bound) :
    Inside 0 bound (analysis.unsaturated kind) := by
  obtain ⟨_, adds, _⟩ := SolverState.initialGraph_adds analysis kind 0
  refine ⟨adds.valid, ?_⟩
  show (SolverState.initialGraph analysis kind).facts 0 ⊆ bound
  rw [SolverState.initialGraph_facts]
  rintro _ ⟨method, listed, rfl⟩
  exact closed.initializers method listed

end Analysis

/-! ## Runs -/

namespace SolverState

/-- How running pending items in some order ends: with none left, or with one that fails. -/
inductive Ends (analysis : Analysis) : SolverState → Except Failure SolverState → Prop where
  | done {state : SolverState} : state.pending = [] → Ends analysis state (.ok state)
  | failed {state : SolverState} {position : Nat} {failure : Failure} :
      position < state.pending.length → step analysis state position = .error failure →
      Ends analysis state (.error failure)
  | step {state next : SolverState} {position : Nat} {outcome : Except Failure SolverState} :
      step analysis state position = .ok next → Ends analysis next outcome →
      Ends analysis state outcome

variable {analysis : Analysis} {kind : SetKind} {state : SolverState}

theorem Ends.cases {outcome : Except Failure SolverState} (ends : Ends analysis state outcome)
    (reachable : Reachable analysis kind state) :
    (∃ final, outcome = .ok final ∧ Reachable analysis kind final ∧ final.pending = []) ∨
      ∃ failure last position, outcome = .error failure ∧ Reachable analysis kind last ∧
        position < last.pending.length ∧
        SolverState.step analysis last position = .error failure := by
  induction ends with
  | done none => exact .inl ⟨_, rfl, reachable, none⟩
  | failed pending failed => exact .inr ⟨_, _, _, rfl, reachable, pending, failed⟩
  | step stepped _ ih => exact ih (.step reachable stepped)

theorem Ends.of_run {limit : Nat} {final : SolverState} (ran : run analysis limit state = .ok final)
    (done : final.pending = []) : Ends analysis state (.ok final) := by
  induction limit generalizing state with
  | zero =>
      obtain rfl : state = final := Except.ok.inj ran
      exact .done done
  | succ limit ih =>
      unfold run at ran
      split at ran
      · obtain rfl : state = final := Except.ok.inj ran
        exact .done done
      · split at ran
        · next next stepped => exact .step stepped (ih ran)
        · cases ran

/-- A run of a loaded program fails only if every closed set contains the failure. -/
theorem Reachable.failure_of_error {declared : Declaration.Program}
    (loaded : declared.load = .ok analysis.program) (pure : analysis.abstraction.policy.IsPure)
    (reachable : Reachable analysis kind state) {bound : Set Fact} (closed : analysis.Closed bound)
    {position : Nat} {failure : Failure} (pending : position < state.pending.length)
    (failed : SolverState.step analysis state position = .error failure) : .failure ∈ bound := by
  have invariant := reachable.invariant pure
  have both := closed.inter (Analysis.closed_named loaded)
  refine (step_failed pure invariant both (reachable.facts_subset pure both) ?_ pending failed).1.1
  rintro method ⟨_, named⟩ isNew
  rcases named method rfl with listed | names
  · rw [invariant.initialized method listed] at isNew
    cases isNew
  · exact names

/-- A run has nothing that the reference does not find. -/
theorem Reachable.within_saturated (pure : analysis.abstraction.policy.IsPure) {graph : Graph}
    (saturates : analysis.Saturates (analysis.unsaturated kind) (.ok graph))
    (reachable : Reachable analysis kind state) : state.graph.content ⊆ graph.content ∧
      ∀ node ∈ state.reached.keys, node ∈ analysis.reachableFrom graph := by
  have closed := saturates.closed_of_unsaturated pure
  have included := Graph.content_subset (reachable.facts_subset pure closed 0)
  refine ⟨included, fun node member => Analysis.mem_reachableFrom.mpr ?_⟩
  exact (((reachable.invariant pure).reached node).mp member).of_content included

/-- A finished run has all that the reference finds. -/
theorem Reachable.eq_saturated (pure : analysis.abstraction.policy.IsPure) {graph : Graph}
    (saturates : analysis.Saturates (analysis.unsaturated kind) (.ok graph))
    (reachable : Reachable analysis kind state) (done : state.pending = []) :
    state.graph.content = graph.content ∧
      ∀ node, node ∈ state.reached.keys ↔ node ∈ analysis.reachableFrom graph := by
  obtain ⟨included, reached⟩ := reachable.within_saturated pure saturates
  have invariant := reachable.invariant pure
  have closed := invariant.closed done
  have found : graph.content ⊆ state.graph.content :=
    Graph.content_subset
      (saturates.within pure closed (Analysis.inside_unsaturated kind closed) rfl)
  refine ⟨Set.Subset.antisymm included found, fun node => ⟨reached node, fun member => ?_⟩⟩
  exact (invariant.reached node).mpr ((Analysis.mem_reachableFrom.mp member).of_content found)

/-- In whatever order pending items are run, a run comes to an end.  Either all runs fail, and so
does the reference; or all of them end with nothing pending and with what the reference finds,
and on the way never have anything else. -/
theorem ends_agree_with_reference {declared : Declaration.Program} {config : Config}
    (loaded : declared.load = .ok analysis.program)
    (chosen : HeapAbstraction.ofConfig config = .ok analysis.abstraction) (kind : SetKind) :
    (∀ run : ℕ → SolverState, run 0 = seed analysis kind →
      ¬ ∀ n, ∃ position, step analysis (run n) position = .ok (run (n + 1))) ∧
    ∃ reference, analysis.Saturates (analysis.unsaturated kind) reference ∧
      match reference with
      | .error _ =>
          ∀ outcome, Ends analysis (seed analysis kind) outcome →
            ∃ failure, outcome = .error failure
      | .ok graph =>
          (∀ outcome, Ends analysis (seed analysis kind) outcome →
            ∃ final, outcome = .ok final ∧ final.pending = [] ∧
              final.graph.content = graph.content ∧
              ∀ node, node ∈ final.reached.keys ↔ node ∈ analysis.reachableFrom graph) ∧
          ∀ state, Reachable analysis kind state →
            state.graph.content ⊆ graph.content ∧
              ∀ node ∈ state.reached.keys, node ∈ analysis.reachableFrom graph := by
  have pure := HeapAbstraction.isPure_of_config chosen
  have confined := HeapAbstraction.confined_of_config chosen
  refine ⟨fun run start => no_endless_run pure confined run start, ?_⟩
  have closed := analysis.closed_bounded confined
  obtain ⟨reference, saturates⟩ := Analysis.exists_saturates pure confined
    (Analysis.inside_unsaturated kind closed) rfl
  refine ⟨reference, saturates, ?_⟩
  cases reference with
  -- a finished run is closed, and the reference would have stayed within it
  | error failure =>
      intro outcome ends
      rcases ends.cases .seed with ⟨final, _, reachable, done⟩ | ⟨failure, _, _, same, _⟩
      · have closed := (reachable.invariant pure).closed done
        have impossible :=
          saturates.within pure closed (Analysis.inside_unsaturated kind closed) rfl
        exact absurd impossible (Graph.failure_notMem_watching final.graph)
      · exact ⟨failure, same⟩
  | ok graph =>
      refine ⟨fun outcome ends => ?_, fun state reachable =>
        reachable.within_saturated pure saturates⟩
      rcases ends.cases .seed with ⟨final, same, reachable, done⟩ |
        ⟨failure, last, position, _, reachable, pending, failed⟩
      · exact ⟨final, same, done, reachable.eq_saturated pure saturates done⟩
      · have impossible := reachable.failure_of_error loaded pure
          (saturates.closed_of_unsaturated pure) pending failed
        exact absurd impossible (Graph.failure_notMem_watching graph)

end SolverState

theorem ends_agree_with_reference_cloning : ∃ (results : Results) (graph : Graph),
    cloningProgram.load = .ok results.program ∧
      HeapAbstraction.ofConfig recencySettings = .ok results.analysis.abstraction ∧
      SolverState.Ends results.analysis (.seed results.analysis .hashed) (.ok results.state) ∧
      results.analysis.Saturates (results.analysis.unsaturated .hashed) (.ok graph) ∧
      results.state.graph.content = graph.content := by
  obtain ⟨results, loaded, chosen, solved, done, _⟩ :=
    cloningProgram.exists_finished recencySettings (fun _ => True) (by decide +kernel)
  have ends := SolverState.Ends.of_run solved done
  obtain ⟨_, reference, saturates, agree⟩ :=
    SolverState.ends_agree_with_reference loaded chosen .hashed
  cases reference with
  | error failure =>
      obtain ⟨_, impossible⟩ := agree _ ends
      cases impossible
  | ok graph =>
      obtain ⟨final, same, _, content, _⟩ := agree.1 _ ends
      cases same
      exact ⟨results, graph, loaded, chosen, ends, saturates, content⟩

end ObjectFlow
