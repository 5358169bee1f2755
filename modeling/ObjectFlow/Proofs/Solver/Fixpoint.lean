import ObjectFlow.Proofs.Evaluation.Rounds
import ObjectFlow.Proofs.Graph.Objects
import ObjectFlow.Proofs.Policy
import ObjectFlow.Proofs.Solver.Invariant

/-!
# No work is missed

A scheduled statement for which nothing is pending has all that it demands, so
a full evaluation of it adds nothing and does not fail.  Turned round: whatever
would still add something is pending.  The check of the fixpoint evaluates all
scheduled statements in turn, and its answer is empty exactly if none of them
would fail or add anything.
-/

namespace ObjectFlow

open Effect

namespace SolverState

variable {analysis : Analysis} {kind : SetKind} {state : SolverState}

/-! ## Statements without work -/

/-- The demand of a statement for which nothing is pending is met. -/
theorem Invariant.met (invariant : Invariant analysis state) {subscriber : SubscriberId}
    {key : StatementId × Context} (scheduled : state.subscribers.key? subscriber = some key)
    (idle : ∀ item ∈ state.pending, item.subscriber ≠ subscriber) :
    analysis.demand key (state.graph.facts subscriber) ⊆ state.graph.facts subscriber := by
  have notDue : ∀ view, ¬ state.Due subscriber view := by
    rintro view ⟨item, member, same, _⟩
    exact idle item member same
  refine (analysis.demand_degree key).isLocal ?_ (invariant.settled scheduled (notDue .full))
  rintro place object ⟨node, id, located, named, held⟩ _
  exact ⟨node, id, place, object, rfl, located, named, held, fun ⟨growth, _, due⟩ =>
    notDue (.delta growth) due⟩

structure AtRest (analysis : Analysis) (state : SolverState) : Prop where
  valid : state.graph.Valid
  statement : ∀ {subscriber key}, state.subscribers.key? subscriber = some key →
    ∃ statement, analysis.program.statement? key.1 = some statement
  met : ∀ {subscriber key}, state.subscribers.key? subscriber = some key →
    analysis.demand key (state.graph.facts subscriber) ⊆ state.graph.facts subscriber

theorem Invariant.atRest (invariant : Invariant analysis state) (done : state.pending = []) :
    AtRest analysis state where
  valid := invariant.valid
  statement scheduled := by
    obtain ⟨_, statement, _, _, _, found⟩ := invariant.statement scheduled
    exact ⟨statement, found⟩
  met scheduled := invariant.met scheduled fun item member => by
    rw [done] at member
    cases member

theorem evaluate_within (pure : analysis.abstraction.policy.IsPure) (valid : state.graph.Valid)
    {subscriber : SubscriberId} {key : StatementId × Context} {statement : Statement}
    (scheduled : state.subscribers.key? subscriber = some key)
    (found : analysis.program.statement? key.1 = some statement) {more : Set Fact}
    (unlisted : ∀ fact ∈ more, ¬ fact.IsListed ∧ fact ≠ .failure)
    (closed : analysis.demand key (state.graph.facts subscriber ∪ more) ⊆
      state.graph.facts subscriber ∪ more) :
    ∃ after, evaluate analysis ⟨subscriber, .full⟩ state = (.ok ∅, state.withEval after) ∧
      Graph.Growth subscriber state.graph after.graph ∅ ∧ after.graph.Valid ∧
      after.graph.facts subscriber ⊆ state.graph.facts subscriber ∪ more := by
  rw [analysis.demand_eq found subscriber] at closed
  have meets := (analysis.frame key subscriber).evaluate_settles pure
    (show Inside subscriber (state.graph.facts subscriber ∪ more) state.evalState from
      ⟨valid, Set.subset_union_left⟩)
    (View.shows_full subscriber fun _ _ edge => edge) closed
  unfold Meets at meets
  rw [evaluate_run scheduled found]
  split at meets
  · next value after run =>
      obtain ⟨⟨delta, growth, collected⟩, inside, _⟩ := meets
      have nothing : delta = ∅ := growth.delta_eq_empty inside.valid fun fact said isListed =>
        (inside.facts said).resolve_right fun other => (unlisted fact other).1 isListed
      subst nothing
      have unchanged : after.produced = ∅ := collected.trans (Delta.join_empty ∅)
      refine ⟨after, ?_, growth, inside.valid, inside.facts⟩
      dsimp only
      rw [run, ← unchanged]
  · exact (meets.elim (Graph.failure_notMem_facts _ _) fun other => (unlisted _ other).2 rfl).elim

/-- A full evaluation of a statement whose demand is met adds nothing. -/
theorem evaluate_met (pure : analysis.abstraction.policy.IsPure) (valid : state.graph.Valid)
    {subscriber : SubscriberId} {key : StatementId × Context} {statement : Statement}
    (scheduled : state.subscribers.key? subscriber = some key)
    (found : analysis.program.statement? key.1 = some statement)
    (met : analysis.demand key (state.graph.facts subscriber) ⊆ state.graph.facts subscriber) :
    ∃ after, evaluate analysis ⟨subscriber, .full⟩ state = (.ok ∅, state.withEval after) ∧
      state.graph.GainsObjects ∅ after.graph := by
  rw [← Set.union_empty (state.graph.facts subscriber)] at met
  obtain ⟨after, run, growth, valid', within⟩ :=
    evaluate_within pure valid scheduled found (fun _ none => none.elim) met
  rw [Set.union_empty] at within
  refine ⟨after, run, growth.toExtends, valid', fun reader => ?_⟩
  exact (growth.facts_eq within reader).subset.trans Set.subset_union_left

private theorem AtRest.evaluate (pure : analysis.abstraction.policy.IsPure)
    (rest : AtRest analysis state) {subscriber : SubscriberId} {key : StatementId × Context}
    (scheduled : state.subscribers.key? subscriber = some key) :
    ∃ after, SolverState.evaluate analysis ⟨subscriber, .full⟩ state =
        (.ok ∅, state.withEval after) ∧
      state.graph.GainsObjects ∅ after.graph := by
  obtain ⟨statement, found⟩ := rest.statement scheduled
  exact evaluate_met pure rest.valid scheduled found (rest.met scheduled)

end SolverState

/-! ## Statements that add nothing -/

private theorem Fact.isListed_edge (place : Place) (object : HeapObject) :
    (Fact.edge place object).IsListed :=
  trivial

namespace Graph

theorem says_of_listed {graph : Graph} {reader other : SubscriberId} {fact : Fact}
    (isListed : fact.IsListed) (said : graph.Says reader fact) : graph.Says other fact := by
  refine says_of_ne_watch ?_ said
  rintro _ rfl
  exact isListed

/-- The second graph is the first with nothing added that a delta would list. -/
structure ListsSame (graph grown : Graph) : Prop where
  extend : graph.Extends grown
  valid : grown.Valid
  listed : ∀ {fact : Fact}, fact.IsListed → grown.Says 0 fact → graph.Says 0 fact

theorem ListsSame.trans {graph grown last : Graph} (first : graph.ListsSame grown)
    (second : grown.ListsSame last) : graph.ListsSame last where
  extend := first.extend.trans second.extend
  valid := second.valid
  listed isListed said := first.listed isListed (second.listed isListed said)

end Graph

namespace Analysis

variable {analysis : Analysis} {key : StatementId × Context}

/-- The statement demands no failure of the graph, and nothing to be listed that is not there. -/
def AddsNothing (analysis : Analysis) (graph : Graph) (key : StatementId × Context) : Prop :=
  ∀ fact ∈ analysis.demand key (graph.facts 0),
    fact ≠ .failure ∧ (fact.IsListed → graph.Says 0 fact)

theorem demand_of_edges {known more : Set Fact}
    (edges : ∀ place object, .edge place object ∈ known → .edge place object ∈ more) :
    analysis.demand key known ⊆ analysis.demand key more :=
  (analysis.demand_degree key).isLocal (fun place object edge _ => edges place object edge)
    subset_rfl

theorem addsNothing_iff {graph grown : Graph} (same : graph.ListsSame grown) :
    analysis.AddsNothing grown key ↔ analysis.AddsNothing graph key := by
  constructor
  · intro met fact demanded
    obtain ⟨goesOn, there⟩ := met fact
      (demand_of_edges (fun _ _ edge => same.extend.facts_subset 0 edge) demanded)
    exact ⟨goesOn, fun isListed => same.listed isListed (there isListed)⟩
  · intro met fact demanded
    obtain ⟨goesOn, there⟩ := met fact
      (demand_of_edges (fun _ _ edge => same.listed (Fact.isListed_edge _ _) edge) demanded)
    exact ⟨goesOn, fun isListed => same.extend.stillSays (there isListed)⟩

end Analysis

namespace SolverState

variable {analysis : Analysis} {state : SolverState} {subscriber : SubscriberId}
  {key : StatementId × Context} {statement : Statement}

/-- A full evaluation of the subscriber's statement fails or adds something. -/
def Productive (analysis : Analysis) (state : SolverState) (subscriber : SubscriberId) : Prop :=
  ∀ delta, (evaluate analysis ⟨subscriber, .full⟩ state).1 = .ok delta → delta.isEmpty = false

instance : Decidable (Productive analysis state subscriber) :=
  match outcome : (evaluate analysis ⟨subscriber, .full⟩ state).1 with
  | .ok delta => decidable_of_iff (delta.isEmpty = false) <| by simp [Productive, outcome]
  | .error _ => .isTrue <| by simp [Productive, outcome]

theorem evaluate_addsNothing (pure : analysis.abstraction.policy.IsPure)
    (valid : state.graph.Valid) (scheduled : state.subscribers.key? subscriber = some key)
    (found : analysis.program.statement? key.1 = some statement)
    (addsNothing : analysis.AddsNothing state.graph key) :
    ∃ after, evaluate analysis ⟨subscriber, .full⟩ state = (.ok ∅, state.withEval after) ∧
      state.graph.ListsSame after.graph := by
  obtain ⟨after, run, growth, valid', within⟩ := evaluate_within pure valid scheduled found
    (show ∀ fact ∈ {fact : Fact | ¬ fact.IsListed ∧ fact ≠ .failure}, _ from fun _ same => same)
    (fun fact demanded => by
      obtain ⟨goesOn, there⟩ := addsNothing fact (Analysis.demand_of_edges
        (fun _ _ edge => edge.resolve_right fun other => other.1 trivial) demanded)
      by_cases isListed : fact.IsListed
      · exact .inl (Graph.says_of_listed isListed (there isListed))
      · exact .inr ⟨isListed, goesOn⟩)
  refine ⟨after, run, growth.toExtends, valid', fun isListed said => ?_⟩
  have said := within (Graph.says_of_listed isListed said)
  exact Graph.says_of_listed isListed (said.resolve_right fun other => other.1 isListed)

theorem addsNothing_of_evaluate (pure : analysis.abstraction.policy.IsPure)
    (valid : state.graph.Valid) (scheduled : state.subscribers.key? subscriber = some key)
    (found : analysis.program.statement? key.1 = some statement) {delta : Delta}
    (run : (evaluate analysis ⟨subscriber, .full⟩ state).1 = .ok delta)
    (nothing : delta.isEmpty = true) : analysis.AddsNothing state.graph key := by
  rw [evaluate_run scheduled found] at run
  split at run
  · next value after ran =>
      have ready : (analysis.frame key subscriber).Ready statement .full state.graph := trivial
      obtain ⟨pass, _⟩ :=
        Frame.evaluate_passes pure valid ready (Set.subset_univ _) (Set.subset_univ _) ran
      have growth := pass.growth
      rw [show after.produced = ∅ from (Except.ok.inj run).trans (Delta.isEmpty_iff.mp nothing)]
        at growth
      intro fact demanded
      rw [analysis.demand_eq found subscriber] at demanded
      have edges : ∀ place object, .edge place object ∈ state.graph.facts 0 →
          .edge place object ∈ state.graph.facts subscriber := fun _ _ edge => edge
      have met := pass.met (Frame.demand_edges edges demanded)
      refine ⟨?_, fun isListed => ?_⟩
      · rintro rfl
        exact met.elim (Graph.failure_notMem_facts _ _) id
      · have said := met.resolve_right (not_mention_of_listed isListed)
        exact Graph.says_of_listed isListed (growth.listed_of_empty valid isListed said)
  · cases run

theorem productive_iff (pure : analysis.abstraction.policy.IsPure)
    (valid : state.graph.Valid) (scheduled : state.subscribers.key? subscriber = some key)
    (found : analysis.program.statement? key.1 = some statement) :
    Productive analysis state subscriber ↔ ¬ analysis.AddsNothing state.graph key := by
  constructor
  · intro productive addsNothing
    obtain ⟨after, run, _⟩ := evaluate_addsNothing pure valid scheduled found addsNothing
    cases productive ∅ (congrArg Prod.fst run)
  · intro adds delta run
    rw [← Bool.not_eq_true]
    exact fun nothing => adds (addsNothing_of_evaluate pure valid scheduled found run nothing)

end SolverState

/-! ## Checking the fixpoint -/

namespace Results

open SolverState

structure Kept (more : Set HeapObject) (start now : Results) : Prop where
  analysis : now.analysis = start.analysis
  subscribers : now.state.subscribers = start.state.subscribers
  gains : start.graph.GainsObjects more now.graph

namespace Kept

variable {more : Set HeapObject} {start now last : Results}

theorem refl (valid : start.graph.Valid) : Kept more start start :=
  ⟨rfl, rfl, .refl valid⟩

theorem trans (first : Kept more start now) (second : Kept more now last) :
    Kept more start last where
  analysis := second.analysis.trans first.analysis
  subscribers := second.subscribers.trans first.subscribers
  gains := first.gains.trans second.gains

theorem mono (kept : Kept more start now) {larger : Set HeapObject} (subset : more ⊆ larger) :
    Kept larger start now :=
  ⟨kept.analysis, kept.subscribers, kept.gains.mono subset⟩

theorem withEval (kept : Kept more start now) {after : EvalState}
    (gains : now.graph.GainsObjects more after.graph) :
    Kept more start { now with state := now.state.withEval after } :=
  ⟨kept.analysis, kept.subscribers, kept.gains.trans gains⟩

theorem atRest (kept : Kept more start now) (rest : AtRest start.analysis start.state) :
    AtRest start.analysis now.state where
  valid := kept.gains.valid
  statement scheduled := rest.statement (kept.subscribers ▸ scheduled)
  met {subscriber key} scheduled := by
    have met := rest.met (kept.subscribers ▸ scheduled)
    refine (start.analysis.demand_degree key).isLocal ?_
      (met.trans (kept.gains.extend.facts_subset _))
    intro place object edge _
    exact kept.gains.said
      (show now.graph.Says subscriber (.edge place object) from edge) (by simp)

end Kept

variable {results : Results}

private theorem scheduled_of_mem_zipIdx {entry : (StatementId × Context) × SubscriberId}
    (member : entry ∈ results.state.subscribers.keys.zipIdx) :
    results.state.subscribers.key? entry.2 = some entry.1 := by
  rw [Interner.key?_eq]
  exact List.mem_zipIdx_iff_getElem?.mp member

theorem checkFixpoint_keeps (isPure : results.analysis.abstraction.policy.IsPure)
    (rest : AtRest results.analysis results.state) :
    ∃ after, checkFixpoint results = (.ok [], after) ∧ Kept ∅ results after := by
  have each : ∀ entry ∈ results.state.subscribers.keys.zipIdx, ∀ now, Kept ∅ results now →
      ∃ value after, checkScheduled results.analysis entry now = (.ok value, after) ∧
        Kept ∅ results after ∧ value = none := by
    intro entry member now kept
    have scheduled := scheduled_of_mem_zipIdx member
    rw [← kept.subscribers] at scheduled
    obtain ⟨after, run, gains⟩ := (kept.atRest rest).evaluate isPure scheduled
    refine ⟨none, _, ?_, kept.withEval gains, rfl⟩
    simp only [checkScheduled, run_bind, onState, run_get, run, run_set, run_pure,
      show (∅ : Delta).isEmpty = true from rfl, if_true]
  obtain ⟨values, last, run, kept, allNone⟩ :=
    run_mapM (Kept ∅ results) (· = none) each (.refl rest.valid)
  have nothing : values.filterMap (·) = [] := by
    rw [List.filterMap_eq_nil_iff]
    exact allNone
  refine ⟨last, ?_, kept⟩
  unfold checkFixpoint
  rw [run_bind, run_get]
  dsimp only
  rw [run_bind, run]
  exact congrArg (fun growing => (Except.ok growing, last)) nothing

def scheduledName? (program : Program) (key : StatementId × Context) : Option String :=
  (program.describeStatement? key.1).map fun description => s!"{description} in {key.2.render}"

theorem onState_run {α : Type} (change : SolverState.Solve α) (now : Results) :
    onState change now = ((change now.state).1, { now with state := (change now.state).2 }) := by
  simp only [onState, run_bind, run_get]
  cases change now.state with
  | mk outcome after => cases outcome <;> rfl

section Turn

variable {analysis : Analysis} {key : StatementId × Context} {subscriber : SubscriberId}
  {now : Results} {answer : Option String}

private theorem checkScheduled_state :
    (checkScheduled analysis (key, subscriber) now).2 =
      { now with state := (SolverState.evaluate analysis ⟨subscriber, .full⟩ now.state).2 } := by
  rw [checkScheduled, run_bind, onState_run]
  cases (SolverState.evaluate analysis ⟨subscriber, .full⟩ now.state).1 with
  | error failure => rfl
  | ok delta =>
      dsimp only
      split
      · rfl
      · cases analysis.program.describeStatement? key.1 <;> rfl

theorem checkScheduled_eq_ok_iff :
    (checkScheduled analysis (key, subscriber) now).1 = .ok answer ↔
      ∃ delta, (SolverState.evaluate analysis ⟨subscriber, .full⟩ now.state).1 = .ok delta ∧
        if delta.isEmpty then answer = none
        else answer.isSome ∧ answer = scheduledName? analysis.program key := by
  rw [checkScheduled, run_bind, onState_run]
  cases (SolverState.evaluate analysis ⟨subscriber, .full⟩ now.state).1 with
  | error failure => simp
  | ok delta =>
      dsimp only
      split
      · next nothing =>
          simp only [run_pure, Except.ok.injEq, exists_eq_left', nothing, if_true]
          exact eq_comm
      · next adds =>
          rw [run_bind, scheduledName?]
          cases analysis.program.describeStatement? key.1 with
          | none => cases answer <;> simp [run_inRange_none, adds]
          | some description =>
              simp only [run_inRange_some, run_pure, Except.ok.injEq, exists_eq_left', adds]
              exact ⟨fun same => ⟨same ▸ rfl, same.symm⟩, fun named => named.2.symm⟩

theorem answer_eq_some_iff {name : String}
    (run : (checkScheduled analysis (key, subscriber) now).1 = .ok answer) :
    answer = some name ↔ Productive analysis now.state subscriber ∧
      scheduledName? analysis.program key = some name := by
  obtain ⟨delta, ran, said⟩ := checkScheduled_eq_ok_iff.mp run
  have productive_iff : Productive analysis now.state subscriber ↔ delta.isEmpty = false := by
    simp [Productive, ran]
  rw [productive_iff]
  split at said
  · next nothing => simp [said, nothing]
  · next adds => simp [said.2, adds]

end Turn

structure Unchanged (start now : Results) : Prop where
  analysis : now.analysis = start.analysis
  subscribers : now.state.subscribers = start.state.subscribers
  lists : start.graph.ListsSame now.graph

section Check

variable (isPure : results.analysis.abstraction.policy.IsPure)
  (statements : ∀ {subscriber key}, results.state.subscribers.key? subscriber = some key →
    ∃ statement, results.analysis.program.statement? key.1 = some statement)
  {now : Results} {subscriber : SubscriberId} {key : StatementId × Context}

include isPure statements

private theorem Unchanged.turn (unchanged : Unchanged results now)
    (scheduled : results.state.subscribers.key? subscriber = some key)
    (addsNothing : results.analysis.AddsNothing results.graph key) :
    (checkScheduled results.analysis (key, subscriber) now).1 = .ok none ∧
      Unchanged results (checkScheduled results.analysis (key, subscriber) now).2 := by
  obtain ⟨statement, found⟩ := statements scheduled
  rw [← unchanged.subscribers] at scheduled
  rw [← Analysis.addsNothing_iff unchanged.lists] at addsNothing
  obtain ⟨after, run, same⟩ :=
    evaluate_addsNothing isPure unchanged.lists.valid scheduled found addsNothing
  constructor
  · rw [checkScheduled_eq_ok_iff, run]
    exact ⟨∅, rfl, by rw [if_pos (Delta.isEmpty_iff.mpr rfl)]⟩
  · rw [checkScheduled_state, run]
    exact ⟨unchanged.analysis, unchanged.subscribers, unchanged.lists.trans same⟩

private theorem Unchanged.addsNothing (unchanged : Unchanged results now)
    (scheduled : results.state.subscribers.key? subscriber = some key)
    (silent : (checkScheduled results.analysis (key, subscriber) now).1 = .ok none) :
    results.analysis.AddsNothing results.graph key := by
  obtain ⟨statement, found⟩ := statements scheduled
  rw [← unchanged.subscribers] at scheduled
  rw [← Analysis.addsNothing_iff unchanged.lists]
  obtain ⟨delta, run, answer⟩ := checkScheduled_eq_ok_iff.mp silent
  split at answer
  · next nothing =>
      exact addsNothing_of_evaluate isPure unchanged.lists.valid scheduled found run nothing
  · cases answer.1

theorem checks_silent_iff {entries : List ((StatementId × Context) × SubscriberId)}
    (scheduled : ∀ entry ∈ entries, results.state.subscribers.key? entry.2 = some entry.1)
    (unchanged : Unchanged results now) :
    (∃ values, (entries.mapM (checkScheduled results.analysis) now).1 = .ok values ∧
      ∀ value ∈ values, value = none) ↔
      ∀ entry ∈ entries, results.analysis.AddsNothing results.graph entry.1 := by
  induction entries generalizing now with
  | nil => simp [List.mapM_nil, run_pure]
  | cons entry entries ih =>
      obtain ⟨here, others⟩ := List.forall_mem_cons.mp scheduled
      rw [List.forall_mem_cons]
      constructor
      · rintro ⟨_, run, silent⟩
        obtain ⟨value, rest, first, later, rfl⟩ := mapM_cons_eq_ok_iff.mp run
        obtain ⟨rfl, others'⟩ := List.forall_mem_cons.mp silent
        have addsNothing := unchanged.addsNothing isPure statements here first
        have unchanged := (unchanged.turn isPure statements here addsNothing).2
        exact ⟨addsNothing, (ih others unchanged).mp ⟨rest, later, others'⟩⟩
      · rintro ⟨addsNothing, rest⟩
        obtain ⟨first, unchanged⟩ := unchanged.turn isPure statements here addsNothing
        obtain ⟨values, run, silent⟩ := (ih others unchanged).mpr rest
        exact ⟨none :: values, mapM_cons_eq_ok_iff.mpr ⟨none, values, first, run, rfl⟩,
          List.forall_mem_cons.mpr ⟨rfl, silent⟩⟩

end Check

theorem checkFixpoint_eq_ok_iff {growing : List String} :
    (checkFixpoint results).1 = .ok growing ↔
      ∃ values, (results.state.subscribers.keys.zipIdx.mapM
        (checkScheduled results.analysis) results).1 = .ok values ∧
        values.filterMap (·) = growing := by
  rw [checkFixpoint, run_bind, run_get]
  dsimp only
  rw [run_bind]
  cases results.state.subscribers.keys.zipIdx.mapM (checkScheduled results.analysis) results with
  | mk outcome last => cases outcome <;> simp [run_pure]

/-- The check reports nothing just when no scheduled statement would fail or add anything. -/
theorem checkFixpoint_eq_nil_iff (isPure : results.analysis.abstraction.policy.IsPure)
    (valid : results.graph.Valid)
    (statements : ∀ {subscriber key}, results.state.subscribers.key? subscriber = some key →
      ∃ statement, results.analysis.program.statement? key.1 = some statement) :
    (checkFixpoint results).1 = .ok [] ↔
      ∀ subscriber key, results.state.subscribers.key? subscriber = some key →
        ¬ Productive results.analysis results.state subscriber := by
  have start : Unchanged results results := ⟨rfl, rfl, .refl _, valid, fun _ said => said⟩
  simp only [checkFixpoint_eq_ok_iff, List.filterMap_eq_nil_iff]
  refine (checks_silent_iff isPure statements (fun _ => scheduled_of_mem_zipIdx) start).trans ?_
  constructor
  · intro silent subscriber key scheduled
    obtain ⟨statement, found⟩ := statements scheduled
    rw [productive_iff isPure valid scheduled found, not_not]
    rw [Interner.key?_eq] at scheduled
    exact silent (key, subscriber) (List.mem_zipIdx_iff_getElem?.mpr scheduled)
  · intro idle entry member
    have scheduled := scheduled_of_mem_zipIdx member
    obtain ⟨statement, found⟩ := statements scheduled
    have idle := idle entry.2 entry.1 scheduled
    rwa [productive_iff isPure valid scheduled found, not_not] at idle

/-- What is left when it is a scheduled statement's turn to be checked. -/
def atTurn (results : Results) (subscriber : SubscriberId) : Results :=
  ((results.state.subscribers.keys.zipIdx.take subscriber).mapM
    (checkScheduled results.analysis) results).2

/-- The check reports those statements that still add something when it is their turn. -/
theorem mem_checkFixpoint_iff {growing : List String} {name : String}
    (run : (checkFixpoint results).1 = .ok growing) :
    name ∈ growing ↔ ∃ subscriber key, results.state.subscribers.key? subscriber = some key ∧
      Productive results.analysis (results.atTurn subscriber).state subscriber ∧
      scheduledName? results.program key = some name := by
  obtain ⟨values, checked, rfl⟩ := checkFixpoint_eq_ok_iff.mp run
  obtain ⟨length, turns⟩ := turns_of_mapM checked
  rw [List.length_zipIdx] at length
  have turn : ∀ {subscriber key answer},
      results.state.subscribers.key? subscriber = some key → values[subscriber]? = some answer →
      (answer = some name ↔
        Productive results.analysis (results.atTurn subscriber).state subscriber ∧
          scheduledName? results.program key = some name) := by
    intro subscriber key answer scheduled isAnswer
    rw [Interner.key?_eq] at scheduled
    refine answer_eq_some_iff (turns subscriber (key, subscriber) answer ?_ isAnswer)
    rw [List.getElem?_zipIdx, scheduled]
    simp
  rw [List.mem_filterMap]
  constructor
  · rintro ⟨_, member, rfl⟩
    obtain ⟨subscriber, isAnswer⟩ := List.mem_iff_getElem?.mp member
    have inside : subscriber < results.state.subscribers.keys.length :=
      length ▸ (List.getElem?_eq_some_iff.mp isAnswer).1
    have scheduled := (Interner.key?_eq _ _).trans (List.getElem?_eq_getElem inside)
    exact ⟨subscriber, _, scheduled, (turn scheduled isAnswer).mp rfl⟩
  · rintro ⟨subscriber, key, scheduled, reported⟩
    have inside : subscriber < values.length := by
      rw [length]
      exact (List.getElem?_eq_some_iff.mp ((Interner.key?_eq _ _).symm.trans scheduled)).1
    have isAnswer := List.getElem?_eq_getElem inside
    exact ⟨_, List.getElem_mem inside, (turn scheduled isAnswer).mpr reported⟩

end Results

/-! ## Pending work -/

namespace SolverState

variable {analysis : Analysis} {kind : SetKind} {state : SolverState}

/-- Whatever would still add something or fail is pending, in every order of steps; when nothing
is pending, the check of the fixpoint finds nothing. -/
theorem productive_isPending {config : Config}
    (chosen : HeapAbstraction.ofConfig config = .ok analysis.abstraction)
    (reachable : Reachable analysis kind state) :
    (∀ subscriber key, state.subscribers.key? subscriber = some key →
      Productive analysis state subscriber → ∃ item ∈ state.pending, item.subscriber = subscriber) ∧
    (state.pending = [] → ∀ stats timedOut,
      (Results.checkFixpoint ⟨analysis, state, stats, timedOut⟩).1 = .ok []) := by
  have pure := HeapAbstraction.isPure_of_config chosen
  have invariant := reachable.invariant pure
  have statements : ∀ {subscriber key}, state.subscribers.key? subscriber = some key →
      ∃ statement, analysis.program.statement? key.1 = some statement := by
    intro subscriber key scheduled
    obtain ⟨_, statement, _, _, _, found⟩ := invariant.statement scheduled
    exact ⟨statement, found⟩
  have isPending : ∀ subscriber key, state.subscribers.key? subscriber = some key →
      Productive analysis state subscriber →
      ∃ item ∈ state.pending, item.subscriber = subscriber := by
    intro subscriber key scheduled productive
    by_contra idle
    push Not at idle
    obtain ⟨statement, found⟩ := statements scheduled
    obtain ⟨after, run, _⟩ := evaluate_met pure invariant.valid scheduled found
      (invariant.met scheduled idle)
    cases productive ∅ (congrArg Prod.fst run)
  refine ⟨isPending, fun done stats timedOut => ?_⟩
  have valid : (Results.graph ⟨analysis, state, stats, timedOut⟩).Valid := invariant.valid
  refine (Results.checkFixpoint_eq_nil_iff pure valid statements).mpr ?_
  intro subscriber key scheduled productive
  obtain ⟨item, member, _⟩ := isPending subscriber key scheduled productive
  rw [done] at member
  cases member

end SolverState

def cloningProgram : Declaration.Program :=
  ⟨"Main.main",
    [⟨"B", none, none, false, []⟩,
      ⟨"A", none, none, false, [.field ⟨"f", "B", false⟩]⟩,
      ⟨"Main", none, none, false,
        [.method ⟨"main", none, true, false, false,
          [.local ⟨"x", "A", false⟩, .local ⟨"y", "A", false⟩, .local ⟨"v", "B", false⟩,
            .statement .new { target := some "x", type := some "A" },
            .statement .new { target := some "v", type := some "B" },
            .statement .store { base := some "x", field := some "f", source := some "v" },
            .statement .call
              { target := some "y", receiver := some "x", method := some "Object.clone" }]⟩]⟩]⟩

def recencySettings : Config := { Config.default with policy := "insensitive", recency := true }

def plainSettings : Config := { recencySettings with recency := false }

theorem productive_isPending_cloning : ∃ results : Results,
    cloningProgram.load = .ok results.program ∧
      HeapAbstraction.ofConfig recencySettings = .ok results.analysis.abstraction ∧
      (SolverState.Reachable results.analysis .hashed results.state ∧ results.state.pending = [] ∧
        (Results.checkFixpoint results).1 = .ok []) ∧
      ∃ state key, SolverState.Reachable results.analysis .hashed state ∧
        state.subscribers.key? 2 = some key ∧ SolverState.Productive results.analysis state 2 ∧
        ∃ item ∈ state.pending, item.subscriber = 2 := by
  obtain ⟨results, loaded, chosen, solved, done, midway⟩ :=
    cloningProgram.exists_finished recencySettings (fun results =>
      let midway := SolverState.run results.analysis 2 (.seed results.analysis .hashed)
      midway.toOption.any fun state =>
        (state.subscribers.key? 2).isSome ∧ SolverState.Productive results.analysis state 2)
      (by decide +kernel)
  have reachable := Analysis.solve_reachable solved
  obtain ⟨state, run, checked⟩ := (Option.any_eq_true _ _).mp midway
  obtain ⟨isScheduled, productive⟩ := of_decide_eq_true checked
  obtain ⟨key, scheduled⟩ := Option.isSome_iff_exists.mp isScheduled
  have reachable' := SolverState.Reachable.seed.run (toOption_eq_some.mp run)
  exact ⟨results, loaded, chosen,
    ⟨reachable, done, (SolverState.productive_isPending chosen reachable).2 done _ _⟩,
    state, key, reachable', scheduled, productive,
    (SolverState.productive_isPending chosen reachable').1 2 key scheduled productive⟩

end ObjectFlow
