import ObjectFlow.Proofs.Solver.Canonical
import ObjectFlow.Proofs.Solver.Failures
import ObjectFlow.Proofs.Solver.Recency

/-!
# Asking leaves results alone

Two questions work on the graph of the results itself.  Checking the fixpoint
evaluates every scheduled statement, which adds nothing once the run is done.
Looking at a flow-sensitive variable at a moment ages what it holds and names the
summaries it needs.  They have been named before, when the objects were folded
into them, but for those of clones: nothing folds a clone.
-/

namespace ObjectFlow

open Effect

private theorem Frame.ageObjects_allowed (frame : Frame) {bound : Set Fact} {state : EvalState}
    (pure : frame.abstraction.policy.IsPure) {write : ObservedWrite} {ids : IdSet}
    (inside : Inside frame.subscriber bound state)
    (known : ∀ id ∈ ids, ∃ object seen, state.graph.object? id = some object ∧
      frame.aged? write object = some seen ∧ ∀ other ∈ seen, .object other ∈ bound) :
    Meets frame.subscriber bound
      (ageObjects frame.program frame.abstraction frame.context write ids) state
      fun _ _ => True := by
  have each : ∀ id ∈ ids.toList, ∀ after, Grows frame.subscriber state after →
      Inside frame.subscriber bound after →
      Meets frame.subscriber bound
        (ageObject frame.program frame.abstraction frame.context write id) after
        fun _ _ => True := by
    intro id member after grows inside'
    obtain ⟨object, seen, named, answer, allowed⟩ := known id member
    refine (ageObject_meets pure inside' (grows.object named) ?_ ?_).mono
      fun _ _ _ _ _ => trivial
    · intro refused
      rw [answer] at refused
      cases refused
    · intro seen' answer'
      cases answer.symm.trans answer'
      exact allowed
  refine (Meets.mapM (fun _ _ _ => True) (fun _ _ _ _ _ => id) inside each).bind ?_
  exact fun _ _ _ inside' _ => Meets.pure inside' trivial

namespace Results

/-! ## Questions -/

inductive Question where
  | pointsTo (declared : Variable) (context : Context)
  | pointsToAt (declared : Variable) (context : Context) (moment : Moment)
  | fieldPointsTo (object : ObjectId) (key : FieldKey)
  | canonical
  | callGraph
  | checkFixpoint

inductive Answer where
  | objects (ids : IdSet)
  | named (entries : List (String × OrderedSet String))
  | calls (graph : CallGraph)
  | growing (statements : List String)

def Question.ask : Question → Query Answer
  | .pointsTo declared context => do pure (.objects ((← get).pointsTo declared context))
  | .pointsToAt declared context moment => do
      pure (.objects (← Results.pointsToAt declared context moment))
  | .fieldPointsTo object key => do pure (.objects ((← get).fieldPointsTo object key))
  | .canonical => do pure (.named (← inRange (← get).canonical?))
  | .callGraph => do pure (.calls (← get).callGraph)
  | .checkFixpoint => do pure (.growing (← Results.checkFixpoint))

def Question.ages : Question → Bool
  | .pointsToAt declared _ _ => declared.flowSensitive
  | _ => false

/-- The summaries of the clones among the objects. -/
def cloneSummaries (results : Results) : Set HeapObject :=
  {summary | ∃ clone ∈ results.graph.objects.keys, clone.site.kind = .clone ∧
    results.analysis.abstraction.summaryOf clone = some summary}

/-- What answering relies on: a summary that is asked for has been named, or is that of a
clone. -/
structure Answerable (results : Results) : Prop extends Described results where
  pure : results.analysis.abstraction.policy.IsPure
  rest : SolverState.AtRest results.analysis results.state
  points : ∀ id point, results.program.flow.writes id point = true →
    ∃ place, results.program.flow.point? point = some place
  summaries : ∀ {node id object summary}, results.graph.HasEdge node id →
    results.graph.object? id = some object →
    results.analysis.abstraction.summaryOf object = some summary →
    summary ∈ results.graph.objects.keys ∨ summary ∈ results.cloneSummaries

section Finished

variable {results : Results} {kind : SetKind} {config : Config} {declared : Declaration.Program}

/-- When a run is finished, the summary of an object that some node holds has been named, unless
the object is a clone. -/
theorem summary_named (chosen : HeapAbstraction.ofConfig config = .ok results.analysis.abstraction)
    (reachable : SolverState.Reachable results.analysis kind results.state)
    (done : results.state.pending = []) {node : NodeId} {id : ObjectId}
    {object summary : HeapObject} (held : results.graph.HasEdge node id)
    (named : results.graph.object? id = some object)
    (isSummary : results.analysis.abstraction.summaryOf object = some summary)
    (notClone : object.site.kind ≠ .clone) : summary ∈ results.graph.objects.keys := by
  have pure := HeapAbstraction.isPure_of_config chosen
  cases recency : config.recency with
  | false =>
      rw [HeapAbstraction.undivided_of_config chosen recency] at isSummary
      cases isSummary
  | true =>
      have tells := HeapAbstraction.tellsRecency_of_config chosen recency
      obtain ⟨isRecent, rfl⟩ := tells.recency_of_summary isSummary
      obtain ⟨place, edge⟩ := edge_of_hasEdge (reachable.invariant pure).valid named held
      obtain ⟨isNamed | ⟨_, same⟩, _⟩ := reachable.covered pure
        (HeapAbstraction.confined_of_config chosen) tells done edge isRecent notClone (0, .empty)
      · exact Interner.mem_keys_iff.mpr isNamed.1
      · cases same

private theorem answerable_of_finished (loaded : declared.load = .ok results.program)
    (chosen : HeapAbstraction.ofConfig config = .ok results.analysis.abstraction)
    (reachable : SolverState.Reachable results.analysis kind results.state)
    (done : results.state.pending = []) : results.Answerable where
  toDescribed := described_of_reachable loaded chosen reachable
  pure := HeapAbstraction.isPure_of_config chosen
  rest := (reachable.invariant (HeapAbstraction.isPure_of_config chosen)).atRest done
  points := (Declaration.load_placed loaded).points
  summaries {node id object summary} held named isSummary := by
    by_cases isClone : object.site.kind = .clone
    · exact .inr ⟨object, Interner.mem_keys_iff.mpr ⟨id, named⟩, isClone, isSummary⟩
    · exact .inl (summary_named chosen reachable done held named isSummary isClone)

private theorem Described.exists_namedObjects? (described : results.Described) :
    ∃ names, results.namedObjects? = some names := by
  have all : ∀ entry ∈ results.graph.objects.keys.zipIdx, ∃ named,
      (do pure (← results.describeObject? entry.2, entry.1) : Option (String × HeapObject)) =
        some named := by
    intro entry member
    have named : results.graph.object? entry.2 = some entry.1 := by
      rw [Graph.object?, Interner.key?_eq]
      exact List.mem_zipIdx_iff_getElem?.mp member
    obtain ⟨name, isName⟩ := described.objects _ _ named
    have isText : results.describeObject? entry.2 = some name := by
      rw [describeObject?_eq, named, Option.bind_some, isName]
    exact ⟨(name, entry.1), by rw [isText]; rfl⟩
  obtain ⟨names, run, _⟩ := mapM_option all
  exact ⟨names, run⟩

private theorem cloneSummaries_of_plain
    (chosen : HeapAbstraction.ofConfig config = .ok results.analysis.abstraction)
    (plain : config.recency = false) : results.cloneSummaries = ∅ := by
  refine Set.eq_empty_of_forall_notMem fun summary ⟨clone, _, _, isSummary⟩ => ?_
  rw [HeapAbstraction.undivided_of_config chosen plain] at isSummary
  cases isSummary

end Finished

namespace Kept

/-! ## What is kept -/

section Names

variable {more : Set HeapObject} {start now : Results} (kept : Kept more start now)

include kept

theorem program : now.program = start.program :=
  congrArg Analysis.program kept.analysis

private theorem describeObject?_eq {id : ObjectId} {object : HeapObject}
    (named : start.graph.object? id = some object) :
    now.describeObject? id = start.describeObject? id := by
  rw [Results.describeObject?_eq, Results.describeObject?_eq, kept.gains.extend.object named,
    named, kept.program]

private theorem namedNode?_eq (valid : start.graph.Valid) (id : NodeId) :
    now.namedNode? id = start.namedNode? id := by
  have node : now.describeNode? id = start.describeNode? id := by
    rw [describeNode?_eq, describeNode?_eq, kept.gains.place?_eq, kept.program]
  unfold namedNode?
  rw [kept.gains.pointsTo?_eq, node]
  cases found : start.graph.pointsTo? id with
  | none => rfl
  | some objects =>
      have names : objects.toList.mapM now.describeObject? =
          objects.toList.mapM start.describeObject? := mapM_option_congr fun object member => by
        obtain ⟨_, named⟩ := valid.target id object ⟨objects, found, member⟩
        exact kept.describeObject?_eq named
      simp only [Option.bind_eq_bind, Option.bind_some, names]

theorem canonical?_eq (valid : start.graph.Valid) : now.canonical? = start.canonical? := by
  have size : now.graph.nodes.size = start.graph.nodes.size := by
    have same := congrArg List.length kept.gains.nodes_eq
    simpa [Interner.keys, Interner.size] using same
  unfold canonical?
  rw [size, funext kept.gains.pointsTo?_eq, funext (kept.namedNode?_eq valid)]

private theorem namedObjects?_eq (same : now.graph.objects.keys = start.graph.objects.keys) :
    now.namedObjects? = start.namedObjects? := by
  have object : now.graph.object? = start.graph.object? := by
    funext id
    rw [Graph.object?, Graph.object?, Interner.key?_eq, Interner.key?_eq, same]
  have describe : now.describeObject? = start.describeObject? := by
    funext id
    rw [Results.describeObject?_eq, Results.describeObject?_eq, object, kept.program]
  unfold namedObjects?
  rw [same, describe]

end Names

/-! ## What a question adds -/

variable {more : Set HeapObject} {start now : Results} (kept : Kept more start now)

include kept

private theorem onGraph {α : Type} {evaluation : Eval α} {goal : α → EvalState → Prop}
    (meets : Meets 0 (now.graph.facts 0 ∪ Fact.object '' more) evaluation now.state.evalState
      goal) :
    ∃ value after, onState (SolverState.onGraph evaluation) now = (.ok value, after) ∧
      Kept more start after := by
  unfold Meets at meets
  split at meets
  · next value after run =>
      obtain ⟨⟨_, growth, _⟩, inside, _⟩ := meets
      refine ⟨(value, after.produced), _, ?_, kept.withEval ⟨growth.toExtends, inside.valid,
        growth.facts_within (by simp) (by simp) inside.facts⟩⟩
      have run' : evaluation ⟨now.state.graph, now.state.requests, ∅⟩ = (.ok value, after) := run
      simp only [onState, SolverState.onGraph, run_bind, run_get, run', run_set, run_pure]
      rfl
  · rcases meets with impossible | ⟨_, _, same⟩
    · exact absurd impossible (Graph.failure_notMem_facts _ _)
    · cases same

variable (answerable : start.Answerable)

include answerable

private theorem ageObjects (ofClones : start.cloneSummaries ⊆ more) (context : Context)
    {declared : VariableId} {kill : PointId} (moment : Moment)
    (writes : start.program.flow.writes declared kill = true) (nodes : List Node) :
    ∃ value after, onState (SolverState.onGraph (Frame.ageObjects start.program
        start.analysis.abstraction context ⟨declared, kill, moment⟩ (now.unionOf nodes))) now =
        (.ok value, after) ∧
      Kept more start after := by
  let frame := start.analysis.frame (0, context) 0
  refine kept.onGraph (frame.ageObjects_allowed answerable.pure
    ⟨kept.gains.valid, Set.subset_union_left⟩ fun id member => ?_)
  obtain ⟨_, _, node, _, held⟩ := mem_unionOf.mp member
  have held' := kept.gains.hasEdge_iff.mp held
  obtain ⟨object, named⟩ := answerable.valid.target node id held'
  obtain ⟨place, isPlace⟩ := answerable.points declared kill writes
  have isAged : ∃ seen, frame.aged? ⟨declared, kill, moment⟩ object = some seen := by
    unfold Frame.aged?
    rw [show frame.program.flow.point? kill = some place from isPlace]
    exact ⟨_, rfl⟩
  obtain ⟨seen, aged⟩ := isAged
  refine ⟨object, seen, kept.gains.extend.object named, aged, fun other listed => ?_⟩
  rcases Frame.aged?_cases aged listed with rfl | isSummary
  · exact .inl ⟨id, kept.gains.extend.object named⟩
  · rcases answerable.summaries held' named isSummary with isNamed | ofClone
    · obtain ⟨known, named'⟩ := Interner.mem_keys_iff.mp isNamed
      exact .inl ⟨known, kept.gains.extend.object named'⟩
    · exact .inr ⟨other, ofClones ofClone, rfl⟩

private theorem pointsToAt (declared : Variable) (context : Context) (moment : Moment)
    (ofClones : declared.flowSensitive = true → start.cloneSummaries ⊆ more) :
    ∃ ids after, Results.pointsToAt declared context moment now = (.ok ids, after) ∧
      Kept more start after := by
  unfold Results.pointsToAt
  rw [run_bind, run_get]
  dsimp only
  split
  · next sensitive =>
      rw [kept.analysis, kept.program]
      refine run_bind_ok (run_mapM (Kept more start) (fun _ => True)
        (fun kill reaches between kept' => ?_) kept) fun _ after kept' => ⟨_, after, rfl, kept'.1⟩
      rw [run_bind, run_get]
      have writes := ControlFlow.writes_of_reachingKills reaches
      exact run_bind_ok
        (kept'.ageObjects answerable (ofClones sensitive) context moment writes _)
        fun _ after kept' => ⟨_, after, rfl, kept', trivial⟩
  · exact ⟨_, now, rfl, kept⟩

private theorem ask (question : Question)
    (ofClones : question.ages = true → start.cloneSummaries ⊆ more) :
    ∃ answer after, question.ask now = (.ok answer, after) ∧ Kept more start after := by
  cases question with
  | pointsTo declared context => exact ⟨_, now, rfl, kept⟩
  | pointsToAt declared context moment =>
      exact run_bind_ok (kept.pointsToAt answerable declared context moment ofClones)
        fun _ after kept' => ⟨_, after, rfl, kept'⟩
  | fieldPointsTo object key => exact ⟨_, now, rfl, kept⟩
  | canonical =>
      obtain ⟨dump, isDump⟩ := answerable.exists_canonical?
      have same := (kept.canonical?_eq answerable.valid).trans isDump
      refine ⟨.named dump, now, ?_, kept⟩
      simp only [Question.ask, run_bind, run_get, same, run_inRange_some, run_pure]
  | callGraph => exact ⟨_, now, rfl, kept⟩
  | checkFixpoint =>
      have isPure : now.analysis.abstraction.policy.IsPure := by
        rw [kept.analysis]
        exact answerable.pure
      have rest : SolverState.AtRest now.analysis now.state := by
        rw [kept.analysis]
        exact kept.atRest answerable.rest
      obtain ⟨checked, run, kept'⟩ := checkFixpoint_keeps isPure rest
      exact run_bind_ok ⟨[], checked, run, kept.trans (kept'.mono (Set.empty_subset _))⟩
        fun _ after kept => ⟨_, after, rfl, kept⟩

end Kept

/-- Questions to the results of a finished run all have an answer, and leave the nodes, what they
point to and the calls as they are.  The only objects that they may add are summaries of clones, if
recency is told and objects are aged for an answer. -/
theorem questions_keep_results {results : Results} {kind : SetKind} {config : Config}
    {declared : Declaration.Program} (loaded : declared.load = .ok results.program)
    (chosen : HeapAbstraction.ofConfig config = .ok results.analysis.abstraction)
    (reachable : SolverState.Reachable results.analysis kind results.state)
    (done : results.state.pending = []) (questions : List Question) :
    ∃ answers after, questions.mapM Question.ask results = (.ok answers, after) ∧
      after.graph.nodes.keys = results.graph.nodes.keys ∧
      (∀ node, after.graph.pointsTo? node = results.graph.pointsTo? node) ∧
      after.graph.callEdges = results.graph.callEdges ∧
      (∃ dump, results.canonical? = some dump ∧ after.canonical? = some dump) ∧
      (∃ added, after.graph.objects.keys = results.graph.objects.keys ++ added ∧
        ∀ object ∈ added, object ∈ results.cloneSummaries) ∧
      (config.recency = false ∨ (∀ question ∈ questions, question.ages = false) ∨
          (∀ summary ∈ results.cloneSummaries, summary ∈ results.graph.objects.keys) →
        after.graph.objects.keys = results.graph.objects.keys ∧
        ∃ names, results.namedObjects? = some names ∧ after.namedObjects? = some names) := by
  have answerable := answerable_of_finished loaded chosen reachable done
  obtain ⟨dump, isDump⟩ := answerable.exists_canonical?
  obtain ⟨names, isNames⟩ := answerable.exists_namedObjects?
  let more : Set HeapObject :=
    {summary ∈ results.cloneSummaries | ∃ question ∈ questions, question.ages = true}
  have each : ∀ question ∈ questions, ∀ now, Kept more results now →
      ∃ answer after, question.ask now = (.ok answer, after) ∧ Kept more results after ∧ True := by
    intro question member now kept
    obtain ⟨answer, after, run, kept'⟩ := kept.ask answerable question
      fun ages summary ofClone => ⟨ofClone, question, member, ages⟩
    exact ⟨answer, after, run, kept', trivial⟩
  obtain ⟨answers, after, run, kept, _⟩ :=
    run_mapM (Kept more results) (fun _ => True) each (.refl answerable.valid)
  obtain ⟨added, objects, isAdded⟩ := kept.gains.exists_added
  refine ⟨answers, after, run, kept.gains.nodes_eq, kept.gains.pointsTo?_eq,
    kept.gains.callEdges_eq, ⟨dump, isDump, (kept.canonical?_eq answerable.valid).trans isDump⟩,
    ⟨added, objects, fun object member => (isAdded object member).1.1⟩, fun nothingNew => ?_⟩
  have nothing : added = [] := by
    refine List.eq_nil_iff_forall_not_mem.mpr fun object member => ?_
    obtain ⟨⟨ofClone, question, asked, ages⟩, isNew⟩ := isAdded object member
    rcases nothingNew with plain | unaged | named
    · rw [cloneSummaries_of_plain chosen plain] at ofClone
      exact ofClone
    · exact absurd (ages.symm.trans (unaged question asked)) nofun
    · exact isNew (named object ofClone)
  have same : after.graph.objects.keys = results.graph.objects.keys := by
    rw [objects, nothing, List.append_nil]
  exact ⟨same, names, isNames, (kept.namedObjects?_eq same).trans isNames⟩

theorem questions_keep_results_recloning : ∃ (results : Results) (answers : List Answer)
    (after : Results), recloningProgram.load = .ok results.program ∧
      HeapAbstraction.ofConfig recencySettings = .ok results.analysis.abstraction ∧
      SolverState.Reachable results.analysis .hashed results.state ∧ results.state.pending = [] ∧
      (∀ summary ∈ results.cloneSummaries, summary ∈ results.graph.objects.keys) ∧
      [Question.pointsToAt ⟨4, 11, false, true⟩ .empty (.after 6), .checkFixpoint, .canonical].mapM
        Question.ask results = (.ok answers, after) ∧
      after.graph.objects.keys = results.graph.objects.keys ∧
      (∃ names, results.namedObjects? = some names ∧ after.namedObjects? = some names) ∧
      ∃ dump, results.canonical? = some dump ∧ after.canonical? = some dump := by
  obtain ⟨results, loaded, chosen, solved, done, named⟩ :=
    recloningProgram.exists_finished recencySettings (fun results =>
      ∀ clone ∈ results.graph.objects.keys, clone.site.kind = .clone →
        ∀ summary ∈ results.analysis.abstraction.summaryOf clone,
          summary ∈ results.graph.objects.keys) (by decide +kernel)
  have reachable := Analysis.solve_reachable solved
  have namedBefore : ∀ summary ∈ results.cloneSummaries, summary ∈ results.graph.objects.keys := by
    rintro summary ⟨clone, isObject, isClone, isSummary⟩
    exact named clone isObject isClone summary isSummary
  obtain ⟨answers, after, run, _, _, _, canonical, _, same⟩ := questions_keep_results loaded chosen
    reachable done
    [.pointsToAt ⟨4, 11, false, true⟩ .empty (.after 6), .checkFixpoint, .canonical]
  obtain ⟨objects, described⟩ := same (.inr (.inr namedBefore))
  exact ⟨results, answers, after, loaded, chosen, reachable, done, namedBefore, run, objects,
    described, canonical⟩

end Results

def keepingProgram : Declaration.Program :=
  ⟨"Main.main",
    [⟨"A", none, none, false, []⟩,
      ⟨"Main", none, none, false,
        [.method ⟨"main", none, true, false, false,
          [.local ⟨"x", "A", false⟩, .local ⟨"copy", "A", true⟩, .local ⟨"prev", "A", true⟩,
            .statement .new { target := some "x", type := some "A" },
            .statement .copy
              { target := some "prev", source := some "copy", label := some "top" },
            .statement .call
              { target := some "copy", receiver := some "x", method := some "Object.clone",
                branch := some "top" }]⟩]⟩]⟩

/-- Looking at the clone before the last names its summary. -/
theorem question_adds_summary : ∃ (results : Results) (clone : HeapObject),
    keepingProgram.load = .ok results.program ∧
      HeapAbstraction.ofConfig recencySettings = .ok results.analysis.abstraction ∧
      SolverState.Reachable results.analysis .hashed results.state ∧ results.state.pending = [] ∧
      clone.site.kind = .clone ∧ clone ∈ results.graph.objects.keys ∧
      clone.withRecency .summary ∉ results.graph.objects.keys ∧
      ([Results.Question.pointsToAt ⟨3, 10, false, true⟩ .empty (.after 4)].mapM
        Results.Question.ask results).2.graph.objects.keys =
          results.graph.objects.keys ++ [clone.withRecency .summary] ∧
      results.namedObjects?.map List.length = some 3 ∧
      ([Results.Question.pointsToAt ⟨3, 10, false, true⟩ .empty (.after 4)].mapM
        Results.Question.ask results).2.namedObjects?.map List.length = some 4 := by
  let clone : HeapObject := ⟨⟨1, 2, 10, .clone⟩, .empty, .mostRecent⟩
  obtain ⟨results, loaded, chosen, solved, done, isClone, isNew, added, before, after⟩ :=
    keepingProgram.exists_finished recencySettings (fun results =>
      clone ∈ results.graph.objects.keys ∧
        clone.withRecency .summary ∉ results.graph.objects.keys ∧
        ([Results.Question.pointsToAt ⟨3, 10, false, true⟩ .empty (.after 4)].mapM
          Results.Question.ask results).2.graph.objects.keys =
            results.graph.objects.keys ++ [clone.withRecency .summary] ∧
        results.namedObjects?.map List.length = some 3 ∧
        ([Results.Question.pointsToAt ⟨3, 10, false, true⟩ .empty (.after 4)].mapM
          Results.Question.ask results).2.namedObjects?.map List.length = some 4)
      (by decide +kernel)
  exact ⟨results, clone, loaded, chosen, Analysis.solve_reachable solved, done, rfl, isClone,
    isNew, added, before, after⟩

end ObjectFlow
