import ObjectFlow.Proofs.Solver.Answers
import ObjectFlow.Proofs.Solver.Soundness

/-!
# Summaries of recent objects

When recency is told, a most recent object stands for the newest object of its
site and its summary for all of them.  Every allocation but a clone folds the
object it makes into its summary, so when a run is finished the slots of the
summary hold whatever those of the object do.
-/

namespace ObjectFlow

open Demand

namespace Frame

variable {frame : Frame} {facts : Set Fact} {object : HeapObject}

private theorem copied_of_met {target : HeapObject} (safe : .failure ∉ facts)
    (met : frame.copying object target facts ⊆ facts) : ∃ keys, frame.slots? object = some keys ∧
      ∀ key ∈ keys, ∃ here there, frame.slot? object key = some here ∧
        frame.slot? target key = some there ∧
        ∀ held, .edge here held ∈ facts → .edge there held ∈ facts := by
  obtain ⟨keys, slots, met⟩ := orFail_met safe met
  refine ⟨keys, slots, fun key member => ?_⟩
  have met : orFail (frame.slot? object key) _ facts ⊆ facts :=
    fun fact demanded => met ⟨key, member, demanded⟩
  obtain ⟨here, isHere, met⟩ := orFail_met safe met
  obtain ⟨there, isThere, met⟩ := orFail_met safe (both_closed met).2
  refine ⟨here, there, isHere, isThere, fun held edge => (both_closed met).2 (.inl ⟨held, ?_, rfl⟩)⟩
  rw [shown_direct]
  exact edge

private theorem Targets.slotType? {statement : Statement} {key : FieldKey} {type : TypeId}
    (targets : frame.Targets statement facts (.field object key type)) :
    frame.slotType? object key = some type := by
  generalize same : Place.field object key type = place at targets
  cases targets with
  | own _ found =>
      rcases written?_cases found with rfl | ⟨_, _, rfl⟩ <;> cases same
  | formal _ _ _ _ => cases same
  | slot _ _ found =>
      subst same
      obtain ⟨type, found, same⟩ := Option.map_eq_some_iff.mp found
      cases same
      exact found

theorem Seen.edge_of_recent (seen : frame.Seen facts object)
    (tells : frame.abstraction.policy.TellsRecency) (recent : object.recency = .mostRecent) :
    ∃ place, .edge place object ∈ facts := by
  obtain ⟨place, held, edge, rfl | isSummary⟩ := seen
  · exact ⟨place, edge⟩
  · obtain ⟨_, rfl⟩ := tells.recency_of_summary isSummary
    cases recent

end Frame

namespace SolverState

variable {analysis : Analysis} {kind : SetKind} {state : SolverState} {object : HeapObject}
  {place : Place}

private theorem Reachable.slotType? (pure : analysis.abstraction.policy.IsPure)
    (reachable : Reachable analysis kind state) (done : state.pending = []) {key : FieldKey}
    {type : TypeId} {held : HeapObject}
    (edge : .edge (.field object key type) held ∈ watching state.graph.content)
    (frame : StatementId × Context) :
    (analysis.frame frame 0).slotType? object key = some type := by
  let typed : Set Fact := {fact | ∀ object key type held,
    fact = .edge (.field object key type) held →
      (analysis.frame frame 0).slotType? object key = some type}
  have holds : state.graph.content ⊆ typed := by
    refine reachable.content_subset_of_origins pure done
      (fun place => by rintro _ _ _ _ ⟨⟩) (fun method => by rintro _ _ _ _ ⟨⟩) ?_
    rintro _ statement found met _ origin object key type held rfl
    cases origin with
    | edge flow => exact flow.targets.slotType?
  exact holds (edge.resolve_right fun ⟨_, same⟩ => by cases same) _ _ _ _ rfl

private theorem Reachable.folded {depth heapDepth : Nat} (pure : analysis.abstraction.policy.IsPure)
    (confined : analysis.abstraction.policy.Confined depth heapDepth)
    (tells : analysis.abstraction.policy.TellsRecency)
    (reachable : Reachable analysis kind state) (done : state.pending = [])
    (edge : .edge place object ∈ watching state.graph.content)
    (recent : object.recency = .mostRecent) (notClone : object.site.kind ≠ .clone)
    (frame : StatementId × Context) :
    (analysis.frame frame 0).folding object (watching state.graph.content) ⊆
      watching state.graph.content := by
  let folded : Set Fact := {fact | ∀ place object, fact = .edge place object →
    object.recency = .mostRecent → object.site.kind ≠ .clone →
      (analysis.frame frame 0).folding object (watching state.graph.content) ⊆
        watching state.graph.content}
  have holds : state.graph.content ⊆ folded := by
    refine reachable.content_subset_of_origins pure done
      (fun place => by rintro _ _ ⟨⟩) (fun method => by rintro _ _ ⟨⟩) ?_
    rintro key statement found met _ origin place object rfl recent notClone
    cases origin with
    | edge flow => cases flow.moves with
      | seen isSeen =>
          obtain ⟨place, _, isFolded⟩ := isSeen.edge_of_recent tells recent
          exact isFolded place object rfl recent notClone
      | @fresh site _ _ recorded folds =>
          have sameSite : object.site = site := by
            obtain ⟨_, _, rfl⟩ := Option.map_eq_some_iff.mp recorded
            exact confined.site site _
          rw [sameSite] at notClone
          rw [analysis.demand_eq found 0] at met
          exact (folds notClone _ _ met).resolve_left (Graph.failure_notMem_watching _)
  exact holds (edge.resolve_right fun ⟨_, same⟩ => by cases same) _ _ rfl recent notClone

/-- When a run is finished, the summary of what was allocated other than by cloning holds what the
object itself does. -/
theorem Reachable.covered {depth heapDepth : Nat} (pure : analysis.abstraction.policy.IsPure)
    (confined : analysis.abstraction.policy.Confined depth heapDepth)
    (tells : analysis.abstraction.policy.TellsRecency)
    (reachable : Reachable analysis kind state) (done : state.pending = [])
    (edge : .edge place object ∈ watching state.graph.content)
    (recent : object.recency = .mostRecent) (notClone : object.site.kind ≠ .clone)
    (frame : StatementId × Context) :
    .object (object.withRecency .summary) ∈ watching state.graph.content ∧
      ∃ keys, (analysis.frame frame 0).slots? object = some keys ∧ ∀ key ∈ keys, ∀ type held,
        .edge (.field object key type) held ∈ watching state.graph.content →
          .edge (.field (object.withRecency .summary) key type) held ∈
            watching state.graph.content := by
  have folded := reachable.folded pure confined tells done edge recent notClone frame
  have isSummary : (analysis.frame frame 0).abstraction.summaryOf object =
      some (object.withRecency .summary) :=
    (tells object).trans (if_pos recent)
  rw [Frame.folding, isSummary] at folded
  obtain ⟨named, copied⟩ := both_closed folded
  obtain ⟨keys, slots, copied⟩ := Frame.copied_of_met (Graph.failure_notMem_watching _) copied
  refine ⟨named rfl, keys, slots, fun key member type held edge => ?_⟩
  obtain ⟨here, there, isHere, isThere, copied⟩ := copied key member
  have typed := reachable.slotType? pure done edge frame
  have typed' : (analysis.frame frame 0).slotType? (object.withRecency .summary) key = some type :=
    typed
  rw [Frame.slot?, typed] at isHere
  rw [Frame.slot?, typed'] at isThere
  cases isHere
  cases isThere
  exact copied held edge

end SolverState

namespace Results

open SolverState

variable {results : Results} {kind : SetKind} {config : Config}

theorem edge_of_hasEdge {node : NodeId} {id : ObjectId} {object : HeapObject}
    (valid : results.graph.Valid) (named : results.graph.object? id = some object)
    (held : results.graph.HasEdge node id) :
    ∃ place, .edge place object ∈ watching results.graph.content := by
  obtain ⟨place, located⟩ := valid.place?_of_hasEdge held
  exact ⟨place, Graph.facts_subset_watching _ 0 ⟨node, id, located, named, held⟩⟩

/-- When a run is finished, a most recent object that some node holds has its reference slots
covered by those of its summary, unless it is a clone. -/
theorem summary_covers_recent
    (chosen : HeapAbstraction.ofConfig config = .ok results.analysis.abstraction)
    (recency : config.recency = true)
    (reachable : Reachable results.analysis kind results.state)
    (done : results.state.pending = []) {recent : ObjectId} {object : HeapObject} {node : NodeId}
    (named : results.graph.object? recent = some object)
    (isRecent : object.recency = .mostRecent) (held : results.graph.HasEdge node recent)
    (notClone : object.site.kind ≠ .clone) (key : StatementId × Context) :
    ∃ summary keys, results.graph.object? summary = some (object.withRecency .summary) ∧
      ((results.analysis.frame key 0).referenceFields recent results.state.evalState).1 =
        .ok keys ∧
      ∀ slot ∈ keys, ∀ id ∈ results.fieldPointsTo recent slot,
        id ∈ results.fieldPointsTo summary slot := by
  have pure := HeapAbstraction.isPure_of_config chosen
  have tells := HeapAbstraction.tellsRecency_of_config chosen recency
  have valid := (reachable.invariant pure).valid
  obtain ⟨place, edge⟩ := edge_of_hasEdge valid named held
  obtain ⟨⟨isSummary, _⟩ | ⟨_, same⟩, keys, slots, covered⟩ := reachable.covered pure
    (HeapAbstraction.confined_of_config chosen) tells done edge isRecent notClone key
  · obtain ⟨summary, named'⟩ := isSummary
    refine ⟨summary, keys, named', ?_, fun slot member id stored => ?_⟩
    · rw [Frame.referenceFields_run _ (show results.state.evalState.graph.object? recent = _ from
        named), slots]
      rfl
    · obtain ⟨value, isValue⟩ := named_of_mem_unionOf valid stored
      obtain ⟨type, said⟩ := (mem_fieldPointsTo 0 named isValue).mp stored
      have said := covered slot member type value (Graph.facts_subset_watching _ 0 said)
      exact (mem_fieldPointsTo 0 named' isValue).mpr ⟨type, Graph.edge_of_watching said 0⟩
  · cases same

end Results

def recloningProgram : Declaration.Program :=
  ⟨"Main.main",
    [⟨"B", none, none, false, []⟩,
      ⟨"A", none, none, false, [.field ⟨"f", "B", false⟩]⟩,
      ⟨"Main", none, none, false,
        [.method ⟨"main", none, true, false, false,
          [.local ⟨"x", "A", false⟩, .local ⟨"v", "B", false⟩, .local ⟨"copy", "A", true⟩,
            .local ⟨"prev", "A", true⟩, .local ⟨"older", "A", false⟩,
            .local ⟨"inner", "B", false⟩,
            .statement .new { target := some "x", type := some "A" },
            .statement .new { target := some "v", type := some "B" },
            .statement .store { base := some "x", field := some "f", source := some "v" },
            .statement .copy
              { target := some "prev", source := some "copy", label := some "top" },
            .statement .call
              { target := some "copy", receiver := some "x", method := some "Object.clone",
                branch := some "top" },
            .statement .copy { target := some "older", source := some "prev" },
            .statement .load
              { target := some "inner", base := some "older", field := some "f" }]⟩]⟩]⟩

theorem summary_covers_recent_recloning : ∃ (results : Results) (object : HeapObject)
    (summary : ObjectId), recloningProgram.load = .ok results.program ∧
      HeapAbstraction.ofConfig recencySettings = .ok results.analysis.abstraction ∧
      SolverState.Reachable results.analysis .hashed results.state ∧ results.state.pending = [] ∧
      results.graph.object? 0 = some object ∧ object.recency = .mostRecent ∧
      results.graph.HasEdge 0 0 ∧ object.site.kind = .new ∧
      2 ∈ results.fieldPointsTo 0 (.named 0) ∧
      results.graph.object? summary = some (object.withRecency .summary) ∧
      2 ∈ results.fieldPointsTo summary (.named 0) := by
  let object : HeapObject := ⟨⟨1, 0, 11, .new⟩, .empty, .mostRecent⟩
  obtain ⟨results, loaded, chosen, solved, done, named, held, stored, fields⟩ :=
    recloningProgram.exists_finished recencySettings (fun results =>
      results.graph.object? 0 = some object ∧ results.graph.HasEdge 0 0 ∧
        2 ∈ results.fieldPointsTo 0 (.named 0) ∧
        ((results.analysis.frame (0, .empty) 0).referenceFields 0
          results.state.evalState).1.toOption = some [.named 0]) (by decide +kernel)
  have reachable := Analysis.solve_reachable solved
  obtain ⟨summary, keys, named', isKeys, covered⟩ := Results.summary_covers_recent chosen rfl
    reachable done named rfl held (by decide) (0, .empty)
  rw [isKeys] at fields
  cases fields
  exact ⟨results, object, summary, loaded, chosen, reachable, done, named, rfl, held, rfl, stored,
    named', covered _ List.mem_cons_self 2 stored⟩

theorem summary_misses_clone : ∃ (results : Results) (object : HeapObject) (keys : List FieldKey),
    recloningProgram.load = .ok results.program ∧
      HeapAbstraction.ofConfig recencySettings = .ok results.analysis.abstraction ∧
      SolverState.Reachable results.analysis .hashed results.state ∧ results.state.pending = [] ∧
      results.graph.object? 4 = some object ∧ object.recency = .mostRecent ∧
      results.graph.HasEdge 4 4 ∧
      results.graph.object? 5 = some (object.withRecency .summary) ∧
      ((results.analysis.frame (0, .empty) 0).referenceFields 4 results.state.evalState).1 =
        .ok keys ∧ .named 0 ∈ keys ∧
      2 ∈ results.fieldPointsTo 4 (.named 0) ∧ 2 ∉ results.fieldPointsTo 5 (.named 0) := by
  let object : HeapObject := ⟨⟨1, 4, 11, .clone⟩, .empty, .mostRecent⟩
  obtain ⟨results, loaded, chosen, solved, done, named, held, named', stored, missing, fields⟩ :=
    recloningProgram.exists_finished recencySettings (fun results =>
      results.graph.object? 4 = some object ∧ results.graph.HasEdge 4 4 ∧
        results.graph.object? 5 = some (object.withRecency .summary) ∧
        2 ∈ results.fieldPointsTo 4 (.named 0) ∧ 2 ∉ results.fieldPointsTo 5 (.named 0) ∧
        ((results.analysis.frame (0, .empty) 0).referenceFields 4
          results.state.evalState).1.toOption = some [.named 0]) (by decide +kernel)
  exact ⟨results, object, [.named 0], loaded, chosen, Analysis.solve_reachable solved,
    done, named, rfl, held, named',
    toOption_eq_some.mp fields, List.mem_cons_self, stored, missing⟩

end ObjectFlow
