import ObjectFlow.Proofs.Program.Placement
import ObjectFlow.Proofs.Program.Plain
import ObjectFlow.Proofs.Solver.Answers
import ObjectFlow.Proofs.Solver.Refinement

/-!
# Flow sensitivity

If no variable is flow-sensitive, all that is ever written to a variable is held
in one place.  So whatever path of the control flow a flow-sensitive read looks
back along, what it sees is seen without the paths as well.  The finer analysis
can fail only where it writes a flow-sensitive variable and does not know at
which point, as handlers of exceptions do.
-/

namespace ObjectFlow

/-- Take the writes of a variable at all points together. -/
def Projection.flattening : Projection where
  onContext := id
  onObject := id
  flat := true
  keepsSite _ := rfl

private theorem Program.projects_plain (program : Program) :
    program.Projects .flattening program.plain :=
  ⟨rfl, rfl, rfl, rfl, rfl⟩

private theorem Policy.projects_flattening {policy : Policy} {bound : Set Fact}
    (undivided : ∀ object, policy.summaryOf object = none) :
    policy.Projects .flattening bound policy where
  initial := rfl
  merge site receiver caller := by
    show policy.merge 0 site (receiver.map id) caller = _
    rw [Option.map_id]
    rfl
  record _ _ := rfl
  summaryOf found := by
    rw [undivided] at found
    cases found

/-! ## Reading and writing -/

private theorem Frame.source_flattening {fine : Frame} {bound : Set Fact} {id : VariableId}
    {replica : Replica} {kill : PointId} {moment : Moment}
    (undivided : ∀ object, fine.abstraction.summaryOf object = none)
    (careful : .failure ∈ bound ∨ ∃ place, fine.program.flow.point? kill = some place) :
    Source.Covered .flattening bound ⟨.localAt replica kill, fine.aged? ⟨id, kill, moment⟩⟩
      (.direct (.local replica)) := by
  refine ⟨rfl, fun held => ?_⟩
  show Agree bound _ (fine.aged? ⟨id, kill, moment⟩ held) (some [held])
  rw [aged?_of_undivided (undivided held)]
  cases found : fine.program.flow.point? kill with
  | some writer => exact .of_some fun object listed => listed
  | none =>
      refine ⟨fun _ => .inr (careful.resolve_right fun ⟨place, isPoint⟩ => ?_), nofun⟩
      cases found.symm.trans isPoint

namespace Frame.Projects

variable {bound : Set Fact} {fine coarse : Frame}
  (projects : Projects .flattening bound fine coarse) {declared : Variable}
  {point : Option PointId}
include projects

private theorem reads_flattening (undivided : ∀ object, fine.abstraction.summaryOf object = none)
    (careful : .failure ∈ bound ∨
      (declared.flowSensitive = true → ∃ place, point = some place) ∧
        ∀ kill, fine.program.flow.writes declared.id kill = true →
          ∃ place, fine.program.flow.point? kill = some place) :
    Reads .flattening bound fine coarse declared point := by
  cases sensitive : declared.flowSensitive with
  | false => exact projects.reads_of_plain sensitive point
  | true =>
      have image : coarse.sources? (Projection.flattening.onVariable declared) point =
          some [.direct (.local (coarse.replica (Projection.flattening.onVariable declared)))] :=
        rfl
      unfold Reads
      rw [image, projects.replica, Frame.sources?, sensitive, if_pos rfl]
      cases point with
      | none =>
          refine ⟨fun _ => .inr (careful.resolve_right fun placed => ?_), fun _ found => ?_⟩
          · obtain ⟨_, same⟩ := placed.1 sensitive
            cases same
          · cases found
      | some place =>
          refine .of_some fun source member => ?_
          obtain ⟨kill, reaches, rfl⟩ := List.mem_map.mp member
          refine ⟨_, List.mem_singleton_self _, source_flattening undivided ?_⟩
          have writes := ControlFlow.writes_of_reachingKills reaches
          exact careful.imp_right fun placed => placed.2 kill writes

private theorem writes_flattening
    (careful : .failure ∈ bound ∨ ∃ place, fine.written? declared point = some place) :
    Writes .flattening bound fine coarse declared point := by
  have image : coarse.written? (Projection.flattening.onVariable declared) point =
      some (.local (coarse.replica (Projection.flattening.onVariable declared))) :=
    rfl
  unfold Writes
  rw [image, projects.replica]
  refine ⟨fun absent => .inr ?_, fun place found => ⟨_, rfl, ?_⟩⟩
  · refine careful.resolve_right fun ⟨place, found⟩ => ?_
    cases absent.symm.trans found
  · rcases written?_cases found with rfl | ⟨kill, _, rfl⟩ <;> rfl

end Frame.Projects

/-- No handler receives exceptions in a flow-sensitive variable. -/
def Program.HandlesPlainly (program : Program) : Prop :=
  ∀ statement ∈ program.statements, ∀ declared ∈ statement.action.handled,
    declared.flowSensitive = false

instance (program : Program) : Decidable program.HandlesPlainly :=
  inferInstanceAs (Decidable (∀ statement ∈ program.statements,
    ∀ declared ∈ statement.action.handled, _))

namespace Analysis

variable {bound : Set Fact} {fine coarse : Analysis}

/-- The analysis of a program goes the way of that of the plain program, unless a handler is in its
way. -/
theorem Projects.of_plain (program : coarse.program = fine.program.plain)
    (abstraction : coarse.abstraction = fine.abstraction)
    (undivided : ∀ object, fine.abstraction.summaryOf object = none)
    (careful : .failure ∈ bound ∨ fine.program.Placed ∧ fine.program.HandlesPlainly) :
    fine.Projects .flattening bound coarse := by
  have programs : fine.program.Projects .flattening coarse.program :=
    program ▸ fine.program.projects_plain
  have policies : fine.abstraction.policy.Projects .flattening bound
      coarse.abstraction.policy := by
    rw [abstraction]
    exact Policy.projects_flattening undivided
  refine ⟨programs, policies, fun id statement context found => ?_⟩
  have frames := frame_projects programs policies id context
  have member := List.mem_of_getElem? found
  constructor
  · intro declared used
    refine frames.reads_flattening undivided (careful.imp_right fun ⟨placed, _⟩ => ?_)
    exact ⟨(placed.reads statement member declared used).2, placed.points declared.id⟩
  · intro write isWrite
    refine frames.writes_flattening (careful.imp_right fun ⟨placed, plainly⟩ => ?_)
    cases sensitive : write.1.flowSensitive with
    | false => exact ⟨_, by rw [Frame.written?, sensitive]; rfl⟩
    | true =>
        rcases (placed.writes statement member write isWrite).2 sensitive with
          handled | ⟨point, isPoint, writes⟩
        · cases sensitive.symm.trans (plainly statement member write.1 handled)
        · refine ⟨.localAt ((fine.frame (id, context) 0).replica write.1) point, ?_⟩
          rw [Frame.written?, sensitive, isPoint]
          exact if_pos writes

end Analysis

namespace Results

open SolverState

/-- Each object of the first set is an object of the second, which the other results have ids
for. -/
def Includes (results coarse : Results) (objects others : IdSet) : Prop :=
  ∀ id ∈ objects, ∃ object, results.graph.object? id = some object ∧
    ∃ other ∈ others, coarse.graph.object? other = some object

variable {results plain : Results}

private theorem includes_pointsTo (valid : results.graph.Valid)
    (initial : plain.initialContext = results.initialContext)
    (maps : results.state.MapsInto .flattening plain.state) (declared : Variable)
    (context : Context) :
    results.Includes plain (results.pointsTo declared context)
      (plain.pointsTo declared.plain context) := by
  intro id member
  obtain ⟨object, named⟩ := named_of_mem_pointsTo valid member
  obtain ⟨place, said, isPlace⟩ := edge_of_mem_pointsTo 0 named member
  have flat : Projection.flattening.onPlace place =
      .local (declared.plain.replica context plain.initialContext) := by
    rw [initial]
    rcases isPlace with rfl | ⟨kill, rfl⟩ <;> rfl
  have said := maps.edges place object ⟨said, nofun⟩
  rw [flat] at said
  obtain ⟨node, other, located, named', held⟩ := said.1
  refine ⟨object, named, other, ?_, named'⟩
  exact (mem_pointsTo 0 rfl named').mpr ⟨node, other, located, named', held⟩

/-- Flow sensitivity only refines.  If the analysis ends when the flags of a declaration are
cleared, it finds whatever the analysis with the flags ends with, and that one does come to an end
unless handlers write flow-sensitive variables. -/
theorem flow_sensitivity_refines {declared : Declaration.Program} {config : Config}
    {kind other : SetKind} (loaded : declared.load = .ok results.program)
    (loadedPlain : declared.plain.load = .ok plain.program)
    (chosen : HeapAbstraction.ofConfig config = .ok results.analysis.abstraction)
    (chosenPlain : HeapAbstraction.ofConfig config = .ok plain.analysis.abstraction)
    (noRecency : config.recency = false)
    (ends : Ends plain.analysis (seed plain.analysis kind) (.ok plain.state)) :
    (Ends results.analysis (seed results.analysis other) (.ok results.state) →
      (∀ origin used, results.program.variableTable.find? origin = some used →
        ∃ image, plain.program.variableTable.find? origin = some image ∧
          ∀ context, results.Includes plain (results.pointsTo used context)
            (plain.pointsTo image context)) ∧
      results.state.MapsInto .flattening plain.state) ∧
    (results.program.HandlesPlainly →
      EndsWithin .flattening results.analysis other plain.state) := by
  obtain ⟨registered, _⟩ := HeapAbstraction.policy_of_config chosen noRecency
  have program : plain.program = results.program.plain :=
    Except.ok.inj (loadedPlain.symm.trans (Declaration.load_plain loaded))
  have abstraction : plain.analysis.abstraction = results.analysis.abstraction :=
    Except.ok.inj (chosenPlain.symm.trans chosen)
  have projects {bound : Set Fact} (careful : .failure ∈ bound ∨
      results.program.Placed ∧ results.program.HandlesPlainly) :
      results.analysis.Projects .flattening bound plain.analysis :=
    .of_plain program abstraction registered.summaryOf careful
  obtain ⟨finished, done⟩ := ends.finished rfl
  have invariant := finished.invariant (abstraction ▸ registered.isPure)
  have closed := invariant.closed done
  refine ⟨fun endsFine => ?_, fun plainly => ?_⟩
  -- handlers may fail to write, but this run is known to end, so failure is allowed for
  · obtain ⟨reachable, _⟩ := endsFine.finished rfl
    have maps : results.state.MapsInto .flattening plain.state :=
      reachable.mapsInto registered.isPure (projects (.inl (Set.mem_insert _ _)))
        closed.insert_failure invariant subset_rfl
    refine ⟨fun origin used found => ⟨used.plain, ?_, fun context => ?_⟩, maps⟩
    · rw [program]
      exact (VariableTable.find?_plain _ origin).trans (congrArg _ found)
    · exact includes_pointsTo (reachable.invariant registered.isPure).valid
        (congrArg HeapAbstraction.initialContext abstraction) maps used context
  · have placed := Declaration.load_placed loaded
    exact endsWithin loaded registered.isPure registered.confined invariant done
      (projects (.inr ⟨placed, plainly⟩)) other

end Results

def overwritingProgram : Declaration.Program :=
  ⟨"Main.main",
    [⟨"A", none, none, false, []⟩,
      ⟨"Main", none, none, false,
        [.method ⟨"main", none, true, false, false,
          [.local ⟨"x", "A", true⟩, .local ⟨"y", "A", false⟩, .local ⟨"thrown", "Throwable", true⟩,
            .local ⟨"caught", "Throwable", false⟩, .catch ⟨"Throwable", "caught"⟩,
            .statement .new { target := some "x", type := some "A" },
            .statement .new { target := some "x", type := some "A" },
            .statement .copy
              { target := some "x", source := some "x", label := some "top", branch := some "top" },
            .statement .copy { target := some "y", source := some "x" },
            .statement .new { target := some "thrown", type := some "Throwable" },
            .statement .throw { source := some "thrown" }]⟩]⟩]⟩

theorem flow_sensitivity_refines_overwriting :
    let x : Variable := ⟨1, 10, false, true⟩
    let y : Variable := ⟨2, 10, false, false⟩
    ∃ results plain : Results, overwritingProgram.load = .ok results.program ∧
      overwritingProgram.plain.load = .ok plain.program ∧
      HeapAbstraction.ofConfig plainSettings = .ok results.analysis.abstraction ∧
      HeapAbstraction.ofConfig plainSettings = .ok plain.analysis.abstraction ∧
      SolverState.Ends plain.analysis (.seed plain.analysis .hashed) (.ok plain.state) ∧
      SolverState.Ends results.analysis (.seed results.analysis .hashed) (.ok results.state) ∧
      results.program.HandlesPlainly ∧
      results.program.variableTable.find? (.local 1 "x") = some x ∧
      (results.pointsTo y .empty).toList = [1] ∧ (plain.pointsTo y .empty).toList = [0, 1] ∧
      results.Includes plain (results.pointsTo x .empty) (plain.pointsTo x.plain .empty) ∧
      results.state.MapsInto .flattening plain.state ∧
      SolverState.EndsWithin .flattening results.analysis .hashed plain.state := by
  intro x y
  obtain ⟨results, loaded, chosen, solved, done, plainly, isX, last⟩ :=
    overwritingProgram.exists_finished plainSettings (fun results =>
      results.program.HandlesPlainly ∧
        results.program.variableTable.find? (.local 1 "x") = some x ∧
        (results.pointsTo y .empty).toList = [1]) (by decide +kernel)
  obtain ⟨plain, loadedPlain, chosenPlain, solvedPlain, donePlain, isX', all⟩ :=
    overwritingProgram.plain.exists_finished plainSettings (fun results =>
      results.program.variableTable.find? (.local 1 "x") = some x.plain ∧
        (results.pointsTo y .empty).toList = [0, 1]) (by decide +kernel)
  have ends := SolverState.Ends.of_run solved done
  have endsPlain := SolverState.Ends.of_run solvedPlain donePlain
  obtain ⟨refines, finishes⟩ := Results.flow_sensitivity_refines loaded loadedPlain chosen
    chosenPlain rfl endsPlain
  obtain ⟨included, maps⟩ := refines ends
  obtain ⟨image, isImage, included⟩ := included _ x isX
  cases isX'.symm.trans isImage
  exact ⟨results, plain, loaded, loadedPlain, chosen, chosenPlain, endsPlain, ends, plainly, isX,
    last, all, included .empty, maps, finishes plainly⟩

end ObjectFlow
