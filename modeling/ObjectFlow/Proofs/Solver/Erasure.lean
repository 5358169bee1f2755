import ObjectFlow.Proofs.Program.Placement
import ObjectFlow.Proofs.Solver.Recency
import ObjectFlow.Proofs.Solver.Refinement

/-!
# Erasing recency

Whoever forgets which objects are recent is left with the answers of a policy
that does not tell recency, so an analysis that does tell it finds nothing else.
Only flow-sensitive variables ever make an object age.  Without them each object
of the plain analysis is found again, as the most recent one of its kind.
-/

namespace ObjectFlow

namespace Projection

def marking (recency : Recency) : Projection where
  onContext := id
  onObject object := object.withRecency recency
  flat := false
  keepsSite _ := rfl

/-- Forget which objects are recent. -/
def erasing : Projection := marking .plain

private theorem marking_onPlace (first second : Recency) (place : Place) :
    (marking second).onPlace ((marking first).onPlace place) = (marking second).onPlace place := by
  cases place <;> rfl

end Projection

def Program.IsPlain (program : Program) : Prop :=
  ∀ entry ∈ program.variableTable.entries, entry.2.flowSensitive = false

instance (program : Program) : Decidable program.IsPlain :=
  inferInstanceAs (Decidable (∀ entry ∈ program.variableTable.entries, _))

private theorem Program.IsPlain.of_payload? {program : Program} (plain : program.IsPlain)
    {id : VariableId} {declared : Variable}
    (listed : program.variableTable.payload? id = some declared) :
    declared.flowSensitive = false := by
  obtain ⟨entry, found, rfl⟩ := Option.map_eq_some_iff.mp listed
  exact plain entry (List.mem_of_getElem? found)

/-! ## Policies -/

namespace Policy.Registered

variable {config : Config} {policy : Policy} {bound : Set Fact}
  (registered : Registered config policy)
include registered

private theorem merge_withRecency (recency : Recency) (site : CallSite)
    (receiver : Option HeapObject) (caller : Context) :
    policy.merge 0 site (receiver.map (·.withRecency recency)) caller =
      policy.merge 0 site receiver caller := by
  cases registered with
  | callSite => rfl
  | insensitive => rfl
  | object => cases receiver <;> rfl

theorem record_withRecency (site : AllocationSite) (context : Context) :
    (policy.record 0 site context).withRecency .plain = policy.record 0 site context := by
  cases registered <;> rfl

private theorem projects_erasing (allowed : .failure ∈ bound) :
    policy.withRecency.Projects .erasing bound policy where
  initial := rfl
  merge site receiver caller := rfl
  record site context := (registered.record_withRecency site context).symm
  summaryOf found := by
    obtain ⟨_, rfl⟩ := TellsRecency.recency_of_summary (fun _ => rfl) found
    exact ⟨rfl, allowed⟩

private theorem projects_marking :
    policy.Projects (.marking .mostRecent) bound policy.withRecency where
  initial := rfl
  merge site receiver caller := by
    show policy.merge 0 site ((receiver.map _).map _) caller = policy.merge 0 site receiver caller
    rw [Option.map_map]
    exact registered.merge_withRecency .plain site receiver caller
  record site context := rfl
  summaryOf found := by
    rw [registered.summaryOf] at found
    cases found

end Policy.Registered

private theorem HeapAbstraction.withRecency_of_config {config : Config}
    {plain recent : HeapAbstraction}
    (chosen : ofConfig { config with recency := false } = .ok plain)
    (chosenRecent : ofConfig { config with recency := true } = .ok recent) :
    recent.policy = plain.policy.withRecency := by
  unfold ofConfig at chosen chosenRecent
  cases found : registeredPolicy? config.policy with
  | none =>
      rw [found] at chosen
      cases chosen
  | some registered =>
      rw [found] at chosen chosenRecent
      cases chosen
      cases chosenRecent
      have listed := List.mem_of_find?_eq_some found
      simp only [registeredPolicies, List.mem_cons, List.not_mem_nil, or_false] at listed
      rcases listed with rfl | rfl | rfl <;> rfl

/-! ## Runs -/

namespace SolverState

variable {projection : Projection} {analysis fine coarse : Analysis} {kind other : SetKind}
  {state last final : SolverState}

/-- What one state holds is just the projection of what the other one does. -/
structure MapsOnto (projection : Projection) (state final : SolverState) : Prop
    extends MapsInto projection state final where
  edgesBack : ∀ place object, .edge place object ∈ final.graph.content →
    ∃ place' object', .edge place' object' ∈ state.graph.content ∧
      projection.onPlace place' = place ∧ projection.onObject object' = object
  callsBack : ∀ edge, .call edge ∈ final.graph.content →
    ∃ edge', .call edge' ∈ state.graph.content ∧ projection.onCall edge' = edge
  initializersBack : ∀ method, .initializer method ∈ final.graph.content →
    .initializer method ∈ state.graph.content
  reachedBack : ∀ node ∈ final.reached.keys,
    ∃ node' ∈ state.reached.keys, projection.onMethod node' = node

private theorem Reachable.isPlain {config : Config}
    (registered : Policy.Registered config analysis.abstraction.policy)
    (reachable : Reachable analysis kind state) (done : state.pending = []) {place : Place}
    {object : HeapObject} (edge : .edge place object ∈ state.graph.content) :
    Projection.erasing.onPlace place = place ∧ Projection.erasing.onObject object = object := by
  let plain : Set Fact := {fact | ∀ place object, fact = .edge place object →
    Projection.erasing.onPlace place = place ∧ Projection.erasing.onObject object = object}
  have holds : state.graph.content ⊆ plain := by
    refine reachable.content_subset_of_origins registered.isPure done
      (fun place => by rintro _ _ ⟨⟩) (fun method => by rintro _ _ ⟨⟩) ?_
    rintro key statement _ _ _ origin place object rfl
    have moved : ∀ object, (analysis.frame key 0).Moves statement
        (watching state.graph.content ∩ plain) object →
          Projection.erasing.onObject object = object := by
      intro object moves
      cases moves with
      | seen isSeen =>
          obtain ⟨place, held, ⟨_, isPlain⟩, rfl | older⟩ := isSeen
          · exact (isPlain _ _ rfl).2
          · cases (registered.summaryOf held).symm.trans older
      | fresh _ recorded _ =>
          obtain ⟨_, _, rfl⟩ := Option.map_eq_some_iff.mp recorded
          exact registered.record_withRecency _ _
    cases origin with
    | edge flow =>
        refine ⟨?_, moved _ flow.moves⟩
        cases flow.targets with
        | own _ found => rcases Frame.written?_cases found with rfl | ⟨_, _, rfl⟩ <;> rfl
        | formal _ _ _ _ => rfl
        | slot fills _ found =>
            obtain ⟨type, _, rfl⟩ := Option.map_eq_some_iff.mp found
            rcases fills with moves | ⟨recent, _, older⟩
            · exact congrArg (Place.field · _ type) (moved _ moves)
            · cases (registered.summaryOf recent).symm.trans older
  exact holds edge _ _ rfl

/-- Where there are no flow-sensitive variables, an analysis that tells recency finds whatever one
that does not finds, with all objects most recent. -/
theorem Reachable.mapsInto_marking {declared : Declaration.Program} {config : Config}
    (registered : Policy.Registered config coarse.abstraction.policy)
    (loaded : declared.load = .ok coarse.program) (sameProgram : fine.program = coarse.program)
    (recent : fine.abstraction.policy = coarse.abstraction.policy.withRecency)
    (plain : coarse.program.IsPlain)
    (reachable : Reachable coarse kind state) (reachableRecent : Reachable fine other final)
    (done : final.pending = []) : state.MapsInto (.marking .mostRecent) final := by
  have invariant := reachableRecent.invariant (recent ▸ registered.isPure.withRecency)
  have program : coarse.program.Projects (.marking .mostRecent) fine.program :=
    sameProgram ▸ Program.projects_self rfl
  have policy : coarse.abstraction.policy.Projects (.marking .mostRecent)
      (watching final.graph.content) fine.abstraction.policy :=
    recent ▸ registered.projects_marking
  have placed := Declaration.load_placed loaded
  have projects : coarse.Projects (.marking .mostRecent) (watching final.graph.content) fine := by
    refine ⟨program, policy, fun id statement context found => ?_⟩
    have frames := Analysis.frame_projects program policy id context
    have member := List.mem_of_getElem? found
    constructor
    · intro used isUsed
      obtain ⟨⟨_, listed⟩, _⟩ := placed.reads statement member used isUsed
      exact frames.reads_of_plain (plain.of_payload? listed) statement.point
    · intro write isWrite
      obtain ⟨⟨_, listed⟩, _⟩ := placed.writes statement member write isWrite
      exact frames.writes_of_plain (plain.of_payload? listed) write.2
  exact reachable.mapsInto registered.isPure projects (invariant.closed done) invariant
    (Set.subset_insert _ _)

/-- Recency only refines.  What is found when it is told is, once erased, found without it as well,
and nothing else is if no variable is flow-sensitive. -/
theorem recency_refines {declared : Declaration.Program} {config : Config}
    (loaded : declared.load = .ok coarse.program) (sameProgram : fine.program = coarse.program)
    (chosen : HeapAbstraction.ofConfig { config with recency := false } =
      .ok coarse.abstraction)
    (chosenRecent : HeapAbstraction.ofConfig { config with recency := true } =
      .ok fine.abstraction)
    (ends : Ends coarse (seed coarse kind) (.ok final))
    (endsRecent : Ends fine (seed fine other) (.ok last)) :
    last.MapsInto .erasing final ∧
      (coarse.program.IsPlain → last.MapsOnto .erasing final) := by
  obtain ⟨registered, _⟩ := HeapAbstraction.policy_of_config chosen rfl
  have recent := HeapAbstraction.withRecency_of_config chosen chosenRecent
  obtain ⟨finished, done⟩ := ends.finished rfl
  obtain ⟨finishedRecent, doneRecent⟩ := endsRecent.finished rfl
  have invariant := finished.invariant registered.isPure
  let bound := insert Fact.failure (watching final.graph.content)
  have policy : fine.abstraction.policy.Projects .erasing bound coarse.abstraction.policy :=
    recent ▸ registered.projects_erasing (Set.mem_insert _ _)
  have projects : fine.Projects .erasing bound coarse :=
    .of_policy rfl sameProgram.symm policy registered.summaryOf
  have maps : last.MapsInto .erasing final :=
    finishedRecent.mapsInto (recent ▸ registered.isPure.withRecency) projects
      (invariant.closed done).insert_failure invariant subset_rfl
  refine ⟨maps, fun plain => ?_⟩
  have back := finished.mapsInto_marking registered loaded sameProgram recent plain
    finishedRecent doneRecent
  refine ⟨maps, fun place object edge => ?_, fun edge called => ?_, fun method triggered => ?_,
    fun node member => ?_⟩
  · obtain ⟨isPlain, isPlain'⟩ := finished.isPlain registered done edge
    refine ⟨_, _, back.edges place object edge, ?_, isPlain'⟩
    exact (Projection.marking_onPlace _ _ place).trans isPlain
  · exact ⟨edge, back.calls edge called, rfl⟩
  · exact back.initializers method triggered
  · exact ⟨node, back.reached node member, rfl⟩

end SolverState

theorem recency_refines_cloning :
    (∃ recent plain : Results,
      recloningProgram.load = .ok plain.program ∧ recent.program = plain.program ∧
        HeapAbstraction.ofConfig plainSettings = .ok plain.analysis.abstraction ∧
        HeapAbstraction.ofConfig recencySettings = .ok recent.analysis.abstraction ∧
        SolverState.Ends plain.analysis (.seed plain.analysis .hashed) (.ok plain.state) ∧
        SolverState.Ends recent.analysis (.seed recent.analysis .hashed) (.ok recent.state) ∧
        recent.graph.HasEdge 8 5 ∧
        (∃ object, recent.graph.object? 5 = some object ∧ object.recency = .summary) ∧
        recent.state.MapsInto .erasing plain.state) ∧
    ∃ recent plain : Results,
      cloningProgram.load = .ok plain.program ∧ recent.program = plain.program ∧
        HeapAbstraction.ofConfig plainSettings = .ok plain.analysis.abstraction ∧
        HeapAbstraction.ofConfig recencySettings = .ok recent.analysis.abstraction ∧
        SolverState.Ends plain.analysis (.seed plain.analysis .hashed) (.ok plain.state) ∧
        SolverState.Ends recent.analysis (.seed recent.analysis .hashed) (.ok recent.state) ∧
        plain.program.IsPlain ∧ recent.state.MapsOnto .erasing plain.state := by
  constructor
  · obtain ⟨plain, loaded, chosen, solved, done, _⟩ :=
      recloningProgram.exists_finished plainSettings (fun _ => True) (by decide +kernel)
    obtain ⟨recent, loadedRecent, chosenRecent, solvedRecent, doneRecent, held, older⟩ :=
      recloningProgram.exists_finished recencySettings (fun results =>
        results.graph.HasEdge 8 5 ∧
          (results.graph.object? 5).map HeapObject.recency = some .summary) (by decide +kernel)
    have sameProgram : recent.program = plain.program :=
      Except.ok.inj (loadedRecent.symm.trans loaded)
    have ends := SolverState.Ends.of_run solved done
    have endsRecent := SolverState.Ends.of_run solvedRecent doneRecent
    exact ⟨recent, plain, loaded, sameProgram, chosen, chosenRecent, ends, endsRecent, held,
      Option.map_eq_some_iff.mp older,
      (SolverState.recency_refines loaded sameProgram chosen chosenRecent ends endsRecent).1⟩
  · obtain ⟨plain, loaded, chosen, solved, done, isPlain⟩ :=
      cloningProgram.exists_finished plainSettings (fun results => results.program.IsPlain)
        (by decide +kernel)
    obtain ⟨recent, loadedRecent, chosenRecent, solvedRecent, doneRecent, _⟩ :=
      cloningProgram.exists_finished recencySettings (fun _ => True) (by decide +kernel)
    have sameProgram : recent.program = plain.program :=
      Except.ok.inj (loadedRecent.symm.trans loaded)
    have ends := SolverState.Ends.of_run solved done
    have endsRecent := SolverState.Ends.of_run solvedRecent doneRecent
    exact ⟨recent, plain, loaded, sameProgram, chosen, chosenRecent, ends, endsRecent, isPlain,
      (SolverState.recency_refines loaded sameProgram chosen chosenRecent ends endsRecent).2
        isPlain⟩

end ObjectFlow
