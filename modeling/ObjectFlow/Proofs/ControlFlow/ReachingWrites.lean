import ObjectFlow.Proofs.ControlFlow.Ageing

/-!
# Reaching writes by control-flow paths

A write of a variable reaches a moment if control can go from the one to the
other without writing the variable on its way.  The backward search behind
`reachingKills` finds just these writes: it comes to an end on every graph, in
whatever order it takes the points off its stack, and a question that was asked
before gets the same answer again.
-/

namespace ObjectFlow.ControlFlow

variable {flow : ControlFlow} {variableId : VariableId} {moment : Moment} {kill point : PointId}

/-- The value that a variable was given at a point is still there at a moment. -/
inductive StillHolds (flow : ControlFlow) (variableId : VariableId) : Moment → PointId → Prop
  /-- The point has just been executed. -/
  | own {point : PointId} : flow.writes variableId point = true →
      StillHolds flow variableId (.after point) point
  /-- Control has come from the write along a path on which nothing writes the variable. -/
  | along {moment : Moment} {kill : PointId} {path : List PointId} :
      (∀ point, moment = .after point → flow.writes variableId point = false) →
      flow.writes variableId kill = true → flow.Leads kill path moment.point →
      (∀ point ∈ path.dropLast, flow.writes variableId point = false) →
      StillHolds flow variableId moment kill

/-! ## The search -/

def backwards (flow : ControlFlow) (variableId : VariableId) : PointId → List PointId :=
  onwards flow.graph.edges Prod.snd Prod.fst (flow.writes variableId)

theorem search_eq (flow : ControlFlow) (variableId : VariableId) (point : PointId) :
    reachingKills.search flow variableId point =
      (reachable flow.graph.edges.length (flow.backwards variableId)
        (flow.graph.predecessors point)).filter (flow.writes variableId) :=
  rfl

private theorem reachingKills_before (flow : ControlFlow) (variableId : VariableId)
    (point : PointId) :
    flow.reachingKills variableId (.before point) =
      reachingKills.search flow variableId point :=
  rfl

private theorem reachingKills_of_searched
    (searched : ∀ point, moment = .after point → flow.writes variableId point = false) :
    flow.reachingKills variableId moment =
      reachingKills.search flow variableId moment.point := by
  cases moment with
  | before point => rfl
  | after point => simp [reachingKills, searched point rfl, Moment.point]

theorem reachingKills_of_own (writes : flow.writes variableId point = true) :
    flow.reachingKills variableId (.after point) = OrderedSet.singleton point := by
  simp [reachingKills, writes]

private theorem exists_last_iff_exists_first {passable : PointId → Prop} {source target : PointId} :
    (∃ last, (last, target) ∈ flow.graph.edges ∧ Relation.ReflTransGen (fun point next =>
        (point, next) ∈ flow.graph.edges ∧ passable next) source last) ↔
      ∃ first ∈ flow.graph.successors source, Relation.ReflTransGen (fun point next =>
        passable point ∧ (point, next) ∈ flow.graph.edges) first target := by
  constructor
  · rintro ⟨last, ends, way⟩
    induction way generalizing target with
    | refl => exact ⟨target, by simpa [PointGraph.successors] using ends, .refl⟩
    | tail _ step ih =>
        obtain ⟨first, starts, way⟩ := ih step.1
        exact ⟨first, starts, way.tail ⟨step.2, ends⟩⟩
  · rintro ⟨first, starts, way⟩
    induction way with
    | refl => exact ⟨source, by simpa [PointGraph.successors] using starts, .refl⟩
    | tail _ step ih =>
        obtain ⟨last, ends, way⟩ := ih
        exact ⟨_, step.2, way.tail ⟨ends, step.1⟩⟩

/-- The search goes back along the paths on which nothing writes the variable. -/
theorem mem_search : kill ∈ reachingKills.search flow variableId point ↔
    flow.writes variableId kill = true ∧ ∃ path, flow.Leads kill path point ∧
      ∀ between ∈ path.dropLast, flow.writes variableId between = false := by
  rw [search_eq, OrderedSet.mem_filter, and_comm]
  refine and_congr_right fun _ => ?_
  have met : kill ∈ reachable flow.graph.edges.length (flow.backwards variableId)
      (flow.graph.predecessors point) ↔ ∃ last, (last, point) ∈ flow.graph.edges ∧
        Relation.ReflTransGen (fun before after =>
          (before, after) ∈ flow.graph.edges ∧ flow.writes variableId after = false) kill last := by
    refine mem_reachable_onwards.trans (exists_congr fun last => and_congr ?_ ?_)
    · simp [PointGraph.predecessors]
    · rw [← Relation.reflTransGen_swap]
      refine iff_of_eq (congrFun (congrFun (congrArg _ ?_) _) _)
      funext before after
      simp [Function.swap, mem_onwards, and_comm]
  rw [met, exists_leads_iff, exists_last_iff_exists_first]

theorem mem_reachingKills_iff :
    kill ∈ flow.reachingKills variableId moment ↔ flow.StillHolds variableId moment kill := by
  by_cases searched : ∀ point, moment = .after point → flow.writes variableId point = false
  · rw [reachingKills_of_searched searched, mem_search]
    constructor
    · rintro ⟨writes, path, leads, quiet⟩
      exact .along searched writes leads quiet
    · intro holds
      cases holds with
      | own writes => simp [searched _ rfl] at writes
      | along _ writes leads quiet => exact ⟨writes, _, leads, quiet⟩
  · obtain ⟨point, rfl, writes⟩ : ∃ point, moment = .after point ∧
        flow.writes variableId point = true := by simpa using searched
    rw [reachingKills_of_own writes, OrderedSet.mem_singleton]
    constructor
    · rintro rfl
      exact .own writes
    · intro holds
      cases holds with
      | own => rfl
      | along searched => simp [searched point rfl] at writes

/-! ## Asking again -/

def recalled (flow : ControlFlow) (questions : List (VariableId × Moment)) : KnownKills :=
  questions.foldl (fun known question => (flow.recallKills known question.1 question.2).2) []

/-- What is known are answers to the questions they are kept under. -/
def Remembers (flow : ControlFlow) (known : KnownKills) : Prop :=
  ∀ question answer, known.lookup question = some answer →
    answer = flow.reachingKills question.1 question.2

theorem Remembers.recallKills {known : KnownKills} (remembers : flow.Remembers known)
    (variableId : VariableId) (moment : Moment) :
    (flow.recallKills known variableId moment).1 = flow.reachingKills variableId moment ∧
      flow.Remembers (flow.recallKills known variableId moment).2 := by
  unfold ControlFlow.recallKills
  cases found : known.lookup (variableId, moment) with
  | some answer => exact ⟨remembers _ _ found, remembers⟩
  | none =>
      refine ⟨rfl, fun question answer found => ?_⟩
      rw [List.lookup_cons] at found
      split at found
      · next same =>
          obtain rfl : question = (variableId, moment) := by simpa using same
          exact (Option.some.inj found).symm
      · exact remembers question answer found

private theorem remembers_recalled (flow : ControlFlow) (questions : List (VariableId × Moment)) :
    flow.Remembers (flow.recalled questions) := by
  unfold recalled
  have start : flow.Remembers [] := fun _ _ found => by cases found
  generalize ([] : KnownKills) = known at start ⊢
  induction questions generalizing known with
  | nil => exact start
  | cons question questions ih => exact ih _ (start.recallKills question.1 question.2).2

/-! ## Reaching writes -/

/-- The answer lists in ascending order the writes whose value is still there, whatever was asked
before, and the search for it comes to an end in every order. -/
theorem reachingKills_by_paths (flow : ControlFlow) (variableId : VariableId) (moment : Moment) :
    (flow.reachingKills variableId moment).toList.Pairwise (· < ·) ∧
      (∀ kill, kill ∈ (flow.reachingKills variableId moment).toList ↔
        flow.StillHolds variableId moment kill) ∧
      (∀ point, moment = .after point → flow.writes variableId point = true →
        (flow.reachingKills variableId moment).toList = [point]) ∧
      (∀ questions, (flow.recallKills (flow.recalled questions) variableId moment).1 =
        flow.reachingKills variableId moment) ∧
      WellFounded (fun next state => Turn (flow.backwards variableId) state next) ∧
      (∃ seen, Relation.ReflTransGen (Turn (flow.backwards variableId))
        (flow.graph.predecessors moment.point, ∅) ([], seen)) ∧
      ∀ seen, Relation.ReflTransGen (Turn (flow.backwards variableId))
        (flow.graph.predecessors moment.point, ∅) ([], seen) →
          seen.filter (flow.writes variableId) =
            flow.reachingKills variableId (.before moment.point) := by
  obtain ⟨ends, exists_end, same⟩ := turns_onwards flow.graph.edges Prod.snd Prod.fst
    (flow.writes variableId) (flow.graph.predecessors moment.point)
  refine ⟨?_, fun kill => mem_reachingKills_iff, ?_, fun questions => ?_, ends, exists_end, ?_⟩
  · exact (flow.reachingKills variableId moment).ascending.imp fun below =>
      Nat.compare_eq_lt.mp below
  · rintro point rfl writes
    rw [reachingKills_of_own writes]
    rfl
  · exact ((flow.remembers_recalled questions).recallKills variableId moment).1
  · intro seen turns
    rw [same seen turns, reachingKills_before, search_eq]
    rfl

end ObjectFlow.ControlFlow
