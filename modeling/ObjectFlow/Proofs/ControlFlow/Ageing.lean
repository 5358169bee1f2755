import Mathlib.Data.List.Chain
import ObjectFlow.ControlFlow
import ObjectFlow.Proofs.Reachability

/-!
# Ageing by control-flow paths

Whether an allocation runs between a write and its observation is a question
about the ways that control can take from the one to the other.  The searches
of `ageing` answer it at every moment but the one just before the allocation
itself, where the answer is always `fresh`: a loop through the allocation
that does not repeat the write makes it wrong there.
-/

namespace ObjectFlow

/-! ## Paths -/

/-- The points that control executes on its way along a path that ends at a moment. -/
def Moment.executed (moment : Moment) (path : List PointId) : List PointId :=
  match moment with
  | .before _ => path.dropLast
  | .after _ => path

private theorem Moment.executed_append (moment : Moment) (front : List PointId)
    {back : List PointId} (goesOn : back ≠ []) :
    moment.executed (front ++ back) = front ++ moment.executed back := by
  cases moment with
  | before point => exact List.dropLast_append_of_ne_nil goesOn
  | after point => rfl

theorem isChain_and_iff {α : Type} {passable : α → Prop} {related : α → α → Prop}
    {path : List α} :
    path.IsChain (fun point next => passable point ∧ related point next) ↔
      path.IsChain related ∧ ∀ point ∈ path.dropLast, passable point := by
  induction path with
  | nil => simp
  | cons point path ih =>
      cases path with
      | nil => simp
      | cons next path =>
          rw [List.isChain_cons_cons, List.isChain_cons_cons, ih]
          simp
          tauto

namespace ControlFlow

variable {flow : ControlFlow} {source target : PointId} {path front back : List PointId}

/-- Control that leaves a point can go along a path of points, the last of which is the target. -/
structure Leads (flow : ControlFlow) (source : PointId) (path : List PointId) (target : PointId) :
    Prop where
  chain : (source :: path).IsChain fun point next => (point, next) ∈ flow.graph.edges
  last : path.getLast? = some target

private theorem Leads.ne_nil (leads : flow.Leads source path target) : path ≠ [] := by
  rintro rfl
  simpa using leads.last

theorem Leads.dropLast_append (leads : flow.Leads source path target) :
    path.dropLast ++ [target] = path :=
  List.dropLast_append_getLast? target leads.last

theorem leads_append_cons_iff {point : PointId} (goesOn : back ≠ []) :
    flow.Leads source (front ++ point :: back) target ↔
      flow.Leads source (front ++ [point]) point ∧ flow.Leads point back target := by
  have chain : (source :: front ++ point :: back).IsChain _ ↔
      (source :: front ++ [point]).IsChain _ ∧ (point :: back).IsChain _ :=
    List.isChain_split (R := fun point next => (point, next) ∈ flow.graph.edges)
  have last : (front ++ point :: back).getLast? = back.getLast? := by
    rw [List.getLast?_append_cons, List.getLast?_cons_of_ne_nil goesOn]
  constructor
  · intro leads
    obtain ⟨before, after⟩ := chain.mp leads.chain
    exact ⟨⟨before, by simp⟩, after, last ▸ leads.last⟩
  · intro leads
    exact ⟨chain.mpr ⟨leads.1.chain, leads.2.chain⟩, last ▸ leads.2.last⟩

theorem exists_leads_iff {passable : PointId → Prop} :
    (∃ path, flow.Leads source path target ∧ ∀ point ∈ path.dropLast, passable point) ↔
      ∃ first ∈ flow.graph.successors source, Relation.ReflTransGen (fun point next =>
        passable point ∧ (point, next) ∈ flow.graph.edges) first target := by
  constructor
  · rintro ⟨path, ⟨chain, last⟩, passed⟩
    cases path with
    | nil => cases last
    | cons first path =>
        obtain ⟨isNext, chain⟩ := List.isChain_cons_cons.mp chain
        refine ⟨first, by simpa [PointGraph.successors] using isNext, ?_⟩
        refine List.relationReflTransGen_of_exists_isChain_cons path
          (isChain_and_iff.mpr ⟨chain, passed⟩) ?_
        exact Option.some.inj ((List.getLast?_eq_some_getLast _).symm.trans last)
  · rintro ⟨first, isNext, way⟩
    obtain ⟨path, chain, last⟩ := List.exists_isChain_cons_of_relationReflTransGen way
    obtain ⟨chain, passed⟩ := isChain_and_iff.mp chain
    have isNext : (source, first) ∈ flow.graph.edges := by
      simpa [PointGraph.successors] using isNext
    refine ⟨first :: path, ⟨List.isChain_cons_cons.mpr ⟨isNext, chain⟩, ?_⟩, passed⟩
    rw [List.getLast?_eq_some_getLast (List.cons_ne_nil _ _), last]

/-- Control can flow to a moment exactly if some path to it executes no blocked point. -/
theorem flows_iff {moment : Moment} {blocked : PointId → Bool} :
    flow.flows source moment blocked = true ↔
      ∃ path, flow.Leads source path moment.point ∧
        ∀ point ∈ moment.executed path, blocked point = false := by
  have met : ∀ target, target ∈ reachable flow.graph.edges.length
      (fun id => if blocked id then [] else flow.graph.successors id)
      (flow.graph.successors source) ↔
      ∃ path, flow.Leads source path target ∧ ∀ point ∈ path.dropLast, blocked point = false := by
    intro target
    rw [exists_leads_iff]
    refine Iff.trans (mem_reachable_edges flow.graph.edges Prod.fst Prod.snd) ?_
    simp
  cases moment with
  | before point => simpa [flows, Moment.executed, Moment.point] using met point
  | after point =>
      simp only [flows, Bool.and_eq_true, OrderedSet.contains_iff, met, Bool.not_eq_true']
      constructor
      · rintro ⟨⟨path, leads, passed⟩, last⟩
        refine ⟨path, leads, fun other member => ?_⟩
        rw [Moment.executed, ← leads.dropLast_append] at member
        obtain member | rfl := by simpa using member
        · exact passed other member
        · exact last
      · rintro ⟨path, leads, passed⟩
        refine ⟨⟨path, leads, fun other member => ?_⟩, ?_⟩
        · exact passed other (List.dropLast_subset path member)
        refine passed point ?_
        rw [Moment.executed, ← leads.dropLast_append]
        simp [Moment.point]

/-! ## Observations -/

variable {write : ObservedWrite} {allocation : PointId}

/-- A way from a write to the moment of its observation that does not overwrite the variable. -/
inductive Observes (flow : ControlFlow) (write : ObservedWrite) : List PointId → Prop
  | here (atOnce : write.moment = .after write.kill) : Observes flow write []
  | along {path : List PointId} (leads : flow.Leads write.kill path write.moment.point)
      (kept : ∀ point ∈ write.moment.executed path, flow.writes write.variableId point = false) :
      Observes flow write path

def Crossed (flow : ControlFlow) (write : ObservedWrite) (allocation : PointId) : Prop :=
  ∃ path, flow.Observes write path ∧ allocation ∈ write.moment.executed path

def Avoided (flow : ControlFlow) (write : ObservedWrite) (allocation : PointId) : Prop :=
  ∃ path, flow.Observes write path ∧ allocation ∉ write.moment.executed path

end ControlFlow

/-- What an answer says about whether some path runs the allocation and whether some avoids it. -/
def Ageing.Tells (answer : Ageing) (crossed avoided : Prop) : Prop :=
  match answer with
  | .fresh => ¬crossed
  | .aged => crossed ∧ ¬avoided
  | .either => crossed ∧ avoided

namespace ControlFlow

variable {flow : ControlFlow} {write : ObservedWrite} {allocation : PointId}

theorem Observes.leads {path : List PointId} (observes : flow.Observes write path)
    (later : write.moment ≠ .after write.kill) :
    flow.Leads write.kill path write.moment.point ∧
      ∀ point ∈ write.moment.executed path, flow.writes write.variableId point = false := by
  cases observes with
  | here atOnce => exact absurd atOnce later
  | along leads kept => exact ⟨leads, kept⟩

private theorem not_crossed_at_once (isKill : flow.writes write.variableId write.kill = true)
    (atOnce : write.moment = .after write.kill) : ¬flow.Crossed write allocation := by
  rintro ⟨path, observes, crosses⟩
  cases observes with
  | here => simp [atOnce, Moment.executed] at crosses
  | along leads kept =>
      rw [atOnce] at leads kept
      have last : write.kill ∈ path := by
        rw [← leads.dropLast_append]
        simp [Moment.point]
      have kept := kept write.kill last
      simp [isKill] at kept

theorem avoided_iff (later : write.moment ≠ .after write.kill) :
    flow.Avoided write allocation ↔ flow.flows write.kill write.moment
      (fun id => flow.writes write.variableId id || id = allocation) = true := by
  rw [flows_iff]
  constructor
  · rintro ⟨path, observes, avoids⟩
    obtain ⟨leads, kept⟩ := observes.leads later
    refine ⟨path, leads, fun point member => ?_⟩
    have other : point ≠ allocation := fun same => avoids (same ▸ member)
    simp [kept point member, other]
  · rintro ⟨path, leads, passed⟩
    refine ⟨path, .along leads fun point member => ?_, fun member => ?_⟩
    · exact (Bool.or_eq_false_iff.mp (passed point member)).1
    · simpa using (Bool.or_eq_false_iff.mp (passed allocation member)).2

private theorem Leads.split_executed {moment : Moment} {source : PointId} {path : List PointId}
    (leads : flow.Leads source path moment.point) (inner : moment ≠ .after allocation)
    (crosses : allocation ∈ moment.executed path) :
    ∃ front back, path = front ++ allocation :: back ∧ back ≠ [] := by
  cases moment with
  | before point =>
      obtain ⟨front, back, split⟩ := List.append_of_mem crosses
      refine ⟨front, back ++ [point], ?_, by simp⟩
      have same := leads.dropLast_append
      rw [Moment.executed] at split
      rw [split] at same
      simpa [Moment.point] using same.symm
  | after point =>
      obtain ⟨front, back, rfl⟩ := List.append_of_mem crosses
      refine ⟨front, back, rfl, ?_⟩
      rintro rfl
      exact inner (by simpa [Moment.point] using leads.last.symm)

private theorem crossed_iff_of_inner (later : write.moment ≠ .after write.kill)
    (inner : write.moment ≠ .after allocation) :
    flow.Crossed write allocation ↔ flow.writes write.variableId allocation = false ∧
      flow.flows write.kill (.before allocation) (flow.writes write.variableId) = true ∧
      flow.flows allocation write.moment (flow.writes write.variableId) = true := by
  simp only [flows_iff]
  constructor
  · rintro ⟨path, observes, crosses⟩
    obtain ⟨leads, kept⟩ := observes.leads later
    have passable := kept allocation crosses
    obtain ⟨front, back, rfl, goesOn⟩ := leads.split_executed inner crosses
    obtain ⟨before, after⟩ := (leads_append_cons_iff goesOn).mp leads
    rw [List.append_cons, write.moment.executed_append _ goesOn] at kept
    refine ⟨passable, ⟨front ++ [allocation], before, fun point member => ?_⟩, back, after,
      fun point member => kept point (List.mem_append_right _ member)⟩
    exact kept point (List.mem_append_left _ (List.dropLast_subset _ member))
  · rintro ⟨passable, ⟨reaching, reaches, kept⟩, back, goes, kept'⟩
    have same := reaches.dropLast_append
    refine ⟨reaching ++ back, .along ?_ ?_, ?_⟩
    · rw [← same, List.append_assoc]
      exact (leads_append_cons_iff goes.ne_nil).mpr ⟨same.symm ▸ reaches, goes⟩
    · intro point member
      rw [write.moment.executed_append _ goes.ne_nil, ← same] at member
      simp only [List.mem_append, List.mem_singleton] at member
      obtain (member | rfl) | member := member
      · exact kept point member
      · exact passable
      · exact kept' point member
    · rw [write.moment.executed_append _ goes.ne_nil, ← same]
      simp [Moment.point]

private theorem crossed_iff_of_last (later : write.moment ≠ .after write.kill)
    (last : write.moment = .after allocation) :
    flow.Crossed write allocation ↔
      flow.flows write.kill write.moment (flow.writes write.variableId) = true := by
  rw [flows_iff]
  constructor
  · rintro ⟨path, observes, -⟩
    exact ⟨path, observes.leads later⟩
  · rintro ⟨path, leads, kept⟩
    refine ⟨path, .along leads kept, ?_⟩
    rw [last] at leads ⊢
    rw [Moment.executed, ← leads.dropLast_append]
    simp [Moment.point]

private theorem not_crossed_of_writes (later : write.moment ≠ .after write.kill)
    (overwrites : flow.writes write.variableId allocation = true) :
    ¬flow.Crossed write allocation := by
  rintro ⟨path, observes, crosses⟩
  have kept := (observes.leads later).2 allocation crosses
  simp [overwrites] at kept

/-! ## Answers -/

private theorem tells_of_searches {crosses avoids : Bool} {crossed avoided : Prop}
    (isCrossed : crossed ↔ crosses = true) (isAvoided : avoided ↔ avoids = true) :
    (match crosses, avoids with
      | true, false => Ageing.aged
      | true, true => .either
      | false, _ => .fresh).Tells crossed avoided := by
  cases crosses <;> cases avoids <;> simp [Ageing.Tells, isCrossed, isAvoided]

/-- The answer is right unless the value is observed just before the allocation and has already
been through it. -/
theorem ageing_by_paths (isKill : flow.writes write.variableId write.kill = true) :
    (flow.ageing write allocation).Tells (flow.Crossed write allocation)
        (flow.Avoided write allocation) ↔
      (write.moment = .before allocation → ¬flow.Crossed write allocation) := by
  unfold ageing
  by_cases atOnce : write.moment = .after write.kill
  · have fresh : ¬flow.Crossed write allocation := not_crossed_at_once isKill atOnce
    simp [atOnce, Ageing.Tells, fresh]
  by_cases overwrites : flow.writes write.variableId allocation = true
  · have fresh := not_crossed_of_writes atOnce overwrites
    simp [atOnce, Ageing.Tells, fresh, overwrites]
  have other : allocation ≠ write.kill := fun same => overwrites (same ▸ isKill)
  have passable : flow.writes write.variableId allocation = false := by simpa using overwrites
  -- Just before the allocation, the answer is that it has not run, whatever the paths are.
  by_cases own : write.moment = .before allocation
  · simp [own, Ageing.Tells]
  refine iff_of_true ?_ (fun before => absurd before own)
  simp only [if_neg atOnce, own, passable, if_false]
  refine tells_of_searches ?_ (avoided_iff atOnce)
  by_cases last : write.moment = .after allocation
  · rw [crossed_iff_of_last atOnce last]
    simp [last, other]
  · rw [crossed_iff_of_inner atOnce last]
    simp [last, other, passable]

end ControlFlow

/-- A method that writes variable 0 and then either runs its allocation, over which it may loop,
or passes it by. -/
def loopingFlow : ControlFlow :=
  ⟨⟨[⟨0, .entry⟩, ⟨0, .exit⟩, ⟨0, .statement 0⟩, ⟨0, .statement 1⟩, ⟨0, .statement 2⟩],
    [(0, 2), (2, 3), (2, 4), (3, 3), (3, 4), (4, 1)]⟩, [(2, 0)]⟩

theorem ageing_by_paths_looping :
    loopingFlow.writes 0 2 = true ∧ loopingFlow.ageing ⟨0, 2, .before 4⟩ 3 = .either ∧
      loopingFlow.Crossed ⟨0, 2, .before 4⟩ 3 ∧ loopingFlow.Avoided ⟨0, 2, .before 4⟩ 3 := by
  have isKill : loopingFlow.writes 0 2 = true := by decide
  have isEither : loopingFlow.ageing ⟨0, 2, .before 4⟩ 3 = .either := by decide
  have tells : (loopingFlow.ageing ⟨0, 2, .before 4⟩ 3).Tells
      (loopingFlow.Crossed ⟨0, 2, .before 4⟩ 3) (loopingFlow.Avoided ⟨0, 2, .before 4⟩ 3) :=
    (ControlFlow.ageing_by_paths isKill).mpr fun before => by cases before
  rw [isEither] at tells
  exact ⟨isKill, isEither, tells⟩

/-- Before the second round of the loop the allocation has run, but not before the first. -/
theorem ageing_misses_loop :
    loopingFlow.writes 0 2 = true ∧ loopingFlow.ageing ⟨0, 2, .before 3⟩ 3 = .fresh ∧
      loopingFlow.Crossed ⟨0, 2, .before 3⟩ 3 ∧ loopingFlow.Avoided ⟨0, 2, .before 3⟩ 3 := by
  refine ⟨by decide, by decide, ⟨[3, 3], .along ⟨?_, rfl⟩ ?_, ?_⟩, ⟨[3], .along ⟨?_, rfl⟩ ?_, ?_⟩⟩
  all_goals decide

end ObjectFlow
