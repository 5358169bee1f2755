import ObjectFlow.Proofs.Solver.Limits
import ObjectFlow.Proofs.Solver.Refinement

/-!
# Deeper contexts

Cutting contexts projects what a policy answers at some depths to what it
answers at smaller ones.  Under call strings, methods keep their whole depth.  A
context made of objects is an allocation site before a heap context that was cut
already, so it keeps one element more than heap contexts do.
-/

namespace ObjectFlow

namespace Projection

/-- Cut contexts to a length, and heap contexts to another. -/
def cutting (depth heapDepth : Nat) : Projection where
  onContext context := context.truncate depth
  onObject object := { object with context := object.context.truncate heapDepth }
  flat := false
  keepsSite _ := rfl

end Projection

namespace Context

theorem truncate_truncate (context : Context) (longer shorter : Nat) :
    (context.truncate longer).truncate shorter = context.truncate (min shorter longer) := by
  simp [truncate, List.take_take]

theorem truncate_push {limit depth : Nat} (context : Context) (element : ContextElement)
    (le : depth ≤ limit) :
    (context.push element limit).truncate depth = context.push element depth := by
  simp [truncate, push, List.take_take, Nat.min_eq_left le]

private theorem push_truncate {depth limit : Nat} (context : Context) (element : ContextElement)
    (le : depth ≤ limit + 1) :
    (context.truncate limit).push element depth = context.push element depth := by
  cases depth with
  | zero => rfl
  | succ depth =>
      have enough : depth ≤ limit := Nat.le_of_succ_le_succ le
      simp [truncate, push, List.take_take, Nat.min_eq_left enough]

end Context

namespace Policy

variable {depth heapDepth deeper heapDeeper : Nat} {bound : Set Fact}

private theorem callSite_projects (le : depth ≤ deeper) (heapLe : heapDepth ≤ heapDeeper) :
    (callSite deeper heapDeeper).Projects (.cutting depth (min depth heapDepth)) bound
      (callSite depth heapDepth) where
  initial := by simp [callSite, Projection.cutting, Context.empty, Context.truncate]
  merge site receiver caller := by
    show (caller.truncate depth).push (.call site) depth =
      (caller.push (.call site) deeper).truncate depth
    rw [Context.truncate_push _ _ le, Context.push_truncate _ _ (Nat.le_succ depth)]
  record site context := by
    have same : min (min depth heapDepth) heapDeeper = min heapDepth depth := by omega
    simp [callSite, Projection.cutting, HeapObject.ofSite, Context.truncate_truncate, same]
  summaryOf found := by cases found

private theorem object_projects (le : depth ≤ deeper) (heapLe : heapDepth ≤ heapDeeper) :
    (object deeper heapDeeper).Projects
      (.cutting (min depth (heapDepth + 1)) (min depth heapDepth)) bound
      (object depth heapDepth) where
  initial := by simp [object, Projection.cutting, Context.empty, Context.truncate]
  merge site receiver caller := by
    cases receiver with
    | none => rfl
    | some receiver =>
        let element := ContextElement.allocation receiver.site
        show (receiver.context.truncate (min depth heapDepth)).push element depth =
          (receiver.context.push element deeper).truncate (min depth (heapDepth + 1))
        rw [Context.truncate_push _ _ (by omega)]
        cases depth with
        | zero => simp [Context.push]
        | succ depth =>
            have same : min depth (min (depth + 1) heapDepth) = min depth heapDepth := by omega
            simp [Context.push, Context.truncate, List.take_take, Nat.succ_min_succ, same]
  record site context := by
    have same : min heapDepth (min depth (heapDepth + 1)) =
        min (min depth heapDepth) heapDeeper := by omega
    simp [object, Projection.cutting, HeapObject.ofSite, Context.truncate_truncate, same]
  summaryOf found := by cases found

/-- Without contexts nothing is left of the answers of a policy but the site. -/
theorem Registered.projects_insensitive {config : Config} {policy : Policy}
    (registered : Registered config policy) :
    policy.Projects (.cutting 0 0) bound Policy.insensitive := by
  cases registered <;> exact ⟨rfl, fun _ _ _ => rfl, fun _ _ => rfl, nofun⟩

end Policy

namespace SolverState

/-- Deeper contexts only refine.  If an analysis without recency comes to an end, then so does every
run of the same program under the same policy with greater depths, or under any policy if it did
without contexts; and what that run finds is found again when its contexts are cut. -/
theorem deeper_contexts_refine {declared : Declaration.Program} {shallow deep : Config}
    {coarse fine : Analysis} {kind : SetKind} {final : SolverState}
    (loaded : declared.load = .ok coarse.program) (sameProgram : fine.program = coarse.program)
    (chosen : HeapAbstraction.ofConfig shallow = .ok coarse.abstraction)
    (chosenDeep : HeapAbstraction.ofConfig deep = .ok fine.abstraction)
    (plain : shallow.recency = false) (plainDeep : deep.recency = false)
    (ends : Ends coarse (seed coarse kind) (.ok final)) (other : SetKind) :
    (deep.policy = shallow.policy → shallow.depth ≤ deep.depth →
      shallow.heapDepth ≤ deep.heapDepth →
      (shallow.policy = "call-site" →
        EndsWithin (.cutting shallow.depth (min shallow.depth shallow.heapDepth)) fine other
          final) ∧
      (shallow.policy = "object" →
        EndsWithin (.cutting (min shallow.depth (shallow.heapDepth + 1))
          (min shallow.depth shallow.heapDepth)) fine other final)) ∧
    (shallow.policy = "insensitive" → EndsWithin (.cutting 0 0) fine other final) := by
  obtain ⟨registered, isCallSite, isObject, isInsensitive⟩ :=
    HeapAbstraction.policy_of_config chosen plain
  obtain ⟨registeredDeep, isCallSiteDeep, isObjectDeep, _⟩ :=
    HeapAbstraction.policy_of_config chosenDeep plainDeep
  obtain ⟨finished, done⟩ := ends.finished rfl
  have invariant := finished.invariant registered.isPure
  have refines : ∀ depth heapDepth, fine.abstraction.policy.Projects (.cutting depth heapDepth)
      (watching final.graph.content) coarse.abstraction.policy →
        EndsWithin (.cutting depth heapDepth) fine other final := by
    intro depth heapDepth policy
    have projects : fine.Projects (.cutting depth heapDepth) (watching final.graph.content)
        coarse := .of_policy rfl sameProgram.symm policy registered.summaryOf
    exact endsWithin (sameProgram ▸ loaded) registeredDeep.isPure registeredDeep.confined invariant
      done projects other
  refine ⟨fun same le heapLe => ⟨fun isName => refines _ _ ?_, fun isName => refines _ _ ?_⟩,
    fun isName => refines _ _ ?_⟩
  · rw [isCallSite isName, isCallSiteDeep (same.trans isName)]
    exact Policy.callSite_projects le heapLe
  · rw [isObject isName, isObjectDeep (same.trans isName)]
    exact Policy.object_projects le heapLe
  · rw [isInsensitive isName]
    exact registeredDeep.projects_insensitive

end SolverState

def shallowSettings : Config := { layeredSettings with depth := 1, heapDepth := 0 }

theorem deeper_contexts_refine_layered : ∃ results deep : Results,
    layeredProgram.load = .ok results.program ∧ deep.program = results.program ∧
      HeapAbstraction.ofConfig shallowSettings = .ok results.analysis.abstraction ∧
      HeapAbstraction.ofConfig layeredSettings = .ok deep.analysis.abstraction ∧
      SolverState.Ends results.analysis (.seed results.analysis .hashed) (.ok results.state) ∧
      (∃ node ∈ deep.state.reached.keys, node.context.length = 2) ∧
      deep.state.MapsInto (.cutting 1 0) results.state := by
  obtain ⟨results, loaded, chosen, solved, done, _⟩ :=
    layeredProgram.exists_finished shallowSettings (fun _ => True) (by decide +kernel)
  obtain ⟨deep, loadedDeep, chosenDeep, solvedDeep, doneDeep, reached⟩ :=
    layeredProgram.exists_finished layeredSettings
      (fun results => ∃ node ∈ results.state.reached.keys, node.context.length = 2)
      (by decide +kernel)
  have sameProgram : deep.program = results.program :=
    Except.ok.inj (loadedDeep.symm.trans loaded)
  have ends := SolverState.Ends.of_run solved done
  obtain ⟨refines, _⟩ := SolverState.deeper_contexts_refine loaded sameProgram chosen chosenDeep
    rfl rfl ends .hashed
  obtain ⟨_, all⟩ := (refines rfl (by decide) (by decide)).2 rfl
  obtain ⟨last, same, maps⟩ := all _ (SolverState.Ends.of_run solvedDeep doneDeep)
  cases same
  exact ⟨results, deep, loaded, sameProgram, chosen, chosenDeep, ends, reached, maps⟩

end ObjectFlow
