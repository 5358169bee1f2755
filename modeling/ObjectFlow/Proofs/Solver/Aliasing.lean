import ObjectFlow.Proofs.Solver.Finished
import ObjectFlow.Proofs.Solver.Recency

/-!
# Stores seen by loads

When a run is finished, what a store puts into a slot of an object is found by
the loads of that slot from the object, and by those from its summary.  Loads
from a most recent object do not find what was stored into its summary.
-/

namespace ObjectFlow

open Demand

namespace Frame

variable {frame : Frame} {facts : Set Fact} {key : FieldKey} {object value : HeapObject}

private theorem stored_of_met {type : TypeId} (met : frame.putting key object value facts ⊆ facts)
    (hasSlot : frame.hasSlot? object key = some true)
    (typed : frame.slotType? object key = some type)
    (admitted : frame.hierarchy.isSubtype? value.type type = some true) :
    .edge (.field object key type) value ∈ facts := by
  have met := provided_met hasSlot met
  rw [typed] at met
  have accepted : (⟨type, []⟩ : TypeFilter).accepts? frame.hierarchy value.type = some true := by
    simp [TypeFilter.accepts?, TypeFilter.avoids?, admitted]
  exact provided_met accepted (both_closed met).2 rfl

private theorem loaded_of_met {place : Place} {type : TypeId}
    (met : frame.fetching key place object facts ⊆ facts)
    (hasSlot : frame.hasSlot? object key = some true)
    (typed : frame.slotType? object key = some type)
    (stored : .edge (.field object key type) value ∈ facts) : .edge place value ∈ facts := by
  have met := provided_met hasSlot met
  rw [slot?, typed] at met
  refine met (.inl ⟨value, ?_, rfl⟩)
  rw [shown_direct]
  exact stored

end Frame

/-! ## Stores and loads -/

structure SlotAccess where
  statement : StatementId
  context : Context
  point : Option PointId
  base : Variable
  key : FieldKey
  transferred : Variable

namespace Results

/-- The accesses of the reachable methods, given what an action accesses. -/
def accesses (results : Results) (accessed : Action → Option (Variable × FieldKey × Variable)) :
    List SlotAccess :=
  results.reachable.flatMap fun node =>
    (results.program.statementsOf node.method).filterMap fun id => do
      let statement ← results.program.statement? id
      let (base, key, transferred) ← accessed statement.action
      pure ⟨id, node.context, statement.point, base, key, transferred⟩

def stores (results : Results) : List SlotAccess :=
  results.accesses fun
    | .store base key source => some (base, key, source)
    | _ => none

def loads (results : Results) : List SlotAccess :=
  results.accesses fun
    | .load target base key => some (base, key, target)
    | _ => none

def frame (results : Results) (access : SlotAccess) : Frame :=
  results.analysis.frame (access.statement, access.context) 0

def read? (results : Results) (access : SlotAccess) (declared : Variable) : Option IdSet :=
  results.answer? ((results.frame access).read .full declared access.point)

def admits? (results : Results) (access : SlotAccess) (base value : ObjectId) : Option Bool := do
  let type ← results.answer? ((results.frame access).fieldType base access.key)
  let object ← results.graph.object? value
  results.program.hierarchy.isSubtype? object.type type

/-- Loads that are not flow-sensitive see what was stored, from objects that alias those it was
stored into. -/
def StoresSeen (results : Results) (aliases : SlotAccess → ObjectId → ObjectId → Prop) : Prop :=
  ∀ store ∈ results.stores, ∀ load ∈ results.loads, load.key = store.key →
    load.base.flowSensitive = false → load.transferred.flowSensitive = false →
    ∀ bases ∈ results.read? store store.base, ∀ values ∈ results.read? store store.transferred,
      ∀ base ∈ bases.toList, ∀ other ∈ (results.pointsTo load.base load.context).toList,
        aliases store base other → ∀ value ∈ values.toList,
          results.admits? store base value = some true →
            value ∈ results.pointsTo load.transferred load.context

instance (results : Results) (aliases : SlotAccess → ObjectId → ObjectId → Prop)
    [∀ store base other, Decidable (aliases store base other)] :
    Decidable (results.StoresSeen aliases) := by
  unfold StoresSeen
  infer_instance

def SameAllocation (results : Results) (base other : ObjectId) : Prop :=
  (results.graph.object? base).map (·.withRecency .plain) =
    (results.graph.object? other).map (·.withRecency .plain)

def HasSlot (results : Results) (access : SlotAccess) (base : ObjectId) : Prop :=
  results.answer? ((results.frame access).holdsField base access.key) = some true

def HasReferenceSlot (results : Results) (access : SlotAccess) (base : ObjectId) : Prop :=
  ∃ keys ∈ results.answer? ((results.frame access).referenceFields base), access.key ∈ keys

def IsSummary (results : Results) (base other : ObjectId) : Prop :=
  (results.graph.object? base).bind results.analysis.abstraction.summaryOf =
    results.graph.object? other

def IsAllocated (results : Results) (base : ObjectId) : Prop :=
  ∃ object ∈ results.graph.object? base, object.site.kind ≠ .clone

/-- The objects whose slots hold what was stored into the first: itself, and its summary if it was
folded into that. -/
def Shares (results : Results) (store : SlotAccess) (base other : ObjectId) : Prop :=
  results.HasSlot store base ∧ (base = other ∨
    results.IsSummary base other ∧ results.IsAllocated base ∧ results.HasReferenceSlot store base)

section Decidable

variable (results : Results) (access : SlotAccess) (base other : ObjectId)

instance : Decidable (results.SameAllocation base other) := inferInstanceAs (Decidable (_ = _))

instance : Decidable (results.HasSlot access base) := inferInstanceAs (Decidable (_ = _))

instance : Decidable (results.HasReferenceSlot access base) :=
  inferInstanceAs (Decidable (∃ keys ∈ _, _ ∈ keys))

instance : Decidable (results.IsSummary base other) := inferInstanceAs (Decidable (_ = _))

instance : Decidable (results.IsAllocated base) :=
  inferInstanceAs (Decidable (∃ object ∈ results.graph.object? base, object.site.kind ≠ .clone))

instance : Decidable (results.Shares access base other) :=
  inferInstanceAs (Decidable (_ ∧ (_ ∨ _ ∧ _ ∧ _)))

end Decidable

/-! ## What a finished run has stored and loaded -/

section Finished

open SolverState

variable {results : Results} {kind : SetKind} {access : SlotAccess}

private theorem mem_accesses {accessed : Action → Option (Variable × FieldKey × Variable)}
    (member : access ∈ results.accesses accessed) :
    ∃ node ∈ results.state.reached.keys,
      access.statement ∈ results.program.statementsOf node.method ∧ access.context = node.context ∧
      ∃ statement, results.program.statement? access.statement = some statement ∧
        access.point = statement.point ∧
        accessed statement.action = some (access.base, access.key, access.transferred) := by
  obtain ⟨node, reached, member⟩ := List.mem_flatMap.mp member
  obtain ⟨id, listed, found⟩ := List.mem_filterMap.mp member
  obtain ⟨statement, isStatement, found⟩ := Option.bind_eq_some_iff.mp found
  obtain ⟨⟨base, key, transferred⟩, isAccess, found⟩ := Option.bind_eq_some_iff.mp found
  cases found
  exact ⟨node, reached, listed, rfl, statement, isStatement, rfl, isAccess⟩

private theorem access_met (invariant : Invariant results.analysis results.state)
    (done : results.state.pending = [])
    {accessed : Action → Option (Variable × FieldKey × Variable)}
    (member : access ∈ results.accesses accessed) :
    ∃ statement, access.point = statement.point ∧
      accessed statement.action = some (access.base, access.key, access.transferred) ∧
      (results.frame access).demand statement (watching results.graph.content) ⊆
        watching results.graph.content := by
  obtain ⟨node, reached, listed, sameContext, statement, found, samePoint, isAccess⟩ :=
    mem_accesses member
  refine ⟨statement, samePoint, isAccess, ?_⟩
  have reaches := Analysis.reaches_watching.mpr ((invariant.reached node).mp reached)
  have met := (invariant.closed done).demands node reaches access.statement listed
  rw [Analysis.demand_eq _ found 0, ← sameContext] at met
  exact met

private theorem store_met (invariant : Invariant results.analysis results.state)
    (done : results.state.pending = []) (member : access ∈ results.stores) :
    (results.frame access).storing access.point access.base access.key access.transferred
      (watching results.graph.content) ⊆ watching results.graph.content := by
  obtain ⟨statement, samePoint, isStore, met⟩ := access_met invariant done member
  rw [samePoint]
  unfold Frame.demand at met
  split at isStore
  · next isAction =>
      cases isStore
      rw [isAction] at met
      exact met
  · cases isStore

private theorem load_met (invariant : Invariant results.analysis results.state)
    (done : results.state.pending = []) (member : access ∈ results.loads) :
    (results.frame access).loading access.point access.transferred access.base access.key
      (watching results.graph.content) ⊆ watching results.graph.content := by
  obtain ⟨statement, samePoint, isLoad, met⟩ := access_met invariant done member
  rw [samePoint]
  unfold Frame.demand at met
  split at isLoad
  · next isAction =>
      cases isLoad
      rw [isAction] at met
      exact met
  · cases isLoad

private theorem store_spec (pure : results.analysis.abstraction.policy.IsPure)
    (invariant : Invariant results.analysis results.state) (done : results.state.pending = [])
    (member : access ∈ results.stores) :
    ∃ bases values, results.read? access access.base = some bases ∧
      results.read? access access.transferred = some values ∧
      ∀ base ∈ bases, ∃ object, results.graph.object? base = some object ∧
        (results.frame access).Seen (watching results.graph.content) object ∧
        ∀ value ∈ values, ∃ held, results.graph.object? value = some held ∧
          (results.frame access).putting access.key object held
            (watching results.graph.content) ⊆ watching results.graph.content := by
  have safe := Graph.failure_notMem_watching results.graph
  obtain ⟨reads, puts⟩ := both_closed (store_met invariant done member)
  obtain ⟨baseSources, isBase, looked, puts⟩ := Frame.observed_of_met safe puts
  obtain ⟨valueSources, isValue, looked', _⟩ := Frame.observed_of_met safe reads
  obtain ⟨bases, readsBase, isBases⟩ := invariant.read_spec pure isBase looked
  obtain ⟨values, readsValue, isValues⟩ := invariant.read_spec pure isValue looked'
  refine ⟨bases, values, toOption_eq_some.mpr readsBase, toOption_eq_some.mpr readsValue, ?_⟩
  intro base isMember
  obtain ⟨object, seen, named⟩ := (isBases base).mp isMember
  refine ⟨object, named, Frame.seen_of_sources isBase seen, fun value isMember' => ?_⟩
  obtain ⟨held, seen', named'⟩ := (isValues value).mp isMember'
  obtain ⟨sources, same, _, puts⟩ := Frame.observed_of_met safe (puts object seen)
  obtain rfl := Option.some.inj (isValue.symm.trans same)
  exact ⟨held, named', puts held seen'⟩

private theorem load_spec (invariant : Invariant results.analysis results.state)
    (done : results.state.pending = []) (member : access ∈ results.loads)
    (plainBase : access.base.flowSensitive = false)
    (plainTarget : access.transferred.flowSensitive = false) {other : ObjectId}
    {object : HeapObject} (named : results.graph.object? other = some object)
    (pointsTo : other ∈ results.pointsTo access.base access.context) :
    (results.frame access).fetching access.key
      (.local (access.transferred.replica access.context results.initialContext)) object
      (watching results.graph.content) ⊆ watching results.graph.content := by
  have met := load_met invariant done member
  have isTarget : (results.frame access).written? access.transferred access.point =
      some (.local (access.transferred.replica access.context results.initialContext)) := by
    simp only [Frame.written?, plainTarget, Bool.false_eq_true, if_false]
    rfl
  have isBase : (results.frame access).sources? access.base access.point =
      some [.direct (.local (access.base.replica access.context results.initialContext))] := by
    simp only [Frame.sources?, plainBase, Bool.false_eq_true, if_false]
    rfl
  unfold Frame.loading Frame.observing at met
  rw [isTarget, isBase] at met
  have fetches := (Set.union_subset_iff.mp (both_closed met).2).1
  refine fun fact demanded => fetches ⟨object, ?_, demanded⟩
  rw [shown_direct]
  exact Graph.facts_subset_watching _ 0 ((mem_pointsTo 0 plainBase named).mp pointsTo)

/-- When a run is finished, every store can be read, and what it puts into an object is seen by
the loads from that object and from its summary. -/
theorem stores_seen_by_loads {config : Config}
    (chosen : HeapAbstraction.ofConfig config = .ok results.analysis.abstraction)
    (recency : config.recency = true)
    (reachable : Reachable results.analysis kind results.state)
    (done : results.state.pending = []) :
    (∀ store ∈ results.stores, ∃ bases values, results.read? store store.base = some bases ∧
      results.read? store store.transferred = some values) ∧
    results.StoresSeen results.Shares := by
  have pure := HeapAbstraction.isPure_of_config chosen
  have tells := HeapAbstraction.tellsRecency_of_config chosen recency
  have invariant := reachable.invariant pure
  constructor
  · intro store isStore
    obtain ⟨bases, values, readsBase, readsValue, _⟩ := store_spec pure invariant done isStore
    exact ⟨bases, values, readsBase, readsValue⟩
  · intro store isStore load isLoad sameKey plainBase plainTarget bases readsBase values readsValue
      base isBase other isOther ⟨hasSlot, aliases⟩ value isValue admitted
    obtain ⟨_, _, same, same', puts⟩ := store_spec pure invariant done isStore
    obtain rfl := Option.some.inj (same.symm.trans readsBase)
    obtain rfl := Option.some.inj (same'.symm.trans readsValue)
    obtain ⟨object, named, seen, puts⟩ := puts base isBase
    obtain ⟨held, isHeld, puts⟩ := puts value isValue
    rw [HasSlot, answer?_eq (Frame.holdsField_run _ _ named)] at hasSlot
    rw [admits?, answer?_eq (Frame.fieldType_run _ _ named), isHeld] at admitted
    obtain ⟨type, typed, admitted⟩ := Option.bind_eq_some_iff.mp admitted
    have stored := Frame.stored_of_met puts hasSlot typed admitted
    refine (mem_pointsTo 0 plainTarget isHeld).mpr (Graph.edge_of_watching ?_ 0)
    rcases aliases with rfl | ⟨isSummary, ⟨_, isObject, notClone⟩, keys, isKeys, folded⟩
    · have fetches := load_spec invariant done isLoad plainBase plainTarget named isOther
      rw [sameKey] at fetches
      exact Frame.loaded_of_met fetches hasSlot typed stored
    · obtain rfl := Option.some.inj (named.symm.trans isObject)
      obtain ⟨summary, named'⟩ := named_of_mem_pointsTo invariant.valid isOther
      rw [IsSummary, named, named'] at isSummary
      obtain ⟨recent, rfl⟩ := tells.recency_of_summary isSummary
      obtain ⟨place, edge⟩ := seen.edge_of_recent tells recent
      obtain ⟨_, slots, isSlots, covers⟩ := reachable.covered pure
        (HeapAbstraction.confined_of_config chosen) tells done edge recent notClone
        (store.statement, store.context)
      have sameSlots := answer?_eq (Frame.referenceFields_run (results.frame store) named)
      obtain rfl := Option.some.inj ((sameSlots.trans isSlots).symm.trans isKeys)
      have fetches := load_spec invariant done isLoad plainBase plainTarget named' isOther
      rw [sameKey] at fetches
      exact Frame.loaded_of_met fetches hasSlot typed (covers store.key folded type held stored)

end Finished

end Results

def aliasingProgram : Declaration.Program :=
  ⟨"Main.main",
    [⟨"B", none, none, false, []⟩,
      ⟨"I", none, none, true, [.field ⟨"g", "B", false⟩]⟩,
      ⟨"A", none, some "I", false, [.field ⟨"f", "B", false⟩]⟩,
      ⟨"Main", none, none, false,
        [.method ⟨"main", none, true, false, false,
          [.local ⟨"new", "A", false⟩, .local ⟨"old", "A", true⟩, .local ⟨"older", "A", false⟩,
            .local ⟨"copy", "A", false⟩, .local ⟨"oldCopy", "A", true⟩,
            .local ⟨"olderCopy", "A", false⟩, .local ⟨"odd", "A", false⟩,
            .local ⟨"value", "B", false⟩, .local ⟨"other", "B", false⟩,
            .local ⟨"w1", "B", false⟩, .local ⟨"w2", "B", false⟩, .local ⟨"w3", "B", false⟩,
            .local ⟨"w4", "B", false⟩, .local ⟨"w5", "B", false⟩,
            .statement .new { target := some "new", type := some "A", label := some "top" },
            .statement .call
              { target := some "copy", receiver := some "new", method := some "Object.clone",
                branch := some "end" },
            .statement .copy { target := some "old", source := some "new" },
            .statement .copy
              { target := some "oldCopy", source := some "copy", jump := some "top" },
            .statement .new { target := some "value", type := some "B", label := some "end" },
            .statement .copy { target := some "older", source := some "old" },
            .statement .copy { target := some "olderCopy", source := some "oldCopy" },
            .statement .copy { target := some "odd", source := some "value" },
            .statement .store { base := some "old", field := some "f", source := some "value" },
            .statement .load { target := some "w1", base := some "new", field := some "f" },
            .statement .store { base := some "odd", field := some "f", source := some "value" },
            .statement .load { target := some "w2", base := some "odd", field := some "f" },
            .statement .store
              { base := some "new", className := some "I", field := some "g",
                source := some "value" },
            .statement .load
              { target := some "w3", base := some "older", className := some "I",
                field := some "g" },
            .statement .store { base := some "copy", field := some "f", source := some "value" },
            .statement .load { target := some "w4", base := some "olderCopy", field := some "f" },
            .statement .new { target := some "other", type := some "B" },
            .statement .store { base := some "new", field := some "f", source := some "other" },
            .statement .load { target := some "w5", base := some "older", field := some "f" }]⟩]⟩]⟩

theorem stores_seen_by_loads_aliasing : ∃ results : Results,
    aliasingProgram.load = .ok results.program ∧
      HeapAbstraction.ofConfig recencySettings = .ok results.analysis.abstraction ∧
      SolverState.Reachable results.analysis .hashed results.state ∧ results.state.pending = [] ∧
      results.StoresSeen results.Shares ∧
      ∃ store ∈ results.stores, ∃ bases ∈ results.read? store store.base, ∃ base ∈ bases.toList,
        ∃ load ∈ results.loads, ∃ other ∈ (results.pointsTo load.base load.context).toList,
          base ≠ other ∧ results.Shares store base other := by
  obtain ⟨results, loaded, chosen, solved, done, shared⟩ :=
    aliasingProgram.exists_finished recencySettings (fun results =>
      ∃ store ∈ results.stores, ∃ bases ∈ results.read? store store.base, ∃ base ∈ bases.toList,
        ∃ load ∈ results.loads, ∃ other ∈ (results.pointsTo load.base load.context).toList,
          base ≠ other ∧ results.Shares store base other) (by decide +kernel)
  have reachable := Analysis.solve_reachable solved
  exact ⟨results, loaded, chosen, reachable, done,
    (Results.stores_seen_by_loads chosen rfl reachable done).2, shared⟩

/-- A loop that keeps the object of its last round but one in two variables.  A run that goes round
twice then stores into it through `a` and loads from it through `b`. -/
def keepingTwiceProgram : Declaration.Program :=
  ⟨"Main.main",
    [⟨"B", none, none, false, []⟩,
      ⟨"A", none, none, false, [.field ⟨"f", "B", false⟩]⟩,
      ⟨"Main", none, none, false,
        [.method ⟨"main", none, true, false, false,
          [.local ⟨"n", "A", false⟩, .local ⟨"a", "A", true⟩, .local ⟨"b", "A", false⟩,
            .local ⟨"s", "B", false⟩, .local ⟨"w", "B", false⟩,
            .statement .new
              { target := some "n", type := some "A", label := some "L", branch := some "M" },
            .statement .copy { target := some "a", source := some "n" },
            .statement .copy { target := some "b", source := some "a", jump := some "L" },
            .statement .new { target := some "s", type := some "B", label := some "M" },
            .statement .store { base := some "a", field := some "f", source := some "s" },
            .statement .load { target := some "w", base := some "b", field := some "f" }]⟩]⟩]⟩

/-- Both variables hold the same object, and point to object 0 alone.  The store sees it aged into
its summary, which is object 1, the load as the most recent one, and so object 2 is not found. -/
theorem stores_missed_by_alias : ∃ results : Results,
    keepingTwiceProgram.load = .ok results.program ∧
      HeapAbstraction.ofConfig recencySettings = .ok results.analysis.abstraction ∧
      SolverState.Reachable results.analysis .hashed results.state ∧ results.state.pending = [] ∧
      ¬ results.StoresSeen (fun _ => results.SameAllocation) ∧
      ∃ store ∈ results.stores, ∃ load ∈ results.loads, load.key = store.key ∧
        load.base.flowSensitive = false ∧ load.transferred.flowSensitive = false ∧
        results.IsSummary 0 1 ∧
        results.pointsTo store.base store.context = .singleton 0 ∧
        results.pointsTo load.base load.context = .singleton 0 ∧
        results.read? store store.base = some (.singleton 1) ∧
        results.read? store store.transferred = some (.singleton 2) ∧
        results.HasSlot store 1 ∧ results.admits? store 1 2 = some true ∧
        results.pointsTo load.transferred load.context = ∅ := by
  refine (keepingTwiceProgram.exists_finished recencySettings _ ?checked).imp
    fun results ⟨loaded, chosen, solved, done, missed⟩ =>
      ⟨loaded, chosen, Analysis.solve_reachable solved, done, missed⟩
  decide +kernel

/-- None of the other conditions for sharing can be left out. -/
theorem stores_not_seen_by_loads : ∃ results : Results,
    aliasingProgram.load = .ok results.program ∧
      HeapAbstraction.ofConfig recencySettings = .ok results.analysis.abstraction ∧
      SolverState.Reachable results.analysis .hashed results.state ∧ results.state.pending = [] ∧
      ¬ results.StoresSeen (fun _ base other => base = other) ∧
      ¬ results.StoresSeen (fun store base other => results.IsSummary base other ∧
        results.HasSlot store base ∧ results.IsAllocated base) ∧
      ¬ results.StoresSeen (fun store base other => results.IsSummary base other ∧
        results.HasSlot store base ∧ results.HasReferenceSlot store base) := by
  refine (aliasingProgram.exists_finished recencySettings _ ?checked).imp
    fun results ⟨loaded, chosen, solved, done, refuted⟩ =>
      ⟨loaded, chosen, Analysis.solve_reachable solved, done, refuted⟩
  decide +kernel

end ObjectFlow
