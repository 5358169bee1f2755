import Mathlib.Data.Prod.Lex
import Mathlib.Data.Set.Card
import ObjectFlow.Proofs.Evaluation.Finite
import ObjectFlow.Proofs.Program.Provenance
import ObjectFlow.Proofs.Solver.Soundness

/-!
# The facts of an analysis

A program has finitely many allocation sites, and a confined policy makes
finitely many contexts of them.  So the edges, calls and triggered initializers
that an analysis can ever find are on a list that is known beforehand.
-/

namespace ObjectFlow

open Demand

/-! ## Contexts -/

namespace Context

def upTo (elements : List ContextElement) : (depth : Nat) → List Context
  | 0 => [.empty]
  | depth + 1 =>
      .empty :: elements.flatMap fun element =>
        (upTo elements depth).map fun context => ⟨element :: context.elements⟩

theorem mem_upTo {elements : List ContextElement} {depth : Nat} {context : Context} :
    context ∈ upTo elements depth ↔ context.Over elements depth := by
  induction depth generalizing context with
  | zero =>
      obtain ⟨list⟩ := context
      constructor
      · intro member
        rw [List.mem_singleton.mp member]
        exact .empty
      · intro limited
        obtain rfl : list = [] := List.length_eq_zero_iff.mp (Nat.le_zero.mp limited.1)
        exact List.mem_singleton_self _
  | succ depth ih =>
      obtain ⟨list⟩ := context
      cases list with
      | nil => exact iff_of_true List.mem_cons_self .empty
      | cons element rest =>
          have listed : (⟨element :: rest⟩ : Context) ∈ upTo elements (depth + 1) ↔
              element ∈ elements ∧ ⟨rest⟩ ∈ upTo elements depth := by
            simp only [upTo, Context.empty, List.mem_cons, List.mem_flatMap, List.mem_map,
              Context.mk.injEq, List.cons.injEq, reduceCtorEq, false_or]
            constructor
            · rintro ⟨_, known, ⟨_⟩, member, rfl, rfl⟩
              exact ⟨known, member⟩
            · rintro ⟨known, member⟩
              exact ⟨element, known, ⟨rest⟩, member, rfl, rfl⟩
          rw [listed, ih]
          simp [Over, length, and_left_comm]

end Context

/-! ## What a program is made of -/

namespace Program

variable (program : Program)

def callSites : List CallSite :=
  (program.statements.filter fun statement => statement.action.callee?.isSome).map fun statement =>
    ⟨statement.method, statement.site⟩

def namedSites : List AllocationSite :=
  program.statements.flatMap fun statement => statement.allocationSites program.hierarchy

/-- Where the program may clone an object: at a call, one of a type that it allocates. -/
def cloneSites : List AllocationSite :=
  program.callSites.flatMap fun call => program.namedSites.map fun named =>
    ⟨call.caller, call.site, named.type, .clone⟩

def allocationSites : List AllocationSite := program.namedSites ++ program.cloneSites

def contextElements : List ContextElement :=
  program.callSites.map .call ++ program.allocationSites.map .allocation

def contexts (depth : Nat) : List Context :=
  Context.upTo program.contextElements depth

def objects (depth heapDepth : Nat) : List HeapObject :=
  program.allocationSites.flatMap fun site =>
    (program.contexts (min depth heapDepth)).flatMap fun context =>
      [Recency.plain, .mostRecent, .summary].map fun recency => ⟨site, context, recency⟩

def writtenIds : List VariableId :=
  program.statements.flatMap (fun statement => statement.action.written.map Variable.id) ++
    program.summaries.flatMap fun entry => entry.2.formals.filterMap fun formal =>
      formal.map Variable.id

def replicas (depth : Nat) : List Replica :=
  program.writtenIds.flatMap fun id => (program.contexts depth).map fun context => ⟨id, context⟩

def places (depth heapDepth : Nat) : List Place :=
  (program.replicas depth).map .local ++
    (program.replicas depth).flatMap (fun replica =>
      program.flow.kills.map fun kill => .localAt replica kill.1) ++
    (program.objects depth heapDepth).flatMap fun object => program.slotKeys.flatMap fun key =>
      program.slotTypes.map fun type => .field object key type

def callees : List MethodId :=
  program.statements.filterMap (fun statement => statement.action.callee?) ++
    program.classes.flatMap ClassInfo.methods

def callEdges (depth : Nat) : List CallEdge :=
  program.statements.flatMap fun statement => (program.contexts depth).flatMap fun caller =>
    program.callees.flatMap fun callee => (program.contexts depth).map fun context =>
      ⟨⟨statement.method, statement.site⟩, caller, callee, context⟩

def allInitializers : List MethodId :=
  program.initializers ++
    program.statements.flatMap (fun statement => statement.action.triggered) ++
    program.classes.filterMap ClassInfo.classInitializer

def facts (depth heapDepth : Nat) : List Fact :=
  (program.places depth heapDepth).flatMap (fun place =>
      (program.objects depth heapDepth).map (.edge place)) ++
    (program.callEdges depth).map .call ++ program.allInitializers.map .initializer

variable {program} {depth heapDepth : Nat}

theorem edge_mem_facts {place : Place} {object : HeapObject} :
    .edge place object ∈ program.facts depth heapDepth ↔
      place ∈ program.places depth heapDepth ∧ object ∈ program.objects depth heapDepth := by
  simp [facts]

theorem call_mem_facts {edge : CallEdge} :
    .call edge ∈ program.facts depth heapDepth ↔ edge ∈ program.callEdges depth := by
  simp [facts]

theorem initializer_mem_facts {method : MethodId} :
    .initializer method ∈ program.facts depth heapDepth ↔ method ∈ program.allInitializers := by
  simp [facts]

theorem mem_callSites {statement : Statement} {call : Call}
    (member : statement ∈ program.statements) (isCall : statement.action = .call call) :
    ⟨statement.method, statement.site⟩ ∈ program.callSites := by
  refine List.mem_map.mpr ⟨statement, List.mem_filter.mpr ⟨member, ?_⟩, rfl⟩
  rw [isCall]
  rfl

private theorem mem_namedSites {statement : Statement} {site : AllocationSite}
    (member : statement ∈ program.statements)
    (listed : site ∈ statement.allocationSites program.hierarchy) :
    site ∈ program.allocationSites :=
  List.mem_append_left _ (List.mem_flatMap.mpr ⟨statement, member, listed⟩)

private theorem exists_namedSite {site : AllocationSite} (member : site ∈ program.allocationSites) :
    ∃ named ∈ program.namedSites, named.type = site.type := by
  rcases List.mem_append.mp member with named | cloned
  · exact ⟨site, named, rfl⟩
  · obtain ⟨_, _, cloned⟩ := List.mem_flatMap.mp cloned
    obtain ⟨named, isNamed, rfl⟩ := List.mem_map.mp cloned
    exact ⟨named, isNamed, rfl⟩

theorem exists_statement_of_site {site : AllocationSite} (member : site ∈ program.allocationSites) :
    ∃ statement ∈ program.statements, statement.method = site.method := by
  rcases List.mem_append.mp member with named | cloned
  · obtain ⟨statement, isStatement, listed⟩ := List.mem_flatMap.mp named
    refine ⟨statement, isStatement, ?_⟩
    unfold Statement.allocationSites at listed
    split at listed
    · rw [List.mem_singleton.mp listed]
    · rcases List.mem_cons.mp listed with rfl | inner
      · rfl
      · obtain ⟨_, _, rfl⟩ := List.mem_map.mp inner
        rfl
    · cases listed
  · obtain ⟨call, isCall, cloned⟩ := List.mem_flatMap.mp cloned
    obtain ⟨_, _, rfl⟩ := List.mem_map.mp cloned
    obtain ⟨statement, isStatement, rfl⟩ := List.mem_map.mp isCall
    exact ⟨statement, List.mem_of_mem_filter isStatement, rfl⟩

theorem mem_objects {object : HeapObject} : object ∈ program.objects depth heapDepth ↔
    object.site ∈ program.allocationSites ∧
      object.context.Over program.contextElements (min depth heapDepth) := by
  obtain ⟨site, context, recency⟩ := object
  have all : recency ∈ [Recency.plain, .mostRecent, .summary] := by cases recency <;> simp
  simp only [objects, contexts, List.mem_flatMap, List.mem_map, HeapObject.mk.injEq,
    Context.mem_upTo]
  constructor
  · rintro ⟨_, isSite, _, limited, _, _, rfl, rfl, rfl⟩
    exact ⟨isSite, limited⟩
  · rintro ⟨isSite, limited⟩
    exact ⟨site, isSite, context, limited, recency, all, rfl, rfl, rfl⟩

private theorem mem_replicas {id : VariableId} {context : Context}
    (written : id ∈ program.writtenIds) (limited : context.Over program.contextElements depth) :
    ⟨id, context⟩ ∈ program.replicas depth :=
  List.mem_flatMap.mpr ⟨id, written, List.mem_map.mpr ⟨context, Context.mem_upTo.mpr limited, rfl⟩⟩

end Program

/-! ## Demands stay on the list -/

def Place.replica? : Place → Option Replica
  | .local replica => some replica
  | .localAt replica _ => some replica
  | .field _ _ _ => none

/-- Among the facts that deltas list only those of the program, and besides them only objects and
contexts of the program. -/
def Program.Admits (program : Program) (depth heapDepth : Nat) : Fact → Prop
  | .object object => object ∈ program.objects depth heapDepth
  | .node place => ∀ replica, place.replica? = some replica →
      replica.context.Over program.contextElements depth
  | .watch _ => True
  | .failure => True
  | fact => fact ∈ program.facts depth heapDepth

def Program.bounded (program : Program) (depth heapDepth : Nat) : Set Fact :=
  {fact | program.Admits depth heapDepth fact}

private theorem Program.mem_facts_of_bounded {program : Program} {depth heapDepth : Nat}
    {fact : Fact} (inside : fact ∈ program.bounded depth heapDepth) (isListed : fact.IsListed) :
    fact ∈ program.facts depth heapDepth := by
  cases fact with
  | edge place object => exact inside
  | call edge => exact inside
  | initializer method => exact inside
  | _ => exact isListed.elim

namespace Frame

variable {frame : Frame} {statement : Statement} {depth heapDepth : Nat}

private theorem Links.mem_callees {known : Set Fact} {call : Call} {callee : MethodId}
    {receiver : Option HeapObject} (member : statement ∈ frame.program.statements)
    (isCall : statement.action = .call call)
    (links : frame.Links statement known call callee receiver) :
    callee ∈ frame.program.callees := by
  rcases links.callee_cases with rfl | ⟨info, isInfo, isMethod⟩
  · exact List.mem_append_left _ (List.mem_filterMap.mpr ⟨statement, member, by rw [isCall]; rfl⟩)
  · exact List.mem_append_right _ (List.mem_flatMap.mpr ⟨info, isInfo, isMethod⟩)

section Bounded

variable (confined : frame.abstraction.policy.Confined depth heapDepth)
include confined

theorem Seen.mem_objects {object : HeapObject}
    (isSeen : frame.Seen (frame.program.bounded depth heapDepth) object) :
    object ∈ frame.program.objects depth heapDepth := by
  obtain ⟨place, held, edge, same⟩ := isSeen
  have listed := (Program.edge_mem_facts.mp edge).2
  rcases same with rfl | aged
  · exact listed
  · obtain ⟨sameSite, sameContext⟩ := confined.summary aged
    rw [Program.mem_objects, sameSite, sameContext]
    exact Program.mem_objects.mp listed

private theorem Allocates.mem_allocationSites (member : statement ∈ frame.program.statements)
    {site : AllocationSite}
    (allocates : frame.Allocates statement (frame.program.bounded depth heapDepth) site) :
    site ∈ frame.program.allocationSites := by
  rcases allocates.site_cases with listed | ⟨call, receiver, isCall, isSeen, rfl⟩
  · exact Program.mem_namedSites member listed
  · have listed := (Program.mem_objects.mp (isSeen.mem_objects confined)).1
    obtain ⟨named, isNamed, same⟩ := Program.exists_namedSite listed
    refine List.mem_append_right _ (List.mem_flatMap.mpr ⟨_, Program.mem_callSites member isCall,
      List.mem_map.mpr ⟨named, isNamed, ?_⟩⟩)
    rw [same]
    rfl

theorem replica_limited {declared : Variable} {context : Context}
    (limited : context.Over frame.program.contextElements depth) :
    (declared.replica context frame.abstraction.initialContext).context.Over
      frame.program.contextElements depth := by
  unfold Variable.replica
  dsimp only
  split
  · rw [HeapAbstraction.initialContext, confined.initial]
    exact .empty
  · exact limited

private theorem replica_mem {declared : Variable} {context : Context}
    (written : declared.id ∈ frame.program.writtenIds)
    (limited : context.Over frame.program.contextElements depth) :
    declared.replica context frame.abstraction.initialContext ∈ frame.program.replicas depth :=
  Program.mem_replicas written (replica_limited confined limited)

variable (limited : frame.context.Over frame.program.contextElements depth)
  (member : statement ∈ frame.program.statements)
include limited member

theorem Moves.mem_objects {object : HeapObject}
    (moves : frame.Moves statement (frame.program.bounded depth heapDepth) object) :
    object ∈ frame.program.objects depth heapDepth := by
  cases moves with
  | seen isSeen => exact isSeen.mem_objects confined
  | fresh allocates recorded _ =>
      obtain ⟨_, _, rfl⟩ := Option.map_eq_some_iff.mp recorded
      rw [Program.mem_objects, confined.site]
      exact ⟨allocates.mem_allocationSites confined member, confined.record limited⟩

theorem Fills.mem_objects {object : HeapObject}
    (fills : frame.Fills statement (frame.program.bounded depth heapDepth) object) :
    object ∈ frame.program.objects depth heapDepth := by
  rcases fills with moves | ⟨recent, moves, found⟩
  · exact moves.mem_objects confined limited member
  · obtain ⟨sameSite, sameContext⟩ := confined.summary found
    rw [Program.mem_objects, sameSite, sameContext]
    exact Program.mem_objects.mp (moves.mem_objects confined limited member)

theorem calleeContext_limited {call : Call} {receiver : Option HeapObject}
    (isCall : statement.action = .call call)
    (known : frame.Receiver (frame.program.bounded depth heapDepth) receiver) :
    (frame.calleeContext statement receiver).Over frame.program.contextElements depth := by
  refine confined.merge (List.mem_append_left _
    (List.mem_map_of_mem (Program.mem_callSites member isCall))) ?_ limited
  intro object same
  obtain ⟨isSite, limited⟩ := Program.mem_objects.mp ((known object same).mem_objects confined)
  exact ⟨List.mem_append_right _ (List.mem_map_of_mem isSite), limited.mono (Nat.min_le_left _ _)⟩

theorem Targets.mem_places {place : Place}
    (targets : frame.Targets statement (frame.program.bounded depth heapDepth) place) :
    place ∈ frame.program.places depth heapDepth := by
  cases targets with
  | @own declared point _ written found =>
      have isWritten : declared.id ∈ frame.program.writtenIds :=
        List.mem_append_left _
          (List.mem_flatMap.mpr ⟨statement, member, List.mem_map_of_mem written⟩)
      have isReplica := replica_mem confined isWritten limited
      rcases written?_cases found with rfl | ⟨kill, writes, rfl⟩
      · exact List.mem_append_left _ (List.mem_append_left _ (List.mem_map_of_mem isReplica))
      · have killed : (kill, declared.id) ∈ frame.program.flow.kills := by
          have writes : frame.program.flow.kills.reverse.lookup kill = some declared.id :=
            of_decide_eq_true writes
          exact List.mem_reverse.mp (mem_of_lookup writes)
        refine List.mem_append_left _ (List.mem_append_right _ (List.mem_flatMap.mpr ?_))
        exact ⟨_, isReplica, List.mem_map.mpr ⟨_, killed, rfl⟩⟩
  | @formal call callee summary declared receiver isCall found listed known =>
      have isWritten : declared.id ∈ frame.program.writtenIds := by
        refine List.mem_append_right _ (List.mem_flatMap.mpr ⟨(callee, summary), ?_, ?_⟩)
        · exact mem_of_lookup found
        · exact List.mem_filterMap.mpr ⟨some declared, listed, rfl⟩
      have isReplica := replica_mem confined isWritten
        (calleeContext_limited confined limited member isCall known)
      exact List.mem_append_left _ (List.mem_append_left _ (List.mem_map_of_mem isReplica))
  | slot fills _ found =>
      obtain ⟨type, isType, rfl⟩ := Option.map_eq_some_iff.mp found
      obtain ⟨isKey, isType⟩ := mem_slots isType
      refine List.mem_append_right _ (List.mem_flatMap.mpr
        ⟨_, fills.mem_objects confined limited member,
        List.mem_flatMap.mpr ⟨_, isKey, List.mem_map.mpr ⟨_, isType, rfl⟩⟩⟩)

private theorem Targets.context_over {place : Place} {replica : Replica}
    (targets : frame.Targets statement (frame.program.bounded depth heapDepth) place)
    (isReplica : place.replica? = some replica) :
    replica.context.Over frame.program.contextElements depth := by
  have known : ∀ {replica}, replica ∈ frame.program.replicas depth →
      replica.context.Over frame.program.contextElements depth := by
    intro replica listed
    obtain ⟨_, _, listed⟩ := List.mem_flatMap.mp listed
    obtain ⟨context, isContext, rfl⟩ := List.mem_map.mp listed
    exact Context.mem_upTo.mp isContext
  rcases List.mem_append.mp (targets.mem_places confined limited member) with replicas | slots
  · rcases List.mem_append.mp replicas with plain | placed
    · obtain ⟨_, listed, rfl⟩ := List.mem_map.mp plain
      cases isReplica
      exact known listed
    · obtain ⟨_, listed, placed⟩ := List.mem_flatMap.mp placed
      obtain ⟨_, _, rfl⟩ := List.mem_map.mp placed
      cases isReplica
      exact known listed
  · obtain ⟨_, _, slots⟩ := List.mem_flatMap.mp slots
    obtain ⟨_, _, slots⟩ := List.mem_flatMap.mp slots
    obtain ⟨_, _, rfl⟩ := List.mem_map.mp slots
    cases isReplica

private theorem Visits.context_over {place : Place} {replica : Replica}
    (visits : frame.Visits statement (frame.program.bounded depth heapDepth) place)
    (isReplica : place.replica? = some replica) :
    replica.context.Over frame.program.contextElements depth := by
  cases visits with
  | target targets => exact targets.context_over confined limited member isReplica
  | source _ found listed =>
      unfold sources? at found
      split at found
      · obtain ⟨point, _, rfl⟩ := Option.map_eq_some_iff.mp found
        obtain ⟨kill, _, rfl⟩ := List.mem_map.mp listed
        cases isReplica
        exact replica_limited confined limited
      · cases found
        obtain rfl := List.mem_singleton.mp listed
        cases isReplica
        exact replica_limited confined limited
  | callee isCall _ _ known =>
      cases isReplica
      exact replica_limited confined (calleeContext_limited confined limited member isCall known)

private theorem origins_subset_bounded : frame.origins statement
    (frame.program.bounded depth heapDepth) ⊆ frame.program.bounded depth heapDepth := by
  intro fact origin
  cases origin with
  | object fills => exact fills.mem_objects confined limited member
  | node visits => exact fun replica same => visits.context_over confined limited member same
  | watch => trivial
  | failure => trivial
  | edge flow =>
      exact Program.edge_mem_facts.mpr ⟨flow.targets.mem_places confined limited member,
        flow.moves.mem_objects confined limited member⟩
  | call isCall links =>
      have caller := Context.mem_upTo.mpr limited
      have context := Context.mem_upTo.mpr
        (calleeContext_limited confined limited member isCall links.receiver)
      have callee := links.mem_callees member isCall
      refine Program.call_mem_facts.mpr (List.mem_flatMap.mpr ⟨statement, member, ?_⟩)
      refine List.mem_flatMap.mpr ⟨_, caller, List.mem_flatMap.mpr ⟨_, callee, ?_⟩⟩
      exact List.mem_map.mpr ⟨_, context, rfl⟩
  | listed isTriggered =>
      refine Program.initializer_mem_facts.mpr (List.mem_append_left _ (List.mem_append_right _ ?_))
      exact List.mem_flatMap.mpr ⟨statement, member, isTriggered⟩
  | used _ used isUsed =>
      refine Program.initializer_mem_facts.mpr (List.mem_append_right _ ?_)
      obtain ⟨info, isInfo, found⟩ := Hierarchy.mem_classInitializersFor? used isUsed
      exact List.mem_filterMap.mpr ⟨info, Program.mem_classes isInfo, found⟩

end Bounded

end Frame

/-! ## The list holds for every run -/

namespace Analysis

variable {analysis : Analysis} {depth heapDepth : Nat}

theorem Reaches.limited (confined : analysis.abstraction.policy.Confined depth heapDepth)
    {node : MethodContext}
    (reaches : analysis.Reaches (analysis.program.bounded depth heapDepth) node) :
    node.context.Over analysis.program.contextElements depth := by
  have initial :
      analysis.abstraction.initialContext.Over analysis.program.contextElements depth := by
    rw [HeapAbstraction.initialContext, confined.initial]
    exact .empty
  rcases reaches with rfl | ⟨method, _, rfl⟩ | ⟨edge, called, rfl⟩
  · exact initial
  · exact initial
  · have listed := Program.call_mem_facts.mp called
    obtain ⟨_, _, listed⟩ := List.mem_flatMap.mp listed
    obtain ⟨_, _, listed⟩ := List.mem_flatMap.mp listed
    obtain ⟨_, _, listed⟩ := List.mem_flatMap.mp listed
    obtain ⟨context, isContext, rfl⟩ := List.mem_map.mp listed
    exact Context.mem_upTo.mp isContext

theorem closed_bounded (confined : analysis.abstraction.policy.Confined depth heapDepth) :
    analysis.Closed (analysis.program.bounded depth heapDepth) where
  watch _ := trivial
  initializers method listed := Program.initializer_mem_facts.mpr
    (List.mem_append_left _ (List.mem_append_left _ listed))
  demands node reaches id member := by
    obtain ⟨statement, found, _⟩ := SolverState.statement?_of_mem member
    rw [analysis.demand_eq found 0]
    have isStatement : statement ∈ analysis.program.statements := List.mem_of_getElem? found
    have inside : (analysis.frame (id, node.context) 0).origins statement
        (analysis.program.bounded depth heapDepth) ⊆ analysis.program.bounded depth heapDepth :=
      Frame.origins_subset_bounded confined (reaches.limited confined) isStatement
    exact (Frame.demand_subset_origins _ _ _).trans inside

end Analysis

/-! ## Growth is limited -/

def Program.missing (program : Program) (depth heapDepth : Nat) (graph : Graph) : Set Fact :=
  {fact | fact ∈ program.facts depth heapDepth ∧ fact ∉ graph.facts 0}

section Missing

variable {program : Program} {depth heapDepth : Nat} {reader : SubscriberId} {graph grown : Graph}
  {delta : Delta}

theorem missing_subset (growth : Graph.Growth reader graph grown delta) :
    program.missing depth heapDepth grown ⊆ program.missing depth heapDepth graph :=
  fun _ ⟨listed, unsaid⟩ => ⟨listed, fun said => unsaid (growth.facts_subset 0 said)⟩

theorem missing_finite (program : Program) (depth heapDepth : Nat) (graph : Graph) :
    (program.missing depth heapDepth graph).Finite :=
  (List.finite_toSet (program.facts depth heapDepth)).subset fun _ missing => missing.1

private theorem missing_le (growth : Graph.Growth reader graph grown delta) :
    (program.missing depth heapDepth grown).ncard ≤ (program.missing depth heapDepth graph).ncard :=
  Set.ncard_le_ncard (missing_subset growth) (missing_finite program depth heapDepth graph)

theorem missing_lt (growth : Graph.Growth reader graph grown delta) (valid : grown.Valid)
    (inside : grown.facts reader ⊆ program.bounded depth heapDepth) (adds : delta ≠ ∅) :
    (program.missing depth heapDepth grown).ncard <
      (program.missing depth heapDepth graph).ncard := by
  refine Set.ncard_lt_ncard ⟨missing_subset growth, fun back => adds ?_⟩
    (missing_finite program depth heapDepth graph)
  refine growth.delta_eq_empty valid fun fact said isListed => ?_
  have plain : ∀ place, fact ≠ .watch place := by
    rintro place rfl
    exact isListed
  by_contra unsaid
  have listed := Program.mem_facts_of_bounded (inside said) isListed
  exact (back ⟨listed, fun said' => unsaid (Graph.says_of_ne_watch plain said')⟩).2
    (Graph.says_of_ne_watch plain said)

end Missing

namespace SolverState

variable {analysis : Analysis} {kind : SetKind} {depth heapDepth : Nat} {state next : SolverState}
  {position : Nat}

noncomputable def remaining (analysis : Analysis) (depth heapDepth : Nat) (state : SolverState) :
    ℕ ×ₗ ℕ :=
  toLex ((analysis.program.missing depth heapDepth state.graph).ncard, state.pending.length)

theorem step_remaining (pure : analysis.abstraction.policy.IsPure)
    (confined : analysis.abstraction.policy.Confined depth heapDepth)
    (reachable : Reachable analysis kind state)
    (stepped : step analysis state position = .ok next) :
    next.remaining analysis depth heapDepth < state.remaining analysis depth heapDepth := by
  have invariant := reachable.invariant pure
  have closed := analysis.closed_bounded confined
  have inside := fun reader => reachable.facts_subset pure closed reader
  obtain ⟨item, key, statement, after, stepOf⟩ := step_spec invariant stepped
  obtain ⟨growth, inside', _⟩ := stepOf.evaluated pure invariant (inside item.subscriber)
    (invariant.demand_subset closed inside stepOf.scheduled)
  have sameGraph : next.graph = after.graph := (stepOf.propagation invariant growth).1.graph
  rw [remaining, remaining, Prod.Lex.toLex_lt_toLex, sameGraph]
  by_cases adds : after.produced = ∅
  · have same := stepOf.propagated
    rw [adds] at same
    obtain rfl : (state.erase position).withEval after = next := Option.some.inj same
    have shorter : (state.pending.eraseIdx position).length < state.pending.length := by
      have inside := (List.getElem?_eq_some_iff.mp stepOf.found).1
      rw [List.length_eraseIdx_of_lt inside]
      omega
    rcases (missing_le growth).lt_or_eq with fewer | same
    · exact .inl fewer
    · exact .inr ⟨same, shorter⟩
  · exact .inl (missing_lt growth inside'.valid inside'.facts adds)

theorem no_endless_run (pure : analysis.abstraction.policy.IsPure)
    (confined : analysis.abstraction.policy.Confined depth heapDepth) (run : ℕ → SolverState)
    (start : run 0 = seed analysis kind) :
    ¬ ∀ n, ∃ position, step analysis (run n) position = .ok (run (n + 1)) := by
  intro steps
  have reachable : ∀ n, Reachable analysis kind (run n) := by
    intro n
    induction n with
    | zero => exact start ▸ .seed
    | succ n ih =>
        obtain ⟨position, stepped⟩ := steps n
        exact .step ih stepped
  obtain ⟨least, ⟨n, rfl⟩, minimal⟩ := wellFounded_lt.has_min
    (Set.range fun n => (run n).remaining analysis depth heapDepth) ⟨_, 0, rfl⟩
  obtain ⟨position, stepped⟩ := steps n
  exact minimal _ ⟨n + 1, rfl⟩ (step_remaining pure confined (reachable n) stepped)

end SolverState

end ObjectFlow
