import ObjectFlow.Evaluation.Statement
import ObjectFlow.Proofs.Graph.Growth

/-!
# What an evaluation produces

Every change of the graph says exactly what it added, whatever ids it is given,
and an evaluation joins what its changes say.  So the produce of an evaluation
that succeeds is the difference between the graph after it and the one before,
under every policy and whatever the evaluation has seen.
-/

namespace ObjectFlow

open Effect Eval

structure Collects (reader : SubscriberId) (start : Graph) (state : EvalState) : Prop where
  sets : state.graph.SetsValid
  growth : Graph.Growth reader start state.graph state.produced

/-- All that an evaluation adds to the graph is collected. -/
abbrev Collecting {α : Type} (reader : SubscriberId) (start : Graph) (evaluation : Eval α) : Prop :=
  Keeps (Collects reader start) evaluation fun _ => True

namespace Collecting

variable {α : Type} {reader : SubscriberId} {start : Graph}

theorem inRange (value : Option α) : Collecting reader start (inRange value) :=
  Keeps.inRange fun _ _ => trivial

theorem onGraph {update : Graph.Update α} (gains : Graph.Gains reader update fun _ => ∅) :
    Collecting reader start (onGraph update) := by
  intro state collects value after run
  cases changed : update state.graph with
  | mk outcome grown =>
      cases outcome with
      | error failure =>
          simp only [Eval.onGraph, run_bind, run_get, changed, run_set, run_throw] at run
          cases run
      | ok answer =>
          simp only [Eval.onGraph, run_bind, run_get, changed, run_set, run_pure] at run
          cases run
          obtain ⟨sets, growth⟩ := gains _ collects.sets _ _ changed
          refine ⟨⟨sets, ?_⟩, trivial⟩
          rw [← Delta.join_empty state.produced]
          exact collects.growth.trans growth

theorem grow {update : Graph.Update Delta} (gains : Graph.Gains reader update id) :
    Collecting reader start (grow update) := by
  intro state collects value after run
  cases changed : update state.graph with
  | mk outcome grown =>
      cases outcome with
      | error failure =>
          simp only [Eval.grow, Eval.onGraph, run_bind, run_get, changed, run_set, run_throw] at run
          cases run
      | ok delta =>
          simp only [Eval.grow, Eval.onGraph, run_bind, run_get, changed, run_set, run_pure,
            run_modify] at run
          cases run
          obtain ⟨sets, growth⟩ := gains _ collects.sets _ _ changed
          exact ⟨⟨sets, collects.growth.trans growth⟩, trivial⟩

theorem ask (question : Ask α) : Collecting reader start (ask question) := by
  intro state collects value after run
  cases answered : question state.requests with
  | mk outcome requests =>
      cases outcome with
      | error failure =>
          simp only [Eval.ask, run_bind, run_get, answered, run_set, run_throw] at run
          cases run
      | ok answer =>
          simp only [Eval.ask, run_bind, run_get, answered, run_set, run_pure] at run
          cases run
          exact ⟨⟨collects.sets, collects.growth⟩, trivial⟩

end Collecting

namespace Frame

variable {start : Graph} (frame : Frame)

/-! ## Variables -/

private theorem node_collects (node : Node) :
    Collecting frame.subscriber start (onGraph (Graph.node node)) :=
  .onGraph (Graph.node_gains _ node)

private theorem object_collects {reader : SubscriberId} (object : HeapObject) :
    Collecting reader start (onGraph (Graph.object object)) :=
  .onGraph (Graph.object_gains _ object)

private theorem describe_collects : Collecting frame.subscriber start frame.describe :=
  Collecting.inRange _

private theorem missingPoint_collects {α : Type} (declared : Variable) :
    Collecting frame.subscriber start (frame.missingPoint declared : Eval α) :=
  (Collecting.inRange _).andThen fun _ => frame.describe_collects.andThen fun _ => .fail _

private theorem view_collects (view : View) (node : NodeId) :
    Collecting frame.subscriber start (frame.view view node) := by
  cases view with
  | full =>
      rw [show frame.view .full node = onGraph (Graph.read node frame.subscriber) from rfl]
      exact .onGraph (Graph.read_gains _ node)
  | delta growth => exact .pure trivial

theorem target_collects (declared : Variable) (point : Option PointId) :
    Collecting frame.subscriber start (frame.target declared point) := by
  unfold target
  split
  · split
    · split
      · exact frame.node_collects _
      · exact frame.missingPoint_collects declared
    · exact frame.missingPoint_collects declared
  · exact frame.node_collects _

private theorem ageObject_collects {reader : SubscriberId} (program : Program)
    (abstraction : HeapAbstraction) (context : Context) (write : ObservedWrite) (id : ObjectId) :
    Collecting reader start (ageObject program abstraction context write id) := by
  refine (Collecting.inRange _).andThen fun writer => .bind_get fun state _ =>
    (Collecting.inRange _).andThen fun object => ?_
  split
  · exact .pure trivial
  · split
    · exact .pure trivial
    · refine (Collecting.ask _).andThen fun recent => ?_
      split
      · split
        · exact .pure trivial
        · split
          · exact .pure trivial
          · exact (object_collects _).andThen fun _ => .pure trivial
          · exact (object_collects _).andThen fun _ => .pure trivial
      · exact .pure trivial

private theorem ageObjects_collects {reader : SubscriberId} (program : Program)
    (abstraction : HeapAbstraction) (context : Context) (write : ObservedWrite) (objects : IdSet) :
    Collecting reader start (ageObjects program abstraction context write objects) :=
  (Keeps.mapM fun _ _ => ageObject_collects program abstraction context write _).andThen
    fun _ => .pure trivial

theorem read_collects (view : View) (declared : Variable) (point : Option PointId) :
    Collecting frame.subscriber start (frame.read view declared point) := by
  unfold read
  split
  · split
    · exact frame.missingPoint_collects declared
    · refine (Keeps.mapM fun kill _ => ?_).andThen fun observed => .pure trivial
      refine (frame.node_collects _).andThen fun node => ?_
      exact (frame.view_collects view node).andThen fun objects => ageObjects_collects _ _ _ _ _
  · exact (frame.node_collects _).andThen fun node => frame.view_collects view node

/-! ## Objects -/

private theorem record_collects (site : AllocationSite) :
    Collecting frame.subscriber start (frame.record site) :=
  frame.describe_collects.andThen fun _ => (Collecting.ask _).andThen fun _ => object_collects _

theorem objectType_collects {reader : SubscriberId} (id : ObjectId) :
    Collecting reader start (objectType id) :=
  .bind_get fun _ _ => Collecting.inRange _

private theorem fieldType_collects (object : ObjectId) (key : FieldKey) :
    Collecting frame.subscriber start (frame.fieldType object key) := by
  cases key with
  | named field => exact (Collecting.inRange _).andThen fun _ => .pure trivial
  | arrayContents =>
      exact (objectType_collects object).andThen fun _ =>
        (Collecting.inRange _).andThen fun _ => .pure trivial

private theorem fieldNode_collects (object : ObjectId) (key : FieldKey) :
    Collecting frame.subscriber start (frame.fieldNode object key) :=
  (frame.fieldType_collects object key).andThen fun _ => frame.node_collects _

private theorem holdsField_collects (object : ObjectId) (key : FieldKey) :
    Collecting frame.subscriber start (frame.holdsField object key) := by
  refine (objectType_collects object).andThen fun type => ?_
  cases key with
  | named field => exact (Collecting.inRange _).andThen fun _ => Collecting.inRange _
  | arrayContents => exact Collecting.inRange _

private theorem referenceFields_collects (object : ObjectId) :
    Collecting frame.subscriber start (frame.referenceFields object) := by
  refine (objectType_collects object).andThen fun type => ?_
  refine (Collecting.inRange _).andThen fun kind => ?_
  split
  · refine (Collecting.inRange _).andThen fun isReference => ?_
    split <;> exact .pure trivial
  · exact (Collecting.inRange _).andThen fun _ => Collecting.inRange _

theorem addEdges_collects (node : NodeId) (objects : IdSet) :
    Collecting frame.subscriber start (grow (Graph.addEdges node objects)) :=
  .grow (Graph.addEdges_gains _ node objects)

private theorem addEdgesFiltered_collects (node : NodeId) (objects : IdSet) (filter : TypeFilter) :
    Collecting frame.subscriber start
      (grow (Graph.addEdgesFiltered frame.hierarchy node objects filter)) :=
  .grow (Graph.addEdgesFiltered_gains _ _ node objects filter)

private theorem addInitializers_collects (methods : List MethodId) :
    Collecting frame.subscriber start (grow (Graph.addInitializers methods)) :=
  .grow (Graph.addInitializers_gains _ methods)

private theorem copyFields_collects (view : View) (source target : ObjectId) :
    Collecting frame.subscriber start (frame.copyFields view source target) := by
  refine (frame.referenceFields_collects source).andThen fun keys => .forM fun key _ => ?_
  refine (frame.fieldNode_collects source key).andThen fun _ => ?_
  refine (frame.fieldNode_collects target key).andThen fun _ => ?_
  exact (frame.view_collects view _).andThen fun _ => frame.addEdges_collects _ _

private theorem foldIntoSummary_collects (view : View) (recent : ObjectId) :
    Collecting frame.subscriber start (frame.foldIntoSummary view recent) := by
  refine .bind_get fun _ _ => (Collecting.inRange _).andThen fun object => ?_
  split
  · exact .pure trivial
  · exact (object_collects _).andThen fun _ => frame.copyFields_collects view recent _

/-! ## Calls -/

private theorem resolveReceiver_collects (call : Call) (declared : Method) (receiver : ObjectId) :
    Collecting frame.subscriber start (frame.resolveReceiver call declared receiver) := by
  unfold resolveReceiver
  dsimp only
  split
  · exact .pure trivial
  · exact .pure trivial
  · refine (objectType_collects receiver).andThen fun type => ?_
    refine (Collecting.inRange _).andThen fun callee => ?_
    split
    · exact .pure trivial
    · refine (Collecting.inRange _).andThen fun typeName => ?_
      refine frame.describe_collects.andThen fun statement => ?_
      exact Keeps.andThen (.fail _) fun _ => .pure trivial

private theorem resolve_collects (call : Call) (receivers : IdSet) :
    Collecting frame.subscriber start (frame.resolve call receivers) :=
  (Collecting.inRange _).andThen fun declared => .bind_get fun _ _ =>
    (Collecting.inRange _).andThen fun _ =>
      .mapM fun _ _ => frame.resolveReceiver_collects call declared _

private theorem passArguments_collects (view : View) (point : Option PointId)
    {calleeNode : Variable → Eval NodeId}
    (node : ∀ declared, Collecting frame.subscriber start (calleeNode declared))
    (args formals : List (Option Variable)) :
    Collecting frame.subscriber start
      (frame.passArguments view point calleeNode args formals) := by
  induction args generalizing formals with
  | nil => cases formals <;> exact .pure trivial
  | cons arg args ih =>
      cases formals with
      | nil => cases arg <;> exact .pure trivial
      | cons formal formals =>
          cases arg with
          | none => exact ih formals
          | some arg =>
              cases formal with
              | none => exact ih formals
              | some formal =>
                  refine (frame.read_collects view arg point).andThen fun _ => ?_
                  refine (node formal).andThen fun _ => ?_
                  exact (frame.addEdges_collects _ _).andThen fun _ => ih formals

private theorem exchange_collects (statement : Statement) (call : Call) (summary : MethodSummary)
    (view : View) (formals : List (Option Variable)) {calleeNode : Variable → Eval NodeId}
    (node : ∀ declared, Collecting frame.subscriber start (calleeNode declared)) :
    Collecting frame.subscriber start (do
      frame.passArguments view statement.point calleeNode call.args formals
      match call.result, summary.result with
      | some result, some returned => do
          let node ← calleeNode returned
          let objects ← frame.view view node
          let target ← frame.target result statement.point
          grow (Graph.addEdges target objects)
      | _, _ => pure ()
      let node ← calleeNode summary.exception
      let thrown ← frame.view view node
      let exception ← frame.target call.exception none
      grow (Graph.addEdges exception thrown)) := by
  have throws : Collecting frame.subscriber start (do
      let node ← calleeNode summary.exception
      let thrown ← frame.view view node
      let exception ← frame.target call.exception none
      grow (Graph.addEdges exception thrown)) :=
    (node _).andThen fun _ => (frame.view_collects view _).andThen fun _ =>
      (frame.target_collects _ _).andThen fun _ => frame.addEdges_collects _ _
  refine (frame.passArguments_collects view _ node _ _).andThen fun _ => ?_
  dsimp only
  split
  · refine (node _).andThen fun _ => (frame.view_collects view _).andThen fun _ => ?_
    refine (frame.target_collects _ _).andThen fun _ => ?_
    exact (frame.addEdges_collects _ _).andThen fun _ => throws
  · exact throws

private theorem linkMethod_collects (statement : Statement) (call : Call) (callee : MethodId)
    (receiver : Option ObjectId) (view : View) :
    Collecting frame.subscriber start
      (frame.linkMethod statement call callee receiver view) := by
  refine .bind_get fun state _ => ?_
  have object : Collecting frame.subscriber start
      (receiver.mapM fun id => (inRange (state.graph.object? id) : Eval HeapObject)) := by
    cases receiver with
    | none => exact .pure trivial
    | some id => exact (Collecting.inRange _).andThen fun _ => .pure trivial
  refine object.andThen fun object => frame.describe_collects.andThen fun origin => ?_
  refine (Collecting.ask _).andThen fun context => ?_
  refine (Collecting.grow (Graph.addCall_gains _ _)).andThen fun _ => ?_
  split
  · exact .pure trivial
  · next summary _ =>
      refine (Collecting.inRange _).andThen fun method => ?_
      have node : ∀ declared : Variable, Collecting frame.subscriber start (onGraph (Graph.node
          (.local (declared.replica context frame.abstraction.initialContext)))) :=
        fun _ => frame.node_collects _
      dsimp only
      split
      · exact frame.exchange_collects statement call summary view _ node
      · split
        · refine (node _).andThen fun _ => (frame.addEdges_collects _ _).andThen fun _ => ?_
          exact frame.exchange_collects statement call summary view _ node
        · exact frame.exchange_collects statement call summary view _ node

private theorem linkClone_collects (statement : Statement) (call : Call) (receiver : ObjectId)
    (view : View) :
    Collecting frame.subscriber start (frame.linkClone statement call receiver view) := by
  refine (objectType_collects receiver).andThen fun _ => ?_
  refine (frame.record_collects _).andThen fun copy => ?_
  split
  · refine (frame.target_collects _ _).andThen fun target => ?_
    exact (frame.addEdges_collects _ _).andThen fun _ => frame.copyFields_collects view _ _
  · exact frame.copyFields_collects view _ _

private theorem link_collects (statement : Statement) (call : Call) (view : View)
    (target : CallTarget) :
    Collecting frame.subscriber start (frame.link statement call view target) := by
  cases target with
  | method callee receiver => exact frame.linkMethod_collects statement call callee receiver view
  | clone receiver => exact frame.linkClone_collects statement call receiver view

private theorem evaluateCall_collects (statement : Statement) (call : Call) (view : View) :
    Collecting frame.subscriber start (frame.evaluateCall statement call view) := by
  unfold evaluateCall
  split
  · exact frame.linkMethod_collects statement call _ none view
  · refine (frame.read_collects view _ _).andThen fun shown => ?_
    refine (frame.resolve_collects call shown).andThen fun targets => ?_
    refine (Keeps.forM fun target _ => frame.link_collects statement call .full target).andThen
      fun _ => ?_
    split
    · refine (frame.read_collects .full _ _).andThen fun all => ?_
      refine (frame.resolve_collects call _).andThen fun known => ?_
      exact .forM fun target _ => frame.link_collects statement call view target
    · exact .pure trivial

/-! ## Statements -/

private theorem allocateInner_collects (statement : Statement) (view : View)
    (remaining dimension : Nat) (outer : ObjectId) (type : TypeId) :
    Collecting frame.subscriber start
      (frame.allocateInner statement view remaining dimension outer type) := by
  induction remaining generalizing dimension outer type with
  | zero => exact .pure trivial
  | succ remaining ih =>
      refine (Collecting.inRange _).andThen fun element => ?_
      split
      · exact .pure trivial
      · refine (Collecting.inRange _).andThen fun isArray => ?_
        split
        · refine (frame.record_collects _).andThen fun inner => ?_
          refine (frame.fieldNode_collects outer _).andThen fun contents => ?_
          refine (frame.addEdges_collects _ _).andThen fun _ => ?_
          exact (frame.foldIntoSummary_collects view inner).andThen fun _ => ih _ _ _
        · exact .pure trivial

private theorem storeInto_collects (key : FieldKey) (bases values : IdSet) :
    Collecting frame.subscriber start (frame.storeInto key bases values) := by
  unfold storeInto
  split
  · exact .pure trivial
  · refine .forM fun object _ => (frame.holdsField_collects object key).andThen fun holds => ?_
    split
    · refine (frame.fieldNode_collects object key).andThen fun node => ?_
      exact (frame.fieldType_collects object key).andThen fun type =>
        frame.addEdgesFiltered_collects node values _
    · exact .pure trivial

private theorem evaluateLoad_collects (view : View) (point : Option PointId)
    (target base : Variable) (key : FieldKey) :
    Collecting frame.subscriber start (frame.evaluateLoad view point target base key) := by
  refine (frame.target_collects target point).andThen fun node => ?_
  refine (frame.read_collects view base point).andThen fun shown => ?_
  refine Keeps.andThen (.forM fun object _ => ?_) fun _ => ?_
  · refine (frame.holdsField_collects object key).andThen fun holds => ?_
    split
    · exact (frame.fieldNode_collects object key).andThen fun source =>
        Collecting.grow (Graph.copyEdges_gains _ source node)
    · exact .pure trivial
  · split
    · refine (frame.read_collects .full base point).andThen fun all => .forM fun object _ => ?_
      split
      · exact .pure trivial
      · refine (frame.holdsField_collects object key).andThen fun holds => ?_
        split
        · refine (frame.fieldNode_collects object key).andThen fun source => ?_
          exact (frame.view_collects view source).andThen fun grown =>
            frame.addEdges_collects node grown
        · exact .pure trivial
    · exact .pure trivial

private theorem evaluateStore_collects (view : View) (point : Option PointId) (base : Variable)
    (key : FieldKey) (source : Variable) :
    Collecting frame.subscriber start (frame.evaluateStore view point base key source) := by
  refine (frame.read_collects view base point).andThen fun bases => ?_
  refine (frame.read_collects view source point).andThen fun values => ?_
  split
  · refine (frame.read_collects .full base point).andThen fun allBases => ?_
    refine (frame.read_collects .full source point).andThen fun allValues => ?_
    exact (frame.storeInto_collects key bases allValues).andThen fun _ =>
      frame.storeInto_collects key allBases values
  · exact frame.storeInto_collects key bases values

private theorem raiseTo_collects (raised : IdSet) (summary : Variable) (caught : List TypeId)
    (handlers : List Handler) :
    Collecting frame.subscriber start (frame.raiseTo raised summary caught handlers) := by
  induction handlers generalizing caught with
  | nil =>
      exact (frame.target_collects summary none).andThen fun node =>
        frame.addEdgesFiltered_collects node raised _
  | cons handler handlers ih =>
      refine (frame.target_collects handler.target none).andThen fun node => ?_
      exact (frame.addEdgesFiltered_collects node raised _).andThen fun _ => ih _

private theorem evaluate_collects (statement : Statement) (view : View) :
    Collecting frame.subscriber start (frame.evaluate statement view) := by
  unfold evaluate
  cases statement.action with
  | new target type =>
      refine (frame.record_collects _).andThen fun object => ?_
      refine (frame.target_collects target _).andThen fun node => ?_
      refine (frame.addEdges_collects _ _).andThen fun _ => ?_
      refine (Collecting.inRange _).andThen fun initializers => ?_
      exact (frame.addInitializers_collects initializers).andThen fun _ =>
        frame.foldIntoSummary_collects view object
  | newArray target type dims =>
      refine (frame.record_collects _).andThen fun outer => ?_
      refine (frame.target_collects target _).andThen fun node => ?_
      refine (frame.addEdges_collects _ _).andThen fun _ => ?_
      exact (frame.foldIntoSummary_collects view outer).andThen fun _ =>
        frame.allocateInner_collects statement view _ _ _ _
  | copy target source cast =>
      refine (frame.read_collects view source _).andThen fun objects => ?_
      refine (frame.target_collects target _).andThen fun node => ?_
      cases cast with
      | none => exact frame.addEdges_collects node objects
      | some type => exact frame.addEdgesFiltered_collects node objects _
  | phi target sources =>
      refine (frame.target_collects target _).andThen fun node => .forM fun source _ => ?_
      exact (frame.read_collects view source _).andThen fun objects =>
        frame.addEdges_collects node objects
  | «return» source summary =>
      refine (frame.read_collects view source _).andThen fun objects => ?_
      exact (frame.target_collects summary none).andThen fun node =>
        frame.addEdges_collects node objects
  | load target base key => exact frame.evaluateLoad_collects view _ target base key
  | store base key source => exact frame.evaluateStore_collects view _ base key source
  | static access declared field initializers =>
      refine (frame.addInitializers_collects initializers).andThen fun _ => ?_
      refine (frame.read_collects view _ _).andThen fun objects => ?_
      exact (frame.target_collects _ _).andThen fun node => frame.addEdges_collects node objects
  | call call => exact frame.evaluateCall_collects statement call view
  | raise source handlers summary =>
      refine (frame.read_collects view source _).andThen fun raised => ?_
      split
      · exact .pure trivial
      · exact frame.raiseTo_collects raised summary [] handlers
  | classInit initializers => exact frame.addInitializers_collects initializers

/-! ## The difference of two graphs -/

/-- An evaluation that succeeds takes nothing away, and answers the difference it made: to the
objects of every node, to the call edges and to the triggered initializers.  It lists no node that
has not grown. -/
theorem evaluate_produces_difference (statement : Statement) (view : View) (setKind : SetKind)
    (changes : List Graph.Change) (requests : Requests) {after : EvalState}
    (run : frame.evaluate statement view ⟨Graph.after setKind changes, requests, ∅⟩ =
      (.ok (), after)) :
    let graph := Graph.after setKind changes
    let delta := after.produced
    graph.Extends after.graph ∧
      (∀ node id, id ∈ delta.objectsOf node ↔
        after.graph.HasEdge node id ∧ ¬ graph.HasEdge node id) ∧
      (∀ id, id ∈ delta.calls ↔
        ∃ edge, after.graph.call? id = some edge ∧ edge ∉ graph.callEdges) ∧
      (∀ method, method ∈ delta.initializers ↔
        after.graph.isInitialized method = true ∧ graph.isInitialized method = false) ∧
      ∀ row ∈ delta.edges.rows, ∃ object, object ∈ row.2 := by
  intro graph delta
  have start : Collects frame.subscriber graph ⟨graph, requests, ∅⟩ :=
    ⟨Graph.setsValid_after setKind changes, .refl _ _⟩
  obtain ⟨collects, _⟩ := frame.evaluate_collects statement view _ start () after run
  have growth := collects.growth
  refine ⟨growth.toExtends, growth.edges, fun id => ?_, fun method => ?_, fun row listed => ?_⟩
  · rw [growth.calls]
    constructor
    · rintro ⟨⟨edge, named⟩, isNew⟩
      refine ⟨edge, named, fun earlier => ?_⟩
      obtain ⟨other, named'⟩ := Interner.mem_keys_iff.mp earlier
      obtain rfl := Interner.key?_injective (growth.call named') named
      exact isNew ⟨edge, named'⟩
    · rintro ⟨edge, named, isNew⟩
      refine ⟨⟨edge, named⟩, ?_⟩
      rintro ⟨other, named'⟩
      cases (growth.call named').symm.trans named
      exact isNew (Interner.mem_keys_iff.mpr ⟨id, named'⟩)
  · rw [growth.initializers, Bool.not_eq_true]
  · obtain ⟨object, member, _⟩ := EdgeMap.exists_mem_of_row listed
    exact ⟨object, member⟩

end Frame

/-! ## Walking down a chain -/

/-- A class whose objects are linked by its only field. -/
def chainHierarchy : Hierarchy :=
  ((do
    let link ← TypeTable.declareClass "Link" false
    let _ ← TypeTable.addField link "next" link false
    pure () : TypeTable.Build Unit) .initial).2.build

def chainStatement : Statement :=
  ⟨0, 0, none, .load ⟨0, 10, false, false⟩ ⟨0, 10, false, false⟩ (.named 0)⟩

def chainFrame : Frame where
  program := ⟨chainHierarchy, ∅, ⟨.empty, []⟩, [chainStatement], [], 0, []⟩
  abstraction := ⟨.insensitive, false⟩
  context := .empty
  statement := 0
  subscriber := 0

def chainLink (site : Nat) : HeapObject := .ofSite ⟨0, site, 10, .new⟩ .empty

def chainStart : List Graph.Change :=
  [.object (chainLink 0), .node (.local ⟨0, .empty⟩), .node (.field 0 (.named 0) 10),
    .addEdges 0 (.singleton 0), .subscribe 0 0, .subscribe 1 0]

def chainGrowth : List Graph.Change :=
  [.object (chainLink 1), .object (chainLink 2), .node (.field 1 (.named 0) 10),
    .addEdges 1 (.singleton 1), .addEdges 2 (.singleton 2)]

def chainGraph : Graph := .after .hashed (chainStart ++ chainGrowth)

theorem evaluate_produces_difference_chained : ∃ after,
    chainFrame.evaluate chainStatement .full ⟨chainGraph, ⟨0, 0⟩, ∅⟩ = (.ok (), after) ∧
    after.graph.HasEdge 0 1 ∧ ¬ chainGraph.HasEdge 0 1 := by
  have moves : (chainFrame.evaluate chainStatement .full
      ⟨chainGraph, ⟨0, 0⟩, ∅⟩).1.toOption = some () ∧
      1 ∈ ((chainFrame.evaluate chainStatement .full
        ⟨chainGraph, ⟨0, 0⟩, ∅⟩).2.produced.objectsOf 0).toList := by
    decide +kernel
  cases run : chainFrame.evaluate chainStatement .full ⟨chainGraph, ⟨0, 0⟩, ∅⟩ with
  | mk outcome after =>
      rw [run] at moves
      cases toOption_eq_some.mp moves.1
      obtain ⟨_, edges, _⟩ := chainFrame.evaluate_produces_difference chainStatement .full .hashed
        (chainStart ++ chainGrowth) ⟨0, 0⟩ run
      exact ⟨after, rfl, (edges 0 1).mp moves.2⟩

end ObjectFlow
