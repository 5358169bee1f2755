import ObjectFlow.Graph.Basic
import ObjectFlow.Policy
import ObjectFlow.Program.Basic

/-!
# Evaluating in a context

A statement is evaluated in a context, on a graph that it reads through a
view.  The full view shows all objects of a node and subscribes the reader to
it; a delta view shows only what a delta added.  An evaluation collects what
it adds to the graph as its produce.
-/

namespace ObjectFlow

structure EvalState where
  graph : Graph
  requests : Requests
  produced : Delta

abbrev Eval (α : Type) := ExceptT Failure (StateM EvalState) α

namespace Eval

def onGraph {α : Type} (update : Graph.Update α) : Eval α := do
  let state ← get
  let (answer, graph) := update state.graph
  set { state with graph := graph }
  match answer with
  | .ok value => pure value
  | .error failure => throw failure

/-- Grow the graph, collecting what was new. -/
def grow (update : Graph.Update Delta) : Eval Unit := do
  let delta ← onGraph update
  modify fun state => { state with produced := state.produced.join delta }

def ask {α : Type} (question : Ask α) : Eval α := do
  let state ← get
  let (answer, requests) := question state.requests
  set { state with requests := requests }
  match answer with
  | .ok value => pure value
  | .error failure => throw failure

end Eval

inductive View where
  | full
  | delta (growth : Delta)
  deriving DecidableEq

def View.isDelta : View → Bool
  | .full => false
  | .delta _ => true

structure Frame where
  program : Program
  abstraction : HeapAbstraction
  context : Context
  statement : StatementId
  subscriber : SubscriberId

namespace Frame

open Eval

def hierarchy (frame : Frame) : Hierarchy := frame.program.hierarchy

def describe (frame : Frame) : Eval String :=
  inRange (frame.program.describeStatement? frame.statement)

def replica (frame : Frame) (declared : Variable) : Replica :=
  declared.replica frame.context frame.abstraction.initialContext

def missingPoint {α : Type} (frame : Frame) (declared : Variable) : Eval α := do
  let name ← inRange (frame.program.describeVariable? declared.id)
  let statement ← frame.describe
  fail (.missingProgramPoint name statement frame.context.render)

def view (frame : Frame) (view : View) (node : NodeId) : Eval IdSet :=
  match view with
  | .full => onGraph (Graph.read node frame.subscriber)
  | .delta growth => pure (growth.objectsOf node)

/-! ## Variables -/

/-- The node that a write of a variable at a point goes to.  A flow-sensitive variable is written
at the point that is known to write it. -/
def target (frame : Frame) (declared : Variable) (point : Option PointId) : Eval NodeId :=
  if declared.flowSensitive then
    match point with
    | some point =>
        if frame.program.flow.writes declared.id point then
          onGraph (Graph.node (.localAt (frame.replica declared) point))
        else
          frame.missingPoint declared
    | none => frame.missingPoint declared
  else
    onGraph (Graph.node (.local (frame.replica declared)))

/-- What has become of an object between a write and its observation: the object itself, the
summary of its site, or both. -/
def ageObject (program : Program) (abstraction : HeapAbstraction) (context : Context)
    (write : ObservedWrite) (id : ObjectId) : Eval (List ObjectId) := do
  let writer ← inRange (program.flow.point? write.kill)
  let object ← inRange ((← get).graph.object? id)
  match abstraction.summaryOf object with
  | none => pure [id]
  | some summary =>
      if object.site.method ≠ writer.method then
        pure [id]
      else if ← ask (abstraction.isRecentIn object context) then
        match program.flow.pointOf? writer.method object.site.site with
        | none => pure [id]
        | some allocation =>
            match program.flow.ageing write allocation with
            | .fresh => pure [id]
            | .aged => do pure [← onGraph (Graph.object summary)]
            | .either => do pure [id, ← onGraph (Graph.object summary)]
      else
        pure [id]

def ageObjects (program : Program) (abstraction : HeapAbstraction) (context : Context)
    (write : ObservedWrite) (objects : IdSet) : Eval IdSet := do
  let aged ← objects.toList.mapM (ageObject program abstraction context write)
  pure (OrderedSet.ofList aged.flatten)

/-- What a view shows of a variable just before a point.  For a flow-sensitive variable these are
the writes that reach the point, aged on the way. -/
def read (frame : Frame) (view : View) (declared : Variable) (point : Option PointId) :
    Eval IdSet := do
  if declared.flowSensitive then
    match point with
    | none => frame.missingPoint declared
    | some point =>
        let moment := Moment.before point
        let kills := frame.program.flow.reachingKills declared.id moment
        let observed ← kills.toList.mapM fun kill => do
          let node ← onGraph (Graph.node (.localAt (frame.replica declared) kill))
          let objects ← frame.view view node
          ageObjects frame.program frame.abstraction frame.context ⟨declared.id, kill, moment⟩
            objects
        pure (observed.foldl OrderedSet.union ∅)
  else
    let node ← onGraph (Graph.node (.local (frame.replica declared)))
    frame.view view node

/-! ## Objects -/

def record (frame : Frame) (site : AllocationSite) : Eval ObjectId := do
  let origin ← frame.describe
  let object ← ask (frame.abstraction.record site frame.context origin)
  onGraph (Graph.object object)

def objectType (id : ObjectId) : Eval TypeId := do
  inRange ((← get).graph.objectType? id)

def fieldType (frame : Frame) (object : ObjectId) (key : FieldKey) : Eval TypeId := do
  match key with
  | .named field => do
      let field ← inRange (frame.hierarchy.field? field)
      pure field.type
  | .arrayContents => do
      let type ← objectType object
      let element ← inRange (frame.hierarchy.elementType? type)
      pure (element.getD TypeTable.objectType)

def fieldNode (frame : Frame) (object : ObjectId) (key : FieldKey) : Eval NodeId := do
  let type ← frame.fieldType object key
  onGraph (Graph.node (.field object key type))

/-- Whether objects of a type have a slot: array contents belong to arrays, a named field to the
subtypes of the class that declares it. -/
def holdsField (frame : Frame) (object : ObjectId) (key : FieldKey) : Eval Bool := do
  let type ← objectType object
  match key with
  | .arrayContents => inRange (frame.hierarchy.isArray? type)
  | .named field => do
      let field ← inRange (frame.hierarchy.field? field)
      inRange (frame.hierarchy.isSubtype? type field.declaring)

def referenceKeys? (hierarchy : Hierarchy) : List FieldId → Option (List FieldKey)
  | [] => some []
  | id :: rest => do
      let field ← hierarchy.field? id
      let keep ← hierarchy.isReference? field.type
      let others ← referenceKeys? hierarchy rest
      pure (if keep then .named id :: others else others)

def referenceFields (frame : Frame) (object : ObjectId) : Eval (List FieldKey) := do
  let type ← objectType object
  match ← inRange (frame.hierarchy.kind? type) with
  | .array element => do
      if ← inRange (frame.hierarchy.isReference? element) then pure [.arrayContents] else pure []
  | _ => do
      let fields ← inRange (frame.hierarchy.instanceFields? type)
      inRange (referenceKeys? frame.hierarchy fields)

/-- Let each reference slot of one object hold what a view shows of the other's. -/
def copyFields (frame : Frame) (view : View) (source target : ObjectId) : Eval Unit := do
  (← frame.referenceFields source).forM fun key => do
    let sourceNode ← frame.fieldNode source key
    let targetNode ← frame.fieldNode target key
    let objects ← frame.view view sourceNode
    grow (Graph.addEdges targetNode objects)

/-- Keep the summary of a most recent object holding all that its fields ever held. -/
def foldIntoSummary (frame : Frame) (view : View) (recent : ObjectId) : Eval Unit := do
  let object ← inRange ((← get).graph.object? recent)
  match frame.abstraction.summaryOf object with
  | none => pure ()
  | some summary =>
      let summary ← onGraph (Graph.object summary)
      frame.copyFields view recent summary

end Frame

end ObjectFlow
