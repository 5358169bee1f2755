import ObjectFlow.Evaluation.Call

/-!
# Evaluating statements

Evaluating a statement in a context adds to the graph what its action demands
of what the view shows.  Evaluating it again when nothing new is to be seen
adds nothing.
-/

namespace ObjectFlow

namespace Frame

open Eval

def allocateInner (frame : Frame) (statement : Statement) (view : View) :
    (remaining : Nat) → (dimension : Nat) → (outer : ObjectId) → TypeId → Eval Unit
  | 0, _, _, _ => pure ()
  | remaining + 1, dimension, outer, type => do
      match ← inRange (frame.hierarchy.elementType? type) with
      | none => pure ()
      | some innerType => do
          if ← inRange (frame.hierarchy.isArray? innerType) then
            let inner ←
              frame.record ⟨statement.method, statement.site, innerType, .dimension dimension⟩
            let contents ← frame.fieldNode outer .arrayContents
            grow (Graph.addEdge contents inner)
            frame.foldIntoSummary view inner
            allocateInner frame statement view remaining (dimension + 1) inner innerType

/-- Store values in a slot of those objects that have it, as far as its type admits them. -/
def storeInto (frame : Frame) (key : FieldKey) (bases values : IdSet) : Eval Unit := do
  if values.isEmpty then
    pure ()
  else
    bases.toList.forM fun object => do
      if ← frame.holdsField object key then
        let node ← frame.fieldNode object key
        let type ← frame.fieldType object key
        grow (Graph.addEdgesFiltered frame.hierarchy node values ⟨type, []⟩)

def evaluateLoad (frame : Frame) (view : View) (point : Option PointId)
    (target base : Variable) (key : FieldKey) : Eval Unit := do
  let target ← frame.target target point
  let shown ← frame.read view base point
  shown.toList.forM fun object => do
    if ← frame.holdsField object key then
      let source ← frame.fieldNode object key
      grow (Graph.copyEdges source target frame.subscriber)
  if view.isDelta then
    let all ← frame.read .full base point
    all.toList.forM fun object => do
      if shown.contains object then
        pure ()
      else if ← frame.holdsField object key then
        let source ← frame.fieldNode object key
        let grown ← frame.view view source
        grow (Graph.addEdges target grown)

def evaluateStore (frame : Frame) (view : View) (point : Option PointId)
    (base : Variable) (key : FieldKey) (source : Variable) : Eval Unit := do
  let bases ← frame.read view base point
  let values ← frame.read view source point
  if view.isDelta then
    let allBases ← frame.read .full base point
    let allValues ← frame.read .full source point
    frame.storeInto key bases allValues
    frame.storeInto key allBases values
  else
    frame.storeInto key bases values

/-- Hand exceptions to the handlers in order; `caught` lists the types of the earlier ones. -/
def raiseTo (frame : Frame) (raised : IdSet) (summary : Variable) :
    (caught : List TypeId) → List Handler → Eval Unit
  | caught, [] => do
      let node ← frame.target summary none
      grow (Graph.addEdgesFiltered frame.hierarchy node raised ⟨TypeTable.throwableType, caught⟩)
  | caught, handler :: handlers => do
      let node ← frame.target handler.target none
      grow (Graph.addEdgesFiltered frame.hierarchy node raised ⟨handler.type, caught⟩)
      raiseTo frame raised summary (caught ++ [handler.type]) handlers

def evaluate (frame : Frame) (statement : Statement) (view : View) : Eval Unit := do
  let point := statement.point
  match statement.action with
  | .new target type => do
      let object ← frame.record ⟨statement.method, statement.site, type, .new⟩
      let node ← frame.target target point
      grow (Graph.addEdge node object)
      let initializers ← inRange (frame.hierarchy.classInitializersFor? type)
      grow (Graph.addInitializers initializers)
      frame.foldIntoSummary view object
  | .newArray target type dims => do
      let outer ← frame.record ⟨statement.method, statement.site, type, .new⟩
      let node ← frame.target target point
      grow (Graph.addEdge node outer)
      frame.foldIntoSummary view outer
      frame.allocateInner statement view (dims - 1) 1 outer type
  | .copy target source cast => do
      let objects ← frame.read view source point
      let node ← frame.target target point
      match cast with
      | some type => grow (Graph.addEdgesFiltered frame.hierarchy node objects ⟨type, []⟩)
      | none => grow (Graph.addEdges node objects)
  | .phi target sources => do
      let node ← frame.target target point
      sources.forM fun source => do
        let objects ← frame.read view source point
        grow (Graph.addEdges node objects)
  | .return source summary => do
      let objects ← frame.read view source point
      let node ← frame.target summary none
      grow (Graph.addEdges node objects)
  | .load target base key => frame.evaluateLoad view point target base key
  | .store base key source => frame.evaluateStore view point base key source
  | .static access declared field initializers => do
      grow (Graph.addInitializers initializers)
      let (source, target) := match access with
        | .get => (field, declared)
        | .put => (declared, field)
      let objects ← frame.read view source point
      let node ← frame.target target point
      grow (Graph.addEdges node objects)
  | .call call => frame.evaluateCall statement call view
  | .raise source handlers summary => do
      let raised ← frame.read view source point
      if raised.isEmpty then pure () else frame.raiseTo raised summary [] handlers
  | .classInit initializers => grow (Graph.addInitializers initializers)

/-- The node whose earlier value a statement overwrites at its point. -/
def killedNode (frame : Frame) (statement : Statement) : Eval (Option NodeId) := do
  match statement.action.defined?, statement.point with
  | some target, some point =>
      if target.flowSensitive then
        let node ← onGraph (Graph.node (.localAt (frame.replica target) point))
        pure (some node)
      else
        pure none
  | _, _ => pure none

end Frame

end ObjectFlow
