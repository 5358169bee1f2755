import ObjectFlow.Evaluation.Basic

/-!
# Evaluating calls

A call is linked to each target it resolves to: its arguments flow to the
callee's parameters, and the callee's result and exceptions flow back.  Targets
reached through receivers that the view shows are linked in full; those reached
through known receivers only pass on what grew.
-/

namespace ObjectFlow

inductive CallTarget where
  | method (callee : MethodId) (receiver : Option ObjectId)
  | clone (receiver : ObjectId)
  deriving DecidableEq, Repr

namespace Frame

open Eval

def resolveReceiver (frame : Frame) (call : Call) (declared : Method) (receiver : ObjectId) :
    Eval CallTarget := do
  let callee ← match call.kind with
    | .static | .special => pure call.callee
    | .virtual => do
        let type ← objectType receiver
        match ← inRange (frame.hierarchy.resolveMethod? type declared.selector) with
        | some callee => pure callee
        | none => do
            let typeName ← inRange (frame.hierarchy.typeName? type)
            let statement ← frame.describe
            fail (.unresolvedTarget declared.selector.render typeName statement
              frame.context.render)
  pure (if callee = TypeTable.cloneMethod then .clone receiver else .method callee (some receiver))

/-- The targets of a call on some receivers; those that are no objects of the declaring class
are left out. -/
def resolve (frame : Frame) (call : Call) (receivers : IdSet) : Eval (List CallTarget) := do
  let declared ← inRange (frame.hierarchy.method? call.callee)
  let filter : TypeFilter := ⟨declared.declaring, []⟩
  let receivers ← inRange ((← get).graph.filter? frame.hierarchy filter receivers)
  receivers.toList.mapM (frame.resolveReceiver call declared)

def passArguments (frame : Frame) (view : View) (point : Option PointId)
    (calleeNode : Variable → Eval NodeId) :
    List (Option Variable) → List (Option Variable) → Eval Unit
  | some arg :: args, some formal :: formals => do
      let objects ← frame.read view arg point
      let node ← calleeNode formal
      grow (Graph.addEdges node objects)
      passArguments frame view point calleeNode args formals
  | _ :: args, _ :: formals => passArguments frame view point calleeNode args formals
  | _, _ => pure ()

def linkMethod (frame : Frame) (statement : Statement) (call : Call) (callee : MethodId)
    (receiver : Option ObjectId) (view : View) : Eval Unit := do
  let site : CallSite := ⟨statement.method, statement.site⟩
  let graph := (← get).graph
  let object ← receiver.mapM fun id => inRange (graph.object? id)
  let origin ← frame.describe
  let calleeContext ← ask (frame.abstraction.merge site object frame.context origin)
  grow (Graph.addCall ⟨site, frame.context, callee, calleeContext⟩)
  match frame.program.summary? callee with
  | none => pure ()
  | some summary =>
      let calleeNode := fun (declared : Variable) =>
        onGraph (Graph.node (.local (declared.replica calleeContext
          frame.abstraction.initialContext)))
      let method ← inRange (frame.hierarchy.method? callee)
      let formals ←
        if method.isStatic then
          pure summary.formals
        else do
          match summary.formals.head?, receiver with
          | some (some this), some object => do
              let node ← calleeNode this
              grow (Graph.addEdge node object)
          | _, _ => pure ()
          pure (summary.formals.drop 1)
      frame.passArguments view statement.point calleeNode call.args formals
      match call.result, summary.result with
      | some result, some returned => do
          let node ← calleeNode returned
          let objects ← frame.view view node
          let target ← frame.target result statement.point
          grow (Graph.addEdges target objects)
      | _, _ => pure ()
      let node ← calleeNode summary.exception
      let thrown ← frame.view view node
      let exception ← frame.target call.exception none
      grow (Graph.addEdges exception thrown)

/-- Make a copy of the receiver whose fields hold what the receiver's do. -/
def linkClone (frame : Frame) (statement : Statement) (call : Call) (receiver : ObjectId)
    (view : View) : Eval Unit := do
  let type ← objectType receiver
  let copy ← frame.record ⟨statement.method, statement.site, type, .clone⟩
  match call.result with
  | some result => do
      let target ← frame.target result statement.point
      grow (Graph.addEdge target copy)
  | none => pure ()
  frame.copyFields view receiver copy

def link (frame : Frame) (statement : Statement) (call : Call) (view : View) :
    CallTarget → Eval Unit
  | .method callee receiver => frame.linkMethod statement call callee receiver view
  | .clone receiver => frame.linkClone statement call receiver view

def evaluateCall (frame : Frame) (statement : Statement) (call : Call) (view : View) :
    Eval Unit := do
  match call.receiver with
  | none => frame.linkMethod statement call call.callee none view
  | some receiver => do
      let shown ← frame.read view receiver statement.point
      (← frame.resolve call shown).forM (frame.link statement call .full)
      if view.isDelta then
        let all ← frame.read .full receiver statement.point
        let known := all.filter fun object => !shown.contains object
        (← frame.resolve call known).forM (frame.link statement call view)

end Frame

end ObjectFlow
