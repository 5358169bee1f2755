import ObjectFlow.Graph.Delta
import ObjectFlow.Statement

/-!
# Nodes and call edges

The nodes of a points-to graph are variables in contexts, flow-sensitive
variables as written at a point, and fields of objects.  A call edge connects
a call site in a context to a callee in a context; call edges make up the call
graph.
-/

namespace ObjectFlow

inductive Node where
  | local (replica : Replica)
  /-- A flow-sensitive variable as written at one point. -/
  | localAt (replica : Replica) (point : PointId)
  | field (object : ObjectId) (key : FieldKey) (type : TypeId)
  deriving DecidableEq, Repr

def Node.render : Node → String
  | .local replica => replica.render
  | .localAt replica point => s!"{replica.render} at {renderPoint point}"
  | .field object key _ => s!"o{object}{key.render}"

structure CallEdge where
  site : CallSite
  callerContext : Context
  callee : MethodId
  calleeContext : Context
  deriving DecidableEq, Repr

structure MethodContext where
  method : MethodId
  context : Context
  deriving DecidableEq, Repr

def MethodContext.render (node : MethodContext) : String :=
  s!"m{node.method} in {node.context.render}"

namespace CallEdge

def source (edge : CallEdge) : MethodContext := ⟨edge.site.caller, edge.callerContext⟩

def target (edge : CallEdge) : MethodContext := ⟨edge.callee, edge.calleeContext⟩

end CallEdge

/-- One node for each method in a context, and one edge for each resolved call. -/
structure CallGraph where
  nodes : List MethodContext
  edges : List (MethodContext × MethodContext × CallSite)
  deriving DecidableEq, Repr

namespace CallGraph

def addNode (graph : CallGraph) (node : MethodContext) : CallGraph :=
  if node ∈ graph.nodes then graph else { graph with nodes := graph.nodes ++ [node] }

def addCall (graph : CallGraph) (edge : CallEdge) : CallGraph :=
  let graph := (graph.addNode edge.source).addNode edge.target
  { graph with edges := graph.edges ++ [(edge.source, edge.target, edge.site)] }

def build (roots : List MethodContext) (calls : List CallEdge) : CallGraph :=
  calls.foldl addCall (roots.foldl addNode ⟨[], []⟩)

end CallGraph

end ObjectFlow
