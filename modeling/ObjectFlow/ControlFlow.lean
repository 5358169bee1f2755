import ObjectFlow.Context
import ObjectFlow.Error
import ObjectFlow.Reachability

/-!
# Program points

A program point is the entry or the exit of a method or one of its statements;
control goes from a point to its successors.  A sealed `ControlFlow` also
knows which flow-sensitive variable each point writes, and answers two
questions by searching paths: which writes can still be observed at a moment,
and whether an allocation may run between a write and its observation.
-/

namespace ObjectFlow

abbrev VariableId := Nat

abbrev PointId := Nat

inductive PointKind where
  | entry
  | exit
  | statement (site : Nat)
  deriving DecidableEq, Repr

structure Point where
  method : MethodId
  kind : PointKind
  deriving DecidableEq, Repr

def renderPoint (point : PointId) : String := s!"pp{point}"

/-- The moment just before or just after a point executes. -/
inductive Moment where
  | before (point : PointId)
  | after (point : PointId)
  deriving DecidableEq, Repr

def Moment.point : Moment → PointId
  | .before point => point
  | .after point => point

/-- Whether a value written at one point has seen an allocation run when it is observed. -/
inductive Ageing where
  /-- No path from the write to the observation runs the allocation. -/
  | fresh
  /-- Every path runs it. -/
  | aged
  | either
  deriving DecidableEq, Repr

def Ageing.render : Ageing → String
  | .fresh => "fresh"
  | .aged => "aged"
  | .either => "either"

/-- A write of a flow-sensitive variable at the point `kill`, as seen from a later moment. -/
structure ObservedWrite where
  variableId : VariableId
  kill : PointId
  moment : Moment
  deriving DecidableEq, Repr

/-! ## Building -/

/-- Points and successor edges; no edge is listed twice. -/
structure PointGraph where
  points : List Point
  edges : List (PointId × PointId)
  deriving DecidableEq, Repr

namespace PointGraph

def empty : PointGraph := ⟨[], []⟩

instance : Inhabited PointGraph := ⟨empty⟩

def size (graph : PointGraph) : Nat := graph.points.length

def find? (graph : PointGraph) (point : Point) : Option PointId :=
  graph.points.findIdx? fun other => other = point

def entry? (graph : PointGraph) (method : MethodId) : Option PointId :=
  graph.find? ⟨method, .entry⟩

def exit? (graph : PointGraph) (method : MethodId) : Option PointId :=
  graph.find? ⟨method, .exit⟩

def push (graph : PointGraph) (point : Point) : PointId × PointGraph :=
  (graph.size, { graph with points := graph.points ++ [point] })

def methodPoints (graph : PointGraph) (method : MethodId) : (PointId × PointId) × PointGraph :=
  match graph.entry? method, graph.exit? method with
  | some entry, some exit => ((entry, exit), graph)
  | _, _ =>
      let (entry, graph) := graph.push ⟨method, .entry⟩
      let (exit, graph) := graph.push ⟨method, .exit⟩
      ((entry, exit), graph)

def addPoint (graph : PointGraph) (method : MethodId) (site : Nat) : PointId × PointGraph :=
  graph.push ⟨method, .statement site⟩

def addSuccessor? (graph : PointGraph) (source target : PointId) : Option PointGraph :=
  if source < graph.size ∧ target < graph.size then
    if (source, target) ∈ graph.edges then some graph
    else some { graph with edges := graph.edges ++ [(source, target)] }
  else
    none

def successors (graph : PointGraph) (point : PointId) : List PointId :=
  (graph.edges.filter fun edge => edge.1 = point).map Prod.snd

def predecessors (graph : PointGraph) (point : PointId) : List PointId :=
  (graph.edges.filter fun edge => edge.2 = point).map Prod.fst

end PointGraph

/-! ## Queries -/

structure ControlFlow where
  graph : PointGraph
  /-- Which flow-sensitive variable a point writes; of two entries the later one counts. -/
  kills : List (PointId × VariableId)
  deriving DecidableEq, Repr

namespace ControlFlow

def size (flow : ControlFlow) : Nat := flow.graph.size

def point? (flow : ControlFlow) (point : PointId) : Option Point := flow.graph.points[point]?

/-- The point of the statement at a site of a method; of several the last one. -/
def pointOf? (flow : ControlFlow) (method : MethodId) (site : Nat) : Option PointId :=
  (List.range flow.size).reverse.find? fun id =>
    flow.graph.points[id]? = some ⟨method, .statement site⟩

def killOf? (flow : ControlFlow) (point : PointId) : Option VariableId :=
  flow.kills.reverse.lookup point

def writes (flow : ControlFlow) (variableId : VariableId) (point : PointId) : Bool :=
  flow.killOf? point = some variableId

/-- The points that write a variable and whose value can still be observed at a moment: those
met going backwards from the moment without passing another write.  Ascending. -/
def reachingKills (flow : ControlFlow) (variableId : VariableId) (moment : Moment) : IdSet :=
  match moment with
  | .after point =>
      if flow.writes variableId point then OrderedSet.singleton point else search point
  | .before point => search point
where
  search (point : PointId) : IdSet :=
    let backwards := fun id =>
      if flow.writes variableId id then [] else flow.graph.predecessors id
    (reachable flow.graph.edges.length backwards (flow.graph.predecessors point)).filter
      (flow.writes variableId)

abbrev KnownKills := List ((VariableId × Moment) × IdSet)

/-- The answer of `reachingKills`, looked up if it was given before, and what is known after it. -/
def recallKills (flow : ControlFlow) (known : KnownKills) (variableId : VariableId)
    (moment : Moment) : IdSet × KnownKills :=
  match known.lookup (variableId, moment) with
  | some answer => (answer, known)
  | none =>
      let answer := flow.reachingKills variableId moment
      (answer, ((variableId, moment), answer) :: known)

/-- Whether control that leaves a point can reach a moment without executing a blocked point. -/
def flows (flow : ControlFlow) (source : PointId) (moment : Moment) (blocked : PointId → Bool) :
    Bool :=
  let onwards := fun id => if blocked id then [] else flow.graph.successors id
  let met := reachable flow.graph.edges.length onwards (flow.graph.successors source)
  match moment with
  | .before point => met.contains point
  | .after point => met.contains point && !blocked point

/-- Whether a value can pass through an allocation on its way from a write to its observation,
and whether it can avoid it.  Only paths that do not overwrite the variable count. -/
def ageing (flow : ControlFlow) (write : ObservedWrite) (allocation : PointId) : Ageing :=
  let overwrites := flow.writes write.variableId
  if write.moment = .after write.kill then
    .fresh
  else
    let crosses :=
      allocation ≠ write.kill && !overwrites allocation &&
        if write.moment = .before allocation then
          false
        else if write.moment = .after allocation then
          flow.flows write.kill write.moment overwrites
        else
          flow.flows write.kill (.before allocation) overwrites &&
            flow.flows allocation write.moment overwrites
    let avoids := flow.flows write.kill write.moment fun id => overwrites id || id = allocation
    match crosses, avoids with
    | true, false => .aged
    | true, true => .either
    | false, _ => .fresh

end ControlFlow

end ObjectFlow
