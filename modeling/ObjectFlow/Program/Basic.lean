import ObjectFlow.Statement
import ObjectFlow.Text.Quoted

/-!
# Programs

A `Program` is what the analysis runs on: a class hierarchy, the variables and
program points, and the statements of all method bodies.  A `Registrar`
collects them; finishing it fixes which point writes which flow-sensitive
variable.
-/

namespace ObjectFlow

structure Program where
  hierarchy : Hierarchy
  variableTable : VariableTable
  flow : ControlFlow
  statements : List Statement
  summaries : List (MethodId × MethodSummary)
  entry : MethodId
  initializers : List MethodId

def statementIds (statements : List Statement) (method : MethodId) : List StatementId :=
  (statements.zipIdx.filter fun entry => entry.1.method = method).map Prod.snd

namespace Program

def statement? (program : Program) (id : StatementId) : Option Statement := program.statements[id]?

def statementsOf (program : Program) (method : MethodId) : List StatementId :=
  statementIds program.statements method

def summary? (program : Program) (method : MethodId) : Option MethodSummary :=
  program.summaries.lookup method

def describeMethod? (program : Program) (method : MethodId) : Option String :=
  program.hierarchy.describeMethod? method

def describeVariable? (program : Program) (id : VariableId) : Option String :=
  program.variableTable.describe? program.hierarchy id

def variableNamed? (program : Program) (name : String) : Option Variable := do
  let id ← (List.range program.variableTable.size).find? fun id =>
    program.describeVariable? id = some name
  program.variableTable.payload? id

def describeStatement? (program : Program) (id : StatementId) : Option String := do
  let statement ← program.statement? id
  let owner ← program.describeMethod? statement.method
  pure s!"{owner}#{statement.site}: {statement.action.render}"

def render? (program : Program) : Option String := do
  let entry ← program.describeMethod? program.entry
  pure (s!"Program \x7b entry: {Text.quote entry}, statements: {program.statements.length}, " ++
    s!"variables: {program.variableTable.size}, points: {program.flow.size} \x7d")

end Program

/-! ## Registering -/

structure Registrar where
  hierarchy : Hierarchy
  variableTable : VariableTable
  points : PointGraph
  statements : List Statement
  summaries : List (MethodId × MethodSummary)
  entry : Option MethodId
  initializers : List MethodId

abbrev Register (α : Type) := ExceptT Failure (StateM Registrar) α

namespace Registrar

def empty (hierarchy : Hierarchy) : Registrar := ⟨hierarchy, ∅, .empty, [], [], none, []⟩

def onVariables {α : Type} (change : VariableTable → α × VariableTable) : Register α := do
  let registrar ← get
  let (answer, table) := change registrar.variableTable
  set { registrar with variableTable := table }
  pure answer

def onPoints {α : Type} (change : PointGraph → α × PointGraph) : Register α := do
  let registrar ← get
  let (answer, points) := change registrar.points
  set { registrar with points := points }
  pure answer

def addSuccessor (source target : PointId) : Register Unit := do
  let registrar ← get
  let points ← inRange (registrar.points.addSuccessor? source target)
  set { registrar with points := points }

def summary (method : MethodId) : Register MethodSummary := do
  let registrar ← get
  match registrar.summaries.lookup method with
  | some known => pure known
  | none =>
      let (made, table) ← inRange (registrar.variableTable.summary? registrar.hierarchy method)
      set { registrar with
        variableTable := table
        summaries := registrar.summaries ++ [(method, made)] }
      pure made

/-- Add a statement.  Each site of a method has one at most. -/
def register (statement : Statement) : Register StatementId := do
  let registrar ← get
  if registrar.statements.any fun other =>
      other.method = statement.method && other.site = statement.site then
    let owner ← inRange (registrar.hierarchy.describeMethod? statement.method)
    fail (.duplicateStatement owner statement.site statement.action.render)
  else
    set { registrar with statements := registrar.statements ++ [statement] }
    pure registrar.statements.length

def replaceUseAt (old new : Variable) (id : StatementId) : Register Bool := do
  let registrar ← get
  let statement ← inRange registrar.statements[id]?
  let (changed, statement) := statement.replaceUse old new
  set { registrar with statements := registrar.statements.set id statement }
  pure changed

/-- Replace a variable wherever the statements of a method use it.  Answers how many do. -/
def replaceUse (method : MethodId) (old new : Variable) : Register Nat := do
  let registrar ← get
  let changed ← (statementIds registrar.statements method).mapM (replaceUseAt old new)
  pure (changed.count true)

def setEntry (method : MethodId) : Register Unit :=
  modify fun registrar => { registrar with entry := some method }

def addInitializer (method : MethodId) : Register Unit :=
  modify fun registrar =>
    if registrar.initializers.contains method then registrar
    else { registrar with initializers := registrar.initializers ++ [method] }

/-- The finished program.  It needs an entry point, and gets the summaries of all methods. -/
def finish : Register Program := do
  match (← get).entry with
  | none => fail (.missingEntryPoint "<none>")
  | some entry =>
      (← get).hierarchy.methodIds.forM fun method => do
        let _ ← summary method
      let registrar ← get
      pure {
        hierarchy := registrar.hierarchy
        variableTable := registrar.variableTable
        flow := ⟨registrar.points, registrar.statements.filterMap Statement.kill?⟩
        statements := registrar.statements
        summaries := registrar.summaries
        entry := entry
        initializers := registrar.initializers }

end Registrar

end ObjectFlow
