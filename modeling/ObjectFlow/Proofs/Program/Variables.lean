import ObjectFlow.Program.Basic

/-!
# The variables of statements

Every variable in a statement is replaced at once by `mapVariables`, and
`Statement.writes` lists the variables that a statement writes with the point
at which each write is placed.
-/

namespace ObjectFlow

def Variable.plain (declared : Variable) : Variable := { declared with flowSensitive := false }

def Call.mapVariables (change : Variable → Variable) (call : Call) : Call :=
  { call with
    receiver := call.receiver.map change
    args := call.args.map (Option.map change)
    result := call.result.map change
    exception := change call.exception }

def Handler.mapVariables (change : Variable → Variable) (handler : Handler) : Handler :=
  { handler with target := change handler.target }

namespace Action

def handled : Action → List Variable
  | .raise _ handlers _ => handlers.map Handler.target
  | _ => []

def mapVariables (change : Variable → Variable) : Action → Action
  | .new target type => .new (change target) type
  | .newArray target type dims => .newArray (change target) type dims
  | .copy target source cast => .copy (change target) (change source) cast
  | .phi target sources => .phi (change target) (sources.map change)
  | .return source summary => .return (change source) (change summary)
  | .load target base field => .load (change target) (change base) field
  | .store base field source => .store (change base) field (change source)
  | .static access declared field initializers =>
      .static access (change declared) (change field) initializers
  | .call invoked => .call (invoked.mapVariables change)
  | .raise source handlers summary =>
      .raise (change source) (handlers.map (Handler.mapVariables change)) (change summary)
  | .classInit initializers => .classInit initializers

private theorem mapVariables_id (action : Action) : action.mapVariables id = action := by
  have same : Handler.mapVariables id = id := rfl
  cases action <;> simp [mapVariables, Call.mapVariables, same]

private theorem defined?_mapVariables (change : Variable → Variable) (action : Action) :
    (action.mapVariables change).defined? = action.defined?.map change := by
  cases action with
  | static access _ _ _ => cases access <;> rfl
  | _ => rfl

end Action

namespace Statement

def mapVariables (change : Variable → Variable) (statement : Statement) : Statement :=
  { statement with action := statement.action.mapVariables change }

theorem mapVariables_id (statement : Statement) : statement.mapVariables id = statement := by
  simp [mapVariables, Action.mapVariables_id]

theorem kill?_plain (statement : Statement) :
    (statement.mapVariables Variable.plain).kill? = none := by
  unfold kill? mapVariables
  rw [Action.defined?_mapVariables]
  cases statement.action.defined? with
  | none => rfl
  | some target => cases statement.point <;> rfl

theorem kill?_eq_some {statement : Statement} {point : PointId} {id : VariableId} :
    statement.kill? = some (point, id) ↔ ∃ target, statement.action.defined? = some target ∧
      statement.point = some point ∧ target.flowSensitive = true ∧ target.id = id := by
  unfold kill?
  cases statement.action.defined? with
  | none => simp
  | some target =>
      cases statement.point with
      | none => simp
      | some here => simpa using and_left_comm

/-- The variables that a statement writes, each with the point of the write.  Only what a statement
assigns itself has one. -/
def writes (statement : Statement) : List (Variable × Option PointId) :=
  match statement.action with
  | .return _ summary => [(summary, none)]
  | .call invoked =>
      (invoked.result.map fun result => (result, statement.point)).toList ++
        [(invoked.exception, none)]
  | .raise _ handlers summary =>
      (handlers.map fun handler => (handler.target, none)) ++ [(summary, none)]
  | action => (action.defined?.map fun target => (target, statement.point)).toList

theorem defined?_of_writes {statement : Statement} {declared : Variable} {point : PointId}
    (member : (declared, some point) ∈ statement.writes) :
    statement.action.defined? = some declared ∧ statement.point = some point := by
  unfold writes at member
  split at member
  · simp at member
  · next isCall =>
      simp only [List.mem_append, Option.mem_toList, Option.map_eq_some_iff, Prod.mk.injEq,
        List.mem_singleton, reduceCtorEq, and_false, or_false] at member
      obtain ⟨_, isResult, rfl, isPoint⟩ := member
      exact ⟨by rw [isCall]; exact isResult, isPoint⟩
  · simp at member
  · simp only [Option.mem_toList, Option.map_eq_some_iff, Prod.mk.injEq] at member
    obtain ⟨_, isTarget, rfl, isPoint⟩ := member
    exact ⟨isTarget, isPoint⟩

end Statement

def MethodSummary.slots (summary : MethodSummary) : List (Option Variable) :=
  summary.formals ++ [summary.result, some summary.exception]

def MethodSummary.mapVariables (change : Variable → Variable) (summary : MethodSummary) :
    MethodSummary :=
  { summary with
    formals := summary.formals.map (Option.map change)
    result := summary.result.map change
    exception := change summary.exception }

theorem MethodSummary.mapVariables_id (summary : MethodSummary) :
    summary.mapVariables id = summary := by
  simp [mapVariables]

end ObjectFlow
